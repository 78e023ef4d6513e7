/-!
# Hexadecimal digits

A number that is written in hexadecimal reads back (`hex?_hexText`).
-/
namespace CavityRepair

/-- The value of a hexadecimal digit of either case. -/
def hexDigit? (c : Char) : Option Nat :=
  if '0' ≤ c ∧ c ≤ '9' then some (c.toNat - '0'.toNat)
  else if 'a' ≤ c ∧ c ≤ 'f' then some (c.toNat - 'a'.toNat + 10)
  else if 'A' ≤ c ∧ c ≤ 'F' then some (c.toNat - 'A'.toNat + 10)
  else none

/-- Reads on behind the digits whose value is `n`. -/
def hexFrom? (n : Nat) : List Char → Option Nat
  | [] => some n
  | c :: rest => do hexFrom? (16 * n + (← hexDigit? c)) rest

/-- The number written in hexadecimal; a text without digits is none. -/
def hex? : List Char → Option Nat
  | [] => none
  | digits => hexFrom? 0 digits

/-- A number in lower-case hexadecimal, without leading zeros. -/
def hexText (n : Nat) : List Char := Nat.toDigits 16 n

theorem hexDigit?_digitChar {d : Nat} (h : d < 16) : hexDigit? d.digitChar = some d := by
  have hall : ∀ d < 16, hexDigit? d.digitChar = some d := by decide
  exact hall d h

/-- Digits behind others count on from their value. -/
theorem hexFrom?_append (n : Nat) (a b : List Char) :
    hexFrom? n (a ++ b) = (hexFrom? n a).bind (hexFrom? · b) := by
  induction a generalizing n with
  | nil => rfl
  | cons c rest ih =>
    simp only [List.cons_append, hexFrom?, Option.bind_eq_bind]
    cases hexDigit? c with
    | none => rfl
    | some d => exact ih (16 * n + d)

theorem hexFrom?_hexText (n : Nat) : hexFrom? 0 (hexText n) = some n := by
  induction n using Nat.strongRecOn with
  | ind n ih =>
    unfold hexText
    rcases Nat.lt_or_ge n 16 with hlt | hge
    · rw [Nat.toDigits_of_lt_base hlt, hexFrom?, hexDigit?_digitChar hlt]
      simp [hexFrom?]
    · have hrest : hexFrom? 0 (Nat.toDigits 16 (n / 16)) = some (n / 16) := ih (n / 16) (by omega)
      rw [Nat.toDigits_of_base_le (by decide) hge, hexFrom?_append, hrest, Option.bind_some,
        hexFrom?, hexDigit?_digitChar (Nat.mod_lt n (by decide))]
      simp [hexFrom?, Nat.div_add_mod]

/-- Only digits can be read. -/
theorem isSome_of_hexFrom? {n k : Nat} {digits : List Char} (h : hexFrom? n digits = some k) :
    ∀ c ∈ digits, (hexDigit? c).isSome := by
  induction digits generalizing n with
  | nil => exact List.forall_mem_nil _
  | cons c rest ih =>
    obtain ⟨d, hd, hrest⟩ := Option.bind_eq_some_iff.1 h
    exact List.forall_mem_cons.2 ⟨hd ▸ rfl, ih hrest⟩

theorem hexText_ne_nil (n : Nat) : hexText n ≠ [] := Nat.toDigits_ne_nil

theorem hex?_hexText (n : Nat) : hex? (hexText n) = some n := by
  have hread := hexFrom?_hexText n
  have hne := hexText_ne_nil n
  cases htext : hexText n with
  | nil => exact absurd htext hne
  | cons c rest => rwa [htext] at hread

end CavityRepair
