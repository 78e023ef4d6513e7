import CavityRepair.Document.Reader
import Mathlib.Data.List.TakeWhile
/-!
# Numbers as words of a document

A number is written as one word: its characters are all letters of words, so nothing but what
follows the number ends it. A whole number of 64 bits, signed or unsigned, reads back from its word
(`Document.word?_toString`).
-/
namespace CavityRepair

/-- Letters that make up one word. -/
def Document.IsWord (letters : List Char) : Prop :=
  letters ≠ [] ∧ letters.all Document.isWordLetter

namespace Document

theorem isWordLetter_of_isDigit {c : Char} (h : c.isDigit) : isWordLetter c := by
  simp [isWordLetter, Char.isAlphanum, h]

/-! ## Whole numbers -/

theorem isDigit_of_mem_toDigits {n : Nat} {c : Char} (h : c ∈ Nat.toDigits 10 n) : c.isDigit :=
  Nat.isDigit_of_mem_toDigits (by decide) (by decide) h

/-- Only zero is written with a zero in front. -/
theorem head?_toDigits {n : Nat} (h : 0 < n) : (Nat.toDigits 10 n).head? ≠ some '0' := by
  induction n using Nat.strongRecOn with
  | ind n ih =>
    rcases Nat.lt_or_ge n 10 with hlt | hge
    · have hall : ∀ d < 10, 0 < d → d.digitChar ≠ '0' := by decide
      rw [Nat.toDigits_of_lt_base hlt, List.head?_cons]
      exact fun heq => hall n hlt h (Option.some.inj heq)
    · have hfront := ih (n / 10) (by omega) (by omega)
      rw [Nat.toDigits_of_base_le (by decide) hge, List.head?_append]
      cases hhead : (Nat.toDigits 10 (n / 10)).head? with
      | none => exact absurd (List.head?_eq_none_iff.1 hhead) Nat.toDigits_ne_nil
      | some c => rwa [hhead] at hfront

theorem digits?_toDigits (n : Nat) :
    digits? (Nat.toDigits 10 n) = some (Nat.toDigits 10 n, []) := by
  have htake : (Nat.toDigits 10 n).takeWhile Char.isDigit = Nat.toDigits 10 n :=
    List.takeWhile_eq_self_iff.2 fun _ => isDigit_of_mem_toDigits
  have hdrop : (Nat.toDigits 10 n).dropWhile Char.isDigit = [] :=
    List.dropWhile_eq_nil_iff.2 fun _ => isDigit_of_mem_toDigits
  unfold digits?
  rw [htake, hdrop, if_neg Nat.toDigits_ne_nil]

theorem digitsValue_toDigits (n : Nat) : digitsValue (Nat.toDigits 10 n) = n :=
  Nat.ofDigitChars_toDigits (by decide) (by decide)

/-- The digits of a number have no leading zero. -/
theorem not_leading_zero (n : Nat) :
    ¬((Nat.toDigits 10 n).head? = some '0' ∧ (Nat.toDigits 10 n).length ≠ 1) := by
  rintro ⟨hhead, hlength⟩
  rcases Nat.eq_zero_or_pos n with rfl | hpos
  · exact hlength rfl
  · exact head?_toDigits hpos hhead

/-- The sign that a number is written with. -/
def sign (negative : Bool) : List Char := if negative then ['-'] else []

theorem numeral?_digits (negative : Bool) (n : Nat) :
    numeral? (sign negative ++ Nat.toDigits 10 n) =
      some ⟨negative, Nat.toDigits 10 n, none, none⟩ := by
  cases negative with
  | true => simp [sign, numeral?, digits?_toDigits, not_leading_zero]
  | false =>
    have hsign : ((Nat.toDigits 10 n).head? == some '-') = false := by
      simp only [beq_eq_false_iff_ne]
      intro hhead
      have hdigit := isDigit_of_mem_toDigits (List.mem_of_head? hhead)
      cases hdigit
    simp [sign, numeral?, hsign, digits?_toDigits, not_leading_zero]

/-- What begins with a digit or a sign is a number, if anything. -/
theorem word?_eq_number? {negative : Bool} {n : Nat} :
    word? (sign negative ++ Nat.toDigits 10 n) = number? (sign negative ++ Nat.toDigits 10 n) := by
  have hhead : ∀ c, (sign negative ++ Nat.toDigits 10 n).head? = some c → c = '-' ∨ c.isDigit := by
    intro c hc
    rcases List.mem_append.1 (List.mem_of_head? hc) with hsign | hdigit
    · cases negative with
      | true => exact .inl (List.mem_singleton.1 hsign)
      | false => cases hsign
    · exact .inr (isDigit_of_mem_toDigits hdigit)
  have hne : ∀ {word : List Char} {c : Char}, word.head? = some c → ¬(c = '-' ∨ c.isDigit) →
      sign negative ++ Nat.toDigits 10 n ≠ word := by
    rintro word c hword hc rfl
    exact hc (hhead c hword)
  unfold word?
  rw [if_neg (hne (c := 'n') rfl (by decide)), if_neg (hne (c := 't') rfl (by decide)),
    if_neg (hne (c := 'f') rfl (by decide))]

theorem toList_toString (n : Int) :
    (toString n).toList = sign (decide (n < 0)) ++ Nat.toDigits 10 n.natAbs := by
  cases n with
  | ofNat n =>
    change n.repr.toList = _
    simp [sign, Nat.toList_repr]
  | negSucc n =>
    change ("-" ++ (n + 1).repr).toList = _
    simp [sign, Nat.toList_repr, Int.negSucc_lt_zero]

/-- A whole number of 64 bits, signed or unsigned. -/
def Fits (n : Int) : Prop := -(UInt64.size : Int) ≤ 2 * n ∧ n < UInt64.size

instance (n : Int) : Decidable (Fits n) := inferInstanceAs (Decidable (_ ∧ _))

theorem value?_digits {n : Nat} (h : n < UInt64.size) :
    Numeral.value? ⟨false, Nat.toDigits 10 n, none, none⟩ = some (.integer n) := by
  simp [Numeral.value?, digitsValue_toDigits, h]

theorem value?_neg_digits {n : Nat} (hpos : 0 < n) (h : 2 * n ≤ UInt64.size) :
    Numeral.value? ⟨true, Nat.toDigits 10 n, none, none⟩ = some (.integer (-n)) := by
  simp [Numeral.value?, digitsValue_toDigits, hpos, h]

theorem word?_toString {n : Int} (h : Fits n) : word? (toString n).toList = some (.integer n) := by
  rw [toList_toString, word?_eq_number?, number?, numeral?_digits, Option.bind_eq_bind,
    Option.bind_some]
  obtain ⟨hlow, hhigh⟩ := h
  by_cases hneg : n < 0
  · have hvalue : -(n.natAbs : Int) = n := by omega
    rw [decide_eq_true hneg, value?_neg_digits (by omega) (by omega), hvalue]
  · have hvalue : (n.natAbs : Int) = n := by omega
    rw [decide_eq_false hneg, value?_digits (by omega), hvalue]

theorem isWord_toString (n : Int) : IsWord (toString n).toList := by
  rw [toList_toString]
  refine ⟨by simp [Nat.toDigits_ne_nil], List.all_eq_true.2 fun c hc => ?_⟩
  rcases List.mem_append.1 hc with hsign | hdigit
  · unfold sign at hsign
    split at hsign
    · rw [List.mem_singleton.1 hsign]
      decide
    · cases hsign
  · exact isWordLetter_of_isDigit (isDigit_of_mem_toDigits hdigit)

/-! ## Doubles -/

theorem isWordLetter_positional {d : Decimal} {c : Char} (h : c ∈ d.positional.toList) :
    isWordLetter c := by
  have hdigit : c = '0' ∨ c ∈ Nat.toDigits 10 d.digits → isWordLetter c := by
    rintro (rfl | hc)
    · decide
    · exact isWordLetter_of_isDigit (isDigit_of_mem_toDigits hc)
  unfold Decimal.positional at h
  dsimp only at h
  split at h
  · rw [String.toList_ofList, List.mem_append, List.mem_replicate] at h
    exact hdigit (h.symm.imp_left And.right)
  · rw [String.toList_ofList, List.mem_append, List.mem_cons] at h
    have hpadded : ∀ {k : Nat},
        c ∈ List.replicate k '0' ++ Nat.toDigits 10 d.digits → isWordLetter c := fun hc =>
      hdigit ((List.mem_append.1 hc).imp_left List.eq_of_mem_replicate)
    rcases h with h | rfl | h
    · exact hpadded (List.mem_of_mem_take h)
    · decide
    · exact hpadded (List.mem_of_mem_drop h)

theorem isWordLetter_floatText {x : Float} (hx : finite x) {c : Char}
    (h : c ∈ (floatText x).toList) : isWordLetter c := by
  obtain ⟨d, hd⟩ := Option.isSome_iff_exists.1 hx
  unfold floatText at h
  rw [hd] at h
  rw [String.toList_append, List.mem_append] at h
  rcases h with hsign | hdigit
  · split at hsign
    · rw [List.mem_singleton.1 hsign]
      decide
    · cases hsign
  · exact isWordLetter_positional hdigit

/-- A double is written as one word, also when it has no number. -/
theorem isWord_floatLiteral (x : Float) : IsWord (floatLiteral x).toList := by
  unfold floatLiteral
  split
  · exact ⟨by decide, by decide⟩
  · next hx =>
    have hfinite : finite x := by simpa using hx
    dsimp only
    split
    · next hpoint =>
      exact ⟨List.ne_nil_of_mem hpoint,
        List.all_eq_true.2 fun c hc => isWordLetter_floatText hfinite hc⟩
    · have hpoint : ".0".toList.all isWordLetter := by decide
      rw [String.toList_append]
      refine ⟨by simp, List.all_eq_true.2 fun c hc => ?_⟩
      rcases List.mem_append.1 hc with hc | hc
      · exact isWordLetter_floatText hfinite hc
      · exact List.all_eq_true.1 hpoint c hc

/-- The word that a double is written as is read as that double. -/
def Carried (x : Float) : Prop := word? (floatLiteral x).toList = some (.float x)

instance (x : Float) : Decidable (Carried x) :=
  match hread : word? (floatLiteral x).toList with
  | some (.float y) =>
    decidable_of_iff (y = x) <| by
      rw [Carried, hread, Option.some_inj]
      exact ⟨congrArg Document.float, Document.float.inj⟩
  | some .null | some (.bool _) | some (.integer _) | some (.string _) | some (.array _)
  | some (.object _) | none => isFalse fun h => by rw [Carried, hread] at h; cases h

end Document

end CavityRepair
