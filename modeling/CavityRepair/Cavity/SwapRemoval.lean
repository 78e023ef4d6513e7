/-!
# Removal by swapping

Lists whose order means nothing lose an entry by putting their last entry into its place.

* `swapRemove?_last`, `swapRemove?_before_last`: where the entries go.
* `swapRemove?_perm`: what is left is the list without the entry, up to order.
* `length_of_swapErase?`: one entry is gone afterwards.
* `exists_swapRemoveAll?`: places in descending order are those of the list itself.
-/
namespace CavityRepair

variable {α : Type}

/-- The entry at a place, and the list with its last entry put there instead. -/
def swapRemove? (items : List α) (i : Nat) : Option (α × List α) :=
  match items[i]?, items.getLast? with
  | some a, some last => some (a, if i + 1 = items.length then items.dropLast
      else (items.set i last).dropLast)
  | _, _ => none

/-- The place of the last occurrence of a value. -/
def lastPlace? [DecidableEq α] (items : List α) (a : α) : Option Nat :=
  (items.reverse.findIdx? (· = a)).map fun i => items.length - 1 - i

/-- The list without the last occurrence of a value. -/
def swapErase? [DecidableEq α] (items : List α) (a : α) : Option (List α) := do
  let i ← lastPlace? items a
  let (_, rest) ← swapRemove? items i
  return rest

/-- Removes the entries at several places, one after the other. -/
def swapRemoveAll? (items : List α) : List Nat → Option (List α × List α)
  | [] => some ([], items)
  | i :: places => do
    let (a, rest) ← swapRemove? items i
    let (others, rest) ← swapRemoveAll? rest places
    return (a :: others, rest)

/-- The last entry is just dropped. -/
theorem swapRemove?_last (front : List α) (a : α) :
    swapRemove? (front ++ [a]) front.length = some (a, front) := by
  simp [swapRemove?]

/-- Of an entry before the last, the last takes the place. -/
theorem swapRemove?_before_last (front back : List α) (a last : α) :
    swapRemove? (front ++ a :: (back ++ [last])) front.length =
      some (a, front ++ last :: back) := by
  have : (front ++ last :: (back ++ [last])).dropLast = front ++ last :: back := by
    rw [← List.cons_append, ← List.append_assoc, List.dropLast_concat]
  simp [swapRemove?, List.getLast?_cons, this]

/-- Every removal is one of the two. -/
theorem swapRemove?_cases {items rest : List α} {i : Nat} {a : α}
    (h : swapRemove? items i = some (a, rest)) :
    (items = rest ++ [a] ∧ i = rest.length) ∨
      ∃ front back last, items = front ++ a :: (back ++ [last]) ∧ i = front.length ∧
        rest = front ++ last :: back := by
  have hi : i < items.length := Nat.lt_of_not_le fun hi => by
    simp [swapRemove?, List.getElem?_eq_none hi] at h
  have hsplit : items = items.take i ++ items[i] :: items.drop (i + 1) := by simp
  have hlen : (items.take i).length = i := by simp; omega
  generalize items.take i = front at hsplit hlen
  generalize items[i] = b at hsplit
  rcases List.eq_nil_or_concat (items.drop (i + 1)) with hnil | ⟨back, last, hback⟩
  · rw [hnil] at hsplit
    subst hlen
    rw [hsplit, swapRemove?_last] at h
    cases h
    exact .inl ⟨hsplit, rfl⟩
  · rw [hback, List.concat_eq_append] at hsplit
    subst hlen
    rw [hsplit, swapRemove?_before_last] at h
    cases h
    exact .inr ⟨front, back, last, hsplit, rfl, rfl⟩

theorem length_of_swapRemove? {items rest : List α} {i : Nat} {a : α}
    (h : swapRemove? items i = some (a, rest)) : rest.length + 1 = items.length := by
  rcases swapRemove?_cases h with ⟨rfl, -⟩ | ⟨front, back, last, rfl, -, rfl⟩
  · simp
  · simp
    omega

/-- What is left is the list without the entry, up to order. -/
theorem swapRemove?_perm {items rest : List α} {i : Nat} {a : α}
    (h : swapRemove? items i = some (a, rest)) : items.Perm (a :: rest) := by
  rcases swapRemove?_cases h with ⟨rfl, -⟩ | ⟨front, back, last, rfl, -, rfl⟩
  · exact List.perm_append_singleton a rest
  · refine List.perm_middle.trans (.cons a ?_)
    exact .append_left front (List.perm_append_singleton last back)

theorem length_of_swapErase? [DecidableEq α] {items rest : List α} {a : α}
    (h : swapErase? items a = some rest) : rest.length + 1 = items.length := by
  simp only [swapErase?, Option.bind_eq_bind, Option.bind_eq_some_iff] at h
  obtain ⟨i, -, ⟨b, rest'⟩, hr, h⟩ := h
  cases h
  exact length_of_swapRemove? hr

theorem exists_swapRemove? {items : List α} {i : Nat} (h : i < items.length) :
    ∃ rest, swapRemove? items i = some (items[i], rest) := by
  have hlast : items.getLast? = some (items.getLast (List.ne_nil_of_length_pos (by omega))) :=
    List.getLast?_eq_some_getLast _
  unfold swapRemove?
  rw [List.getElem?_eq_getElem h, hlast]
  exact ⟨_, rfl⟩

/-- Entries in front of the removed one stay where they are. -/
theorem getElem?_of_swapRemove? {items rest : List α} {i j : Nat} {a : α}
    (h : swapRemove? items i = some (a, rest)) (hj : j < i) : rest[j]? = items[j]? := by
  rcases swapRemove?_cases h with ⟨rfl, rfl⟩ | ⟨front, back, last, rfl, rfl, rfl⟩
  · rw [List.getElem?_append_left hj]
  · rw [List.getElem?_append_left hj, List.getElem?_append_left hj]

/-- Places in descending order lie in front of all that was removed before. -/
theorem exists_swapRemoveAll? {items : List α} {places : List Nat} (hdesc : places.Pairwise (· > ·))
    (hlt : ∀ i ∈ places, i < items.length) :
    ∃ removed rest, swapRemoveAll? items places = some (removed, rest) ∧
      removed.map some = places.map (items[·]?) ∧ items.Perm (removed ++ rest) := by
  induction places generalizing items with
  | nil => exact ⟨[], items, rfl, rfl, .refl _⟩
  | cons i places ih =>
    rw [List.pairwise_cons] at hdesc
    rw [List.forall_mem_cons] at hlt
    obtain ⟨rest, hrest⟩ := exists_swapRemove? hlt.1
    have hlen := length_of_swapRemove? hrest
    have hlt' : ∀ j ∈ places, j < rest.length := fun j hj => by
      have := hdesc.1 j hj
      omega
    obtain ⟨removed, rest', hall, hmap, hperm⟩ := ih hdesc.2 hlt'
    refine ⟨items[i] :: removed, rest', ?_, ?_, ?_⟩
    · simp [swapRemoveAll?, hrest, hall]
    · rw [List.map_cons, List.map_cons, hmap, List.getElem?_eq_getElem hlt.1]
      congr 1
      exact List.map_congr_left fun j hj => getElem?_of_swapRemove? hrest (hdesc.1 j hj)
    · exact (swapRemove?_perm hrest).trans (hperm.cons _)

theorem exists_lastPlace? [DecidableEq α] {items : List α} {a : α} (h : a ∈ items) :
    ∃ i, lastPlace? items a = some i ∧ items[i]? = some a := by
  cases hfind : items.reverse.findIdx? (· = a) with
  | none =>
    rw [List.findIdx?_eq_none_iff] at hfind
    simpa using hfind a (List.mem_reverse.2 h)
  | some k =>
    obtain ⟨hk, hget, -⟩ := List.findIdx?_eq_some_iff_getElem.1 hfind
    rw [List.length_reverse] at hk
    refine ⟨items.length - 1 - k, by simp [lastPlace?, hfind], ?_⟩
    rw [decide_eq_true_eq, List.getElem_reverse] at hget
    rw [← hget, List.getElem?_eq_getElem]

/-- A value that occurs can be erased. -/
theorem exists_swapErase? [DecidableEq α] {items : List α} {a : α} (h : a ∈ items) :
    ∃ rest, swapErase? items a = some rest ∧ items.Perm (a :: rest) := by
  obtain ⟨i, hplace, hget⟩ := exists_lastPlace? h
  obtain ⟨hi, rfl⟩ := List.getElem?_eq_some_iff.1 hget
  obtain ⟨rest, hrest⟩ := exists_swapRemove? hi
  exact ⟨rest, by simp [swapErase?, hplace, hrest], swapRemove?_perm hrest⟩

end CavityRepair
