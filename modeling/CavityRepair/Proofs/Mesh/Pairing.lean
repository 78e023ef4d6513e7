import CavityRepair.Mesh.Build
import CavityRepair.Proofs.Mesh.Linked
import Mathlib.Data.List.Perm.Basic
/-!
# Pairing loses nothing

Adding half-faces to a `Pairing` only moves them about: what waits and what is paired is together
what was added (`Pairing.entries_of_addAll_empty`). No key is seen in two places
(`Pairing.keys_nodup_of_addAll_empty`), so what the half-faces of a key have in common tells pairs
apart, and what waits is left in the order in which it came (`Pairing.unpaired_of_addAll_empty`).
When the half-faces of a list of links differ, linking them one after the other makes the two of
each link twins of each other (`Mesh.look_foldl_link`).
-/
namespace CavityRepair

/-- The half-faces that a list of links joins. -/
def sidesOf (links : List (HalfFace × HalfFace)) : List HalfFace :=
  links.flatMap fun pair => [pair.1, pair.2]

theorem sidesOf_cons (pair : HalfFace × HalfFace) (links : List (HalfFace × HalfFace)) :
    sidesOf (pair :: links) = pair.1 :: pair.2 :: sidesOf links := rfl

theorem sidesOf_append (links links' : List (HalfFace × HalfFace)) :
    sidesOf (links ++ links') = sidesOf links ++ sidesOf links' := List.flatMap_append

theorem mem_sidesOf {links : List (HalfFace × HalfFace)} {h : HalfFace} :
    h ∈ sidesOf links ↔ ∃ pair ∈ links, h = pair.1 ∨ h = pair.2 := by
  simp [sidesOf]

namespace Pairing

variable {κ : Type}

/-- All half-faces that were added, with their keys. -/
def entries (p : Pairing κ) : List (κ × HalfFace) :=
  p.waiting ++ p.paired.flatMap fun pair => [(pair.1, pair.2.1), (pair.1, pair.2.2)]

theorem entries_map_snd (p : Pairing κ) :
    (p.entries.map (·.2)).Perm (sidesOf p.links ++ p.unpaired.map (·.2)) := by
  have hlinks : (sidesOf p.links).Perm (sidesOf (p.paired.map (·.2))) :=
    ((List.reverse_perm p.paired).map _).flatMap_right _
  have hwait : (p.unpaired.map (·.2)).Perm (p.waiting.map (·.2)) :=
    (List.reverse_perm p.waiting).map _
  refine List.Perm.trans ?_ (List.perm_append_comm.trans (hlinks.append hwait).symm)
  simp [entries, sidesOf, List.map_flatMap, List.flatMap_map]

/-- Two half-faces that were paired came with the same key. -/
theorem entries_of_links {p : Pairing κ} {pair : HalfFace × HalfFace} (h : pair ∈ p.links) :
    ∃ key, (key, pair.1) ∈ p.entries ∧ (key, pair.2) ∈ p.entries := by
  obtain ⟨⟨key, side, other⟩, hmem, rfl⟩ := List.mem_map.1 h
  rw [List.mem_reverse] at hmem
  refine ⟨key, ?_, ?_⟩ <;> refine List.mem_append_right _ (List.mem_flatMap.2 ⟨_, hmem, ?_⟩) <;>
    simp

/-- The keys that were seen, one for each pair and one for each half-face without a partner. -/
def keys (p : Pairing κ) : List κ := p.paired.reverse.map (·.1) ++ p.unpaired.map (·.1)

theorem mem_entries_iff {p : Pairing κ} {key : κ} {side : HalfFace} :
    (key, side) ∈ p.entries ↔ (key, side) ∈ p.unpaired ∨
      ∃ pair, (key, pair) ∈ p.paired ∧ (side = pair.1 ∨ side = pair.2) := by
  unfold entries unpaired
  rw [List.mem_append, List.mem_reverse, List.mem_flatMap]
  refine or_congr_right ⟨?_, ?_⟩
  · rintro ⟨⟨key', pair⟩, hpair, hside⟩
    simp only [List.mem_cons, Prod.mk.injEq, List.not_mem_nil, or_false] at hside
    rcases hside with ⟨rfl, rfl⟩ | ⟨rfl, rfl⟩
    · exact ⟨pair, hpair, .inl rfl⟩
    · exact ⟨pair, hpair, .inr rfl⟩
  · rintro ⟨pair, hpair, rfl | rfl⟩ <;> exact ⟨_, hpair, by simp⟩

theorem exists_of_mem_keys {p : Pairing κ} {key : κ} (h : key ∈ p.keys) :
    ∃ side, (key, side) ∈ p.entries := by
  unfold keys at h
  rcases List.mem_append.1 h with h | h
  · obtain ⟨⟨key, pair⟩, hpair, rfl⟩ := List.mem_map.1 h
    exact ⟨pair.1, mem_entries_iff.2 (.inr ⟨pair, List.mem_reverse.1 hpair, .inl rfl⟩)⟩
  · obtain ⟨⟨key, side⟩, hside, rfl⟩ := List.mem_map.1 h
    exact ⟨side, mem_entries_iff.2 (.inl hside)⟩

/-- What the half-faces of a key have in common, read off the links and the half-faces that are left
over, is read off the keys. -/
theorem map_links_append_map_unpaired {β : Type} {p : Pairing κ} {f : HalfFace → β} {g : κ → β}
    (h : ∀ key side, (key, side) ∈ p.entries → f side = g key) :
    p.links.map (fun pair => f pair.1) ++ p.unpaired.map (fun entry => f entry.2) =
      p.keys.map g := by
  unfold links keys
  rw [List.map_append, List.map_map, List.map_map, List.map_map]
  congr 1
  · refine List.map_congr_left fun entry he => ?_
    exact h entry.1 entry.2.1 (mem_entries_iff.2 (.inr ⟨_, List.mem_reverse.1 he, .inl rfl⟩))
  · exact List.map_congr_left fun entry he => h entry.1 entry.2 (mem_entries_iff.2 (.inl he))

/-! ### Adding, entry by entry -/

variable [DecidableEq κ]

theorem entries_add {p q : Pairing κ} {key : κ} {side : HalfFace} (h : p.add key side = .ok q) :
    q.entries.Perm ((key, side) :: p.entries) := by
  unfold add at h
  split at h
  · rename_i found other hfind
    obtain ⟨hkey, front, back, hw, hfront⟩ := List.find?_eq_some_iff_append.1 hfind
    have hfound : found = key := by simpa using hkey
    subst hfound
    cases h
    unfold entries
    dsimp only
    rw [hw, List.eraseP_append_right _ (by simpa using hfront), List.eraseP_cons_of_pos (by simp),
      List.flatMap_cons]
    simp only [List.append_assoc, List.cons_append, List.nil_append]
    -- The new half-face and its partner move in front of the pairs.
    refine List.Perm.trans (List.Perm.append_left front List.perm_middle) ?_
    refine List.perm_middle.trans (.cons _ ?_)
    exact List.Perm.append_left front List.perm_middle
  · split at h
    · cases h
    · cases h
      exact .refl _

/-- What was added is still there. -/
theorem entries_addAll {p q : Pairing κ} {sides : List (κ × HalfFace)}
    (h : p.addAll sides = .ok q) : q.entries.Perm (sides ++ p.entries) := by
  induction sides generalizing p with
  | nil =>
    cases h
    exact .refl _
  | cons first rest ih =>
    obtain ⟨key, side⟩ := first
    unfold addAll at h
    cases hadd : p.add key side with
    | error key' => simp [hadd, bind, Except.bind] at h
    | ok p' =>
      rw [hadd] at h
      exact (ih h).trans ((List.Perm.append_left _ (entries_add hadd)).trans List.perm_middle)

theorem entries_of_addAll_empty {q : Pairing κ} {sides : List (κ × HalfFace)}
    (h : empty.addAll sides = .ok q) : q.entries.Perm sides := by
  simpa [entries, empty] using entries_addAll h

/-- A third half-face with the same key is refused, so no key is there twice. -/
theorem keys_nodup_add {p q : Pairing κ} {key : κ} {side : HalfFace} (hp : p.keys.Nodup)
    (h : p.add key side = .ok q) : q.keys.Nodup := by
  unfold keys unpaired at hp ⊢
  rw [List.map_reverse, List.map_reverse, ← List.reverse_append, List.nodup_reverse] at hp ⊢
  unfold add at h
  split at h
  · rename_i found other hfind
    obtain ⟨hkey, front, back, hw, hfront⟩ := List.find?_eq_some_iff_append.1 hfind
    have hfound : found = key := by simpa using hkey
    subst hfound
    cases h
    -- The key of the half-face that waited goes over to the pair.
    dsimp only
    rw [hw, List.eraseP_append_right _ (by simpa using hfront), List.eraseP_cons_of_pos (by simp)]
    rw [hw] at hp
    simp only [List.map_append, List.map_cons, List.append_assoc, List.cons_append] at hp ⊢
    refine (List.Perm.nodup_iff ?_).1 hp
    exact List.Perm.append_left _ List.perm_middle.symm
  · split at h
    · cases h
    · rename_i hwaiting hpaired
      cases h
      rw [List.find?_eq_none] at hwaiting
      rw [List.any_eq_true, not_exists] at hpaired
      refine List.nodup_cons.2 ⟨fun hmem => ?_, hp⟩
      rcases List.mem_append.1 hmem with hmem | hmem
      · obtain ⟨entry, he, hkey⟩ := List.mem_map.1 hmem
        exact hwaiting entry he (by simpa using hkey)
      · obtain ⟨pair, hpair, hkey⟩ := List.mem_map.1 hmem
        exact hpaired pair ⟨hpair, by simpa using hkey⟩

theorem keys_nodup_addAll {p q : Pairing κ} {sides : List (κ × HalfFace)} (hp : p.keys.Nodup)
    (h : p.addAll sides = .ok q) : q.keys.Nodup := by
  induction sides generalizing p with
  | nil =>
    cases h
    exact hp
  | cons first rest ih =>
    obtain ⟨p', hadd, hrest⟩ := bind_eq_ok_iff.1 h
    exact ih (keys_nodup_add hp hadd) hrest

theorem keys_nodup_of_addAll_empty {q : Pairing κ} {sides : List (κ × HalfFace)}
    (h : empty.addAll sides = .ok q) : q.keys.Nodup :=
  keys_nodup_addAll (p := empty) List.nodup_nil h

/-! ### Order of what waits -/

theorem unpaired_add {p q : Pairing κ} {key : κ} {side : HalfFace} (h : p.add key side = .ok q) :
    q.unpaired.Sublist (p.unpaired ++ [(key, side)]) := by
  unfold add at h
  unfold unpaired
  split at h
  · cases h
    exact (List.eraseP_sublist.reverse).trans (List.sublist_append_left _ _)
  · split at h
    · cases h
    · cases h
      rw [List.reverse_cons]

/-- Half-faces without a partner are left over in the order in which they came. -/
theorem unpaired_addAll {p q : Pairing κ} {sides : List (κ × HalfFace)}
    (h : p.addAll sides = .ok q) : q.unpaired.Sublist (p.unpaired ++ sides) := by
  induction sides generalizing p with
  | nil =>
    cases h
    simp
  | cons first rest ih =>
    obtain ⟨p', hadd, hrest⟩ := bind_eq_ok_iff.1 h
    refine (ih hrest).trans ?_
    have := (unpaired_add hadd).append_right rest
    rwa [List.append_assoc, List.singleton_append] at this

theorem unpaired_of_addAll_empty {q : Pairing κ} {sides : List (κ × HalfFace)}
    (h : empty.addAll sides = .ok q) : q.unpaired.Sublist sides := by
  simpa [unpaired, empty] using unpaired_addAll h

/-! ### How often a key comes -/

/-- How many of some half-faces have a key. -/
def times (sides : List (κ × HalfFace)) (key : κ) : Nat :=
  sides.countP fun entry => decide (entry.1 = key)

theorem times_append (sides sides' : List (κ × HalfFace)) (key : κ) :
    times (sides ++ sides') key = times sides key + times sides' key := List.countP_append

theorem times_eq_count (sides : List (κ × HalfFace)) (key : κ) :
    times sides key = (sides.map (·.1)).count key := by
  rw [List.count, List.countP_map]
  rfl

theorem times_pos_iff {sides : List (κ × HalfFace)} {key : κ} :
    0 < times sides key ↔ key ∈ sides.map (·.1) := by
  rw [times_eq_count, List.count_pos_iff]

/-- A pair has two half-faces with its key, and what waits has one. -/
theorem times_entries (p : Pairing κ) (key : κ) : times p.entries key =
    times p.unpaired key + 2 * (p.paired.map (·.1)).count key := by
  have hpairs : ∀ paired : List (κ × HalfFace × HalfFace),
      times (paired.flatMap fun pair => [(pair.1, pair.2.1), (pair.1, pair.2.2)]) key =
        2 * (paired.map (·.1)).count key := by
    intro paired
    induction paired with
    | nil => rfl
    | cons pair rest ih =>
      rw [List.flatMap_cons, times_append, ih, List.map_cons, List.count_cons]
      by_cases hkey : pair.1 = key
      · simp [times, hkey]
        omega
      · simp [times, hkey]
  have hwait : times p.unpaired key = times p.waiting key :=
    (List.reverse_perm p.waiting).countP_eq _
  rw [entries, times_append, hpairs, hwait]

theorem times_of_addAll_empty {q : Pairing κ} {sides : List (κ × HalfFace)}
    (h : empty.addAll sides = .ok q) (key : κ) :
    times sides key = times q.unpaired key + 2 * (q.paired.map (·.1)).count key := by
  rw [← times_entries]
  exact ((entries_of_addAll_empty h).countP_eq _).symm

theorem times_keys_le_one {q : Pairing κ} {sides : List (κ × HalfFace)}
    (h : empty.addAll sides = .ok q) (key : κ) :
    times q.unpaired key + (q.paired.map (·.1)).count key ≤ 1 := by
  have hle := List.nodup_iff_count_le_one.1 (keys_nodup_of_addAll_empty h) key
  rw [keys, List.map_reverse, List.count_append, List.count_reverse, ← times_eq_count] at hle
  omega

/-- What goes well has no key three times. -/
theorem times_le_two {q : Pairing κ} {sides : List (κ × HalfFace)}
    (h : empty.addAll sides = .ok q) (key : κ) : times sides key ≤ 2 := by
  have := times_of_addAll_empty h key
  have := times_keys_le_one h key
  omega

/-- What is left over are the keys that came once. -/
theorem mem_unpaired_iff {q : Pairing κ} {sides : List (κ × HalfFace)}
    (h : empty.addAll sides = .ok q) {key : κ} :
    key ∈ q.unpaired.map (·.1) ↔ times sides key = 1 := by
  have := times_of_addAll_empty h key
  have := times_keys_le_one h key
  rw [← times_pos_iff]
  omega

theorem unpaired_keys_nodup {q : Pairing κ} {sides : List (κ × HalfFace)}
    (h : empty.addAll sides = .ok q) : (q.unpaired.map (·.1)).Nodup :=
  (List.nodup_append.1 (keys_nodup_of_addAll_empty h)).2.1

/-- A half-face is refused when its key was there twice. -/
theorem times_of_add_error {p : Pairing κ} {key bad : κ} {side : HalfFace}
    (h : p.add key side = .error bad) : bad = key ∧ 2 ≤ times p.entries key := by
  unfold add at h
  split at h
  · cases h
  · split at h
    · rename_i hpaired
      cases h
      refine ⟨rfl, ?_⟩
      obtain ⟨pair, hpair, hkey⟩ := List.any_eq_true.1 hpaired
      have hmem : key ∈ p.paired.map (·.1) := List.mem_map.2 ⟨pair, hpair, by simpa using hkey⟩
      have := List.count_pos_iff.2 hmem
      rw [times_entries]
      omega
    · cases h

theorem times_of_addAll_error {p : Pairing κ} {sides : List (κ × HalfFace)} {bad : κ}
    (h : p.addAll sides = .error bad) : 2 < times (p.entries ++ sides) bad := by
  induction sides generalizing p with
  | nil => cases h
  | cons first rest ih =>
    obtain ⟨key, side⟩ := first
    rcases bind_eq_error_iff.1 h with hadd | ⟨p', hadd, hrest⟩
    · obtain ⟨rfl, htwo⟩ := times_of_add_error hadd
      have hone : 0 < times ((bad, side) :: rest) bad :=
        times_pos_iff.2 (List.mem_map.2 ⟨_, List.mem_cons_self, rfl⟩)
      rw [times_append]
      omega
    · have hperm : (p'.entries ++ rest).Perm (p.entries ++ (key, side) :: rest) :=
        ((entries_add hadd).append_right rest).trans List.perm_middle.symm
      exact (ih hrest).trans_eq (hperm.countP_eq _)

/-- What is refused has a key three times. -/
theorem times_of_addAll_empty_error {sides : List (κ × HalfFace)} {bad : κ}
    (h : empty.addAll sides = .error bad) : 2 < times sides bad := by
  simpa [entries, empty] using times_of_addAll_error h

end Pairing

namespace Mesh

/-- The entry of an array of twins at a half-face. -/
def look (twins : Array (Quad HalfFace)) (h : HalfFace) : Option HalfFace :=
  twins[h.tet]?.map (·.get h.facet)

@[simp] theorem size_link (twins : Array (Quad HalfFace)) (pair : HalfFace × HalfFace) :
    (link twins pair).size = twins.size := by
  simp [link]

theorem look_modify (twins : Array (Quad HalfFace)) (a b h : HalfFace) (ha : a.tet < twins.size) :
    look (twins.modify a.tet (·.set a.facet b)) h = if h = a then some b else look twins h := by
  obtain ⟨tet, facet⟩ := h
  obtain ⟨tet', facet'⟩ := a
  unfold look
  rw [Array.getElem?_modify]
  by_cases ht : tet' = tet
  · subst ht
    rw [Array.getElem?_eq_getElem ha]
    by_cases hf : facet = facet' <;> simp [Quad.get_set, hf]
  · simp [ht, Ne.symm ht]

theorem look_link {twins : Array (Quad HalfFace)} {a b : HalfFace} (ha : a.tet < twins.size)
    (hb : b.tet < twins.size) (h : HalfFace) : look (link twins (a, b)) h =
      if h = b then some a else if h = a then some b else look twins h := by
  unfold link
  rw [look_modify _ _ _ _ (by simpa using hb), look_modify _ _ _ _ ha]

/-- When no half-face occurs twice, later links leave the earlier ones alone. -/
theorem look_foldl_link {links : List (HalfFace × HalfFace)} {twins : Array (Quad HalfFace)}
    (hnodup : (sidesOf links).Nodup) (hlt : ∀ h ∈ sidesOf links, h.tet < twins.size) :
    (∀ pair ∈ links, look (links.foldl link twins) pair.1 = some pair.2 ∧
      look (links.foldl link twins) pair.2 = some pair.1) ∧
    ∀ h, h ∉ sidesOf links → look (links.foldl link twins) h = look twins h := by
  induction links generalizing twins with
  | nil => simp
  | cons pair rest ih =>
    obtain ⟨a, b⟩ := pair
    rw [sidesOf_cons] at hnodup hlt
    simp only [List.nodup_cons, List.mem_cons, not_or] at hnodup hlt
    obtain ⟨⟨hab, ha⟩, hb, hrest⟩ := hnodup
    have halt := hlt a (.inl rfl)
    have hblt := hlt b (.inr (.inl rfl))
    have hsize : ∀ h ∈ sidesOf rest, h.tet < (link twins (a, b)).size := fun h hh => by
      simpa using hlt h (.inr (.inr hh))
    obtain ⟨ihlinks, ihother⟩ := ih hrest hsize
    simp only [List.foldl_cons, List.mem_cons]
    refine ⟨?_, ?_⟩
    · rintro pair (rfl | hp)
      · rw [ihother a ha, ihother b hb, look_link halt hblt, look_link halt hblt]
        simp [hab]
      · exact ihlinks pair hp
    · intro h hh
      rw [sidesOf_cons, List.mem_cons, List.mem_cons, not_or, not_or] at hh
      rw [ihother h hh.2.2, look_link halt hblt, if_neg hh.2.1, if_neg hh.1]

end Mesh

end CavityRepair
