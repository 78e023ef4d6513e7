import CavityRepair.Proofs.Cavity.InBounds
/-!
# Which entries are removed

Giving a tetrahedron back takes faces out of a list by putting the last face into the hole. A face
that is to go later must not be the one that moves. It never is, since the places descend: what
moves comes from behind all places that are left.

* `Mesh.facesBefore_eq_ok`: the places that are collected, of whatever faces.
* `exists_swapRemoveAll?_elsewhere`: removing at descending places leaves the entries elsewhere.
* `swapErase?_eq_some`: erasing a value removes its last occurrence.
* `Site.removal_exact`: the three together, at any site.
-/
namespace CavityRepair

section

variable {α : Type}

/-- The entries of a list at all places but some. -/
def entriesElsewhere (items : List α) (places : List Nat) : List α :=
  ((List.range items.length).filter (· ∉ places)).filterMap (items[·]?)

theorem filterMap_getElem?_range (items : List α) :
    (List.range items.length).filterMap (items[·]?) = items := by
  have hmap : (List.range items.length).map (items[·]?) = items.map some := by
    refine List.ext_getElem (by simp) fun i hi hi' => ?_
    rw [List.length_map] at hi'
    simp [hi']
  calc (List.range items.length).filterMap (items[·]?)
      = ((List.range items.length).map (items[·]?)).filterMap id := by
        rw [List.filterMap_map, Function.id_comp]
    _ = items := by
        rw [hmap, List.filterMap_map]
        exact List.filterMap_some

/-- The entries at some places and those elsewhere are all entries. -/
theorem perm_append_entriesElsewhere {items removed : List α} {places : List Nat}
    (hnodup : places.Nodup) (hremoved : removed.map some = places.map (items[·]?)) :
    items.Perm (removed ++ entriesElsewhere items places) := by
  have hlt : ∀ place ∈ places, place < items.length := by
    intro place hplace
    have hmem : items[place]? ∈ removed.map some := hremoved ▸ List.mem_map_of_mem hplace
    obtain ⟨a, -, ha⟩ := List.mem_map.1 hmem
    exact (List.getElem?_eq_some_iff.1 ha.symm).1
  have hplaces : ((List.range items.length).filter (· ∈ places)).Perm places := by
    refine (List.perm_ext_iff_of_nodup (List.nodup_range.filter _) hnodup).2 fun place => ?_
    simp only [List.mem_filter, List.mem_range, decide_eq_true_eq, and_iff_right_iff_imp]
    exact hlt place
  have hentries : places.filterMap (items[·]?) = removed := by
    have h := congrArg (List.filterMap id) hremoved
    simpa [List.filterMap_map] using h.symm
  have hsplit := List.filter_append_perm (fun place => decide (place ∈ places))
    (List.range items.length)
  have hall := hsplit.symm.filterMap (items[·]?)
  rw [filterMap_getElem?_range, List.filterMap_append] at hall
  have hfirst := hplaces.filterMap (items[·]?)
  rw [hentries] at hfirst
  refine hall.trans ?_
  simpa [entriesElsewhere] using hfirst.append_right _

/-- Removing the entries at places in descending order leaves the entries elsewhere. -/
theorem exists_swapRemoveAll?_elsewhere {items : List α} {places : List Nat}
    (hdesc : places.Pairwise (· > ·)) (hlt : ∀ i ∈ places, i < items.length) :
    ∃ removed rest, swapRemoveAll? items places = some (removed, rest) ∧
      removed.map some = places.map (items[·]?) ∧ rest.Perm (entriesElsewhere items places) := by
  obtain ⟨removed, rest, hall, hremoved, hperm⟩ := exists_swapRemoveAll? hdesc hlt
  refine ⟨removed, rest, hall, hremoved, ?_⟩
  have hnodup : places.Nodup := hdesc.imp fun h => (Nat.ne_of_lt h).symm
  have hother := perm_append_entriesElsewhere hnodup hremoved
  exact (List.perm_append_left_iff removed).1 (hperm.symm.trans hother)

variable [DecidableEq α] {items rest : List α} {a : α}

theorem lastPlace?_eq_none_iff : lastPlace? items a = none ↔ a ∉ items := by
  rw [lastPlace?, Option.map_eq_none_iff, List.findIdx?_eq_none_iff]
  simp only [List.mem_reverse, decide_eq_false_iff_not]
  exact ⟨fun h ha => h a ha rfl, fun h b hb heq => h (heq ▸ hb)⟩

/-- The last place of a value has it, and no later place does. -/
theorem lastPlace?_eq_some {i : Nat} (h : lastPlace? items a = some i) :
    items[i]? = some a ∧ ∀ j, i < j → items[j]? ≠ some a := by
  obtain ⟨k, hfind, rfl⟩ := Option.map_eq_some_iff.1 h
  obtain ⟨hk, hget, hfirst⟩ := List.findIdx?_eq_some_iff_getElem.1 hfind
  rw [List.length_reverse] at hk
  rw [decide_eq_true_eq, List.getElem_reverse] at hget
  refine ⟨List.getElem?_eq_some_iff.2 ⟨by omega, hget⟩, fun j hj hlater => ?_⟩
  obtain ⟨hlt, hget'⟩ := List.getElem?_eq_some_iff.1 hlater
  have hnot := hfirst (items.length - 1 - j) (by omega)
  rw [decide_eq_true_eq, List.getElem_reverse] at hnot
  refine hnot ?_
  have hplace : items.length - 1 - (items.length - 1 - j) = j := by omega
  simpa only [hplace] using hget'

theorem swapErase?_eq_none_iff : swapErase? items a = none ↔ a ∉ items := by
  constructor
  · intro hnone hmem
    obtain ⟨rest, hsome, -⟩ := exists_swapErase? hmem
    rw [hnone] at hsome
    cases hsome
  · intro hnot
    rw [swapErase?, lastPlace?_eq_none_iff.2 hnot]
    rfl

/-- Erasing a value removes its last occurrence and leaves what is before it where it is. -/
theorem swapErase?_eq_some (h : swapErase? items a = some rest) : ∃ place,
    items[place]? = some a ∧ (∀ later, place < later → items[later]? ≠ some a) ∧
      rest.Perm (items.eraseIdx place) ∧ ∀ earlier < place, rest[earlier]? = items[earlier]? := by
  simp only [swapErase?, Option.bind_eq_bind, Option.bind_eq_some_iff] at h
  obtain ⟨place, hplace, ⟨b, left⟩, hremove, h⟩ := h
  cases h
  obtain ⟨hget, hlast⟩ := lastPlace?_eq_some hplace
  obtain ⟨hlt, hentry⟩ := List.getElem?_eq_some_iff.1 hget
  obtain ⟨rest', hremove'⟩ := exists_swapRemove? hlt
  rw [hremove, hentry] at hremove'
  cases hremove'
  refine ⟨place, hget, hlast, ?_, fun earlier he => getElem?_of_swapRemove? hremove he⟩
  have hcons : (a :: items.eraseIdx place).Perm items :=
    hentry ▸ List.getElem_cons_eraseIdx_perm hlt
  exact ((hcons.trans (swapRemove?_perm hremove)).cons_inv).symm

end

section

variable {α : Type} {items : List α} {p : α → Bool}

theorem lt_length_of_mem_placesWhere {place : Nat} (h : place ∈ placesWhere items p) :
    place < items.length := by
  obtain ⟨a, hget, -⟩ := mem_placesWhere.1 h
  exact (List.getElem?_eq_some_iff.1 hget).1

/-- Places that are left out when there are too many lie in front of those that are taken. -/
theorem lt_of_notMem_take_placesWhere {n place other : Nat}
    (hother : other ∈ placesWhere items p) (hnot : other ∉ (placesWhere items p).take n)
    (hplace : place ∈ (placesWhere items p).take n) : other < place := by
  have hdesc := placesWhere_desc items p
  rw [← List.take_append_drop n (placesWhere items p)] at hdesc hother
  obtain hmem | hmem := List.mem_append.1 hother
  · exact absurd hmem hnot
  · exact (List.pairwise_append.1 hdesc).2.2 place hplace other hmem

end

namespace Site

variable {s s' : Site} {tet : Nat} {policy : Policy}

/-- The scan of a ball for the faces behind which a tetrahedron lies. -/
def scanBefore (s : Site) (tet : Nat) : Attempt CavityError (List Nat) :=
  s.mesh.facesBefore tet 4 s.cavity.ball.zipIdx.reverse

theorem scanBefore_eq_ok {places : List Nat} (h : s.scanBefore tet = .ok places) :
    places = (placesWhere s.cavity.ball (·.isBefore s.mesh tet)).take 4 := by
  rw [Mesh.facesBefore_eq_ok h, placesWhere, List.map_take]

/-- The places that are taken are those of the scan, whether they are counted or not. -/
theorem scanBefore_of_facesToRemove {places : List Nat}
    (h : s.facesToRemove tet policy = .ok places) : s.scanBefore tet = .ok places := by
  obtain ⟨-, -, h⟩ := bind_eq_ok_iff.1 h
  obtain ⟨gone, -, h⟩ := found_bind_eq_ok_iff.1 h
  obtain ⟨-, h⟩ := require_bind_eq_ok_iff.1 h
  obtain ⟨-, h⟩ := require_bind_eq_ok_iff.1 h
  obtain ⟨scanned, hscan, h⟩ := bind_eq_ok_iff.1 h
  have heq : scanned = places := by
    split at h
    · obtain ⟨expected, -, h⟩ := bind_eq_ok_iff.1 h
      obtain ⟨-, h⟩ := require_bind_eq_ok_iff.1 h
      cases h
      rfl
    · cases h
      rfl
  rw [← heq]
  exact hscan

/-- What giving a tetrahedron back does to the two lists. -/
theorem lists_of_restore (h : s.restore tet policy = .ok s') : ∃ places removed rest added,
    s.scanBefore tet = .ok places ∧
    swapRemoveAll? s.cavity.ball places = some (removed, rest) ∧
    s'.cavity.ball = rest ++ added ∧ swapErase? s.cavity.deleted tet = some s'.cavity.deleted := by
  obtain ⟨places, hfaces, hback⟩ := bind_eq_ok_iff.1 h
  obtain ⟨deleted, hdeleted, hback⟩ := found_bind_eq_ok_iff.1 hback
  obtain ⟨⟨removed, rest⟩, hremoved, hback⟩ := found_bind_eq_ok_iff.1 hback
  obtain ⟨exposed, -, hback⟩ := bind_eq_ok_iff.1 hback
  obtain ⟨added, -, hback⟩ := bind_eq_ok_iff.1 hback
  cases hback
  exact ⟨places, removed, rest, added, scanBefore_of_facesToRemove hfaces, hremoved, rfl, hdeleted⟩

/-- What is taken from the lists of a site when a tetrahedron is given back, whatever is in them.
The scan comes to an end if every face has a twin. It collects the last four places of faces behind
which the tetrahedron lies, or all of them if there are fewer. The faces at these places are removed
and no others, and what is erased from the list of tetrahedra is the last occurrence of a value. -/
theorem removal_exact (s : Site) (tet : Nat) :
    ((∀ face ∈ s.cavity.ball, (s.mesh.twin? face.outer).isSome = true) →
      ∃ places, s.scanBefore tet = .ok places) ∧
    (∀ places, s.scanBefore tet = .ok places →
      places.Pairwise (· > ·) ∧
      places.length = min 4 (s.cavity.ball.countP (·.isBefore s.mesh tet)) ∧
      (∀ place ∈ places, ∃ face, s.cavity.ball[place]? = some face ∧
        face.isBefore s.mesh tet = true) ∧
      (∀ other face, s.cavity.ball[other]? = some face → face.isBefore s.mesh tet = true →
        other ∉ places → ∀ place ∈ places, other < place) ∧
      ∃ removed rest, swapRemoveAll? s.cavity.ball places = some (removed, rest) ∧
        removed.map some = places.map (s.cavity.ball[·]?) ∧
        rest.Perm (entriesElsewhere s.cavity.ball places)) ∧
    (∀ policy s', s.restore tet policy = .ok s' → ∃ places removed rest added,
      s.scanBefore tet = .ok places ∧
      swapRemoveAll? s.cavity.ball places = some (removed, rest) ∧
      s'.cavity.ball = rest ++ added ∧
      swapErase? s.cavity.deleted tet = some s'.cavity.deleted) ∧
    ∀ (α : Type) [DecidableEq α] (items : List α) (a : α),
      ((swapErase? items a).isSome = true ↔ a ∈ items) ∧
      ∀ rest, swapErase? items a = some rest → ∃ place,
        items[place]? = some a ∧ (∀ later, place < later → items[later]? ≠ some a) ∧
        rest.Perm (items.eraseIdx place) ∧
        ∀ earlier < place, rest[earlier]? = items[earlier]? := by
  refine ⟨fun htwins => Mesh.exists_facesBefore tet 4 fun entry he => ?_, fun places hscan => ?_,
    fun policy s' h => lists_of_restore h, fun α _ items a => ⟨?_, fun rest => swapErase?_eq_some⟩⟩
  · rw [List.mem_reverse, List.mem_zipIdx_iff_getElem?] at he
    exact htwins entry.1 (List.mem_of_getElem? he)
  · obtain rfl := scanBefore_eq_ok hscan
    have hdesc := (placesWhere_desc s.cavity.ball (·.isBefore s.mesh tet)).sublist
      (List.take_sublist 4 _)
    refine ⟨hdesc, ?_, fun place hplace => mem_placesWhere.1 (List.mem_of_mem_take hplace), ?_, ?_⟩
    · rw [List.length_take, length_placesWhere]
    · intro other face hget hbefore hnot place hplace
      exact lt_of_notMem_take_placesWhere (mem_placesWhere.2 ⟨face, hget, hbefore⟩) hnot hplace
    · exact exists_swapRemoveAll?_elsewhere hdesc fun place hplace =>
        lt_length_of_mem_placesWhere (List.mem_of_mem_take hplace)
  · rw [← not_iff_not, ← swapErase?_eq_none_iff, Option.not_isSome_iff_eq_none]

/-- Two tetrahedra with six faces, of which five lie before the first tetrahedron, two of them
equal. -/
def crowded : Site where
  mesh := repeatedCorners
  cavity := ⟨[4, 9, 2, 9, 7],
    [⟨0, 0⟩, ⟨1, 3⟩, ⟨0, 2⟩, ⟨1, 0⟩, ⟨0, 3⟩, ⟨1, 3⟩].map fun outer => ⟨⟨1, 1, 1⟩, outer, ⟨0⟩⟩⟩

/-- Four of the five faces are taken. The face before the other tetrahedron moves on the way. -/
theorem removal_exact_crowded : ∃ removed rest, crowded.scanBefore 0 = .ok [5, 4, 2, 1] ∧
    swapRemoveAll? crowded.cavity.ball [5, 4, 2, 1] = some (removed, rest) ∧
    removed.map some = [5, 4, 2, 1].map (crowded.cavity.ball[·]?) ∧
    rest.map (·.outer) = [⟨0, 0⟩, ⟨1, 0⟩] ∧
    rest.Perm (entriesElsewhere crowded.cavity.ball [5, 4, 2, 1]) ∧
    swapErase? crowded.cavity.deleted 9 = some [4, 9, 2, 7] ∧
    [4, 9, 2, 7].Perm (crowded.cavity.deleted.eraseIdx 3) := by
  obtain ⟨-, hscan, -, -⟩ := removal_exact crowded 0
  have hplaces : crowded.scanBefore 0 = .ok [5, 4, 2, 1] := by decide
  obtain ⟨-, -, -, -, removed, rest, hall, hremoved, hrest⟩ := hscan _ hplaces
  have houters : (swapRemoveAll? crowded.cavity.ball [5, 4, 2, 1]).map (·.2.map (·.outer)) =
      some [⟨0, 0⟩, ⟨1, 0⟩] := by decide
  rw [hall] at houters
  exact ⟨removed, rest, hplaces, hall, hremoved, Option.some.inj houters, hrest, by decide,
    by decide⟩

end Site

end CavityRepair
