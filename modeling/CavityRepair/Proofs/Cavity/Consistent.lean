import Mathlib.Data.List.Lattice
import Mathlib.Data.List.Dedup
import CavityRepair.Cavity.Boundary
import CavityRepair.Proofs.Mesh.Linked
/-!
# Consistent cavities

`Site.Consistent` says in terms of the mesh what a cavity ought to be: the deleted tetrahedra are
listed once each, and the ball has one face, as the mesh has it, for each half-face behind a facet
that bounds the cavity.

* `Site.checkBoundary_eq_ok_iff`: what the check accepts (`Site.Faithful`), in any mesh whose links
  lead somewhere.
* `Site.Consistent.faithful`, `Site.Faithful.consistent`: besides what is marked deleted and not
  listed, the check finds everything that makes a cavity inconsistent, and nothing else.
-/
namespace CavityRepair

/-- The half-faces that the faces of a cavity are kept by. -/
def Cavity.outers (c : Cavity) : List HalfFace := c.ball.map (·.outer)

namespace Mesh

/-- A facet of a deleted tetrahedron that bounds the cavity: what lies behind survives, or the facet
is constrained. -/
def Bounds (m : Mesh) (inner : HalfFace) : Prop :=
  ¬m.Deleted (m.twin inner).tet ∨ m.Constrained inner

instance (m : Mesh) (inner : HalfFace) : Decidable (m.Bounds inner) :=
  inferInstanceAs (Decidable (_ ∨ _))

/-- The half-faces outside that bound a tetrahedron, if it is deleted. -/
def outersOf (m : Mesh) (tet : Nat) : List HalfFace :=
  ((HalfFace.ofTet tet).filter m.Bounds).map m.twin

end Mesh

/-- What a cavity ought to be. -/
structure Site.Consistent (s : Site) : Prop where
  nodup : s.cavity.deleted.Nodup
  deleted_iff : ∀ tet, s.mesh.Deleted tet ↔ tet ∈ s.cavity.deleted
  outers_nodup : s.cavity.outers.Nodup
  mem_outers : ∀ outer, outer ∈ s.cavity.outers ↔ ∃ inner, s.mesh.Deleted inner.tet ∧
    s.mesh.twin? inner = some outer ∧ (¬s.mesh.Deleted outer.tet ∨ s.mesh.Constrained inner)
  fresh : ∀ face ∈ s.cavity.ball, s.mesh.ballFace? face.outer = some face

/-- What a cavity says is so: the tetrahedra it lists are deleted, each listed once, and the ball is
their boundary. Others may be marked deleted besides. -/
structure Site.Faithful (s : Site) : Prop where
  nodup : s.cavity.deleted.Nodup
  listed : ∀ tet ∈ s.cavity.deleted, tet < s.mesh.size ∧ s.mesh.Deleted tet
  outers_nodup : s.cavity.outers.Nodup
  mem_outers : ∀ outer, outer ∈ s.cavity.outers ↔ ∃ inner, inner.tet ∈ s.cavity.deleted ∧
    s.mesh.twin? inner = some outer ∧ (¬s.mesh.Deleted outer.tet ∨ s.mesh.Constrained inner)
  fresh : ∀ face ∈ s.cavity.ball, s.mesh.ballFace? face.outer = some face

/-- The deleted tetrahedra are listed once each, and the check accepts the cavity. -/
structure Site.Checked (s : Site) : Prop where
  deleted_iff : ∀ tet, s.mesh.Deleted tet ↔ s.cavity.deleted.count tet = 1
  accepted : s.checkBoundary 0 = .ok ()

namespace Mesh

variable {m : Mesh}

/-! ## Boundaries -/

theorem outerSide_eq {ε : Type} (hm : m.InRange) {inner : HalfFace} (h : inner.tet < m.size) :
    (m.outerSide inner : Attempt ε _) =
      .ok (if m.Bounds inner then some (m.twin inner) else none) := by
  unfold outerSide Bounds
  rw [hm.twin?_eq h, hm.facetConstrained?_eq h, found_some, ok_bind, hm.deleted?_eq (hm.twin_lt h)]
  by_cases hd : m.Deleted (m.twin inner).tet <;> by_cases hc : m.Constrained inner <;>
    simp [hd, hc] <;> rfl

theorem outerSides_eq {ε : Type} (hm : m.InRange) {inners : List HalfFace}
    (h : ∀ inner ∈ inners, inner.tet < m.size) :
    (m.outerSides inners : Attempt ε _) = .ok ((inners.filter m.Bounds).map m.twin) := by
  induction inners with
  | nil => rfl
  | cons inner rest ih =>
    rw [List.forall_mem_cons] at h
    rw [outerSides, outerSide_eq hm h.1, ih h.2, ok_bind, ok_bind]
    by_cases hb : m.Bounds inner <;> simp [hb] <;> rfl

theorem boundary_eq {ε : Type} (hm : m.InRange) {tets : List Nat} (h : ∀ tet ∈ tets, tet < m.size) :
    (m.boundary tets : Attempt ε _) = .ok (tets.flatMap m.outersOf) := by
  have hinner : ∀ inner ∈ tets.flatMap HalfFace.ofTet, inner.tet < m.size := by
    intro inner hi
    obtain ⟨tet, ht, hi⟩ := List.mem_flatMap.1 hi
    rw [HalfFace.mem_ofTet.1 hi]
    exact h tet ht
  rw [boundary, outerSides_eq hm hinner, List.filter_flatMap, List.map_flatMap]
  rfl

theorem mem_outersOf {tet : Nat} {outer : HalfFace} (hm : m.Linked) :
    outer ∈ m.outersOf tet ↔ (m.twin outer).tet = tet ∧ m.Bounds (m.twin outer) := by
  unfold outersOf
  simp only [List.mem_map, List.mem_filter, HalfFace.mem_ofTet, decide_eq_true_eq]
  constructor
  · rintro ⟨inner, h, rfl⟩
    rwa [hm.twin_twin]
  · intro h
    exact ⟨_, h, hm.twin_twin outer⟩

/-- The half-faces outside that bound some tetrahedra are the twins of those that do so from
inside. -/
theorem mem_flatMap_outersOf (hm : m.InRange) {tets : List Nat} (h : ∀ tet ∈ tets, tet < m.size)
    {outer : HalfFace} : outer ∈ tets.flatMap m.outersOf ↔ ∃ inner, inner.tet ∈ tets ∧
      m.twin? inner = some outer ∧ (¬m.Deleted outer.tet ∨ m.Constrained inner) := by
  unfold outersOf
  simp only [List.mem_flatMap, List.mem_map, List.mem_filter, HalfFace.mem_ofTet,
    decide_eq_true_eq]
  constructor
  · rintro ⟨_, ht, inner, ⟨rfl, hb⟩, rfl⟩
    exact ⟨inner, ht, hm.twin?_eq (h _ ht), hb⟩
  · rintro ⟨inner, ht, htwin, hb⟩
    obtain ⟨-, rfl⟩ := hm.twin?_eq_some_iff.1 htwin
    exact ⟨_, ht, inner, ⟨rfl, hb⟩, rfl⟩

/-- The half-faces outside that bound the cavity are those whose twins do so from inside. -/
theorem exists_inner_iff (hm : m.Linked) {outer : HalfFace} :
    (∃ inner, m.Deleted inner.tet ∧ m.twin? inner = some outer ∧
      (¬m.Deleted outer.tet ∨ m.Constrained inner)) ↔
      m.Deleted (m.twin outer).tet ∧ m.Bounds (m.twin outer) := by
  unfold Bounds
  rw [hm.twin_twin]
  simp only [hm.twin?_eq_some_iff]
  constructor
  · rintro ⟨inner, hd, ⟨-, rfl⟩, hb⟩
    rw [hm.twin_twin]
    exact ⟨hd, hb⟩
  · rintro ⟨hd, hb⟩
    exact ⟨_, hd, ⟨hm.lt_size_of_deleted hd, hm.twin_twin outer⟩, hb⟩

/-- As facets are constrained on both sides, either side tells whether one bounds the cavity. -/
theorem Carvable.bounds_twin_iff (hm : m.Carvable) {outer : HalfFace} :
    m.Bounds (m.twin outer) ↔ ¬m.Deleted outer.tet ∨ m.Constrained outer := by
  unfold Bounds
  rw [hm.twin_twin, hm.constrained_twin]

theorem outersOf_nodup (hm : m.Linked) (tet : Nat) : (m.outersOf tet).Nodup := by
  unfold outersOf
  exact ((HalfFace.ofTet_nodup tet).filter _).map fun _ _ => hm.twin_inj.1

theorem ballFaces_spec {ε : Type} (hm : m.InRange) {outers : List HalfFace}
    (h : ∀ outer ∈ outers, outer.tet < m.size) :
    ∃ faces, (m.ballFaces outers : Attempt ε _) = .ok faces ∧ faces.map (·.outer) = outers ∧
      ∀ face ∈ faces, m.ballFace? face.outer = some face := by
  induction outers with
  | nil => exact ⟨[], rfl, rfl, by simp⟩
  | cons outer rest ih =>
    rw [List.forall_mem_cons] at h
    obtain ⟨faces, hfaces, hmap, hfresh⟩ := ih h.2
    obtain ⟨face, hface, houter⟩ := hm.exists_ballFace h.1
    refine ⟨face :: faces, ?_, by rw [List.map_cons, houter, hmap], ?_⟩
    · rw [ballFaces, hface, found_some, ok_bind, hfaces, ok_bind]
      rfl
    · rw [List.forall_mem_cons]
      exact ⟨houter ▸ hface, hfresh⟩

/-! ## The check -/

theorem mem_foldl_insert {outers expected : List HalfFace} {h : HalfFace} :
    h ∈ outers.foldl (fun all h => all.insert h) expected ↔ h ∈ expected ∨ h ∈ outers := by
  induction outers generalizing expected with
  | nil => simp
  | cons outer rest ih =>
    rw [List.foldl_cons, ih, List.mem_insert_iff, List.mem_cons]
    tauto

theorem nodup_foldl_insert {outers expected : List HalfFace} (h : expected.Nodup) :
    (outers.foldl (fun all h => all.insert h) expected).Nodup := by
  induction outers generalizing expected with
  | nil => exact h
  | cons outer rest ih => exact ih h.insert

theorem expectedBoundary_eq_ok_iff (hm : m.InRange) {before tets : List Nat}
    {expected result : List HalfFace} :
    m.expectedBoundary before expected tets = .ok result ↔
      ((∀ tet ∈ tets, m.Deleted tet ∧ tet ∉ before) ∧ tets.Nodup) ∧
        result = (tets.flatMap m.outersOf).foldl (fun all h => all.insert h) expected := by
  induction tets generalizing before expected with
  | nil => simp [expectedBoundary, eq_comm]
  | cons tet rest ih =>
    have hstep : m.expectedBoundary before expected (tet :: rest) = .ok result ↔
        (m.Deleted tet ∧ tet ∉ before) ∧ m.expectedBoundary (tet :: before)
          ((m.outersOf tet).foldl (fun all h => all.insert h) expected) rest = .ok result := by
      rw [expectedBoundary, checkTet]
      simp only [require_bind_eq_ok_iff, found_bind_eq_ok_iff]
      constructor
      · rintro ⟨ht, _, hd, rfl, hb, h⟩
        rw [boundary_eq hm (by simpa using ht), ok_bind, List.flatMap_singleton] at h
        exact ⟨⟨hd, hb⟩, h⟩
      · rintro ⟨⟨hd, hb⟩, h⟩
        have ht : tet < m.size := hm.lt_size_of_deleted hd
        refine ⟨ht, true, hd, rfl, hb, ?_⟩
        rwa [boundary_eq hm (by simpa using ht), ok_bind, List.flatMap_singleton]
    rw [hstep, ih, List.flatMap_cons, List.foldl_append, List.forall_mem_cons, List.nodup_cons]
    simp only [List.mem_cons, not_or]
    constructor
    · rintro ⟨⟨hd, hb⟩, ⟨hrest, hnodup⟩, rfl⟩
      exact ⟨⟨⟨⟨hd, hb⟩, fun t ht => ⟨(hrest t ht).1, (hrest t ht).2.2⟩⟩,
        fun ht => (hrest tet ht).2.1 rfl, hnodup⟩, rfl⟩
    · rintro ⟨⟨⟨⟨hd, hb⟩, hrest⟩, hnot, hnodup⟩, rfl⟩
      refine ⟨⟨hd, hb⟩, ⟨fun t ht => ⟨(hrest t ht).1, ?_, (hrest t ht).2⟩, hnodup⟩, rfl⟩
      rintro rfl
      exact hnot ht

/-- Faces are accepted as long as each is fresh and finds its half-face unclaimed. -/
theorem matchFaces_eq_ok_iff {expected left : List HalfFace} {place : Nat} {ball : List BallFace}
    (hexpected : expected.Nodup) :
    m.matchFaces expected place ball = .ok left ↔
      (∀ face ∈ ball, m.ballFace? face.outer = some face ∧ face.outer ∈ expected) ∧
        (ball.map (·.outer)).Nodup ∧ left = expected.diff (ball.map (·.outer)) := by
  induction ball generalizing expected place with
  | nil => simp [matchFaces, eq_comm]
  | cons face rest ih =>
    have hstep : m.matchFaces expected place (face :: rest) = .ok left ↔
        (m.ballFace? face.outer = some face ∧ face.outer ∈ expected) ∧
          m.matchFaces (expected.erase face.outer) (place + 1) rest = .ok left := by
      rw [matchFaces]
      simp only [require_bind_eq_ok_iff, found_bind_eq_ok_iff]
      constructor
      · rintro ⟨hmem, fresh, hf, rfl, h⟩
        exact ⟨⟨hf, hmem⟩, h⟩
      · rintro ⟨⟨hf, hmem⟩, h⟩
        exact ⟨hmem, face, hf, rfl, h⟩
    rw [hstep, ih (hexpected.erase _), List.forall_mem_cons, List.map_cons, List.nodup_cons,
      List.diff_cons, List.mem_map]
    simp only [hexpected.mem_erase_iff]
    constructor
    · rintro ⟨hface, hrest, hnodup, rfl⟩
      refine ⟨⟨hface, fun f hf => ⟨(hrest f hf).1, (hrest f hf).2.2⟩⟩, ⟨?_, hnodup⟩, rfl⟩
      rintro ⟨f, hf, heq⟩
      exact (hrest f hf).2.1 heq
    · rintro ⟨⟨hface, hrest⟩, ⟨hnot, hnodup⟩, rfl⟩
      exact ⟨hface, fun f hf => ⟨(hrest f hf).1, fun heq => hnot ⟨f, hf, heq⟩, (hrest f hf).2⟩,
        hnodup, rfl⟩

end Mesh

theorem HalfFace.sort_eq_nil_iff {sides : List HalfFace} :
    HalfFace.sort sides = [] ↔ sides = [] := by
  unfold HalfFace.sort
  rw [← List.length_eq_zero_iff, List.length_mergeSort, List.length_eq_zero_iff]

namespace Site

variable {s : Site}

theorem mem_outers_of_mem_ball {face : BallFace} (h : face ∈ s.cavity.ball) :
    face.outer ∈ s.cavity.outers :=
  List.mem_map_of_mem h

/-- What the check accepts. Links need to lead somewhere, not back. -/
theorem checkBoundary_eq_ok_iff (hm : s.mesh.InRange) {checkpoint : Nat} :
    s.checkBoundary checkpoint = .ok () ↔
      checkpoint ≤ s.cavity.deleted.length ∧ s.Faithful := by
  have hexpected : (∀ tet ∈ s.cavity.deleted, s.mesh.Deleted tet) → ∀ outer,
      outer ∈ (s.cavity.deleted.flatMap s.mesh.outersOf).foldl (fun all h => all.insert h) [] ↔
        ∃ inner, inner.tet ∈ s.cavity.deleted ∧ s.mesh.twin? inner = some outer ∧
          (¬s.mesh.Deleted outer.tet ∨ s.mesh.Constrained inner) := by
    intro hdeleted outer
    rw [Mesh.mem_foldl_insert,
      Mesh.mem_flatMap_outersOf hm fun tet ht => hm.lt_size_of_deleted (hdeleted tet ht)]
    exact or_iff_right List.not_mem_nil
  have hnodup : ((s.cavity.deleted.flatMap s.mesh.outersOf).foldl
      (fun all h => all.insert h) []).Nodup := Mesh.nodup_foldl_insert List.nodup_nil
  unfold checkBoundary Cavity.checkCheckpoint
  rw [require_bind_eq_ok_iff]
  simp only [bind_eq_ok_iff, Mesh.expectedBoundary_eq_ok_iff hm, List.not_mem_nil,
    not_false_eq_true, and_true]
  generalize (s.cavity.deleted.flatMap s.mesh.outersOf).foldl (fun all h => all.insert h) [] =
    expected at hexpected hnodup
  constructor
  · rintro ⟨hle, _, ⟨⟨hdeleted, hlisted⟩, rfl⟩, left, hmatch, hsort⟩
    obtain ⟨hball, houters, rfl⟩ := (Mesh.matchFaces_eq_ok_iff hnodup).1 hmatch
    split at hsort
    · rename_i hnil
      rw [HalfFace.sort_eq_nil_iff, List.eq_nil_iff_forall_not_mem] at hnil
      simp only [hnodup.mem_sdiff_iff, not_and, not_not] at hnil
      refine ⟨hle, hlisted, fun tet ht => ⟨hm.lt_size_of_deleted (hdeleted tet ht),
        hdeleted tet ht⟩, houters, fun outer => ?_, fun face hf => (hball face hf).1⟩
      rw [← hexpected hdeleted]
      refine ⟨fun h => ?_, hnil outer⟩
      obtain ⟨face, hf, rfl⟩ := List.mem_map.1 h
      exact (hball face hf).2
    · cases hsort
  · rintro ⟨hle, hlisted, hdeleted, houters, hmem, hfresh⟩
    replace hdeleted := fun tet ht => (hdeleted tet ht).2
    replace hexpected := hexpected hdeleted
    have hball : ∀ face ∈ s.cavity.ball,
        s.mesh.ballFace? face.outer = some face ∧ face.outer ∈ expected := fun face hf =>
      ⟨hfresh face hf, (hexpected _).2 ((hmem _).1 (mem_outers_of_mem_ball hf))⟩
    refine ⟨hle, _, ⟨⟨hdeleted, hlisted⟩, rfl⟩, _,
      (Mesh.matchFaces_eq_ok_iff hnodup).2 ⟨hball, houters, rfl⟩, ?_⟩
    have hnil : expected.diff s.cavity.outers = [] := by
      refine List.eq_nil_iff_forall_not_mem.2 fun outer h => ?_
      obtain ⟨hin, hout⟩ := hnodup.mem_sdiff_iff.1 h
      exact hout ((hmem outer).2 ((hexpected outer).1 hin))
    unfold Cavity.outers at hnil
    rw [hnil, HalfFace.sort_eq_nil_iff.2 rfl]

/-- A cavity that lists all that is deleted is consistent if it is faithful. -/
theorem Faithful.consistent (h : s.Faithful)
    (hlisted : ∀ tet, s.mesh.Deleted tet → tet ∈ s.cavity.deleted) : s.Consistent := by
  have hdeleted : ∀ tet, s.mesh.Deleted tet ↔ tet ∈ s.cavity.deleted := fun tet =>
    ⟨hlisted tet, fun ht => (h.listed tet ht).2⟩
  refine ⟨h.nodup, hdeleted, h.outers_nodup, fun outer => ?_, h.fresh⟩
  simp only [h.mem_outers, hdeleted]

namespace Consistent

/-- In terms of the half-face outside, a face stands behind a facet that bounds the cavity. -/
theorem mem_outers_iff (h : s.Consistent) (hm : s.mesh.Linked) {outer : HalfFace} :
    outer ∈ s.cavity.outers ↔
      s.mesh.Deleted (s.mesh.twin outer).tet ∧ s.mesh.Bounds (s.mesh.twin outer) := by
  rw [h.mem_outers, Mesh.exists_inner_iff hm]

/-- To be consistent it is enough to have the boundary in terms of the half-faces outside. -/
theorem of_bounds (hm : s.mesh.Linked) (hnodup : s.cavity.deleted.Nodup)
    (hdeleted : ∀ tet, s.mesh.Deleted tet ↔ tet ∈ s.cavity.deleted)
    (houters : s.cavity.outers.Nodup)
    (hmem : ∀ outer, outer ∈ s.cavity.outers ↔
      s.mesh.Deleted (s.mesh.twin outer).tet ∧ s.mesh.Bounds (s.mesh.twin outer))
    (hfresh : ∀ face ∈ s.cavity.ball, s.mesh.ballFace? face.outer = some face) : s.Consistent := by
  refine ⟨hnodup, hdeleted, houters, fun outer => ?_, hfresh⟩
  rw [hmem, Mesh.exists_inner_iff hm]

/-- The empty cavity is consistent in a mesh without deleted tetrahedra. -/
theorem of_survived {m : Mesh} (h : ∀ tet, ¬m.Deleted tet) : Consistent ⟨m, .empty⟩ where
  nodup := List.nodup_nil
  deleted_iff tet := iff_of_false (h tet) List.not_mem_nil
  outers_nodup := List.nodup_nil
  mem_outers _ := iff_of_false List.not_mem_nil fun ⟨inner, hd, _⟩ => h inner.tet hd
  fresh _ hf := absurd hf List.not_mem_nil

theorem faithful (h : s.Consistent) (hm : s.mesh.InRange) : s.Faithful := by
  refine ⟨h.nodup, fun tet ht => ?_, h.outers_nodup, fun outer => ?_, h.fresh⟩
  · have hd := (h.deleted_iff tet).2 ht
    exact ⟨hm.lt_size_of_deleted hd, hd⟩
  · simp only [h.mem_outers, h.deleted_iff]

/-- The check accepts a consistent cavity. -/
theorem checkBoundary (h : s.Consistent) (hm : s.mesh.Linked) {checkpoint : Nat}
    (hle : checkpoint ≤ s.cavity.deleted.length) : s.checkBoundary checkpoint = .ok () :=
  (checkBoundary_eq_ok_iff hm.toInRange).2 ⟨hle, h.faithful hm.toInRange⟩

end Consistent

/-- A consistent cavity is found to be so. -/
theorem Consistent.checked (h : s.Consistent) (hm : s.mesh.Linked) : s.Checked := by
  refine ⟨fun tet => ?_, h.checkBoundary hm (Nat.zero_le _)⟩
  rw [h.deleted_iff, h.nodup.count, ite_eq_left_iff]
  simp

/-- A cavity that is checked is consistent. -/
theorem Checked.consistent (h : s.Checked) (hm : s.mesh.Linked) : s.Consistent := by
  refine ((checkBoundary_eq_ok_iff hm.toInRange).1 h.accepted).2.consistent fun tet hd => ?_
  apply List.count_pos_iff.1
  rw [(h.deleted_iff tet).1 hd]
  exact Nat.one_pos

end Site

end CavityRepair
