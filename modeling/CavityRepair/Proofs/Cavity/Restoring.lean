import CavityRepair.Cavity.Restore
import CavityRepair.Proofs.Cavity.Consistent
/-!
# Restoring in a consistent cavity

A deleted tetrahedron of a consistent cavity can always be given back. Its faces are those that the
mesh gives it, so that removing them and adding its other facets, seen from the tetrahedron itself,
makes the boundary of the smaller cavity.

* `Site.Consistent.exists_restore`: what giving back does, whatever the policy.
* `Site.Consistent.restore_eq_ok`: nothing but a deleted tetrahedron is given back.
* `Site.Consistent.of_givenBack`: the cavity stays consistent.
-/
namespace CavityRepair

/-- What it is to give a tetrahedron back. -/
structure Site.GivenBack (s s' : Site) (tet : Nat) : Prop where
  mesh : s'.mesh = s.mesh.unmark tet .deleted
  deleted : s.cavity.deleted.Perm (tet :: s'.cavity.deleted)
  outers : s'.cavity.outers.Perm
    (s.cavity.outers.filter (fun outer => (s.mesh.twin outer).tet ≠ tet) ++
      (HalfFace.ofTet tet).filter fun inner => ¬s.mesh.Bounds inner)
  fresh : ∀ face ∈ s'.cavity.ball, s'.mesh.ballFace? face.outer = some face

/-! ## Places in a list -/

section

variable {α : Type}

/-- The places of those entries that meet a condition, the last first. -/
def placesWhere (items : List α) (p : α → Bool) : List Nat :=
  (items.zipIdx.reverse.filter fun entry => p entry.1).map (·.2)

theorem mem_placesWhere {items : List α} {p : α → Bool} {place : Nat} :
    place ∈ placesWhere items p ↔ ∃ a, items[place]? = some a ∧ p a = true := by
  simp [placesWhere, List.mem_zipIdx_iff_getElem?]

theorem placesWhere_desc (items : List α) (p : α → Bool) :
    (placesWhere items p).Pairwise (· > ·) := by
  have hsub : (placesWhere items p).Sublist (items.zipIdx.reverse.map (·.2)) :=
    List.filter_sublist.map _
  refine .sublist hsub ?_
  rw [List.map_reverse, List.pairwise_reverse, List.zipIdx_map_snd]
  exact List.pairwise_lt_range'

theorem length_placesWhere (items : List α) (p : α → Bool) :
    (placesWhere items p).length = items.countP p := by
  rw [placesWhere, List.length_map, List.filter_reverse, List.length_reverse,
    ← List.countP_eq_length_filter]
  conv_rhs => rw [← List.zipIdx_map_fst 0 items, List.countP_map]
  rfl

end

/-! ## What is looked up -/

/-- Whether a tetrahedron lies behind a face. -/
def BallFace.isBefore (face : BallFace) (m : Mesh) (tet : Nat) : Bool :=
  (m.twin? face.outer).any (·.tet = tet)

namespace Mesh

variable {m : Mesh}

theorem length_outersOf_le (m : Mesh) (tet : Nat) : (m.outersOf tet).length ≤ 4 := by
  unfold outersOf
  rw [List.length_map]
  exact List.length_filter_le _ _

/-- The scan comes to an end when the half-faces of all faces have twins. -/
theorem exists_facesBefore {ε : Type} (tet room : Nat) {faces : List (BallFace × Nat)}
    (h : ∀ entry ∈ faces, (m.twin? entry.1.outer).isSome = true) :
    ∃ places, (m.facesBefore tet room faces : Attempt ε _) = .ok places := by
  induction faces generalizing room with
  | nil => cases room <;> exact ⟨[], rfl⟩
  | cons entry rest ih =>
    obtain ⟨face, place⟩ := entry
    rw [List.forall_mem_cons] at h
    obtain ⟨inner, hinner⟩ := Option.isSome_iff_exists.1 h.1
    cases room with
    | zero => exact ⟨[], rfl⟩
    | succ room =>
      obtain ⟨fewer, hfewer⟩ := ih room h.2
      obtain ⟨places, hplaces⟩ := ih (room + 1) h.2
      rw [facesBefore, hinner, found_some, ok_bind, hfewer, hplaces]
      split
      · exact ⟨place :: fewer, rfl⟩
      · exact ⟨places, rfl⟩

/-- What the scan collects: the first places, as many as there is room for, of faces behind which
the tetrahedron lies. -/
theorem facesBefore_eq_ok {ε : Type} {tet room : Nat} {faces : List (BallFace × Nat)}
    {places : List Nat} (h : (m.facesBefore tet room faces : Attempt ε _) = .ok places) :
    places = ((faces.filter fun entry => entry.1.isBefore m tet).take room).map (·.2) := by
  induction faces generalizing room places with
  | nil =>
    cases room <;> cases h <;> simp
  | cons entry rest ih =>
    obtain ⟨face, place⟩ := entry
    cases room with
    | zero =>
      cases h
      simp
    | succ room =>
      rw [facesBefore, found_bind_eq_ok_iff] at h
      obtain ⟨inner, hinner, h⟩ := h
      by_cases htet : inner.tet = tet
      · rw [if_pos htet] at h
        obtain ⟨later, hlater, h⟩ := bind_eq_ok_iff.1 h
        cases h
        simp [BallFace.isBefore, hinner, htet, ih hlater]
      · rw [if_neg htet] at h
        simp [BallFace.isBefore, hinner, htet, ih h]

theorem facesBefore_eq {ε : Type} (hm : m.InRange) {tet room : Nat} {faces : List (BallFace × Nat)}
    (h : ∀ entry ∈ faces, entry.1.outer.tet < m.size) :
    (m.facesBefore tet room faces : Attempt ε _) = .ok
      (((faces.filter fun entry => (m.twin entry.1.outer).tet = tet).take room).map (·.2)) := by
  have htwin : ∀ entry ∈ faces, m.twin? entry.1.outer = some (m.twin entry.1.outer) :=
    fun entry he => hm.twin?_eq (h entry he)
  obtain ⟨places, hok⟩ := exists_facesBefore (ε := ε) tet room fun entry he =>
    Option.isSome_iff_exists.2 ⟨_, htwin entry he⟩
  rw [hok, facesBefore_eq_ok hok]
  congr 3
  refine List.filter_congr fun entry he => ?_
  rw [BallFace.isBefore, htwin entry he, Option.any_some]

theorem exposed_eq {ε : Type} (hm : m.InRange) {removed inners : List HalfFace}
    (h : ∀ inner ∈ inners, inner.tet < m.size) :
    (m.exposed removed inners : Attempt ε _) =
      .ok (inners.filter fun inner => m.twin inner ∉ removed) := by
  induction inners with
  | nil => rfl
  | cons inner rest ih =>
    rw [List.forall_mem_cons] at h
    rw [exposed, hm.twin?_eq h.1, found_some, ok_bind, ih h.2, ok_bind]
    by_cases hmem : m.twin inner ∈ removed <;> simp [hmem] <;> rfl

end Mesh

namespace Site

variable {s s' : Site} {tet : Nat}

/-- The places of the faces behind which a tetrahedron lies, the last first. -/
def placesBefore (s : Site) (tet : Nat) : List Nat :=
  (s.cavity.ball.zipIdx.reverse.filter
    fun entry => (s.mesh.twin entry.1.outer).tet = tet).map (·.2)

theorem placesBefore_eq (s : Site) (tet : Nat) : s.placesBefore tet =
    placesWhere s.cavity.ball fun face => (s.mesh.twin face.outer).tet = tet := rfl

theorem mem_placesBefore {place : Nat} :
    place ∈ s.placesBefore tet ↔
      ∃ face, s.cavity.ball[place]? = some face ∧ (s.mesh.twin face.outer).tet = tet := by
  simp [placesBefore_eq, mem_placesWhere]

theorem placesBefore_desc (s : Site) (tet : Nat) : (s.placesBefore tet).Pairwise (· > ·) := by
  rw [placesBefore_eq]
  exact placesWhere_desc _ _

namespace Consistent

theorem lt_size_of_mem_outers (h : s.Consistent) (hm : s.mesh.Linked) {outer : HalfFace}
    (ho : outer ∈ s.cavity.outers) : outer.tet < s.mesh.size :=
  hm.twin_lt_iff.1 (hm.lt_size_of_deleted ((h.mem_outers_iff hm).1 ho).1)

theorem lt_size_of_mem_ball (h : s.Consistent) (hm : s.mesh.Linked) {face : BallFace}
    (hf : face ∈ s.cavity.ball) : face.outer.tet < s.mesh.size :=
  h.lt_size_of_mem_outers hm (mem_outers_of_mem_ball hf)

/-- The faces before a deleted tetrahedron are those that the mesh gives it. -/
theorem filter_outers_perm (h : s.Consistent) (hm : s.mesh.Linked) (ht : s.mesh.Deleted tet) :
    (s.cavity.outers.filter fun outer => (s.mesh.twin outer).tet = tet).Perm
      (s.mesh.outersOf tet) := by
  refine (List.perm_ext_iff_of_nodup (h.outers_nodup.filter _) (Mesh.outersOf_nodup hm tet)).2 ?_
  intro outer
  rw [List.mem_filter, h.mem_outers_iff hm, Mesh.mem_outersOf hm, decide_eq_true_eq]
  constructor
  · rintro ⟨⟨-, hb⟩, rfl⟩
    exact ⟨rfl, hb⟩
  · rintro ⟨rfl, hb⟩
    exact ⟨⟨ht, hb⟩, rfl⟩

theorem length_placesBefore (h : s.Consistent) (hm : s.mesh.Linked) (ht : s.mesh.Deleted tet) :
    (s.placesBefore tet).length = (s.mesh.outersOf tet).length := by
  rw [← (h.filter_outers_perm hm ht).length_eq, placesBefore_eq, length_placesWhere,
    ← List.countP_eq_length_filter, Cavity.outers, List.countP_map]
  rfl

/-- There are no more faces before a deleted tetrahedron than are looked for. -/
theorem facesBefore_eq {ε : Type} (h : s.Consistent) (hm : s.mesh.Linked)
    (ht : s.mesh.Deleted tet) :
    (s.mesh.facesBefore tet 4 s.cavity.ball.zipIdx.reverse : Attempt ε _) =
      .ok (s.placesBefore tet) := by
  have hlt : ∀ entry ∈ s.cavity.ball.zipIdx.reverse, entry.1.outer.tet < s.mesh.size := by
    intro entry he
    rw [List.mem_reverse, List.mem_zipIdx_iff_getElem?] at he
    exact h.lt_size_of_mem_ball hm (List.mem_of_getElem? he)
  have hle := s.mesh.length_outersOf_le tet
  rw [← h.length_placesBefore hm ht, placesBefore, List.length_map] at hle
  rw [Mesh.facesBefore_eq hm.toInRange hlt, List.take_of_length_le hle, placesBefore]

theorem facesToRemove_eq (h : s.Consistent) (hm : s.mesh.Linked) (ht : s.mesh.Deleted tet)
    (policy : Policy) : s.facesToRemove tet policy = .ok (s.placesBefore tet) := by
  have hlt := hm.lt_size_of_deleted ht
  have hlisted := (h.deleted_iff tet).1 ht
  have hboundary : (s.mesh.boundary [tet] : Attempt CavityError _) = .ok (s.mesh.outersOf tet) := by
    rw [Mesh.boundary_eq hm.toInRange (by simpa using hlt), List.flatMap_singleton]
  have hgone : s.mesh.deleted? tet = some true := ht
  unfold facesToRemove Mesh.checkTet
  cases policy.checks <;>
    simp [require, hlt, hlisted, hgone, h.facesBefore_eq hm ht, hboundary,
      h.length_placesBefore hm ht, pure, Except.pure]

/-- Taking the faces before a deleted tetrahedron out of the ball leaves the others. -/
theorem exists_swapRemoveAll? (h : s.Consistent) (tet : Nat) :
    ∃ removed rest, swapRemoveAll? s.cavity.ball (s.placesBefore tet) = some (removed, rest) ∧
      (∀ outer, outer ∈ removed.map (·.outer) ↔
        outer ∈ s.cavity.outers ∧ (s.mesh.twin outer).tet = tet) ∧
      rest ⊆ s.cavity.ball ∧ (rest.map (·.outer)).Perm
        (s.cavity.outers.filter fun outer => (s.mesh.twin outer).tet ≠ tet) := by
  have hlt : ∀ place ∈ s.placesBefore tet, place < s.cavity.ball.length := by
    intro place hplace
    obtain ⟨face, hf, -⟩ := mem_placesBefore.1 hplace
    exact (List.getElem?_eq_some_iff.1 hf).1
  obtain ⟨removed, rest, hall, hmap, hperm⟩ :=
    CavityRepair.exists_swapRemoveAll? (s.placesBefore_desc tet) hlt
  have hremoved : ∀ face, face ∈ removed ↔
      face ∈ s.cavity.ball ∧ (s.mesh.twin face.outer).tet = tet := by
    intro face
    have hsome : face ∈ removed ↔ some face ∈ removed.map some := by simp
    rw [hsome, hmap, List.mem_map]
    constructor
    · rintro ⟨place, hplace, hget⟩
      obtain ⟨face', hget', htet⟩ := mem_placesBefore.1 hplace
      obtain rfl : face' = face := Option.some.inj (hget'.symm.trans hget)
      exact ⟨List.mem_of_getElem? hget, htet⟩
    · rintro ⟨hmem, htet⟩
      obtain ⟨place, hget⟩ := List.mem_iff_getElem?.1 hmem
      exact ⟨place, mem_placesBefore.2 ⟨face, hget, htet⟩, hget⟩
  have houters : ∀ outer, outer ∈ removed.map (·.outer) ↔
      outer ∈ s.cavity.outers ∧ (s.mesh.twin outer).tet = tet := by
    intro outer
    unfold Cavity.outers
    simp only [List.mem_map, hremoved]
    constructor
    · rintro ⟨face, ⟨hmem, htet⟩, rfl⟩
      exact ⟨⟨face, hmem, rfl⟩, htet⟩
    · rintro ⟨⟨face, hmem, rfl⟩, htet⟩
      exact ⟨face, ⟨hmem, htet⟩, rfl⟩
  refine ⟨removed, rest, hall, houters, fun face hf => hperm.mem_iff.2 (by simp [hf]), ?_⟩
  -- No half-face is kept twice, so what is not removed is what is left.
  have hsplit : s.cavity.outers.Perm (removed.map (·.outer) ++ rest.map (·.outer)) := by
    rw [← List.map_append]
    exact hperm.map _
  have hnodup := hsplit.nodup_iff.1 h.outers_nodup
  refine (List.perm_ext_iff_of_nodup hnodup.of_append_right (h.outers_nodup.filter _)).2 ?_
  intro outer
  have hdisjoint := List.disjoint_of_nodup_append hnodup
  rw [List.mem_filter, hsplit.mem_iff, List.mem_append, decide_eq_true_eq]
  constructor
  · intro hrest
    refine ⟨.inr hrest, fun htet => ?_⟩
    have hmem : outer ∈ s.cavity.outers := hsplit.mem_iff.2 (List.mem_append_right _ hrest)
    exact hdisjoint ((houters outer).2 ⟨hmem, htet⟩) hrest
  · rintro ⟨hremoved | hrest, hne⟩
    · exact absurd ((houters outer).1 hremoved).2 hne
    · exact hrest

/-- A deleted tetrahedron can be given back. -/
theorem exists_restore (h : s.Consistent) (hm : s.mesh.Linked) (ht : s.mesh.Deleted tet)
    (policy : Policy) : ∃ s', s.restore tet policy = .ok s' ∧ s.GivenBack s' tet := by
  have hlt := hm.lt_size_of_deleted ht
  have hform := Mesh.sameForm_unmark_deleted s.mesh tet
  have hm' : (s.mesh.unmark tet .deleted).Linked := hform.linked hm
  obtain ⟨deleted, herase, hdeleted⟩ := exists_swapErase? ((h.deleted_iff tet).1 ht)
  obtain ⟨removed, rest, hall, hremoved, hsub, hrest⟩ := h.exists_swapRemoveAll? tet
  have hinner : ∀ inner ∈ HalfFace.ofTet tet, inner.tet < (s.mesh.unmark tet .deleted).size := by
    intro inner hi
    rw [HalfFace.mem_ofTet.1 hi]
    exact hlt
  have hexposed : (HalfFace.ofTet tet).filter
      (fun inner => (s.mesh.unmark tet .deleted).twin inner ∉ removed.map (·.outer)) =
      (HalfFace.ofTet tet).filter fun inner => ¬s.mesh.Bounds inner := by
    refine List.filter_congr fun inner hi => ?_
    rw [hform.twin_eq, decide_eq_decide, hremoved, h.mem_outers_iff hm, hm.twin_twin,
      HalfFace.mem_ofTet.1 hi]
    simp [ht]
  obtain ⟨added, hadded, houter, hfresh⟩ := Mesh.ballFaces_spec (ε := CavityError) hm'.toInRange
    (fun outer ho => hinner outer (List.mem_filter.1 ho).1 :
      ∀ outer ∈ (HalfFace.ofTet tet).filter (fun inner => ¬s.mesh.Bounds inner), _)
  refine ⟨⟨s.mesh.unmark tet .deleted, ⟨deleted, rest ++ added⟩⟩, ?_, rfl, hdeleted, ?_, ?_⟩
  · unfold restore giveBack
    rw [h.facesToRemove_eq hm ht, ok_bind]
    simp only [herase, hall, found_some, ok_bind]
    rw [Mesh.exposed_eq hm'.toInRange hinner, hexposed, ok_bind, hadded]
    rfl
  · unfold Cavity.outers
    rw [List.map_append, houter]
    exact hrest.append_right _
  · rw [List.forall_mem_append]
    exact ⟨fun face hf => by rw [hform.ballFace?_eq]; exact h.fresh face (hsub hf), hfresh⟩

/-- Nothing but a deleted tetrahedron is given back. -/
theorem restore_eq_ok (h : s.Consistent) (hm : s.mesh.Linked) {policy : Policy}
    (hr : s.restore tet policy = .ok s') : s.mesh.Deleted tet ∧ s.GivenBack s' tet := by
  have ht : s.mesh.Deleted tet := by
    unfold restore facesToRemove at hr
    simp only [bind_assoc] at hr
    obtain ⟨-, -, hr⟩ := bind_eq_ok_iff.1 hr
    obtain ⟨gone, hgone, hr⟩ := found_bind_eq_ok_iff.1 hr
    obtain ⟨rfl, -⟩ := require_bind_eq_ok_iff.1 hr
    exact hgone
  obtain ⟨s'', hs'', hgiven⟩ := h.exists_restore hm ht policy
  rw [hr] at hs''
  cases hs''
  exact ⟨ht, hgiven⟩

end Consistent

namespace GivenBack

theorem sameForm (g : s.GivenBack s' tet) : s.mesh.SameForm s'.mesh := by
  rw [g.mesh]
  exact Mesh.sameForm_unmark_deleted s.mesh tet

theorem deleted_iff (g : s.GivenBack s' tet) (u : Nat) :
    s'.mesh.Deleted u ↔ s.mesh.Deleted u ∧ u ≠ tet := by
  rw [g.mesh]
  exact Mesh.deleted_unmark_iff

theorem mem_outers_iff (g : s.GivenBack s' tet) {outer : HalfFace} :
    outer ∈ s'.cavity.outers ↔ (outer ∈ s.cavity.outers ∧ (s.mesh.twin outer).tet ≠ tet) ∨
      (outer.tet = tet ∧ ¬s.mesh.Bounds outer) := by
  simp [g.outers.mem_iff, HalfFace.mem_ofTet]

end GivenBack

/-- The cavity stays consistent. -/
theorem Consistent.of_givenBack (h : s.Consistent) (hm : s.mesh.Carvable) (ht : s.mesh.Deleted tet)
    (g : s.GivenBack s' tet) : s'.Consistent := by
  have hlisted := g.deleted.nodup_iff.1 h.nodup
  rw [List.nodup_cons] at hlisted
  have hm' := g.sameForm.carvable hm
  refine .of_bounds hm'.toLinked hlisted.2 (fun u => ?_) ?_ (fun outer => ?_) g.fresh
  · rw [g.deleted_iff, h.deleted_iff, g.deleted.mem_iff, List.mem_cons]
    constructor
    · rintro ⟨rfl | hu, hne⟩
      · exact absurd rfl hne
      · exact hu
    · intro hu
      exact ⟨.inr hu, fun e => hlisted.1 (e ▸ hu)⟩
  · -- A facet of the tetrahedron that is kept from both sides is constrained.
    refine g.outers.nodup_iff.2 (List.nodup_append'.2 ⟨h.outers_nodup.filter _, ?_, ?_⟩)
    · exact (HalfFace.ofTet_nodup tet).filter _
    · intro outer ho hi
      rw [List.mem_filter] at ho hi
      have htet := HalfFace.mem_ofTet.1 hi.1
      have hb := hm.bounds_twin_iff.1 ((h.mem_outers_iff hm.toLinked).1 ho.1).2
      rw [htet] at hb
      have hinner : ¬s.mesh.Bounds outer := by simpa using hi.2
      exact hinner (.inr (hb.resolve_left (fun hn => hn ht)))
  · rw [g.mem_outers_iff, h.mem_outers_iff hm.toLinked, hm.bounds_twin_iff, hm'.bounds_twin_iff]
    unfold Mesh.Bounds
    simp only [g.sameForm.twin_eq, g.sameForm.constrained_iff, g.deleted_iff]
    by_cases htet : outer.tet = tet
    · -- Between the tetrahedron and itself there is no facet but a constrained one.
      have hself : (s.mesh.twin outer).tet = tet → s.mesh.Constrained outer := fun e =>
        hm.constrained_of_tet (htet ▸ hm.lt_size_of_deleted ht) (e.trans htet.symm)
      rw [htet]
      tauto
    · tauto

end Site

end CavityRepair
