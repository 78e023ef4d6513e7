import CavityRepair.Cavity.Carve
import CavityRepair.Proofs.Cavity.Consistent
/-!
# Carving a consistent cavity

Carving moves the boundary outward: a face goes when the tetrahedron that it is seen from is carved,
unless its facet is constrained, and the facets of carved tetrahedra that bound the larger cavity
get faces.

* `Site.Consistent.exists_carve`: carving goes through when its tetrahedra are accepted.
* `Site.Consistent.carve_eq_ok`: what a successful carving does.
* `Site.Consistent.of_carved`: the cavity stays consistent, provided that the facets which it
  swallows are constrained on both sides or on none.
-/
namespace CavityRepair

/-- What it is to carve tetrahedra. -/
structure Site.Carved (s s' : Site) (tets : List Nat) : Prop where
  mesh : s'.mesh = tets.foldl (fun m tet => m.mark tet .deleted) s.mesh
  lt_size : ∀ tet ∈ tets, tet < s.mesh.size
  sameForm : s.mesh.SameForm s'.mesh
  vertices : s'.mesh.vertices = s.mesh.vertices
  survived : ∀ tet ∈ tets, ¬s.mesh.Deleted tet
  nodup : tets.Nodup
  deleted_iff : ∀ tet, s'.mesh.Deleted tet ↔ s.mesh.Deleted tet ∨ tet ∈ tets
  deleted : s'.cavity.deleted = s.cavity.deleted ++ tets
  outers : s'.cavity.outers = s.cavity.outers.filter
    (fun outer => outer.tet ∉ tets ∨ s.mesh.Constrained outer) ++ tets.flatMap s'.mesh.outersOf
  fresh : ∀ face ∈ s'.cavity.ball, s'.mesh.ballFace? face.outer = some face

namespace Mesh

variable {m : Mesh}

theorem checkCarve_eq_ok_iff (hm : m.InRange) {before tets : List Nat} :
    m.checkCarve before tets = .ok () ↔
      (∀ tet ∈ tets, (tet < m.size ∧ ¬m.Deleted tet) ∧ tet ∉ before) ∧ tets.Nodup := by
  induction tets generalizing before with
  | nil => simp [checkCarve]
  | cons tet rest ih =>
    have hstep : m.checkCarve before (tet :: rest) = .ok () ↔
        ((tet < m.size ∧ ¬m.Deleted tet) ∧ tet ∉ before) ∧
          m.checkCarve (tet :: before) rest = .ok () := by
      rw [checkCarve, checkTet, require_bind_eq_ok_iff]
      simp only [found_bind_eq_ok_iff, require_bind_eq_ok_iff]
      constructor
      · rintro ⟨ht, _, hd, ⟨rfl, hb⟩, h⟩
        exact ⟨⟨⟨ht, (hm.deleted?_eq_false_iff.1 hd).2⟩, hb⟩, h⟩
      · rintro ⟨⟨⟨ht, hd⟩, hb⟩, h⟩
        exact ⟨ht, false, hm.deleted?_eq_false_iff.2 ⟨ht, hd⟩, ⟨rfl, hb⟩, h⟩
    rw [hstep, ih, List.forall_mem_cons, List.nodup_cons]
    simp only [List.mem_cons, not_or]
    constructor
    · rintro ⟨htet, hrest, hnodup⟩
      exact ⟨⟨htet, fun t ht => ⟨(hrest t ht).1, (hrest t ht).2.2⟩⟩,
        fun ht => (hrest tet ht).2.1 rfl, hnodup⟩
    · rintro ⟨⟨htet, hrest⟩, hnot, hnodup⟩
      refine ⟨htet, fun t ht => ⟨(hrest t ht).1, ?_, (hrest t ht).2⟩, hnodup⟩
      rintro rfl
      exact hnot ht

/-- Marking tetrahedra deleted one after the other deletes all of them. -/
theorem foldl_mark_spec (hm : m.InRange) {tets : List Nat} (h : ∀ tet ∈ tets, tet < m.size) :
    m.SameForm (tets.foldl (fun m tet => m.mark tet .deleted) m) ∧
      (tets.foldl (fun m tet => m.mark tet .deleted) m).vertices = m.vertices ∧
      ∀ u, (tets.foldl (fun m tet => m.mark tet .deleted) m).Deleted u ↔
        m.Deleted u ∨ u ∈ tets := by
  induction tets generalizing m with
  | nil => exact ⟨.refl m, rfl, by simp⟩
  | cons tet rest ih =>
    rw [List.forall_mem_cons] at h
    have hform := sameForm_mark_deleted m tet
    obtain ⟨hform', hvertices, hdeleted⟩ := ih (hform.inRange hm) h.2
    refine ⟨hform.trans hform', hvertices, fun u => ?_⟩
    rw [List.foldl_cons, hdeleted, deleted_mark_iff hm h.1, List.mem_cons, or_assoc]

end Mesh

namespace Site

variable {s s' : Site} {tets : List Nat} {checkpoint : Nat}

namespace Consistent

/-- Carving goes through when its tetrahedra are accepted. -/
theorem exists_carve (h : s.Consistent) (hm : s.mesh.Linked)
    (hcheck : s.mesh.checkCarve [] tets = .ok ()) :
    ∃ s', s.carve tets = .ok (s', s.cavity.deleted.length) ∧ s.Carved s' tets := by
  obtain ⟨hall, hnodup⟩ := (Mesh.checkCarve_eq_ok_iff hm.toInRange).1 hcheck
  have hlt : ∀ tet ∈ tets, tet < s.mesh.size := fun tet ht => (hall tet ht).1.1
  obtain ⟨hform, hvertices, hdeleted⟩ := Mesh.foldl_mark_spec hm.toInRange hlt
  unfold carve
  rw [hcheck]
  generalize hmesh : tets.foldl (fun m tet => m.mark tet .deleted) s.mesh = m' at *
  have hm' : m'.Linked := hform.linked hm
  have hlt' : ∀ tet ∈ tets, tet < m'.size := fun tet ht => hform.size_eq ▸ hlt tet ht
  have hsides : ∀ outer ∈ tets.flatMap m'.outersOf, outer.tet < m'.size := by
    intro outer ho
    obtain ⟨tet, ht, ho⟩ := List.mem_flatMap.1 ho
    rw [Mesh.mem_outersOf hm'] at ho
    exact hm'.twin_lt_iff.1 (ho.1 ▸ hlt' tet ht)
  obtain ⟨added, hadded, houter, hfresh⟩ :=
    Mesh.ballFaces_spec (ε := CavityError) hm'.toInRange hsides
  have hkept : ∀ face : BallFace, face.staysAfter m' tets =
      decide (face.outer.tet ∉ tets ∨ s.mesh.Constrained face.outer) := by
    intro face
    have hconstrained := hform.constrained_iff face.outer
    unfold Mesh.Constrained at hconstrained
    rw [Bool.eq_iff_iff, decide_eq_true_eq]
    simp [BallFace.staysAfter, Mesh.Constrained, hconstrained]
  simp only [Mesh.boundary_eq hm'.toInRange hlt', hadded, ok_bind]
  refine ⟨_, rfl, hmesh.symm, hlt, hform, hvertices, fun tet ht => (hall tet ht).1.2, hnodup,
    hdeleted, rfl, ?_, ?_⟩
  · simp only [Cavity.outers, List.map_append, houter, hkept, List.filter_map]
    rfl
  · rw [List.forall_mem_append]
    refine ⟨fun face hf => ?_, hfresh⟩
    rw [hform.ballFace?_eq]
    exact h.fresh face (List.mem_filter.1 hf).1

/-- What a successful carving does. -/
theorem carve_eq_ok (h : s.Consistent) (hm : s.mesh.Linked)
    (hc : s.carve tets = .ok (s', checkpoint)) :
    checkpoint = s.cavity.deleted.length ∧ s.Carved s' tets := by
  obtain ⟨⟨⟩, hcheck, -⟩ := bind_eq_ok_iff.1 hc
  obtain ⟨s'', hcarve, g⟩ := h.exists_carve hm hcheck
  rw [hc] at hcarve
  cases hcarve
  exact ⟨rfl, g⟩

/-- The cavity stays consistent if each facet with a face behind which a tetrahedron is carved now
is constrained on both sides or on none: the old face stays for the sake of the side carved now, and
the boundary has it for the sake of the other. -/
theorem of_carved_of_sides (h : s.Consistent) (hm : s.mesh.Linked) (g : s.Carved s' tets)
    (hsides : ∀ outer ∈ s.cavity.outers, outer.tet ∈ tets →
      (s.mesh.Constrained (s.mesh.twin outer) ↔ s.mesh.Constrained outer)) : s'.Consistent := by
  have hform := g.sameForm
  have hm' := hform.linked hm
  have hadded : ∀ outer, outer ∈ tets.flatMap s'.mesh.outersOf ↔
      (s.mesh.twin outer).tet ∈ tets ∧ s'.mesh.Bounds (s'.mesh.twin outer) := by
    intro outer
    simp only [List.mem_flatMap, Mesh.mem_outersOf hm', hform.twin_eq]
    constructor
    · rintro ⟨_, ht, rfl, hb⟩
      exact ⟨ht, hb⟩
    · rintro ⟨ht, hb⟩
      exact ⟨_, ht, rfl, hb⟩
  refine .of_bounds hm' ?_ (fun u => ?_) ?_ (fun outer => ?_) g.fresh
  · rw [g.deleted, List.nodup_append']
    exact ⟨h.nodup, g.nodup, fun u hu ht => g.survived u ht ((h.deleted_iff u).2 hu)⟩
  · rw [g.deleted_iff, g.deleted, List.mem_append, h.deleted_iff]
  · -- Faces were kept before tetrahedra that were deleted already, others are added.
    rw [g.outers, List.nodup_append']
    refine ⟨h.outers_nodup.filter _, ?_, ?_⟩
    · refine List.nodup_flatMap.2 ⟨fun tet _ => Mesh.outersOf_nodup hm' tet, ?_⟩
      refine g.nodup.imp fun hne outer ho ho' => ?_
      rw [Mesh.mem_outersOf hm'] at ho ho'
      exact hne (ho.1.symm.trans ho'.1)
    · intro outer ho ha
      rw [List.mem_filter, h.mem_outers_iff hm] at ho
      exact g.survived _ ((hadded outer).1 ha).1 ho.1.1
  · have hside := hsides outer
    rw [g.outers, List.mem_append, List.mem_filter, decide_eq_true_eq, hadded]
    rw [h.mem_outers_iff hm] at hside ⊢
    unfold Mesh.Bounds at hside ⊢
    simp only [hm.twin_twin, hform.twin_eq, hform.constrained_iff, g.deleted_iff] at hside ⊢
    by_cases ht : outer.tet ∈ tets
    · have hsurvived := g.survived outer.tet ht
      simp only [ht, hsurvived, not_true_eq_false, not_false_eq_true, true_or, or_true, and_true,
        false_or, true_implies] at hside ⊢
      constructor
      · rintro (⟨hd, hc⟩ | ⟨ht', hc⟩)
        · exact ⟨.inl hd, (hside hd).2 hc⟩
        · exact ⟨.inr ht', hc⟩
      · rintro ⟨hd | ht', hc⟩
        · exact .inl ⟨hd, (hside hd).1 hc⟩
        · exact .inr ⟨ht', hc⟩
    · simp only [ht, not_false_eq_true, true_or, and_true, or_false]
      rw [← or_and_right]

/-- The cavity stays consistent. -/
theorem of_carved (h : s.Consistent) (hm : s.mesh.Carvable) (g : s.Carved s' tets) :
    s'.Consistent :=
  h.of_carved_of_sides hm.toLinked g fun outer _ _ => hm.constrained_twin outer

end Consistent

end Site

end CavityRepair
