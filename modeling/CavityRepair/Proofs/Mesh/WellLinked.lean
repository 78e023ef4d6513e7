import CavityRepair.Proofs.Mesh.Hull
import CavityRepair.Proofs.Mesh.InBounds
/-!
# What the check of a mesh tells

A mesh is well-linked when its arrays agree in size and the link at each half-face is that of a
shared triangle. Of a mesh that is not, the check tells the first complaint: that the sizes differ,
or else what is wrong at the first half-face with which something is wrong.

* `Mesh.mem_before_iff`: half-faces are looked at in the order of tetrahedra and facets.
* `Mesh.validate_verdict`: the check accepts exactly well-linked meshes and refuses the others for
  the first complaint.
-/
namespace CavityRepair

namespace HalfFace

/-- Half-faces are ordered by tetrahedron and then by facet. -/
theorem raw_lt_raw_iff {h k : HalfFace} :
    h.raw < k.raw ↔ h.tet < k.tet ∨ h.tet = k.tet ∧ h.facet < k.facet := by
  have := h.facet.isLt
  have := k.facet.isLt
  rw [Fin.lt_def]
  unfold raw
  omega

end HalfFace

namespace Mesh

variable {m : Mesh}

/-- The arrays agree in size and every link is proper. -/
structure WellLinked [Orient3d] (m : Mesh) : Prop where
  twins_size : m.twins.size = m.size
  flags_size : m.flags.size = m.size
  colors_size : m.colors.size = m.size
  linkedAt : ∀ here : HalfFace, here.tet < m.size → m.LinkedAt here

/-- What is said of a mesh: that its arrays differ in size, or what is said of the first half-face
without a proper link. -/
inductive FirstComplaint [Orient3d] (m : Mesh) : MeshError → Prop where
  | sizes (h : ¬(m.twins.size = m.size ∧ m.flags.size = m.size ∧ m.colors.size = m.size)) :
      FirstComplaint m (.brokenAdjacency ⟨0, 0⟩
        (.sizesDiffer m.nodes.size m.twins.size m.flags.size m.colors.size))
  | link (hsizes : m.twins.size = m.size ∧ m.flags.size = m.size ∧ m.colors.size = m.size)
      {here : HalfFace} (hhere : here.tet < m.size)
      (hbefore : ∀ h : HalfFace, h.tet < here.tet ∨ h.tet = here.tet ∧ h.facet < here.facet →
        m.LinkedAt h)
      {cause : MeshError} (hcause : m.Complaint here cause) : FirstComplaint m cause

/-! ## The scan -/

theorem pairwise_halfFaces (m : Mesh) : m.halfFaces.Pairwise (·.raw < ·.raw) := by
  unfold halfFaces tets
  rw [List.range_eq_range']
  exact HalfFace.pairwise_raw 0 m.size

/-- What is looked at before a half-face is what comes before it. -/
theorem mem_before_iff {before after : List HalfFace} {here h : HalfFace}
    (hsides : m.halfFaces = before ++ here :: after) :
    h ∈ before ↔ h.tet < here.tet ∨ h.tet = here.tet ∧ h.facet < here.facet := by
  have hordered := m.pairwise_halfFaces
  rw [hsides, List.pairwise_append, List.pairwise_cons] at hordered
  obtain ⟨-, ⟨hafter, -⟩, hbefore⟩ := hordered
  rw [← HalfFace.raw_lt_raw_iff]
  constructor
  · exact fun hh => hbefore h hh here List.mem_cons_self
  · intro hlt
    have hhere : here ∈ m.halfFaces := hsides ▸ List.mem_append_right _ List.mem_cons_self
    have hh : h ∈ m.halfFaces := by
      have := mem_halfFaces.1 hhere
      have := HalfFace.raw_lt_raw_iff.1 hlt
      exact mem_halfFaces.2 (by omega)
    rw [hsides, List.mem_append, List.mem_cons] at hh
    rcases hh with hh | rfl | hh
    · exact hh
    · exact absurd hlt (Nat.lt_irrefl _)
    · exact absurd hlt (Nat.lt_asymm (hafter h hh))

/-! ## The verdict -/

variable [Orient3d]

theorem validate_eq_ok_iff_wellLinked : m.validate = .ok () ↔ m.WellLinked := by
  rw [validate_eq_ok_iff, checkSizes, require_eq_ok_iff]
  constructor
  · rintro ⟨⟨htwins, hflags, hcolors⟩, hlinks⟩
    exact ⟨htwins, hflags, hcolors, fun here hhere =>
      (checkLink_eq_ok_iff htwins hhere).1 (hlinks here hhere)⟩
  · intro h
    exact ⟨⟨h.twins_size, h.flags_size, h.colors_size⟩, fun here hhere =>
      (checkLink_eq_ok_iff h.twins_size hhere).2 (h.linkedAt here hhere)⟩

theorem validate_eq_refuse_iff {cause : MeshError} :
    m.validate = refuse cause ↔ m.FirstComplaint cause := by
  by_cases hsizes : m.twins.size = m.size ∧ m.flags.size = m.size ∧ m.colors.size = m.size
  case neg =>
    rw [validate, checkSizes, require, if_neg hsizes]
    constructor
    · rintro ⟨⟩
      exact .sizes hsizes
    · rintro (_ | hsizes')
      · rfl
      · exact absurd hsizes' hsizes
  rw [validate, checkSizes, require, if_pos hsizes, ok_bind, refuse, checkLinks_eq_error_iff]
  constructor
  · rintro ⟨before, here, after, hsides, hbefore, hcause⟩
    have hlt : here.tet < m.size :=
      mem_halfFaces.1 (hsides ▸ List.mem_append_right _ List.mem_cons_self)
    refine .link hsizes hlt (fun h hh => ?_) ((checkLink_eq_refuse_iff hsizes.1 hlt).1 hcause)
    exact (checkLink_eq_ok_iff hsizes.1 (by omega)).1 (hbefore h ((mem_before_iff hsides).2 hh))
  · rintro (hsizes' | @⟨-, here, hlt, hbefore, _, hcause⟩)
    · exact absurd hsizes hsizes'
    · obtain ⟨before, after, hsides⟩ := List.append_of_mem (mem_halfFaces.2 hlt)
      refine ⟨before, here, after, hsides, fun h hh => ?_,
        (checkLink_eq_refuse_iff hsizes.1 hlt).2 hcause⟩
      have horder := (mem_before_iff hsides).1 hh
      exact (checkLink_eq_ok_iff hsizes.1 (by omega)).2 (hbefore h horder)

/-- The links of a well-linked mesh pair off its half-faces, and the two of a pair have the same
corners. -/
theorem WellLinked.exists_twin (hm : m.WellLinked) {h : HalfFace} (hh : h.tet < m.size) :
    ∃ k t u, k.tet < m.size ∧ m.twin? h = some k ∧ m.twin? k = some h ∧
      m.triangle? h = some t ∧ m.triangle? k = some u ∧ t.toList.Perm u.toList := by
  have hlinked : m.Linked := linked_of_validate (validate_eq_ok_iff_wellLinked.2 hm)
  have hlt : (m.twin h).tet < m.size := hlinked.twin_lt hh
  obtain ⟨mine, hmine⟩ := exists_nodes hh
  obtain ⟨theirs, htheirs⟩ := exists_nodes hlt
  have hsorted := hlinked.sorted_twin h
  rw [triangle?_eq hmine, triangle?_eq htheirs] at hsorted
  have hback : m.twin? (m.twin h) = some h := by rw [hlinked.twin?_eq hlt, hlinked.twin_twin]
  exact ⟨m.twin h, _, _, hlt, hlinked.twin?_eq hh, hback, triangle?_eq hmine, triangle?_eq htheirs,
    Triple.sorted_eq_sorted_iff.1 (Option.some.inj hsorted).symm⟩

/-- The check of any mesh ends with a verdict. It accepts exactly well-linked meshes, and in one
that it accepts the half-faces are paired off; it refuses any other for the first complaint. -/
theorem validate_verdict (m : Mesh) :
    (m.validate = .ok () ↔ m.WellLinked) ∧
    (∀ cause, m.validate = refuse cause ↔ m.FirstComplaint cause) ∧
    m.validate ≠ .error .outOfRange ∧
    (m.validate = .ok () → ∀ h : HalfFace, h.tet < m.size → ∃ k t u, k.tet < m.size ∧
      m.twin? h = some k ∧ m.twin? k = some h ∧
      m.triangle? h = some t ∧ m.triangle? k = some u ∧ t.toList.Perm u.toList) := by
  refine ⟨validate_eq_ok_iff_wellLinked, fun _ => validate_eq_refuse_iff, validate_inBounds m, ?_⟩
  intro hvalid h hh
  exact (validate_eq_ok_iff_wellLinked.1 hvalid).exists_twin hh

end Mesh

end CavityRepair
