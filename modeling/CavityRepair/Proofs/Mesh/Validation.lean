import CavityRepair.Mesh.Validate
import CavityRepair.Proofs.Mesh.Closing
/-!
# Checking half-faces

What a proper link is does not depend on the order in which its conditions are tested
(`Mesh.LinkedAt`); what is said of one that is not does (`Mesh.Complaint`). On a mesh that is linked
already, all that `Mesh.validate` can find is two real neighbors on the same side of their shared
triangle.

* `Mesh.checkLink_cases`: the check of a half-face accepts it or says what is wrong.
* `Mesh.validate_eq_ok_iff`: the check accepts a mesh when it accepts every half-face.
* `Mesh.Linked.validate_cases`: a linked mesh is accepted or refused for a fold.
* `Mesh.Linked.negative_of_validate`: in an accepted mesh, a real tetrahedron sees the far corner of
  a real neighbor behind the facet they share.
-/
namespace CavityRepair

namespace Mesh

variable [Orient3d] {m : Mesh} {here there : HalfFace}

theorem checkLinks_eq_ok_iff {sides : List HalfFace} :
    m.checkLinks sides = .ok () ↔ ∀ here ∈ sides, m.checkLink here = .ok () := by
  induction sides with
  | nil => simp [checkLinks]
  | cons side rest ih =>
    rw [checkLinks, bind_eq_ok_iff, List.forall_mem_cons, ← ih]
    constructor
    · rintro ⟨⟨⟩, hside, hrest⟩
      exact ⟨hside, hrest⟩
    · rintro ⟨hside, hrest⟩
      exact ⟨(), hside, hrest⟩

/-- A scan fails for the first half-face that is not accepted. -/
theorem checkLinks_eq_error_iff {sides : List HalfFace} {fault : Fault MeshError} :
    m.checkLinks sides = .error fault ↔
      ∃ before here after, sides = before ++ here :: after ∧
        (∀ h ∈ before, m.checkLink h = .ok ()) ∧ m.checkLink here = .error fault := by
  induction sides with
  | nil => simp [checkLinks]
  | cons side rest ih =>
    rw [checkLinks, bind_eq_error_iff, ih]
    constructor
    · rintro (hside | ⟨⟨⟩, hside, before, here, after, rfl, hbefore, hfault⟩)
      · exact ⟨[], side, rest, rfl, List.forall_mem_nil _, hside⟩
      · exact ⟨side :: before, here, after, rfl, List.forall_mem_cons.2 ⟨hside, hbefore⟩, hfault⟩
    · rintro ⟨before, here, after, hsides, hbefore, hfault⟩
      cases before with
      | nil =>
        cases hsides
        exact .inl hfault
      | cons first before =>
        cases hsides
        rw [List.forall_mem_cons] at hbefore
        exact .inr ⟨(), hbefore.1, before, here, after, rfl, hbefore.2, hfault⟩

theorem exists_of_checkLinks {sides : List HalfFace} {fault : Fault MeshError}
    (h : m.checkLinks sides = .error fault) : ∃ here ∈ sides, m.checkLink here = .error fault := by
  obtain ⟨before, here, after, rfl, -, hfault⟩ := checkLinks_eq_error_iff.1 h
  exact ⟨here, List.mem_append_right _ List.mem_cons_self, hfault⟩

theorem validate_eq_ok_iff :
    m.validate = .ok () ↔
      m.checkSizes = .ok () ∧ ∀ here : HalfFace, here.tet < m.size → m.checkLink here = .ok () := by
  unfold validate
  rw [bind_eq_ok_iff]
  simp only [checkLinks_eq_ok_iff, mem_halfFaces]
  constructor
  · rintro ⟨⟨⟩, hsizes, hlinks⟩
    exact ⟨hsizes, hlinks⟩
  · rintro ⟨hsizes, hlinks⟩
    exact ⟨(), hsizes, hlinks⟩

/-- The sides of two half-faces of the mesh are found to be opposite or not. -/
theorem checkSides_cases (hhere : here.tet < m.size) (hthere : there.tet < m.size) :
    m.checkSides here there = .ok () ∨
      m.checkSides here there = refuse (.foldedFacet here.tet there.tet) := by
  obtain ⟨mine, hmine⟩ := exists_nodes hhere
  obtain ⟨theirs, htheirs⟩ := exists_nodes hthere
  unfold checkSides
  rw [hmine, htheirs, found_some, found_some, ok_bind, ok_bind]
  split
  · exact .inl rfl
  · split
    · unfold require
      split
      · exact .inl rfl
      · exact .inr rfl
    · exact .inl rfl

/-! ## One half-face -/

/-- The far corner of a real neighbor lies behind the shared triangle, as far as the positions are
known. -/
def Apart (m : Mesh) (here there : HalfFace) : Prop :=
  ∀ mine, m.nodes[here.tet]? = some mine → ∀ theirs, m.nodes[there.tet]? = some theirs →
    mine.isGhost = false → theirs.isGhost = false →
    ∀ t, m.trianglePoints? (mine.triangle here.facet) = some t →
    ∀ apex, m.point? (theirs.get there.facet) = some apex →
      orientation apex t.c0 t.c1 t.c2 = .negative

/-- The link at a half-face is that of a triangle that two tetrahedra share. -/
structure LinkedAt (m : Mesh) (here : HalfFace) : Prop where
  twin_lt : (m.twin here).tet < m.size
  twin_twin : m.twin (m.twin here) = here
  sorted_twin :
    (m.triangle? (m.twin here)).map Triple.sorted = (m.triangle? here).map Triple.sorted
  apart : m.Apart here (m.twin here)

/-- What is said of a half-face: the first of the four conditions that is not met. -/
inductive Complaint (m : Mesh) (here : HalfFace) : MeshError → Prop where
  | outOfRange (h : ¬(m.twin here).tet < m.size) :
      Complaint m here (.brokenAdjacency here (.outOfRange (m.twin here)))
  | noReturn (hlt : (m.twin here).tet < m.size) (h : m.twin (m.twin here) ≠ here) :
      Complaint m here (.brokenAdjacency here (.noReturn (m.twin here)))
  | triangleDiffers (hlt : (m.twin here).tet < m.size) (hback : m.twin (m.twin here) = here)
      {mine theirs : Triple Vertex} (hmine : m.triangle? here = some mine)
      (htheirs : m.triangle? (m.twin here) = some theirs) (h : mine.sorted ≠ theirs.sorted) :
      Complaint m here (.brokenAdjacency here (.triangleDiffers mine.sorted theirs.sorted))
  | folded (hlt : (m.twin here).tet < m.size) (hback : m.twin (m.twin here) = here)
      (hsame : (m.triangle? (m.twin here)).map Triple.sorted =
        (m.triangle? here).map Triple.sorted)
      (h : ¬m.Apart here (m.twin here)) :
      Complaint m here (.foldedFacet here.tet (m.twin here).tet)

/-- Nothing is said of a half-face with a proper link. -/
theorem Complaint.not_linkedAt {cause : MeshError} (h : m.Complaint here cause) :
    ¬m.LinkedAt here := by
  intro hlinked
  cases h with
  | outOfRange h => exact h hlinked.twin_lt
  | noReturn _ h => exact h hlinked.twin_twin
  | triangleDiffers _ _ hmine htheirs h =>
    have hsorted := hlinked.sorted_twin
    rw [hmine, htheirs, Option.map_some, Option.map_some, Option.some_inj] at hsorted
    exact h hsorted.symm
  | folded _ _ _ h => exact h hlinked.apart

/-- One thing at most is said of a half-face. -/
theorem Complaint.unique {cause cause' : MeshError} (h : m.Complaint here cause)
    (h' : m.Complaint here cause') : cause = cause' := by
  cases h with
  | outOfRange h =>
    cases h' with
    | outOfRange _ => rfl
    | noReturn hlt _ => exact absurd hlt h
    | triangleDiffers hlt _ _ _ _ => exact absurd hlt h
    | folded hlt _ _ _ => exact absurd hlt h
  | noReturn hlt h =>
    cases h' with
    | outOfRange hout => exact absurd hlt hout
    | noReturn _ _ => rfl
    | triangleDiffers _ hback _ _ _ => exact absurd hback h
    | folded _ hback _ _ => exact absurd hback h
  | triangleDiffers hlt hback hmine htheirs h =>
    cases h' with
    | outOfRange hout => exact absurd hlt hout
    | noReturn _ hno => exact absurd hback hno
    | triangleDiffers _ _ hmine' htheirs' _ =>
      rw [Option.some.inj (hmine.symm.trans hmine'), Option.some.inj (htheirs.symm.trans htheirs')]
    | folded _ _ hsame _ =>
      rw [hmine, htheirs] at hsame
      exact absurd (Option.some.inj hsame).symm h
  | folded hlt hback hsame h =>
    cases h' with
    | outOfRange hout => exact absurd hlt hout
    | noReturn _ hno => exact absurd hback hno
    | triangleDiffers _ _ hmine htheirs hne =>
      rw [hmine, htheirs] at hsame
      exact absurd (Option.some.inj hsame).symm hne
    | folded _ _ _ _ => rfl

theorem checkSides_eq_ok_iff (hhere : here.tet < m.size) (hthere : there.tet < m.size) :
    m.checkSides here there = .ok () ↔ m.Apart here there := by
  obtain ⟨mine, hmine⟩ := exists_nodes hhere
  obtain ⟨theirs, htheirs⟩ := exists_nodes hthere
  unfold checkSides Apart
  simp only [hmine, htheirs, found_some, ok_bind, Option.some_inj, forall_eq']
  cases mine.isGhost with
  | true => simp
  | false =>
    cases theirs.isGhost with
    | true => simp
    | false =>
      cases m.trianglePoints? (mine.triangle here.facet) <;>
        cases m.point? (theirs.get there.facet) <;> simp [require_eq_ok_iff]

/-- A half-face of the mesh has a proper link and is accepted, or something is wrong with it, and
that is what is said. -/
theorem checkLink_cases (hsize : m.twins.size = m.size) (hhere : here.tet < m.size) :
    m.LinkedAt here ∧ m.checkLink here = .ok () ∨
      ∃ cause, m.Complaint here cause ∧ m.checkLink here = refuse cause := by
  have htwin : ∀ {h : HalfFace}, h.tet < m.size → m.twin? h = some (m.twin h) := by
    intro h hh
    have : h.tet < m.twins.size := hsize ▸ hh
    simp [twin, twin?, Array.getElem?_eq_getElem this]
  unfold checkLink
  rw [htwin hhere, found_some, ok_bind]
  by_cases hlt : (m.twin here).tet < m.size
  case neg =>
    refine .inr ⟨_, .outOfRange hlt, ?_⟩
    rw [require, if_neg hlt]
    rfl
  rw [require, if_pos hlt, ok_bind, htwin hlt, found_some, ok_bind]
  by_cases hback : m.twin (m.twin here) = here
  case neg =>
    refine .inr ⟨_, .noReturn hlt hback, ?_⟩
    rw [require, if_neg hback]
    rfl
  obtain ⟨mine, hmine⟩ := exists_nodes hhere
  obtain ⟨theirs, htheirs⟩ := exists_nodes hlt
  rw [require, if_pos hback, ok_bind, triangle?_eq hmine, triangle?_eq htheirs, found_some,
    found_some, ok_bind, ok_bind]
  by_cases hsorted : (mine.triangle here.facet).sorted =
      (theirs.triangle (m.twin here).facet).sorted
  case neg =>
    refine .inr ⟨_, .triangleDiffers hlt hback (triangle?_eq hmine) (triangle?_eq htheirs) hsorted,
      ?_⟩
    rw [require, if_neg hsorted]
    rfl
  have hsame : (m.triangle? (m.twin here)).map Triple.sorted =
      (m.triangle? here).map Triple.sorted := by
    rw [triangle?_eq hmine, triangle?_eq htheirs, Option.map_some, Option.map_some, hsorted]
  rw [require, if_pos hsorted, ok_bind]
  rcases checkSides_cases hhere hlt with hok | hfold
  · exact .inl ⟨⟨hlt, hback, hsame, (checkSides_eq_ok_iff hhere hlt).1 hok⟩, hok⟩
  · refine .inr ⟨_, .folded hlt hback hsame fun hapart => ?_, hfold⟩
    rw [(checkSides_eq_ok_iff hhere hlt).2 hapart] at hfold
    cases hfold

theorem checkLink_eq_ok_iff (hsize : m.twins.size = m.size) (hhere : here.tet < m.size) :
    m.checkLink here = .ok () ↔ m.LinkedAt here := by
  rcases checkLink_cases hsize hhere with ⟨hlinked, hok⟩ | ⟨cause, hcomplaint, hcause⟩
  · exact iff_of_true hok hlinked
  · refine iff_of_false (fun hok => ?_) hcomplaint.not_linkedAt
    rw [hok] at hcause
    cases hcause

theorem checkLink_eq_refuse_iff (hsize : m.twins.size = m.size) (hhere : here.tet < m.size)
    {cause : MeshError} : m.checkLink here = refuse cause ↔ m.Complaint here cause := by
  rcases checkLink_cases hsize hhere with ⟨hlinked, hok⟩ | ⟨cause', hcomplaint, hcause⟩
  · refine iff_of_false (fun h => ?_) fun h => h.not_linkedAt hlinked
    rw [hok] at h
    cases h
  · rw [hcause]
    constructor
    · rintro ⟨⟩
      exact hcomplaint
    · intro h
      rw [h.unique hcomplaint]

namespace Linked

/-- On a linked mesh nothing is left to be checked but the sides. -/
theorem checkLink_eq (hm : m.Linked) (h : here.tet < m.size) :
    m.checkLink here = m.checkSides here (m.twin here) := by
  have hlt := hm.twin_lt h
  obtain ⟨mine, hmine⟩ := exists_nodes h
  obtain ⟨theirs, htheirs⟩ := exists_nodes hlt
  have hsorted := hm.sorted_twin here
  rw [triangle?_eq hmine, triangle?_eq htheirs, Option.map_some, Option.map_some,
    Option.some_inj] at hsorted
  have hback := hm.twin?_eq hlt
  rw [hm.twin_twin] at hback
  unfold checkLink require
  rw [hm.twin?_eq h, found_some, ok_bind, if_pos hlt, hback, found_some, ok_bind, ok_bind,
    if_pos rfl, triangle?_eq hmine, triangle?_eq htheirs, found_some, found_some, ok_bind, ok_bind,
    ok_bind, if_pos hsorted.symm, ok_bind]

/-- A linked mesh is accepted or refused for two neighbors on one side. -/
theorem validate_cases (hm : m.Linked) :
    m.validate = .ok () ∨ ∃ tet neighbor, m.validate = refuse (.foldedFacet tet neighbor) := by
  have hsizes : m.checkSizes = .ok () :=
    require_eq_ok_iff.2 ⟨hm.twins_size, hm.flags_size, hm.colors_size⟩
  unfold validate
  rw [hsizes, ok_bind]
  cases hlinks : m.checkLinks m.halfFaces with
  | ok _ => exact .inl rfl
  | error fault =>
    obtain ⟨here, hhere, hfault⟩ := exists_of_checkLinks hlinks
    have hlt := mem_halfFaces.1 hhere
    rw [hm.checkLink_eq hlt] at hfault
    rcases checkSides_cases hlt (hm.twin_lt hlt) with hok | hfold
    · rw [hok] at hfault
      cases hfault
    · exact .inr ⟨here.tet, (m.twin here).tet, hfault.symm.trans hfold⟩

/-- A linked mesh is accepted when no two neighbors are found on one side. -/
theorem validate_eq_ok_iff (hm : m.Linked) : m.validate = .ok () ↔
    ∀ here : HalfFace, here.tet < m.size → m.checkSides here (m.twin here) = .ok () := by
  rw [Mesh.validate_eq_ok_iff]
  constructor
  · rintro ⟨-, hlinks⟩ here hlt
    exact hm.checkLink_eq hlt ▸ hlinks here hlt
  · intro hsides
    refine ⟨require_eq_ok_iff.2 ⟨hm.twins_size, hm.flags_size, hm.colors_size⟩, fun here hlt => ?_⟩
    rw [hm.checkLink_eq hlt]
    exact hsides here hlt

/-- In an accepted mesh the far corner of a real neighbor is seen behind the shared facet. -/
theorem negative_of_validate (hm : m.Linked) (hvalid : m.validate = .ok ())
    {mine theirs : Quad Vertex} (hmine : m.nodes[here.tet]? = some mine)
    (htheirs : m.nodes[(m.twin here).tet]? = some theirs) (hreal : mine.isGhost = false)
    (hreal' : theirs.isGhost = false) {t : Triple Point} {apex : Point}
    (ht : m.trianglePoints? (mine.triangle here.facet) = some t)
    (hapex : m.point? (theirs.get (m.twin here).facet) = some apex) :
    orientation apex t.c0 t.c1 t.c2 = .negative := by
  have hhere := lt_size_of_nodes hmine
  have hapart := (checkSides_eq_ok_iff hhere (hm.twin_lt hhere)).1
    (hm.validate_eq_ok_iff.1 hvalid here hhere)
  exact hapart mine hmine theirs htheirs hreal hreal' t ht apex hapex

end Linked

end Mesh

end CavityRepair
