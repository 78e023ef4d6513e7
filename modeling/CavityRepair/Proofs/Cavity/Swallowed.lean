import CavityRepair.Proofs.Cavity.StarShaped
import CavityRepair.Proofs.Mesh.Facing
/-!
# Constrained facets inside the cavity

A constrained facet bounds the cavity from both sides, even when the tetrahedra of both are deleted
(`Mesh.Swallowed`). So both its sides are looked at when the cavity is made star-shaped. They pass
the corners in opposite directions, and a point that an exact test sees on the wrong side for
neither lies in the plane of the facet (`Mesh.Built.flat_of_not_blind`).

* `Site.reshape_swallows_flat`: a constrained facet that reshaping leaves inside the cavity is
  coplanar with the point, and if coplanar faces are blind there is none.
-/
namespace CavityRepair

namespace Mesh

/-- A constrained facet between two deleted tetrahedra, with three corners that are not at
infinity. -/
structure Swallowed (m : Mesh) (inner : HalfFace) (t : Triple Vertex) : Prop where
  constrained : m.Constrained inner
  corners : m.triangle? inner = some t
  finite : Vertex.ghost ∉ t.toList
  here : m.Deleted inner.tet
  behind : ∃ outer, m.twin? inner = some outer ∧ m.Deleted outer.tet

variable {m : Mesh} {p : Point} {policy : Policy}

/-- A point that is on the wrong side of a facet for neither of its tetrahedra lies in its plane. -/
theorem Built.flat_of_not_blind [Orient3d] {edits : List MeshEdit} (hbuilt : Built edits m)
    (hexact : Orient3d.ExactOn m.vertices) (hvalid : m.validate = .ok ()) (hp : p ∈ m.vertices)
    {inner : HalfFace} {t : Triple Vertex}
    (ht : m.triangle? inner = some t) (hfinite : Vertex.ghost ∉ t.toList)
    (hhere : ¬m.IsBlindFacet p policy inner) (hthere : ¬m.IsBlindFacet p policy (m.twin inner)) :
    policy.flatIsBlind = false ∧ ∃ u, m.trianglePoints? t = some u ∧
      orientation p u.c0 u.c1 u.c2 = .degenerate := by
  have hm := hbuilt.sound.toLinked
  obtain ⟨mine, hmine, rfl⟩ := Option.map_eq_some_iff.1 ht
  have hlt := lt_size_of_nodes hmine
  have hlt' : (m.twin inner).tet < m.size := hm.twin_lt hlt
  obtain ⟨theirs, htheirs⟩ := exists_nodes hlt'
  obtain ⟨u, u', hu, hu', hopposite⟩ :=
    hbuilt.exists_opposite_sides hexact hvalid hmine htheirs hfinite
  have hfinite' : Vertex.ghost ∉ (theirs.triangle (m.twin inner).facet).toList := fun hmem =>
    hfinite ((hm.mem_triangle_twin hmine htheirs).1 hmem)
  have hfaithful := hbuilt.faithful hexact
  rw [isBlindFacet_iff_of_triangle hm hlt (triangle?_eq htheirs) hfinite' hu',
    hfaithful.orientation_of_opposite hp (mem_vertices_of_triangle hu) hopposite] at hhere
  rw [isBlindFacet_iff_of_triangle hm hlt' (by rw [hm.twin_twin]; exact ht) hfinite hu] at hthere
  have hside : orientation p u.c0 u.c1 u.c2 = .degenerate := by
    cases horient : orientation p u.c0 u.c1 u.c2 with
    | negative => exact absurd (.inl (by rw [horient]; rfl)) hhere
    | degenerate => rfl
    | positive => exact absurd (.inl horient) hthere
  refine ⟨Bool.eq_false_iff.2 fun hflat => ?_, u, hu, hside⟩
  exact hthere (.inr ⟨hside, hflat⟩)

end Mesh

namespace Site

variable {s : Site} {p : Point} {policy : Policy}

/-- In a cavity without blind faces neither side of a constrained facet is blind. -/
theorem Consistent.not_blind_of_swallowed [Orient3d] (h : s.Consistent) (hm : s.mesh.Sound)
    (hnone : s.blindFace? p policy = none) {inner : HalfFace} {t : Triple Vertex}
    (hinner : s.mesh.Swallowed inner t) : ¬s.mesh.IsBlindFacet p policy inner ∧
      ¬s.mesh.IsBlindFacet p policy (s.mesh.twin inner) := by
  have hstar := h.starShaped_of_blindFace? hm.toLinked hnone
  obtain ⟨outer, htwin, hbehind⟩ := hinner.behind
  obtain ⟨hlt, rfl⟩ := hm.twin?_eq_some_iff.1 htwin
  have hback := hm.twin?_eq (hm.twin_lt hlt)
  constructor
  · exact hstar inner.tet ((h.deleted_iff _).1 hinner.here) inner.facet _ htwin
      (.inr hinner.constrained)
  · exact hstar _ ((h.deleted_iff _).1 hbehind) (s.mesh.twin inner).facet _ hback
      (.inr ((hm.constrained_twin inner).2 hinner.constrained))

/-- Where the signs of the test are exact for the vertices, reshaping succeeds, and a constrained
facet that it leaves inside the cavity lies in a plane with the point. If coplanar faces are blind
there is none. -/
theorem reshape_swallows_flat [Orient3d] {edits : List MeshEdit} (hbuilt : s.mesh.Built edits)
    (hexact : Orient3d.ExactOn s.mesh.vertices) (hvalid : s.mesh.validate = .ok ()) (hs : s.Checked)
    {vertex : Vertex} (hp : s.mesh.point? vertex = some p) {checkpoint : Nat}
    (hle : checkpoint ≤ s.cavity.deleted.length) (policy : Policy) :
    (s.reshape vertex checkpoint policy).outcome = .ok () ∧
    ∀ inner t, (s.reshape vertex checkpoint policy).site.mesh.Swallowed inner t →
      policy.flatIsBlind = false ∧ ∃ u, s.mesh.trianglePoints? t = some u ∧
        orientation p u.c0 u.c1 u.c2 = .degenerate := by
  have hm := hbuilt.sound
  have h := hs.consistent hm.toLinked
  rw [h.reshape_eq hm.toLinked hp hle]
  obtain ⟨houtcome, -, hnone, -⟩ := h.shrink_spec hm p policy
  have hrepaired := h.shrink_repaired hm p policy
  refine ⟨houtcome, fun inner t hinner => ?_⟩
  obtain ⟨hhere, hthere⟩ :=
    hrepaired.consistent.not_blind_of_swallowed (hrepaired.sound hm) hnone hinner
  -- Whether a facet is blind does not depend on what was given back.
  rw [hrepaired.sameForm.isBlindFacet_iff hrepaired.vertices] at hhere hthere
  rw [hrepaired.sameForm.twin_eq] at hthere
  have hcorners := hinner.corners
  rw [hrepaired.sameForm.triangle?_eq] at hcorners
  exact hbuilt.flat_of_not_blind hexact hvalid (Mesh.mem_vertices hp) hcorners hinner.finite hhere
    hthere

/-- Two tetrahedra of the chain are deleted and the point is put on the constrained facet between
them. Reshaping leaves both deleted as long as coplanar faces are not blind. -/
theorem reshape_swallows_flat_chain : ∃ (s : Site) (edits : List MeshEdit),
    s.mesh.Built edits ∧ Orient3d.ExactOn s.mesh.vertices ∧ s.mesh.validate = .ok () ∧ s.Checked ∧
    s.mesh.point? 6 = some ⟨0.25, 0.25, 0.5⟩ ∧ 0 ≤ s.cavity.deleted.length ∧
    (s.reshape 6 0 .fast).site.mesh.Swallowed ⟨0, 0⟩ ⟨2, 1, 3⟩ ∧
    (∃ u, s.mesh.trianglePoints? ⟨2, 1, 3⟩ = some u ∧
      orientation ⟨0.25, 0.25, 0.5⟩ u.c0 u.c1 u.c2 = .degenerate) ∧
    ∀ inner t, ¬(s.reshape 6 0 .strict).site.mesh.Swallowed inner t := by
  obtain ⟨s, hs, hvalid, hp, hconstrained, hcorners, hhere, htwin, hbehind⟩ : ∃ s,
      prepare? chainCorners chainTets [.constrainFacet 1 2 3, .addVertex ⟨0.25, 0.25, 0.5⟩]
        [[0, 1]] = some s ∧
      s.mesh.validate = .ok () ∧ s.mesh.point? 6 = some ⟨0.25, 0.25, 0.5⟩ ∧
      (s.reshape 6 0 .fast).site.mesh.Constrained ⟨0, 0⟩ ∧
      (s.reshape 6 0 .fast).site.mesh.triangle? ⟨0, 0⟩ = some ⟨2, 1, 3⟩ ∧
      (s.reshape 6 0 .fast).site.mesh.Deleted 0 ∧
      (s.reshape 6 0 .fast).site.mesh.twin? ⟨0, 0⟩ = some ⟨1, 3⟩ ∧
      (s.reshape 6 0 .fast).site.mesh.Deleted 1 := exists_of_any? (by decide +kernel)
  obtain ⟨hchecked, more, hbuilt⟩ := prepare?_eq_some (by decide) hs
  have hle := Nat.zero_le s.cavity.deleted.length
  have hswallowed : (s.reshape 6 0 .fast).site.mesh.Swallowed ⟨0, 0⟩ ⟨2, 1, 3⟩ :=
    ⟨hconstrained, hcorners, by decide, hhere, ⟨1, 3⟩, htwin, hbehind⟩
  have hexact := (Orient3d.faithful_exact s.mesh.vertices).exactOn
  obtain ⟨-, hfast⟩ := reshape_swallows_flat hbuilt hexact hvalid hchecked hp hle .fast
  obtain ⟨-, hstrict⟩ := reshape_swallows_flat hbuilt hexact hvalid hchecked hp hle .strict
  refine ⟨s, _, hbuilt, hexact, hvalid, hchecked, hp, hle, hswallowed, (hfast _ _ hswallowed).2, ?_⟩
  intro inner t h
  cases (hstrict inner t h).1

end Site

end CavityRepair
