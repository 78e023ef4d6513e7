import CavityRepair.Proofs.Cavity.EdgeSurvival
import CavityRepair.Proofs.Cavity.StarShaped
import CavityRepair.Proofs.Mesh.Facing
/-!
# The tetrahedron that holds the point

A point inside a tetrahedron is on the inner side of all its facets, and the faces that the ball can
have before them are passed in the opposite direction. So none of these is ever blind where the
signs of the test are exact, and the tetrahedron by itself is star-shaped
(`Mesh.Built.starShaped_of_contains`). A rescue leaves out the
tetrahedron that it starts from when it chooses what to give back (`Rescue.run_start_notMem`).

* `Site.holder_stays`: neither of the two gives back the tetrahedron that holds the point.
-/
namespace CavityRepair

namespace Mesh

/-- The side of a facet on which a point lies, as its tetrahedron sees it. -/
def side? [Orient3d] (m : Mesh) (h : HalfFace) (p : Point) : Option Orientation :=
  ((m.triangle? h).bind m.trianglePoints?).map fun t => orientation p t.c0 t.c1 t.c2

/-- The point lies on the inner side of every facet of a tetrahedron, and in the plane of none. -/
def StrictlyInside [Orient3d] (m : Mesh) (tet : Nat) (p : Point) : Prop :=
  ∀ f, m.side? ⟨tet, f⟩ p = some .positive

instance [Orient3d] (m : Mesh) (tet : Nat) (p : Point) : Decidable (m.StrictlyInside tet p) :=
  inferInstanceAs (Decidable (∀ _, _))

variable {m : Mesh} {tet : Nat} {p : Point} {policy : Policy}

/-- A tetrahedron that contains a point is real, and none of its facets has the point behind it. -/
theorem contains?_eq_some_true [Orient3d] (h : m.contains? tet p = some true) :
    ∃ nodes, m.nodes[tet]? = some nodes ∧ nodes.isGhost = false ∧ ∀ f, ∃ t,
      m.trianglePoints? (nodes.triangle f) = some t ∧ orientation p t.c0 t.c1 t.c2 ≠ .negative := by
  obtain ⟨nodes, hn, h⟩ := Option.map_eq_some_iff.1 h
  rw [Bool.and_eq_true, Bool.not_eq_true', List.all_eq_true] at h
  refine ⟨nodes, hn, h.1, fun f => ?_⟩
  have hf := h.2 f (mem_facets f)
  cases ht : m.trianglePoints? (nodes.triangle f) with
  | none => simp [ht] at hf
  | some t => exact ⟨t, rfl, by simpa [ht] using hf⟩

/-- A facet that has the point on its inner side is not blind from behind. -/
theorem Built.not_isBlindFacet [Orient3d] {edits : List MeshEdit} (hbuilt : Built edits m)
    (hexact : Orient3d.ExactOn m.vertices) (hvalid : m.validate = .ok ()) (hp : p ∈ m.vertices)
    {here : HalfFace} {nodes : Quad Vertex} (hn : m.nodes[here.tet]? = some nodes)
    (hreal : nodes.isGhost = false) {t : Triple Point}
    (ht : m.trianglePoints? (nodes.triangle here.facet) = some t)
    (hside : orientation p t.c0 t.c1 t.c2 ≠ .negative)
    (hflat : policy.flatIsBlind = true → orientation p t.c0 t.c1 t.c2 = .positive) :
    ¬m.IsBlindFacet p policy here := by
  have hm := hbuilt.sound.toLinked
  rintro ⟨outer, face, u, htwin, hface, -, hu, hblind⟩
  obtain ⟨hlt, rfl⟩ := hm.twin?_eq_some_iff.1 htwin
  obtain ⟨theirs, htheirs⟩ := exists_nodes (hm.twin_lt hlt)
  have hopposite := hbuilt.opposite_twin hexact hvalid hn htheirs hreal
  obtain ⟨-, hcorners, -⟩ := ballFace?_eq_some_iff.1 hface
  rw [triangle?_eq htheirs, Option.some_inj] at hcorners
  rw [← hcorners] at hu
  obtain ⟨u', hu', hpoints⟩ := exists_opposite_points hopposite ht
  obtain rfl := Option.some_inj.1 (hu'.symm.trans hu)
  have hfaithful := hbuilt.faithful hexact
  rw [hfaithful.orientation_of_opposite hp (mem_vertices_of_triangle ht) hpoints] at hblind
  rcases hblind with hpos | ⟨hdegenerate, hpolicy⟩
  · cases hside' : orientation p t.c0 t.c1 t.c2 with
    | negative => exact hside hside'
    | degenerate => simp [hside', Orientation.opposite] at hpos
    | positive => simp [hside', Orientation.opposite] at hpos
  · rw [hflat hpolicy] at hdegenerate
    cases hdegenerate

/-- A tetrahedron that contains a point is star-shaped for it, strictly so if coplanar faces are
blind. -/
theorem Built.starShaped_of_contains [Orient3d] {edits : List MeshEdit} (hbuilt : Built edits m)
    (hexact : Orient3d.ExactOn m.vertices) (hvalid : m.validate = .ok ()) (hp : p ∈ m.vertices)
    (hinside : m.contains? tet p = some true)
    (hflat : policy.flatIsBlind = true → m.StrictlyInside tet p) : m.StarShaped p policy {tet} := by
  obtain ⟨nodes, hn, hreal, hfacets⟩ := contains?_eq_some_true hinside
  rintro u rfl f outer - -
  obtain ⟨t, ht, hside⟩ := hfacets f
  refine hbuilt.not_isBlindFacet hexact hvalid hp hn hreal ht hside fun hpolicy => ?_
  have hstrict := hflat hpolicy f
  rw [side?, triangle?_eq hn, Option.bind_some, ht, Option.map_some, Option.some_inj] at hstrict
  exact hstrict

end Mesh

/-! ## Rescuing -/

namespace Rescue

variable {r : Rescue} {goal : RescueGoal}

/-- A walk never gives the start back. -/
theorem walk_start_notMem (h : goal.start ∉ r.restored) (tet : Nat) (edge : Edge) :
    goal.start ∉ (r.walk goal tet edge).rescue.restored := by
  rcases r.walk_cases goal tet edge with heq | ⟨ring, -, -, heq | ⟨member, hmember, heq⟩⟩
  · rw [heq]
    exact h
  · rw [heq]
    exact h
  · rw [heq, List.mem_cons, not_or]
    exact ⟨Ne.symm (Mesh.mem_of_farthestMember? hmember).2, h⟩

/-- A rescue never gives the start back, whether it succeeds or not. -/
theorem run_start_notMem (h : goal.start ∉ r.restored) (fresh : List Nat) :
    goal.start ∉ (r.run goal fresh).rescue.restored :=
  run_invariant (P := fun r => goal.start ∉ r.restored) (fun h _ => walk_start_notMem h _ _)
    (fun h _ => h) h fresh

end Rescue

namespace Site

variable {s : Site} {vertex : Vertex} {p : Point}

/-- The first tetrahedron since the checkpoint is not given back. -/
theorem rescue_start_notMem [Orient3d] {checkpoint start : Nat}
    (hstart : s.cavity.deleted[checkpoint]? = some start) (vertex : Vertex) (color : UInt16)
    (policy : Policy) : start ∉ (s.rescue vertex color checkpoint policy).rescue.restored := by
  rcases s.rescue_cases vertex color checkpoint policy with heq | ⟨goal, hgoal, heq⟩
  · rw [heq]
    exact List.not_mem_nil
  · obtain rfl : goal.start = start := Option.some_inj.1 (hgoal.symm.trans hstart)
    rw [heq]
    exact Rescue.run_start_notMem List.not_mem_nil _

/-- What is reshaped for is the position of the vertex. -/
theorem point?_of_checkReshape {checkpoint : Nat} {policy : Policy}
    (h : s.checkReshape vertex checkpoint policy = .ok p) : s.mesh.point? vertex = some p := by
  unfold checkReshape at h
  obtain ⟨q, hq, h⟩ := bind_eq_ok_iff.1 h
  obtain ⟨_, -, h⟩ := bind_eq_ok_iff.1 h
  have hpq : q = p := by
    split at h
    · obtain ⟨_, -, h⟩ := bind_eq_ok_iff.1 h
      cases h
      rfl
    · cases h
      rfl
  subst hpq
  unfold position at hq
  split at hq
  · rename_i hpoint
    cases hq
    exact hpoint
  · cases hq

/-- Reshaping never gives back a star-shaped part of the cavity. -/
theorem Consistent.subset_of_reshape [Orient3d] (h : s.Consistent) (hm : s.mesh.Sound)
    (hp : s.mesh.point? vertex = some p) {policy : Policy} {tets : Set Nat}
    (hstar : s.mesh.StarShaped p policy tets) (hsub : tets ⊆ s.cavity.tets) (checkpoint : Nat) :
    tets ⊆ (s.reshape vertex checkpoint policy).site.cavity.tets := by
  unfold reshape
  split
  · exact hsub
  · rename_i q hq
    obtain rfl := Option.some_inj.1 (hp.symm.trans (point?_of_checkReshape hq))
    exact (h.shrink_spec hm p policy).2.2.2 tets hstar hsub

/-- The tetrahedron that holds the point stays deleted. Where the signs of the test are exact for
the vertices, reshaping keeps every tetrahedron that contains the point, if coplanar faces are blind
every one with the point strictly inside. Rescuing, for whatever vertex, keeps the first tetrahedron
since its checkpoint. Neither has to succeed for that. -/
theorem holder_stays [Orient3d] {edits : List MeshEdit} (hbuilt : s.mesh.Built edits)
    (hvalid : s.mesh.validate = .ok ()) (hs : s.Checked) :
    (Orient3d.ExactOn s.mesh.vertices →
      ∀ vertex p tet checkpoint policy, s.mesh.point? vertex = some p → s.mesh.Deleted tet →
      s.mesh.contains? tet p = some true →
      (policy.flatIsBlind = true → s.mesh.StrictlyInside tet p) →
      (s.reshape vertex checkpoint policy).site.mesh.Deleted tet) ∧
    ∀ vertex color checkpoint policy start, s.cavity.deleted[checkpoint]? = some start →
      (s.rescue vertex color checkpoint policy).rescue.site.mesh.Deleted start := by
  have hm := hbuilt.sound
  have h := hs.consistent hm.toLinked
  constructor
  · intro hexact vertex p tet checkpoint policy hp hdeleted hinside hflat
    have hstar := hbuilt.starShaped_of_contains hexact hvalid (Mesh.mem_vertices hp) hinside hflat
    have hsub : ({tet} : Set Nat) ⊆ s.cavity.tets :=
      Set.singleton_subset_iff.2 ((h.deleted_iff tet).1 hdeleted)
    have hstays := h.subset_of_reshape hm hp hstar hsub checkpoint (Set.mem_singleton tet)
    exact ((h.reshape_repaired hm vertex checkpoint policy).consistent.deleted_iff tet).2 hstays
  · intro vertex color checkpoint policy start hstart
    rw [(h.rescue_repaired hm vertex color checkpoint policy).deleted_iff h, h.deleted_iff]
    exact ⟨List.mem_of_getElem? hstart, rescue_start_notMem hstart vertex color policy⟩

/-- In the chain the first tetrahedron holds the point. Reshaping for it and rescuing from it, where
two of the tetrahedra around constrained edges are given back, leave it deleted. -/
theorem holder_stays_chain : ∃ (s : Site) (edits : List MeshEdit),
    prepare? chainCorners chainTets
      [.constrainEdge 1 2, .constrainEdge 0 2, .addVertex ⟨0.25, 0.25, 0.25⟩]
      [[0, 1, 2, 4, 7, 10]] = some s ∧
    s.mesh.Built edits ∧ s.mesh.validate = .ok () ∧ s.Checked ∧ Orient3d.ExactOn s.mesh.vertices ∧
    s.mesh.point? 6 = some ⟨0.25, 0.25, 0.25⟩ ∧ s.mesh.Deleted 0 ∧
    s.mesh.contains? 0 ⟨0.25, 0.25, 0.25⟩ = some true ∧
    s.mesh.StrictlyInside 0 ⟨0.25, 0.25, 0.25⟩ ∧ s.cavity.deleted[0]? = some 0 ∧
    (s.reshape 6 0 .strict).site.mesh.Deleted 0 ∧
    (s.rescue 6 7 0 .strict).rescue.restored = [2, 1] ∧
    (s.rescue 6 7 0 .strict).rescue.site.mesh.Deleted 0 := by
  obtain ⟨s, hs, hvalid, hp, hdeleted, hinside, hstrict, hstart, hrestored⟩ : ∃ s,
      prepare? chainCorners chainTets
        [.constrainEdge 1 2, .constrainEdge 0 2, .addVertex ⟨0.25, 0.25, 0.25⟩]
        [[0, 1, 2, 4, 7, 10]] = some s ∧
      s.mesh.validate = .ok () ∧ s.mesh.point? 6 = some ⟨0.25, 0.25, 0.25⟩ ∧ s.mesh.Deleted 0 ∧
      s.mesh.contains? 0 ⟨0.25, 0.25, 0.25⟩ = some true ∧
      s.mesh.StrictlyInside 0 ⟨0.25, 0.25, 0.25⟩ ∧ s.cavity.deleted[0]? = some 0 ∧
      (s.rescue 6 7 0 .strict).rescue.restored = [2, 1] := exists_of_any? (by decide +kernel)
  obtain ⟨hchecked, more, hbuilt⟩ := prepare?_eq_some (by decide) hs
  obtain ⟨hreshape, hrescue⟩ := holder_stays hbuilt hvalid hchecked
  have hexact := (Orient3d.faithful_exact s.mesh.vertices).exactOn
  exact ⟨s, _, hs, hbuilt, hvalid, hchecked, hexact, hp, hdeleted, hinside, hstrict, hstart,
    hreshape hexact 6 _ 0 0 .strict hp hdeleted hinside fun _ => hstrict, hrestored,
    hrescue 6 7 0 .strict 0 hstart⟩

end Site

end CavityRepair
