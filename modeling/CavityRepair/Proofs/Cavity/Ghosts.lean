import CavityRepair.Proofs.Cavity.EdgeSurvival
import CavityRepair.Proofs.Mesh.Cycles
import CavityRepair.Proofs.Mesh.Facing
/-!
# Ghosts in a rescue

A rescue makes no test for ghosts. What keeps it from giving one back is that one of the two corners
of a ghost that are off the ring's edge is the vertex at infinity, which has no position
(`Mesh.Built.oppositeMidpoint?_eq_none_iff`). That is so around every edge between real vertices,
hull edges included. Around an edge that ends at infinity it is not: the ring of such an edge has
ghosts only, with both apexes real, and an edge of this kind can be constrained.

* `Site.rescue_spares_ghosts`: as long as no constrained edge ends at infinity, a rescue gives no
  ghost back.
* `Site.rescue_gives_ghost_back`: without that, it may.
-/
namespace CavityRepair

/-- Whether an edit constrains no edge that ends at infinity. -/
def MeshEdit.isFinite : MeshEdit → Bool
  | .constrainEdge a b => a ≠ Vertex.ghost && b ≠ Vertex.ghost
  | _ => true

namespace Mesh

variable {m : Mesh} {edits : List MeshEdit}

/-! ## Edges and the vertex at infinity -/

/-- The ends of an edge between two vertices. -/
theorem ends_of_edgeBetween? {nodes : Quad Vertex} {a b : Vertex} {edge : Edge}
    (h : nodes.edgeBetween? a b = some edge) :
    ({nodes.get edge.slots.1, nodes.get edge.slots.2} : Finset Vertex) = {a, b} := by
  rcases Quad.get_of_edgeBetween? h with ⟨ha, hb⟩ | ⟨hb, ha⟩ <;> rw [ha, hb]
  exact Finset.pair_comm _ _

/-- A step of a ring has no midpoint when one of its apexes is at infinity. -/
theorem Built.oppositeMidpoint?_eq_none_iff [Orient3d] (hbuilt : Built edits m) {step : RingStep}
    {nodes : Quad Vertex} (hn : m.nodes[step.tet]? = some nodes)
    (hfirst : step.apexes.1 ∈ nodes.toList) (hsecond : step.apexes.2 ∈ nodes.toList) :
    m.oppositeMidpoint? step = none ↔
      step.apexes.1 = Vertex.ghost ∨ step.apexes.2 = Vertex.ghost := by
  have hpoint : ∀ {v}, v ∈ nodes.toList → (m.point? v = none ↔ v = Vertex.ghost) := by
    intro v hv
    constructor
    · intro hnone
      by_contra hne
      obtain ⟨a, ha⟩ := hbuilt.exists_point_of_ne hn hv hne
      rw [hnone] at ha
      cases ha
    · rintro rfl
      exact hbuilt.point?_ghost
  rw [← hpoint hfirst, ← hpoint hsecond]
  unfold oppositeMidpoint?
  cases m.point? step.apexes.1 <;> cases m.point? step.apexes.2 <;> simp

/-- On a ring, a ghost has no midpoint exactly when the ring's edge does not end at infinity. -/
theorem Built.midpoint_of_ghost [Orient3d] (hbuilt : Built edits m) {ends : Finset Vertex}
    {tet : Nat} {edge : Edge} {ring : List RingStep} (hring : m.RingAround ends tet edge ring)
    {step : RingStep} (hstep : step ∈ ring) (hghost : m.ghost? step.tet = some true) :
    m.oppositeMidpoint? step = none ↔ Vertex.ghost ∉ ends := by
  obtain ⟨nodes, hn, rfl, hperm⟩ := hring.corners step hstep
  have hinfinity : Vertex.ghost ∈ nodes.toList := by
    rw [ghost?, hn, Option.map_some, Option.some_inj] at hghost
    exact Quad.mem_toList.2 ⟨3, Quad.isGhost_iff.1 hghost⟩
  have hnodup := hperm.nodup_iff.1 (hbuilt.sound.nodup hn)
  rw [hbuilt.oppositeMidpoint?_eq_none_iff hn (hperm.mem_iff.2 (by simp))
    (hperm.mem_iff.2 (by simp))]
  -- The vertex at infinity is one of the four corners and no other.
  rw [hperm.mem_iff] at hinfinity
  simp only [List.nodup_cons, List.mem_cons, List.not_mem_nil, or_false] at hnodup hinfinity
  rw [Finset.mem_insert, Finset.mem_singleton]
  grind

end Mesh

/-! ## Rescues -/

namespace Rescue

/-- What a rescue notes, seen from the mesh that it started in: its rings are those of constrained
edges, and what it gave back is on one of them and has a midpoint there. -/
structure TracedFrom (m : Mesh) (r : Rescue) : Prop where
  good : r.site.Good
  sameForm : m.SameForm r.site.mesh
  vertices : r.site.mesh.vertices = m.vertices
  rings : ∀ ring ∈ r.rings, ∃ tet edge, m.marked? tet (.edge edge) = some true ∧
    m.ring tet edge = .ok ring
  restored : ∀ tet ∈ r.restored, ∃ ring ∈ r.rings, ∃ step ∈ ring, step.tet = tet ∧
    ∃ midpoint, m.oppositeMidpoint? step = some midpoint

variable {m : Mesh} {r : Rescue} {goal : RescueGoal}

/-- A walk around a constrained edge is traced. -/
theorem TracedFrom.walk (h : r.TracedFrom m) {tet : Nat} {edge : Edge}
    (hdue : (r.isDue tet edge : Attempt CavityError Bool) = .ok true) :
    (r.walk goal tet edge).rescue.TracedFrom m := by
  have hadvanced := walk_advanced goal h.good.consistent h.good.sound tet edge
  obtain ⟨restored, -, hrepaired⟩ := hadvanced.repaired
  have hmark : m.marked? tet (.edge edge) = some true := by
    rw [← h.sameForm.marked? _ _ (by simp)]
    exact (isDue_eq_true hdue).2.1
  refine ⟨hadvanced.good h.good, h.sameForm.trans hrepaired.sameForm,
    hrepaired.vertices.trans h.vertices, ?_, ?_⟩
  all_goals
    rcases r.walk_cases goal tet edge with heq | ⟨ring, hring, hrings, hrestored⟩
  · rw [heq]
    exact h.rings
  · rw [h.sameForm.ring_eq] at hring
    rw [hrings, List.forall_mem_cons]
    exact ⟨⟨tet, edge, hmark, hring⟩, h.rings⟩
  · rw [heq]
    exact h.restored
  · have hold : ∀ u ∈ r.restored, ∃ ring' ∈ ring :: r.rings, ∃ step ∈ ring', step.tet = u ∧
        ∃ midpoint, m.oppositeMidpoint? step = some midpoint := by
      intro u hu
      obtain ⟨ring', hring', hstep⟩ := h.restored u hu
      exact ⟨ring', List.mem_cons_of_mem _ hring', hstep⟩
    rw [hrings]
    rcases hrestored with heq | ⟨member, hmember, heq⟩ <;> rw [heq]
    · exact hold
    · obtain ⟨⟨step, hstep, hmember, midpoint, hpoint⟩, -⟩ := Mesh.mem_of_farthestMember? hmember
      rw [Mesh.oppositeMidpoint?_eq h.vertices] at hpoint
      rw [List.forall_mem_cons]
      exact ⟨⟨ring, List.mem_cons_self, step, hstep, hmember, midpoint, hpoint⟩, hold⟩

theorem TracedFrom.paint (h : r.TracedFrom m) {color : UInt16} {tets : List Nat} {mesh : Mesh}
    (hmesh : (r.site.mesh.paintDeleted color tets : Attempt CavityError Mesh) = .ok mesh) :
    TracedFrom m { r with site := ⟨mesh, r.site.cavity⟩ } := by
  obtain ⟨hform, hvertices, hdeleted⟩ := Mesh.paintDeleted_eq_ok hmesh
  exact ⟨⟨h.good.consistent.of_sameForm hform hdeleted, hform.sound h.good.sound⟩,
    h.sameForm.trans hform, hvertices.trans h.vertices, h.rings, h.restored⟩

section

variable [Orient3d] {edits : List MeshEdit} (h : r.TracedFrom m) (hbuilt : m.Built edits)

include h hbuilt

/-- The rings that were walked are cycles around edges that were constrained. -/
theorem TracedFrom.exists_ringAround {ring : List RingStep} (hring : ring ∈ r.rings) :
    ∃ a b tet edge, .constrainEdge a b ∈ edits ∧ m.RingAround {a, b} tet edge ring := by
  obtain ⟨tet, edge, hmark, hwalk⟩ := h.rings ring hring
  obtain ⟨a, b, nodes, hedge, hn, hbetween⟩ := hbuilt.exists_constrainEdge hmark
  obtain ⟨ring', hring', haround⟩ := hbuilt.sound.toClosed.exists_ringAround hn edge
  obtain rfl := Except.ok.inj (hring'.symm.trans hwalk)
  rw [Mesh.ends_of_edgeBetween? hbetween] at haround
  exact ⟨a, b, tet, edge, hedge, haround⟩

variable (hreal : ∀ a b, .constrainEdge a b ∈ edits → a ≠ Vertex.ghost ∧ b ≠ Vertex.ghost)

include hreal

theorem TracedFrom.midpoint_eq_none {ring : List RingStep} (hring : ring ∈ r.rings)
    {step : RingStep} (hstep : step ∈ ring) (hghost : m.ghost? step.tet = some true) :
    m.oppositeMidpoint? step = none := by
  obtain ⟨a, b, tet, edge, hedge, haround⟩ := h.exists_ringAround hbuilt hring
  obtain ⟨ha, hb⟩ := hreal a b hedge
  rw [hbuilt.midpoint_of_ghost haround hstep hghost]
  simp [ha.symm, hb.symm]

theorem TracedFrom.ghost?_of_restored {tet : Nat} (htet : tet ∈ r.restored) :
    m.ghost? tet = some false := by
  obtain ⟨ring, hring, step, hstep, rfl, midpoint, hmidpoint⟩ := h.restored tet htet
  obtain ⟨a, b, _, _, _, haround⟩ := h.exists_ringAround hbuilt hring
  obtain ⟨nodes, hn, -⟩ := haround.corners step hstep
  cases hghost : nodes.isGhost with
  | false => rw [Mesh.ghost?, hn, Option.map_some, hghost]
  | true =>
    have hnone := h.midpoint_eq_none hbuilt hreal hring hstep
      (by rw [Mesh.ghost?, hn, Option.map_some, hghost])
    rw [hnone] at hmidpoint
    cases hmidpoint

end

end Rescue

namespace Site

variable {s : Site}

/-- A rescue is traced, whether it succeeds or not. -/
theorem Good.traced_rescue [Orient3d] (hs : s.Good) (vertex : Vertex) (color : UInt16)
    (checkpoint : Nat) (policy : Policy) :
    (s.rescue vertex color checkpoint policy).rescue.TracedFrom s.mesh := by
  have hstart : Rescue.TracedFrom s.mesh ⟨s, [], [], []⟩ := by
    exact ⟨hs, .refl _, rfl, fun _ h => absurd h List.not_mem_nil,
      fun _ h => absurd h List.not_mem_nil⟩
  rcases s.rescue_cases vertex color checkpoint policy with heq | ⟨goal, -, heq⟩
  · rw [heq]
    exact hstart
  · rw [heq]
    exact Rescue.run_invariant (fun h hdue => h.walk hdue) (fun h hmesh => h.paint hmesh) hstart _

/-- As long as no constrained edge ends at infinity, the ghosts on the rings that a rescue walks
have no midpoints, and no ghost is given back, whether the rescue succeeds or not. -/
theorem rescue_spares_ghosts [Orient3d] {edits : List MeshEdit} (hbuilt : s.mesh.Built edits)
    (hs : s.Checked)
    (hreal : ∀ a b, .constrainEdge a b ∈ edits → a ≠ Vertex.ghost ∧ b ≠ Vertex.ghost)
    (vertex : Vertex) (color : UInt16) (checkpoint : Nat) (policy : Policy) :
    (∀ ring ∈ (s.rescue vertex color checkpoint policy).rescue.rings, ∀ step ∈ ring,
      s.mesh.ghost? step.tet = some true → s.mesh.oppositeMidpoint? step = none) ∧
    (∀ tet ∈ (s.rescue vertex color checkpoint policy).rescue.restored,
      s.mesh.ghost? tet = some false) ∧
    ∀ tet, s.mesh.ghost? tet = some true → s.mesh.Deleted tet →
      (s.rescue vertex color checkpoint policy).rescue.site.mesh.Deleted tet := by
  have hm := hbuilt.sound
  have hgood : s.Good := ⟨hs.consistent hm.toLinked, hm⟩
  have htraced := hgood.traced_rescue vertex color checkpoint policy
  have hrepaired := hgood.consistent.rescue_repaired hm vertex color checkpoint policy
  have hrestored : ∀ tet ∈ (s.rescue vertex color checkpoint policy).rescue.restored,
      s.mesh.ghost? tet = some false := fun _ => htraced.ghost?_of_restored hbuilt hreal
  refine ⟨fun _ hring _ => htraced.midpoint_eq_none hbuilt hreal hring, hrestored, ?_⟩
  intro tet hghost hdeleted
  rw [hrepaired.deleted_iff hgood.consistent]
  refine ⟨hdeleted, fun htet => ?_⟩
  rw [hrestored tet htet] at hghost
  cases hghost

/-- A prepared site, given edits none of which constrains an edge that ends at infinity. -/
theorem prepare?_finite [Orient3d] {vertices : Array Point} {tets : List (Quad Vertex)}
    {edits : List MeshEdit} {portions : List (List Nat)}
    (hedits : ∀ edit ∈ edits, edit.deletes = false ∧ edit.isFinite = true)
    (hs : prepare? vertices tets edits portions = some s) :
    s.Checked ∧ ∃ edits', s.mesh.Built edits' ∧
      ∀ a b, .constrainEdge a b ∈ edits' → a ≠ Vertex.ghost ∧ b ≠ Vertex.ghost := by
  obtain ⟨hchecked, more, hmore, hbuilt⟩ :=
    prepare?_constrains (fun edit hedit => (hedits edit hedit).1) hs
  refine ⟨hchecked, _, hbuilt, fun a b hedge => ?_⟩
  rcases List.mem_append.1 hedge with hedge | hedge
  · exact absurd (hmore _ hedge) (by simp [MeshEdit.constrains])
  · have hfinite := (hedits _ (List.mem_reverse.1 hedge)).2
    simpa [MeshEdit.isFinite] using hfinite

/-- Two tetrahedra of the chain are given back. The three ghosts carved with them are not. -/
theorem rescue_spares_ghosts_chain : ∃ (s : Site) (edits : List MeshEdit),
    prepare? chainCorners chainTets
      [.constrainEdge 1 2, .constrainEdge 0 2, .addVertex ⟨0.25, 0.25, 0.25⟩]
      [[0, 1, 2, 4, 7, 10]] = some s ∧
    s.mesh.Built edits ∧ s.Checked ∧
    (∀ a b, .constrainEdge a b ∈ edits → a ≠ Vertex.ghost ∧ b ≠ Vertex.ghost) ∧
    s.mesh.ghost? 7 = some true ∧ s.mesh.Deleted 7 ∧
    (s.rescue 6 7 0 .strict).rescue.restored = [2, 1] ∧
    (s.rescue 6 7 0 .strict).rescue.site.mesh.Deleted 7 := by
  obtain ⟨s, hs, hghost, hdeleted, hrestored⟩ : ∃ s,
      prepare? chainCorners chainTets
        [.constrainEdge 1 2, .constrainEdge 0 2, .addVertex ⟨0.25, 0.25, 0.25⟩]
        [[0, 1, 2, 4, 7, 10]] = some s ∧
      s.mesh.ghost? 7 = some true ∧ s.mesh.Deleted 7 ∧
      (s.rescue 6 7 0 .strict).rescue.restored = [2, 1] := exists_of_any? (by decide +kernel)
  obtain ⟨hchecked, edits, hbuilt, hreal⟩ := prepare?_finite (by decide) hs
  obtain ⟨-, -, hspared⟩ := rescue_spares_ghosts hbuilt hchecked hreal 6 7 0 .strict
  exact ⟨s, edits, hs, hbuilt, hchecked, hreal, hghost, hdeleted, hrestored,
    hspared 7 hghost hdeleted⟩

/-- Around the edge from a vertex to infinity all tetrahedra are ghosts. One of them has a midpoint
and is given back. -/
theorem rescue_gives_ghost_back : ∃ (s : Site) (edits : List MeshEdit),
    prepare? unitCorners [⟨0, 1, 2, 3⟩]
      [.constrainEdge 0 Vertex.ghost, .addVertex ⟨0.25, 0.25, 0.25⟩] [[0, 1, 2, 3, 4]] = some s ∧
    s.mesh.Built edits ∧ s.mesh.validate = .ok () ∧ s.Checked ∧
    s.mesh.point? 4 = some ⟨0.25, 0.25, 0.25⟩ ∧
    (s.rescue 4 7 0 .strict).outcome = .ok () ∧
    (s.rescue 4 7 0 .strict).rescue.restored = [2] ∧ s.mesh.ghost? 2 = some true ∧
    (∃ ring ∈ (s.rescue 4 7 0 .strict).rescue.rings, ∃ step ∈ ring, step.tet = 2 ∧
      s.mesh.oppositeMidpoint? step ≠ none) ∧
    s.mesh.Deleted 2 ∧ ¬ (s.rescue 4 7 0 .strict).rescue.site.mesh.Deleted 2 := by
  obtain ⟨s, hs, hrun⟩ : ∃ s,
      prepare? unitCorners [⟨0, 1, 2, 3⟩]
        [.constrainEdge 0 Vertex.ghost, .addVertex ⟨0.25, 0.25, 0.25⟩] [[0, 1, 2, 3, 4]] = some s ∧
      s.mesh.validate = .ok () ∧ s.mesh.point? 4 = some ⟨0.25, 0.25, 0.25⟩ ∧
      (s.rescue 4 7 0 .strict).outcome = .ok () ∧
      (s.rescue 4 7 0 .strict).rescue.restored = [2] ∧ s.mesh.ghost? 2 = some true ∧
      (∃ ring ∈ (s.rescue 4 7 0 .strict).rescue.rings, ∃ step ∈ ring, step.tet = 2 ∧
        s.mesh.oppositeMidpoint? step ≠ none) ∧
      s.mesh.Deleted 2 ∧ ¬ (s.rescue 4 7 0 .strict).rescue.site.mesh.Deleted 2 :=
    exists_of_any? (by decide +kernel)
  obtain ⟨hchecked, more, hbuilt⟩ := prepare?_eq_some (by decide) hs
  obtain ⟨hvalid, hrest⟩ := hrun
  exact ⟨s, _, hs, hbuilt, hvalid, hchecked, hrest⟩

end Site

end CavityRepair
