import Mathlib.Algebra.Ring.Parity
import CavityRepair.Proofs.Cavity.Volume
import CavityRepair.Proofs.Mesh.Opposite
/-!
# The ball as a surface

Where the signs of the test are exact, the ball is a closed oriented surface, whatever is deleted:
it passes every edge as often in one direction as in the other (`Site.ball_passes`). What a triangle
passes an edge in one direction more than in the other, its flow along the edge, changes its sign
between the two sides of a facet (`Triple.Opposite.flow_eq`) and sums to nothing over the four
facets of a tetrahedron (`Quad.sum_flow`). So the flow of the ball is one of the quantities that are
the subject of `Site.Consistent.sum_outers`.

A constrained facet between two deleted tetrahedra has two faces, which cancel each other.
-/
namespace CavityRepair

namespace Triple

variable {α : Type} [DecidableEq α] {t u : Triple α} {a b : α}

/-- How often a triangle passes from one corner to another, less how often it passes back. -/
def flow (t : Triple α) (a b : α) : Int :=
  (if t.Passes a b then 1 else 0) - if t.Passes b a then 1 else 0

theorem Opposite.flow_eq (h : t.Opposite u) : u.flow a b = -t.flow a b := by
  unfold flow
  simp only [h.passes_iff]
  omega

theorem flow_map {β : Type} [DecidableEq β] {f : α → β} (hf : f.Injective) (t : Triple α) :
    (t.map f).flow (f a) (f b) = t.flow a b := by
  unfold flow
  simp only [passes_map_iff hf]

/-- There is no flow along an edge that a triangle lacks. -/
theorem flow_eq_zero (h : a ∉ t.toList ∨ b ∉ t.toList) : t.flow a b = 0 := by
  have hab : ¬t.Passes a b := fun hp => h.elim (· hp.mem.1) (· hp.mem.2)
  have hba : ¬t.Passes b a := fun hp => h.elim (· hp.mem.2) (· hp.mem.1)
  rw [flow, if_neg hab, if_neg hba, sub_zero]

theorem sum_flow (ts : List (Triple α)) (a b : α) :
    (ts.map (·.flow a b)).sum = (ts.countP (·.Passes a b) : Int) - ts.countP (·.Passes b a) := by
  induction ts with
  | nil => rfl
  | cons t rest ih =>
    rw [List.map_cons, List.sum_cons, ih, List.countP_cons, List.countP_cons, flow]
    simp only [decide_eq_true_eq, Nat.cast_add, Nat.cast_ite, Nat.cast_one, Nat.cast_zero]
    omega

/-- A triangle has two different corners when it passes from one to the other or back. -/
theorem countP_passes {ts : List (Triple α)} (hts : ∀ t ∈ ts, t.toList.Nodup) (hab : a ≠ b) :
    ts.countP (fun t => a ∈ t.toList ∧ b ∈ t.toList) =
      ts.countP (·.Passes a b) + ts.countP (·.Passes b a) := by
  induction ts with
  | nil => rfl
  | cons t rest ih =>
    rw [List.forall_mem_cons] at hts
    have hone : (a ∈ t.toList ∧ b ∈ t.toList) ↔ t.Passes a b ∨ t.Passes b a :=
      ⟨fun h => passes_or_passes h.1 h.2 hab, fun h => h.elim Passes.mem fun h => h.mem.symm⟩
    have hnot : t.Passes a b → ¬t.Passes b a := Passes.asymm hts.1
    rw [List.countP_cons, List.countP_cons, List.countP_cons, ih hts.2]
    simp only [decide_eq_true_eq, hone]
    by_cases h : t.Passes a b
    · simp only [h, hnot h, or_false, if_true, if_false]
      omega
    · simp only [h, false_or, if_false]
      omega

end Triple

/-- The facets of a tetrahedron pass each edge of it once in each direction. -/
theorem Quad.sum_flow {α : Type} [DecidableEq α] {q : Quad α} (hq : q.toList.Nodup) (a b : α) :
    (facets.map fun f => (q.triangle f).flow a b).sum = 0 := by
  have hslots : ∀ i j : Slot, (facets.map fun f => f.slots.flow i j).sum = 0 := by decide
  by_cases hcorners : a ∈ q.toList ∧ b ∈ q.toList
  · obtain ⟨⟨i, rfl⟩, j, rfl⟩ := hcorners.imp mem_toList.1 mem_toList.1
    have hinj : Function.Injective q.get := fun _ _ => (get_inj hq).1
    rw [← hslots i j]
    exact congrArg List.sum (List.map_congr_left fun f _ => Triple.flow_map hinj f.slots)
  · refine List.sum_eq_zero fun x hx => ?_
    obtain ⟨f, -, rfl⟩ := List.mem_map.1 hx
    have hsub : ∀ v ∈ (q.triangle f).toList, v ∈ q.toList := fun v hv => by
      obtain ⟨i, -, hi⟩ := mem_triangle.1 hv
      exact mem_toList.2 ⟨i, hi⟩
    refine Triple.flow_eq_zero ?_
    by_contra! hboth
    exact hcorners ⟨hsub a hboth.1, hsub b hboth.2⟩

namespace Mesh

variable {m : Mesh}

/-- Tetrahedra with different corners have no flow along any edge. -/
theorem Closed.sum_flow (hm : m.Closed) {tets : List Nat} (htets : ∀ tet ∈ tets, tet < m.size)
    (a b : Vertex) :
    ((tets.flatMap HalfFace.ofTet).map fun h => (m.triangle h).flow a b).sum = 0 := by
  induction tets with
  | nil => rfl
  | cons tet rest ih =>
    rw [List.forall_mem_cons] at htets
    have hfirst : ((HalfFace.ofTet tet).map fun h => (m.triangle h).flow a b).sum = 0 := by
      rw [HalfFace.ofTet, List.map_map]
      exact Quad.sum_flow (hm.nodup (nodes_eq_corners htets.1)) a b
    rw [List.flatMap_cons, List.map_append, List.sum_append, hfirst, ih htets.2, add_zero]

end Mesh

namespace Site

variable {s : Site}

/-- The corners of a face of the ball are those of its half-face, and differ. -/
theorem Consistent.corners_of_mem_ball (h : s.Consistent) (hm : s.mesh.Closed) {face : BallFace}
    (hface : face ∈ s.cavity.ball) :
    face.corners = s.mesh.triangle face.outer ∧ face.corners.toList.Nodup := by
  have hlt := h.lt_size_of_mem_ball hm.toLinked hface
  obtain ⟨-, hcorners, -⟩ := Mesh.ballFace?_eq_some_iff.1 (h.fresh face hface)
  rw [Mesh.triangle?_eq_triangle hlt, Option.some_inj] at hcorners
  exact ⟨hcorners.symm, hcorners ▸ hm.triangle_nodup hlt⟩

/-- Where the signs of the test are exact for the vertices, the ball of a cavity in an accepted mesh
is a closed oriented surface: its faces pass every edge as often in one direction as in the other,
so an even number of them lies at each edge. -/
theorem ball_passes [Orient3d] {edits : List MeshEdit} (hbuilt : s.mesh.Built edits)
    (hexact : Orient3d.ExactOn s.mesh.vertices) (hvalid : s.mesh.validate = .ok ())
    (hs : s.Checked) (a b : Vertex) :
    s.cavity.ball.countP (·.corners.Passes a b) = s.cavity.ball.countP (·.corners.Passes b a) ∧
      (a ≠ b → Even (s.cavity.ball.countP fun face =>
        a ∈ face.corners.toList ∧ b ∈ face.corners.toList)) := by
  have hm := hbuilt.sound
  have h := hs.consistent hm.toLinked
  have hlt : ∀ tet ∈ s.cavity.deleted, tet < s.mesh.size := fun tet ht =>
    hm.lt_size_of_deleted ((h.deleted_iff tet).2 ht)
  have houters := h.sum_outers hm (w := fun k => (s.mesh.triangle k).flow a b) fun inner hd =>
    (hbuilt.opposite_sides hexact hvalid (hm.lt_size_of_deleted hd)).flow_eq
  rw [hm.sum_flow hlt, neg_zero, Cavity.outers, List.map_map] at houters
  have hflow : ((s.cavity.ball.map (·.corners)).map (·.flow a b)).sum = 0 := by
    rw [← houters, List.map_map]
    refine congrArg List.sum (List.map_congr_left fun face hface => ?_)
    exact congrArg (Triple.flow · a b) (h.corners_of_mem_ball hm.toClosed hface).1
  have hequal : s.cavity.ball.countP (·.corners.Passes a b) =
      s.cavity.ball.countP (·.corners.Passes b a) := by
    rw [Triple.sum_flow, List.countP_map, List.countP_map, sub_eq_zero] at hflow
    exact Int.ofNat_inj.1 hflow
  refine ⟨hequal, fun hab => ?_⟩
  have hnodup : ∀ t ∈ s.cavity.ball.map (·.corners), t.toList.Nodup := by
    intro t ht
    obtain ⟨face, hface, rfl⟩ := List.mem_map.1 ht
    exact (h.corners_of_mem_ball hm.toClosed hface).2
  have hboth := Triple.countP_passes hnodup hab
  rw [List.countP_map, List.countP_map, List.countP_map] at hboth
  exact ⟨_, (hboth.trans (congrArg (_ + ·) hequal.symm))⟩

/-- Four faces lie at an edge of the constrained facet between two tetrahedra of the chain, and two
at an edge from a carved ghost to infinity. -/
theorem ball_passes_chain : ∃ (s : Site) (edits : List MeshEdit),
    prepare? chainCorners chainTets [.constrainFacet 1 2 3] [[0, 1, 3]] = some s ∧
    s.mesh.Built edits ∧ Orient3d.ExactOn s.mesh.vertices ∧ s.mesh.validate = .ok () ∧ s.Checked ∧
    s.cavity.ball.countP (·.corners.Passes 1 2) = 2 ∧
    s.cavity.ball.countP (·.corners.Passes Vertex.ghost 1) = 1 ∧
    ∀ a b, (a, b) ∈ [(1, 2), (1, Vertex.ghost)] →
      s.cavity.ball.countP (·.corners.Passes a b) = s.cavity.ball.countP (·.corners.Passes b a) ∧
      (a ≠ b → Even (s.cavity.ball.countP fun face =>
        a ∈ face.corners.toList ∧ b ∈ face.corners.toList)) := by
  obtain ⟨s, hs, hvalid, hfinite, hinfinite⟩ : ∃ s,
      prepare? chainCorners chainTets [.constrainFacet 1 2 3] [[0, 1, 3]] = some s ∧
      s.mesh.validate = .ok () ∧ s.cavity.ball.countP (·.corners.Passes 1 2) = 2 ∧
      s.cavity.ball.countP (·.corners.Passes Vertex.ghost 1) = 1 :=
    exists_of_any? (by decide +kernel)
  obtain ⟨hchecked, more, hbuilt⟩ := prepare?_eq_some (by decide) hs
  have hexact := (Orient3d.faithful_exact s.mesh.vertices).exactOn
  exact ⟨s, _, hs, hbuilt, hexact, hvalid, hchecked, hfinite, hinfinite,
    fun a b _ => ball_passes hbuilt hexact hvalid hchecked a b⟩

end Site

end CavityRepair
