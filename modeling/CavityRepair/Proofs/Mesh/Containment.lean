import CavityRepair.Proofs.Cavity.Holder
import CavityRepair.Proofs.Geometry.Barycentric
import CavityRepair.Proofs.Mesh.Acceptance
/-!
# Containment

Where the signs of the test are exact, the real tetrahedra of a built mesh are negatively oriented,
in whichever order their corners were given. So the side of a facet on which a point lies is the
sign of the weight that the point has at the corner opposite to it.

* `Mesh.Built.contains_iff_weights`: a real tetrahedron contains the points that nonnegative weights
  at its corners give, and has those strictly inside that positive weights give.
-/
namespace CavityRepair

namespace Mesh

variable {m : Mesh} {tet : Nat} {nodes : Quad Vertex} {p : Point}

/-- A real tetrahedron with sides contains the points that lie on the outer side of none. -/
theorem contains?_iff_side? [Orient3d] (hn : m.nodes[tet]? = some nodes)
    (hreal : nodes.isGhost = false) {side : Facet → Orientation}
    (hside : ∀ f, m.side? ⟨tet, f⟩ p = some (side f)) :
    m.contains? tet p = some true ↔ ∀ f, side f ≠ .negative := by
  have hpoints : ∀ f, ∃ t, m.trianglePoints? (nodes.triangle f) = some t ∧
      orientation p t.c0 t.c1 t.c2 = side f := by
    intro f
    have h := hside f
    rw [side?, triangle?_eq hn, Option.bind_some, Option.map_eq_some_iff] at h
    exact h
  rw [contains?, hn, Option.map_some, Option.some_inj, hreal, Bool.not_false, Bool.true_and,
    List.all_eq_true]
  constructor
  · intro hall f
    obtain ⟨t, ht, ho⟩ := hpoints f
    have h := hall f (mem_facets f)
    simp only [ht, ho] at h
    exact bne_iff_ne.1 h
  · intro hall f _
    obtain ⟨t, ht, ho⟩ := hpoints f
    simp only [ht, ho]
    exact bne_iff_ne.2 (hall f)

/-- The side of a facet on which a point lies is the sign of the determinant of its position. -/
theorem Hulled.side?_eq [Orient3d] (h : m.Hulled) (hexact : Orient3d.ExactOn (m.vertices.push p))
    (hn : m.nodes[tet]? = some nodes) (hreal : nodes.isGhost = false) {x : Position}
    (hx : p.position? = some x) (f : Facet) :
    m.side? ⟨tet, f⟩ p = some (.ofSign (detFrom x ((nodes.map m.pos).triangle f))) := by
  obtain ⟨t, ht⟩ := h.exists_trianglePoints hn hreal f
  have hplaced : ∀ w ∈ (nodes.triangle f).toList, ∃ a, m.position? w = some a := by
    intro w hw
    obtain ⟨i, -, rfl⟩ := Quad.mem_triangle.1 hw
    exact (h.placed hn hreal _ (Quad.mem_toList.2 ⟨i, rfl⟩)).2
  have hmem : ∀ a ∈ m.vertices, a ∈ m.vertices.push p := fun a => Array.mem_push_of_mem p
  obtain ⟨h0, h1, h2⟩ := mem_vertices_of_triangle ht
  have hside := hexact p Array.mem_push_self _ (hmem _ h0) _ (hmem _ h1) _ (hmem _ h2) _
    (det?_of_corners hx ht hplaced)
  rw [side?, triangle?_eq hn, Option.bind_some, ht, Option.map_some, hside, Quad.map_triangle]

/-- The signs of the test are exact for the vertices of a built mesh and a point. Then every real
tetrahedron has exact positions at its corners and every finite point
has one, and the tetrahedron contains the point exactly when nonnegative weights that add up to one
give its position from those of the corners. The point is on the inner side of all four facets
exactly when positive weights do. -/
theorem Built.contains_iff_weights [Orient3d] {edits : List MeshEdit} (hbuilt : m.Built edits)
    (hexact : Orient3d.ExactOn (m.vertices.push p)) (hn : m.nodes[tet]? = some nodes)
    (hreal : nodes.isGhost = false) (hp : p.check = .ok ()) :
    ∃ (q : Quad Position) (x : Position),
      (∀ i, m.position? (nodes.get i) = some (q.get i)) ∧ p.position? = some x ∧
      (m.contains? tet p = some true ↔
        ∃ w : Quad Rat, (∀ i, 0 ≤ w.get i) ∧ w.total = 1 ∧ combine w q = x) ∧
      (m.StrictlyInside tet p ↔
        ∃ w : Quad Rat, (∀ i, 0 < w.get i) ∧ w.total = 1 ∧ combine w q = x) := by
  have hm := hbuilt.oriented (hexact.mono fun a => Array.mem_push_of_mem p)
  have hneg := hm.negative hn hreal
  obtain ⟨x, hx⟩ := (Point.check_eq_ok hp).exists_position
  have hside := hm.side?_eq hexact hn hreal hx
  refine ⟨nodes.map m.pos, x, fun i => ?_, hx, ?_, ?_⟩
  · obtain ⟨-, a, ha⟩ := hm.placed hn hreal _ (Quad.mem_toList.2 ⟨i, rfl⟩)
    rw [Quad.get_map, pos_eq ha, ha]
  · rw [contains?_iff_side? hn hreal hside, exists_nonneg_weights_iff hneg]
    refine forall_congr' fun f => ?_
    rw [ne_eq, Orientation.ofSign_eq_negative_iff, not_lt]
  · rw [exists_pos_weights_iff hneg]
    refine forall_congr' fun f => ?_
    rw [hside, Option.some_inj, Orientation.ofSign_eq_positive_iff]

/-- Of the pyramid, the second tetrahedron was turned. It contains a corner of the first, which is
its own as well, but does not have it strictly inside. -/
theorem Built.contains_iff_weights_pyramid : ∃ m, ofTetrahedra pyramidCorners pyramidTets = .ok m ∧
    Orient3d.ExactOn (m.vertices.push ⟨1, 0, 0⟩) ∧ m.nodes[1]? = some ⟨1, 3, 4, 2⟩ ∧
    Point.check ⟨1, 0, 0⟩ = .ok () ∧
    ∃ (q : Quad Position) (x : Position),
      (∀ i, m.position? ((⟨1, 3, 4, 2⟩ : Quad Vertex).get i) = some (q.get i)) ∧
      Point.position? ⟨1, 0, 0⟩ = some x ∧
      (∃ w : Quad Rat, (∀ i, 0 ≤ w.get i) ∧ w.total = 1 ∧ combine w q = x) ∧
      ¬∃ w : Quad Rat, (∀ i, 0 < w.get i) ∧ w.total = 1 ∧ combine w q = x := by
  obtain ⟨m, hm, hn, hinside, hnot⟩ : ∃ m, ofTetrahedra pyramidCorners pyramidTets = .ok m ∧
      m.nodes[1]? = some ⟨1, 3, 4, 2⟩ ∧ m.contains? 1 ⟨1, 0, 0⟩ = some true ∧
      ¬m.StrictlyInside 1 ⟨1, 0, 0⟩ := exists_of_any (by decide +kernel)
  have hcheck : Point.check ⟨1, 0, 0⟩ = .ok () := by decide +kernel
  have hexact := (Orient3d.faithful_exact (m.vertices.push ⟨1, 0, 0⟩)).exactOn
  obtain ⟨q, x, hq, hx, hclosed, hopen⟩ :=
    Built.contains_iff_weights (.closed hm) hexact hn (by decide) hcheck
  exact ⟨m, hm, hexact, hn, hcheck, q, x, hq, hx, hclosed.1 hinside, mt hopen.2 hnot⟩

end Mesh

end CavityRepair
