import CavityRepair.Proofs.Lattice.Surface
import CavityRepair.Proofs.Mesh.Acceptance
import CavityRepair.Proofs.Mesh.Facing
/-!
# Lattices are conforming

When the coordinates of a lattice are finite numbers that go up or down all the way, the determinant
of a walk is the product of its three steps, with a sign that is its order's (`Walk.detOf_corners`).
Steps along one axis have the same sign everywhere, so walks that are joined lie on opposite sides
of the triangle they have in common (`Walk.Joined.opposite_sides`). Together with what is known of
its triangles this makes the lattice manifold, and the mesh built of it is accepted, provided that
the signs of the test are exact for its corners (`Mesh.lattice_conforms`).
-/
namespace CavityRepair

/-! ## Coordinates -/

/-- The coordinates of a lattice are finite numbers that go up from each to the next, or down. -/
structure Spaced (cells : Nat) (spacing : Float) (coordinate : Nat → Rat) : Prop where
  exact : ∀ i ≤ cells, rational? (.ofNat i * spacing) = some (coordinate i)
  monotone : (∀ i < cells, coordinate i < coordinate (i + 1)) ∨
    (∀ i < cells, coordinate (i + 1) < coordinate i)

/-- How far it is from a coordinate to the next. -/
def stride (coordinate : Nat → Rat) (i : Nat) : Rat := coordinate (i + 1) - coordinate i

/-- The exact position of a corner. -/
def cornerPosition (coordinate : Nat → Rat) (corner : Triple Nat) : Position :=
  ⟨coordinate corner.c0, coordinate corner.c1, coordinate corner.c2⟩

section

variable {cells : Nat} {spacing : Float} {coordinate : Nat → Rat}

/-- All strides go the same way. -/
theorem Spaced.stride_mul_pos (h : Spaced cells spacing coordinate) {i j : Nat} (hi : i < cells)
    (hj : j < cells) : 0 < stride coordinate i * stride coordinate j := by
  rcases h.monotone with hup | hdown
  · exact mul_pos (sub_pos.2 (hup i hi)) (sub_pos.2 (hup j hj))
  · exact mul_pos_of_neg_of_neg (sub_neg.2 (hdown i hi)) (sub_neg.2 (hdown j hj))

theorem Spaced.finite_coordinate (h : Spaced cells spacing coordinate) {i : Nat} (hi : i ≤ cells) :
    finite (.ofNat i * spacing) = true := by
  rw [← rational?_isSome, h.exact i hi]
  rfl

variable {corner : Triple Nat}

theorem Spaced.finite_point (h : Spaced cells spacing coordinate)
    (hcorner : corner.Below (cells + 1)) : (latticePoint spacing corner).Finite := by
  intro axis
  have hfinite := h.finite_coordinate (Nat.le_of_lt_succ (hcorner axis))
  fin_cases axis
  exacts [hfinite, hfinite, hfinite]

theorem Spaced.position?_latticePoint (h : Spaced cells spacing coordinate)
    (hcorner : corner.Below (cells + 1)) :
    (latticePoint spacing corner).position? = some (cornerPosition coordinate corner) := by
  obtain ⟨h0, h1, h2⟩ := Triple.below_iff.1 hcorner
  simp [Point.position?, latticePoint, cornerPosition, h.exact _ (Nat.le_of_lt_succ h0),
    h.exact _ (Nat.le_of_lt_succ h1), h.exact _ (Nat.le_of_lt_succ h2)]

end

/-! ## Orders turn one way or the other -/

/-- Whether an order is the usual one, up to where it begins, or the opposite. -/
def turn (order : Triple Axis) : Rat :=
  if order = ⟨0, 1, 2⟩ ∨ order = ⟨1, 2, 0⟩ ∨ order = ⟨2, 0, 1⟩ then 1 else -1

theorem turn_mul_turn (order : Triple Axis) : turn order * turn order = 1 := by
  unfold turn
  split <;> norm_num

theorem turn_rotate {a b c : Axis} (h : ⟨a, b, c⟩ ∈ axisOrders) :
    turn ⟨b, c, a⟩ = turn ⟨a, b, c⟩ := by
  revert a b c
  decide

theorem turn_swapFirst {a b c : Axis} (h : ⟨a, b, c⟩ ∈ axisOrders) :
    turn ⟨b, a, c⟩ = -turn ⟨a, b, c⟩ := by
  revert a b c
  decide

theorem turn_swapLast {a b c : Axis} (h : ⟨a, b, c⟩ ∈ axisOrders) :
    turn ⟨a, c, b⟩ = -turn ⟨a, b, c⟩ := by
  revert a b c
  decide

namespace Walk

variable (coordinate : Nat → Rat) {w w' : Walk} {f f' : Facet}

/-- The product of the three steps of a walk. -/
def volume (w : Walk) : Rat :=
  stride coordinate w.origin.c0 * stride coordinate w.origin.c1 * stride coordinate w.origin.c2

/-- The determinant of a walk is its volume with a sign that its order tells. -/
theorem detOf_corners (hw : w.order ∈ axisOrders) :
    detOf (w.corners.map (cornerPosition coordinate)) = -(turn w.order * w.volume coordinate) := by
  obtain ⟨⟨x, y, z⟩, order⟩ := w
  simp only [axisOrders, List.mem_cons, List.not_mem_nil, or_false] at hw
  rcases hw with rfl | rfl | rfl | rfl | rfl | rfl <;>
    simp [detOf, det, corners, walkCorners, stepAlong, Quad.map, cornerPosition, volume, stride,
      turn] <;>
    ring

/-- The corner that a facet leaves out is on the side of it that the order of the walk tells. -/
theorem detFrom_triangle (hw : w.order ∈ axisOrders) (f : Facet) :
    detFrom (cornerPosition coordinate (w.corners.get f))
      ((w.corners.triangle f).map (cornerPosition coordinate)) =
        turn w.order * w.volume coordinate := by
  have h := det_facet (w.corners.map (cornerPosition coordinate)) f
  rwa [Quad.get_map, ← Quad.map_triangle, detOf_corners coordinate hw, neg_neg] at h

/-- Where two walks are joined, either their orders turn alike and they pass the triangle in
opposite directions, or the orders turn unlike and they pass it in the same direction. -/
theorem Joined.turn_eq (h : Joined w f w' f') (hw : w.order ∈ axisOrders)
    (hw' : w'.order ∈ axisOrders) :
    (turn w'.order = turn w.order ∧ (w.corners.triangle f).Opposite (w'.corners.triangle f')) ∨
      (turn w'.order = -turn w.order ∧ w'.corners.triangle f' = w.corners.triangle f) := by
  rcases h with ⟨rfl, rfl, rfl⟩ | ⟨rfl, rfl, rfl⟩ | ⟨rfl, rfl, rfl⟩ | ⟨rfl, rfl, rfl⟩
  · exact .inl ⟨turn_rotate hw, .inl rfl⟩
  · exact .inl ⟨(turn_rotate hw').symm, .inl rfl⟩
  · exact .inr ⟨turn_swapFirst hw, w.joined_swapFirst.side_eq⟩
  · -- Facet 2 of a tetrahedron lists its first two corners in the other order.
    exact .inr ⟨turn_swapLast hw,
      congrArg (fun t => (⟨t.c1, t.c0, t.c2⟩ : Triple (Triple Nat))) w.joined_swapLast.side_eq⟩

/-- Where two walks are joined, the product of the determinants of their other corners with the
triangle is that of their volumes with the opposite sign. -/
theorem Joined.opposite_sides (h : Joined w f w' f') (hw : w.order ∈ axisOrders)
    (hw' : w'.order ∈ axisOrders) :
    detFrom (cornerPosition coordinate (w.corners.get f))
        ((w.corners.triangle f).map (cornerPosition coordinate)) *
      detFrom (cornerPosition coordinate (w'.corners.get f'))
        ((w.corners.triangle f).map (cornerPosition coordinate)) =
      -(w.volume coordinate * w'.volume coordinate) := by
  have hmine := detFrom_triangle coordinate hw f
  have htheirs := detFrom_triangle coordinate hw' f'
  have hsides : detFrom (cornerPosition coordinate (w'.corners.get f'))
      ((w.corners.triangle f).map (cornerPosition coordinate)) =
        -(turn w.order * w'.volume coordinate) := by
    rcases h.turn_eq hw hw' with ⟨hturn, hopposite⟩ | ⟨hturn, hsame⟩
    · rw [detFrom_opposite (hopposite.map _), hturn] at htheirs
      exact neg_eq_iff_eq_neg.1 htheirs
    · rw [hsame, hturn, neg_mul] at htheirs
      exact htheirs
  rw [hmine, hsides]
  calc turn w.order * w.volume coordinate * -(turn w.order * w'.volume coordinate)
      = -(turn w.order * turn w.order * (w.volume coordinate * w'.volume coordinate)) := by ring
    _ = -(w.volume coordinate * w'.volume coordinate) := by rw [turn_mul_turn, one_mul]

end Walk

theorem Spaced.volume_mul_pos {cells : Nat} {spacing : Float} {coordinate : Nat → Rat}
    (h : Spaced cells spacing coordinate) {w w' : Walk} (hw : w.Inside cells)
    (hw' : w'.Inside cells) : 0 < w.volume coordinate * w'.volume coordinate := by
  obtain ⟨h0, h1, h2⟩ := Triple.below_iff.1 hw.below
  obtain ⟨h0', h1', h2'⟩ := Triple.below_iff.1 hw'.below
  have hpos := mul_pos (mul_pos (h.stride_mul_pos h0 h0') (h.stride_mul_pos h1 h1'))
    (h.stride_mul_pos h2 h2')
  unfold Walk.volume
  linarith

namespace Mesh

/-- The positions of the corners of a lattice. -/
def latticePoints (cells : Nat) (spacing : Float) : Array Point :=
  ((gridPoints (cells + 1)).map (latticePoint spacing)).toArray

section

variable {cells : Nat} {spacing : Float} {coordinate : Nat → Rat} {corner : Triple Nat} {m : Mesh}

theorem size_latticePoints (cells : Nat) (spacing : Float) :
    (latticePoints cells spacing).size = (cells + 1) * (cells + 1) * (cells + 1) := by
  rw [latticePoints, List.size_toArray, List.length_map, length_gridPoints]

variable (hside : (cells + 1) * (cells + 1) * (cells + 1) ≤ UInt32.size)

include hside

theorem getElem?_latticePoints (spacing : Float) (hcorner : corner.Below (cells + 1)) :
    (latticePoints cells spacing)[(cornerVertex (cells + 1) corner).toNat]? =
      some (latticePoint spacing corner) := by
  rw [cornerVertex_toNat hside hcorner, latticePoints, List.getElem?_toArray, List.getElem?_map,
    getElem?_gridPoints hcorner, Option.map_some]

variable (hspaced : Spaced cells spacing coordinate)

include hspaced

theorem inputPosition?_lattice (hcorner : corner.Below (cells + 1)) :
    inputPosition? (latticePoints cells spacing) (cornerVertex (cells + 1) corner) =
      some (cornerPosition coordinate corner) :=
  inputPosition?_eq (getElem?_latticePoints hside spacing hcorner)
    (hspaced.position?_latticePoint hcorner)

theorem solid_lattice {w : Walk} (hw : w.Inside cells) :
    Solid (latticePoints cells spacing) (w.nodes (cells + 1)) where
  inRange v hv := by
    obtain ⟨slot, rfl⟩ := Quad.mem_toList.1 hv
    have hbelow := hw.below_corners (Quad.mem_toList.2 ⟨slot, rfl⟩)
    exact (Array.getElem?_eq_some_iff.1 (by
      rw [Walk.nodes, Quad.get_map, getElem?_latticePoints hside spacing hbelow])).1
  distinct := hw.nodes_nodup hside
  notFlat := by
    refine ⟨w.corners.map (cornerPosition coordinate), fun slot => ?_, fun hzero => ?_⟩
    · have hbelow := hw.below_corners (Quad.mem_toList.2 ⟨slot, rfl⟩)
      rw [Walk.nodes, Quad.get_map, Quad.get_map, inputPosition?_lattice hside hspaced hbelow]
    · have hpos := hspaced.volume_mul_pos hw hw
      have hone := turn_mul_turn w.order
      rw [Walk.detOf_corners coordinate hw.order, neg_eq_zero, mul_eq_zero] at hzero
      rcases hzero with hzero | hzero
      · simp [hzero] at hone
      · simp [hzero] at hpos

theorem manifold_lattice (hcells : 1 ≤ cells) :
    Manifold (latticePoints cells spacing) (latticeTets cells) where
  points p hp := by
    obtain ⟨corner, hcorner, rfl⟩ := List.mem_map.1 (List.mem_toArray.1 hp)
    exact hspaced.finite_point (mem_gridPoints.1 hcorner)
  solid q hq := by
    rw [latticeTets_eq] at hq
    obtain ⟨w, hw, rfl⟩ := List.mem_map.1 hq
    exact solid_lattice hside hspaced (mem_latticeWalks.1 hw)
  facets _ ht := holders_lattice_le hside ht
  edges _ he := card_hullAround_lattice_le hcells hside he

omit hside hspaced in
/-- The tetrahedra of the mesh that are not ghosts are the walks of the lattice. -/
theorem exists_walk [Orient3d]
    (hm : ofTetrahedra (latticePoints cells spacing) (latticeTets cells) = .ok m) {tet : Nat}
    {q : Quad Vertex} (hq : m.nodes[tet]? = some q) (hreal : q.isGhost = false) :
    ∃ w : Walk, (latticeWalks cells)[tet]? = some w ∧
      q.toList.Perm (w.nodes (cells + 1)).toList := by
  obtain ⟨hull, hclosed⟩ := exists_closedBy hm
  have hlt := (hclosed.isGhost_eq_false_iff (Built.closed hm).point?_ghost hq).1 hreal
  obtain ⟨nodes, hnodes⟩ : ∃ nodes, (latticeTets cells)[tet]? = some nodes :=
    ⟨_, List.getElem?_eq_getElem hlt⟩
  obtain ⟨q', hq', hturned, -⟩ := hclosed.real hnodes
  obtain rfl := Option.some_inj.1 (hq.symm.trans hq')
  rw [latticeTets_eq, List.getElem?_map] at hnodes
  obtain ⟨w, hw, rfl⟩ := Option.map_eq_some_iff.1 hnodes
  refine ⟨w, hw, ?_⟩
  rcases hturned with rfl | rfl
  · exact .refl _
  · exact Quad.flip_perm _

omit hspaced in
/-- Neighbors in the mesh are walks that are joined at the triangle between them. -/
theorem exists_joined [Orient3d]
    (hm : ofTetrahedra (latticePoints cells spacing) (latticeTets cells) = .ok m) {here : HalfFace}
    {mine theirs : Quad Vertex} (hmine : m.nodes[here.tet]? = some mine)
    (htheirs : m.nodes[(m.twin here).tet]? = some theirs) (hreal : mine.isGhost = false)
    (hreal' : theirs.isGhost = false) :
    ∃ (w w' : Walk) (f f' : Facet), w.Inside cells ∧ w'.Inside cells ∧ w.Joined f w' f' ∧
      (mine.triangle here.facet).toList.Perm ((w.nodes (cells + 1)).triangle f).toList ∧
      mine.get here.facet = (w.nodes (cells + 1)).get f ∧
      theirs.get (m.twin here).facet = (w'.nodes (cells + 1)).get f' := by
  have hclosed := closed_of_ofTetrahedra hm
  obtain ⟨w, hplace, hperm⟩ := exists_walk hm hmine hreal
  obtain ⟨w', hplace', hperm'⟩ := exists_walk hm htheirs hreal'
  have hw := mem_latticeWalks.1 (List.mem_of_getElem? hplace)
  have hw' := mem_latticeWalks.1 (List.mem_of_getElem? hplace')
  obtain ⟨f, hf, hget⟩ := Quad.exists_facet_of_perm (hw.nodes_nodup hside) hperm here.facet
  obtain ⟨f', hf', hget'⟩ :=
    Quad.exists_facet_of_perm (hw'.nodes_nodup hside) hperm' (m.twin here).facet
  refine ⟨w, w', f, f', hw, hw', ?_, hf, hget, hget'⟩
  have htwin := hclosed.sorted_twin here
  rw [triangle?_eq hmine, triangle?_eq htheirs, Option.map_some, Option.map_some, Option.some_inj,
    Triple.sorted_eq_sorted_iff] at htwin
  have hvertices : vertexSet (cells + 1) (w'.side f') = vertexSet (cells + 1) (w.side f) := by
    rw [← Walk.nodes_triangle, ← Walk.nodes_triangle]
    exact List.toFinset_eq_of_perm _ _ (hf'.symm.trans (htwin.trans hf))
  have hsame := Walk.side_eq_of_vertexSet hside (hw.below_side f) (hw'.below_side f') hvertices
  refine (Walk.eq_or_joined hw.order hw'.order hsame).resolve_left fun ⟨heq, _⟩ => ?_
  -- No tetrahedron is its own neighbor, and every walk has one place.
  refine hclosed.twin_tet_ne (lt_size_of_nodes hmine) ?_
  have hlt := (List.getElem?_eq_some_iff.1 hplace').1
  exact (List.getElem?_inj hlt (latticeWalks_nodup cells)).1 (by rw [hplace, hplace', heq])

theorem pos_lattice [Orient3d]
    (hm : ofTetrahedra (latticePoints cells spacing) (latticeTets cells) = .ok m)
    (hcorner : corner.Below (cells + 1)) :
    m.pos (cornerVertex (cells + 1) corner) = cornerPosition coordinate corner := by
  refine pos_eq ?_
  have hposition := inputPosition?_lattice hside hspaced hcorner
  rwa [← vertices_of_ofTetrahedra hm] at hposition

theorem map_pos_lattice [Orient3d]
    (hm : ofTetrahedra (latticePoints cells spacing) (latticeTets cells) = .ok m) {w : Walk}
    (hw : w.Inside cells) :
    (w.nodes (cells + 1)).map m.pos = w.corners.map (cornerPosition coordinate) := by
  refine Quad.eq_of_get fun slot => ?_
  rw [Walk.nodes, Quad.get_map, Quad.get_map, Quad.get_map]
  exact pos_lattice hside hspaced hm (hw.below_corners (Quad.mem_toList.2 ⟨slot, rfl⟩))

/-- Neighbors in the mesh lie on opposite sides of the triangle between them. -/
theorem detFrom_neg_lattice [Orient3d]
    (hm : ofTetrahedra (latticePoints cells spacing) (latticeTets cells) = .ok m)
    {here : HalfFace} {mine theirs : Quad Vertex} (hmine : m.nodes[here.tet]? = some mine)
    (htheirs : m.nodes[(m.twin here).tet]? = some theirs) (hreal : mine.isGhost = false)
    (hreal' : theirs.isGhost = false) (hmesh : m.Oriented) :
    detFrom (m.pos (theirs.get (m.twin here).facet))
      ((mine.triangle here.facet).map m.pos) < 0 := by
  obtain ⟨w, w', f, f', hw, hw', hjoined, hperm, hget, hget'⟩ :=
    exists_joined hside hm hmine htheirs hreal hreal'
  have hpos : ∀ {u : Walk}, u.Inside cells → ∀ slot, m.pos ((u.nodes (cells + 1)).get slot) =
      cornerPosition coordinate (u.corners.get slot) := by
    intro u hu slot
    rw [← Quad.get_map m.pos, map_pos_lattice hside hspaced hm hu, Quad.get_map]
  have htriangle : ((w.nodes (cells + 1)).triangle f).map m.pos =
      (w.corners.triangle f).map (cornerPosition coordinate) := by
    rw [Quad.map_triangle, map_pos_lattice hside hspaced hm hw, ← Quad.map_triangle]
  have hproduct : detFrom (m.pos (mine.get here.facet)) ((mine.triangle here.facet).map m.pos) *
      detFrom (m.pos (theirs.get (m.twin here).facet)) ((mine.triangle here.facet).map m.pos) =
        -(w.volume coordinate * w'.volume coordinate) := by
    rw [← hjoined.opposite_sides coordinate hw.order hw'.order, ← htriangle, ← hpos hw, ← hpos hw',
      ← hget, ← hget']
    exact (detFrom_mul_detFrom ((Triple.turned_or_opposite hperm).imp (·.map m.pos) (·.map m.pos))
      _ _).symm
  have hmine := hmesh.negative hmine hreal
  have hbefore := det_facet (mine.map m.pos) here.facet
  rw [Quad.get_map, ← Quad.map_triangle] at hbefore
  have hvolume := hspaced.volume_mul_pos hw hw'
  refine neg_of_mul_neg_right (hproduct.trans_lt (by linarith)) ?_
  rw [hbefore]
  linarith

end

/-! ## The mesh of a lattice -/

section

variable {cells : Nat} (hcount : (cells + 1) ^ 3 < UInt32.size)

include hcount

/-- A lattice with no more corners than there are vertices is far from the largest number of
vertices: the next cube beyond 1625 is too large. -/
theorem side_le_of_count : cells + 1 ≤ 1625 := by
  by_contra hlt
  have hle : 1626 ^ 3 ≤ (cells + 1) ^ 3 := Nat.pow_le_pow_left (by omega) 3
  have hsize : UInt32.size < 1626 ^ 3 := by decide
  omega

theorem size_latticePoints_lt (spacing : Float) :
    (latticePoints cells spacing).size < Vertex.ghost.toNat := by
  have hle : (cells + 1) ^ 3 ≤ 1625 ^ 3 := Nat.pow_le_pow_left (side_le_of_count hcount) 3
  have hsize : 1625 ^ 3 < Vertex.ghost.toNat := by decide
  rw [size_latticePoints, ← pow_three']
  omega

/-- A lattice of a size that is allowed is built of its points and walks. -/
theorem lattice_eq [Orient3d] (hcells : 1 ≤ cells) (spacing : Float) : lattice cells spacing =
    (ofTetrahedra (latticePoints cells spacing) (latticeTets cells)).mapError .refused := by
  have hside := side_le_of_count hcount
  have hwide : UInt32.size < UInt64.size := by decide
  have hshort : 1625 < UInt32.size := by decide
  rw [pow_three'] at hcount
  unfold lattice
  dsimp only
  rw [if_neg (by omega), if_neg (by omega), if_neg (by omega), if_neg (by omega)]
  rfl

end

/-- A lattice of any size that is allowed is conforming, where the signs of the test are exact for
its corners. These are the vertices in order. The six walks of each cube are its tetrahedra, cube by
cube, none of them turned by more than exchanging the last two corners. Behind them stand ghosts,
two for each square on the sides, and the check of the mesh finds nothing wrong. -/
theorem lattice_conforms [Orient3d] {cells : Nat} {spacing : Float} {coordinate : Nat → Rat}
    (hcells : 1 ≤ cells) (hcount : (cells + 1) ^ 3 < UInt32.size)
    (hspaced : Spaced cells spacing coordinate)
    (hexact : Orient3d.ExactOn (latticePoints cells spacing)) :
    ∃ m, lattice cells spacing = .ok m ∧
      (m.vertices.size = (cells + 1) ^ 3 ∧
        ∀ corner : Triple Nat, corner.Below (cells + 1) →
          m.vertices[latticeIndex (cells + 1) corner]? = some (latticePoint spacing corner)) ∧
      (m.size = 6 * cells ^ 3 + 12 * cells ^ 2 ∧
        ∀ (tet : Nat) (q : Quad Vertex), m.nodes[tet]? = some q →
          (q.isGhost = true ↔ 6 * cells ^ 3 ≤ tet)) ∧
      (∀ (origin : Triple Nat) (place : Nat) (order : Triple Axis), origin.Below cells →
        axisOrders[place]? = some order →
          ∃ q, m.nodes[6 * latticeIndex cells origin + place]? = some q ∧ q.isGhost = false ∧
            (q = (walkCorners origin order).map (cornerVertex (cells + 1)) ∨
              q = ((walkCorners origin order).map (cornerVertex (cells + 1))).flip)) ∧
      m.validate = .ok () := by
  have hside : (cells + 1) * (cells + 1) * (cells + 1) ≤ UInt32.size := by
    rw [← pow_three']
    exact hcount.le
  obtain ⟨m, hm⟩ : ∃ m, ofTetrahedra (latticePoints cells spacing) (latticeTets cells) = .ok m := by
    cases h : ofTetrahedra (latticePoints cells spacing) (latticeTets cells) with
    | ok m => exact ⟨m, rfl⟩
    | error e =>
      exact absurd (manifold_lattice hside hspaced hcells)
        (fault_of_ofTetrahedra (size_latticePoints_lt hcount spacing) hexact h).not_manifold
  have hvertices := vertices_of_ofTetrahedra hm
  obtain ⟨hull, hclosed⟩ := exists_closedBy hm
  have hlength : (latticeTets cells).length = 6 * cells ^ 3 := by
    rw [latticeTets_eq, List.length_map, length_latticeWalks]
  have hghost : ∀ (tet : Nat) (q : Quad Vertex), m.nodes[tet]? = some q →
      (q.isGhost = true ↔ 6 * cells ^ 3 ≤ tet) := fun tet q hq => by
    rw [hclosed.isGhost_iff (Built.closed hm).point?_ghost hq, hlength]
  refine ⟨m, ?_, ⟨?_, fun corner hcorner => ?_⟩, ⟨?_, hghost⟩, ?_, ?_⟩
  · rw [lattice_eq hcount hcells, hm]
    rfl
  · rw [hvertices, size_latticePoints, ← pow_three']
  · rw [hvertices, ← cornerVertex_toNat hside hcorner]
    exact getElem?_latticePoints hside spacing hcorner
  · rw [size_of_ofTetrahedra hm, hlength, card_hullTriangles_lattice hcells hside]
  · intro origin place order horigin horder
    have hplace := (List.getElem?_eq_some_iff.1 horder).1
    have htets : (latticeTets cells)[6 * latticeIndex cells origin + place]? =
        some ((walkCorners origin order).map (cornerVertex (cells + 1))) := by
      rw [latticeTets_eq, List.getElem?_map, getElem?_latticeWalks horigin hplace, horder]
      rfl
    obtain ⟨q, hq, hturned, -⟩ := hclosed.real htets
    have hlt := (List.getElem?_eq_some_iff.1 htets).1
    have hreal := (hclosed.isGhost_eq_false_iff (Built.closed hm).point?_ghost hq).2 hlt
    exact ⟨q, hq, hreal, hturned⟩
  · rw [← hvertices] at hexact
    have hmesh := oriented_of_ofTetrahedra hm hexact
    refine hmesh.validate_eq_ok (closed_of_ofTetrahedra hm).toLinked hexact ?_
    intro here mine theirs hmine htheirs hreal hreal'
    exact detFrom_neg_lattice hside hspaced hm hmine htheirs hreal hreal' hmesh

theorem lattice_conforms_downwards :
    (1 ≤ 3 ∧ (3 + 1) ^ 3 < UInt32.size ∧
      Spaced 3 (-0.1) (fun i => (rational? (.ofNat i * -0.1)).getD 0) ∧
      Orient3d.ExactOn (latticePoints 3 (-0.1))) ∧
    ∃ m, lattice 3 (-0.1) = .ok m ∧ m.vertices.size = 64 ∧ m.size = 270 ∧ m.validate = .ok () := by
  have hspaced : Spaced 3 (-0.1) fun i => (rational? (.ofNat i * -0.1)).getD 0 :=
    ⟨by decide +kernel, .inr (by decide +kernel)⟩
  have hexact := (Orient3d.faithful_exact (latticePoints 3 (-0.1))).exactOn
  obtain ⟨m, hm, ⟨hvertices, -⟩, ⟨hsize, -⟩, -, hvalid⟩ :=
    lattice_conforms (by decide) (by decide) hspaced hexact
  exact ⟨⟨by decide, by decide, hspaced, hexact⟩, m, hm, hvertices, hsize, hvalid⟩

end Mesh

end CavityRepair
