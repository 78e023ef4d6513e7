import CavityRepair.Mesh.Build
/-!
# Cube lattices

A block of cubes in which every cube is split into six tetrahedra around its main diagonal. The
tetrahedra of a cube are the six ways to walk along the axes from its lowest corner to the highest.
Neighboring cubes split their common square in the same way.
-/
namespace CavityRepair

/-- The six orders in which the axes can be walked along. -/
def axisOrders : List (Triple Axis) :=
  [⟨0, 1, 2⟩, ⟨0, 2, 1⟩, ⟨1, 0, 2⟩, ⟨1, 2, 0⟩, ⟨2, 0, 1⟩, ⟨2, 1, 0⟩]

/-- The index of a corner in a lattice with `side` corners along each axis. -/
def latticeIndex (side : Nat) (corner : Triple Nat) : Nat :=
  corner.c0 + side * (corner.c1 + side * corner.c2)

/-- The index of a corner as a number of 64 bits. -/
def latticeVertex {ε : Type} (side : Nat) (corner : Triple Nat) : Attempt ε Nat :=
  let index := latticeIndex side corner
  if index < UInt64.size then .ok index else .error .outOfRange

/-- The next corner along an axis. -/
def stepAlong (corner : Triple Nat) : Axis → Triple Nat
  | 0 => { corner with c0 := corner.c0 + 1 }
  | 1 => { corner with c1 := corner.c1 + 1 }
  | 2 => { corner with c2 := corner.c2 + 1 }

/-- The corners that a walk along the axes meets. -/
def walkCorners (origin : Triple Nat) (order : Triple Axis) : Quad (Triple Nat) :=
  let first := stepAlong origin order.c0
  let second := stepAlong first order.c1
  ⟨origin, first, second, stepAlong second order.c2⟩

/-- All triples of numbers below a bound, the first one fastest. -/
def gridPoints (bound : Nat) : List (Triple Nat) :=
  (List.range bound).flatMap fun z => (List.range bound).flatMap fun y =>
    (List.range bound).map fun x => ⟨x, y, z⟩

/-- The position of a corner. -/
def latticePoint (spacing : Float) (corner : Triple Nat) : Point :=
  ⟨.ofNat corner.c0 * spacing, .ofNat corner.c1 * spacing, .ofNat corner.c2 * spacing⟩

/-- The tetrahedra of a lattice with `cells` cubes along each axis. -/
def latticeTets (cells : Nat) : List (Quad Vertex) :=
  (gridPoints cells).flatMap fun origin => axisOrders.map fun order =>
    (walkCorners origin order).map fun corner => .ofNat (latticeIndex (cells + 1) corner)

/-- The mesh of a block of cubes with `cells` of them along each axis. -/
def Mesh.lattice [Orient3d] (cells : Nat) (spacing : Float) : Attempt MeshError Mesh :=
  let side := cells + 1
  let corners := side * side * side
  if cells = 0 then (Mesh.ofTetrahedra #[] []).mapError .refused
  else if UInt64.size ≤ side then .error .outOfRange
  else if UInt64.size ≤ corners then refuse (.tooManyVertices (UInt64.size - 1))
  else if UInt32.size ≤ corners then refuse (.tooManyVertices corners)
  else
    let points := ((gridPoints side).map (latticePoint spacing)).toArray
    (Mesh.ofTetrahedra points (latticeTets cells)).mapError .refused

end CavityRepair
