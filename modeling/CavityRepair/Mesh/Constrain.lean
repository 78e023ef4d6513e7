import CavityRepair.Mesh.Basic
import CavityRepair.Mesh.Error
/-!
# Adding vertices and constraints

Constraints are kept on every tetrahedron that they concern: an edge is marked in all tetrahedra
that have it, a facet on its two sides.
-/
namespace CavityRepair

namespace Mesh

/-- Adds a vertex that no tetrahedron has yet. The answer has its index. -/
def addVertex (m : Mesh) (p : Point) : Except MeshError (Mesh × Vertex) :=
  match p.check with
  | .error cause => .error (.invalidPoint m.vertices.size cause)
  | .ok () =>
    if Vertex.ghost.toNat ≤ m.vertices.size then .error (.tooManyVertices (m.vertices.size + 1))
    else .ok ({ m with vertices := m.vertices.push p }, .ofNat m.vertices.size)

/-- The tetrahedra among some that have an edge, and the edge in each of them. -/
def edgeHolders (m : Mesh) (a b : Vertex) (tets : List Nat) : List (Nat × Edge) :=
  tets.filterMap fun tet => do
    let edge ← (← m.nodes[tet]?).edgeBetween? a b
    return (tet, edge)

/-- Sets marks on tetrahedra in order. -/
def markAll {ε : Type} (m : Mesh) : List (Nat × TetMark) → Attempt ε Mesh
  | [] => .ok m
  | (tet, mark) :: rest => do
    let _ ← found m.flags[tet]?
    (m.mark tet mark).markAll rest

/-- Constrains an edge. The answer has the number of tetrahedra that have it. -/
def constrainEdge (m : Mesh) (a b : Vertex) : Attempt MeshError (Mesh × Nat) := do
  let holders := m.edgeHolders a b m.tets
  let marked ← m.markAll (holders.map fun (tet, edge) => (tet, .edge edge))
  require (holders ≠ []) (.edgeNotFound a b)
  return (marked, holders.length)

/-- The first half-face with the given corners. -/
def facetHolder? (m : Mesh) (triangle : Triple Vertex) : Option HalfFace :=
  m.halfFaces.find? fun h => (m.triangle? h).map Triple.sorted = some triangle.sorted

/-- Constrains a facet on both sides. -/
def constrainFacet (m : Mesh) (a b c : Vertex) : Attempt MeshError Mesh := do
  match m.facetHolder? ⟨a, b, c⟩ with
  | none => refuse (.facetNotFound a b c)
  | some here =>
    let there ← found (m.twin? here)
    m.markAll [(here.tet, .facet here.facet), (there.tet, .facet there.facet)]

end Mesh

end CavityRepair
