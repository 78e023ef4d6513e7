import CavityRepair.Geometry.Point
import CavityRepair.Tetrahedron.HalfFace
/-!
# Refusals of mesh operations

`MeshError` names what is wrong with a mesh or with a request to it. The wording is in `message`.
-/
namespace CavityRepair

/-- What is wrong with the links of a mesh. -/
inductive LinkFault where
  /-- The arrays of a mesh do not all have one entry for each tetrahedron. -/
  | sizesDiffer (nodes twins flags colors : Nat)
  /-- The twin lies outside the mesh. -/
  | outOfRange (twin : HalfFace)
  /-- The twin is linked to another half-face. -/
  | noReturn (twin : HalfFace)
  /-- The two sides have different vertices. -/
  | triangleDiffers (mine theirs : Triple Vertex)
  deriving DecidableEq, Repr

/-- Why a mesh operation refused. -/
inductive MeshError where
  /-- A vertex position is not acceptable. -/
  | invalidPoint (vertex : Nat) (cause : PointError)
  /-- There are more vertices than indices. -/
  | tooManyVertices (count : Nat)
  /-- A tetrahedron names a vertex that does not exist. -/
  | vertexOutOfRange (tet : Nat) (vertex : Vertex) (vertices : Nat)
  /-- A tetrahedron names a vertex twice. -/
  | repeatedVertex (tet : Nat) (nodes : Quad Vertex)
  /-- The corners of a tetrahedron are coplanar. -/
  | degenerateTetrahedron (tet : Nat) (nodes : Quad Vertex)
  /-- More than two tetrahedra share a triangle. -/
  | nonManifoldFacet (triangle : Triple Vertex)
  /-- More than two triangles of the hull share an edge. -/
  | nonManifoldHullEdge (a b : Vertex)
  /-- Only one triangle of the hull has an edge. -/
  | openHullEdge (a b : Vertex)
  /-- The links at a half-face are not those of a shared triangle. -/
  | brokenAdjacency (here : HalfFace) (fault : LinkFault)
  /-- Two neighbors lie on the same side of their shared triangle. -/
  | foldedFacet (tet neighbor : Nat)
  /-- No tetrahedron has the edge. -/
  | edgeNotFound (a b : Vertex)
  /-- No tetrahedron has the triangle. -/
  | facetNotFound (a b c : Vertex)
  deriving DecidableEq, Repr

/-- Vertices in square brackets. -/
def bracketed (vertices : List Vertex) : String :=
  let inner := ", ".intercalate (vertices.map fun v => toString v.toNat)
  s!"[{inner}]"

/-- The text of a fault. -/
def LinkFault.message : LinkFault → String
  | .sizesDiffer nodes twins flags colors =>
    s!"array lengths differ: nodes {nodes}, neighbors {twins}, flags {flags}, colors {colors}"
  | .outOfRange twin => s!"neighbor {twin.text} is out of range"
  | .noReturn twin => s!"neighbor {twin.text} does not point back"
  | .triangleDiffers mine theirs =>
    let mine := bracketed mine.toList
    let theirs := bracketed theirs.toList
    s!"triangle {mine} differs from twin {theirs}"

/-- The text of a refusal. -/
def MeshError.message : MeshError → String
  | .invalidPoint vertex cause => s!"Vertex {vertex} is invalid: {cause.message}"
  | .tooManyVertices count => s!"Too many vertices: {count} exceeds the addressable range"
  | .vertexOutOfRange tet vertex vertices =>
    s!"Tetrahedron {tet} references vertex {vertex}, but only {vertices} exist"
  | .repeatedVertex tet nodes =>
    let nodes := bracketed nodes.toList
    s!"Tetrahedron {tet} repeats a vertex: {nodes}"
  | .degenerateTetrahedron tet nodes =>
    let nodes := bracketed nodes.toList
    s!"Tetrahedron {tet} is flat: {nodes}"
  | .nonManifoldFacet triangle =>
    let nodes := bracketed triangle.toList
    s!"Triangle {nodes} is shared by more than two tetrahedra"
  | .nonManifoldHullEdge a b =>
    let nodes := bracketed [a, b]
    s!"Hull edge {nodes} is shared by more than two hull triangles"
  | .openHullEdge a b =>
    let nodes := bracketed [a, b]
    s!"Hull edge {nodes} is not closed"
  | .brokenAdjacency here fault =>
    s!"Broken adjacency at half-face {here.text}: {fault.message}"
  | .foldedFacet tet neighbor =>
    s!"Tetrahedra {tet} and {neighbor} overlap across their shared triangle"
  | .edgeNotFound a b => s!"No tetrahedron contains edge ({a}, {b})"
  | .facetNotFound a b c => s!"No tetrahedron contains triangle ({a}, {b}, {c})"

end CavityRepair
