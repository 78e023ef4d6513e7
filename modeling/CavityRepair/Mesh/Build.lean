import CavityRepair.Mesh.Basic
import CavityRepair.Mesh.Error
import CavityRepair.Mesh.Pairing
/-!
# Building meshes

`Mesh.ofTetrahedra` makes a closed mesh from positions and corner indices. It checks the positions,
then every tetrahedron, turns those with positive orientation around, pairs the facets by their
corners, puts a ghost before every facet that is left over, and pairs the other facets of the ghosts
by the hull edges they stand on. Each stage can refuse; the first refusal counts.
-/
namespace CavityRepair

namespace Mesh

variable [Orient3d]

/-- Refuses the first position that is not acceptable. -/
def checkPoints : (vertex : Nat) → List Point → Except MeshError Unit
  | _, [] => .ok ()
  | vertex, p :: rest =>
    match p.check with
    | .error cause => .error (.invalidPoint vertex cause)
    | .ok () => checkPoints (vertex + 1) rest

/-- The position of a corner of an input tetrahedron. -/
def cornerPoint (vertices : Array Point) (tet : Nat) (v : Vertex) : Except MeshError Point :=
  match vertices[v.toNat]? with
  | some p => .ok p
  | none => .error (.vertexOutOfRange tet v vertices.size)

/-- The corners of an input tetrahedron, turned around if their orientation is positive. -/
def orient (vertices : Array Point) (tet : Nat) (nodes : Quad Vertex) :
    Except MeshError (Quad Vertex) := do
  let a ← cornerPoint vertices tet nodes.s0
  let b ← cornerPoint vertices tet nodes.s1
  let c ← cornerPoint vertices tet nodes.s2
  let d ← cornerPoint vertices tet nodes.s3
  if ¬nodes.toList.Nodup then .error (.repeatedVertex tet nodes)
  else match orientation a b c d with
    | .negative => .ok nodes
    | .positive => .ok nodes.flip
    | .degenerate => .error (.degenerateTetrahedron tet nodes)

/-- Turns all input tetrahedra, counting from `tet`. -/
def orientAll (vertices : Array Point) : (tet : Nat) → List (Quad Vertex) →
    Except MeshError (List (Quad Vertex))
  | _, [] => .ok []
  | tet, nodes :: rest => do
    let first ← orient vertices tet nodes
    let others ← orientAll vertices (tet + 1) rest
    return first :: others

/-- The half-faces of tetrahedra, counting from `tet`, with their corners as keys. -/
def facetKeys : (tet : Nat) → List (Quad Vertex) → List (Triple Vertex × HalfFace)
  | _, [] => []
  | tet, nodes :: rest =>
    facets.map (fun f => ((nodes.triangle f).sorted, ⟨tet, f⟩)) ++ facetKeys (tet + 1) rest

/-- The corners of the ghost before a triangle of the hull. -/
def ghostNodes (t : Triple Vertex) : Quad Vertex := ⟨t.c0, t.c2, t.c1, Vertex.ghost⟩

/-- The half-faces of ghosts that join them to other ghosts, counting from `tet`. The key is the
edge of the hull that they stand on, opposite to the slot of the facet. -/
def rimKeys : (tet : Nat) → List (Quad Vertex) → List ((Vertex × Vertex) × HalfFace)
  | _, [] => []
  | tet, ghost :: rest =>
    [(Vertex.pair ghost.s1 ghost.s2, ⟨tet, 0⟩), (Vertex.pair ghost.s2 ghost.s0, ⟨tet, 1⟩),
      (Vertex.pair ghost.s0 ghost.s1, ⟨tet, 2⟩)] ++ rimKeys (tet + 1) rest

/-- Makes two half-faces twins of each other. -/
def link (twins : Array (Quad HalfFace)) (pair : HalfFace × HalfFace) : Array (Quad HalfFace) :=
  (twins.modify pair.1.tet (·.set pair.1.facet pair.2)).modify pair.2.tet
    (·.set pair.2.facet pair.1)

/-- The least of some pairs, in lexicographic order. -/
def leastPair : List (Vertex × Vertex) → Option (Vertex × Vertex)
  | [] => none
  | pair :: rest =>
    match leastPair rest with
    | none => some pair
    | some other =>
      if pair.1 < other.1 ∨ (pair.1 = other.1 ∧ pair.2 ≤ other.2) then some pair else some other

/-- The nodes behind the half-faces of the hull. -/
def ghostsOf (nodes : Array (Quad Vertex)) (hull : List HalfFace) : List (Quad Vertex) :=
  hull.filterMap fun h => nodes[h.tet]?.map fun q => ghostNodes (q.triangle h.facet)

/-- The links between the facets of the hull and the ghosts before them, counting from `tet`. -/
def hullLinks : (tet : Nat) → List HalfFace → List (HalfFace × HalfFace)
  | _, [] => []
  | tet, h :: rest => (h, ⟨tet, 3⟩) :: hullLinks (tet + 1) rest

/-- The mesh of oriented tetrahedra. -/
def close (vertices : Array Point) (real : Array (Quad Vertex)) : Except MeshError Mesh := do
  let facetPairs ← (Pairing.empty.addAll (facetKeys 0 real.toList)).mapError .nonManifoldFacet
  let hull := facetPairs.unpaired.map (·.2)
  let ghosts := ghostsOf real hull
  let rimPairs ← (Pairing.empty.addAll (rimKeys real.size ghosts)).mapError
    fun (a, b) => .nonManifoldHullEdge a b
  match leastPair (rimPairs.waiting.map (·.1)) with
  | some (a, b) => .error (.openHullEdge a b)
  | none =>
    let size := real.size + ghosts.length
    let links := facetPairs.links ++ hullLinks real.size hull ++ rimPairs.links
    return {
      vertices := vertices
      nodes := real ++ ghosts
      twins := links.foldl link (Array.replicate size (Quad.replicate ⟨0, 0⟩))
      flags := Array.replicate size TetFlags.empty
      colors := Array.replicate size 0 }

/-- The closed mesh of some tetrahedra. They keep their places; ghosts follow behind them. -/
def ofTetrahedra (vertices : Array Point) (tets : List (Quad Vertex)) : Except MeshError Mesh := do
  if Vertex.ghost.toNat ≤ vertices.size then .error (.tooManyVertices vertices.size)
  checkPoints 0 vertices.toList
  let real ← orientAll vertices 0 tets
  close vertices real.toArray

end Mesh

end CavityRepair
