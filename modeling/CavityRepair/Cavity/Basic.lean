import CavityRepair.Cavity.Error
/-!
# Cavities

A cavity is a set of tetrahedra marked deleted in a mesh. Its boundary, the ball, has a face for
each facet of a deleted tetrahedron behind which a tetrahedron survives, and also one for each
constrained facet of a deleted tetrahedron, since a constrained facet bounds the cavity even between
two deleted tetrahedra. A face is kept from outside: by the half-face of the tetrahedron that is not
the deleted one, with its corners and constraints seen from there.

`Mesh.boundary` lists the half-faces that the mesh itself gives for some tetrahedra; the ball of a
cavity is a list that ought to agree with it.
-/
namespace CavityRepair

/-- A face of the boundary of a cavity. -/
structure BallFace where
  corners : Triple Vertex
  outer : HalfFace
  constraints : FaceFlags
  deriving DecidableEq, Repr

/-- Whether a face reaches the vertex at infinity. -/
def BallFace.isGhost (face : BallFace) : Bool := face.corners.c2 = Vertex.ghost

/-- The tetrahedra of a cavity and its boundary, both in no particular order. -/
structure Cavity where
  deleted : List Nat
  ball : List BallFace
  deriving DecidableEq, Repr

/-- The cavity without tetrahedra. -/
def Cavity.empty : Cavity := ⟨[], []⟩

/-- A mesh and the cavity in it. -/
structure Site where
  mesh : Mesh
  cavity : Cavity
  deriving DecidableEq, Repr

namespace Mesh

/-- The boundary face of a half-face, as the mesh has it. -/
def ballFace? (m : Mesh) (outer : HalfFace) : Option BallFace := do
  let corners ← m.triangle? outer
  let flags ← m.flags[outer.tet]?
  return ⟨corners, outer, .ofTet flags outer.facet⟩

/-- The twin of a deleted tetrahedron's half-face if the facet bounds the cavity: the tetrahedron
behind it survives or the facet is constrained. -/
def outerSide {ε : Type} (m : Mesh) (inner : HalfFace) : Attempt ε (Option HalfFace) := do
  let outer ← found (m.twin? inner)
  if ← found (m.deleted? outer.tet) then
    let constrained ← found (m.facetConstrained? inner)
    return if constrained then some outer else none
  else return some outer

/-- The twins of those half-faces that bound the cavity. -/
def outerSides {ε : Type} (m : Mesh) : List HalfFace → Attempt ε (List HalfFace)
  | [] => .ok []
  | inner :: rest => do
    let first ← m.outerSide inner
    let others ← m.outerSides rest
    return first.toList ++ others

/-- The half-faces outside that bound some deleted tetrahedra. -/
def boundary {ε : Type} (m : Mesh) (tets : List Nat) : Attempt ε (List HalfFace) :=
  m.outerSides (tets.flatMap HalfFace.ofTet)

/-- The boundary faces of some half-faces. -/
def ballFaces {ε : Type} (m : Mesh) : List HalfFace → Attempt ε (List BallFace)
  | [] => .ok []
  | outer :: rest => do
    let first ← found (m.ballFace? outer)
    let others ← m.ballFaces rest
    return first :: others

/-- Refuses a tetrahedron that does not exist. -/
def checkTet (m : Mesh) (tet : Nat) : Attempt CavityError Unit :=
  require (tet < m.size) (.unknownTetrahedron tet m.size)

end Mesh

/-- The position of a vertex that a cavity is repaired for. -/
def Site.position (s : Site) (vertex : Vertex) : Attempt CavityError Point :=
  match s.mesh.point? vertex with
  | some p => .ok p
  | none => refuse (.unknownVertex vertex)

/-- Refuses a checkpoint beyond the end of the deleted list. -/
def Cavity.checkCheckpoint (c : Cavity) (checkpoint : Nat) : Attempt CavityError Unit :=
  require (checkpoint ≤ c.deleted.length) (.invalidCheckpoint checkpoint c.deleted.length)

end CavityRepair
