import CavityRepair.Cavity.Basic
/-!
# Checking cavities

`Site.checkBoundary` tells whether the cavity is what the mesh says: every listed tetrahedron is
marked deleted and listed once, and the ball has one up-to-date face for every boundary facet.
-/
namespace CavityRepair

/-- The half-faces that the boundary of the listed tetrahedra ought to have, on top of those
collected before; none is there twice. -/
def Mesh.expectedBoundary (m : Mesh) (before : List Nat) (expected : List HalfFace) :
    List Nat → Attempt CavityError (List HalfFace)
  | [] => .ok expected
  | tet :: rest => do
    m.checkTet tet
    let gone ← found (m.deleted? tet)
    require (gone = true) (.notDeleted tet)
    require (tet ∉ before) (.inconsistentBoundary (.listedTwice tet))
    let outers ← m.boundary [tet]
    m.expectedBoundary (tet :: before) (outers.foldl (fun all h => all.insert h) expected) rest

/-- The half-faces left over when each face, counting from `place`, has taken its own. -/
def Mesh.matchFaces (m : Mesh) (expected : List HalfFace) (place : Nat) :
    List BallFace → Attempt CavityError (List HalfFace)
  | [] => .ok expected
  | face :: rest => do
    require (face.outer ∈ expected) (.inconsistentBoundary (.stray place face.outer))
    let fresh ← found (m.ballFace? face.outer)
    require (face = fresh) (.inconsistentBoundary (.stale place face.outer))
    m.matchFaces (expected.erase face.outer) (place + 1) rest

/-- Whether the cavity is what the mesh says, and the checkpoint lies within the deleted list. -/
def Site.checkBoundary (s : Site) (checkpoint : Nat) : Attempt CavityError Unit := do
  s.cavity.checkCheckpoint checkpoint
  let expected ← s.mesh.expectedBoundary [] [] s.cavity.deleted
  let left ← s.mesh.matchFaces expected 0 s.cavity.ball
  match HalfFace.sort left with
  | [] => .ok ()
  | first :: _ => refuse (.inconsistentBoundary (.missing left.length first))

end CavityRepair
