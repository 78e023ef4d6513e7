import CavityRepair.Mesh.Ring
/-!
# Refusals of cavity operations

`CavityError` names why a cavity cannot be carved, repaired or accepted. The wording is in
`message`.
-/
namespace CavityRepair

/-- What is wrong with the boundary kept for a cavity. -/
inductive BoundaryFault where
  /-- A tetrahedron is listed twice. -/
  | listedTwice (tet : Nat)
  /-- A face belongs to no boundary facet, or to one that another face has. -/
  | stray (place : Nat) (outer : HalfFace)
  /-- A face differs from what the mesh says. -/
  | stale (place : Nat) (outer : HalfFace)
  /-- Some boundary facets have no face. -/
  | missing (count : Nat) (first : HalfFace)
  deriving DecidableEq, Repr

/-- Why a cavity operation refused. -/
inductive CavityError where
  /-- The tetrahedron does not exist. -/
  | unknownTetrahedron (tet count : Nat)
  /-- The vertex has no position. -/
  | unknownVertex (vertex : Vertex)
  /-- The tetrahedron to carve is deleted or named twice. -/
  | alreadyDeleted (tet : Nat)
  /-- The tetrahedron to restore is not deleted. -/
  | notDeleted (tet : Nat)
  /-- The tetrahedron is marked deleted but not listed. -/
  | missingFromDeletedSet (tet : Nat)
  /-- A tetrahedron to restore has a different number of faces than its marks say. -/
  | boundaryMismatch (tet removed expected : Nat)
  /-- The faces kept are not the boundary of the deleted tetrahedra. -/
  | inconsistentBoundary (fault : BoundaryFault)
  /-- The checkpoint lies beyond the end of the deleted list. -/
  | invalidCheckpoint (checkpoint deleted : Nat)
  /-- The walk around an edge failed. -/
  | ring (cause : RingError)
  /-- Two rings share an edge of a tetrahedron. -/
  | ringRevisited (tet : Nat) (edge : Edge)
  /-- All tetrahedra around a constrained edge are deleted and none can be restored. -/
  | noRescueCandidate (tet : Nat) (edge : Edge)
  /-- The first tetrahedron deleted for a vertex does not contain it. -/
  | pointOutsideStart (tet : Nat) (vertex : Vertex)
  deriving DecidableEq, Repr

/-- The text of a fault. -/
def BoundaryFault.message : BoundaryFault → String
  | .listedTwice tet => s!"tetrahedron {tet} is listed twice"
  | .stray place outer =>
    s!"ball face {place} ({outer.text}) does not bound the deleted set or is duplicated"
  | .stale place outer => s!"ball face {place} ({outer.text}) is stale"
  | .missing count first => s!"{count} boundary facets have no ball face, first {first.text}"

/-- The text of a refusal. -/
def CavityError.message : CavityError → String
  | .unknownTetrahedron tet count => s!"Tetrahedron {tet} does not exist (mesh has {count})"
  | .unknownVertex vertex => s!"Vertex {vertex} does not exist"
  | .alreadyDeleted tet => s!"Tetrahedron {tet} is already deleted"
  | .notDeleted tet => s!"Tetrahedron {tet} is not deleted and cannot be restored"
  | .missingFromDeletedSet tet =>
    s!"Tetrahedron {tet} is flagged deleted but missing from the deleted set"
  | .boundaryMismatch tet removed expected =>
    s!"Restoring tetrahedron {tet} removed {removed} ball faces, expected {expected}"
  | .inconsistentBoundary fault => s!"Inconsistent cavity boundary: {fault.message}"
  | .invalidCheckpoint checkpoint deleted =>
    s!"Checkpoint {checkpoint} exceeds the {deleted} deleted tetrahedra"
  | .ring cause => cause.message
  | .ringRevisited tet edge => s!"Edge {edge} of tetrahedron {tet} was visited twice"
  | .noRescueCandidate tet edge =>
    s!"No tetrahedron around constrained edge {edge} of tetrahedron {tet} can be restored"
  | .pointOutsideStart tet vertex =>
    s!"Vertex {vertex} is not inside tetrahedron {tet}, the first one deleted for it"

end CavityRepair
