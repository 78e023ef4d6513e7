import CavityRepair.Cavity.Basic
/-!
# Carving

Carving deletes tetrahedra and moves the boundary outward. Faces whose outer tetrahedron is deleted
now are dropped unless their facet is constrained, and the new boundary facets are added behind.
-/
namespace CavityRepair

/-- Refuses tetrahedra that cannot be carved: the first that does not exist, is deleted or was named
before. -/
def Mesh.checkCarve (m : Mesh) (before : List Nat) : List Nat → Attempt CavityError Unit
  | [] => .ok ()
  | tet :: rest => do
    m.checkTet tet
    let gone ← found (m.deleted? tet)
    require (gone = false ∧ tet ∉ before) (.alreadyDeleted tet)
    m.checkCarve (tet :: before) rest

/-- Whether a face still bounds the cavity after some tetrahedra were deleted. -/
def BallFace.staysAfter (face : BallFace) (m : Mesh) (carved : List Nat) : Bool :=
  face.outer.tet ∉ carved || m.facetConstrained? face.outer == some true

/-- Deletes tetrahedra. The answer has the length of the deleted list before, the checkpoint of this
carving. -/
def Site.carve (s : Site) (tets : List Nat) : Attempt CavityError (Site × Nat) := do
  s.mesh.checkCarve [] tets
  let mesh := tets.foldl (fun m tet => m.mark tet .deleted) s.mesh
  let kept := s.cavity.ball.filter (·.staysAfter mesh tets)
  let added ← mesh.ballFaces (← mesh.boundary tets)
  return (⟨mesh, ⟨s.cavity.deleted ++ tets, kept ++ added⟩⟩, s.cavity.deleted.length)

end CavityRepair
