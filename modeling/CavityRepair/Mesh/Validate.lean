import CavityRepair.Mesh.Basic
import CavityRepair.Mesh.Error
/-!
# Checking meshes

`Mesh.validate` tells whether the links of a mesh are those of a proper mesh: every twin exists,
points back and has the same corners, and real neighbors lie on opposite sides of the triangle they
share. The half-faces are looked at in ascending order, and for each the conditions are taken in
that order.
-/
namespace CavityRepair

namespace Mesh

variable [Orient3d]

/-- Refuses a mesh whose arrays differ in size. -/
def checkSizes (m : Mesh) : Attempt MeshError Unit :=
  require (m.twins.size = m.size ∧ m.flags.size = m.size ∧ m.colors.size = m.size)
    (.brokenAdjacency ⟨0, 0⟩
      (.sizesDiffer m.nodes.size m.twins.size m.flags.size m.colors.size))

/-- Refuses real neighbors that lie on the same side of their shared triangle. Where a position is
missing nothing can be said. -/
def checkSides (m : Mesh) (here there : HalfFace) : Attempt MeshError Unit := do
  let mine ← found m.nodes[here.tet]?
  let theirs ← found m.nodes[there.tet]?
  if mine.isGhost || theirs.isGhost then .ok ()
  else match m.trianglePoints? (mine.triangle here.facet), m.point? (theirs.get there.facet) with
    | some t, some apex =>
      require (orientation apex t.c0 t.c1 t.c2 = .negative) (.foldedFacet here.tet there.tet)
    | _, _ => .ok ()

/-- Refuses a half-face whose link is not that of a shared triangle. -/
def checkLink (m : Mesh) (here : HalfFace) : Attempt MeshError Unit := do
  let there ← found (m.twin? here)
  require (there.tet < m.size) (.brokenAdjacency here (.outOfRange there))
  let back ← found (m.twin? there)
  require (back = here) (.brokenAdjacency here (.noReturn there))
  let mine ← found (m.triangle? here)
  let theirs ← found (m.triangle? there)
  require (mine.sorted = theirs.sorted)
    (.brokenAdjacency here (.triangleDiffers mine.sorted theirs.sorted))
  m.checkSides here there

/-- Refuses the first half-face at which something is wrong. -/
def checkLinks (m : Mesh) : List HalfFace → Attempt MeshError Unit
  | [] => .ok ()
  | here :: rest => do
    m.checkLink here
    m.checkLinks rest

/-- Whether the links of a mesh are those of a proper mesh. -/
def validate (m : Mesh) : Attempt MeshError Unit := do
  m.checkSizes
  m.checkLinks m.halfFaces

end Mesh

end CavityRepair
