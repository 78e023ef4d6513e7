import CavityRepair.Cavity.Basic
import CavityRepair.Cavity.Policy
/-!
# Blind faces

A face is blind for a point that does not lie on its inner side, so that a tetrahedron put between
the two would be turned inside out. The cavity is star-shaped for a point without blind faces.
-/
namespace CavityRepair

variable [Orient3d]

/-- Whether a face is blind for a point. Faces that reach the vertex at infinity and faces with a
corner of unknown position are not. -/
def BallFace.isBlind (face : BallFace) (m : Mesh) (p : Point) (policy : Policy) : Bool :=
  !face.isGhost && match m.trianglePoints? face.corners with
    | none => false
    | some t =>
      match orientation p t.c0 t.c1 t.c2 with
      | .positive => true
      | .degenerate => policy.flatIsBlind
      | .negative => false

/-- The place of the first blind face of the ball. -/
def Site.blindFace? (s : Site) (p : Point) (policy : Policy) : Option Nat :=
  s.cavity.ball.findIdx? fun face => face.isBlind s.mesh p policy

end CavityRepair
