import CavityRepair.Number.Shortest
import CavityRepair.Tetrahedron.Slots
/-!
# Points

A `Point` is three doubles. Meshes hold finite points only; `Point.check` is the test, and it names
the first coordinate that fails. Arithmetic on coordinates rounds as doubles do, operation by
operation in the order written here.
-/
namespace CavityRepair

/-- The three coordinate axes. -/
abbrev Axis := Fin 3

/-- A position in space, given by doubles. -/
structure Point where
  x : Float
  y : Float
  z : Float
  deriving DecidableEq, Repr

/-- Why a point is not acceptable as a position. -/
inductive PointError where
  /-- The coordinate on `axis` is infinite or NaN. -/
  | notFinite (axis : Axis) (value : Float)
  deriving DecidableEq, Repr

/-- The text of a refusal. -/
def PointError.message : PointError → String
  | .notFinite axis value =>
    let shown := floatText value
    s!"Invalid coordinate at index {axis}: {shown} is not finite"

namespace Point

/-- The coordinate on an axis. -/
def coord (p : Point) : Axis → Float
  | 0 => p.x
  | 1 => p.y
  | 2 => p.z

/-- Refuses a point for its first coordinate that is not finite. -/
def check (p : Point) : Except PointError Unit :=
  match ([0, 1, 2] : List Axis).find? fun axis => !finite (p.coord axis) with
  | some axis => .error (.notFinite axis (p.coord axis))
  | none => .ok ()

/-- Equality of the coordinates as numbers: the two zeros agree and NaN agrees with nothing. -/
def agrees (p q : Point) : Bool := p.x == q.x && p.y == q.y && p.z == q.z

/-- Midpoint of a segment, each coordinate rounded. -/
def midpoint (p q : Point) : Point :=
  ⟨(p.x + q.x) * 0.5, (p.y + q.y) * 0.5, (p.z + q.z) * 0.5⟩

/-- Square of the distance between two points, rounded at each operation. -/
def squaredDistance (p q : Point) : Float :=
  (p.x - q.x) * (p.x - q.x) + (p.y - q.y) * (p.y - q.y) + (p.z - q.z) * (p.z - q.z)

/-- The coordinates in parentheses. -/
def text (p : Point) : String :=
  let x := floatText p.x
  let y := floatText p.y
  let z := floatText p.z
  s!"({x}, {y}, {z})"

end Point

end CavityRepair
