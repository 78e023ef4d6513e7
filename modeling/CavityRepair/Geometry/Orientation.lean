import CavityRepair.Geometry.Point
/-!
# On which side of a plane

The determinant `det a b c d` is negative when `d` lies above the plane through `a`, `b` and `c`,
where the triangle is seen to turn counter-clockwise from above; it is six times the signed volume
of the tetrahedron.

The orientation of four points is the sign of a double that a test computes from them (`Orient3d`).
How it does so is left open: everything that looks at sides takes the test as a parameter. One test
is given, `Orient3d.exact`, which has the sign of the determinant of the exact positions, so that it
is never lost to rounding.
-/
namespace CavityRepair

/-- An exact position in space. -/
structure Position where
  x : Rat
  y : Rat
  z : Rat
  deriving DecidableEq, Repr

/-- The exact position of a point with finite coordinates. -/
def Point.position? (p : Point) : Option Position := do
  let x ← rational? p.x
  let y ← rational? p.y
  let z ← rational? p.z
  return ⟨x, y, z⟩

/-- The determinant with the rows `a - d`, `b - d` and `c - d`. -/
def det (a b c d : Position) : Rat :=
  (a.x - d.x) * ((b.y - d.y) * (c.z - d.z) - (b.z - d.z) * (c.y - d.y))
    - (a.y - d.y) * ((b.x - d.x) * (c.z - d.z) - (b.z - d.z) * (c.x - d.x))
    + (a.z - d.z) * ((b.x - d.x) * (c.y - d.y) - (b.y - d.y) * (c.x - d.x))

/-- The side of a plane on which a point lies. -/
inductive Orientation where
  | negative
  | degenerate
  | positive
  deriving DecidableEq, Repr

/-- The side that a determinant stands for. -/
def Orientation.ofSign (r : Rat) : Orientation :=
  if 0 < r then .positive else if r < 0 then .negative else .degenerate

/-- The determinant of four points, if they all have positions. -/
def det? (a b c d : Point) : Option Rat := do
  let a ← a.position?
  let b ← b.position?
  let c ← c.position?
  let d ← d.position?
  return det a b c d

/-- The side that a double stands for. NaN stands for none. -/
def Orientation.ofFloat (x : Float) : Orientation :=
  if 0 < x then .positive else if x < 0 then .negative else .degenerate

/-- A double that stands for a side. -/
def Orientation.toFloat : Orientation → Float
  | .negative => -1
  | .degenerate => 0
  | .positive => 1

/-- A test for the side of a plane. -/
class Orient3d where
  /-- A double for four points, of which only the sign is looked at. -/
  value : Point → Point → Point → Point → Float

/-- The orientation of four points, as the test sees it. -/
def orientation [Orient3d] (a b c d : Point) : Orientation := .ofFloat (Orient3d.value a b c d)

/-- The determinant of four points as a double, NaN if one of them has no position. -/
def detFloat (a b c d : Point) : Float :=
  match det? a b c d with
  | some r => ofDyadic r
  | none => 0.0 / 0.0

/-- The test that looks at the exact positions. Points without one, because a coordinate is not
finite, have no side. -/
instance Orient3d.exact : Orient3d where
  value a b c d :=
    match det? a b c d with
    | some r => (Orientation.ofSign r).toFloat
    | none => 0.0 / 0.0

end CavityRepair
