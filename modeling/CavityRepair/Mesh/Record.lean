import CavityRepair.Document.Reader
import CavityRepair.Document.Writer
import CavityRepair.Mesh.Basic
import CavityRepair.Text.FlagNames
/-!
# Meshes as documents

A mesh is written as an object with the fields `vertices`, `nodes`, `neighbors`, `flags` and
`colors`. Half-faces are written as their numbers and flag words as texts. Reading checks the form
only, not whether the mesh is a proper one. It also accepts an array of the five values in that
order, and it skips fields it does not know.
-/
namespace CavityRepair

/-- The document of a point, given how coordinates are written. -/
def Point.record (number : Float → Document) (p : Point) : Document :=
  .array [number p.x, number p.y, number p.z]

/-- A point read from a document. -/
def Point.ofDocument? (d : Document) : Option Point := do
  match ← d.list? Document.float? with
  | [x, y, z] => some ⟨x, y, z⟩
  | _ => none

/-- A half-face read from its number. -/
def HalfFace.ofDocument? (d : Document) : Option HalfFace := (d.nat? 64).map .ofRaw

/-- A vertex read from its index. -/
def Vertex.ofDocument? (d : Document) : Option Vertex := (d.nat? 32).map .ofNat

/-- Four values read in the same way. -/
def Quad.ofDocument? {α : Type} (read : Document → Option α) (d : Document) : Option (Quad α) := do
  Quad.ofList? (← d.list? read)

/-- The flags of a tetrahedron read from their text. -/
def TetFlags.ofDocument? (d : Document) : Option TetFlags := do TetFlags.read? (← d.string?)

/-- The flags of a boundary face read from their text. -/
def FaceFlags.ofDocument? (d : Document) : Option FaceFlags := do FaceFlags.read? (← d.string?)

namespace Mesh

/-- The document of a mesh, given how coordinates are written. -/
def record (number : Float → Document) (m : Mesh) : Document :=
  let natural (n : Nat) : Document := .ofNat n
  .object [
    ("vertices", .array (m.vertices.toList.map (Point.record number))),
    ("nodes", .array (m.nodes.toList.map fun q => .array (q.toList.map (natural ·.toNat)))),
    ("neighbors", .array (m.twins.toList.map fun q => .array (q.toList.map (natural ·.raw)))),
    ("flags", .array (m.flags.toList.map fun flags => .string flags.text)),
    ("colors", .array (m.colors.toList.map (natural ·.toNat)))]

/-- The document of a mesh. -/
def toDocument (m : Mesh) : Document := m.record .ofFloat

/-- The mesh with the given arrays, each read from a document. -/
def ofFields? (vertices nodes neighbors flags colors : Document) : Option Mesh := do
  let vertices ← vertices.list? Point.ofDocument?
  let nodes ← nodes.list? (Quad.ofDocument? Vertex.ofDocument?)
  let twins ← neighbors.list? (Quad.ofDocument? HalfFace.ofDocument?)
  let flags ← flags.list? TetFlags.ofDocument?
  let colors ← colors.list? fun d => (d.nat? 16).map UInt16.ofNat
  return ⟨vertices.toArray, nodes.toArray, twins.toArray, flags.toArray, colors.toArray⟩

/-- A mesh read from a document. -/
def ofDocument? (d : Document) : Option Mesh :=
  match d with
  | .array [vertices, nodes, neighbors, flags, colors] =>
    ofFields? vertices nodes neighbors flags colors
  | .object _ => do
    ofFields? (← d.field? "vertices") (← d.field? "nodes") (← d.field? "neighbors")
      (← d.field? "flags") (← d.field? "colors")
  | _ => none

/-- The text that a mesh is saved as. -/
def save (m : Mesh) : String := m.toDocument.write

/-- The mesh saved as a text. -/
def load? (text : String) : Option Mesh := do ofDocument? (← Document.read? text)

end Mesh

end CavityRepair
