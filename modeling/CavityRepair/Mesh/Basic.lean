import CavityRepair.Attempt
import CavityRepair.Geometry.Orientation
import CavityRepair.Tetrahedron.Flags
/-!
# Tetrahedral meshes

A mesh has an array of vertex positions and four arrays with one entry for each tetrahedron: its
corners, the twins of its four half-faces, its flags and its color. The twin of a half-face is the
same triangle seen from the other side.

The hull is closed by ghost tetrahedra, which have the vertex at infinity in slot 3: facet 3 of a
ghost is a triangle of the hull seen from outside, and its other facets join it to the ghosts
around. So every half-face has a twin.

A mesh may come from a document that nothing has checked, so every look-up is an option, and the
arrays need not have the same size.
-/
namespace CavityRepair

/-- A tetrahedral mesh. -/
structure Mesh where
  vertices : Array Point
  nodes : Array (Quad Vertex)
  twins : Array (Quad HalfFace)
  flags : Array TetFlags
  colors : Array UInt16
  deriving DecidableEq, Repr

namespace Mesh

/-- The mesh without vertices and tetrahedra. -/
def empty : Mesh := ⟨#[], #[], #[], #[], #[]⟩

/-- The number of tetrahedra, ghosts included. -/
def size (m : Mesh) : Nat := m.nodes.size

/-- The indices of the tetrahedra. -/
def tets (m : Mesh) : List Nat := List.range m.size

/-- All half-faces in ascending order. -/
def halfFaces (m : Mesh) : List HalfFace := m.tets.flatMap HalfFace.ofTet

/-- The position of a vertex, none for the vertex at infinity. -/
def point? (m : Mesh) (v : Vertex) : Option Point := m.vertices[v.toNat]?

/-- The twin of a half-face. -/
def twin? (m : Mesh) (h : HalfFace) : Option HalfFace := m.twins[h.tet]?.map (·.get h.facet)

/-- The corners of a half-face, in the order seen from its tetrahedron. -/
def triangle? (m : Mesh) (h : HalfFace) : Option (Triple Vertex) :=
  m.nodes[h.tet]?.map (·.triangle h.facet)

/-- Whether a mark is set on a tetrahedron. -/
def marked? (m : Mesh) (tet : Nat) (mark : TetMark) : Option Bool := m.flags[tet]?.map (·.has mark)

/-- Whether a tetrahedron belongs to a cavity. -/
def deleted? (m : Mesh) (tet : Nat) : Option Bool := m.marked? tet .deleted

/-- Whether the facet that a half-face sees is constrained on its side. -/
def facetConstrained? (m : Mesh) (h : HalfFace) : Option Bool := m.marked? h.tet (.facet h.facet)

/-- Whether a tetrahedron is a ghost. -/
def ghost? (m : Mesh) (tet : Nat) : Option Bool := m.nodes[tet]?.map (·.isGhost)

/-- The positions of the corners of a half-face. -/
def trianglePoints? (m : Mesh) (t : Triple Vertex) : Option (Triple Point) := do
  return ⟨← m.point? t.c0, ← m.point? t.c1, ← m.point? t.c2⟩

/-- The positions of the corners of a tetrahedron, none if it is a ghost. -/
def tetPoints? (m : Mesh) (nodes : Quad Vertex) : Option (Quad Point) := do
  return ⟨← m.point? nodes.s0, ← m.point? nodes.s1, ← m.point? nodes.s2, ← m.point? nodes.s3⟩

/-- Whether a point lies inside a tetrahedron or on its boundary: no facet has it on its outer side.
No point lies in a ghost. -/
def contains? [Orient3d] (m : Mesh) (tet : Nat) (p : Point) : Option Bool :=
  m.nodes[tet]?.map fun nodes =>
    !nodes.isGhost && facets.all fun f =>
      match m.trianglePoints? (nodes.triangle f) with
      | some t => orientation p t.c0 t.c1 t.c2 != .negative
      | none => false

/-- The mesh with a mark set on a tetrahedron. -/
def mark (m : Mesh) (tet : Nat) (mark : TetMark) : Mesh :=
  { m with flags := m.flags.modify tet (·.insert mark) }

/-- The mesh with a mark cleared on a tetrahedron. -/
def unmark (m : Mesh) (tet : Nat) (mark : TetMark) : Mesh :=
  { m with flags := m.flags.modify tet (·.erase mark) }

/-- The mesh with a tetrahedron in a color. -/
def paint (m : Mesh) (tet : Nat) (color : UInt16) : Mesh :=
  { m with colors := m.colors.setIfInBounds tet color }

/-- Whether two meshes have equal arrays, coordinates compared as numbers. -/
def agrees (m n : Mesh) : Bool :=
  m.vertices.size == n.vertices.size
    && (m.vertices.toList.zip n.vertices.toList).all (fun (p, q) => p.agrees q)
    && m.nodes == n.nodes && m.twins == n.twins && m.flags == n.flags && m.colors == n.colors

/-- Marks a tetrahedron deleted. -/
def delete {ε : Type} (m : Mesh) (tet : Nat) : Attempt ε Mesh := do
  let _ ← found m.flags[tet]?
  return m.mark tet .deleted

/-- Clears the deleted mark of a tetrahedron. -/
def undelete {ε : Type} (m : Mesh) (tet : Nat) : Attempt ε Mesh := do
  let _ ← found m.flags[tet]?
  return m.unmark tet .deleted

/-- Gives a tetrahedron a color. -/
def setColor {ε : Type} (m : Mesh) (tet : Nat) (color : UInt16) : Attempt ε Mesh := do
  let _ ← found m.colors[tet]?
  return m.paint tet color

@[simp] theorem size_mark (m : Mesh) (tet : Nat) (a : TetMark) : (m.mark tet a).size = m.size := rfl

@[simp] theorem size_unmark (m : Mesh) (tet : Nat) (a : TetMark) :
    (m.unmark tet a).size = m.size := rfl

@[simp] theorem size_paint (m : Mesh) (tet : Nat) (color : UInt16) :
    (m.paint tet color).size = m.size := rfl

theorem marked?_mark (m : Mesh) (t u : Nat) (a b : TetMark) :
    (m.mark t a).marked? u b =
      (m.marked? u b).map (· || (decide (t = u) && decide (b = a))) := by
  simp only [marked?, mark, Array.getElem?_modify]
  by_cases h : t = u
  · cases m.flags[u]? <;> simp [h, TetFlags.has_insert]
  · cases m.flags[u]? <;> simp [h]

theorem marked?_unmark (m : Mesh) (t u : Nat) (a b : TetMark) :
    (m.unmark t a).marked? u b =
      (m.marked? u b).map (· && !(decide (t = u) && decide (b = a))) := by
  simp only [marked?, unmark, Array.getElem?_modify]
  by_cases h : t = u
  · cases m.flags[u]? <;> simp [h, TetFlags.has_erase]
  · cases m.flags[u]? <;> simp [h]

theorem color_paint (m : Mesh) (t u : Nat) (color : UInt16) :
    (m.paint t color).colors[u]? =
      if t = u ∧ u < m.colors.size then some color else m.colors[u]? := by
  simp only [paint, Array.getElem?_setIfInBounds]
  by_cases h : t = u <;> by_cases h' : u < m.colors.size <;> simp_all

end Mesh

end CavityRepair
