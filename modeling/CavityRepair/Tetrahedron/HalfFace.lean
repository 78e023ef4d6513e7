import CavityRepair.Tetrahedron.Slots
/-!
# Vertices and half-faces

A half-face is one side of a triangle: a tetrahedron and the facet it sees the triangle by. It is
stored as the number `4 * tet + facet`, which also orders half-faces. Numbers have 64 bits, so
`HalfFace.pack` drops what a larger tetrahedron index would need beyond them.

`Vertex.ghost` stands for the vertex at infinity.
-/
namespace CavityRepair

/-- A vertex of a mesh, by its index. -/
abbrev Vertex := UInt32

/-- The vertex at infinity. -/
def Vertex.ghost : Vertex := 4294967295

/-- Two vertices in ascending order. -/
def Vertex.pair (a b : Vertex) : Vertex × Vertex := if a ≤ b then (a, b) else (b, a)

/-- The corners of a triangle in ascending order. -/
def Triple.sorted (t : Triple Vertex) : Triple Vertex :=
  let (a, b) := Vertex.pair t.c0 t.c1
  if t.c2 ≤ a then ⟨t.c2, a, b⟩ else if t.c2 ≤ b then ⟨a, t.c2, b⟩ else ⟨a, b, t.c2⟩

/-- The corners of a facet, in the order of `Facet.slots`. -/
def Quad.triangle {α : Type} (nodes : Quad α) (f : Facet) : Triple α := f.slots.map nodes.get

/-- Whether corners are those of a ghost. -/
def Quad.isGhost (nodes : Quad Vertex) : Bool := nodes.s3 = Vertex.ghost

/-- The edge that joins two vertices; of a vertex in several slots the first one counts. -/
def Quad.edgeBetween? (nodes : Quad Vertex) (a b : Vertex) : Option Edge := do
  Edge.ofSlots? (← nodes.slotOf? a) (← nodes.slotOf? b)

/-- A facet of a tetrahedron, seen from that tetrahedron. -/
structure HalfFace where
  tet : Nat
  facet : Facet
  deriving DecidableEq, Repr

namespace HalfFace

/-- The number a half-face is stored as. -/
def raw (h : HalfFace) : Nat := 4 * h.tet + h.facet

/-- The half-face stored as a number. -/
def ofRaw (n : Nat) : HalfFace := ⟨n / 4, Fin.ofNat 4 n⟩

/-- The half-face of any tetrahedron and facet index, kept to 64 bits: of the facet two bits count,
and of the tetrahedron the low 62. -/
def pack (tet facet : Nat) : HalfFace := ofRaw ((4 * tet + facet % 4) % UInt64.size)

/-- Tetrahedron and facet with a colon between them. -/
def text (h : HalfFace) : String := s!"{h.tet}:{h.facet}"

/-- Half-faces in ascending order. -/
def sort (sides : List HalfFace) : List HalfFace := sides.mergeSort fun a b => a.raw ≤ b.raw

/-- The four half-faces of a tetrahedron. -/
def ofTet (tet : Nat) : List HalfFace := facets.map (⟨tet, ·⟩)

theorem mem_ofTet {tet : Nat} {h : HalfFace} : h ∈ ofTet tet ↔ h.tet = tet := by
  obtain ⟨t, f⟩ := h
  simp [ofTet, eq_comm]

theorem ofTet_nodup (tet : Nat) : (ofTet tet).Nodup := by
  simp [ofTet, facets]

theorem eq_iff {h k : HalfFace} : h = k ↔ h.tet = k.tet ∧ h.facet = k.facet := by
  cases h
  cases k
  simp

@[simp] theorem ofRaw_raw (h : HalfFace) : ofRaw h.raw = h := by
  obtain ⟨tet, facet⟩ := h
  have := facet.isLt
  simp only [ofRaw, raw, mk.injEq]
  exact ⟨by omega, Fin.ext (by simp only [Fin.ofNat]; omega)⟩

@[simp] theorem raw_ofRaw (n : Nat) : (ofRaw n).raw = n := by
  simp only [ofRaw, raw, Fin.ofNat]
  omega

theorem raw_inj {a b : HalfFace} : a.raw = b.raw ↔ a = b :=
  ⟨fun h => by rw [← ofRaw_raw a, h, ofRaw_raw], congrArg raw⟩

theorem pack_eq {tet : Nat} {f : Facet} (h : 4 * tet + 3 < UInt64.size) :
    pack tet f = ⟨tet, f⟩ := by
  have := f.isLt
  have hraw : (4 * tet + f.val % 4) % UInt64.size = raw ⟨tet, f⟩ := by
    rw [Nat.mod_eq_of_lt f.isLt, Nat.mod_eq_of_lt (by omega), raw]
  rw [pack, hraw, ofRaw_raw]

end HalfFace

end CavityRepair
