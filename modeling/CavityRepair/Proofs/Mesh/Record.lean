import CavityRepair.Mesh.Record
import CavityRepair.Proofs.Document.RoundTrip
import CavityRepair.Proofs.Text.FlagNames
/-!
# Meshes read back

A mesh that is saved reads back as it was, whatever is wrong with it: its arrays may have any sizes,
its half-faces may name any tetrahedra, and its flag words may have bits without a name. Only the
positions must be finite, since nothing else has a number, and half-faces must have 64 bits.

* `Mesh.ofDocument?_record`: the document of a mesh reads back, however coordinates are written.
* `Mesh.reads_back`: so does its text if it carries the coordinates (`Document.Carried`).

## Assumption

* Flag text: flag words are declared with the names of their bits only. What prints and parses them
  is not part of the program, and is assumed to do as `FlagNames.write` and `FlagNames.read?` do.
-/
namespace CavityRepair

/-! ## Parts of the record -/

theorem Document.list?_array {α : Type} {read : Document → Option α} {write : α → Document}
    {xs : List α} (h : ∀ x ∈ xs, read (write x) = some x) :
    (Document.array (xs.map write)).list? read = some xs := by
  have hmap : xs.mapM (read ∘ write) = some (xs.map id) := mapM_eq_some_map h
  rw [List.map_id] at hmap
  exact (List.mapM_map).trans hmap

theorem Quad.ofDocument?_array {α : Type} {read : Document → Option α} {write : α → Document}
    {q : Quad α} (h : ∀ a ∈ q.toList, read (write a) = some a) :
    Quad.ofDocument? read (.array (q.toList.map write)) = some q := by
  unfold Quad.ofDocument?
  rw [Document.list?_array h]
  rfl

theorem Point.ofDocument?_record {number : Float → Document} {p : Point}
    (h : ∀ axis, (number (p.coord axis)).float? = some (p.coord axis)) :
    Point.ofDocument? (p.record number) = some p := by
  have hcoords : ∀ x ∈ [p.x, p.y, p.z], (number x).float? = some x := by
    simp only [List.forall_mem_cons]
    exact ⟨h 0, h 1, h 2, List.forall_mem_nil _⟩
  have hlist : (p.record number).list? Document.float? = some [p.x, p.y, p.z] :=
    Document.list?_array hcoords
  unfold Point.ofDocument?
  rw [hlist]
  rfl

theorem Vertex.ofDocument?_ofNat (v : Vertex) : Vertex.ofDocument? (.ofNat v.toNat) = some v := by
  unfold Vertex.ofDocument?
  rw [Document.nat?_ofNat v.toNat_lt]
  simp

theorem HalfFace.ofDocument?_ofNat {h : HalfFace} (hraw : h.raw < UInt64.size) :
    HalfFace.ofDocument? (.ofNat h.raw) = some h := by
  unfold HalfFace.ofDocument?
  rw [Document.nat?_ofNat hraw, Option.map_some, HalfFace.ofRaw_raw]

theorem TetFlags.ofDocument?_text (flags : TetFlags) :
    TetFlags.ofDocument? (.string flags.text) = some flags := by
  unfold TetFlags.ofDocument? Document.string?
  rw [Option.bind_eq_bind, Option.bind_some, TetFlags.read?_text]

namespace Mesh

variable {m : Mesh}

/-- Five arrays that read as those of a mesh make the mesh. -/
theorem ofFields?_eq_some {vertices nodes neighbors flags colors : Document}
    (hvertices : vertices.list? Point.ofDocument? = some m.vertices.toList)
    (hnodes : nodes.list? (Quad.ofDocument? Vertex.ofDocument?) = some m.nodes.toList)
    (htwins : neighbors.list? (Quad.ofDocument? HalfFace.ofDocument?) = some m.twins.toList)
    (hflags : flags.list? TetFlags.ofDocument? = some m.flags.toList)
    (hcolors : (colors.list? fun d => (d.nat? 16).map UInt16.ofNat) = some m.colors.toList) :
    ofFields? vertices nodes neighbors flags colors = some m := by
  unfold ofFields?
  rw [hvertices, hnodes, htwins, hflags, hcolors]
  rfl

/-- The document of a mesh reads back if its coordinates do. -/
theorem ofDocument?_record {number : Float → Document}
    (hnumber : ∀ p ∈ m.vertices, ∀ axis, (number (p.coord axis)).float? = some (p.coord axis))
    (hraw : ∀ quad ∈ m.twins, ∀ h ∈ quad.toList, h.raw < UInt64.size) :
    ofDocument? (m.record number) = some m := by
  have hcolor : ∀ color : UInt16,
      ((Document.ofNat color.toNat).nat? 16).map UInt16.ofNat = some color := by
    intro color
    rw [Document.nat?_ofNat color.toNat_lt]
    simp
  simp only [ofDocument?, record, Document.field?]
  apply ofFields?_eq_some
  · exact Document.list?_array fun p hp =>
      Point.ofDocument?_record (hnumber p (Array.mem_toList_iff.1 hp))
  · exact Document.list?_array fun q _ => Quad.ofDocument?_array fun v _ =>
      Vertex.ofDocument?_ofNat v
  · exact Document.list?_array fun q hq => Quad.ofDocument?_array fun h hh =>
      HalfFace.ofDocument?_ofNat (hraw q (Array.mem_toList_iff.1 hq) h hh)
  · exact Document.list?_array fun flags _ => TetFlags.ofDocument?_text flags
  · exact Document.list?_array fun color _ => hcolor color

/-- The text of a mesh keeps its numbers if it keeps its coordinates. -/
theorem kept_toDocument
    (hnumber : ∀ p ∈ m.vertices, ∀ axis, Document.Carried (p.coord axis))
    (hraw : ∀ quad ∈ m.twins, ∀ h ∈ quad.toList, h.raw < UInt64.size) : m.toDocument.Kept := by
  have hpoint : ∀ p ∈ m.vertices.toList, (p.record .ofFloat).Kept := by
    intro p hp
    have hp := hnumber p (Array.mem_toList_iff.1 hp)
    have hcoords : ∀ x ∈ [p.x, p.y, p.z], (Document.ofFloat x).Kept := by
      simp only [List.forall_mem_cons]
      exact ⟨.ofFloat (hp 0), .ofFloat (hp 1), .ofFloat (hp 2), List.forall_mem_nil _⟩
    exact .array_map hcoords
  have hvertex : ∀ v : Vertex, (Document.ofNat v.toNat).Kept := fun v =>
    .ofNat (Nat.lt_trans v.toNat_lt (by decide))
  have hcolor : ∀ color : UInt16, (Document.ofNat color.toNat).Kept := fun color =>
    .ofNat (Nat.lt_trans color.toNat_lt (by decide))
  apply Document.Kept.object
  simp only [List.forall_mem_cons]
  refine ⟨.array_map hpoint, .array_map fun q _ => .array_map fun v _ => hvertex v,
    .array_map fun q hq => .array_map fun h hh => .ofNat (hraw q (Array.mem_toList_iff.1 hq) h hh),
    .array_map fun flags _ => .string flags.text, .array_map fun color _ => hcolor color,
    List.forall_mem_nil _⟩

/-- A mesh with finite positions and half-faces of 64 bits reads back from its document, and from
its text as well if that carries the coordinates. Its flag words are written by `FlagNames.write`
and read by `FlagNames.read?`, which stand for a printer and a parser from outside of the program:
that these do the same is the assumption on flag text. -/
theorem reads_back (m : Mesh) (hfinite : ∀ p ∈ m.vertices, ∀ axis, finite (p.coord axis))
    (hraw : ∀ quad ∈ m.twins, ∀ h ∈ quad.toList, h.raw < UInt64.size) :
    ofDocument? m.toDocument = some m ∧
    ((∀ p ∈ m.vertices, ∀ axis, Document.Carried (p.coord axis)) → load? m.save = some m) := by
  have hread : ofDocument? m.toDocument = some m := by
    refine ofDocument?_record (fun p hp axis => ?_) hraw
    rw [Document.ofFloat, if_pos (hfinite p hp axis)]
    rfl
  refine ⟨hread, fun hnumber => ?_⟩
  unfold load? save
  rw [(kept_toDocument hnumber hraw).read?_write]
  exact hread

/-- Arrays of different sizes, a half-face and flags that mean nothing, and the other zero. -/
def ragged : Mesh where
  vertices := #[⟨0.1, -0.0, 3⟩, ⟨1e21, -2.5e-7, 0.3⟩]
  nodes := #[⟨0, 7, 7, .ghost⟩]
  twins := #[⟨.ofRaw 0, .ofRaw 18446744073709551615, ⟨9, 2⟩, ⟨0, 3⟩⟩, .replicate ⟨5, 1⟩]
  flags := #[⟨0xffff⟩, ⟨0⟩, ⟨0x9041⟩]
  colors := #[65535]

theorem reads_back_ragged :
    (∀ p ∈ ragged.vertices, ∀ axis, finite (p.coord axis)) ∧
    (∀ quad ∈ ragged.twins, ∀ h ∈ quad.toList, h.raw < UInt64.size) ∧
    ofDocument? ragged.toDocument = some ragged ∧ load? ragged.save = some ragged := by
  have hfinite : ∀ p ∈ ragged.vertices, ∀ axis, finite (p.coord axis) := by decide +kernel
  have hraw : ∀ quad ∈ ragged.twins, ∀ h ∈ quad.toList, h.raw < UInt64.size := by decide +kernel
  obtain ⟨hread, hload⟩ := reads_back ragged hfinite hraw
  exact ⟨hfinite, hraw, hread, hload (by decide +kernel)⟩

end Mesh

end CavityRepair
