import CavityRepair.Tetrahedron.HalfFace
/-!
# Flag words

A tetrahedron carries one word of flags: which of its edges and facets are constrained, and whether
it is deleted. A boundary face carries a smaller word with the constraints of its three sides and of
the face itself. `FaceFlags.ofTet` reads the second off the first.

Words may hold bits that mean nothing. They are carried along; only `TetFlags.truncate` drops them.

* `TetFlags.has_insert`, `TetFlags.has_erase`: writing one mark leaves the others alone.
* `FaceFlags.has_ofTet`: each mark of a face is the mark of the tetrahedron that it stands for.
-/
namespace CavityRepair

/-- What one flag of a tetrahedron says. -/
inductive TetMark where
  /-- The edge is constrained. -/
  | edge (e : Edge)
  /-- The facet is constrained. -/
  | facet (f : Facet)
  /-- The tetrahedron belongs to a cavity. -/
  | deleted
  deriving DecidableEq, Repr

/-- The place of a mark in the flag word. -/
def TetMark.bit : TetMark → Fin 16
  | .edge e => ⟨e, by omega⟩
  | .facet f => ⟨8 + f, by omega⟩
  | .deleted => 12

theorem TetMark.bit_inj {a b : TetMark} : a.bit = b.bit ↔ a = b := by
  rcases a with e | f | _ <;> rcases b with e' | f' | _ <;> simp [bit, Fin.ext_iff] <;> omega

/-- The flag word of a tetrahedron. -/
structure TetFlags where
  bits : BitVec 16
  deriving DecidableEq, Repr

namespace TetFlags

/-- No flag is set. -/
def empty : TetFlags := ⟨0⟩

/-- Whether a mark is set. -/
def has (flags : TetFlags) (mark : TetMark) : Bool := flags.bits.getLsbD mark.bit

/-- Sets a mark. -/
def insert (flags : TetFlags) (mark : TetMark) : TetFlags :=
  ⟨flags.bits ||| BitVec.twoPow 16 mark.bit⟩

/-- Clears a mark. -/
def erase (flags : TetFlags) (mark : TetMark) : TetFlags :=
  ⟨flags.bits &&& ~~~BitVec.twoPow 16 mark.bit⟩

/-- The word with one mark. -/
def only (mark : TetMark) : TetFlags := empty.insert mark

/-- Whether any edge is constrained. -/
def hasEdge (flags : TetFlags) : Bool := edges.any fun e => flags.has (.edge e)

/-- Every mark, in the order of the bits. -/
def marks : List TetMark := edges.map .edge ++ facets.map .facet ++ [.deleted]

/-- The marks of a word, without the bits that mean nothing. -/
def truncate (bits : BitVec 16) : TetFlags :=
  (marks.filter fun mark => bits.getLsbD mark.bit).foldl insert empty

@[simp] theorem has_empty (mark : TetMark) : empty.has mark = false := by
  simp [has, empty]

theorem has_insert (flags : TetFlags) (a b : TetMark) :
    (flags.insert a).has b = (flags.has b || decide (b = a)) := by
  by_cases h : b = a
  · subst h; simp [has, insert]
  · have : (b.bit : Nat) ≠ a.bit := fun e => h (TetMark.bit_inj.1 (Fin.ext e))
    simp [has, insert, h, this]

theorem has_erase (flags : TetFlags) (a b : TetMark) :
    (flags.erase a).has b = (flags.has b && !decide (b = a)) := by
  by_cases h : b = a
  · subst h; simp [has, erase]
  · have : (b.bit : Nat) ≠ a.bit := fun e => h (TetMark.bit_inj.1 (Fin.ext e))
    simp [has, erase, h, this]

end TetFlags

/-- What one flag of a boundary face says. -/
inductive FaceMark where
  /-- The side opposite to the corner is constrained. -/
  | side (c : Corner)
  /-- The face itself is constrained. -/
  | face
  deriving DecidableEq, Repr

/-- The place of a mark in the flag word of a face. -/
def FaceMark.bit : FaceMark → Fin 8
  | .side c => ⟨c, by omega⟩
  | .face => 3

theorem FaceMark.bit_inj {a b : FaceMark} : a.bit = b.bit ↔ a = b := by
  rcases a with c | _ <;> rcases b with c' | _ <;> simp [bit, Fin.ext_iff] <;> omega

/-- The mark of a tetrahedron that a mark of its facet stands for. -/
def FaceMark.onTet (f : Facet) : FaceMark → TetMark
  | .side c => .edge (f.edges.get c)
  | .face => .facet f

/-- The flag word of a boundary face. -/
structure FaceFlags where
  bits : BitVec 8
  deriving DecidableEq, Repr

namespace FaceFlags

/-- No flag is set. -/
def empty : FaceFlags := ⟨0⟩

/-- Whether a mark is set. -/
def has (flags : FaceFlags) (mark : FaceMark) : Bool := flags.bits.getLsbD mark.bit

/-- Sets a mark. -/
def insert (flags : FaceFlags) (mark : FaceMark) : FaceFlags :=
  ⟨flags.bits ||| BitVec.twoPow 8 mark.bit⟩

/-- The word with one mark. -/
def only (mark : FaceMark) : FaceFlags := empty.insert mark

/-- Every mark, in the order of the bits. -/
def marks : List FaceMark := corners.map .side ++ [.face]

/-- The marks that a facet of a tetrahedron inherits from the tetrahedron's word. -/
def ofTet (flags : TetFlags) (f : Facet) : FaceFlags :=
  (marks.filter fun mark => flags.has (mark.onTet f)).foldl insert empty

@[simp] theorem has_empty (mark : FaceMark) : empty.has mark = false := by
  simp [has, empty]

theorem has_insert (flags : FaceFlags) (a b : FaceMark) :
    (flags.insert a).has b = (flags.has b || decide (b = a)) := by
  by_cases h : b = a
  · subst h; simp [has, insert]
  · have : (b.bit : Nat) ≠ a.bit := fun e => h (FaceMark.bit_inj.1 (Fin.ext e))
    simp [has, insert, h, this]

theorem has_foldl_insert (marks : List FaceMark) (flags : FaceFlags) (b : FaceMark) :
    (marks.foldl insert flags).has b = (flags.has b || decide (b ∈ marks)) := by
  induction marks generalizing flags with
  | nil => simp
  | cons a rest ih => simp [ih, has_insert, Bool.or_assoc]

theorem mem_marks (mark : FaceMark) : mark ∈ marks := by
  cases mark <;> simp [marks]

theorem has_ofTet (flags : TetFlags) (f : Facet) (mark : FaceMark) :
    (ofTet flags f).has mark = flags.has (mark.onTet f) := by
  simp [ofTet, has_foldl_insert, mem_marks]

end FaceFlags

end CavityRepair
