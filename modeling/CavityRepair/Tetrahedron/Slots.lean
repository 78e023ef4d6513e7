/-!
# Slots, facets and edges of a tetrahedron

A tetrahedron has four node slots. Facet `i` is the triangle opposite slot `i`, and the six edges
are numbered by the two facets they lie on. The tables fix three things at once:

* `Facet.slots` lists the slots of a facet so that the triangle turns the same way for every facet
  when seen from inside;
* `Facet.edges` lists the edges of a facet, each at the place of the corner opposite to it;
* `Edge.facets` and `Edge.slots` give for an edge the facets that share it and the slots it joins.
-/
namespace CavityRepair

/-- One value for each slot of a tetrahedron. -/
structure Quad (α : Type) where
  s0 : α
  s1 : α
  s2 : α
  s3 : α
  deriving DecidableEq, Repr

/-- One value for each corner of a triangle. -/
structure Triple (α : Type) where
  c0 : α
  c1 : α
  c2 : α
  deriving DecidableEq, Repr

/-- A node slot of a tetrahedron. -/
abbrev Slot := Fin 4

/-- A facet of a tetrahedron, numbered by the slot it leaves out. -/
abbrev Facet := Fin 4

/-- An edge of a tetrahedron. -/
abbrev Edge := Fin 6

/-- A corner of a triangle, also naming the side opposite to it. -/
abbrev Corner := Fin 3

-- The index types have elements. As named facts, with the core zero spelled out, they make the
-- numerals of an index type one term in every module, whatever it imports.
instance neZero_three : @NeZero Nat Zero.ofOfNat0 3 := ⟨by decide⟩
instance neZero_four : @NeZero Nat Zero.ofOfNat0 4 := ⟨by decide⟩
instance neZero_six : @NeZero Nat Zero.ofOfNat0 6 := ⟨by decide⟩

/-- The four facets in ascending order. -/
def facets : List Facet := [0, 1, 2, 3]

/-- The six edges in ascending order. -/
def edges : List Edge := [0, 1, 2, 3, 4, 5]

/-- The three corners of a triangle in ascending order. -/
def corners : List Corner := [0, 1, 2]

@[simp] theorem mem_facets (f : Facet) : f ∈ facets := by revert f; decide

@[simp] theorem mem_edges (e : Edge) : e ∈ edges := by revert e; decide

@[simp] theorem mem_corners (c : Corner) : c ∈ corners := by revert c; decide

namespace Quad

variable {α β : Type}

/-- The value at a slot. -/
def get (q : Quad α) : Slot → α
  | 0 => q.s0
  | 1 => q.s1
  | 2 => q.s2
  | 3 => q.s3

/-- The quad with one slot changed. -/
def set (q : Quad α) (slot : Slot) (a : α) : Quad α :=
  match slot with
  | 0 => { q with s0 := a }
  | 1 => { q with s1 := a }
  | 2 => { q with s2 := a }
  | 3 => { q with s3 := a }

/-- The quad with the same value at every slot. -/
def replicate (a : α) : Quad α := ⟨a, a, a, a⟩

/-- Applies a function at every slot. -/
def map (f : α → β) (q : Quad α) : Quad β := ⟨f q.s0, f q.s1, f q.s2, f q.s3⟩

/-- The values in slot order. -/
def toList (q : Quad α) : List α := [q.s0, q.s1, q.s2, q.s3]

/-- The quad of four values. -/
def ofList? : List α → Option (Quad α)
  | [a, b, c, d] => some ⟨a, b, c, d⟩
  | _ => none

/-- The first slot that holds a value. -/
def slotOf? [DecidableEq α] (q : Quad α) (a : α) : Option Slot :=
  facets.find? fun slot => q.get slot = a

/-- The quad with slots 2 and 3 exchanged. -/
def flip (q : Quad α) : Quad α := ⟨q.s0, q.s1, q.s3, q.s2⟩

theorem get_set (q : Quad α) (i j : Slot) (a : α) :
    (q.set i a).get j = if j = i then a else q.get j := by
  revert i j
  simp only [Fin.forall_fin_succ, set, get]
  simp

@[simp] theorem get_map (f : α → β) (q : Quad α) (i : Slot) : (q.map f).get i = f (q.get i) := by
  revert i
  simp [Fin.forall_fin_succ, map, get]

@[simp] theorem get_replicate (a : α) (i : Slot) : (replicate a).get i = a := by
  revert i
  simp [Fin.forall_fin_succ, replicate, get]

@[simp] theorem ofList?_toList (q : Quad α) : ofList? q.toList = some q := rfl

end Quad

namespace Triple

variable {α β : Type}

/-- The value at a corner. -/
def get (t : Triple α) : Corner → α
  | 0 => t.c0
  | 1 => t.c1
  | 2 => t.c2

/-- Applies a function at every corner. -/
def map (f : α → β) (t : Triple α) : Triple β := ⟨f t.c0, f t.c1, f t.c2⟩

/-- The values in corner order. -/
def toList (t : Triple α) : List α := [t.c0, t.c1, t.c2]

end Triple

/-- The slots of a facet, in the order seen from inside the tetrahedron. -/
def Facet.slots : Facet → Triple Slot
  | 0 => ⟨2, 1, 3⟩
  | 1 => ⟨0, 2, 3⟩
  | 2 => ⟨1, 0, 3⟩
  | 3 => ⟨0, 1, 2⟩

/-- The edges of a facet: at each corner the edge opposite to it. -/
def Facet.edges : Facet → Triple Edge
  | 0 => ⟨1, 0, 2⟩
  | 1 => ⟨0, 3, 4⟩
  | 2 => ⟨3, 1, 5⟩
  | 3 => ⟨2, 4, 5⟩

/-- The two facets that share an edge, in ascending order. -/
def Edge.facets : Edge → Facet × Facet
  | 0 => (0, 1)
  | 1 => (0, 2)
  | 2 => (0, 3)
  | 3 => (1, 2)
  | 4 => (1, 3)
  | 5 => (2, 3)

/-- The two slots that an edge joins: the ones neither of its facets leaves out. -/
def Edge.slots : Edge → Slot × Slot
  | 0 => (2, 3)
  | 1 => (1, 3)
  | 2 => (1, 2)
  | 3 => (0, 3)
  | 4 => (0, 2)
  | 5 => (0, 1)

/-- The edge that two facets share; a facet shares no edge with itself. -/
def Edge.ofFacets? (a b : Facet) : Option Edge :=
  edges.find? fun e => e.facets = (a, b) ∨ e.facets = (b, a)

/-- The edge that joins two slots. -/
def Edge.ofSlots? (a b : Slot) : Option Edge :=
  edges.find? fun e => e.slots = (a, b) ∨ e.slots = (b, a)

theorem Edge.ofFacets?_eq_none_iff (a b : Facet) : Edge.ofFacets? a b = none ↔ a = b := by
  revert a b; decide

theorem Edge.ofFacets?_facets (e : Edge) : Edge.ofFacets? e.facets.1 e.facets.2 = some e := by
  revert e; decide

theorem Edge.ofSlots?_slots (e : Edge) : Edge.ofSlots? e.slots.1 e.slots.2 = some e := by
  revert e; decide

end CavityRepair
