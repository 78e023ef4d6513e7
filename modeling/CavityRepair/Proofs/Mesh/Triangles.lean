import CavityRepair.Tetrahedron.HalfFace
import Mathlib.Data.Finset.Card
import Mathlib.Data.List.Nodup
import Mathlib.Data.List.Permutation
import Mathlib.Tactic.Tauto
/-!
# Corners of triangles and tetrahedra

Two half-faces are sides of one triangle when their corners agree in ascending order, so what the
theory needs of `Triple.sorted` is that it tells triangles apart by their corners alone
(`Triple.sorted_eq_sorted_iff`). The two sides may pass the corners in one direction or in opposite
ones (`Triple.turned_or_opposite`), and which of the two it is can be read off a single edge
(`Triple.opposite_of_edge`). Facet `f` of a tetrahedron has the corners in all slots but `f`
(`Quad.mem_triangle`), and when the four corners differ a corner determines its slot
(`Quad.slotOf?_get`). The table of facets is coherent: the two facets at an edge pass it in opposite
directions (`Quad.passes_triangle_iff`).
-/
namespace CavityRepair

/-! ## Ascending order -/

theorem Vertex.pair_perm (a b : Vertex) :
    [(Vertex.pair a b).1, (Vertex.pair a b).2].Perm [a, b] := by
  unfold Vertex.pair
  split
  · exact .refl _
  · exact .swap _ _ _

theorem Vertex.pair_le (a b : Vertex) : (Vertex.pair a b).1 ≤ (Vertex.pair a b).2 := by
  unfold Vertex.pair
  split
  · assumption
  · exact (UInt32.le_total a b).resolve_left ‹_›

theorem Vertex.pair_eq_iff {x y a b : Vertex} (hab : a < b) :
    Vertex.pair x y = (a, b) ↔ (x = a ∧ y = b) ∨ (x = b ∧ y = a) := by
  unfold Vertex.pair
  split <;> simp only [Prod.mk.injEq] <;> grind

namespace Triple

theorem toList_inj {α : Type} {t u : Triple α} : t.toList = u.toList ↔ t = u := by
  obtain ⟨a, b, c⟩ := t
  obtain ⟨a', b', c'⟩ := u
  simp [toList]

theorem sorted_perm (t : Triple Vertex) : t.sorted.toList.Perm t.toList := by
  obtain ⟨a, b, c⟩ := t
  have hp := Vertex.pair_perm a b
  unfold sorted toList
  dsimp only
  generalize Vertex.pair a b = p at hp ⊢
  have hlast : [p.1, p.2, c].Perm [a, b, c] := hp.append_right [c]
  split
  · exact (List.perm_append_singleton c [p.1, p.2]).symm.trans hlast
  · split
    · exact (List.Perm.cons _ (.swap _ _ _)).trans hlast
    · exact hlast

theorem sorted_pairwise (t : Triple Vertex) : t.sorted.toList.Pairwise (· ≤ ·) := by
  obtain ⟨a, b, c⟩ := t
  have hp := Vertex.pair_le a b
  unfold sorted toList
  dsimp only
  generalize Vertex.pair a b = p at hp ⊢
  have htrans := @UInt32.le_trans
  have htotal := UInt32.le_total
  split
  · grind
  · split <;> grind

/-- In ascending order triangles are equal exactly when they have the same corners. -/
theorem sorted_eq_sorted_iff {t u : Triple Vertex} :
    t.sorted = u.sorted ↔ t.toList.Perm u.toList := by
  constructor
  · intro h
    exact (sorted_perm t).symm.trans (h ▸ sorted_perm u)
  · intro h
    refine toList_inj.1 (List.Perm.eq_of_pairwise ?_ (sorted_pairwise t) (sorted_pairwise u) ?_)
    · intro a b _ _ hab hba
      exact UInt32.le_antisymm hab hba
    · exact (sorted_perm t).trans (h.trans (sorted_perm u).symm)

end Triple

/-! ## Triangles as sets -/

namespace Triple

/-- Three different corners, listed in ascending order. -/
def Ascending (t : Triple Vertex) : Prop := t.c0 < t.c1 ∧ t.c1 < t.c2

theorem ascending_iff {t : Triple Vertex} :
    t.Ascending ↔ t.toList.Nodup ∧ t.toList.Pairwise (· ≤ ·) := by
  have hlt : ∀ a b : Vertex, a < b ↔ a ≤ b ∧ a ≠ b := fun _ _ => UInt32.lt_iff_le_and_ne
  have htrans := @UInt32.le_trans
  have hanti := @UInt32.le_antisymm
  simp only [Ascending, toList, List.nodup_cons, List.pairwise_cons, List.mem_cons,
    List.not_mem_nil, or_false, hlt]
  grind

theorem sorted_ascending {t : Triple Vertex} (h : t.toList.Nodup) : t.sorted.Ascending :=
  ascending_iff.2 ⟨(sorted_perm t).nodup_iff.2 h, sorted_pairwise t⟩

theorem Ascending.nodup {t : Triple Vertex} (h : t.Ascending) : t.toList.Nodup :=
  (ascending_iff.1 h).1

theorem Ascending.card {t : Triple Vertex} (h : t.Ascending) : t.toList.toFinset.card = 3 :=
  List.toFinset_card_of_nodup h.nodup

/-- An ascending triangle is known from the set of its corners. -/
theorem Ascending.eq_of_perm {t u : Triple Vertex} (ht : t.Ascending) (hu : u.Ascending)
    (h : t.toList.Perm u.toList) : t = u :=
  toList_inj.1 (h.eq_of_pairwise (fun _ _ _ _ hab hba => UInt32.le_antisymm hab hba)
    (ascending_iff.1 ht).2 (ascending_iff.1 hu).2)

theorem Ascending.eq_of_toFinset {t u : Triple Vertex} (ht : t.Ascending) (hu : u.Ascending)
    (h : t.toList.toFinset = u.toList.toFinset) : t = u :=
  ht.eq_of_perm hu (List.perm_of_nodup_nodup_toFinset_eq ht.nodup hu.nodup h)

/-- Every set of three vertices is a triangle. -/
theorem exists_ascending {s : Finset Vertex} (hs : s.card = 3) :
    ∃ t : Triple Vertex, t.Ascending ∧ t.toList.toFinset = s := by
  obtain ⟨a, b, c, hab, hac, hbc, rfl⟩ := Finset.card_eq_three.1 hs
  have hnodup : (Triple.mk a b c).toList.Nodup := by simp [toList, hab, hac, hbc]
  refine ⟨_, sorted_ascending hnodup, ?_⟩
  rw [List.toFinset_eq_of_perm _ _ (sorted_perm _)]
  simp [toList]

end Triple

/-! ## Directions -/

namespace Triple

variable {α β : Type} {t u : Triple α}

/-- The same corners, passed in the same direction. -/
def Turned (t u : Triple α) : Prop :=
  u = t ∨ u = ⟨t.c1, t.c2, t.c0⟩ ∨ u = ⟨t.c2, t.c0, t.c1⟩

/-- The same corners, passed in the opposite direction. -/
def Opposite (t u : Triple α) : Prop :=
  u = ⟨t.c1, t.c0, t.c2⟩ ∨ u = ⟨t.c0, t.c2, t.c1⟩ ∨ u = ⟨t.c2, t.c1, t.c0⟩

theorem Opposite.symm (h : t.Opposite u) : u.Opposite t := by
  rcases h with rfl | rfl | rfl <;> simp [Opposite]

theorem Turned.map (h : t.Turned u) (f : α → β) : (t.map f).Turned (u.map f) := by
  rcases h with rfl | rfl | rfl <;> simp [Turned, Triple.map]

theorem Opposite.map (h : t.Opposite u) (f : α → β) : (t.map f).Opposite (u.map f) := by
  rcases h with rfl | rfl | rfl <;> simp [Opposite, Triple.map]

/-- Three corners can be passed in two directions. -/
theorem turned_or_opposite (h : t.toList.Perm u.toList) : t.Turned u ∨ t.Opposite u := by
  obtain ⟨a, b, c⟩ := t
  have hmem := List.mem_permutations'.2 h.symm
  simp only [toList, List.permutations', List.permutations'Aux, List.flatMap_cons,
    List.flatMap_nil, List.map_cons, List.map_nil, List.append_nil, List.cons_append,
    List.nil_append, List.mem_cons, List.not_mem_nil, or_false] at hmem
  simp only [Turned, Opposite, ← toList_inj, toList]
  tauto

/-- One corner is followed by another on the way around. -/
def Passes (t : Triple α) (a b : α) : Prop :=
  (t.c0 = a ∧ t.c1 = b) ∨ (t.c1 = a ∧ t.c2 = b) ∨ (t.c2 = a ∧ t.c0 = b)

instance [DecidableEq α] (t : Triple α) (a b : α) : Decidable (t.Passes a b) :=
  inferInstanceAs (Decidable (_ ∨ _ ∨ _))

variable {a b : α}

theorem Passes.mem (h : t.Passes a b) : a ∈ t.toList ∧ b ∈ t.toList := by
  rcases h with ⟨rfl, rfl⟩ | ⟨rfl, rfl⟩ | ⟨rfl, rfl⟩ <;> simp [toList]

/-- Different corners follow each other in one order only. -/
theorem Passes.asymm (ht : t.toList.Nodup) (h : t.Passes a b) : ¬t.Passes b a := by
  simp only [toList, List.nodup_cons, List.mem_cons, List.not_mem_nil, or_false, not_or] at ht
  unfold Passes at h ⊢
  grind

/-- Of two different corners one follows the other. -/
theorem passes_or_passes (ha : a ∈ t.toList) (hb : b ∈ t.toList) (hab : a ≠ b) :
    t.Passes a b ∨ t.Passes b a := by
  simp only [toList, List.mem_cons, List.not_mem_nil, or_false] at ha hb
  unfold Passes
  grind

theorem passes_map_iff {f : α → β} (hf : f.Injective) :
    (t.map f).Passes (f a) (f b) ↔ t.Passes a b := by
  simp only [Passes, Triple.map, hf.eq_iff]

theorem Turned.passes_iff (h : t.Turned u) : u.Passes a b ↔ t.Passes a b := by
  rcases h with rfl | rfl | rfl <;> simp only [Passes] <;> tauto

theorem Opposite.passes_iff (h : t.Opposite u) : u.Passes a b ↔ t.Passes b a := by
  rcases h with rfl | rfl | rfl <;> simp only [Passes] <;> tauto

/-- Triangles with the same corners that pass one edge in opposite directions are opposite. -/
theorem opposite_of_edge (hperm : t.toList.Perm u.toList) (ht : t.toList.Nodup)
    (ha : a ∈ t.toList) (hb : b ∈ t.toList) (hne : a ≠ b) (hab : t.Passes a b → u.Passes b a)
    (hba : t.Passes b a → u.Passes a b) : t.Opposite u := by
  refine (turned_or_opposite hperm).resolve_left fun hturned => ?_
  rcases passes_or_passes ha hb hne with h | h
  · exact h.asymm ht (hturned.passes_iff.1 (hab h))
  · exact h.asymm ht (hturned.passes_iff.1 (hba h))

end Triple

/-! ## Slots and corners -/

theorem Facet.mem_slots {f : Facet} {i : Slot} : i ∈ f.slots.toList ↔ i ≠ f := by
  revert f i
  decide

namespace Quad

variable {α : Type} {q : Quad α}

theorem mem_toList {a : α} : a ∈ q.toList ↔ ∃ i, q.get i = a := by
  simp [toList, Fin.exists_fin_succ, get, eq_comm]

theorem eq_of_get {q r : Quad α} (h : ∀ i, q.get i = r.get i) : q = r := by
  obtain ⟨a, b, c, d⟩ := q
  obtain ⟨a', b', c', d'⟩ := r
  simpa [Fin.forall_fin_succ, get] using h

theorem triangle_zero (q : Quad α) : q.triangle 0 = ⟨q.s2, q.s1, q.s3⟩ := rfl

theorem triangle_one (q : Quad α) : q.triangle 1 = ⟨q.s0, q.s2, q.s3⟩ := rfl

theorem triangle_two (q : Quad α) : q.triangle 2 = ⟨q.s1, q.s0, q.s3⟩ := rfl

theorem triangle_three (q : Quad α) : q.triangle 3 = ⟨q.s0, q.s1, q.s2⟩ := rfl

theorem map_triangle {β : Type} (g : α → β) (q : Quad α) (f : Facet) :
    (q.triangle f).map g = (q.map g).triangle f := by
  simp only [triangle, Triple.map, get_map]

/-- The corners of a facet are those in all slots but the one that it leaves out. -/
theorem mem_triangle {f : Facet} {a : α} :
    a ∈ (q.triangle f).toList ↔ ∃ i, i ≠ f ∧ q.get i = a := by
  have hcorners : (q.triangle f).toList = f.slots.toList.map q.get := rfl
  simp only [hcorners, List.mem_map, Facet.mem_slots]

theorem get_inj (hq : q.toList.Nodup) {i j : Slot} : q.get i = q.get j ↔ i = j := by
  constructor
  · revert i j
    simp only [toList, List.nodup_cons, List.mem_cons, not_or] at hq
    simp only [Fin.forall_fin_succ, get]
    grind
  · rintro rfl
    rfl

/-- Where two quads have the same values, and two of their facets too, so have the slots that the
facets leave out. -/
theorem get_of_perm {r : Quad α} (hq : q.toList.Nodup) (h : q.toList.Perm r.toList) {f g : Facet}
    (ht : (q.triangle f).toList.Perm (r.triangle g).toList) : q.get f = r.get g := by
  obtain ⟨j, hj⟩ := mem_toList.1 (h.mem_iff.1 (mem_toList.2 ⟨f, rfl⟩))
  obtain rfl | hne := eq_or_ne j g
  · exact hj.symm
  · obtain ⟨i, hi, heq⟩ := mem_triangle.1 (ht.mem_iff.2 (mem_triangle.2 ⟨j, hne, hj⟩))
    exact absurd ((get_inj hq).1 heq) hi

theorem flip_perm (q : Quad α) : q.flip.toList.Perm q.toList :=
  .cons _ (.cons _ (.swap _ _ _))

theorem triangle_nodup (hq : q.toList.Nodup) (f : Facet) : (q.triangle f).toList.Nodup := by
  have hf : f.slots.toList.Nodup := by revert f; decide
  have : (q.triangle f).toList = f.slots.toList.map q.get := rfl
  rw [this]
  exact hf.map fun _ _ => (get_inj hq).1

/-- The two facets at an edge pass it in opposite directions. -/
theorem passes_triangle_iff (hq : q.toList.Nodup) {f g : Facet} (hfg : f ≠ g) {i j : Slot}
    (hi : i ≠ f ∧ i ≠ g) (hj : j ≠ f ∧ j ≠ g) :
    (q.triangle f).Passes (q.get i) (q.get j) ↔ (q.triangle g).Passes (q.get j) (q.get i) := by
  have htable : ∀ (f g : Facet) (i j : Slot), f ≠ g → i ≠ f ∧ i ≠ g → j ≠ f ∧ j ≠ g →
      (f.slots.Passes i j ↔ g.slots.Passes j i) := by decide
  have hinj : Function.Injective q.get := fun _ _ => (get_inj hq).1
  unfold triangle
  rw [Triple.passes_map_iff hinj, Triple.passes_map_iff hinj]
  exact htable f g i j hfg hi hj

variable [DecidableEq α]

theorem get_of_slotOf? {a : α} {i : Slot} (h : q.slotOf? a = some i) : q.get i = a := by
  simpa using List.find?_some h

theorem slotOf?_get (hq : q.toList.Nodup) (i : Slot) : q.slotOf? (q.get i) = some i := by
  cases h : q.slotOf? (q.get i) with
  | none => exact absurd (decide_eq_true rfl) (List.find?_eq_none.1 h i (mem_facets i))
  | some j => rw [(get_inj hq).1 (get_of_slotOf? h)]

end Quad

/-! ## Edges -/

namespace Edge

theorem facets_ne (e : Edge) : e.facets.1 ≠ e.facets.2 := by revert e; decide

theorem ofFacets?_comm (a b : Facet) : ofFacets? a b = ofFacets? b a := by revert a b; decide

theorem facets_of_ofFacets? {a b : Facet} {e : Edge} (h : ofFacets? a b = some e) :
    e.facets = (a, b) ∨ e.facets = (b, a) := by
  simpa using List.find?_some h

/-- Two facets are determined by the slots of their edge, up to order. -/
theorem facets_of_slots {a b c d : Facet} (hab : a ≠ b) (hcd : c ≠ d)
    (h : ∀ i : Slot, (i ≠ a ∧ i ≠ b) ↔ (i ≠ c ∧ i ≠ d)) : (c = a ∧ d = b) ∨ (c = b ∧ d = a) := by
  revert a b c d
  decide

theorem slots_ne (e : Edge) : (e.slots.1 ≠ e.facets.1 ∧ e.slots.1 ≠ e.facets.2) ∧
    e.slots.2 ≠ e.facets.1 ∧ e.slots.2 ≠ e.facets.2 := by
  revert e
  decide

theorem ofSlots?_comm (a b : Slot) : ofSlots? a b = ofSlots? b a := by revert a b; decide

theorem slots_of_ofSlots? {a b : Slot} {e : Edge} (h : ofSlots? a b = some e) :
    e.slots = (a, b) ∨ e.slots = (b, a) := by
  simpa using List.find?_some h

end Edge

/-- The edge between two vertices has them as its ends, in one order or the other. -/
theorem Quad.get_of_edgeBetween? {q : Quad Vertex} {a b : Vertex} {e : Edge}
    (h : q.edgeBetween? a b = some e) :
    (q.get e.slots.1 = a ∧ q.get e.slots.2 = b) ∨
      (q.get e.slots.1 = b ∧ q.get e.slots.2 = a) := by
  simp only [edgeBetween?, Option.bind_eq_bind, Option.bind_eq_some_iff] at h
  obtain ⟨i, hi, j, hj, hedge⟩ := h
  rcases Edge.slots_of_ofSlots? hedge with h | h <;> rw [h]
  · exact .inl ⟨get_of_slotOf? hi, get_of_slotOf? hj⟩
  · exact .inr ⟨get_of_slotOf? hj, get_of_slotOf? hi⟩

end CavityRepair
