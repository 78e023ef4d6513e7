import Mathlib.Data.Fintype.Basic
import Mathlib.Data.List.Nodup
import Mathlib.Tactic.FinCases
import Mathlib.Tactic.Ring
import CavityRepair.Mesh.Lattice
/-!
# The corners of a lattice

The corners of a lattice are the triples of numbers below a bound. They are listed with the first
coordinate fastest, and `latticeIndex` is the place of a corner in the list
(`getElem?_gridPoints`), so that no two corners have the same index.

* `cornerVertex_inj`: nor the same vertex, as long as there are vertices for all corners.
* `get_stepAlong`, `height_stepAlong`: what a step along an axis changes.
-/
namespace CavityRepair

/-! ## Steps -/

theorem Triple.eq_of_get {α : Type} {t u : Triple α} (h : ∀ i, t.get i = u.get i) : t = u := by
  cases t
  cases u
  exact congr (congrArg₂ Triple.mk (h 0) (h 1)) (h 2)

/-- A step along an axis changes the coordinate on it and no other. -/
theorem get_stepAlong (corner : Triple Nat) (axis other : Axis) :
    (stepAlong corner axis).get other = corner.get other + if other = axis then 1 else 0 := by
  fin_cases axis <;> fin_cases other <;> rfl

theorem stepAlong_inj {corner corner' : Triple Nat} {axis : Axis} :
    stepAlong corner axis = stepAlong corner' axis ↔ corner = corner' := by
  constructor
  · intro h
    refine Triple.eq_of_get fun other => ?_
    have := congrArg (·.get other) h
    simpa [get_stepAlong] using this
  · rintro rfl
    rfl

theorem stepAlong_axis_inj {corner : Triple Nat} {axis axis' : Axis} :
    stepAlong corner axis = stepAlong corner axis' ↔ axis = axis' := by
  constructor
  · intro h
    have := congrArg (·.get axis) h
    simpa [get_stepAlong] using this
  · rintro rfl
    rfl

/-- The order of two steps does not matter. -/
theorem stepAlong_comm (corner : Triple Nat) (axis axis' : Axis) :
    stepAlong (stepAlong corner axis) axis' = stepAlong (stepAlong corner axis') axis := by
  refine Triple.eq_of_get fun other => ?_
  simp only [get_stepAlong]
  omega

/-- The corner before, along an axis. -/
def stepBack (corner : Triple Nat) : Axis → Triple Nat
  | 0 => { corner with c0 := corner.c0 - 1 }
  | 1 => { corner with c1 := corner.c1 - 1 }
  | 2 => { corner with c2 := corner.c2 - 1 }

theorem get_stepBack (corner : Triple Nat) (axis other : Axis) :
    (stepBack corner axis).get other = corner.get other - if other = axis then 1 else 0 := by
  fin_cases axis <;> fin_cases other <;> rfl

theorem stepBack_stepAlong (corner : Triple Nat) (axis : Axis) :
    stepBack (stepAlong corner axis) axis = corner := by
  refine Triple.eq_of_get fun other => ?_
  rw [get_stepBack, get_stepAlong]
  omega

theorem stepAlong_stepBack {corner : Triple Nat} {axis : Axis} (h : corner.get axis ≠ 0) :
    stepAlong (stepBack corner axis) axis = corner := by
  refine Triple.eq_of_get fun other => ?_
  rw [get_stepAlong, get_stepBack]
  split
  · rename_i heq
    rw [heq]
    omega
  · omega

/-- The sum of the coordinates. -/
def height (corner : Triple Nat) : Nat := corner.c0 + corner.c1 + corner.c2

theorem height_stepAlong (corner : Triple Nat) (axis : Axis) :
    height (stepAlong corner axis) = height corner + 1 := by
  fin_cases axis <;> simp only [height, stepAlong] <;> omega

/-! ## Grids -/

/-- All coordinates are below a bound. -/
def Triple.Below (bound : Nat) (corner : Triple Nat) : Prop :=
  ∀ axis : Axis, corner.get axis < bound

instance (bound : Nat) (corner : Triple Nat) : Decidable (corner.Below bound) :=
  inferInstanceAs (Decidable (∀ axis : Axis, corner.get axis < bound))

theorem Triple.below_iff {bound : Nat} {corner : Triple Nat} :
    corner.Below bound ↔ corner.c0 < bound ∧ corner.c1 < bound ∧ corner.c2 < bound := by
  constructor
  · intro h
    exact ⟨h 0, h 1, h 2⟩
  · rintro ⟨h0, h1, h2⟩ axis
    fin_cases axis
    exacts [h0, h1, h2]

/-- Lists of equal length one after the other. -/
theorem getElem?_flatMap_of_length {α β : Type} {f : α → List β} {size : Nat}
    (hf : ∀ a, (f a).length = size) (items : List α) {i j : Nat} (hj : j < size) :
    (items.flatMap f)[j + size * i]? = items[i]?.bind fun a => (f a)[j]? := by
  induction items generalizing i with
  | nil => simp
  | cons a rest ih =>
    rw [List.flatMap_cons]
    cases i with
    | zero => simp [List.getElem?_append_left (hf a ▸ hj)]
    | succ i =>
      rw [List.getElem?_append_right (by rw [hf, Nat.mul_succ]; omega), hf, List.getElem?_cons_succ,
        ← ih, Nat.mul_succ]
      congr 1
      omega

theorem length_flatMap_of_length {α β : Type} {f : α → List β} {size : Nat} {items : List α}
    (hf : ∀ a ∈ items, (f a).length = size) : (items.flatMap f).length = size * items.length := by
  rw [List.length_flatMap, List.map_congr_left hf, List.map_const', List.sum_replicate_nat,
    Nat.mul_comm]

variable {bound : Nat} {corner corner' : Triple Nat}

theorem length_sheet (bound z : Nat) : ((List.range bound).flatMap fun y =>
    (List.range bound).map fun x => (⟨x, y, z⟩ : Triple Nat)).length = bound * bound := by
  rw [@length_flatMap_of_length _ _ _ bound _ fun y _ => by simp, List.length_range]

theorem length_gridPoints (bound : Nat) : (gridPoints bound).length = bound * bound * bound := by
  unfold gridPoints
  rw [length_flatMap_of_length fun z _ => length_sheet bound z, List.length_range]

/-- A corner stands at its index. -/
theorem getElem?_gridPoints (h : corner.Below bound) :
    (gridPoints bound)[latticeIndex bound corner]? = some corner := by
  obtain ⟨h0, h1, h2⟩ := Triple.below_iff.1 h
  have hrow : ∀ z y, ((List.range bound).map fun x => (⟨x, y, z⟩ : Triple Nat)).length = bound := by
    simp
  have hindex : latticeIndex bound corner =
      corner.c0 + bound * corner.c1 + bound * bound * corner.c2 := by
    unfold latticeIndex
    ring
  have hlt : corner.c0 + bound * corner.c1 < bound * bound := by
    calc corner.c0 + bound * corner.c1 < bound * (corner.c1 + 1) := by rw [Nat.mul_succ]; omega
      _ ≤ bound * bound := Nat.mul_le_mul_left bound h1
  unfold gridPoints
  rw [hindex, getElem?_flatMap_of_length (length_sheet bound) _ hlt, List.getElem?_range h2,
    Option.bind_some, getElem?_flatMap_of_length (hrow _) _ h0, List.getElem?_range h1,
    Option.bind_some, List.getElem?_map, List.getElem?_range h0]
  rfl

theorem mem_gridPoints : corner ∈ gridPoints bound ↔ corner.Below bound := by
  simp only [gridPoints, List.mem_flatMap, List.mem_map, List.mem_range, Triple.below_iff]
  constructor
  · rintro ⟨z, hz, y, hy, x, hx, rfl⟩
    exact ⟨hx, hy, hz⟩
  · rintro ⟨h0, h1, h2⟩
    exact ⟨_, h2, _, h1, _, h0, rfl⟩

theorem latticeIndex_lt (h : corner.Below bound) :
    latticeIndex bound corner < bound * bound * bound := by
  rw [← length_gridPoints]
  exact (List.getElem?_eq_some_iff.1 (getElem?_gridPoints h)).1

theorem latticeIndex_inj (h : corner.Below bound) (h' : corner'.Below bound) :
    latticeIndex bound corner = latticeIndex bound corner' ↔ corner = corner' := by
  constructor
  · intro heq
    exact Option.some_inj.1 ((getElem?_gridPoints h).symm.trans (heq ▸ getElem?_gridPoints h'))
  · rintro rfl
    rfl

theorem gridPoints_nodup (bound : Nat) : (gridPoints bound).Nodup := by
  have hrow : ∀ z y, ((List.range bound).map fun x => (⟨x, y, z⟩ : Triple Nat)).Nodup := by
    intro z y
    exact List.nodup_range.map fun _ _ h => congrArg Triple.c0 h
  refine List.nodup_flatMap.2 ⟨fun z _ => List.nodup_flatMap.2 ⟨fun y _ => hrow z y, ?_⟩, ?_⟩
  · refine List.nodup_range.imp fun hne corner h h' => hne ?_
    obtain ⟨_, -, rfl⟩ := List.mem_map.1 h
    obtain ⟨_, -, heq⟩ := List.mem_map.1 h'
    exact (congrArg Triple.c1 heq).symm
  · refine List.nodup_range.imp fun hne corner h h' => hne ?_
    obtain ⟨_, -, h⟩ := List.mem_flatMap.1 h
    obtain ⟨_, -, h'⟩ := List.mem_flatMap.1 h'
    obtain ⟨_, -, rfl⟩ := List.mem_map.1 h
    obtain ⟨_, -, heq⟩ := List.mem_map.1 h'
    exact (congrArg Triple.c2 heq).symm

/-! ## Counting corners -/

/-- What is counted in lists one after the other, when each of them has the same count or none. -/
theorem countP_flatMap_of_ite {α β : Type} {f : α → List β} {p : β → Prop} [DecidablePred p]
    {q : α → Prop} [DecidablePred q] {count : Nat}
    (h : ∀ a, (f a).countP p = if q a then count else 0) (items : List α) :
    (items.flatMap f).countP p = count * items.countP q := by
  induction items with
  | nil => simp
  | cons a rest ih =>
    rw [List.flatMap_cons, List.countP_append, ih, h, List.countP_cons, Nat.mul_add]
    by_cases hq : q a <;> simp [hq, Nat.add_comm]

/-- Conditions on the coordinates are met independently of each other. -/
theorem countP_gridPoints (p : Axis → Nat → Prop) [∀ axis, DecidablePred (p axis)] (bound : Nat) :
    (gridPoints bound).countP (fun corner => ∀ axis, p axis (corner.get axis)) =
      (List.range bound).countP (p 0) * (List.range bound).countP (p 1) *
        (List.range bound).countP (p 2) := by
  have hrow : ∀ z y, ((List.range bound).map fun x => (⟨x, y, z⟩ : Triple Nat)).countP
      (fun corner => ∀ axis, p axis (corner.get axis)) =
        if p 1 y ∧ p 2 z then (List.range bound).countP (p 0) else 0 := by
    intro z y
    rw [List.countP_map]
    by_cases h : p 1 y ∧ p 2 z
    · rw [if_pos h]
      refine List.countP_congr fun x _ => ?_
      simp [Fin.forall_fin_succ, Triple.get, h]
    · rw [if_neg h, List.countP_eq_zero]
      intro x _
      simpa [Fin.forall_fin_succ, Triple.get] using fun _ => not_and.1 h
  have hsheet : ∀ z, ((List.range bound).flatMap fun y =>
      (List.range bound).map fun x => (⟨x, y, z⟩ : Triple Nat)).countP
        (fun corner => ∀ axis, p axis (corner.get axis)) =
          if p 2 z then (List.range bound).countP (p 0) * (List.range bound).countP (p 1)
            else 0 := by
    intro z
    rw [countP_flatMap_of_ite (hrow z)]
    by_cases hz : p 2 z <;> simp [hz]
  unfold gridPoints
  rw [countP_flatMap_of_ite hsheet]

/-! ## Vertices -/

/-- The vertex at a corner of a lattice. -/
def cornerVertex (side : Nat) (corner : Triple Nat) : Vertex := .ofNat (latticeIndex side corner)

theorem cornerVertex_toNat (hside : bound * bound * bound ≤ UInt32.size) (h : corner.Below bound) :
    (cornerVertex bound corner).toNat = latticeIndex bound corner :=
  UInt32.toNat_ofNat_of_lt' (Nat.lt_of_lt_of_le (latticeIndex_lt h) hside)

/-- No two corners have the same vertex. -/
theorem cornerVertex_inj (hside : bound * bound * bound ≤ UInt32.size) (h : corner.Below bound)
    (h' : corner'.Below bound) :
    cornerVertex bound corner = cornerVertex bound corner' ↔ corner = corner' := by
  rw [← latticeIndex_inj h h', ← cornerVertex_toNat hside h, ← cornerVertex_toNat hside h',
    UInt32.toNat_inj]

end CavityRepair
