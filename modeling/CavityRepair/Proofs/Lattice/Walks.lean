import CavityRepair.Proofs.Lattice.Grid
import CavityRepair.Proofs.Mesh.Triangles
/-!
# Walks along the axes

The tetrahedra of a lattice are walks: from a corner, one step along each axis in some order. The
height of a corner, the sum of its coordinates, grows by one with each step, so three corners of a
walk are known in order from the set of them, and which slot they leave out can be read off their
heights up to one case. That is why two walks have a facet in common in three ways only
(`Walk.eq_or_joined`): one goes on where the other began, they exchange their first two steps, or
they exchange their last two.
-/
namespace CavityRepair

/-! ## Orders -/

theorem mem_axisOrders {order : Triple Axis} : order ∈ axisOrders ↔ order.toList.Nodup := by
  obtain ⟨a, b, c⟩ := order
  revert a b c
  decide

/-- The first two axes of an order leave one for the third. -/
theorem axisOrder_eq {order order' : Triple Axis} (h : order ∈ axisOrders)
    (h' : order' ∈ axisOrders) (h0 : order'.c0 = order.c0) (h1 : order'.c1 = order.c1) :
    order' = order := by
  have htable : ∀ order ∈ axisOrders, ∀ order' ∈ axisOrders,
      order'.c0 = order.c0 → order'.c1 = order.c1 → order' = order := by decide
  exact htable _ h _ h' h0 h1

/-- The last two axes of an order leave one for the first. -/
theorem axisOrder_eq_of_last {order order' : Triple Axis} (h : order ∈ axisOrders)
    (h' : order' ∈ axisOrders) (h1 : order'.c1 = order.c1) (h2 : order'.c2 = order.c2) :
    order' = order := by
  have htable : ∀ order ∈ axisOrders, ∀ order' ∈ axisOrders,
      order'.c1 = order.c1 → order'.c2 = order.c2 → order' = order := by decide
  exact htable _ h _ h' h1 h2

/-- An order has every axis once. -/
theorem axisOrder_cases {order : Triple Axis} (h : order ∈ axisOrders) (axis : Axis) :
    (axis = order.c0 ∧ axis ≠ order.c1 ∧ axis ≠ order.c2) ∨
      (axis ≠ order.c0 ∧ axis = order.c1 ∧ axis ≠ order.c2) ∨
      (axis ≠ order.c0 ∧ axis ≠ order.c1 ∧ axis = order.c2) := by
  have htable : ∀ order ∈ axisOrders, ∀ axis : Axis,
      (axis = order.c0 ∧ axis ≠ order.c1 ∧ axis ≠ order.c2) ∨
        (axis ≠ order.c0 ∧ axis = order.c1 ∧ axis ≠ order.c2) ∨
        (axis ≠ order.c0 ∧ axis ≠ order.c1 ∧ axis = order.c2) := by decide
  exact htable _ h axis

theorem rotate_mem_axisOrders {a b c : Axis} (h : ⟨a, b, c⟩ ∈ axisOrders) :
    ⟨b, c, a⟩ ∈ axisOrders := by
  revert a b c
  decide

/-- Two steps from the same corner to the same corner are along the same axes. -/
theorem stepAlong_stepAlong_inj {corner : Triple Nat} {a b a' b' : Axis} :
    stepAlong (stepAlong corner a) b = stepAlong (stepAlong corner a') b' ↔
      (a = a' ∧ b = b') ∨ (a = b' ∧ b = a') := by
  constructor
  · intro h
    have hcount : ∀ axis : Axis, (if axis = a then 1 else 0) + (if axis = b then 1 else 0) =
        (if axis = a' then 1 else 0) + if axis = b' then 1 else 0 := by
      intro axis
      have := congrArg (·.get axis) h
      simp only [get_stepAlong] at this
      omega
    clear h
    revert a b a' b'
    decide
  · rintro (⟨rfl, rfl⟩ | ⟨rfl, rfl⟩)
    · rfl
    · exact stepAlong_comm corner a b

/-! ## Walks -/

/-- A walk from a corner along the axes in some order. -/
structure Walk where
  origin : Triple Nat
  order : Triple Axis
  deriving DecidableEq

namespace Walk

/-- The corners that a walk meets. -/
def corners (w : Walk) : Quad (Triple Nat) := walkCorners w.origin w.order

/-- The corners of a facet, in the order in which the walk meets them. -/
def side (w : Walk) : Facet → Triple (Triple Nat)
  | 0 => ⟨w.corners.s1, w.corners.s2, w.corners.s3⟩
  | 1 => ⟨w.corners.s0, w.corners.s2, w.corners.s3⟩
  | 2 => ⟨w.corners.s0, w.corners.s1, w.corners.s3⟩
  | 3 => ⟨w.corners.s0, w.corners.s1, w.corners.s2⟩

/-- The walk that leaves out the first step and takes it after the last one. -/
def onward (w : Walk) : Walk :=
  ⟨stepAlong w.origin w.order.c0, ⟨w.order.c1, w.order.c2, w.order.c0⟩⟩

/-- The walk with the first two steps exchanged. -/
def swapFirst (w : Walk) : Walk := ⟨w.origin, ⟨w.order.c1, w.order.c0, w.order.c2⟩⟩

/-- The walk with the last two steps exchanged. -/
def swapLast (w : Walk) : Walk := ⟨w.origin, ⟨w.order.c0, w.order.c2, w.order.c1⟩⟩

/-- Facets of two walks that are the two sides of one triangle. -/
def Joined (w : Walk) (f : Facet) (w' : Walk) (f' : Facet) : Prop :=
  (f = 0 ∧ f' = 3 ∧ w' = w.onward) ∨ (f = 3 ∧ f' = 0 ∧ w = w'.onward) ∨
    (f = 1 ∧ f' = 1 ∧ w' = w.swapFirst) ∨ (f = 2 ∧ f' = 2 ∧ w' = w.swapLast)

theorem joined_onward (w : Walk) : Joined w 0 w.onward 3 := .inl ⟨rfl, rfl, rfl⟩

theorem onward_joined (w : Walk) : Joined w.onward 3 w 0 := .inr (.inl ⟨rfl, rfl, rfl⟩)

theorem joined_swapFirst (w : Walk) : Joined w 1 w.swapFirst 1 :=
  .inr (.inr (.inl ⟨rfl, rfl, rfl⟩))

theorem joined_swapLast (w : Walk) : Joined w 2 w.swapLast 2 :=
  .inr (.inr (.inr ⟨rfl, rfl, rfl⟩))

variable {w w' w'' : Walk} {f f' f'' : Facet}

theorem height_corners (w : Walk) (i : Slot) :
    height (w.corners.get i) = height w.origin + i := by
  fin_cases i <;> simp [corners, walkCorners, Quad.get, height_stepAlong]

theorem corners_inj {i j : Slot} : w.corners.get i = w.corners.get j ↔ i = j := by
  constructor
  · intro h
    have := congrArg height h
    rw [height_corners, height_corners] at this
    exact Fin.ext (by omega)
  · rintro rfl
    rfl

theorem corners_nodup (w : Walk) : w.corners.toList.Nodup := by
  have hget : w.corners.toList = facets.map w.corners.get := rfl
  rw [hget]
  exact List.Nodup.map (fun _ _ => corners_inj.1) (by decide)

theorem side_perm (w : Walk) (f : Facet) :
    (w.side f).toList.Perm (w.corners.triangle f).toList := by
  fin_cases f
  · exact .swap _ _ _
  · exact .refl _
  · exact .swap _ _ _
  · exact .refl _

theorem mem_side {corner : Triple Nat} :
    corner ∈ (w.side f).toList ↔ ∃ i, i ≠ f ∧ w.corners.get i = corner := by
  rw [(w.side_perm f).mem_iff, Quad.mem_triangle]

/-- A walk climbs. -/
theorem side_pairwise (w : Walk) (f : Facet) :
    (w.side f).toList.Pairwise (height · < height ·) := by
  have h0 := w.height_corners 0
  have h1 := w.height_corners 1
  have h2 := w.height_corners 2
  have h3 := w.height_corners 3
  simp only [Quad.get] at h0 h1 h2 h3
  fin_cases f <;> simp [side, Triple.toList, h0, h1, h2, h3]

theorem side_nodup (w : Walk) (f : Facet) : (w.side f).toList.Nodup :=
  (w.side_pairwise f).imp fun hlt heq => absurd (congrArg height heq) hlt.ne

/-- Facets with the same corners have them in the same order. -/
theorem side_eq_of_mem (h : ∀ corner, corner ∈ (w'.side f').toList ↔ corner ∈ (w.side f).toList) :
    w'.side f' = w.side f := by
  have hperm := (List.perm_ext_iff_of_nodup (w'.side_nodup f') (w.side_nodup f)).2 h
  refine Triple.toList_inj.1 (hperm.eq_of_pairwise ?_ (w'.side_pairwise f') (w.side_pairwise f))
  intro a b _ _ hab hba
  exact absurd hab hba.asymm

/-- The heights of three corners of a walk tell which one they leave out, but for the first and the
last. -/
theorem facet_of_side (h : w'.side f' = w.side f) :
    f' = f ∨ (f = 0 ∧ f' = 3) ∨ (f = 3 ∧ f' = 0) := by
  have hheights : ∀ v : Walk, height v.corners.s0 = height v.origin ∧
      height v.corners.s1 = height v.origin + 1 ∧ height v.corners.s2 = height v.origin + 2 ∧
      height v.corners.s3 = height v.origin + 3 := fun v =>
    ⟨v.height_corners 0, v.height_corners 1, v.height_corners 2, v.height_corners 3⟩
  obtain ⟨h0, h1, h2, h3⟩ := hheights w
  obtain ⟨h0', h1', h2', h3'⟩ := hheights w'
  have e0 := congrArg (fun t => height t.c0) h
  have e1 := congrArg (fun t => height t.c1) h
  have e2 := congrArg (fun t => height t.c2) h
  fin_cases f <;> fin_cases f' <;> simp only [side] at e0 e1 e2 <;> first | decide | omega

theorem Joined.side_eq (h : Joined w f w' f') : w'.side f' = w.side f := by
  rcases h with ⟨rfl, rfl, rfl⟩ | ⟨rfl, rfl, rfl⟩ | ⟨rfl, rfl, rfl⟩ | ⟨rfl, rfl, rfl⟩
  · rfl
  · rfl
  · simp only [side, swapFirst, corners, walkCorners, stepAlong_comm w.origin w.order.c0]
  · simp only [side, swapLast, corners, walkCorners,
      stepAlong_comm (stepAlong w.origin w.order.c0) w.order.c1]

section

variable (hw : w.order ∈ axisOrders) (hw' : w'.order ∈ axisOrders)

include hw hw'

theorem eq_of_side_zero (h : w'.side 0 = w.side 0) : w' = w := by
  obtain ⟨o, a, b, c⟩ := w
  obtain ⟨o', a', b', c'⟩ := w'
  simp only [side, corners, walkCorners, Triple.mk.injEq] at h
  obtain ⟨h1, h2, h3⟩ := h
  rw [h2, stepAlong_axis_inj] at h3
  rw [h1, stepAlong_axis_inj] at h2
  obtain ⟨⟩ := axisOrder_eq_of_last hw hw' h2 h3
  rw [stepAlong_inj.1 h1]

theorem eq_or_swapFirst (h : w'.side 1 = w.side 1) : w' = w ∨ w' = w.swapFirst := by
  obtain ⟨o, a, b, c⟩ := w
  obtain ⟨o', a', b', c'⟩ := w'
  simp only [side, corners, walkCorners, Triple.mk.injEq] at h
  obtain ⟨rfl, h2, h3⟩ := h
  rw [h2, stepAlong_axis_inj] at h3
  obtain rfl := h3
  rcases stepAlong_stepAlong_inj.1 h2 with ⟨rfl, rfl⟩ | ⟨rfl, rfl⟩
  · exact .inl rfl
  · exact .inr rfl

theorem eq_or_swapLast (h : w'.side 2 = w.side 2) : w' = w ∨ w' = w.swapLast := by
  obtain ⟨o, a, b, c⟩ := w
  obtain ⟨o', a', b', c'⟩ := w'
  simp only [side, corners, walkCorners, Triple.mk.injEq] at h
  obtain ⟨rfl, h1, h3⟩ := h
  obtain rfl := stepAlong_axis_inj.1 h1
  rcases stepAlong_stepAlong_inj.1 h3 with ⟨rfl, rfl⟩ | ⟨rfl, rfl⟩
  · exact .inl rfl
  · exact .inr rfl

theorem eq_of_side_three (h : w'.side 3 = w.side 3) : w' = w := by
  obtain ⟨o, a, b, c⟩ := w
  obtain ⟨o', a', b', c'⟩ := w'
  simp only [side, corners, walkCorners, Triple.mk.injEq] at h
  obtain ⟨rfl, h1, h2⟩ := h
  rw [h1, stepAlong_axis_inj] at h2
  obtain ⟨⟩ := axisOrder_eq hw hw' (stepAlong_axis_inj.1 h1) h2
  rfl

theorem eq_onward (h : w'.side 3 = w.side 0) : w' = w.onward := by
  obtain ⟨o, a, b, c⟩ := w
  obtain ⟨o', a', b', c'⟩ := w'
  simp only [side, corners, walkCorners, Triple.mk.injEq] at h
  obtain ⟨rfl, h1, h2⟩ := h
  rw [h1, stepAlong_axis_inj] at h2
  obtain ⟨⟩ := axisOrder_eq (rotate_mem_axisOrders hw) hw' (stepAlong_axis_inj.1 h1) h2
  rfl

/-- Two walks with a facet in common are the same or joined there. -/
theorem eq_or_joined (h : w'.side f' = w.side f) : (w' = w ∧ f' = f) ∨ Joined w f w' f' := by
  rcases facet_of_side h with rfl | ⟨rfl, rfl⟩ | ⟨rfl, rfl⟩
  · fin_cases f'
    · exact .inl ⟨eq_of_side_zero hw hw' h, rfl⟩
    · exact (eq_or_swapFirst hw hw' h).imp (⟨·, rfl⟩) fun h => .inr (.inr (.inl ⟨rfl, rfl, h⟩))
    · exact (eq_or_swapLast hw hw' h).imp (⟨·, rfl⟩) fun h => .inr (.inr (.inr ⟨rfl, rfl, h⟩))
    · exact .inl ⟨eq_of_side_three hw hw' h, rfl⟩
  · exact .inr (.inl ⟨rfl, rfl, eq_onward hw hw' h⟩)
  · exact .inr (.inr (.inl ⟨rfl, rfl, eq_onward hw' hw h.symm⟩))

end

theorem onward_inj : w.onward = w'.onward ↔ w = w' := by
  constructor
  · intro h
    obtain ⟨o, ⟨a, b, c⟩⟩ := w
    obtain ⟨o', ⟨a', b', c'⟩⟩ := w'
    simp only [onward, mk.injEq, Triple.mk.injEq] at h
    obtain ⟨horigin, rfl, rfl, rfl⟩ := h
    rw [stepAlong_inj.1 horigin]
  · rintro rfl
    rfl

/-- On the other side of a facet there is one walk. -/
theorem Joined.unique (h : Joined w f w' f') (h' : Joined w f w'' f'') : w'' = w' := by
  rcases h with ⟨rfl, -, rfl⟩ | ⟨rfl, -, h⟩ | ⟨rfl, -, rfl⟩ | ⟨rfl, -, rfl⟩ <;>
    rcases h' with ⟨hf, -, h'⟩ | ⟨hf, -, h'⟩ | ⟨hf, -, h'⟩ | ⟨hf, -, h'⟩ <;>
    first
      | exact h'
      | exact onward_inj.1 (h'.symm.trans h)
      | exact absurd hf (by decide)

/-- A walk is not joined to itself. -/
theorem Joined.ne (h : Joined w f w' f') (hw : w.order ∈ axisOrders) : w' ≠ w := by
  obtain ⟨o, a, b, c⟩ := w
  rw [mem_axisOrders] at hw
  rintro rfl
  rcases h with ⟨-, -, h⟩ | ⟨-, -, h⟩ | ⟨-, -, h⟩ | ⟨-, -, h⟩ <;>
    simp_all [onward, swapFirst, swapLast, Triple.toList]

/-! ## Walks in a lattice -/

/-- A walk through one of the cubes of a lattice, along every axis once. -/
structure Inside (cells : Nat) (w : Walk) : Prop where
  order : w.order ∈ axisOrders
  below : w.origin.Below cells

/-- The first three corners of a walk are a tile, half of a square of the lattice. The square may be
the last one along the third axis. -/
structure Tile (cells : Nat) (w : Walk) : Prop where
  order : w.order ∈ axisOrders
  first : w.origin.get w.order.c0 < cells
  second : w.origin.get w.order.c1 < cells
  third : w.origin.get w.order.c2 ≤ cells

variable {cells : Nat}

theorem inside_iff : w.Inside cells ↔ w.Tile cells ∧ w.origin.get w.order.c2 < cells := by
  constructor
  · rintro ⟨horder, hbelow⟩
    exact ⟨⟨horder, hbelow _, hbelow _, (hbelow _).le⟩, hbelow _⟩
  · rintro ⟨⟨horder, h0, h1, -⟩, h2⟩
    refine ⟨horder, fun axis => ?_⟩
    rcases axisOrder_cases horder axis with ⟨rfl, -⟩ | ⟨-, rfl, -⟩ | ⟨-, -, rfl⟩
    exacts [h0, h1, h2]

theorem Inside.tile (h : w.Inside cells) : w.Tile cells := (inside_iff.1 h).1

theorem Tile.below (h : w.Tile cells) {corner : Triple Nat} (hcorner : corner ∈ (w.side 3).toList) :
    corner.Below (cells + 1) := by
  obtain ⟨horder, h0, h1, h2⟩ := h
  intro axis
  have haxis := axisOrder_cases horder axis
  simp only [side, corners, walkCorners, Triple.toList, List.mem_cons, List.not_mem_nil,
    or_false] at hcorner
  rcases hcorner with rfl | rfl | rfl <;> grind [get_stepAlong]

theorem Inside.below_corners (h : w.Inside cells) {corner : Triple Nat}
    (hcorner : corner ∈ w.corners.toList) : corner.Below (cells + 1) := by
  obtain ⟨horder, hbelow⟩ := h
  intro axis
  have haxis := axisOrder_cases horder axis
  have hlt := hbelow axis
  simp only [corners, walkCorners, Quad.toList, List.mem_cons, List.not_mem_nil,
    or_false] at hcorner
  rcases hcorner with rfl | rfl | rfl | rfl <;> grind [get_stepAlong]

theorem Inside.swapFirst (h : w.Inside cells) : w.swapFirst.Inside cells := by
  refine ⟨?_, h.below⟩
  have := h.order
  rw [mem_axisOrders] at this ⊢
  exact (List.Perm.swap _ _ _).nodup_iff.1 this

theorem Inside.swapLast (h : w.Inside cells) : w.swapLast.Inside cells := by
  refine ⟨?_, h.below⟩
  have := h.order
  rw [mem_axisOrders] at this ⊢
  exact (List.Perm.cons _ (List.Perm.swap _ _ _)).nodup_iff.1 this

/-- The walk onward has its tile in the lattice, and not at its beginning. -/
theorem Inside.onward (h : w.Inside cells) :
    w.onward.Tile cells ∧ w.onward.origin.get w.onward.order.c2 ≠ 0 := by
  obtain ⟨horder, hbelow⟩ := h
  have h0 := hbelow w.order.c0
  have h1 := hbelow w.order.c1
  have h2 := hbelow w.order.c2
  have haxis := axisOrder_cases horder w.order.c0
  refine ⟨⟨rotate_mem_axisOrders horder, ?_, ?_, ?_⟩, ?_⟩ <;>
    simp only [Walk.onward, get_stepAlong] <;> grind

/-- A tile that is not at the beginning of the lattice is reached by a walk from before it. -/
theorem Tile.exists_onward (h : w.Tile cells) (hne : w.origin.get w.order.c2 ≠ 0) :
    ∃ v : Walk, v.Inside cells ∧ w = v.onward := by
  obtain ⟨o, a, b, c⟩ := w
  obtain ⟨horder, h0, h1, h2⟩ := h
  refine ⟨⟨stepBack o c, ⟨c, a, b⟩⟩, ⟨rotate_mem_axisOrders (rotate_mem_axisOrders horder), ?_⟩, ?_⟩
  · intro axis
    have haxis := axisOrder_cases horder axis
    simp only [get_stepBack] at h0 h1 h2 hne haxis ⊢
    grind
  · simp only [Walk.onward, stepAlong_stepBack hne]

end Walk

end CavityRepair
