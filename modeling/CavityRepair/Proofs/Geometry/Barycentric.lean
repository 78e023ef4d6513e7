import Mathlib.Tactic.FieldSimp
import Mathlib.Tactic.LinearCombination
import CavityRepair.Proofs.Geometry.Determinant
/-!
# Weights at corners

A position is combined from the corners of a tetrahedron by weights that add up to one. If the
tetrahedron is not flat there is one way to do so: the weight of a corner is the determinant of the
position with the facet that leaves this corner out, divided by that of the corner itself
(`weights`). So a condition that weights have to meet is a condition on four determinants
(`exists_weights_iff`). For a negatively oriented tetrahedron these have the signs of the weights
(`exists_nonneg_weights_iff`, `exists_pos_weights_iff`).
-/
namespace CavityRepair

/-- The sum of the values at all slots. -/
def Quad.total (w : Quad Rat) : Rat := w.s0 + w.s1 + w.s2 + w.s3

/-- The position that weights at the corners give. -/
def combine (w : Quad Rat) (q : Quad Position) : Position where
  x := w.s0 * q.s0.x + w.s1 * q.s1.x + w.s2 * q.s2.x + w.s3 * q.s3.x
  y := w.s0 * q.s0.y + w.s1 * q.s1.y + w.s2 * q.s2.y + w.s3 * q.s3.y
  z := w.s0 * q.s0.z + w.s1 * q.s1.z + w.s2 * q.s2.z + w.s3 * q.s3.z

/-- The weight that a position has at a corner. -/
def weight (q : Quad Position) (p : Position) (i : Slot) : Rat :=
  detFrom p (q.triangle i) / -detOf q

/-- The weights that a position has at the corners. -/
def weights (q : Quad Position) (p : Position) : Quad Rat :=
  ⟨weight q p 0, weight q p 1, weight q p 2, weight q p 3⟩

variable {q : Quad Position} {p : Position}

theorem get_weights (i : Slot) : (weights q p).get i = weight q p i := by
  rcases slot_cases i with rfl | rfl | rfl | rfl <;> rfl

/-! ## From weights to determinants -/

/-- The determinant with a triangle is affine in the position. -/
theorem detFrom_combine {w : Quad Rat} (hw : w.total = 1) (q : Quad Position)
    (t : Triple Position) : detFrom (combine w q) t =
      w.s0 * detFrom (q.get 0) t + w.s1 * detFrom (q.get 1) t + w.s2 * detFrom (q.get 2) t +
        w.s3 * detFrom (q.get 3) t := by
  have hlast : w.s3 = 1 - w.s0 - w.s1 - w.s2 := by
    rw [← hw, Quad.total]
    ring
  simp only [detFrom, det, combine, Quad.get, hlast]
  ring

/-- A corner of a facet lies in its plane. -/
theorem detFrom_of_ne {i : Slot} {f : Facet} (h : i ≠ f) (q : Quad Position) :
    detFrom (q.get i) (q.triangle f) = 0 := by
  have hcorner : f.slots.c0 = i ∨ f.slots.c1 = i ∨ f.slots.c2 = i := by
    revert i f
    decide
  unfold Quad.triangle
  rcases hcorner with rfl | rfl | rfl <;> simp only [Triple.map, detFrom, det] <;> ring

/-- The determinant with a facet is that of the corner which the facet leaves out, times its
weight. -/
theorem detFrom_combine_triangle {w : Quad Rat} (hw : w.total = 1) (q : Quad Position) (f : Facet) :
    detFrom (combine w q) (q.triangle f) = w.get f * -detOf q := by
  have hzero : ∀ i, i ≠ f → detFrom (q.get i) (q.triangle f) = 0 := fun i h => detFrom_of_ne h q
  rw [detFrom_combine hw, ← det_facet q f]
  rcases slot_cases f with rfl | rfl | rfl | rfl
  · rw [hzero 1 (by decide), hzero 2 (by decide), hzero 3 (by decide)]
    simp [Quad.get]
  · rw [hzero 0 (by decide), hzero 2 (by decide), hzero 3 (by decide)]
    simp [Quad.get]
  · rw [hzero 0 (by decide), hzero 1 (by decide), hzero 3 (by decide)]
    simp [Quad.get]
  · rw [hzero 0 (by decide), hzero 1 (by decide), hzero 2 (by decide)]
    simp [Quad.get]

/-- Weights that add up to one are those of the position they give. -/
theorem weight_combine (hq : detOf q ≠ 0) {w : Quad Rat} (hw : w.total = 1) (i : Slot) :
    weight q (combine w q) i = w.get i := by
  rw [weight, detFrom_combine_triangle hw, mul_div_cancel_right₀ _ (neg_ne_zero.2 hq)]

/-! ## From determinants to weights -/

theorem total_weights (hq : detOf q ≠ 0) (p : Position) : (weights q p).total = 1 := by
  have hsum := sum_det_facets p q
  simp only [facets, List.map_cons, List.map_nil, List.sum_cons, List.sum_nil, add_zero] at hsum
  simp only [Quad.total, weights, weight]
  rw [← add_div, ← add_div, ← add_div, div_eq_one_iff_eq (neg_ne_zero.2 hq)]
  linear_combination hsum

/-- A position is what its weights give. -/
theorem combine_weights (hq : detOf q ≠ 0) (p : Position) : combine (weights q p) q = p := by
  have hne : -detOf q ≠ 0 := neg_ne_zero.2 hq
  obtain ⟨x, y, z⟩ := p
  simp only [combine, weights, weight, Position.mk.injEq]
  refine ⟨?_, ?_, ?_⟩ <;> field_simp <;>
    simp only [Quad.triangle_zero, Quad.triangle_one, Quad.triangle_two, Quad.triangle_three,
      detFrom, detOf, det] <;> ring

/-! ## Conditions on weights -/

/-- Weights that meet a condition give a position if and only if its own weights meet it. -/
theorem exists_weights_iff (hq : detOf q ≠ 0) (good : Rat → Prop) :
    (∃ w : Quad Rat, (∀ i, good (w.get i)) ∧ w.total = 1 ∧ combine w q = p) ↔
      ∀ i, good (weight q p i) := by
  constructor
  · intro ⟨w, hgood, htotal, hcombine⟩ i
    rw [← hcombine, weight_combine hq htotal]
    exact hgood i
  · intro hgood
    exact ⟨weights q p, fun i => get_weights i ▸ hgood i, total_weights hq p, combine_weights hq p⟩

variable (hneg : detOf q < 0)

include hneg

/-- Nonnegative weights give the positions that lie behind no facet. -/
theorem exists_nonneg_weights_iff :
    (∃ w : Quad Rat, (∀ i, 0 ≤ w.get i) ∧ w.total = 1 ∧ combine w q = p) ↔
      ∀ f, 0 ≤ detFrom p (q.triangle f) := by
  rw [exists_weights_iff hneg.ne]
  refine forall_congr' fun f => ?_
  rw [weight, le_div_iff₀ (neg_pos.2 hneg), zero_mul]

/-- Positive weights give the positions that lie before every facet. -/
theorem exists_pos_weights_iff :
    (∃ w : Quad Rat, (∀ i, 0 < w.get i) ∧ w.total = 1 ∧ combine w q = p) ↔
      ∀ f, 0 < detFrom p (q.triangle f) := by
  rw [exists_weights_iff hneg.ne]
  refine forall_congr' fun f => ?_
  rw [weight, lt_div_iff₀ (neg_pos.2 hneg), zero_mul]

end CavityRepair
