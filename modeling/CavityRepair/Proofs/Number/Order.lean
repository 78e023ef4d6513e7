import Mathlib.Algebra.Order.Group.Int
import Mathlib.Data.Prod.Lex
import Mathlib.Order.Compare
/-!
# The order of doubles

Doubles other than NaN are compared as numbers: first by sign, with infinities beyond all others,
then by exponent and by mantissa, the other way round among negative ones. `rank` writes this down
as a key with a linear order, in which the two zeros have the same place.

* `lt_iff_rank_lt`, `beq_iff_rank_eq`, `le_iff_rank_le`: comparing doubles is comparing ranks.
* `float_add_comm`: the order in which two doubles are added does not matter, not even to the bits.
-/
namespace CavityRepair

open Float.Model (UnpackedFloat)

/-- The place of a double that is taken apart among the others. NaN has none of its own. -/
def unpackedRank : UnpackedFloat → ℤ ×ₗ ℤ ×ₗ ℤ
  | .infinity .negative => toLex (-2, toLex (0, 0))
  | .finite .negative mantissa exponent _ => toLex (-1, toLex (-exponent, -mantissa))
  | .zero _ | .notANumber => toLex (0, toLex (0, 0))
  | .finite .positive mantissa exponent _ => toLex (1, toLex (exponent, mantissa))
  | .infinity .positive => toLex (2, toLex (0, 0))

/-- The place of a double among the others. -/
def rank (x : Float) : ℤ ×ₗ ℤ ×ₗ ℤ := unpackedRank x.toModel.unpack

theorem compare_natCast (m n : ℕ) : compare (m : ℤ) (n : ℤ) = compare m n := by
  have hmono : StrictMono fun n : ℕ => (n : ℤ) := fun _ _ => Int.ofNat_lt.2
  rw [← cmp_eq_compare, ← cmp_eq_compare]
  exact hmono.cmp_map_eq m n

theorem compare_neg (a b : ℤ) : compare (-a) (-b) = (compare a b).swap := by
  have hanti : StrictAnti fun a : ℤ => -a := fun _ _ => Int.neg_lt_neg
  rw [← cmp_eq_compare, ← cmp_eq_compare, cmp_swap]
  exact hanti.cmp_map_eq a b

/-- Doubles that are not NaN compare as their ranks do. -/
theorem unpacked_compare_eq {a b : UnpackedFloat} (ha : a ≠ .notANumber) (hb : b ≠ .notANumber) :
    a.compare b = some (compare (unpackedRank a) (unpackedRank b)) := by
  cases a with
  | notANumber => exact absurd rfl ha
  | infinity sign =>
    cases b with
    | notANumber => exact absurd rfl hb
    | infinity sign' => cases sign <;> cases sign' <;> rfl
    | zero => cases sign <;> rfl
    | finite sign' => cases sign <;> cases sign' <;> rfl
  | zero =>
    cases b with
    | notANumber => exact absurd rfl hb
    | infinity sign' => cases sign' <;> rfl
    | zero => rfl
    | finite sign' => cases sign' <;> rfl
  | finite sign mantissa exponent =>
    cases b with
    | notANumber => exact absurd rfl hb
    | infinity sign' => cases sign <;> cases sign' <;> rfl
    | zero => cases sign <;> rfl
    | finite sign' mantissa' exponent' =>
      cases sign <;> cases sign'
      case negative.positive | positive.negative => rfl
      case negative.negative =>
        change some ((compare exponent exponent').then (compare mantissa mantissa')).swap =
          some ((compare (-exponent) (-exponent')).then
            (compare (-(mantissa : ℤ)) (-(mantissa' : ℤ))))
        rw [compare_neg, compare_neg, compare_natCast, Ordering.swap_then]
      case positive.positive =>
        change some ((compare exponent exponent').then (compare mantissa mantissa')) =
          some ((compare exponent exponent').then (compare (mantissa : ℤ) (mantissa' : ℤ)))
        rw [compare_natCast]

section

variable {x y : Float}

theorem compare_eq_rank (hx : x.isNaN = false) (hy : y.isNaN = false) :
    x.toModel.unpack.compare y.toModel.unpack = some (compare (rank x) (rank y)) := by
  have hne : ∀ {z : Float}, z.isNaN = false → z.toModel.unpack ≠ .notANumber := by
    intro z hz heq
    rw [Float.isNaN, Float.Model.isNaN, heq] at hz
    cases hz
  exact unpacked_compare_eq (hne hx) (hne hy)

theorem lt_iff_rank_lt (hx : x.isNaN = false) (hy : y.isNaN = false) :
    x < y ↔ rank x < rank y := by
  have h : x < y ↔ x.toModel.unpack.compare y.toModel.unpack = some .lt := by
    simp [LT.lt, Float.lt, Float.Model.lt, UnpackedFloat.lt]
  rw [h, compare_eq_rank hx hy, Option.some_inj, compare_lt_iff_lt]

theorem le_iff_rank_le (hx : x.isNaN = false) (hy : y.isNaN = false) :
    x ≤ y ↔ rank x ≤ rank y := by
  have h : x ≤ y ↔ (x.toModel.unpack.compare y.toModel.unpack).any (·.isLE) = true := by
    change decide (_ = true) = true ↔ _
    rw [decide_eq_true_iff]
    rfl
  rw [h, compare_eq_rank hx hy, Option.any_some, ← Ordering.ne_gt_iff_isLE]
  exact compare_le_iff_le

/-- Equality as numbers is to have the same rank. -/
theorem beq_iff_rank_eq (hx : x.isNaN = false) (hy : y.isNaN = false) :
    (x == y) = true ↔ rank x = rank y := by
  have h : (x == y) = true ↔ (x.toModel.unpack.compare y.toModel.unpack == some .eq) = true :=
    Iff.rfl
  rw [h, beq_iff_eq, compare_eq_rank hx hy, Option.some_inj, compare_eq_iff_eq]

end

theorem unpacked_add_comm (format : Float.Model.Format) (a b : UnpackedFloat) :
    a.add format b = b.add format a := by
  cases a with
  | notANumber => cases b <;> rfl
  | infinity sign =>
    cases b with
    | infinity sign' => cases sign <;> cases sign' <;> rfl
    | _ => rfl
  | zero sign =>
    cases b with
    | zero sign' => cases sign <;> cases sign' <;> rfl
    | _ => rfl
  | finite sign mantissa exponent =>
    cases b with
    | finite sign' mantissa' exponent' =>
      unfold UnpackedFloat.add
      dsimp only
      rw [min_comm exponent, Int.add_comm (sign.apply _)]
    | _ => rfl

/-- The order of the summands does not matter. -/
theorem float_add_comm (x y : Float) : x + y = y + x :=
  congrArg (fun sum => Float.ofModel (Float.Model.pack sum)) (unpacked_add_comm _ _ _)

end CavityRepair
