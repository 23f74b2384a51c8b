import Mathlib.Algebra.Order.Group.Unbundled.Int
import Mathlib.Data.Prod.Lex
import Mathlib.Order.Monotone.Basic

/-!
# The order of floats

Floats that are numbers are in the order of their places: the class of the float first (the
infinities, the negative numbers, the zeros, the positive numbers), then its exponent, then its
mantissa. So between numbers `≤` is total and transitive, and a float that is less than another one is
a number.
-/

namespace SourceIndex

namespace FloatOrder

open Float.Model (UnpackedFloat)

/-! ## Places -/

/-- The place of a float in the order. The zeros share one place; what is not a number has a place
below all others, which no comparison sees. -/
def placeOf : UnpackedFloat → ℤ ×ₗ ℤ ×ₗ ℤ
  | .notANumber => toLex (-3, toLex (0, 0))
  | .infinity .negative => toLex (-2, toLex (0, 0))
  | .finite .negative mantissa exponent _ => toLex (-1, toLex (-exponent, -mantissa))
  | .zero _ => toLex (0, toLex (0, 0))
  | .finite .positive mantissa exponent _ => toLex (1, toLex (exponent, mantissa))
  | .infinity .positive => toLex (2, toLex (0, 0))

/-- Negation turns the order of integers around. -/
theorem compare_neg (a b : ℤ) : compare (-a) (-b) = (compare a b).swap := by
  rcases lt_trichotomy a b with h | rfl | h
  · rw [compare_lt_iff_lt.mpr h, compare_gt_iff_gt.mpr (Int.neg_lt_neg h)]
    rfl
  · rw [compare_eq_iff_eq.mpr rfl, compare_eq_iff_eq.mpr rfl]
    rfl
  · rw [compare_gt_iff_gt.mpr h, compare_lt_iff_lt.mpr (Int.neg_lt_neg h)]
    rfl

/-- Natural numbers compare as the integers that they are. -/
theorem compare_natCast (m n : ℕ) : compare (m : ℤ) (n : ℤ) = compare m n := by
  rw [← cmp_eq_compare, ← cmp_eq_compare]
  exact Int.natCast_strictMono.cmp_map_eq m n

/-- Numbers compare as their places do. -/
theorem compare_eq_compare_placeOf {a b : UnpackedFloat} (ha : a ≠ .notANumber)
    (hb : b ≠ .notANumber) : a.compare b = some (compare (placeOf a) (placeOf b)) := by
  -- only finite numbers of one sign are not told apart by their classes
  rcases a with (_ | _) | _ | _ | ⟨_ | _, m, e, _⟩ <;>
    rcases b with (_ | _) | _ | _ | ⟨_ | _, n, f, _⟩
  all_goals first | exact absurd rfl ha | exact absurd rfl hb | rfl | skip
  case finite.negative.finite.negative =>
    show some ((compare e f).then (compare m n)).swap =
      some ((compare (-e) (-f)).then (compare (-m : ℤ) (-n : ℤ)))
    rw [compare_neg, compare_neg, compare_natCast, Ordering.swap_then]
  case finite.positive.finite.positive =>
    show some ((compare e f).then (compare m n)) =
      some ((compare e f).then (compare (m : ℤ) (n : ℤ)))
    rw [compare_natCast]

/-! ## Comparisons -/

/-- The place of a float in the order. -/
def place (x : Float) : ℤ ×ₗ ℤ ×ₗ ℤ :=
  placeOf x.toModel.unpack

theorem unpack_ne_notANumber {x : Float} (h : x.isNaN = false) :
    x.toModel.unpack ≠ .notANumber := by
  intro hnan
  have hmodel : x.toModel.unpack.isNaN = false := h
  rw [hnan] at hmodel
  cases hmodel

/-- Numbers are in the order of their places. -/
theorem le_iff_place_le {x y : Float} (hx : x.isNaN = false) (hy : y.isNaN = false) :
    x ≤ y ↔ place x ≤ place y := by
  have hcompare := compare_eq_compare_placeOf (unpack_ne_notANumber hx) (unpack_ne_notANumber hy)
  refine decide_eq_true_iff.trans ?_
  show (x.toModel.unpack.compare y.toModel.unpack).any (·.isLE) = true ↔ _
  rw [hcompare, Option.any_some, Ordering.isLE_iff_ne_gt]
  exact compare_le_iff_le

/-- What is less than something is a number, and so is what it is less than. -/
theorem isNaN_eq_false_of_lt {x y : Float} (h : x < y) : x.isNaN = false ∧ y.isNaN = false := by
  have hlt : (x.toModel.unpack.compare y.toModel.unpack == some .lt) = true :=
    of_decide_eq_true h
  show x.toModel.unpack.isNaN = false ∧ y.toModel.unpack.isNaN = false
  generalize x.toModel.unpack = a at hlt
  generalize y.toModel.unpack = b at hlt
  cases a with
  | notANumber => cases hlt
  | _ =>
    cases b with
    | notANumber => cases hlt
    | _ => exact ⟨rfl, rfl⟩

end FloatOrder

end SourceIndex
