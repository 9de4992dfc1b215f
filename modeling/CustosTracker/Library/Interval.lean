import Mathlib.Algebra.Order.Field.Basic
import Mathlib.Order.Interval.Set.LinearOrder
import Mathlib.Tactic

set_option relaxedAutoImplicit false
set_option autoImplicit false

/-!
# Overlap of intervals, and the overlap ratio

The length two intervals have in common, each given by its start and its length, over any ordered
field; and the ratio of a common part to the whole of two quantities that share it.

## Main definitions

* `Interval.overlap` — the signed length of the common part of two intervals.
* `Interval.ratio` — the common part over the whole.

## Main results

* `Interval.overlap_pos_iff` — intervals overlap exactly when their interiors meet.
* `Interval.eq_of_le_overlap` — intervals as long as their common part are equal.
* `Interval.overlap_affine` — the effect of a common change of scale and origin.
* `Interval.ratio_pos`, `Interval.ratio_le_one`, `Interval.ratio_eq_one_iff` — the range of the
  ratio.
-/

namespace Interval

variable {R : Type} [Field R] [LinearOrder R]

/-! ## Overlap -/

/-- The length of the common part of `[a, a + l]` and `[b, b + m]`; negative when they are apart. -/
def overlap (a l b m : R) : R := min (a + l) (b + m) - max a b

theorem overlap_comm (a l b m : R) : overlap a l b m = overlap b m a l := by
  rw [overlap, overlap, min_comm, max_comm]

/-- An interval overlaps itself by its length. -/
theorem overlap_self (a l : R) : overlap a l a l = l := by
  rw [overlap, min_self, max_self, add_sub_cancel_left]

section Order

variable [IsStrictOrderedRing R]

/-- The common part is no longer than the first interval. -/
theorem overlap_le_left (a l b m : R) : overlap a l b m ≤ l := by
  have hmin := min_le_left (a + l) (b + m)
  have hmax := le_max_left a b
  rw [overlap]
  linarith

/-- The common part is no longer than the second interval. -/
theorem overlap_le_right (a l b m : R) : overlap a l b m ≤ m := by
  rw [overlap_comm]
  exact overlap_le_left b m a l

/-- Intervals overlap exactly when their interiors meet. -/
theorem overlap_pos_iff (a l b m : R) :
    0 < overlap a l b m ↔ (Set.Ioo a (a + l) ∩ Set.Ioo b (b + m)).Nonempty := by
  rw [Set.Ioo_inter_Ioo, Set.nonempty_Ioo, overlap, sub_pos]

/-- Intervals that end before the other starts do not overlap. -/
theorem overlap_nonpos {a l b m : R} (h : a + l ≤ b) : overlap a l b m ≤ 0 := by
  rw [overlap, sub_nonpos]
  exact (min_le_left _ _).trans (h.trans (le_max_right _ _))

/-- Intervals no longer than their common part are the same. -/
theorem eq_of_le_overlap {a l b m : R} (hl : l ≤ overlap a l b m) (hm : m ≤ overlap a l b m) :
    a = b ∧ l = m := by
  have hlen : l = m :=
    le_antisymm (hl.trans (overlap_le_right a l b m)) (hm.trans (overlap_le_left a l b m))
  subst hlen
  rw [overlap] at hl
  have hend := min_le_left (a + l) (b + l)
  have hend' := min_le_right (a + l) (b + l)
  have hstart := le_max_left a b
  have hstart' := le_max_right a b
  exact ⟨by linarith, rfl⟩

/-- A part no longer and no wider than a rectangle, but as large, is as long and as wide. -/
theorem le_of_mul_le {w h w' h' : R} (hw : 0 < w) (hw' : w' ≤ w) (hh' : h' ≤ h) (hpos : 0 < h')
    (harea : w * h ≤ w' * h') : w ≤ w' ∧ h ≤ h' := by
  constructor
  · by_contra hlt
    have hcut : w' * h' < w * h' := mul_lt_mul_of_pos_right (not_le.mp hlt) hpos
    have hrest : w * h' ≤ w * h := mul_le_mul_of_nonneg_left hh' hw.le
    linarith
  · by_contra hlt
    have hcut : w * h' < w * h := mul_lt_mul_of_pos_left (not_le.mp hlt) hw
    have hrest : w' * h' ≤ w * h' := mul_le_mul_of_nonneg_right hw' hpos.le
    linarith

/-- Overlap under a common change of scale and origin. -/
theorem overlap_affine {s : R} (hs : 0 ≤ s) (c a l b m : R) :
    overlap (a * s + c) (l * s) (b * s + c) (m * s) = overlap a l b m * s := by
  have hend : ∀ x y : R, x * s + c + y * s = (x + y) * s + c := by
    intro x y
    ring
  rw [overlap, hend, hend, min_add_add_right, max_add_add_right, ← min_mul_of_nonneg _ _ hs,
    ← max_mul_of_nonneg _ _ hs, overlap]
  ring

end Order

/-! ## The overlap ratio -/

/-- The common part `i` of the quantities `p` and `q` over the whole of the two. -/
def ratio (i p q : R) : R := i / (p + q - i)

section Ratio

variable [IsStrictOrderedRing R] {i p q : R}

/-- The whole is positive when the common part is. -/
theorem whole_pos (hi : 0 < i) (hp : i ≤ p) (hq : i ≤ q) : 0 < p + q - i := by
  linarith

theorem ratio_pos (hi : 0 < i) (hp : i ≤ p) (hq : i ≤ q) : 0 < ratio i p q :=
  div_pos hi (whole_pos hi hp hq)

theorem ratio_le_one (hi : 0 < i) (hp : i ≤ p) (hq : i ≤ q) : ratio i p q ≤ 1 := by
  rw [ratio, div_le_one (whole_pos hi hp hq)]
  linarith

/-- The ratio is one exactly when both quantities are the common part. -/
theorem ratio_eq_one_iff (hi : 0 < i) (hp : i ≤ p) (hq : i ≤ q) :
    ratio i p q = 1 ↔ p = i ∧ q = i := by
  rw [ratio, div_eq_one_iff_eq (whole_pos hi hp hq).ne']
  constructor
  · intro h
    exact ⟨by linarith, by linarith⟩
  · rintro ⟨rfl, rfl⟩
    ring

omit [LinearOrder R] [IsStrictOrderedRing R] in
/-- The ratio does not depend on the unit. -/
theorem ratio_mul_right {c : R} (hc : c ≠ 0) : ratio (i * c) (p * c) (q * c) = ratio i p q := by
  rw [ratio, ← add_mul, ← sub_mul, mul_div_mul_right _ _ hc, ratio]

end Ratio

end Interval
