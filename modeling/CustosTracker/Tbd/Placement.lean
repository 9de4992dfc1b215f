import CustosTracker.Common.Subwindow
import CustosTracker.Tbd.Yolov8

set_option relaxedAutoImplicit false
set_option autoImplicit false

/-!
# Placement on the canvas

`Yolov8Detector::detect` of `core/src/tbd/yolov8.cpp` draws a frame into a whole number of pixels of
a square canvas, while boxes are mapped back with the exact scale of the letterbox map.

## Main definitions

* `Ctrk.placed`, `Ctrk.fittedRect` — where a frame is drawn.

## Main results

* `Ctrk.fittedRect_agrees` — drawing and mapping back differ by less than a pixel.
-/

namespace Ctrk

variable {R : Type} [Scalar R]

/-! ## Placement -/

/-- The rectangle of a frame scaled to `nw` by `nh` pixels. -/
def placed (inputSize nw nh : ℤ) : Rect :=
  ⟨(inputSize - nw).tdiv 2, (inputSize - nh).tdiv 2, nw, nh⟩

/-- The rectangle `detect` draws a frame into. -/
def fittedRect (R : Type) [Scalar R] (cols rows inputSize : ℤ) : Rect :=
  let map : LetterboxMap R := letterboxMap cols rows inputSize inputSize
  placed inputSize (lround (cols * map.scale)) (lround (rows * map.scale))

/-- A length that fits is centred between the ends. -/
theorem centred {s n : ℤ} (hn : n ≤ s) : 0 ≤ (s - n).tdiv 2 ∧ (s - n).tdiv 2 + n ≤ s := by
  rw [Int.tdiv_eq_ediv_of_nonneg (by omega)]
  omega

section Lawful

variable [LawfulScalar R]

/-- **One axis.** A length `len` is scaled to `u`, drawn over `n` pixels, and mapped back as if it
began at the exact padding: the drawn position of a point is off by at most three quarters of a
pixel.

**Proof sketch.** With `r` the odd pixel of the padding, the difference is
`(n - u) * (x / len - 1 / 2) - r / 2`: rounding moves both ends of the drawn length by at most a
quarter, in opposite directions, and the odd pixel goes to the far side. -/
theorem abs_drawn_sub_le {s n : ℤ} {scale len x : R} (hlen : 0 < len)
    (hround : |(n : R) - len * scale| ≤ 1 / 2) (hn : n ≤ s) (hx0 : 0 ≤ x) (hx : x ≤ len) :
    |(((s - n).tdiv 2 : ℤ) : R) + x * n / len - (x * scale + 1 / 2 * (s - scale * len))| ≤
      3 / 4 := by
  obtain ⟨r, hr, hsplit⟩ : ∃ r : ℤ, (r = 0 ∨ r = 1) ∧ s - n = 2 * (s - n).tdiv 2 + r := by
    refine ⟨(s - n) % 2, by omega, ?_⟩
    rw [Int.tdiv_eq_ediv_of_nonneg (by omega)]
    omega
  have hcast : (s : R) - n = 2 * ((s - n).tdiv 2 : ℤ) + r := by exact_mod_cast hsplit
  have hdiff : (((s - n).tdiv 2 : ℤ) : R) + x * n / len - (x * scale + 1 / 2 * (s - scale * len)) =
      (n - len * scale) * (x / len - 1 / 2) - r / 2 := by
    have hxlen : x * scale = len * scale * (x / len) := by
      field_simp
    rw [hxlen, mul_div_right_comm]
    linear_combination (-1 / 2 : R) * hcast
  have hfrac : |x / len - 1 / 2| ≤ 1 / 2 := by
    have h0 : 0 ≤ x / len := div_nonneg hx0 hlen.le
    have h1 : x / len ≤ 1 := div_le_one_of_le₀ hx hlen.le
    rw [abs_le]
    constructor <;> linarith
  have hodd : |(r : R) / 2| ≤ 1 / 2 := by
    rcases hr with rfl | rfl <;> norm_num
  rw [hdiff]
  calc |((n : R) - len * scale) * (x / len - 1 / 2) - r / 2|
      ≤ |(n : R) - len * scale| * |x / len - 1 / 2| + |(r : R) / 2| := by
        rw [← abs_mul]
        exact abs_sub _ _
    _ ≤ 1 / 2 * (1 / 2) + 1 / 2 :=
        add_le_add (mul_le_mul hround hfrac (abs_nonneg _) (by norm_num)) hodd
    _ = 3 / 4 := by norm_num

/-! ## The scale of a square canvas -/

variable (R) {cols rows : ℤ} (s : ℤ)

/-- The scaled frame fits the canvas. -/
theorem mul_scale_le (hcols : 1 ≤ cols) (hrows : 1 ≤ rows) :
    (cols * (letterboxMap cols rows s s : LetterboxMap R).scale : R) ≤ s ∧
      (rows * (letterboxMap cols rows s s : LetterboxMap R).scale : R) ≤ s := by
  have hc : (0 : R) < cols := by exact_mod_cast hcols
  have hr : (0 : R) < rows := by exact_mod_cast hrows
  constructor
  · rw [mul_comm, ← le_div_iff₀ hc]
    exact min_le_left _ _
  · rw [mul_comm, ← le_div_iff₀ hr]
    exact min_le_right _ _

/-- The scaled frame fills the canvas along an axis. -/
theorem mul_scale_eq (hcols : 1 ≤ cols) (hrows : 1 ≤ rows) :
    (cols * (letterboxMap cols rows s s : LetterboxMap R).scale : R) = s ∨
      (rows * (letterboxMap cols rows s s : LetterboxMap R).scale : R) = s := by
  have hc : (cols : R) ≠ 0 := by exact_mod_cast (show cols ≠ 0 by omega)
  have hr : (rows : R) ≠ 0 := by exact_mod_cast (show rows ≠ 0 by omega)
  rcases min_choice (s / cols : R) (s / rows) with h | h
  · left
    change (cols : R) * min (s / cols : R) (s / rows) = s
    rw [h, mul_div_cancel₀ _ hc]
  · right
    change (rows : R) * min (s / cols : R) (s / rows) = s
    rw [h, mul_div_cancel₀ _ hr]

/-- The drawn sizes are not negative. -/
theorem fittedRect_nonneg {s : ℤ} (hcols : 0 ≤ cols) (hrows : 0 ≤ rows) (hs : 0 ≤ s) :
    0 ≤ (fittedRect R cols rows s).width ∧ 0 ≤ (fittedRect R cols rows s).height := by
  have hc : (0 : R) ≤ cols := by exact_mod_cast hcols
  have hr : (0 : R) ≤ rows := by exact_mod_cast hrows
  have hs' : (0 : R) ≤ s := by exact_mod_cast hs
  have hscale : (0 : R) ≤ (letterboxMap cols rows s s : LetterboxMap R).scale :=
    le_min (div_nonneg hs' hc) (div_nonneg hs' hr)
  constructor
  · apply le_lround
    rw [Int.cast_zero]
    exact mul_nonneg hc hscale
  · apply le_lround
    rw [Int.cast_zero]
    exact mul_nonneg hr hscale

/-- The rectangle lies in the canvas. -/
theorem fittedRect_inside (hcols : 1 ≤ cols) (hrows : 1 ≤ rows) :
    (0 ≤ (fittedRect R cols rows s).x ∧
      (fittedRect R cols rows s).x + (fittedRect R cols rows s).width ≤ s) ∧
    0 ≤ (fittedRect R cols rows s).y ∧
      (fittedRect R cols rows s).y + (fittedRect R cols rows s).height ≤ s := by
  obtain ⟨hw, hh⟩ := mul_scale_le R s hcols hrows
  exact ⟨centred (lround_le hw), centred (lround_le hh)⟩

/-- The rectangle fills the canvas along an axis. -/
theorem fittedRect_fills (hcols : 1 ≤ cols) (hrows : 1 ≤ rows) :
    (fittedRect R cols rows s).x = 0 ∧ (fittedRect R cols rows s).width = s ∨
      (fittedRect R cols rows s).y = 0 ∧ (fittedRect R cols rows s).height = s := by
  have hfull : ∀ {u : R}, u = s → (s - lround u).tdiv 2 = 0 ∧ lround u = s := by
    rintro u rfl
    rw [lround_intCast, sub_self]
    exact ⟨rfl, rfl⟩
  exact (mul_scale_eq R s hcols hrows).imp hfull hfull

variable {R s}

/-- **Drawing and mapping back agree.** The rectangle a frame is drawn into lies in the canvas and
fills it along an axis.  The drawn position of a source point and the position the letterbox map
gives it differ by at most three quarters of a letterbox pixel, so a decoded coordinate is off by at
most that over the scale; and mapping to the letterbox and back is the identity both ways.

**Proof sketch.** The drawn size is the scaled size rounded, so it is off by at most half a
pixel, of which a quarter goes to each side of the centred rectangle; the integer division of the
margin costs at most another half.  Mapping back divides the difference by the scale. -/
theorem fittedRect_agrees (hcols : 1 ≤ cols) (hrows : 1 ≤ rows) (hs : 1 ≤ s) :
    let m : LetterboxMap R := letterboxMap cols rows s s
    let r := fittedRect R cols rows s
    let drawnX := fun x : R => r.x + x * r.width / cols
    let drawnY := fun y : R => r.y + y * r.height / rows
    ((0 ≤ r.x ∧ 0 ≤ r.width ∧ r.x + r.width ≤ s) ∧ 0 ≤ r.y ∧ 0 ≤ r.height ∧ r.y + r.height ≤ s) ∧
    (r.x = 0 ∧ r.width = s ∨ r.y = 0 ∧ r.height = s) ∧
    ((∀ x : R, 0 ≤ x → x ≤ cols → |drawnX x - (x * m.scale + m.padX)| ≤ 3 / 4) ∧
      ∀ y : R, 0 ≤ y → y ≤ rows → |drawnY y - (y * m.scale + m.padY)| ≤ 3 / 4) ∧
    (∀ x y w h : R, 0 ≤ x → x ≤ cols → 0 ≤ y → y ≤ rows →
      |(fromLetterbox ⟨drawnX x, drawnY y, w, h⟩ m).x - x| ≤ 3 / 4 / m.scale ∧
        |(fromLetterbox ⟨drawnX x, drawnY y, w, h⟩ m).y - y| ≤ 3 / 4 / m.scale) ∧
    (∀ b, fromLetterbox (toLetterbox b m) m = b) ∧ ∀ b, toLetterbox (fromLetterbox b m) m = b := by
  intro m r drawnX drawnY
  have hscale : 0 < m.scale := letterboxMap_scale_pos (by omega) (by omega) (by omega) (by omega)
  obtain ⟨hw, hh⟩ := mul_scale_le R s hcols hrows
  have hx : ∀ x : R, 0 ≤ x → x ≤ cols → |drawnX x - (x * m.scale + m.padX)| ≤ 3 / 4 := fun x =>
    abs_drawn_sub_le (by exact_mod_cast hcols) (abs_lround_sub_le _) (lround_le hw)
  have hy : ∀ y : R, 0 ≤ y → y ≤ rows → |drawnY y - (y * m.scale + m.padY)| ≤ 3 / 4 := fun y =>
    abs_drawn_sub_le (by exact_mod_cast hrows) (abs_lround_sub_le _) (lround_le hh)
  -- a letterbox coordinate maps back with the error divided by the scale
  have hback : ∀ {p x pad : R}, |p - (x * m.scale + pad)| ≤ 3 / 4 →
      |(p - pad) / m.scale - x| ≤ 3 / 4 / m.scale := by
    intro p x pad h
    have hsplit : (p - pad) / m.scale - x = (p - (x * m.scale + pad)) / m.scale := by
      field_simp
      ring
    rw [hsplit, abs_div, abs_of_pos hscale]
    exact div_le_div_of_nonneg_right h hscale.le
  obtain ⟨hinX, hinY⟩ := fittedRect_inside R s hcols hrows
  obtain ⟨hwidth, hheight⟩ := fittedRect_nonneg R (zero_le_one.trans hcols)
    (zero_le_one.trans hrows) (zero_le_one.trans hs)
  refine ⟨⟨⟨hinX.1, hwidth, hinX.2⟩, hinY.1, hheight, hinY.2⟩, fittedRect_fills R s hcols hrows,
    ⟨hx, hy⟩, ?_, ?_, ?_⟩
  · intro x y w h hx0 hx1 hy0 hy1
    exact ⟨hback (hx x hx0 hx1), hback (hy y hy0 hy1)⟩
  · exact fromLetterbox_toLetterbox hscale.ne'
  · exact toLetterbox_fromLetterbox hscale.ne'

end Lawful

/-- A wide frame on a square canvas. -/
theorem fittedRect_agrees_wide :
    let m : LetterboxMap ℝ := letterboxMap 1280 720 640 640
    let r := fittedRect ℝ 1280 720 640
    |(r.x + 100 * r.width / (1280 : ℤ)) - (100 * m.scale + m.padX)| ≤ 3 / 4 := by
  intro m r
  exact (fittedRect_agrees (show 1 ≤ 1280 by decide) (show 1 ≤ 720 by decide)
    (show 1 ≤ 640 by decide)).2.2.1.1 100 (by norm_num) (by norm_num)

end Ctrk
