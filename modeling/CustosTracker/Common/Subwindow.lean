import CustosTracker.Common.Image

set_option relaxedAutoImplicit false
set_option autoImplicit false

/-!
# Subwindows

Square crops around a point, padded where they leave the image and resized to the input size of a
model: `core/src/common/subwindow.cpp`, and the replica of the reference crop in
`core/src/sot/nanotrack.cpp`.

## Main definitions

* `Ctrk.CvOps` — the image routines the crops call.
* `Ctrk.CropGeometry` — position and padding of a crop.
* `Ctrk.cropSubwindow`, `Ctrk.nanoSubwindow`.

## Main results

* `Ctrk.abs_lround_sub_le` — rounding moves a number by at most one half.
* `Ctrk.le_toInt_iff`, `Ctrk.le_sqrt_iff` — comparing a truncated number and a root.
* `Ctrk.nanoSubwindow_scratch` — the crop does not depend on the reused buffer.
-/

namespace Ctrk

variable {R : Type} [Scalar R]

/-- `std::floor` to an integer. -/
def floorInt (x : R) : ℤ := if x < Scalar.toInt x then Scalar.toInt x - 1 else Scalar.toInt x

/-- `std::lround`: to the nearest integer, halves away from zero. -/
def lround (x : R) : ℤ := if 0 ≤ x then Scalar.toInt (x + 1 / 2) else Scalar.toInt (x - 1 / 2)

section Rounding

variable [LawfulScalar R]

/-- Rounding moves a number by at most one half. -/
theorem abs_lround_sub_le (x : R) : |(lround x : R) - x| ≤ 1 / 2 := by
  rw [abs_le]
  rcases le_or_gt 0 x with hx | hx
  · obtain ⟨hle, hlt⟩ := LawfulScalar.toInt_nonneg (x + 1 / 2) (by linarith)
    rw [lround, if_pos hx]
    constructor <;> linarith
  · obtain ⟨hle, hlt⟩ := LawfulScalar.toInt_nonneg (-(x - 1 / 2)) (by linarith)
    rw [LawfulScalar.toInt_neg, Int.cast_neg] at hle hlt
    rw [lround, if_neg hx.not_ge]
    constructor <;> linarith

theorem lround_le {x : R} {n : ℤ} (h : x ≤ n) : lround x ≤ n := by
  have hround := (abs_le.mp (abs_lround_sub_le x)).2
  by_contra hlt
  have hcast : ((n + 1 : ℤ) : R) ≤ lround x := by exact_mod_cast not_le.mp hlt
  push_cast at hcast
  linarith

theorem le_lround {x : R} {n : ℤ} (h : (n : R) ≤ x) : n ≤ lround x := by
  have hround := (abs_le.mp (abs_lround_sub_le x)).1
  by_contra hlt
  have hcast : ((lround x + 1 : ℤ) : R) ≤ n := by exact_mod_cast not_le.mp hlt
  push_cast at hcast
  linarith

/-- Truncation of a nonnegative number is the integer part. -/
theorem le_toInt_iff {x : R} {n : ℤ} (hx : 0 ≤ x) : n ≤ Scalar.toInt x ↔ (n : R) ≤ x := by
  obtain ⟨hle, hlt⟩ := LawfulScalar.toInt_nonneg x hx
  constructor
  · intro h
    have hcast : (n : R) ≤ Scalar.toInt x := by exact_mod_cast h
    linarith
  · intro h
    by_contra hgt
    have hcast : ((Scalar.toInt x + 1 : ℤ) : R) ≤ n := by exact_mod_cast not_le.mp hgt
    push_cast at hcast
    linarith

/-- Rounding keeps integers. -/
theorem lround_intCast (n : ℤ) : lround (n : R) = n :=
  le_antisymm (lround_le le_rfl) (le_lround le_rfl)

end Rounding

section Root

variable [LawfulScalar R] {x : R}

/-- A root is at least a number when the square of the number is at most the radicand. -/
theorem le_sqrt_iff {a : R} (ha : 0 ≤ a) (hx : 0 ≤ x) : a ≤ Scalar.sqrt x ↔ a * a ≤ x := by
  rw [mul_self_le_mul_self_iff ha (LawfulScalar.sqrt_nonneg x), LawfulScalar.mul_self_sqrt x hx]

/-- A positive number has a positive root. -/
theorem sqrt_pos (hx : 0 < x) : 0 < Scalar.sqrt x := by
  rcases (LawfulScalar.sqrt_nonneg x).lt_or_eq with hpos | hzero
  · exact hpos
  · have hsq := LawfulScalar.mul_self_sqrt x hx.le
    rw [← hzero, mul_zero] at hsq
    exact absurd hsq hx.ne

end Root

/-- The image routines the crops call. -/
structure CvOps (R : Type) where
  /-- `cv::mean` of an image, converted to a pixel. -/
  mean : Image Bgr → Bgr
  /-- `cv::resize` to a square. -/
  resize : Image Bgr → ℕ → Image Bgr
  /-- `std::exp`. -/
  exp : R → R

/-- The image of no pixels. -/
def emptyImage (P : Type) [Inhabited P] : Image P := ⟨0, 0, fun _ _ => default⟩

namespace Image

variable {P : Type}

/-- `cv::Mat::create`: the size changes, the memory is not cleared. -/
def create (m : Image P) (cols rows : ℕ) : Image P := { m with cols := cols, rows := rows }

/-- `cv::Mat::setTo`: every pixel gets the value. -/
def setTo (m : Image P) (v : P) : Image P := { m with px := fun _ _ => v }

/-- `copyTo` of an image into the region at a corner. -/
def paste (m src : Image P) (x₀ y₀ : ℕ) : Image P :=
  { m with px := fun x y =>
      if x₀ ≤ x ∧ x < x₀ + src.cols ∧ y₀ ≤ y ∧ y < y₀ + src.rows then src.px (x - x₀) (y - y₀)
      else m.px x y }

end Image

/-- Position and padding of a square crop. -/
structure CropGeometry where
  xmin : ℤ
  ymin : ℤ
  leftPad : ℤ
  topPad : ℤ
  rightPad : ℤ
  bottomPad : ℤ

namespace CropGeometry

/-- The geometry of the crop with a given corner and side. -/
def ofCorner (img : Image Bgr) (xmin ymin originalSz : ℤ) : CropGeometry :=
  let xmax := xmin + originalSz - 1
  let ymax := ymin + originalSz - 1
  { xmin := xmin
    ymin := ymin
    leftPad := max 0 (-xmin)
    topPad := max 0 (-ymin)
    rightPad := max 0 (xmax - img.cols + 1)
    bottomPad := max 0 (ymax - img.rows + 1) }

/-- `padded`: the crop leaves the image. -/
def padded (g : CropGeometry) : Bool :=
  decide (g.leftPad ≠ 0) || decide (g.topPad ≠ 0) || decide (g.rightPad ≠ 0) ||
    decide (g.bottomPad ≠ 0)

/-- The padded window, built in a reused buffer: the pad value, and the visible part on top. -/
def window (g : CropGeometry) (img : Image Bgr) (originalSz : ℤ) (pad : Bgr) (buffer : Image Bgr) :
    Image Bgr :=
  let patch := (buffer.create originalSz.toNat originalSz.toNat).setTo pad
  let vw := originalSz - g.leftPad - g.rightPad
  let vh := originalSz - g.topPad - g.bottomPad
  if 0 < vw ∧ 0 < vh then
    patch.paste (img.sub ⟨g.xmin + g.leftPad, g.ymin + g.topPad, vw, vh⟩) g.leftPad.toNat
      g.topPad.toNat
  else patch

/-- Nothing of the buffer shows in the window. -/
theorem window_buffer (g : CropGeometry) (img : Image Bgr) (originalSz : ℤ) (pad : Bgr)
    (b b' : Image Bgr) : g.window img originalSz pad b = g.window img originalSz pad b' := rfl

end CropGeometry

/-! ## The shared crop -/

/-- `crop_geometry`: the crop centred at a point, by rounding. -/
def cropGeometry (img : Image Bgr) (cx cy : R) (originalSz : ℤ) : CropGeometry :=
  let c : R := ((originalSz + 1 : ℤ) : R) / 2
  .ofCorner img (floorInt (cx - c + 1 / 2)) (floorInt (cy - c + 1 / 2)) originalSz

/-- `subwindow_needs_padding`. -/
def subwindowNeedsPadding (img : Image Bgr) (cx cy : R) (originalSz : ℤ) : Bool :=
  (cropGeometry img cx cy originalSz).padded

/-- `crop_subwindow`. -/
def cropSubwindow (ops : CvOps R) (img : Image Bgr) (cx cy : R) (originalSz : ℤ) (modelSz : ℕ)
    (pad : Bgr) : Image Bgr :=
  let g := cropGeometry img cx cy originalSz
  let patch := if g.padded then g.window img originalSz pad (emptyImage Bgr)
    else img.sub ⟨g.xmin, g.ymin, originalSz, originalSz⟩
  if originalSz = modelSz then patch else ops.resize patch modelSz

/-! ## The crop of the siamese tracker -/

/-- `nano_subwindow`: the crop, and the scratch buffer it leaves. -/
def nanoSubwindow (ops : CvOps R) (img : Image Bgr) (posX posY : R) (originalSz : ℤ) (modelSz : ℕ)
    (scratch : Image Bgr) : Image Bgr × Image Bgr :=
  let c := (originalSz + 1).tdiv 2
  let g := CropGeometry.ofCorner img (Scalar.toInt posX - c) (Scalar.toInt posY - c) originalSz
  if g.padded then
    let scratch := g.window img originalSz (ops.mean img) scratch
    (ops.resize scratch modelSz, scratch)
  else (ops.resize (img.sub ⟨g.xmin, g.ymin, originalSz, originalSz⟩) modelSz, scratch)

/-- The crop does not depend on what the scratch buffer held. -/
theorem nanoSubwindow_scratch (ops : CvOps R) (img : Image Bgr) (posX posY : R) (originalSz : ℤ)
    (modelSz : ℕ) (b b' : Image Bgr) :
    (nanoSubwindow ops img posX posY originalSz modelSz b).1 =
      (nanoSubwindow ops img posX posY originalSz modelSz b').1 := by
  simp only [nanoSubwindow]
  split_ifs
  · rw [CropGeometry.window_buffer _ _ _ _ b b']
  · rfl

end Ctrk
