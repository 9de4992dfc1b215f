import CustosTracker.Common.Geometry

set_option relaxedAutoImplicit false
set_option autoImplicit false

/-!
# Images

Pixel rectangles and images as the core uses them through `cv::Rect` and `cv::Mat`, with the
operations of the library that are plain index arithmetic.  Image processing proper (colour
conversion, resampling, histograms) is a parameter of the definitions that use it.

## Main definitions

* `Ctrk.Rect`, `Ctrk.Rect.inter` — integer rectangles and `operator&`.
* `Ctrk.Image`, `Ctrk.Image.sub`, `Ctrk.Image.fill` — images, regions, `setTo` on a region.
* `Ctrk.regionHist`, `Ctrk.hsvEmbedding` — the appearance descriptor of a box.
* `Ctrk.Frame` — a video frame.
-/

namespace Ctrk

variable {R : Type} [Scalar R]

/-- `cv::Rect`: top-left corner and size, in pixels. -/
structure Rect where
  x : ℤ := 0
  y : ℤ := 0
  width : ℤ := 0
  height : ℤ := 0
  deriving DecidableEq, Inhabited

namespace Rect

/-- `cv::Rect::empty`. -/
def isEmpty (r : Rect) : Bool := decide (r.width ≤ 0 ∨ r.height ≤ 0)

/-- The extent of an intersection along one axis: from the larger start to the smaller end. -/
def overlap (a aLen b bLen : ℤ) : ℤ := min (a + aLen) (b + bLen) - max a b

/-- `operator&`: the common part, or the zero rectangle. -/
def inter (a b : Rect) : Rect :=
  if a.isEmpty || b.isEmpty then {}
  else
    let r : Rect :=
      { x := max a.x b.x
        y := max a.y b.y
        width := overlap a.x a.width b.x b.width
        height := overlap a.y a.height b.y b.height }
    if r.isEmpty then {} else r

/-- Whether a pixel lies in the rectangle. -/
def contains (r : Rect) (x y : ℕ) : Bool :=
  decide (r.x ≤ x ∧ (x : ℤ) < r.x + r.width ∧ r.y ≤ y ∧ (y : ℤ) < r.y + r.height)

end Rect

/-- A pixel of a colour frame. -/
structure Bgr where
  b : UInt8
  g : UInt8
  r : UInt8
  deriving DecidableEq, Inhabited

/-- An image: its size, and the pixel at each column and row. -/
structure Image (P : Type) where
  cols : ℕ
  rows : ℕ
  px : ℕ → ℕ → P

namespace Image

variable {P : Type}

/-- `cv::Mat::empty`. -/
def isEmpty (m : Image P) : Bool := m.cols == 0 || m.rows == 0

/-- `cv::Mat::size() ==`. -/
def sameSize {Q : Type} (m : Image P) (m' : Image Q) : Bool := m.cols == m'.cols && m.rows == m'.rows

/-- The rectangle of all pixels. -/
def bounds (m : Image P) : Rect := ⟨0, 0, m.cols, m.rows⟩

/-- The region of an image inside a rectangle within its bounds. -/
def sub (m : Image P) (r : Rect) : Image P :=
  ⟨r.width.toNat, r.height.toNat, fun x y => m.px (x + r.x.toNat) (y + r.y.toNat)⟩

/-- `m(r).setTo(v)`. -/
def fill (m : Image P) (r : Rect) (v : P) : Image P :=
  { m with px := fun x y => if r.contains x y then v else m.px x y }

end Image

/-- A histogram of the box region, clipped to the image; empty when the region is degenerate. -/
def regionHist (hist : Image Bgr → List R) (img : Image Bgr) (box : BBox R) : List R :=
  let roi := Rect.inter
    ⟨Scalar.toInt box.x, Scalar.toInt box.y, Scalar.toInt box.w, Scalar.toInt box.h⟩ img.bounds
  if roi.width < 2 ∨ roi.height < 2 then [] else hist (img.sub roi)

/-- `hsv_embedding`: the appearance descriptor of a box.  The parameter is the hue-saturation
histogram of a region, normalized to unit Euclidean length. -/
def hsvEmbedding (hist : Image Bgr → List R) (img : Image Bgr) (box : BBox R) : List R :=
  regionHist hist img box

/-- A video frame with its capture time, and what the detector answers on it. -/
structure Frame (R : Type) where
  image : Image Bgr
  tNs : ℤ
  detections : List (Detection R)

end Ctrk
