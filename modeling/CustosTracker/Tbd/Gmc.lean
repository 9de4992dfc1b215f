import CustosTracker.Common.Image

set_option relaxedAutoImplicit false
set_option autoImplicit false

/-!
# Camera-motion estimation

`GmcEstimator` of `core/src/tbd/gmc.cpp`: corners of the previous frame's background are followed
into the current frame and a partial affine warp is fitted to them.

## Main definitions

* `Ctrk.FlowOps` — the image-processing routines the estimator calls.
* `Ctrk.GmcEstimator.cornerSource` — the image corners are extracted from, with the boxes masked
  out of it.
* `Ctrk.GmcEstimator.estimate` — one call of the estimator.
-/

namespace Ctrk

variable {R : Type} [Scalar R]

/-- The OpenCV routines the estimator calls. -/
structure FlowOps (R : Type) where
  /-- `cv::cvtColor` with `COLOR_BGR2GRAY`. -/
  cvtColor : Image Bgr → Image UInt8
  /-- `cv::resize` by a factor with `INTER_AREA`. -/
  resize : Image UInt8 → R → Image UInt8
  /-- `cv::goodFeaturesToTrack`: image, maximal count, quality level, minimal distance, mask. -/
  goodFeaturesToTrack : Image UInt8 → ℕ → R → R → Image UInt8 → List (R × R)
  /-- `cv::calcOpticalFlowPyrLK`: the new position of each point and whether it was found. -/
  calcOpticalFlowPyrLK : Image UInt8 → Image UInt8 → List (R × R) → List ((R × R) × Bool)
  /-- `cv::estimateAffinePartial2D` with `RANSAC`; none when the estimate is empty. -/
  estimateAffinePartial2D : List (R × R) → List (R × R) → Option (Affine23 R)

/-- `kWorkWidth`. -/
def kWorkWidth : ℕ := 480

/-- `kMaxCorners`. -/
def kMaxCorners : ℕ := 200

/-- `kMinPoints`. -/
def kMinPoints : ℕ := 12

/-- The estimator's members. -/
structure GmcEstimator (R : Type) where
  prevGray : Image UInt8 := ⟨0, 0, fun _ _ => 0⟩
  prevExclude : List (BBox R) := []

namespace GmcEstimator

/-- The factor the flow images are scaled down by. -/
def workScale (ops : FlowOps R) (bgr : Image Bgr) : R :=
  min 1 (kWorkWidth / (ops.cvtColor bgr).cols)

/-- The gray image the flow runs on. -/
def workGray (ops : FlowOps R) (bgr : Image Bgr) : Image UInt8 :=
  let gray := ops.cvtColor bgr
  let k := workScale ops bgr
  if k < 1 then ops.resize gray k else gray

/-- The image corners are extracted from in front of a new gray image, and the boxes masked out
of it; none on the first frame and after a change of size. -/
def cornerSource (g : GmcEstimator R) (gray : Image UInt8) : Option (Image UInt8 × List (BBox R)) :=
  if !g.prevGray.isEmpty && g.prevGray.sameSize gray then some (g.prevGray, g.prevExclude) else none

/-- A full-resolution box in downscaled pixels. -/
def maskRect (k : R) (b : BBox R) : Rect :=
  ⟨Scalar.toInt (b.x * k), Scalar.toInt (b.y * k), Scalar.toInt (b.w * k) + 1,
    Scalar.toInt (b.h * k) + 1⟩

/-- The corner mask: zero inside the boxes, `255` elsewhere. -/
def cornerMask (gray : Image UInt8) (k : R) (boxes : List (BBox R)) : Image UInt8 :=
  boxes.foldl (fun mask b => mask.fill ((maskRect k b).inter mask.bounds) 0)
    ⟨gray.cols, gray.rows, fun _ _ => 255⟩

/-- Follow the corners of one gray image into the next and fit a warp to them; the identity when
too few corners survive or the fit fails. -/
def flowWarp (ops : FlowOps R) (prevGray : Image UInt8) (boxes : List (BBox R))
    (gray : Image UInt8) (k : R) : Affine23 R :=
  let prevPts := ops.goodFeaturesToTrack prevGray kMaxCorners (1 / 100) 8
    (cornerMask prevGray k boxes)
  if prevPts.length < kMinPoints then .id
  else
    let found := (prevPts.zip (ops.calcOpticalFlowPyrLK prevGray gray prevPts)).filter (·.2.2)
    let p0 := found.map (·.1)
    let p1 := found.map (·.2.1)
    if p0.length < kMinPoints then .id
    else
      match ops.estimateAffinePartial2D p0 p1 with
      | none => .id
      | some m => { m with tx := m.tx / k, ty := m.ty / k }

/-- `estimate`: the warp from the previous frame to this one. -/
def estimate (ops : FlowOps R) (g : GmcEstimator R) (bgr : Image Bgr)
    (exclude : List (BBox R)) : Affine23 R × GmcEstimator R :=
  let gray := workGray ops bgr
  let out := match g.cornerSource gray with
    | none => .id
    | some (prevGray, boxes) => flowWarp ops prevGray boxes gray (workScale ops bgr)
  (out, { prevGray := gray, prevExclude := exclude })

end GmcEstimator

end Ctrk
