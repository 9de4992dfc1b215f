import CustosTracker.Common.Subwindow
import CustosTracker.Sot.SotTracker

set_option relaxedAutoImplicit false
set_option autoImplicit false

/-!
# The correlation-filter backend

`MosseTracker` of `core/src/sot/mosse.cpp`: a filter trained on the target, kept as numerator and
denominator spectra, correlated with three scales of the next frame.

## Main definitions

* `Ctrk.MosseOps` — the transforms and image routines.
* `Ctrk.MosseTracker`, `Ctrk.MosseTracker.init`, `Ctrk.MosseTracker.update`.

## Main results

* `Ctrk.MosseTracker.init_eq` — `init` depends on the configuration alone.
-/

namespace Ctrk

variable {R : Type} [Scalar R]

/-- A complex spectrum. -/
abbrev Spectrum (R : Type) := Image (R × R)

/-- The transforms and image routines of the filter. -/
structure MosseOps (R : Type) where
  cv : CvOps R
  /-- `cv::cvtColor` with `COLOR_BGR2GRAY`, converted to floats. -/
  cvtColor : Image Bgr → Image R
  /-- `std::log`. -/
  log : R → R
  /-- `cv::meanStdDev` over the pixels of a mask. -/
  meanStdDev : Image R → (ℕ → ℕ → Bool) → R × R
  /-- `cv::createHanningWindow` of a square. -/
  createHanningWindow : ℕ → Image R
  /-- `cv::dft` with complex output. -/
  dft : Image R → Spectrum R
  /-- `cv::idft`, scaled, with real output. -/
  idft : Spectrum R → Image R
  /-- `cv::mulSpectrums`, with the second factor conjugated on demand. -/
  mulSpectrums : Spectrum R → Spectrum R → Bool → Spectrum R
  /-- `cv::divSpectrums`. -/
  divSpectrums : Spectrum R → Spectrum R → Spectrum R
  /-- `cv::minMaxLoc`: the maximum and its column and row. -/
  minMaxLoc : Image R → R × ℤ × ℤ
  /-- `cv::warpAffine` by a rotation about the patch centre, with reflected border. -/
  rotate : Image Bgr → R → Image Bgr

/-- `kSize`. -/
def kSize : ℕ := 64

/-- `kSigma`. -/
def kSigma : R := 2

/-- `kLr`. -/
def kLr : R := 125 / 1000

/-- `kEps`. -/
def kEps : R := 1 / 100000

/-- `kScales`. -/
def kScales : List R := [985 / 1000, 1, 1015 / 1000]

/-- The tracker's members. -/
structure MosseTracker (R : Type) [Scalar R] where
  cfg : SotConfig R
  hann : Image R := ⟨0, 0, fun _ _ => 0⟩
  gaussianFft : Spectrum R := ⟨0, 0, fun _ _ => (0, 0)⟩
  num : Spectrum R := ⟨0, 0, fun _ _ => (0, 0)⟩
  den : Spectrum R := ⟨0, 0, fun _ _ => (0, 0)⟩
  posX : R := 0
  posY : R := 0
  szW : R := 0
  szH : R := 0
  imgSize : ℕ × ℕ := (0, 0)

namespace MosseTracker

variable (ops : MosseOps R)

/-- The constructor. -/
def new (cfg : SotConfig R) : MosseTracker R := { cfg := cfg }

/-- `preprocess`: logarithm, normalization, window. -/
def preprocess (t : MosseTracker R) (patch : Image Bgr) : Image R :=
  let gray := ops.cvtColor patch
  let gray : Image R := { gray with px := fun x y => ops.log (gray.px x y + 1) }
  let stat := ops.meanStdDev gray fun _ _ => true
  { gray with px := fun x y => (gray.px x y - stat.1) / (stat.2 + kEps) * t.hann.px x y }

/-- `grab_patch`: the square context window at a scale. -/
def grabPatch (t : MosseTracker R) (image : Image Bgr) (scale : R) : Image Bgr :=
  let side := max 2 (lround (max t.szW t.szH * scale))
  let pad := if subwindowNeedsPadding image t.posX t.posY side then ops.cv.mean image else default
  cropSubwindow ops.cv image t.posX t.posY side kSize pad

/-- `a * (1 - lr) + b * lr`. -/
def blend (a b : Spectrum R) (lr : R) : Spectrum R :=
  { a with px := fun x y => ((a.px x y).1 * (1 - lr) + (b.px x y).1 * lr,
      (a.px x y).2 * (1 - lr) + (b.px x y).2 * lr) }

/-- `train`: fold a patch into the filter. -/
def train (t : MosseTracker R) (processed : Image R) (lr : R) : MosseTracker R :=
  let fFft := ops.dft processed
  let numNew := ops.mulSpectrums t.gaussianFft fFft true
  let denNew := ops.mulSpectrums fFft fFft true
  if t.num.isEmpty then { t with num := numNew, den := denNew }
  else { t with num := blend t.num numNew lr, den := blend t.den denNew lr }

/-- The Gaussian target of the filter. -/
def gauss : Image R :=
  ⟨kSize, kSize, fun x y =>
    let dy : R := ((y : ℤ) - (kSize / 2 : ℕ) : ℤ)
    let dx : R := ((x : ℤ) - (kSize / 2 : ℕ) : ℤ)
    ops.cv.exp (-(dx * dx + dy * dy) / (2 * kSigma * kSigma))⟩

/-- The first training: the exact patch, and small rotations of it. -/
def trainInitial (t : MosseTracker R) (image : Image Bgr) : MosseTracker R :=
  let base := t.grabPatch ops image 1
  let t := t.train ops (t.preprocess ops base) 1
  ([-2, -1, 1, 2] : List ℤ).foldl
    (fun t (k : ℤ) => t.train ops (t.preprocess ops (ops.rotate base ((k : R) * 2))) (1 / 2)) t

/-- `init`: start on a target with a fresh filter. -/
def init (t : MosseTracker R) (image : Image Bgr) (target : BBox R) : MosseTracker R :=
  trainInitial ops { t with
    posX := target.x + target.w * (1 / 2)
    posY := target.y + target.h * (1 / 2)
    szW := target.w
    szH := target.h
    imgSize := (image.cols, image.rows)
    hann := ops.createHanningWindow kSize
    gaussianFft := ops.dft (gauss ops)
    num := ⟨0, 0, fun _ _ => (0, 0)⟩
    den := ⟨0, 0, fun _ _ => (0, 0)⟩ } image

/-- The best scale so far. -/
structure BestScale (R : Type) where
  peak : R
  psr : R
  scale : R
  loc : ℤ × ℤ

/-- The pixels outside the peak region. -/
def sidelobe (loc : ℤ × ℤ) (x y : ℕ) : Bool :=
  !((Rect.mk (max 0 (loc.1 - 5)) (max 0 (loc.2 - 5)) 11 11).inter ⟨0, 0, kSize, kSize⟩).contains x y

/-- One scale of the search: the peak of the response and its ratio to the sidelobe. -/
def considerScale (t : MosseTracker R) (filter : Spectrum R) (image : Image Bgr)
    (best : BestScale R) (scale : R) : BestScale R :=
  let fFft := ops.dft (t.preprocess ops (t.grabPatch ops image scale))
  let resp := ops.idft (ops.mulSpectrums filter fFft false)
  let p := ops.minMaxLoc resp
  let stat := ops.meanStdDev resp (sidelobe p.2)
  let psr := (p.1 - stat.1) / (stat.2 + kEps)
  if best.peak < p.1 then ⟨p.1, psr, scale, p.2⟩ else best

/-- The filter: numerator over regularized denominator. -/
def filter (t : MosseTracker R) : Spectrum R :=
  ops.divSpectrums t.num { t.den with px := fun x y =>
    ((t.den.px x y).1 + kEps, (t.den.px x y).2) }

/-- Move the box by the offset of the peak. -/
def place (t : MosseTracker R) (best : BestScale R) : MosseTracker R :=
  let side := max t.szW t.szH * best.scale
  let toImg := side / (kSize : R)
  let posX := t.posX + ((best.loc.1 : R) - (kSize : R) / 2) * toImg
  let posY := t.posY + ((best.loc.2 : R) - (kSize : R) / 2) * toImg
  { t with
    posX := clamp posX 0 t.imgSize.1
    posY := clamp posY 0 t.imgSize.2
    szW := clamp (t.szW * best.scale) 10 t.imgSize.1
    szH := clamp (t.szH * best.scale) 10 t.imgSize.2 }

/-- `update`: track one frame; the filter adapts while the peak is credible. -/
def update (t : MosseTracker R) (image : Image Bgr) : SotResult R × MosseTracker R :=
  let best := kScales.foldl (t.considerScale ops (t.filter ops) image) ⟨-1, 0, 1, (0, 0)⟩
  let t := t.place best
  let t := if 8 ≤ best.psr then t.train ops (t.preprocess ops (t.grabPatch ops image 1)) kLr else t
  (⟨⟨t.posX - t.szW * (1 / 2), t.posY - t.szH * (1 / 2), t.szW, t.szH⟩, best.psr, .tracking⟩, t)

/-! ## What `init` keeps -/

theorem cfg_train (t : MosseTracker R) (processed : Image R) (lr : R) :
    (t.train ops processed lr).cfg = t.cfg := by
  simp only [train]
  split_ifs <;> rfl

theorem cfg_trainInitial (t : MosseTracker R) (image : Image Bgr) :
    (t.trainInitial ops image).cfg = t.cfg := by
  simp only [trainInitial, List.foldl_cons, List.foldl_nil, cfg_train]

theorem cfg_init (t : MosseTracker R) (image : Image Bgr) (target : BBox R) :
    (t.init ops image target).cfg = t.cfg :=
  cfg_trainInitial ops _ image

theorem cfg_update (t : MosseTracker R) (image : Image Bgr) :
    (t.update ops image).2.cfg = t.cfg := by
  simp only [update]
  split_ifs
  · exact cfg_train ops _ _ _
  · rfl

/-- `init` forgets all but the configuration. -/
theorem init_eq {s t : MosseTracker R} (h : s.cfg = t.cfg) (image : Image Bgr) (target : BBox R) :
    s.init ops image target = t.init ops image target := by
  unfold init
  rw [h]

end MosseTracker

end Ctrk
