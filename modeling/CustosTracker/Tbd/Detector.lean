import CustosTracker.Tbd.DecodeReference
import CustosTracker.Tbd.Placement

set_option relaxedAutoImplicit false
set_option autoImplicit false

/-!
# The detector

`Yolov8Detector` of `core/src/tbd/yolov8.cpp`.  Between frames the detector keeps a canvas, the size
of the frame drawn on it last, and the scratch of the decoder.  The grey around the frame is drawn
only when that size changes; the frame is drawn every time.

## Main definitions

* `Ctrk.Yolov8Detector` — the members that outlive a call.
* `Ctrk.Yolov8Detector.preprocess`, `Ctrk.Yolov8Detector.detect` — one frame.
* `Ctrk.letterboxed` — the canvas a frame should have.
* `Ctrk.Yolov8Detector.GreyAround` — the invariant of the canvas.

## Main results

* `Ctrk.Yolov8Detector.canvas_history_independent` — the canvas depends on the last frame only.
-/

namespace Ctrk

variable {R : Type} [Scalar R]

/-- Draw into a rectangle of an image. -/
def Image.drawInto {P : Type} (m : Image P) (r : Rect) (px : ℕ → ℕ → P) : Image P :=
  { m with px := fun x y =>
      if r.contains x y then px (x - r.x.toNat) (y - r.y.toNat) else m.px x y }

/-- `cv::Scalar(114, 114, 114)`. -/
def grey : Bgr := ⟨114, 114, 114⟩

/-- What the detector calls outside this code. -/
structure DetectorOps (R : Type) [Scalar R] where
  /-- `cv::resize` of an image to a width and a height. -/
  resize : Image Bgr → ℤ → ℤ → ℕ → ℕ → Bgr
  /-- `IEngine::run` on the input tensor; nothing when it throws. -/
  run : (ℕ → R) → Option (ℕ → R)
  sorter : Sorter R

/-- The members of the detector. -/
structure Yolov8Detector (R : Type) [Scalar R] where
  config : Yolov8Config R
  inputSize : ℕ
  numClasses : ℕ
  numAnchors : ℕ
  canvas : Image Bgr
  fittedW : ℤ := -1
  fittedH : ℤ := -1
  scratch : ScratchVectors R := {}

/-- The input tensor: the planes of the canvas in the order red, green, blue, scaled to the unit
interval. -/
def blob (canvas : Image Bgr) (inputSize : ℕ) : ℕ → R := fun k =>
  let plane := inputSize * inputSize
  let i := k % plane
  let p := canvas.px (i % inputSize) (i / inputSize)
  let value : UInt8 := match k / plane with
    | 0 => p.r
    | 1 => p.g
    | _ => p.b
  (value.toNat : R) / 255

namespace Yolov8Detector

/-- A fresh detector, for a graph of the given sizes.  The memory of its canvas is not cleared. -/
def new (config : Yolov8Config R) (inputSize numClasses numAnchors : ℕ) (memory : ℕ → ℕ → Bgr) :
    Yolov8Detector R :=
  { config := config
    inputSize := inputSize
    numClasses := numClasses
    numAnchors := numAnchors
    canvas := ⟨inputSize, inputSize, memory⟩ }

/-- The first part of `detect`: draw the frame on the canvas. -/
def preprocess (ops : DetectorOps R) (s : Yolov8Detector R) (img : Image Bgr) : Yolov8Detector R :=
  let r := fittedRect R img.cols img.rows s.inputSize
  let canvas :=
    if r.width ≠ s.fittedW ∨ r.height ≠ s.fittedH then s.canvas.setTo grey else s.canvas
  { s with
    canvas := canvas.drawInto r (ops.resize img r.width r.height)
    fittedW := r.width
    fittedH := r.height }

/-- `detect`: the detections of a frame, or nothing when the engine throws. -/
def detect (ops : DetectorOps R) (s : Yolov8Detector R) (img : Image Bgr) :
    Option (List (Detection R)) × Yolov8Detector R :=
  let map : LetterboxMap R := letterboxMap img.cols img.rows s.inputSize s.inputSize
  let s := s.preprocess ops img
  match ops.run (blob s.canvas s.inputSize) with
  | none => (none, s)
  | some out =>
    let decoded := decodeYolov8Into ops.sorter (some s.scratch) out s.numClasses s.numAnchors
      s.config.confThr s.config.nmsIou map s.config.keepClasses
    (some decoded.1, { s with scratch := decoded.2.getD s.scratch })

/-- The detector after a sequence of frames. -/
def runFrames (ops : DetectorOps R) (s : Yolov8Detector R) (frames : List (Image Bgr)) :
    Yolov8Detector R :=
  frames.foldl (fun s img => (s.detect ops img).2) s

end Yolov8Detector

/-! ## The canvas -/

/-- The canvas a frame should have: the resized frame, and grey around it. -/
def letterboxed (ops : DetectorOps R) (inputSize : ℕ) (img : Image Bgr) : Image Bgr :=
  let r := fittedRect R img.cols img.rows inputSize
  { cols := inputSize
    rows := inputSize
    px := fun x y =>
      if r.contains x y then ops.resize img r.width r.height (x - r.x.toNat) (y - r.y.toNat)
      else grey }

/-- Drawing on a canvas that is grey where the frame does not come. -/
theorem drawInto_eq_letterboxed (ops : DetectorOps R) (img : Image Bgr) {inputSize : ℕ}
    {m : Image Bgr} (hcols : m.cols = inputSize) (hrows : m.rows = inputSize)
    (hgrey : ∀ x y, (fittedRect R img.cols img.rows inputSize).contains x y = false →
      m.px x y = grey) :
    let r := fittedRect R img.cols img.rows inputSize
    m.drawInto r (ops.resize img r.width r.height) = letterboxed ops inputSize img := by
  intro r
  have hpx : (m.drawInto r (ops.resize img r.width r.height)).px =
      (letterboxed ops inputSize img).px := by
    funext x y
    simp only [Image.drawInto, letterboxed]
    split_ifs with hin
    · rfl
    · exact hgrey x y (Bool.eq_false_of_not_eq_true hin)
  rw [letterboxed, Image.mk.injEq]
  exact ⟨hcols, hrows, hpx⟩

namespace Yolov8Detector

variable (ops : DetectorOps R)

/-- The invariant of the canvas: it has the input size, and once a frame has been drawn, it is grey
outside the rectangle of that frame. -/
structure GreyAround (s : Yolov8Detector R) : Prop where
  cols : s.canvas.cols = s.inputSize
  rows : s.canvas.rows = s.inputSize
  around : s.fittedW = -1 ∨ ∀ x y, (placed s.inputSize s.fittedW s.fittedH).contains x y = false →
    s.canvas.px x y = grey

theorem greyAround_new (config : Yolov8Config R) (inputSize numClasses numAnchors : ℕ)
    (memory : ℕ → ℕ → Bgr) :
    (new config inputSize numClasses numAnchors memory).GreyAround :=
  ⟨rfl, rfl, Or.inl rfl⟩

theorem runFrames_concat (s : Yolov8Detector R) (frames : List (Image Bgr)) (img : Image Bgr) :
    s.runFrames ops (frames ++ [img]) = ((s.runFrames ops frames).detect ops img).2 := by
  rw [runFrames, List.foldl_append]
  rfl

/-- `detect` leaves the canvas as `preprocess` does. -/
theorem detect_snd (s : Yolov8Detector R) (img : Image Bgr) :
    ∃ scratch, (s.detect ops img).2 = { s.preprocess ops img with scratch := scratch } := by
  simp only [detect]
  cases ops.run (blob (s.preprocess ops img).canvas (s.preprocess ops img).inputSize) with
  | none => exact ⟨(s.preprocess ops img).scratch, rfl⟩
  | some out => exact ⟨_, rfl⟩

section Lawful

variable [LawfulScalar R]

/-- **One frame.** Where the invariant holds, the canvas of the next frame is as it should be. -/
theorem GreyAround.preprocess_canvas {s : Yolov8Detector R} (h : s.GreyAround) (img : Image Bgr) :
    (s.preprocess ops img).canvas = letterboxed ops s.inputSize img := by
  obtain ⟨hwidth, -⟩ := fittedRect_nonneg R (Int.natCast_nonneg img.cols)
    (Int.natCast_nonneg img.rows) (Int.natCast_nonneg s.inputSize)
  change Image.drawInto (if (fittedRect R img.cols img.rows s.inputSize).width ≠ s.fittedW ∨
    (fittedRect R img.cols img.rows s.inputSize).height ≠ s.fittedH then s.canvas.setTo grey
    else s.canvas) _ _ = _
  split_ifs with hfit
  · exact drawInto_eq_letterboxed ops img h.cols h.rows fun x y _ => rfl
  · -- the size has been drawn before, so a frame has been drawn, in the same rectangle
    rw [not_or, not_not, not_not] at hfit
    have hgrey := h.around.resolve_left (by omega)
    rw [← hfit.1, ← hfit.2] at hgrey
    exact drawInto_eq_letterboxed ops img h.cols h.rows hgrey

theorem GreyAround.preprocess {s : Yolov8Detector R} (h : s.GreyAround) (img : Image Bgr) :
    (s.preprocess ops img).GreyAround := by
  have hcanvas := h.preprocess_canvas ops img
  refine ⟨?_, ?_, Or.inr fun x y hout => ?_⟩
  · rw [hcanvas]
    rfl
  · rw [hcanvas]
    rfl
  · rw [hcanvas]
    exact if_neg fun hin => Bool.false_ne_true (hout.symm.trans hin)

theorem GreyAround.detect {s : Yolov8Detector R} (h : s.GreyAround) (img : Image Bgr) :
    (s.detect ops img).2.GreyAround := by
  obtain ⟨scratch, hdetect⟩ := s.detect_snd ops img
  rw [hdetect]
  exact ⟨(h.preprocess ops img).cols, (h.preprocess ops img).rows, (h.preprocess ops img).around⟩

/-- The invariant holds after every sequence of frames. -/
theorem GreyAround.runFrames {s : Yolov8Detector R} (h : s.GreyAround) (frames : List (Image Bgr)) :
    (s.runFrames ops frames).GreyAround := by
  induction frames using List.reverseRecOn with
  | nil => exact h
  | append_singleton frames img ih =>
    rw [runFrames_concat]
    exact ih.detect ops img

end Lawful

/-- What no call changes. -/
structure SameSetup (s s' : Yolov8Detector R) : Prop where
  config : s'.config = s.config
  inputSize : s'.inputSize = s.inputSize
  numClasses : s'.numClasses = s.numClasses
  numAnchors : s'.numAnchors = s.numAnchors

theorem sameSetup_runFrames (s : Yolov8Detector R) (frames : List (Image Bgr)) :
    SameSetup s (s.runFrames ops frames) := by
  induction frames using List.reverseRecOn with
  | nil => exact ⟨rfl, rfl, rfl, rfl⟩
  | append_singleton frames img ih =>
    obtain ⟨scratch, hdetect⟩ := (s.runFrames ops frames).detect_snd ops img
    rw [runFrames_concat, hdetect]
    exact ⟨ih.config, ih.inputSize, ih.numClasses, ih.numAnchors⟩

/-! ## History -/

section History

variable [LawfulScalar R] (config : Yolov8Config R) (inputSize numClasses numAnchors : ℕ)
  (memory memory' : ℕ → ℕ → Bgr) (frames : List (Image Bgr)) (img : Image Bgr)

/-- After any frames, the canvas of the next one is as it should be. -/
theorem canvas_of_runFrames :
    (((new config inputSize numClasses numAnchors memory).runFrames ops frames).preprocess ops
      img).canvas = letterboxed ops inputSize img := by
  have hgrey := (greyAround_new config inputSize numClasses numAnchors memory).runFrames ops frames
  rw [hgrey.preprocess_canvas, (sameSetup_runFrames ops _ frames).inputSize]
  rfl

/-- **The canvas does not depend on the history.** After any frames, of any sizes, the canvas of the
next frame is the one a fresh detector draws for that frame alone: the resized frame in its
rectangle, and grey around it.

**Proof sketch.** The canvas is drawn anew for each frame, on the grey the buffer keeps outside
the rectangle of its current size; both sides are the letterboxed frame (`canvas_of_runFrames`). -/
theorem canvas_history_independent :
    let used : Yolov8Detector R :=
      (new config inputSize numClasses numAnchors memory).runFrames ops frames
    let fresh : Yolov8Detector R := new config inputSize numClasses numAnchors memory'
    let r := fittedRect R img.cols img.rows inputSize
    (used.preprocess ops img).canvas = (fresh.preprocess ops img).canvas ∧
      ∀ x y, (used.preprocess ops img).canvas.px x y =
        if r.contains x y then ops.resize img r.width r.height (x - r.x.toNat) (y - r.y.toNat)
        else grey := by
  intro used fresh r
  have hused : (used.preprocess ops img).canvas = letterboxed ops inputSize img :=
    canvas_of_runFrames ops config inputSize numClasses numAnchors memory frames img
  have hfresh : (fresh.preprocess ops img).canvas = letterboxed ops inputSize img :=
    canvas_of_runFrames ops config inputSize numClasses numAnchors memory' [] img
  refine ⟨hused.trans hfresh.symm, fun x y => ?_⟩
  rw [hused]
  rfl

end History

/-- A wide frame after another wide frame and a tall one, resized by the nearest pixel. -/
theorem canvas_history_independent_wide :
    let ops : DetectorOps ℝ :=
      { resize := fun img w h x y => img.px (x * img.cols / w.toNat) (y * img.rows / h.toNat)
        run := some
        sorter := stableSorter }
    let wide : Image Bgr := ⟨1280, 720, fun _ _ => ⟨255, 0, 0⟩⟩
    let tall : Image Bgr := ⟨720, 1280, fun _ _ => ⟨0, 255, 0⟩⟩
    let used := (new {} 640 80 8400 fun _ _ => ⟨1, 2, 3⟩).runFrames ops [wide, tall]
    let fresh := new {} 640 80 8400 fun _ _ => ⟨0, 0, 0⟩
    (used.preprocess ops wide).canvas = (fresh.preprocess ops wide).canvas := by
  intro ops wide tall used fresh
  exact (canvas_history_independent ops {} 640 80 8400 _ _ [wide, tall] wide).1

end Yolov8Detector

end Ctrk
