import CustosTracker.Common.MachineNumbers
import CustosTracker.Tbd.Yolov8

set_option relaxedAutoImplicit false
set_option autoImplicit false

/-!
# Decoding in machine arithmetic

`decode_yolov8` over any type with the operators of the language.  Over a `Scalar` it is the
decoder of `Tbd/Yolov8`; over `Float32` it is the compiled one, whose boxes may overflow.  The size
test `box.w <= 1.f || box.h <= 1.f` lets a box through whose width is not a number.

## Main definitions

* `Ctrk.Cpp.decodeYolov8` — the decoder, with the functions of `geometry.cpp` it calls.

## Main results

* `Ctrk.Cpp.decodeYolov8_exact` — in exact arithmetic it is the decoder of this development.
* `Ctrk.Cpp.decode_overflow` — a finite head output with a detection that is no box.
-/

namespace Ctrk

namespace Cpp

section Machine

variable {F : Type} [Add F] [Sub F] [Mul F] [Div F] [LT F] [LE F] [DecidableLT F] [DecidableLE F]
  [CMath F]

/-! ## Geometry -/

/-- The box of zeros. -/
def blankBox : BBox F := ⟨CMath.ofInt 0, CMath.ofInt 0, CMath.ofInt 0, CMath.ofInt 0⟩

/-- `iou`. -/
def iou (a b : BBox F) : F :=
  let zero : F := CMath.ofInt 0
  if a.w ≤ zero ∨ a.h ≤ zero ∨ b.w ≤ zero ∨ b.h ≤ zero then zero
  else
    let x1 := stdMax a.x b.x
    let y1 := stdMax a.y b.y
    let x2 := stdMin (a.x + a.w) (b.x + b.w)
    let y2 := stdMin (a.y + a.h) (b.y + b.h)
    let iw := x2 - x1
    let ih := y2 - y1
    if iw ≤ zero ∨ ih ≤ zero then zero
    else
      let inter := iw * ih
      inter / (a.w * a.h + b.w * b.h - inter)

/-- The inner loop of `nms`. -/
def suppressFrom (boxes : List (BBox F)) (iouThr : F) (i : ℕ) (order : List ℕ)
    (suppressed : ℕ → Bool) : ℕ → Bool :=
  order.foldl (fun suppressed j =>
    if j = i ∨ suppressed j then suppressed
    else if iouThr < iou (boxes.getD i blankBox) (boxes.getD j blankBox) then
      Function.update suppressed j true
    else suppressed) suppressed

/-- One round of the outer loop of `nms`. -/
def nmsRound (boxes : List (BBox F)) (iouThr : F) (order : List ℕ) (s : List ℕ × (ℕ → Bool))
    (i : ℕ) : List ℕ × (ℕ → Bool) :=
  if s.2 i then s else (s.1 ++ [i], suppressFrom boxes iouThr i order s.2)

/-- `nms`. -/
def nms (sort : List F → List ℕ) (boxes : List (BBox F)) (scores : List F) (iouThr : F) : List ℕ :=
  let order := sort scores
  (order.foldl (nmsRound boxes iouThr order) ([], fun _ => false)).1

/-- `letterbox_map`. -/
def letterboxMap (srcW srcH dstW dstH : ℤ) : LetterboxMap F :=
  let scale : F := stdMin (CMath.ofInt dstW / CMath.ofInt srcW) (CMath.ofInt dstH / CMath.ofInt srcH)
  { scale := scale
    padX := ratio 1 2 * (CMath.ofInt dstW - scale * CMath.ofInt srcW)
    padY := ratio 1 2 * (CMath.ofInt dstH - scale * CMath.ofInt srcH)
    srcW := srcW
    srcH := srcH
    dstW := dstW
    dstH := dstH }

/-- `from_letterbox`. -/
def fromLetterbox (b : BBox F) (m : LetterboxMap F) : BBox F :=
  ⟨(b.x - m.padX) / m.scale, (b.y - m.padY) / m.scale, b.w / m.scale, b.h / m.scale⟩

/-! ## Decoding -/

/-- One pass over the scores of class `c`. -/
def scanRow (row : ℕ → F) (c : ℕ) (s : DecodeScratch F) : DecodeScratch F where
  best a := if s.best a ≤ row a then row a else s.best a
  bestCls a := if s.best a ≤ row a then wrapInt16 c else s.bestCls a

/-- The passes over all classes. -/
def scanClasses (out : ℕ → F) (numClasses numAnchors : ℕ) (confThr : F) : DecodeScratch F :=
  (List.range numClasses).foldl
    (fun s c => scanRow (fun a => out ((4 + c) * numAnchors + a)) c s)
    { best := fun _ => confThr, bestCls := fun _ => -1 }

/-- Clip a box to the source frame. -/
def clipToFrame (m : LetterboxMap F) (box : BBox F) : BBox F :=
  let x2 := stdMin (box.x + box.w) (CMath.ofInt m.srcW)
  let y2 := stdMin (box.y + box.h) (CMath.ofInt m.srcH)
  let x := stdMax box.x (CMath.ofInt 0)
  let y := stdMax box.y (CMath.ofInt 0)
  ⟨x, y, x2 - x, y2 - y⟩

/-- The box an anchor predicts, in source pixels. -/
def anchorBox (out : ℕ → F) (numAnchors : ℕ) (m : LetterboxMap F) (a : ℕ) : BBox F :=
  let value := fun c => out (c * numAnchors + a)
  let cx := value 0
  let cy := value 1
  let w := value 2
  let h := value 3
  clipToFrame m (fromLetterbox ⟨cx - ratio 1 2 * w, cy - ratio 1 2 * h, w, h⟩ m)

/-- The candidate of an anchor, if it has one. -/
def candidate (out : ℕ → F) (numAnchors : ℕ) (s : DecodeScratch F) (m : LetterboxMap F)
    (keepClasses : List ℤ) (a : ℕ) : Option (Detection F) :=
  let bestCls := s.bestCls a
  if bestCls < 0 ∨ ¬wanted keepClasses bestCls then none
  else
    let box := anchorBox out numAnchors m a
    if box.w ≤ CMath.ofInt 1 ∨ box.h ≤ CMath.ofInt 1 then none
    else some ⟨box, s.best a, bestCls, []⟩

/-- A detection, moved by its class. -/
def shiftByClass (d : Detection F) : BBox F :=
  let off : F := CMath.ofInt d.classId * CMath.ofInt 4096
  ⟨d.box.x + off, d.box.y + off, d.box.w, d.box.h⟩

/-- `decode_yolov8`. -/
def decodeYolov8 (sort : List F → List ℕ) (out : ℕ → F) (numClasses numAnchors : ℕ)
    (confThr nmsIou : F) (m : LetterboxMap F) (keepClasses : List ℤ) : List (Detection F) :=
  let s := scanClasses out numClasses numAnchors confThr
  let candidates := (List.range numAnchors).filterMap (candidate out numAnchors s m keepClasses)
  let shifted := candidates.map shiftByClass
  let scores := candidates.map Detection.score
  (nms sort shifted scores nmsIou).map fun idx =>
    candidates.getD idx ⟨blankBox, CMath.ofInt 0, -1, []⟩

end Machine

/-! ## In exact arithmetic -/

section Exact

variable {R : Type} [Scalar R]

theorem blankBox_exact : (blankBox : BBox R) = default := by
  simp only [blankBox, ofInt_exact, Int.cast_zero]
  rfl

theorem iou_exact (a b : BBox R) : iou a b = Ctrk.iou a b := by
  simp only [iou, Ctrk.iou, ofInt_exact, Int.cast_zero, stdMax_eq_max, stdMin_eq_min]
  rfl

theorem nms_exact (sort : List R → List ℕ) (boxes : List (BBox R)) (scores : List R) (iouThr : R) :
    nms sort boxes scores iouThr = Ctrk.nms sort boxes scores iouThr := by
  have hinner : ∀ i order flags,
      suppressFrom boxes iouThr i order flags = Ctrk.suppressFrom boxes iouThr i order flags := by
    intro i order flags
    simp only [suppressFrom, Ctrk.suppressFrom, iou_exact, blankBox_exact]
  have hround : nmsRound boxes iouThr (sort scores) = Ctrk.nmsRound boxes iouThr (sort scores) := by
    funext s i
    rw [nmsRound, Ctrk.nmsRound, hinner]
  rw [nms, Ctrk.nms, hround]

theorem letterboxMap_exact (srcW srcH dstW dstH : ℤ) :
    (letterboxMap srcW srcH dstW dstH : LetterboxMap R) = Ctrk.letterboxMap srcW srcH dstW dstH := by
  simp only [letterboxMap, Ctrk.letterboxMap, ofInt_exact, ratio_exact, stdMin_eq_min,
    Int.cast_one, Int.cast_ofNat]

theorem anchorBox_exact (out : ℕ → R) (numAnchors : ℕ) (m : LetterboxMap R) (a : ℕ) :
    anchorBox out numAnchors m a = Ctrk.anchorBox out numAnchors m a := by
  simp only [anchorBox, Ctrk.anchorBox, clipToFrame, Ctrk.clipToFrame, ofInt_exact, ratio_exact,
    stdMin_eq_min, stdMax_eq_max, Int.cast_zero, Int.cast_one, Int.cast_ofNat]
  rfl

theorem candidate_exact (out : ℕ → R) (numAnchors : ℕ) (s : DecodeScratch R) (m : LetterboxMap R)
    (keepClasses : List ℤ) (a : ℕ) :
    candidate out numAnchors s m keepClasses a = Ctrk.candidate out numAnchors s m keepClasses a := by
  simp only [candidate, Ctrk.candidate, anchorBox_exact, ofInt_exact, Int.cast_one]

/-- **In exact arithmetic** the decoder is that of the other modules. -/
theorem decodeYolov8_exact (sorter : Sorter R) (out : ℕ → R) (numClasses numAnchors : ℕ)
    (confThr nmsIou : R) (m : LetterboxMap R) (keepClasses : List ℤ) :
    decodeYolov8 sorter.order out numClasses numAnchors confThr nmsIou m keepClasses =
      Ctrk.decodeYolov8 sorter out numClasses numAnchors confThr nmsIou m keepClasses := by
  have hscan : scanClasses out numClasses numAnchors confThr =
      Ctrk.scanClasses out numClasses numAnchors confThr := rfl
  have hcand : candidate out numAnchors (Ctrk.scanClasses out numClasses numAnchors confThr) m
      keepClasses = Ctrk.candidate out numAnchors
        (Ctrk.scanClasses out numClasses numAnchors confThr) m keepClasses :=
    funext fun a => candidate_exact out numAnchors _ m keepClasses a
  have hshift : (shiftByClass : Detection R → BBox R) = Ctrk.shiftByClass := by
    funext d
    simp only [shiftByClass, Ctrk.shiftByClass, BBox.shift, ofInt_exact, Int.cast_ofNat]
  have hblank : (⟨blankBox, CMath.ofInt 0, -1, []⟩ : Detection R) = default := by
    rw [blankBox_exact, ofInt_exact, Int.cast_zero]
    rfl
  simp only [decodeYolov8, Ctrk.decodeYolov8, candidates, hscan, hcand, hshift, nms_exact, hblank]

end Exact

/-! ## In single precision -/

/-- A head output with one class and one anchor: a finite box of width `10 ^ 38`, and its score. -/
def wideTensor : ℕ → Float32
  | 0 => 320
  | 1 => 320
  | 2 => CMath.ofInt (10 ^ 38)
  | 3 => 100
  | _ => 1 / 2

/-- On a frame of 7680 by 4320 pixels the box of `wideTensor` overflows: its left side is negative
infinity, its right side and its width are no numbers, and it is returned. -/
theorem decode_overflow :
    let m : LetterboxMap Float32 := letterboxMap 7680 4320 640 640
    let detections := decodeYolov8 (fun scores => List.range scores.length) wideTensor 1 1
      (ratio 1 10) (ratio 45 100) m []
    (∀ i < 5, (wideTensor i).isFinite = true) ∧ detections.length = 1 ∧
      ∀ d ∈ detections, d.box.w.isNaN = true ∧ ¬1 < d.box.w ∧ ¬d.box.x + d.box.w ≤ 7680 := by
  decide +kernel

end Cpp

end Ctrk
