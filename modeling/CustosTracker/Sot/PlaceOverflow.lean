import CustosTracker.Common.MachineNumbers
import CustosTracker.Sot.Signal

set_option relaxedAutoImplicit false
set_option autoImplicit false

/-!
# Moving the box in machine arithmetic

What `NanoTracker::init` and `NanoTracker::update` compute with numbers, over any type with the
operators of the language.  Over a `Scalar` it is what the tracker of `Sot/NanoTracker` computes;
over `Float32` the box may overflow.  `std::clamp` keeps a size that is not a number, the region of
the box is then empty, and a histogram of it is no signal.

## Main definitions

* `Ctrk.Cpp.NanoMotion`, `Ctrk.Cpp.start`, `Ctrk.Cpp.track` — the numbers of the tracker.
* `Ctrk.Cpp.boxRoi`, `Ctrk.Cpp.histSimilarity` — the region of a box, and its comparison with the
  reference.

## Main results

* `Ctrk.Cpp.track_exact`, `Ctrk.Cpp.histSimilarity_exact` — in exact arithmetic these are the tracker
  and the similarity of this development.
* `Ctrk.Cpp.place_overflow` — a finite answer of the head after which a check has no signal.
-/

namespace Ctrk

namespace Cpp

open NanoTracker (BestCell)

/-- The configuration that `update` computes with. -/
structure NanoTuning (F : Type) where
  contextAmount : F
  penaltyK : F
  windowInfluence : F
  sizeLr : F

/-- The members that move the box. -/
structure NanoMotion (F : Type) where
  posX : F
  posY : F
  szW : F
  szH : F
  imgSize : ℕ × ℕ

/-- A score map: its side, the answer of the head, and the tables of the constructor. -/
structure ScoreMap (F : Type) where
  side : ℕ
  cls : List F
  reg : List F
  hann : List F
  gridX : List F
  gridY : List F

section Machine

variable {F : Type} [Add F] [Sub F] [Mul F] [Div F] [Neg F] [LT F] [DecidableLT F] [CMath F]

/-! ## The tracker -/

/-- `size_cal`. -/
def sizeCal (w h : F) : F :=
  let pad := (w + h) * ratio 1 2
  CMath.sqrt ((w + pad) * (h + pad))

/-- `recip_max`. -/
def recipMax (v : F) : F := stdMax v (CMath.ofInt 1 / v)

/-- `init`. -/
def start (target : BBox F) (imgSize : ℕ × ℕ) : NanoMotion F :=
  ⟨target.x + target.w * ratio 1 2, target.y + target.h * ratio 1 2, target.w, target.h, imgSize⟩

/-- The scale from image pixels to pixels of the search window. -/
def scaleZ (cfg : NanoTuning F) (t : NanoMotion F) : F :=
  let szSum : F := CMath.ofInt (CMath.toInt (t.szW + t.szH))
  let wc := t.szW + cfg.contextAmount * szSum
  let hc := t.szH + cfg.contextAmount * szSum
  CMath.ofInt kExemplar / CMath.sqrt (wc * hc)

/-- One cell of the score map. -/
def considerCell (exp : F → F) (cfg : NanoTuning F) (t : NanoMotion F) (map : ScoreMap F)
    (best : BestCell F) (i : ℕ) : BestCell F :=
  let zero : F := CMath.ofInt 0
  let one : F := CMath.ofInt 1
  let kCells := map.side * map.side
  let c0 := map.cls.getD i zero
  let c1 := map.cls.getD (kCells + i) zero
  let m := stdMax c0 c1
  let e0 := exp (c0 - m)
  let e1 := exp (c1 - m)
  let score := e1 / (e0 + e1)
  let x1 := map.gridX.getD i zero - map.reg.getD (0 * kCells + i) zero
  let y1 := map.gridY.getD i zero - map.reg.getD (1 * kCells + i) zero
  let x2 := map.gridX.getD i zero + map.reg.getD (2 * kCells + i) zero
  let y2 := map.gridY.getD i zero + map.reg.getD (3 * kCells + i) zero
  let sc := recipMax (sizeCal (x2 - x1) (y2 - y1) / sizeCal t.posX t.posY)
  let rc := recipMax (t.szW / t.szH / ((x2 - x1) / (y2 - y1)))
  let penalty := exp (-(rc * sc - one) * cfg.penaltyK)
  let pscore := penalty * score * (one - cfg.windowInfluence) +
    map.hann.getD i zero * cfg.windowInfluence
  if best.pscore < pscore then ⟨pscore, score, penalty, x1, y1, x2, y2⟩ else best

/-- The best cell of the score map. -/
def bestCell (exp : F → F) (cfg : NanoTuning F) (t : NanoMotion F) (map : ScoreMap F) :
    BestCell F :=
  let zero : F := CMath.ofInt 0
  (List.range (map.side * map.side)).foldl (considerCell exp cfg t map)
    ⟨CMath.ofInt (-1), zero, zero, zero, zero, zero, zero⟩

/-- Move the box to a cell. -/
def place (cfg : NanoTuning F) (t : NanoMotion F) (scaleZ : F) (best : BestCell F) :
    SotResult F × NanoMotion F :=
  let half : F := CMath.ofInt (kInstance / 2 : ℕ)
  let predXs := (best.x1 + best.x2) * ratio 1 2
  let predYs := (best.y1 + best.y2) * ratio 1 2
  let predW := (best.x2 - best.x1) / scaleZ
  let predH := (best.y2 - best.y1) / scaleZ
  let diffXs := (predXs - half) / scaleZ
  let diffYs := (predYs - half) / scaleZ
  let szW := t.szW / scaleZ
  let szH := t.szH / scaleZ
  let lr := best.penalty * best.score * cfg.sizeLr
  let posX := stdClamp (t.posX + diffXs) (CMath.ofInt 0) (CMath.ofInt t.imgSize.1)
  let posY := stdClamp (t.posY + diffYs) (CMath.ofInt 0) (CMath.ofInt t.imgSize.2)
  let szW := stdClamp (predW * lr + (CMath.ofInt 1 - lr) * szW) (CMath.ofInt 10)
    (CMath.ofInt t.imgSize.1)
  let szH := stdClamp (predH * lr + (CMath.ofInt 1 - lr) * szH) (CMath.ofInt 10)
    (CMath.ofInt t.imgSize.2)
  (⟨⟨posX - szW * ratio 1 2, posY - szH * ratio 1 2, szW, szH⟩, best.score, .tracking⟩,
    ⟨posX, posY, szW, szH, t.imgSize⟩)

/-- `update`, from the answer of the head on. -/
def track (exp : F → F) (cfg : NanoTuning F) (t : NanoMotion F) (map : ScoreMap F) :
    SotResult F × NanoMotion F :=
  let scale := scaleZ cfg t
  let t := { t with szW := t.szW * scale, szH := t.szH * scale }
  place cfg t scale (bestCell exp cfg t map)

/-! ## The drift check -/

/-- The region that `hsv_hist` looks at. -/
def boxRoi (img : Image Bgr) (box : BBox F) : Rect :=
  Rect.inter ⟨CMath.toInt box.x, CMath.toInt box.y, CMath.toInt box.w, CMath.toInt box.h⟩ img.bounds

/-- `hsv_hist`. -/
def hsvHist (ops : HistOps F) (img : Image Bgr) (box : BBox F) : List F :=
  let roi := boxRoi img box
  if roi.width < 2 ∨ roi.height < 2 then [] else ops.hist (img.sub roi)

/-- `similarity` with the histogram embedder. -/
def histSimilarity (ops : HistOps F) (refHist : List F) (img : Image Bgr) (box : BBox F) : F :=
  if refHist.isEmpty then CMath.ofInt 1
  else
    let hist := hsvHist ops img box
    if hist.isEmpty then CMath.ofInt 1 else CMath.ofInt 1 - ops.compareHist refHist hist

end Machine

/-! ## In exact arithmetic -/

section Exact

variable {R : Type} [Scalar R]

/-- The numbers of a tracker. -/
def motionOf (t : NanoTracker R) : NanoMotion R := ⟨t.posX, t.posY, t.szW, t.szH, t.imgSize⟩

/-- The numbers of a configuration. -/
def tuningOf (cfg : SotConfig R) : NanoTuning R :=
  ⟨cfg.contextAmount, cfg.penaltyK, cfg.windowInfluence, cfg.sizeLr⟩

/-- The score map of a tracker. -/
def mapOf (ops : NanoOps R) (t : NanoTracker R) (outs : List R × List R) : ScoreMap R :=
  ⟨ops.scoreSize, outs.1, outs.2, t.hann, t.gridX, t.gridY⟩

theorem start_exact (ops : NanoOps R) (t : NanoTracker R) (image : Image Bgr) (target : BBox R) :
    motionOf (t.init ops image target) = start target (image.cols, image.rows) := by
  simp only [start, ratio_exact, Int.cast_one, Int.cast_ofNat]
  rfl

theorem scaleZ_exact (t : NanoTracker R) : scaleZ (tuningOf t.cfg) (motionOf t) = t.scaleZ := by
  simp only [scaleZ, NanoTracker.scaleZ, NanoTracker.searchSide, ofInt_exact, toInt_exact,
    sqrt_exact, Int.cast_natCast]
  rfl

theorem considerCell_exact (ops : NanoOps R) (t : NanoTracker R) (outs : List R × List R) :
    considerCell ops.cv.exp (tuningOf t.cfg) (motionOf t) (mapOf ops t outs) =
      t.considerCell ops outs.1 outs.2 := by
  funext best i
  simp only [considerCell, NanoTracker.considerCell, sizeCal, Ctrk.sizeCal, recipMax,
    Ctrk.recipMax, ofInt_exact, ratio_exact, sqrt_exact, stdMax_eq_max, Int.cast_zero,
    Int.cast_one, Int.cast_ofNat]
  rfl

theorem bestCell_exact (ops : NanoOps R) (t : NanoTracker R) (outs : List R × List R) :
    bestCell ops.cv.exp (tuningOf t.cfg) (motionOf t) (mapOf ops t outs) =
      t.bestCell ops outs.1 outs.2 := by
  simp only [bestCell, NanoTracker.bestCell, considerCell_exact, ofInt_exact, Int.cast_zero,
    Int.cast_neg, Int.cast_one]
  rfl

theorem place_exact (t : NanoTracker R) (scaleZ : R) (best : BestCell R) :
    place (tuningOf t.cfg) (motionOf t) scaleZ best =
      ((t.place scaleZ best).1, motionOf (t.place scaleZ best).2) := by
  simp only [place, NanoTracker.place, motionOf, tuningOf, ofInt_exact, ratio_exact,
    stdClamp_eq_clamp, Int.cast_zero, Int.cast_one, Int.cast_ofNat, Int.cast_natCast]

/-- The refresh of the template does not move the box. -/
theorem motionOf_refresh (ops : NanoOps R) (t : NanoTracker R) (image : Image Bgr)
    (r : SotResult R) : motionOf (t.refresh ops image r) = motionOf t := by
  simp only [NanoTracker.refresh]
  split_ifs <;> rfl

/-- **In exact arithmetic** the numbers are those of the tracker: its result, and where it leaves the
box. -/
theorem track_exact (ops : NanoOps R) (t : NanoTracker R) (image : Image Bgr) :
    track ops.cv.exp (tuningOf t.cfg) (motionOf t)
        (mapOf ops t ((t.search ops image).respond ops)) =
      ((t.update ops image).1, motionOf (t.update ops image).2) := by
  have hmove : { motionOf t with
      szW := (motionOf t).szW * t.scaleZ, szH := (motionOf t).szH * t.scaleZ } =
      motionOf (t.search ops image) := rfl
  have hcell := bestCell_exact ops (t.search ops image) ((t.search ops image).respond ops)
  have hplace := place_exact (t.search ops image) t.scaleZ
    ((t.search ops image).bestCell ops ((t.search ops image).respond ops).1
      ((t.search ops image).respond ops).2)
  simp only [track, scaleZ_exact, hmove]
  refine (congrArg (place _ _ t.scaleZ) hcell).trans (hplace.trans ?_)
  simp only [NanoTracker.update, motionOf_refresh]

/-- The similarity of this development, with histograms. -/
theorem histSimilarity_exact {K : Backend R} (ops : HistOps R) (s : SotTracker K)
    (hemb : s.cfg.reid.embedder = .hsvHist) (img : Image Bgr) (box : BBox R) :
    histSimilarity ops s.refHist img box = s.similarity ops img box := by
  have hhist : hsvHist ops img box = Ctrk.hsvHist ops img box := rfl
  simp only [histSimilarity, SotTracker.similarity, hemb, hhist, ofInt_exact, Int.cast_one]

end Exact

/-! ## In single precision -/

/-- The default configuration. -/
def defaultTuning : NanoTuning Float32 := ⟨ratio 1 2, ratio 55 1000, ratio 455 1000, ratio 37 100⟩

/-- `std::exp`, with its values at zero and at negative infinity written out. -/
def floatExp (x : Float32) : Float32 :=
  if x == 0 then 1 else if x == -(1 / 0) then 0 else Float32.exp x

/-- A score map of two by two cells with even class scores, and boxes `4 * 10 ^ 38` pixels wide. -/
def spreadMap : ScoreMap Float32 where
  side := 2
  cls := List.replicate 8 0
  reg := List.replicate 4 (CMath.ofInt (2 * 10 ^ 38)) ++ List.replicate 4 20 ++
    List.replicate 4 (CMath.ofInt (2 * 10 ^ 38)) ++ List.replicate 4 20
  hann := List.replicate 4 0
  gridX := [111, 127, 111, 127]
  gridY := [111, 111, 127, 127]

/-- A frame of 640 by 480 pixels. -/
def vgaFrame : Image Bgr := ⟨640, 480, fun _ _ => ⟨0, 0, 0⟩⟩

/-- The first frame after `init`, with the head answering `spreadMap`: its penalty and its rate
vanish, its width is no number, and whatever the histograms are, the similarity is the `1` of a
missing signal. -/
theorem place_overflow :
    let target : BBox Float32 := ⟨300, 200, 40, 40⟩
    let r := (track floatExp defaultTuning (start target (640, 480)) spreadMap).1
    ((∀ v ∈ spreadMap.cls ++ spreadMap.reg, v.isFinite = true) ∧ r.score = 1 / 2 ∧
      r.box.w.isNaN = true ∧ (boxRoi vgaFrame r.box).width < 2) ∧
    ∀ (ops : HistOps Float32) (refHist : List Float32),
      hsvHist ops vgaFrame r.box = [] ∧ histSimilarity ops refHist vgaFrame r.box = 1 := by
  intro target r
  have hrun : (∀ v ∈ spreadMap.cls ++ spreadMap.reg, v.isFinite = true) ∧ r.score = 1 / 2 ∧
      r.box.w.isNaN = true ∧ (boxRoi vgaFrame r.box).width < 2 := by
    decide +kernel
  refine ⟨hrun, fun ops refHist => ?_⟩
  have hhist : hsvHist ops vgaFrame r.box = [] := if_pos (Or.inl hrun.2.2.2)
  refine ⟨hhist, ?_⟩
  rw [histSimilarity, hhist]
  exact ite_self _

end Cpp

end Ctrk
