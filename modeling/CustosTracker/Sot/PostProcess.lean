import CustosTracker.Library.Selection
import CustosTracker.Sot.Crops

set_option relaxedAutoImplicit false
set_option autoImplicit false

/-!
# The post-processing of the siamese tracker

One `update` turns the score map into a new box.  The loop over the cells finds the first cell of
greatest blended score; its penalty and its score bound how fast the size follows, so that each side
moves towards the predicted one and never past it.

## Main definitions

* `Ctrk.LawfulExp` — what is used of `std::exp`.
* `Ctrk.NanoTracker.cellAt` — what the loop computes for a cell.
* `Ctrk.NanoTracker.sizeRate`, `Ctrk.NanoTracker.predictedSize`, `Ctrk.NanoTracker.blendedSize` —
  the sizes of `update`.
* `Ctrk.Extent`, `Ctrk.Extent.InFrame` — where a tracked box is, and the boxes in a frame.
* `Ctrk.NanoTracker.PostProcessable` — a tracker and head outputs that the arithmetic is defined on.

## Main results

* `Ctrk.NanoTracker.Scorable.bestCell_firstMax` — the loop finds the first maximum.
* `Ctrk.NanoTracker.extent_update` — the new box is in the frame.
* `Ctrk.NanoTracker.update_never_overshoots` — the ranges of all that `update` computes.
-/

namespace Ctrk

open Selection

variable {R : Type} [Scalar R]

/-- What is used of the exponential function. -/
structure LawfulExp (exp : R → R) : Prop where
  pos : ∀ x, 0 < exp x
  zero : exp 0 = 1
  mono : Monotone exp

section Penalty

variable [LawfulScalar R]

/-- A positive number or its inverse is at least one. -/
theorem one_le_recipMax {v : R} (hv : 0 < v) : 1 ≤ recipMax v := by
  rcases le_total 1 v with hone | hone
  · exact hone.trans (le_max_left v (1 / v))
  · exact ((one_le_div₀ hv).mpr hone).trans (le_max_right v (1 / v))

/-- A box of positive sides has a positive reference size. -/
theorem sizeCal_pos {w h : R} (hw : 0 < w) (hh : 0 < h) : 0 < sizeCal w h := by
  have hpad : 0 < (w + h) * (1 / 2) := by linarith
  exact sqrt_pos (mul_pos (add_pos hw hpad) (add_pos hh hpad))

/-- A change of size or of aspect never earns a bonus. -/
theorem penalty_le_one {exp : R → R} (hexp : LawfulExp exp) {rc sc k : R} (hrc : 1 ≤ rc)
    (hsc : 1 ≤ sc) (hk : 0 ≤ k) : exp (-(rc * sc - 1) * k) ≤ 1 := by
  have hchange : 0 ≤ rc * sc - 1 := sub_nonneg.mpr (one_le_mul_of_one_le_of_one_le hrc hsc)
  calc exp (-(rc * sc - 1) * k) ≤ exp 0 :=
        hexp.mono (mul_nonpos_of_nonpos_of_nonneg (neg_nonpos.mpr hchange) hk)
    _ = 1 := hexp.zero

end Penalty

/-! ## Tracked boxes -/

/-- Where a tracked box is: its centre and its size, and the size of the frame. -/
structure Extent (R : Type) where
  posX : R
  posY : R
  szW : R
  szH : R
  imgSize : ℕ × ℕ

namespace Extent

/-- The box. -/
def box (e : Extent R) : BBox R :=
  ⟨e.posX - e.szW * (1 / 2), e.posY - e.szH * (1 / 2), e.szW, e.szH⟩

/-- The centre is on the frame, and the sides are from ten to those of the frame. -/
structure InFrame (e : Extent R) : Prop where
  posX : e.posX ∈ Set.Icc 0 (e.imgSize.1 : R)
  posY : e.posY ∈ Set.Icc 0 (e.imgSize.2 : R)
  szW : e.szW ∈ Set.Icc 10 (e.imgSize.1 : R)
  szH : e.szH ∈ Set.Icc 10 (e.imgSize.2 : R)

/-- The clamps at the end of an `update` keep the box in the frame. -/
theorem inFrame_clamp [LawfulScalar R] {size : ℕ × ℕ} (hsize : 10 ≤ size.1 ∧ 10 ≤ size.2)
    (x y w h : R) : InFrame ⟨clamp x 0 size.1, clamp y 0 size.2, clamp w 10 size.1,
      clamp h 10 size.2, size⟩ := by
  have hcols : (10 : R) ≤ size.1 := by exact_mod_cast hsize.1
  have hrows : (10 : R) ≤ size.2 := by exact_mod_cast hsize.2
  have hcols' : (0 : R) ≤ size.1 := Nat.cast_nonneg _
  have hrows' : (0 : R) ≤ size.2 := Nat.cast_nonneg _
  exact
    { posX := ⟨le_clamp hcols', clamp_le hcols'⟩
      posY := ⟨le_clamp hrows', clamp_le hrows'⟩
      szW := ⟨le_clamp hcols, clamp_le hcols⟩
      szH := ⟨le_clamp hrows, clamp_le hrows⟩ }

end Extent

namespace NanoTracker

variable (ops : NanoOps R)

/-! ## The cells -/

/-- What the loop computes for a cell. -/
def cellAt (t : NanoTracker R) (cls reg : List R) (i : ℕ) : BestCell R :=
  let kCells := ops.scoreSize * ops.scoreSize
  let c0 := cls.getD i 0
  let c1 := cls.getD (kCells + i) 0
  let m := max c0 c1
  let e0 := ops.cv.exp (c0 - m)
  let e1 := ops.cv.exp (c1 - m)
  let score := e1 / (e0 + e1)
  let x1 := t.gridX.getD i 0 - reg.getD (0 * kCells + i) 0
  let y1 := t.gridY.getD i 0 - reg.getD (1 * kCells + i) 0
  let x2 := t.gridX.getD i 0 + reg.getD (2 * kCells + i) 0
  let y2 := t.gridY.getD i 0 + reg.getD (3 * kCells + i) 0
  let sc := recipMax (sizeCal (x2 - x1) (y2 - y1) / sizeCal t.posX t.posY)
  let rc := recipMax (t.szW / t.szH / ((x2 - x1) / (y2 - y1)))
  let penalty := ops.cv.exp (-(rc * sc - 1) * t.cfg.penaltyK)
  let pscore := penalty * score * (1 - t.cfg.windowInfluence) +
    t.hann.getD i 0 * t.cfg.windowInfluence
  ⟨pscore, score, penalty, x1, y1, x2, y2⟩

/-- A cell replaces the best one when its blended score is greater. -/
theorem considerCell_eq (t : NanoTracker R) (cls reg : List R) (best : BestCell R) (i : ℕ) :
    t.considerCell ops cls reg best i =
      if best.pscore < (t.cellAt ops cls reg i).pscore then t.cellAt ops cls reg i else best := rfl

/-- **The loop over the cells.** It ends with the choice among the cells whose blended score is
above the initial one.

**Proof sketch.** The loop is a fold that overwrites the cell and its blended score together,
starting below every score; such a fold is a choice. -/
theorem bestCell_eq (t : NanoTracker R) (cls reg : List R) : t.bestCell ops cls reg =
    (choose (fun i => True ∧ (-1 : R) < (t.cellAt ops cls reg i).pscore)
      (fun i j => (t.cellAt ops cls reg j).pscore < (t.cellAt ops cls reg i).pscore)
      (List.range (ops.scoreSize * ops.scoreSize))).elim ⟨-1, 0, 0, 0, 0, 0, 0⟩
        (t.cellAt ops cls reg) := by
  -- the loop overwrites a cell and its blended score
  let record : Option ℕ × R → BestCell R := fun best =>
    { best.1.elim ⟨-1, 0, 0, 0, 0, 0, 0⟩ (t.cellAt ops cls reg) with pscore := best.2 }
  have hstep : ∀ (best : Option ℕ × R) (i : ℕ), t.considerCell ops cls reg (record best) i =
      record (overwrite (fun _ => True) (fun i => (t.cellAt ops cls reg i).pscore)
        (fun x a => a < x) best i) := by
    intro best i
    rw [considerCell_eq]
    by_cases hmore : best.2 < (t.cellAt ops cls reg i).pscore
    · rw [if_pos hmore, overwrite_of _ _ _ ⟨trivial, hmore⟩]
      rfl
    · rw [if_neg hmore, overwrite_of_not _ _ _ fun h => hmore h.2]
  have hfold := @List.foldl_hom _ _ _ record _ _ (List.range (ops.scoreSize * ops.scoreSize))
    (none, -1) hstep
  rw [bestCell, show (⟨-1, 0, 0, 0, 0, 0, 0⟩ : BestCell R) = record (none, -1) from rfl, hfold,
    foldl_overwrite _ _ _ fun h h' => h'.trans h]
  simp only [record]
  cases choose (fun i => True ∧ (-1 : R) < (t.cellAt ops cls reg i).pscore)
      (fun i j => (t.cellAt ops cls reg j).pscore < (t.cellAt ops cls reg i).pscore)
      (List.range (ops.scoreSize * ops.scoreSize)) with
  | none => rfl
  | some i => rfl

/-- A score map and a tracker that the arithmetic of the loop is defined on: a positive position and
size, and every decoded box of positive sides. -/
structure Scorable (t : NanoTracker R) (cls reg : List R) : Prop where
  exp : LawfulExp ops.cv.exp
  cells : 0 < ops.scoreSize
  decoded : ∀ i < ops.scoreSize * ops.scoreSize,
    (t.cellAt ops cls reg i).x1 < (t.cellAt ops cls reg i).x2 ∧
      (t.cellAt ops cls reg i).y1 < (t.cellAt ops cls reg i).y2
  hann : ∀ i < ops.scoreSize * ops.scoreSize, 0 ≤ t.hann.getD i 0
  penaltyK : 0 ≤ t.cfg.penaltyK
  windowInfluence : t.cfg.windowInfluence ∈ Set.Icc 0 1
  pos : 0 < t.posX ∧ 0 < t.posY
  size : 0 < t.szW ∧ 0 < t.szH

section Cells

variable [LawfulScalar R] {ops} {t : NanoTracker R} {cls reg : List R}

/-- A class score is a proper probability. -/
theorem cellAt_score_mem (hexp : LawfulExp ops.cv.exp) (i : ℕ) :
    (t.cellAt ops cls reg i).score ∈ Set.Ioo 0 1 := by
  simp only [cellAt]
  generalize cls.getD i 0 = c0
  generalize cls.getD (ops.scoreSize * ops.scoreSize + i) 0 = c1
  have h0 := hexp.pos (c0 - max c0 c1)
  have h1 := hexp.pos (c1 - max c0 c1)
  exact ⟨div_pos h1 (add_pos h0 h1), (div_lt_one (add_pos h0 h1)).mpr (lt_add_of_pos_left _ h0)⟩

/-- The penalty of a decoded box. -/
theorem Scorable.penalty_mem (h : t.Scorable ops cls reg) {i : ℕ}
    (hi : i < ops.scoreSize * ops.scoreSize) : (t.cellAt ops cls reg i).penalty ∈ Set.Ioc 0 1 := by
  obtain ⟨hx, hy⟩ := h.decoded i hi
  have hw := sub_pos.mpr hx
  have hh := sub_pos.mpr hy
  have hsc := one_le_recipMax (div_pos (sizeCal_pos hw hh) (sizeCal_pos h.pos.1 h.pos.2))
  have hrc := one_le_recipMax (div_pos (div_pos h.size.1 h.size.2) (div_pos hw hh))
  exact ⟨h.exp.pos _, penalty_le_one h.exp hrc hsc h.penaltyK⟩

/-- Every blended score is above the initial one. -/
theorem Scorable.pscore_nonneg (h : t.Scorable ops cls reg) {i : ℕ}
    (hi : i < ops.scoreSize * ops.scoreSize) : 0 ≤ (t.cellAt ops cls reg i).pscore := by
  obtain ⟨hwindow, hwindow'⟩ := h.windowInfluence
  have hblend : (t.cellAt ops cls reg i).pscore =
      (t.cellAt ops cls reg i).penalty * (t.cellAt ops cls reg i).score *
        (1 - t.cfg.windowInfluence) + t.hann.getD i 0 * t.cfg.windowInfluence := rfl
  rw [hblend]
  have hpenalty : 0 < (t.cellAt ops cls reg i).penalty := (h.penalty_mem hi).1
  have hscore : 0 < (t.cellAt ops cls reg i).score := (cellAt_score_mem h.exp i).1
  exact add_nonneg (mul_nonneg (mul_pos hpenalty hscore).le (sub_nonneg.mpr hwindow'))
    (mul_nonneg (h.hann i hi) hwindow)

/-- **Some cell wins.** The loop ends with the first cell of greatest blended score.

**Proof sketch.** All blended scores are nonnegative, so the initial score excludes none, and
there is a cell; the choice is then the first greatest of them. -/
theorem Scorable.bestCell_firstMax (h : t.Scorable ops cls reg) :
    ∃ i < ops.scoreSize * ops.scoreSize,
      FirstMax (fun _ => True) (fun i => (t.cellAt ops cls reg i).pscore)
        (List.range (ops.scoreSize * ops.scoreSize)) i ∧
      t.bestCell ops cls reg = t.cellAt ops cls reg i := by
  have habove : ∀ i ∈ List.range (ops.scoreSize * ops.scoreSize),
      (-1 : R) < (t.cellAt ops cls reg i).pscore := by
    intro i hi
    have hnonneg := h.pscore_nonneg (List.mem_range.mp hi)
    linarith
  rw [bestCell_eq]
  cases hchoose : choose (fun i => True ∧ (-1 : R) < (t.cellAt ops cls reg i).pscore)
      (fun i j => (t.cellAt ops cls reg j).pscore < (t.cellAt ops cls reg i).pscore)
      (List.range (ops.scoreSize * ops.scoreSize)) with
  | none =>
    have hzero := List.mem_range.mpr (Nat.mul_pos h.cells h.cells)
    exact absurd ⟨trivial, habove 0 hzero⟩ ((choose_eq_none_iff _ _).mp hchoose 0 hzero)
  | some i =>
    obtain ⟨pre, post, hsplit, -, hpre, hpost⟩ := firstMax_of_choose hchoose
    have hmem : ∀ j, j ∈ pre ∨ j = i ∨ j ∈ post →
        j ∈ List.range (ops.scoreSize * ops.scoreSize) := by
      intro j hj
      rw [hsplit, List.mem_append, List.mem_cons]
      exact hj
    refine ⟨i, List.mem_range.mp (hmem i (Or.inr (Or.inl rfl))), ⟨pre, post, hsplit, trivial,
      fun j hj _ => ?_, fun j hj _ => ?_⟩, rfl⟩
    · exact hpre j hj ⟨trivial, habove j (hmem j (Or.inl hj))⟩
    · exact hpost j hj ⟨trivial, habove j (hmem j (Or.inr (Or.inr hj)))⟩

end Cells

/-! ## The new size -/

/-- `lr`: how fast the size follows. -/
def sizeRate (t : NanoTracker R) (best : BestCell R) : R :=
  best.penalty * best.score * t.cfg.sizeLr

/-- `pred_w` and `pred_h`: the size of a cell's box, in image pixels. -/
def predictedSize (scaleZ : R) (best : BestCell R) : R × R :=
  ((best.x2 - best.x1) / scaleZ, (best.y2 - best.y1) / scaleZ)

/-- The sides before they are clamped. -/
def blendedSize (t : NanoTracker R) (scaleZ : R) (best : BestCell R) : R × R :=
  let lr := t.sizeRate best
  ((predictedSize scaleZ best).1 * lr + (1 - lr) * (t.szW / scaleZ),
    (predictedSize scaleZ best).2 * lr + (1 - lr) * (t.szH / scaleZ))

/-- Where the box is. -/
def extent (t : NanoTracker R) : Extent R := ⟨t.posX, t.posY, t.szW, t.szH, t.imgSize⟩

/-- The refresh of the template does not move the box. -/
theorem extent_refresh (t : NanoTracker R) (image : Image Bgr) (r : SotResult R) :
    (t.refresh ops image r).extent = t.extent := by
  simp only [refresh]
  split_ifs <;> rfl

/-- `place` clamps the blended sides. -/
theorem place_size (t : NanoTracker R) (scaleZ : R) (best : BestCell R) :
    (t.place scaleZ best).2.szW = clamp (t.blendedSize scaleZ best).1 10 t.imgSize.1 ∧
      (t.place scaleZ best).2.szH = clamp (t.blendedSize scaleZ best).2 10 t.imgSize.2 :=
  ⟨rfl, rfl⟩

/-- `update` returns the box it leaves, which is in the frame, wherever the best cell is. -/
theorem extent_update [LawfulScalar R] (t : NanoTracker R)
    (hsize : 10 ≤ t.imgSize.1 ∧ 10 ≤ t.imgSize.2) (image : Image Bgr) :
    (t.update ops image).2.extent.InFrame ∧
      (t.update ops image).1.box = (t.update ops image).2.extent.box ∧
      (t.update ops image).2.imgSize = t.imgSize := by
  have hextent : (t.update ops image).2.extent = _ := extent_refresh ops _ image _
  refine ⟨?_, ?_, ?_⟩
  · rw [hextent]
    exact Extent.inFrame_clamp hsize _ _ _ _
  · rw [hextent]
    rfl
  · exact congrArg Extent.imgSize hextent

section Blend

variable [LawfulScalar R] {t : NanoTracker R} {best : BestCell R}

/-- The size follows at no more than the configured rate. -/
theorem sizeRate_mem (hpenalty : best.penalty ∈ Set.Ioc 0 1) (hscore : best.score ∈ Set.Ioo 0 1)
    (hlr : t.cfg.sizeLr ∈ Set.Icc 0 1) : t.sizeRate best ∈ Set.Icc 0 t.cfg.sizeLr := by
  have hnonneg : 0 ≤ best.penalty * best.score := mul_nonneg hpenalty.1.le hscore.1.le
  have hone : best.penalty * best.score ≤ 1 := mul_le_one₀ hpenalty.2 hscore.1.le hscore.2.le
  exact ⟨mul_nonneg hnonneg hlr.1, mul_le_of_le_one_left hlr.1 hone⟩

/-- A blend lies between its ends. -/
theorem blend_mem_segment {lr : R} (h : lr ∈ Set.Icc 0 1) (old pred : R) :
    pred * lr + (1 - lr) * old ∈ segment R old pred :=
  ⟨1 - lr, lr, sub_nonneg.mpr h.2, h.1, sub_add_cancel 1 lr, by
    rw [smul_eq_mul, smul_eq_mul, mul_comm lr, add_comm]⟩

/-- The sides move from the old ones towards the predicted ones. -/
theorem blendedSize_mem (hrate : t.sizeRate best ∈ Set.Icc 0 1) (scaleZ : R) :
    (t.blendedSize scaleZ best).1 ∈ segment R (t.szW / scaleZ) (predictedSize scaleZ best).1 ∧
      (t.blendedSize scaleZ best).2 ∈ segment R (t.szH / scaleZ) (predictedSize scaleZ best).2 :=
  ⟨blend_mem_segment hrate _ _, blend_mem_segment hrate _ _⟩

omit [LawfulScalar R] in
/-- Scaling the size back undoes the scaling. -/
theorem search_size_div (ops : NanoOps R) (image : Image Bgr) (h : t.scaleZ ≠ 0) :
    (t.search ops image).szW / t.scaleZ = t.szW ∧ (t.search ops image).szH / t.scaleZ = t.szH :=
  ⟨mul_div_cancel_right₀ t.szW h, mul_div_cancel_right₀ t.szH h⟩

end Blend

/-! ## One update -/

/-- What `update` is defined on: a positive position and size, with a search window, on an image of
sides of at least ten, and head outputs whose boxes have positive sides. -/
structure PostProcessable (t : NanoTracker R) (image : Image Bgr) : Prop where
  exp : LawfulExp ops.cv.exp
  cells : 0 < ops.scoreSize
  decoded : ∀ i < ops.scoreSize * ops.scoreSize,
    let s := t.search ops image
    let cell := s.cellAt ops (s.respond ops).1 (s.respond ops).2 i
    cell.x1 < cell.x2 ∧ cell.y1 < cell.y2
  hann : ∀ i < ops.scoreSize * ops.scoreSize, 0 ≤ t.hann.getD i 0
  penaltyK : 0 ≤ t.cfg.penaltyK
  windowInfluence : t.cfg.windowInfluence ∈ Set.Icc 0 1
  sizeLr : t.cfg.sizeLr ∈ Set.Icc 0 1
  imgSize : 10 ≤ t.imgSize.1 ∧ 10 ≤ t.imgSize.2
  pos : 0 < t.posX ∧ 0 < t.posY
  size : 0 < t.szW ∧ 0 < t.szH
  /-- The root and the division of the scale exist, as they do for every nonnegative context. -/
  searchArea : 0 < t.searchArea

section Update

variable [LawfulScalar R] {ops} {t : NanoTracker R} {image : Image Bgr}

/-- The scale of a search window that exists. -/
theorem scaleZ_pos (h : 0 < t.searchArea) : 0 < t.scaleZ :=
  div_pos (by norm_num [kExemplar]) (sqrt_pos h)

/-- The scaled tracker is one for the loop. -/
theorem PostProcessable.scorable (h : t.PostProcessable ops image) :
    let s := t.search ops image
    s.Scorable ops (s.respond ops).1 (s.respond ops).2 := by
  have hscale : 0 < t.scaleZ := scaleZ_pos h.searchArea
  exact
    { exp := h.exp
      cells := h.cells
      decoded := h.decoded
      hann := h.hann
      penaltyK := h.penaltyK
      windowInfluence := h.windowInfluence
      pos := h.pos
      size := ⟨mul_pos h.size.1 hscale, mul_pos h.size.2 hscale⟩ }

end Update

/-- **The size never overshoots.** `update` picks the first cell of greatest blended score, and
there is one.  Its penalty is in `(0, 1]` and the reported score in `(0, 1)`; the size follows at a
rate between zero and the configured one; each new side, before it is clamped, lies between the old
side and the predicted one; and the new box has its centre on the image and sides from ten to those
of the image.

**Proof sketch.** The penalty is an exponential of a nonpositive number and the score a quotient
of exponentials, which bounds the rate.  Undoing the scale, the blend is a convex combination of
the old sides and the predicted ones; position and sides are clamped afterwards, and the refresh
of the template leaves them as they are. -/
theorem update_never_overshoots [LawfulScalar R] (t : NanoTracker R) (image : Image Bgr)
    (h : t.PostProcessable ops image) :
    let s : NanoTracker R := t.search ops image
    let outs := s.respond ops
    let best := s.bestCell ops outs.1 outs.2
    let sides := s.blendedSize t.scaleZ best
    let new := (t.update ops image).2
    (∃ i < ops.scoreSize * ops.scoreSize,
        FirstMax (fun _ => True) (fun i => (s.cellAt ops outs.1 outs.2 i).pscore)
          (List.range (ops.scoreSize * ops.scoreSize)) i ∧ best = s.cellAt ops outs.1 outs.2 i) ∧
      best.penalty ∈ Set.Ioc 0 1 ∧ (t.update ops image).1.score = best.score ∧
      best.score ∈ Set.Ioo 0 1 ∧ s.sizeRate best ∈ Set.Icc 0 t.cfg.sizeLr ∧
      sides.1 ∈ segment R t.szW (predictedSize t.scaleZ best).1 ∧
      sides.2 ∈ segment R t.szH (predictedSize t.scaleZ best).2 ∧
      new.szW = clamp sides.1 10 t.imgSize.1 ∧ new.szH = clamp sides.2 10 t.imgSize.2 ∧
      new.imgSize = t.imgSize ∧ new.extent.InFrame := by
  intro s outs best sides new
  obtain ⟨i, hi, hmax, hbest⟩ := h.scorable.bestCell_firstMax
  have hpenalty : best.penalty ∈ Set.Ioc 0 1 := by
    rw [show best = _ from hbest]
    exact h.scorable.penalty_mem hi
  have hscore : best.score ∈ Set.Ioo 0 1 := by
    rw [show best = _ from hbest]
    exact cellAt_score_mem h.exp i
  have hrate : s.sizeRate best ∈ Set.Icc 0 t.cfg.sizeLr :=
    sizeRate_mem (t := s) hpenalty hscore h.sizeLr
  -- the old sides are what is left when the scale is undone
  obtain ⟨hw, hh⟩ := search_size_div ops image (scaleZ_pos h.searchArea).ne'
  have hunit : s.sizeRate best ∈ Set.Icc 0 1 := ⟨hrate.1, hrate.2.trans h.sizeLr.2⟩
  obtain ⟨hwblend, hhblend⟩ := blendedSize_mem hunit t.scaleZ
  rw [hw] at hwblend
  rw [hh] at hhblend
  -- the refresh of the template keeps what `place` clamped
  have hextent : new.extent = (s.place t.scaleZ best).2.extent := extent_refresh ops _ image _
  obtain ⟨hszW, hszH⟩ := place_size s t.scaleZ best
  obtain ⟨hframe, -, hsize⟩ := extent_update ops t h.imgSize image
  exact ⟨⟨i, hi, hmax, hbest⟩, hpenalty, rfl, hscore, hrate, hwblend, hhblend,
    (congrArg Extent.szW hextent).trans hszW, (congrArg Extent.szH hextent).trans hszH, hsize,
    hframe⟩

/-- A score map of four cells, all boxes alike. -/
noncomputable def levelNano : NanoOps ℝ where
  cv := SotTracker.blackCv
  backboneZ _ := []
  backboneX _ := []
  head _ _ := (List.replicate 8 0, List.replicate 16 10)
  scoreSize := 2
  -- a window of two by two is zero
  createHanningWindow n := List.replicate (n * n) 0

theorem update_never_overshoots_level :
    (({ new levelNano {} with
        imgSize := (640, 480), posX := 50, posY := 60, szW := 30, szH := 20 } :
      NanoTracker ℝ).update levelNano ⟨640, 480, fun _ _ => ⟨0, 0, 0⟩⟩).1.score ∈ Set.Ioo 0 1 := by
  have h := update_never_overshoots levelNano
    { new levelNano {} with imgSize := (640, 480), posX := 50, posY := 60, szW := 30, szH := 20 }
    ⟨640, 480, fun _ _ => ⟨0, 0, 0⟩⟩
    { exp := ⟨Real.exp_pos, Real.exp_zero, Real.exp_monotone⟩
      cells := by decide
      decoded := by
        intro i hi
        have hreg : ∀ j < 16, (List.replicate 16 (10 : ℝ)).getD j 0 = 10 := fun j hj => by
          rw [List.getD_eq_getElem _ _ (by simpa using hj), List.getElem_replicate]
        change i < 2 * 2 at hi
        have h0 := hreg (0 * (2 * 2) + i) (by omega)
        have h1 := hreg (1 * (2 * 2) + i) (by omega)
        have h2 := hreg (2 * (2 * 2) + i) (by omega)
        have h3 := hreg (3 * (2 * 2) + i) (by omega)
        simp only [cellAt, respond, levelNano, h0, h1, h2, h3]
        constructor <;> linarith
      hann := by
        intro i hi
        change i < 2 * 2 at hi
        change 0 ≤ (List.replicate (2 * 2) (0 : ℝ)).getD i 0
        rw [List.getD_eq_getElem _ _ (by simpa using hi), List.getElem_replicate]
      penaltyK := by norm_num [new]
      windowInfluence := by norm_num [new]
      sizeLr := by norm_num [new]
      imgSize := by norm_num
      pos := by norm_num
      size := by norm_num
      searchArea := searchArea_pos (by norm_num [new]) (by norm_num) (by norm_num) }
  exact h.2.2.1 ▸ h.2.2.2.1

end NanoTracker

end Ctrk
