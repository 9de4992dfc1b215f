import CustosTracker.Library.Interval
import CustosTracker.Types

set_option relaxedAutoImplicit false
set_option autoImplicit false

/-!
# Boxes, warps and appearance

`core/src/common/geometry.cpp` and `core/src/common/appearance.cpp`: intersection over union,
the letterbox mapping, the camera warp, and the cosine of two appearance descriptors.

## Main definitions

* `Ctrk.iou`, `Ctrk.Affine23`, `Ctrk.cosineSimilarity`, `Ctrk.clamp`.
* `Ctrk.LetterboxMap`, `Ctrk.letterboxMap`, `Ctrk.toLetterbox`, `Ctrk.fromLetterbox`.

## Main results

* `Ctrk.iou_self`, `Ctrk.iou_comm`, `Ctrk.iou_shift`, `Ctrk.iou_of_apart` — overlaps.
* `Ctrk.iou_mem_unit`, `Ctrk.cosineSimilarity_mem` — the ranges of the two measures.
-/

namespace Ctrk

variable {R : Type} [Scalar R]

/-- `std::clamp`. -/
def clamp (v lo hi : R) : R := if v < lo then lo else if hi < v then hi else v

/-- A value within the bounds is not clamped. -/
theorem clamp_eq_self {v lo hi : R} (hlo : lo ≤ v) (hhi : v ≤ hi) : clamp v lo hi = v := by
  rw [clamp, if_neg (not_lt.mpr hlo), if_neg (not_lt.mpr hhi)]

/-- A clamped value is at least the lower bound. -/
theorem le_clamp {v lo hi : R} (h : lo ≤ hi) : lo ≤ clamp v lo hi := by
  unfold clamp
  split_ifs with hlo hhi
  · exact le_rfl
  · exact h
  · exact not_lt.mp hlo

/-- A clamped value is at most the upper bound. -/
theorem clamp_le {v lo hi : R} (h : lo ≤ hi) : clamp v lo hi ≤ hi := by
  unfold clamp
  split_ifs with hlo hhi
  · exact h
  · exact le_rfl
  · exact not_lt.mp hhi

/-- Row-major 2×3 affine mapping previous-frame pixel coordinates to current-frame ones. -/
structure Affine23 (R : Type) where
  a11 : R
  a12 : R
  tx : R
  a21 : R
  a22 : R
  ty : R
  deriving DecidableEq

namespace Affine23

/-- The default warp: no camera motion. -/
def id : Affine23 R := ⟨1, 0, 0, 0, 1, 0⟩

instance : Inhabited (Affine23 R) := ⟨id⟩

/-- `identity()`. -/
def identity (w : Affine23 R) : Bool :=
  w.a11 == 1 && w.a12 == 0 && w.tx == 0 && w.a21 == 0 && w.a22 == 1 && w.ty == 0

/-- The default warp passes the identity test. -/
@[simp] theorem identity_id : (id : Affine23 R).identity = true := by
  simp [identity, id]

/-- Only the default warp passes the identity test. -/
theorem eq_id_of_identity {w : Affine23 R} (h : w.identity = true) : w = id := by
  obtain ⟨a11, a12, tx, a21, a22, ty⟩ := w
  simp only [identity, Bool.and_eq_true, beq_iff_eq] at h
  obtain ⟨⟨⟨⟨⟨rfl, rfl⟩, rfl⟩, rfl⟩, rfl⟩, rfl⟩ := h
  rfl

end Affine23

/-- Intersection over union of two boxes; `0` when either has non-positive area. -/
def iou (a b : BBox R) : R :=
  if a.w ≤ 0 ∨ a.h ≤ 0 ∨ b.w ≤ 0 ∨ b.h ≤ 0 then 0
  else
    let x1 := max a.x b.x
    let y1 := max a.y b.y
    let x2 := min (a.x + a.w) (b.x + b.w)
    let y2 := min (a.y + a.h) (b.y + b.h)
    let iw := x2 - x1
    let ih := y2 - y1
    if iw ≤ 0 ∨ ih ≤ 0 then 0
    else
      let inter := iw * ih
      inter / (a.area + b.area - inter)

namespace BBox

/-- The width of the common part of two boxes. -/
def interWidth (a b : BBox R) : R := Interval.overlap a.x a.w b.x b.w

/-- The height of the common part of two boxes. -/
def interHeight (a b : BBox R) : R := Interval.overlap a.y a.h b.y b.h

/-- A box moved by an offset. -/
def shift (dx dy : R) (b : BBox R) : BBox R := { b with x := b.x + dx, y := b.y + dy }

end BBox

/-- The overlap as the ratio of the common part to the whole. -/
theorem iou_eq (a b : BBox R) : iou a b =
    if a.w ≤ 0 ∨ a.h ≤ 0 ∨ b.w ≤ 0 ∨ b.h ≤ 0 then 0
    else if a.interWidth b ≤ 0 ∨ a.interHeight b ≤ 0 then 0
    else Interval.ratio (a.interWidth b * a.interHeight b) a.area b.area := rfl

/-- The overlap of two boxes does not depend on their order. -/
theorem iou_comm (a b : BBox R) : iou a b = iou b a := by
  have hguard : (a.w ≤ 0 ∨ a.h ≤ 0 ∨ b.w ≤ 0 ∨ b.h ≤ 0) ↔
      (b.w ≤ 0 ∨ b.h ≤ 0 ∨ a.w ≤ 0 ∨ a.h ≤ 0) := by tauto
  simp only [iou, hguard, max_comm a.x, max_comm a.y, min_comm (a.x + a.w), min_comm (a.y + a.h),
    add_comm a.area]

section Overlap

variable [IsStrictOrderedRing R]

/-- The common part is at most the first box. -/
theorem BBox.inter_le_left {a b : BBox R} (haw : 0 ≤ a.w) (hih : 0 ≤ a.interHeight b) :
    a.interWidth b * a.interHeight b ≤ a.area :=
  mul_le_mul (Interval.overlap_le_left _ _ _ _) (Interval.overlap_le_left _ _ _ _) hih haw

/-- The common part is at most the second box. -/
theorem BBox.inter_le_right {a b : BBox R} (hbw : 0 ≤ b.w) (hih : 0 ≤ a.interHeight b) :
    a.interWidth b * a.interHeight b ≤ b.area :=
  mul_le_mul (Interval.overlap_le_right _ _ _ _) (Interval.overlap_le_right _ _ _ _) hih hbw

/-- A box of positive width and height overlaps itself completely. -/
theorem iou_self {b : BBox R} (hw : 0 < b.w) (hh : 0 < b.h) : iou b b = 1 := by
  have harea : 0 < b.w * b.h := mul_pos hw hh
  have hguard : ¬(b.w ≤ 0 ∨ b.h ≤ 0 ∨ b.w ≤ 0 ∨ b.h ≤ 0) := by
    simp [not_le.mpr hw, not_le.mpr hh]
  have hinner : ¬(b.w ≤ 0 ∨ b.h ≤ 0) := by
    simp [not_le.mpr hw, not_le.mpr hh]
  rw [iou_eq, if_neg hguard, BBox.interWidth, BBox.interHeight, Interval.overlap_self,
    Interval.overlap_self, if_neg hinner]
  exact (Interval.ratio_eq_one_iff harea le_rfl le_rfl).mpr ⟨rfl, rfl⟩

/-- The overlap of two boxes is between `0` and `1`. -/
theorem iou_mem_unit (a b : BBox R) : 0 ≤ iou a b ∧ iou a b ≤ 1 := by
  rw [iou_eq]
  split_ifs with hsize hinter
  · exact ⟨le_rfl, zero_le_one⟩
  · exact ⟨le_rfl, zero_le_one⟩
  · simp only [not_or, not_le] at hsize hinter
    obtain ⟨haw, hah, hbw, hbh⟩ := hsize
    obtain ⟨hiw, hih⟩ := hinter
    have hpos := mul_pos hiw hih
    have hinA := BBox.inter_le_left haw.le hih.le
    have hinB := BBox.inter_le_right hbw.le hih.le
    exact ⟨(Interval.ratio_pos hpos hinA hinB).le, Interval.ratio_le_one hpos hinA hinB⟩

/-- The overlap of two boxes does not depend on where they are. -/
theorem iou_shift (dx dy : R) (a b : BBox R) : iou (a.shift dx dy) (b.shift dx dy) = iou a b := by
  have hx := Interval.overlap_affine zero_le_one dx a.x a.w b.x b.w
  have hy := Interval.overlap_affine zero_le_one dy a.y a.h b.y b.h
  simp only [mul_one] at hx hy
  have hiw : (a.shift dx dy).interWidth (b.shift dx dy) = a.interWidth b := hx
  have hih : (a.shift dx dy).interHeight (b.shift dx dy) = a.interHeight b := hy
  rw [iou_eq, iou_eq, hiw, hih]
  rfl

/-- Boxes that are apart in one direction do not overlap. -/
theorem iou_of_apart {a b : BBox R} (h : a.x + a.w ≤ b.x ∨ a.y + a.h ≤ b.y) : iou a b = 0 := by
  have hinner : a.interWidth b ≤ 0 ∨ a.interHeight b ≤ 0 := by
    rcases h with hx | hy
    · exact Or.inl (Interval.overlap_nonpos hx)
    · exact Or.inr (Interval.overlap_nonpos hy)
  rw [iou_eq, if_pos hinner, ite_self]

end Overlap

/-! ## Letterbox -/

/-- The aspect-preserving resize with padding. -/
structure LetterboxMap (R : Type) where
  scale : R
  padX : R
  padY : R
  srcW : ℤ
  srcH : ℤ
  dstW : ℤ
  dstH : ℤ

/-- `letterbox_map`. -/
def letterboxMap (srcW srcH dstW dstH : ℤ) : LetterboxMap R :=
  let scale : R := min (dstW / srcW) (dstH / srcH)
  { scale := scale
    padX := 1 / 2 * (dstW - scale * srcW)
    padY := 1 / 2 * (dstH - scale * srcH)
    srcW := srcW
    srcH := srcH
    dstW := dstW
    dstH := dstH }

/-- `to_letterbox`. -/
def toLetterbox (b : BBox R) (m : LetterboxMap R) : BBox R :=
  ⟨b.x * m.scale + m.padX, b.y * m.scale + m.padY, b.w * m.scale, b.h * m.scale⟩

/-- `from_letterbox`. -/
def fromLetterbox (b : BBox R) (m : LetterboxMap R) : BBox R :=
  ⟨(b.x - m.padX) / m.scale, (b.y - m.padY) / m.scale, b.w / m.scale, b.h / m.scale⟩

/-- Mapping to the letterbox and back. -/
theorem fromLetterbox_toLetterbox {m : LetterboxMap R} (hm : m.scale ≠ 0) (b : BBox R) :
    fromLetterbox (toLetterbox b m) m = b := by
  simp only [fromLetterbox, toLetterbox, add_sub_cancel_right]
  simp only [mul_div_cancel_right₀ _ hm]

/-- Mapping from the letterbox and back. -/
theorem toLetterbox_fromLetterbox {m : LetterboxMap R} (hm : m.scale ≠ 0) (b : BBox R) :
    toLetterbox (fromLetterbox b m) m = b := by
  simp only [fromLetterbox, toLetterbox]
  simp only [div_mul_cancel₀ _ hm, sub_add_cancel]

/-- Positive sizes give a positive scale. -/
theorem letterboxMap_scale_pos [IsStrictOrderedRing R] {srcW srcH dstW dstH : ℤ} (hsw : 0 < srcW)
    (hsh : 0 < srcH) (hdw : 0 < dstW) (hdh : 0 < dstH) :
    0 < (letterboxMap srcW srcH dstW dstH : LetterboxMap R).scale := by
  refine lt_min ?_ ?_
  · exact div_pos (by exact_mod_cast hdw) (by exact_mod_cast hsw)
  · exact div_pos (by exact_mod_cast hdh) (by exact_mod_cast hsh)

/-! ## Appearance -/

/-- Dot product of two descriptors. -/
def dot (a b : List R) : R := (List.zipWith (· * ·) a b).sum

/-- Cosine similarity; `0` when either side is empty or the sizes differ. -/
def cosineSimilarity (a b : List R) : R :=
  if a.isEmpty ∨ a.length ≠ b.length then 0
  else
    let denom := Scalar.sqrt (dot a a) * Scalar.sqrt (dot b b)
    if 0 < denom then dot a b / denom else 0

/-- The dot product of descriptors of one size, coordinate by coordinate. -/
theorem dot_eq_sum {a b : List R} (h : a.length = b.length) :
    dot a b = ∑ i ∈ Finset.range a.length, a.getD i 0 * b.getD i 0 := by
  induction a generalizing b with
  | nil => simp [dot]
  | cons x a ih =>
    cases b with
    | nil => simp at h
    | cons y b =>
      have hlen : a.length = b.length := Nat.succ.inj h
      rw [List.length_cons, Finset.sum_range_succ']
      simp only [List.getD_cons_succ, List.getD_cons_zero, ← ih hlen]
      simp [dot, add_comm]

section Cosine

variable [LawfulScalar R]

/-- The Cauchy–Schwarz inequality for descriptors of one size. -/
theorem dot_sq_le {a b : List R} (h : a.length = b.length) : dot a b ^ 2 ≤ dot a a * dot b b := by
  rw [dot_eq_sum h, dot_eq_sum rfl, dot_eq_sum rfl, ← h]
  simp only [← sq]
  exact Finset.sum_mul_sq_le_sq_mul_sq _ _ _

/-- A descriptor has a nonnegative square. -/
theorem dot_self_nonneg (a : List R) : 0 ≤ dot a a := by
  rw [dot_eq_sum rfl]
  exact Finset.sum_nonneg fun i _ => mul_self_nonneg _

/-- The cosine similarity is between `-1` and `1`. -/
theorem cosineSimilarity_mem (a b : List R) :
    -1 ≤ cosineSimilarity a b ∧ cosineSimilarity a b ≤ 1 := by
  simp only [cosineSimilarity]
  split_ifs with hempty hden
  · exact ⟨by norm_num, zero_le_one⟩
  · have hlen : a.length = b.length := by
      by_contra hne
      exact hempty (Or.inr hne)
    have hsq : (Scalar.sqrt (dot a a) * Scalar.sqrt (dot b b)) ^ 2 = dot a a * dot b b := by
      rw [mul_pow, sq, sq, LawfulScalar.mul_self_sqrt _ (dot_self_nonneg a),
        LawfulScalar.mul_self_sqrt _ (dot_self_nonneg b)]
    have habs := abs_le_of_sq_le_sq' (hsq ▸ dot_sq_le hlen) hden.le
    exact ⟨(le_div_iff₀ hden).mpr (by linarith), (div_le_one hden).mpr habs.2⟩
  · exact ⟨by norm_num, zero_le_one⟩

end Cosine

end Ctrk
