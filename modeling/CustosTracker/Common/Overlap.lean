import CustosTracker.Common.Geometry

set_option relaxedAutoImplicit false
set_option autoImplicit false

/-!
# Intersection over union as an overlap measure

What the gates of association and suppression rest on: `iou` is a symmetric measure between `0` and
`1` that is positive when the insides of two boxes meet, one when they are the same box, and blind
to a common translation and to the letterbox.

## Main definitions

* `Ctrk.BBox.interior` — the points inside a box.

## Main results

* `Ctrk.iou_pos_iff`, `Ctrk.iou_eq_one_iff` — the two extremes.
* `Ctrk.iou_toLetterbox`, `Ctrk.iou_fromLetterbox` — the letterbox.
* `Ctrk.iou_overlap_measure` — all of it.
-/

namespace Ctrk

variable {R : Type} [Scalar R]

/-- The points inside a box. -/
def BBox.interior (b : BBox R) : Set (R × R) := Set.Ioo b.x (b.x + b.w) ×ˢ Set.Ioo b.y (b.y + b.h)

variable [IsStrictOrderedRing R] {a b : BBox R}

/-- The insides of two boxes meet exactly when the boxes overlap along both axes. -/
theorem interior_inter_nonempty_iff : (a.interior ∩ b.interior).Nonempty ↔
    0 < a.interWidth b ∧ 0 < a.interHeight b := by
  rw [BBox.interior, BBox.interior, Set.prod_inter_prod, Set.prod_nonempty_iff, BBox.interWidth,
    BBox.interHeight, Interval.overlap_pos_iff, Interval.overlap_pos_iff]

omit [IsStrictOrderedRing R] in
/-- Boxes of positive size that overlap along both axes: the division is reached. -/
theorem iou_of_overlap (haw : 0 < a.w) (hah : 0 < a.h) (hbw : 0 < b.w) (hbh : 0 < b.h)
    (hiw : 0 < a.interWidth b) (hih : 0 < a.interHeight b) :
    iou a b = Interval.ratio (a.interWidth b * a.interHeight b) a.area b.area := by
  rw [iou_eq, if_neg (by simp only [not_or, not_le]; exact ⟨haw, hah, hbw, hbh⟩),
    if_neg (by simp only [not_or, not_le]; exact ⟨hiw, hih⟩)]

omit [IsStrictOrderedRing R] in
/-- A positive overlap means that the division is reached. -/
theorem overlap_of_iou_ne_zero (h : iou a b ≠ 0) : (0 < a.w ∧ 0 < a.h) ∧ (0 < b.w ∧ 0 < b.h) ∧
    0 < a.interWidth b ∧ 0 < a.interHeight b := by
  rw [iou_eq] at h
  split_ifs at h with hsize hinter
  · exact absurd rfl h
  · exact absurd rfl h
  · simp only [not_or, not_le] at hsize hinter
    obtain ⟨haw, hah, hbw, hbh⟩ := hsize
    exact ⟨⟨haw, hah⟩, ⟨hbw, hbh⟩, hinter⟩

/-- Boxes overlap exactly when both have positive size and their insides meet. -/
theorem iou_pos_iff : 0 < iou a b ↔
    (0 < a.w ∧ 0 < a.h) ∧ (0 < b.w ∧ 0 < b.h) ∧ (a.interior ∩ b.interior).Nonempty := by
  rw [interior_inter_nonempty_iff]
  constructor
  · intro h
    exact overlap_of_iou_ne_zero h.ne'
  · rintro ⟨⟨haw, hah⟩, ⟨hbw, hbh⟩, hiw, hih⟩
    rw [iou_of_overlap haw hah hbw hbh hiw hih]
    exact Interval.ratio_pos (mul_pos hiw hih) (BBox.inter_le_left haw.le hih.le)
      (BBox.inter_le_right hbw.le hih.le)

/-- Boxes overlap completely exactly when they are the same box, of positive size.

**Proof sketch.** Equality makes the intersection as large as both boxes, so in each direction
the overlap of the two intervals is all of both, and the intervals are equal. -/
theorem iou_eq_one_iff : iou a b = 1 ↔ a = b ∧ 0 < a.w ∧ 0 < a.h := by
  constructor
  · intro h
    obtain ⟨⟨haw, hah⟩, ⟨hbw, hbh⟩, hiw, hih⟩ :=
      overlap_of_iou_ne_zero (a := a) (b := b) (by rw [h]; exact one_ne_zero)
    rw [iou_of_overlap haw hah hbw hbh hiw hih,
      Interval.ratio_eq_one_iff (mul_pos hiw hih) (BBox.inter_le_left haw.le hih.le)
        (BBox.inter_le_right hbw.le hih.le)] at h
    obtain ⟨hwa, hha⟩ := Interval.le_of_mul_le haw (Interval.overlap_le_left _ _ _ _)
      (Interval.overlap_le_left _ _ _ _) hih h.1.le
    obtain ⟨hwb, hhb⟩ := Interval.le_of_mul_le hbw (Interval.overlap_le_right _ _ _ _)
      (Interval.overlap_le_right _ _ _ _) hih h.2.le
    obtain ⟨hx, hw⟩ := Interval.eq_of_le_overlap hwa hwb
    obtain ⟨hy, hh⟩ := Interval.eq_of_le_overlap hha hhb
    refine ⟨?_, haw, hah⟩
    obtain ⟨ax, ay, aw, ah⟩ := a
    obtain ⟨bx, bY, bw, bh⟩ := b
    simp only at hx hy hw hh
    rw [hx, hy, hw, hh]
  · rintro ⟨rfl, hw, hh⟩
    exact iou_self hw hh

/-- The letterbox keeps the overlap.

**Proof sketch.** The map scales every length by one positive factor, so the overlaps keep their
signs, and both areas and the intersection are multiplied by its square, which the quotient
cancels. -/
theorem iou_toLetterbox {m : LetterboxMap R} (hm : 0 < m.scale) (a b : BBox R) :
    iou (toLetterbox a m) (toLetterbox b m) = iou a b := by
  have hx : (toLetterbox a m).interWidth (toLetterbox b m) = a.interWidth b * m.scale :=
    Interval.overlap_affine hm.le m.padX a.x a.w b.x b.w
  have hy : (toLetterbox a m).interHeight (toLetterbox b m) = a.interHeight b * m.scale :=
    Interval.overlap_affine hm.le m.padY a.y a.h b.y b.h
  have hsign : ∀ v : R, v * m.scale ≤ 0 ↔ v ≤ 0 := fun v =>
    ⟨fun h => nonpos_of_mul_nonpos_left h hm, fun h => mul_nonpos_of_nonpos_of_nonneg h hm.le⟩
  have harea : ∀ c : BBox R, (toLetterbox c m).area = c.area * (m.scale * m.scale) := by
    intro c
    simp only [toLetterbox, BBox.area]
    ring
  have hinter : a.interWidth b * m.scale * (a.interHeight b * m.scale) =
      a.interWidth b * a.interHeight b * (m.scale * m.scale) := by ring
  have hratio : Interval.ratio (a.interWidth b * m.scale * (a.interHeight b * m.scale))
      (toLetterbox a m).area (toLetterbox b m).area =
      Interval.ratio (a.interWidth b * a.interHeight b) a.area b.area := by
    rw [harea, harea, hinter, Interval.ratio_mul_right (mul_ne_zero hm.ne' hm.ne')]
  rw [iou_eq, iou_eq, hx, hy, hratio]
  simp only [toLetterbox, hsign]

/-- So does the way back. -/
theorem iou_fromLetterbox {m : LetterboxMap R} (hm : 0 < m.scale) (a b : BBox R) :
    iou (fromLetterbox a m) (fromLetterbox b m) = iou a b := by
  rw [← iou_toLetterbox hm, toLetterbox_fromLetterbox hm.ne', toLetterbox_fromLetterbox hm.ne']

/-- **Intersection over union measures overlap.** It does not depend on the order of the boxes; it
is between `0` and `1`, and where the code divides, it divides by a positive number; it is positive
exactly when both boxes have positive size and their insides meet, and one exactly when they are the
same box of positive size; and it is kept by a common translation and by the letterbox, in both
directions.

**Proof sketch.** Width and height of the intersection are overlaps of intervals, and the measure
is their product over the measure of the union.  Each clause is the fact about intervals, in both
directions. -/
theorem iou_overlap_measure (a b : BBox R) :
    iou a b = iou b a ∧
    (0 ≤ iou a b ∧ iou a b ≤ 1) ∧
    (0 < a.w → 0 < a.h → 0 < b.w → 0 < b.h → 0 < a.interWidth b → 0 < a.interHeight b →
      0 < a.area + b.area - a.interWidth b * a.interHeight b) ∧
    (0 < iou a b ↔
      (0 < a.w ∧ 0 < a.h) ∧ (0 < b.w ∧ 0 < b.h) ∧ (a.interior ∩ b.interior).Nonempty) ∧
    (iou a b = 1 ↔ a = b ∧ 0 < a.w ∧ 0 < a.h) ∧
    (∀ dx dy, iou (a.shift dx dy) (b.shift dx dy) = iou a b) ∧
    ∀ m : LetterboxMap R, 0 < m.scale →
      iou (toLetterbox a m) (toLetterbox b m) = iou a b ∧
        iou (fromLetterbox a m) (fromLetterbox b m) = iou a b := by
  refine ⟨iou_comm a b, iou_mem_unit a b, fun haw _ hbw _ hiw hih => ?_, iou_pos_iff,
    iou_eq_one_iff, fun dx dy => iou_shift dx dy a b,
    fun m hm => ⟨iou_toLetterbox hm a b, iou_fromLetterbox hm a b⟩⟩
  exact Interval.whole_pos (mul_pos hiw hih) (BBox.inter_le_left haw.le hih.le)
    (BBox.inter_le_right hbw.le hih.le)

/-- A box and its right half. -/
theorem iou_overlap_measure_half :
    let a : BBox ℚ := ⟨0, 0, 4, 2⟩
    let b : BBox ℚ := ⟨2, 0, 2, 2⟩
    iou a b = 1 / 2 ∧ (a.interior ∩ b.interior).Nonempty := by
  intro a b
  have hhalf : iou a b = 1 / 2 := by decide +kernel
  have hpos : 0 < iou a b := by
    rw [hhalf]
    norm_num
  exact ⟨hhalf, ((iou_overlap_measure a b).2.2.2.1.mp hpos).2.2⟩

end Ctrk
