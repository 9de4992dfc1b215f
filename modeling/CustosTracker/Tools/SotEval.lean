import CustosTracker.Common.Overlap

set_option relaxedAutoImplicit false
set_option autoImplicit false

/-!
# The metrics of single-object runs

`tools/eval/sot_eval.py` scores the boxes of a run against the ground truth: the area under the
success curve, sampled at twenty-one overlap thresholds, the share of centres within twenty pixels,
and the mean overlap.

## Main definitions

* `SotEval.iou`, `SotEval.evaluate` — the script.

## Main results

* `SotEval.iou_eq` — the overlap of the script is the overlap of the core.
* `SotEval.auc_bounds` — the area brackets the mean overlap, and where it is largest.

## Implementation notes

Numbers are exact; the thresholds are the multiples of a twentieth.
-/

namespace Ctrk

namespace SotEval

variable {R : Type} [Scalar R]

/-- `iou`, of one row. -/
def iou (a b : BBox R) : R :=
  let x1 := max a.x b.x
  let y1 := max a.y b.y
  let x2 := min (a.x + a.w) (b.x + b.w)
  let y2 := min (a.y + a.h) (b.y + b.h)
  let inter := max (x2 - x1) 0 * max (y2 - y1) 0
  let union := a.w * a.h + b.w * b.h - inter
  if 0 < union then inter / union else 0

/-- What `evaluate` returns. -/
structure Metrics (R : Type) where
  auc : R
  prec20 : R
  meanIou : R
  frames : ℕ

/-- `np.mean`. -/
def mean (xs : List R) : R := xs.sum / xs.length

/-- `np.arange(0, 1.05, 0.05)`. -/
def thresholds : List R := (List.range 21).map fun k : ℕ => (k : R) * (1 / 20)

/-- One when the condition holds, as NumPy counts a truth value. -/
def indicator (p : Prop) [Decidable p] : R := if p then 1 else 0

/-- The overlaps of the frames that both sides have. -/
def overlapsOf (gt res : List (BBox R)) : List R :=
  let n := min gt.length res.length
  List.zipWith iou (res.take n) (gt.take n)

/-- The success rates at the thresholds. -/
def successOf (overlaps : List R) : List R :=
  thresholds.map fun t => mean (overlaps.map fun o => indicator (t < o))

/-- `evaluate`. -/
def evaluate (gt res : List (BBox R)) : Metrics R :=
  let n := min gt.length res.length
  let overlaps := overlapsOf gt res
  let dist := List.zipWith
    (fun r g : BBox R => hypot (r.x + r.w / 2 - (g.x + g.w / 2)) (r.y + r.h / 2 - (g.y + g.h / 2)))
    (res.take n) (gt.take n)
  { auc := mean (successOf overlaps)
    prec20 := mean (dist.map fun d => indicator (d ≤ 20))
    meanIou := mean overlaps
    frames := n }

section Lawful

variable [LawfulScalar R]

/-- **The overlap of the script is the overlap of the core,** of any two boxes.

**Proof sketch.** If some side is not positive both overlaps are zero.  Otherwise the common part
is no larger than the first box, so the union is positive and the two quotients are the same. -/
theorem iou_eq (a b : BBox R) : iou a b = Ctrk.iou a b := by
  by_cases hsize : a.w ≤ 0 ∨ a.h ≤ 0 ∨ b.w ≤ 0 ∨ b.h ≤ 0
  · -- a side that is not positive leaves no common part
    have hinter : max (min (a.x + a.w) (b.x + b.w) - max a.x b.x) 0 *
        max (min (a.y + a.h) (b.y + b.h) - max a.y b.y) 0 = 0 := by
      rw [mul_eq_zero, max_eq_right_iff, max_eq_right_iff, sub_nonpos, sub_nonpos, min_le_iff,
        le_max_iff, le_max_iff, min_le_iff, le_max_iff, le_max_iff]
      rcases hsize with h | h | h | h
      · exact Or.inl (Or.inl (Or.inl (by linarith)))
      · exact Or.inr (Or.inl (Or.inl (by linarith)))
      · exact Or.inl (Or.inr (Or.inr (by linarith)))
      · exact Or.inr (Or.inr (Or.inr (by linarith)))
    rw [iou, Ctrk.iou, if_pos hsize]
    simp only [hinter, zero_div, ite_self]
  · rw [Ctrk.iou, if_neg hsize, iou]
    simp only [not_or, not_le] at hsize
    obtain ⟨haw, hah, hbw, hbh⟩ := hsize
    have hwide : min (a.x + a.w) (b.x + b.w) - max a.x b.x ≤ a.w := by
      linarith [min_le_left (a.x + a.w) (b.x + b.w), le_max_left a.x b.x]
    have hhigh : min (a.y + a.h) (b.y + b.h) - max a.y b.y ≤ a.h := by
      linarith [min_le_left (a.y + a.h) (b.y + b.h), le_max_left a.y b.y]
    simp only [BBox.area]
    generalize min (a.x + a.w) (b.x + b.w) - max a.x b.x = iw at hwide ⊢
    generalize min (a.y + a.h) (b.y + b.h) - max a.y b.y = ih at hhigh ⊢
    by_cases hapart : iw ≤ 0 ∨ ih ≤ 0
    · have hinter : max iw 0 * max ih 0 = 0 := by
        rw [mul_eq_zero, max_eq_right_iff, max_eq_right_iff]
        exact hapart
      rw [if_pos hapart, hinter, zero_div, ite_self]
    · rw [if_neg hapart]
      rw [not_or, not_le, not_le] at hapart
      obtain ⟨hiw, hih⟩ := hapart
      have hinter : iw * ih ≤ a.w * a.h := mul_le_mul hwide hhigh hih.le haw.le
      have hunion : 0 < a.w * a.h + b.w * b.h - iw * ih := by linarith [mul_pos hbw hbh]
      rw [max_eq_left hiw.le, max_eq_left hih.le, if_pos hunion]

theorem overlapsOf_core (gt res : List (BBox R)) : overlapsOf gt res =
    List.zipWith Ctrk.iou (res.take (min gt.length res.length))
      (gt.take (min gt.length res.length)) := by
  have hiou : (iou : BBox R → BBox R → R) = Ctrk.iou := by
    funext a b
    exact iou_eq a b
  rw [overlapsOf, hiou]

theorem overlap_mem_unit {gt res : List (BBox R)} {o : R} (h : o ∈ overlapsOf gt res) :
    0 ≤ o ∧ o ≤ 1 := by
  rw [overlapsOf_core, ← List.map_uncurry_zip_eq_zipWith, List.mem_map] at h
  obtain ⟨⟨r, g⟩, -, rfl⟩ := h
  exact iou_mem_unit r g

/-! ## The success of one frame -/

/-- How many thresholds an overlap is above. -/
def hits (o : R) : R := (thresholds.map fun t => indicator (t < o)).sum

/-- How many of the first multiples of a twentieth lie below a number.

**Proof sketch.** By induction on the multiples counted: the last one counts if it lies below the
number, and then all before it do. -/
theorem sum_below (n : ℕ) {x : R} (hx : 0 ≤ x) :
    (((List.range n).map fun k : ℕ => (indicator ((k : R) < x) : R)).sum < x + 1) ∧
      ((List.range n).map fun k : ℕ => (indicator ((k : R) < x) : R)).sum ≤ n ∧
      (x ≤ n → x ≤ ((List.range n).map fun k : ℕ => (indicator ((k : R) < x) : R)).sum) ∧
      ((n : R) < x + 1 →
        ((List.range n).map fun k : ℕ => (indicator ((k : R) < x) : R)).sum = n) := by
  induction n with
  | zero =>
    refine ⟨?_, ?_, fun h => ?_, fun _ => ?_⟩ <;> simp at *
    · linarith
    · exact h
  | succ n ih =>
    obtain ⟨hlt, hle, hreach, hall⟩ := ih
    rw [List.range_succ, List.map_append, List.sum_append, List.map_singleton, List.sum_singleton]
    push_cast
    by_cases hn : (n : R) < x
    · have hfull := hall (by linarith)
      rw [hfull, indicator, if_pos hn]
      exact ⟨by linarith, le_rfl, id, fun _ => rfl⟩
    · rw [indicator, if_neg hn, add_zero]
      rw [not_lt] at hn
      exact ⟨hlt, by linarith, fun _ => hreach hn, fun h => absurd h (by linarith)⟩

/-- An overlap passes as many thresholds as twenty times itself, rounded up; at most twenty.

**Proof sketch.** Scaled by twenty the thresholds are the naturals up to twenty, of which the
last lies below no overlap; `sum_below` counts the others. -/
theorem hits_spec {o : R} (hlow : 0 ≤ o) (hhigh : o ≤ 1) :
    (20 * o ≤ hits o ∧ hits o < 20 * o + 1) ∧ hits o ≤ 20 ∧ (hits o = 20 ↔ 19 / 20 < o) := by
  have hx : 0 ≤ 20 * o := by linarith
  have hscale : ∀ k : ℕ, ((k : R) * (1 / 20) < o ↔ (k : R) < 20 * o) := by
    intro k
    constructor <;> intro h <;> linarith
  have hsum : hits o =
      ((List.range 20).map fun k : ℕ => (indicator ((k : R) < 20 * o) : R)).sum := by
    have hlast : (indicator (((20 : ℕ) : R) < 20 * o) : R) = 0 := by
      rw [indicator, if_neg]
      push_cast
      linarith
    rw [hits, thresholds, List.map_map, List.range_succ, List.map_append, List.sum_append]
    simp only [Function.comp_def, hscale, List.map_singleton, List.sum_singleton, hlast, add_zero]
  obtain ⟨hlt, hle, hreach, hall⟩ := sum_below 20 hx
  push_cast at hle hreach hall
  rw [hsum]
  refine ⟨⟨hreach (by linarith), hlt⟩, hle, ?_, ?_⟩
  · intro h
    linarith
  · intro h
    exact hall (by linarith)

/-! ## The area under the curve -/

omit [LawfulScalar R] in
theorem sum_map_comm (ts os : List R) (f : R → R → R) :
    (ts.map fun t => (os.map fun o => f t o).sum).sum =
      (os.map fun o => (ts.map fun t => f t o).sum).sum := by
  induction os with
  | nil => simp
  | cons o os ih =>
    simp only [List.map_cons, List.sum_cons, List.sum_map_add, ih]

/-- The area is the mean of the hits, over the number of thresholds. -/
theorem auc_eq (overlaps : List R) :
    21 * mean (successOf overlaps) = mean (overlaps.map hits) := by
  have hcount : ((successOf overlaps).length : R) = 21 := by
    simp [successOf, thresholds]
  have hmean : ∀ t, mean (overlaps.map fun o => indicator (t < o)) =
      (overlaps.map fun o => (indicator (t < o) : R)).sum * (overlaps.length : R)⁻¹ := by
    intro t
    rw [mean, List.length_map, div_eq_mul_inv]
  have hsum : (successOf overlaps).sum = (overlaps.map hits).sum * (overlaps.length : R)⁻¹ := by
    simp only [successOf, hmean, List.sum_map_mul_right]
    rw [sum_map_comm thresholds overlaps fun t o => indicator (t < o)]
    rfl
  rw [mean, hcount, mean, List.length_map, hsum, mul_div_cancel₀ _ (by norm_num), div_eq_mul_inv]

/-- The means of two figures of every frame compare as the figures do. -/
theorem mean_map_le {xs : List R} {f g : R → R} (h : ∀ x ∈ xs, f x ≤ g x) :
    mean (xs.map f) ≤ mean (xs.map g) := by
  rw [mean, mean, List.length_map, List.length_map]
  exact div_le_div_of_nonneg_right (List.sum_le_sum h) (Nat.cast_nonneg _)

theorem mean_map_lt {xs : List R} {f g : R → R} (h : ∀ x ∈ xs, f x ≤ g x)
    (hlt : ∃ x ∈ xs, f x < g x) : mean (xs.map f) < mean (xs.map g) := by
  have hpos : (0 : R) < xs.length := by
    obtain ⟨x, hx, -⟩ := hlt
    exact_mod_cast List.length_pos_of_mem hx
  rw [mean, mean, List.length_map, List.length_map]
  exact div_lt_div_of_pos_right (List.sum_lt_sum f g h hlt) hpos

omit [LawfulScalar R] in
theorem mean_affine [IsStrictOrderedRing R] {xs : List R} (hne : xs ≠ []) (a b : R) :
    mean (xs.map fun x => a * x + b) = a * mean xs + b := by
  have hlen : (xs.length : R) ≠ 0 := by
    exact_mod_cast (List.length_pos_iff.mpr hne).ne'
  have hconst : (xs.map fun _ => b).sum = xs.length * b := by
    rw [List.map_const', List.sum_replicate, nsmul_eq_mul]
  rw [mean, mean, List.length_map, List.sum_map_add, List.sum_map_mul_left, hconst, add_div,
    mul_div_cancel_left₀ _ hlen, mul_div_assoc, List.map_id']

omit [LawfulScalar R] in
theorem overlapsOf_ne_nil {gt res : List (BBox R)} (hgt : gt ≠ []) (hres : res ≠ []) :
    overlapsOf gt res ≠ [] := by
  have hgt' := List.length_pos_iff.mpr hgt
  have hres' := List.length_pos_iff.mpr hres
  rw [← List.length_pos_iff, overlapsOf, List.length_zipWith, List.length_take, List.length_take]
  omega

/-- **What the area says.** Over at least one common frame, with the overlaps of the core: the area
under the success curve is the mean overlap up to the width of a threshold, it never passes 20/21,
and it reaches that exactly when every overlap is above 19/20.

**Proof sketch.** The area is the mean of the hits over twenty-one, and a mean is monotone, so
the bounds on the hits of one overlap (`hits_spec`) carry over.  A mean of twenty leaves no
overlap with fewer hits. -/
theorem auc_bounds (gt res : List (BBox R)) (hgt : gt ≠ []) (hres : res ≠ []) :
    let m := evaluate gt res
    (m.frames = min gt.length res.length ∧
        overlapsOf gt res = List.zipWith Ctrk.iou (res.take m.frames) (gt.take m.frames)) ∧
      (20 * m.meanIou ≤ 21 * m.auc ∧ 21 * m.auc < 20 * m.meanIou + 1) ∧
      21 * m.auc ≤ 20 ∧ (21 * m.auc = 20 ↔ ∀ o ∈ overlapsOf gt res, 19 / 20 < o) := by
  intro m
  have hne := overlapsOf_ne_nil hgt hres
  have hspec : ∀ o ∈ overlapsOf gt res, _ := fun o ho =>
    hits_spec (overlap_mem_unit ho).1 (overlap_mem_unit ho).2
  have hauc : 21 * m.auc = mean ((overlapsOf gt res).map hits) := auc_eq (overlapsOf gt res)
  obtain ⟨o₁, ho₁⟩ := List.exists_mem_of_ne_nil _ hne
  have hbelow : mean ((overlapsOf gt res).map fun o => 20 * o + 0) = 20 * m.meanIou :=
    (mean_affine hne 20 0).trans (add_zero _)
  have habove : mean ((overlapsOf gt res).map fun o => 20 * o + 1) = 20 * m.meanIou + 1 :=
    mean_affine hne 20 1
  have htop : mean ((overlapsOf gt res).map fun o => 0 * o + 20) = 20 := by
    rw [mean_affine hne, zero_mul, zero_add]
  rw [hauc, ← habove, ← hbelow]
  refine ⟨⟨rfl, overlapsOf_core gt res⟩, ⟨?_, ?_⟩, ?_, ?_⟩
  · exact mean_map_le fun o ho => by linarith [(hspec o ho).1.1]
  · exact mean_map_lt (fun o ho => (hspec o ho).1.2.le) ⟨o₁, ho₁, (hspec o₁ ho₁).1.2⟩
  · calc mean ((overlapsOf gt res).map hits)
        ≤ mean ((overlapsOf gt res).map fun o => 0 * o + 20) :=
          mean_map_le fun o ho => by linarith [(hspec o ho).2.1]
      _ = 20 := htop
  · constructor
    · intro hfull
      by_contra hsome
      push Not at hsome
      obtain ⟨o, ho, hshort⟩ := hsome
      -- one frame short of the top keeps the mean below it
      have hless : hits o < 20 := lt_of_le_of_ne (hspec o ho).2.1
        fun h => absurd ((hspec o ho).2.2.mp h) (not_lt.mpr hshort)
      have hstrict : mean ((overlapsOf gt res).map hits) <
          mean ((overlapsOf gt res).map fun o => 0 * o + 20) :=
        mean_map_lt (fun o ho => by linarith [(hspec o ho).2.1]) ⟨o, ho, by linarith⟩
      rw [htop, hfull] at hstrict
      exact lt_irrefl _ hstrict
    · intro hall
      rw [← htop]
      congr 1
      refine List.map_congr_left fun o ho => ?_
      rw [(hspec o ho).2.2.mpr (hall o ho), zero_mul, zero_add]

/-- Four frames of ground truth and a run of three: it reports the first box, half of the second and
none of the third.  Its mean overlap is 4/9, and its area is that up to a threshold. -/
theorem auc_bounds_three :
    let gt : List (BBox ℝ) := [⟨1, 2, 10, 20⟩, ⟨2, 2, 10, 20⟩, ⟨3, 2, 10, 20⟩, ⟨4, 2, 10, 20⟩]
    let res : List (BBox ℝ) := [⟨1, 2, 10, 20⟩, ⟨7, 2, 10, 20⟩, ⟨90, 2, 10, 20⟩]
    let m := evaluate gt res
    m.frames = 3 ∧ m.meanIou = 4 / 9 ∧
      (20 * (4 / 9) ≤ 21 * m.auc ∧ 21 * m.auc < 20 * (4 / 9) + 1) ∧ 21 * m.auc ≠ 20 := by
  intro gt res m
  obtain ⟨⟨hframes, -⟩, hbounds, -, htop⟩ :=
    auc_bounds gt res (List.cons_ne_nil _ _) (List.cons_ne_nil _ _)
  have hoverlaps : overlapsOf gt res = [1, 1 / 3, 0] := by
    norm_num [overlapsOf, gt, res, iou]
  have hmean : m.meanIou = 4 / 9 := by
    show mean (overlapsOf gt res) = 4 / 9
    rw [hoverlaps]
    norm_num [mean]
  rw [← hmean]
  refine ⟨hframes, rfl, hbounds, fun h => ?_⟩
  have hlast := htop.mp h 0 (by rw [hoverlaps]; simp)
  norm_num at hlast

end Lawful

end SotEval

end Ctrk
