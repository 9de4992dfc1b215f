import CustosTracker.Library.Buckets
import CustosTracker.Library.Quantile
import CustosTracker.Types

set_option relaxedAutoImplicit false
set_option autoImplicit false

/-!
# Latency tables

The apps collect stage latencies in a `StageTimer` (whole nanoseconds), the ROS nodes in a
`BenchStats` (milliseconds).  Both print for every stage the number of samples, their mean and two
nearest-rank percentiles, computed by different code.  On the same samples the two tables have the
same rows, and no figure differs by a nanosecond.

## Main definitions

* `StageTimer.summary`, `BenchStats.table` — the two tables.
* `NearestRank` — what a nearest-rank percentile is.

## Main results

* `BenchStats.rank_spec` — the percentile of a table is a nearest-rank percentile.
* `BenchStats.table_summary` — the two tables.

## Implementation notes

A percentile that would read outside the samples is none.  Numbers are exact; samples are cut to
nanoseconds as the code does.
-/

namespace Ctrk

variable {R : Type} [Scalar R]

/-- A row of a table; the percentiles are none where the code would read outside the samples. -/
structure StageRow (R : Type) where
  stage : String
  n : ℕ
  mean_ms : R
  p50_ms : Option R
  p95_ms : Option R

/-- `ceil(p / 100.0 * n)`. -/
def percentileRank (p n : ℕ) : ℕ := ⌈(p : ℚ) / 100 * n⌉₊

/-! ## The timer of the apps -/

/-- A sample of `StageTimer::add_ms`, in nanoseconds. -/
def toNs (ms : R) : ℤ := Scalar.toInt (ms * 1000000)

namespace StageStats

def mean_ms (samples : List ℤ) : R :=
  if samples.isEmpty then 0
  else (samples.map fun s : ℤ => (s : R)).sum / samples.length / 1000000

def percentile_ms (p : ℕ) (samples : List ℤ) : Option R :=
  if samples.isEmpty then some 0
  else
    let rank := percentileRank p samples.length
    (Quantile.nth samples (max rank 1 - 1)).map fun s : ℤ => (s : R) / 1000000

end StageStats

/-- `StageTimer` fed with samples, as `print_stage_summary` prints it. -/
def StageTimer.summary (samples : List (String × R)) : List (StageRow R) :=
  (Buckets.collect (samples.map fun e => (e.1, toNs e.2))).map fun b =>
    { stage := b.1
      n := b.2.length
      mean_ms := StageStats.mean_ms b.2
      p50_ms := StageStats.percentile_ms 50 b.2
      p95_ms := StageStats.percentile_ms 95 b.2 }

/-! ## The accumulator of the nodes -/

namespace BenchStats

/-- `BenchStats::rank`, of the sorted samples. -/
def rank (samples : List R) (pct : ℕ) : Option R :=
  let last := samples.length - 1
  -- the index is a `size_t`: below zero it is the largest one
  match percentileRank pct samples.length with
  | 0 => Quantile.nth samples last
  | idx + 1 => Quantile.nth samples (min idx last)

/-- `BenchStats` fed with samples, as `BenchStats::table` prints it. -/
def table (samples : List (String × R)) : List (StageRow R) :=
  (Buckets.collect samples).map fun b =>
    { stage := b.1
      n := b.2.length
      mean_ms := b.2.sum / b.2.length
      p50_ms := rank b.2 50
      p95_ms := rank b.2 95 }

end BenchStats

/-! ## The nearest rank -/

/-- `v` is a sample, fewer than `p` percent of the samples lie below it, and at least `p` percent
do not lie above it. -/
def NearestRank (p : ℕ) (samples : List R) (v : R) : Prop :=
  v ∈ samples ∧ 100 * samples.countP (fun x => decide (x < v)) < p * samples.length ∧
    p * samples.length ≤ 100 * samples.countP fun x => decide (x ≤ v)

/-- The rank of a percentile is a place of the samples, and the share of the samples up to it is at
least the percentile, the share before it less.

**Proof sketch.** The rank is the ceiling of a positive quotient, hence a successor.  The two
inequalities of the ceiling, multiplied out, are those of the statement, and with `p ≤ 100` they
keep the index below the length. -/
theorem percentileRank_spec {p n : ℕ} (hp : 0 < p) (hp' : p ≤ 100) (hn : 0 < n) :
    ∃ k, percentileRank p n = k + 1 ∧ k < n ∧ 100 * k < p * n ∧ p * n ≤ 100 * (k + 1) := by
  have hexact : (p : ℚ) / 100 * n = (p * n : ℕ) / 100 := by
    push_cast
    ring
  have hpos : 0 < p * n := Nat.mul_pos hp hn
  have hceil : 0 < percentileRank p n := by
    rw [percentileRank, hexact, Nat.ceil_pos]
    positivity
  obtain ⟨k, hk⟩ := Nat.exists_eq_succ_of_ne_zero hceil.ne'
  have hbelow : ((k : ℕ) : ℚ) < (p * n : ℕ) / 100 := by
    rw [← Nat.lt_ceil, ← hexact, ← percentileRank, hk]
    exact Nat.lt_succ_self k
  have habove : ((p * n : ℕ) : ℚ) / 100 ≤ (k + 1 : ℕ) := by
    rw [← Nat.ceil_le, ← hexact, ← percentileRank, hk]
  have hlow : 100 * k < p * n := by
    have h : ((100 * k : ℕ) : ℚ) < (p * n : ℕ) := by
      push_cast at hbelow ⊢
      linarith
    exact_mod_cast h
  have hhigh : p * n ≤ 100 * (k + 1) := by
    have h : ((p * n : ℕ) : ℚ) ≤ (100 * (k + 1) : ℕ) := by
      push_cast at habove ⊢
      linarith
    exact_mod_cast h
  refine ⟨k, hk, ?_, hlow, hhigh⟩
  have hle : p * n ≤ 100 * n := Nat.mul_le_mul_right n hp'
  omega

/-! ## Cutting to nanoseconds -/

section Lawful

variable [LawfulScalar R]

/-- Cutting moves a number by less than one. -/
theorem abs_toInt_sub_lt (x : R) : |(Scalar.toInt x : R) - x| < 1 := by
  rcases le_or_gt 0 x with hx | hx
  · obtain ⟨hle, hlt⟩ := LawfulScalar.toInt_nonneg x hx
    rw [abs_lt]
    constructor <;> linarith
  · obtain ⟨hle, hlt⟩ := LawfulScalar.toInt_nonneg (-x) (by linarith)
    rw [LawfulScalar.toInt_neg, Int.cast_neg] at hle hlt
    rw [abs_lt]
    constructor <;> linarith

theorem toInt_le_toInt {x y : R} (hx : 0 ≤ x) (hxy : x ≤ y) : Scalar.toInt x ≤ Scalar.toInt y := by
  have hlow := (LawfulScalar.toInt_nonneg x hx).1
  have hhigh := (LawfulScalar.toInt_nonneg y (hx.trans hxy)).2
  have hlt : (Scalar.toInt x : R) < (Scalar.toInt y + 1 : ℤ) := by
    push_cast
    linarith
  exact Int.lt_add_one_iff.mp (by exact_mod_cast hlt)

theorem toInt_nonneg {x : R} (hx : 0 ≤ x) : 0 ≤ Scalar.toInt x := by
  have hhigh := (LawfulScalar.toInt_nonneg x hx).2
  have hlt : ((0 : ℤ) : R) < (Scalar.toInt x + 1 : ℤ) := by
    push_cast
    linarith
  exact Int.lt_add_one_iff.mp (by exact_mod_cast hlt)

/-- Cutting towards zero keeps the order. -/
theorem toInt_monotone : Monotone (Scalar.toInt : R → ℤ) := by
  intro x y hxy
  rcases le_or_gt 0 x with hx | hx
  · exact toInt_le_toInt hx hxy
  · have hneg : Scalar.toInt x = -Scalar.toInt (-x) := by rw [LawfulScalar.toInt_neg, neg_neg]
    rcases le_or_gt 0 y with hy | hy
    · have hleft := toInt_nonneg (R := R) (x := -x) (by linarith)
      have hright := toInt_nonneg hy
      omega
    · have hflip := toInt_le_toInt (R := R) (x := -y) (y := -x) (by linarith) (by linarith)
      rw [LawfulScalar.toInt_neg y] at hflip
      omega

theorem toNs_monotone : Monotone (toNs : R → ℤ) := fun _ _ h =>
  toInt_monotone (mul_le_mul_of_nonneg_right h (by norm_num))

/-- At most a nanosecond is lost, in milliseconds. -/
theorem abs_toNs_sub_le (ms : R) : |(toNs ms : R) / 1000000 - ms| ≤ 1 / 1000000 := by
  have hcut := (abs_toInt_sub_lt (ms * 1000000)).le
  have hscale : (toNs ms : R) / 1000000 - ms = ((toNs ms : R) - ms * 1000000) / 1000000 := by
    field_simp
  rw [hscale, abs_div, abs_of_pos (by norm_num : (0 : R) < 1000000)]
  exact div_le_div_of_nonneg_right hcut (by norm_num)

/-! ## The percentiles -/

/-- The percentile of a table is a nearest-rank percentile, and the timer has it cut to
nanoseconds.

**Proof sketch.** The rank exceeds the index of the value by one, and the values of a sorted list
before and up to that index are counted by the lemmas about `Quantile.nth`.  Cutting to
nanoseconds is monotone, so it commutes with taking the value at a rank. -/
theorem BenchStats.rank_spec {p : ℕ} (hp : 0 < p) (hp' : p ≤ 100) {samples : List R}
    (hne : samples ≠ []) :
    ∃ v, BenchStats.rank samples p = some v ∧ NearestRank p samples v ∧
      StageStats.percentile_ms p (samples.map toNs) = some ((toNs v : R) / 1000000) := by
  have hpos : 0 < samples.length := List.length_pos_iff.mpr hne
  obtain ⟨k, hrank, hlt, hlow, hhigh⟩ := percentileRank_spec hp hp' hpos
  obtain ⟨v, hv⟩ := Quantile.nth_isSome hlt
  refine ⟨v, ?_, ⟨Quantile.mem_of_nth hv, ?_, ?_⟩, ?_⟩
  · rw [BenchStats.rank, hrank]
    have hidx : min k (samples.length - 1) = k := by omega
    simp only [hidx]
    exact hv
  · have hcount := Quantile.countP_lt_le hv
    omega
  · have hcount := Quantile.lt_countP_le hv
    omega
  · have hsome : (samples.map (toNs (R := R))).isEmpty = false := by
      rw [List.isEmpty_map, List.isEmpty_eq_false_iff]
      exact hne
    rw [StageStats.percentile_ms, hsome, List.length_map, hrank]
    have hidx : max (k + 1) 1 - 1 = k := by omega
    simp only [hidx, Quantile.nth_map toNs_monotone, hv]
    rfl

/-! ## The means -/

theorem abs_sum_toNs_sub_le (samples : List R) :
    |((samples.map toNs).map fun s : ℤ => (s : R)).sum / 1000000 - samples.sum| ≤
      samples.length * (1 / 1000000) := by
  induction samples with
  | nil => simp
  | cons x samples ih =>
    have hx := abs_toNs_sub_le x
    rw [abs_le] at ih hx ⊢
    simp only [List.map_cons, List.sum_cons, List.length_cons, Nat.cast_succ, add_div, add_mul]
    constructor <;> linarith [ih.1, ih.2, hx.1, hx.2]

/-- The mean of the cut samples. -/
theorem abs_mean_sub_le {samples : List R} (hne : samples ≠ []) :
    |StageStats.mean_ms (samples.map toNs) - samples.sum / samples.length| ≤ 1 / 1000000 := by
  have hsome : (samples.map (toNs (R := R))).isEmpty = false := by
    rw [List.isEmpty_map, List.isEmpty_eq_false_iff]
    exact hne
  have hpos : (0 : R) < samples.length := by exact_mod_cast List.length_pos_iff.mpr hne
  have hsum := abs_sum_toNs_sub_le samples
  have hdiff : StageStats.mean_ms (samples.map toNs) - samples.sum / samples.length =
      (((samples.map toNs).map fun s : ℤ => (s : R)).sum / 1000000 - samples.sum) /
        samples.length := by
    rw [StageStats.mean_ms, hsome, if_neg Bool.false_ne_true, List.length_map]
    ring
  rw [hdiff, abs_div, abs_of_pos hpos, div_le_iff₀ hpos, mul_comm (1 / 1000000 : R)]
  exact hsum

/-! ## The tables -/

/-- The row describes these samples. -/
structure StageRow.Describes (row : StageRow R) (samples : List R) : Prop where
  n : row.n = samples.length
  mean : row.mean_ms * samples.length = samples.sum
  p50 : ∃ v, row.p50_ms = some v ∧ NearestRank 50 samples v
  p95 : ∃ v, row.p95_ms = some v ∧ NearestRank 95 samples v

/-- The second row shows the same stage, and no figure is off by more than a nanosecond. -/
structure StageRow.Matches (row row' : StageRow R) : Prop where
  stage : row'.stage = row.stage
  n : row'.n = row.n
  mean : |row'.mean_ms - row.mean_ms| ≤ 1 / 1000000
  p50 : ∃ v v', row.p50_ms = some v ∧ row'.p50_ms = some v' ∧ |v' - v| ≤ 1 / 1000000
  p95 : ∃ v v', row.p95_ms = some v ∧ row'.p95_ms = some v' ∧ |v' - v| ≤ 1 / 1000000

/-- On the same samples, the node's table lists the stages that occurred, once and in order; each
row has the count, the mean and the nearest-rank percentiles of its stage's samples; and the app's
table has the same rows, to a nanosecond.

**Proof sketch.** Both tables are maps over the buckets that the samples fall into; buckets have
the stages as their keys, once and in order, and are not empty.  The app collects samples cut to
nanoseconds, which are the same buckets with each value cut. -/
theorem BenchStats.table_summary (samples : List (String × R)) :
    ((table samples).map StageRow.stage).Pairwise (· < ·) ∧
      (∀ s, s ∈ (table samples).map StageRow.stage ↔ s ∈ samples.map Prod.fst) ∧
      (∀ row ∈ table samples, row.Describes (Buckets.valuesOf row.stage samples)) ∧
      List.Forall₂ StageRow.Matches (table samples) (StageTimer.summary samples) := by
  have hkeys : (table samples).map StageRow.stage = Buckets.keys (Buckets.collect samples) := by
    rw [table, List.map_map]
    rfl
  refine ⟨?_, ?_, ?_, ?_⟩
  · rw [hkeys]
    exact Buckets.pairwise_keys_collect samples
  · intro s
    rw [hkeys]
    exact Buckets.mem_keys_collect samples s
  · intro row hrow
    obtain ⟨b, hb, rfl⟩ := List.mem_map.mp hrow
    obtain ⟨hvalues, hne⟩ := Buckets.mem_collect hb
    obtain ⟨v, hv, hrank, -⟩ := rank_spec (p := 50) (by norm_num) (by norm_num) hne
    obtain ⟨w, hw, hrank', -⟩ := rank_spec (p := 95) (by norm_num) (by norm_num) hne
    rw [← hvalues]
    have hlen : (b.2.length : R) ≠ 0 := by
      rw [Nat.cast_ne_zero, ← Nat.pos_iff_ne_zero]
      exact List.length_pos_iff.mpr hne
    exact ⟨rfl, div_mul_cancel₀ _ hlen, ⟨v, hv, hrank⟩, ⟨w, hw, hrank'⟩⟩
  · rw [table, StageTimer.summary, Buckets.collect_map, Buckets.mapValues, List.map_map,
      List.forall₂_map_left_iff, List.forall₂_map_right_iff, List.forall₂_same]
    intro b hb
    obtain ⟨-, hne⟩ := Buckets.mem_collect hb
    obtain ⟨v, hv, -, hcut⟩ := rank_spec (p := 50) (by norm_num) (by norm_num) hne
    obtain ⟨w, hw, -, hcut'⟩ := rank_spec (p := 95) (by norm_num) (by norm_num) hne
    exact ⟨rfl, List.length_map _, abs_mean_sub_le hne, ⟨v, _, hv, hcut, abs_toNs_sub_le v⟩,
      ⟨w, _, hw, hcut', abs_toNs_sub_le w⟩⟩

theorem BenchStats.table_summary_infer :
    List.Forall₂ (StageRow.Matches (R := ℝ))
      (table [("det.infer", 7), ("gmc", 1), ("det.infer", 5 / 2)])
      (StageTimer.summary [("det.infer", 7), ("gmc", 1), ("det.infer", 5 / 2)]) :=
  (BenchStats.table_summary _).2.2.2

end Lawful

end Ctrk
