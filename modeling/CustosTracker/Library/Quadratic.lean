import Mathlib

set_option relaxedAutoImplicit false
set_option autoImplicit false

/-!
# Positive semidefinite matrices over an ordered field

Covariances as symmetric matrices with a nonnegative quadratic form, over any ordered field, and
the operations of a linear filter on them.

## Main definitions

* `Quadratic.PosSemidef` — symmetric, with a nonnegative quadratic form.

## Main results

* `Quadratic.PosSemidef.diag_nonneg` — variances are nonnegative.
* `Quadratic.PosSemidef.congruence` — a linear map keeps a covariance.
* `Quadratic.PosSemidef.pos_add_diagonal` — adding positive noise makes it definite.
* `Quadratic.joseph`, `Quadratic.PosSemidef.correct` — the correction step of a filter with its
  optimal gain keeps a covariance.
* `Quadratic.josephForm_eq`, `Quadratic.PosSemidef.correct_le` — no other gain, applied to no
  smaller covariance, does better.
* `Quadratic.gain_unique` — any gain as good is the optimal one.
-/

namespace Quadratic

open Matrix

variable {R : Type} [Field R] [LinearOrder R] {m n : Type} [Fintype m] [Fintype n]

omit [LinearOrder R] in
/-- The quadratic form of a congruence is the form at the transposed vector. -/
theorem dotProduct_congruence (P : Matrix n n R) (F : Matrix m n R) (x : m → R) :
    x ⬝ᵥ (F * P * Fᵀ) *ᵥ x = (Fᵀ *ᵥ x) ⬝ᵥ P *ᵥ (Fᵀ *ᵥ x) := by
  rw [← mulVec_mulVec, ← mulVec_mulVec, dotProduct_mulVec, ← mulVec_transpose]

/-- Symmetric, with a nonnegative quadratic form. -/
def PosSemidef (P : Matrix n n R) : Prop := P.IsSymm ∧ ∀ x : n → R, 0 ≤ x ⬝ᵥ P *ᵥ x

/-- Variances are nonnegative. -/
theorem PosSemidef.diag_nonneg [DecidableEq n] {P : Matrix n n R} (hP : PosSemidef P) (i : n) :
    0 ≤ P i i := by
  have hform := hP.2 (Pi.single i 1)
  rwa [mulVec_single_one, single_one_dotProduct] at hform

/-- A linear map carries a covariance to a covariance. -/
theorem PosSemidef.congruence {P : Matrix n n R} (hP : PosSemidef P) (F : Matrix m n R) :
    PosSemidef (F * P * Fᵀ) := by
  refine ⟨?_, fun x => ?_⟩
  · rw [Matrix.IsSymm, transpose_mul, transpose_mul, transpose_transpose, hP.1, ← Matrix.mul_assoc]
  · rw [dotProduct_congruence]
    exact hP.2 _

section Order

variable [IsStrictOrderedRing R]

/-- Covariances add. -/
theorem PosSemidef.add {P Q : Matrix n n R} (hP : PosSemidef P) (hQ : PosSemidef Q) :
    PosSemidef (P + Q) := by
  refine ⟨hP.1.add hQ.1, fun x => ?_⟩
  rw [add_mulVec, dotProduct_add]
  exact add_nonneg (hP.2 x) (hQ.2 x)

/-- Averaging with the transpose changes nothing on a covariance. -/
theorem PosSemidef.half_add_transpose {P : Matrix n n R} (hP : PosSemidef P) :
    PosSemidef ((1 / 2 : R) • (P + Pᵀ)) := by
  have hsame : (1 / 2 : R) • (P + Pᵀ) = P := by
    rw [hP.1.eq, ← two_smul R P, smul_smul]
    norm_num
  rwa [hsame]

variable [DecidableEq n]

omit [LinearOrder R] [IsStrictOrderedRing R] in
/-- The quadratic form of a diagonal matrix. -/
theorem dotProduct_diagonal (d : n → R) (x : n → R) :
    x ⬝ᵥ diagonal d *ᵥ x = ∑ i, d i * (x i * x i) := by
  rw [dotProduct]
  refine Finset.sum_congr rfl fun i _ => ?_
  rw [mulVec_diagonal]
  ring

/-- Independent noise is a covariance. -/
theorem posSemidef_diagonal {d : n → R} (hd : ∀ i, 0 ≤ d i) : PosSemidef (diagonal d) := by
  refine ⟨isSymm_diagonal d, fun x => ?_⟩
  rw [dotProduct_diagonal]
  exact Finset.sum_nonneg fun i _ => mul_nonneg (hd i) (mul_self_nonneg _)

/-- Independent noise in every coordinate makes a covariance definite. -/
theorem PosSemidef.pos_add_diagonal {P : Matrix n n R} (hP : PosSemidef P) {d : n → R}
    (hd : ∀ i, 0 < d i) {x : n → R} (hx : x ≠ 0) : 0 < x ⬝ᵥ (P + diagonal d) *ᵥ x := by
  obtain ⟨i, hi⟩ := Function.ne_iff.mp hx
  have hnoise : 0 < ∑ i, d i * (x i * x i) := by
    apply Finset.sum_pos' fun j _ => mul_nonneg (hd j).le (mul_self_nonneg _)
    exact ⟨i, Finset.mem_univ i, mul_pos (hd i) (mul_self_pos.mpr hi)⟩
  rw [add_mulVec, dotProduct_add, dotProduct_diagonal]
  exact add_pos_of_nonneg_of_pos (hP.2 x) hnoise

end Order

section Correct

variable [DecidableEq n] {P : Matrix n n R} {N : Matrix m m R} {H : Matrix m n R}
  {K : Matrix n m R}

omit [LinearOrder R] in
/-- With the optimal gain, the corrected covariance is the sum of two congruences. -/
theorem joseph (hK : K * (H * P * Hᵀ + N) = P * Hᵀ) :
    (1 - K * H) * P = (1 - K * H) * P * (1 - K * H)ᵀ + K * N * Kᵀ := by
  have hgain : K * N = P * Hᵀ - K * H * P * Hᵀ := by
    rw [← hK, Matrix.mul_add]
    simp only [Matrix.mul_assoc]
    abel
  rw [hgain, transpose_sub, transpose_one, transpose_mul]
  simp only [Matrix.mul_sub, Matrix.sub_mul, Matrix.mul_one, Matrix.one_mul, Matrix.mul_assoc]
  abel

/-- The correction step with the optimal gain keeps a covariance. -/
theorem PosSemidef.correct [IsStrictOrderedRing R] (hP : PosSemidef P) (hN : PosSemidef N)
    (hK : K * (H * P * Hᵀ + N) = P * Hᵀ) : PosSemidef ((1 - K * H) * P) := by
  rw [joseph hK]
  exact (hP.congruence _).add (hN.congruence K)

/-- The error covariance after a correction with an arbitrary gain. -/
def josephForm (P : Matrix n n R) (N : Matrix m m R) (H : Matrix m n R) (K : Matrix n m R) :
    Matrix n n R :=
  (1 - K * H) * P * (1 - K * H)ᵀ + K * N * Kᵀ

omit [LinearOrder R] in
/-- Completing the square: an arbitrary gain loses a congruence of the innovation covariance
against the optimal one.

**Proof sketch.** Multiply both sides out.  With `K S = P Hᵀ` and its transpose, the terms in `K`
of the square become terms in `P` and `H`, and the rest cancels. -/
theorem josephForm_eq (hP : P.IsSymm) (hN : N.IsSymm) (hK : K * (H * P * Hᵀ + N) = P * Hᵀ)
    (L : Matrix n m R) :
    josephForm P N H L = (1 - K * H) * P + (L - K) * (H * P * Hᵀ + N) * (L - K)ᵀ := by
  set S := H * P * Hᵀ + N with hS
  have hSsymm : Sᵀ = S := by
    rw [hS, transpose_add, transpose_mul, transpose_mul, transpose_transpose, hP.eq, hN.eq,
      ← Matrix.mul_assoc]
  have hKt : S * Kᵀ = H * P := by
    have ht := congrArg transpose hK
    rwa [transpose_mul, hSsymm, transpose_mul, transpose_transpose, hP.eq] at ht
  have hform : josephForm P N H L = P - L * (H * P) - P * Hᵀ * Lᵀ + L * S * Lᵀ := by
    rw [josephForm, hS, transpose_sub, transpose_one, transpose_mul]
    simp only [Matrix.mul_add, Matrix.add_mul, Matrix.mul_sub, Matrix.sub_mul, Matrix.mul_one,
      Matrix.one_mul, Matrix.mul_assoc]
    abel
  have hsquare : (L - K) * S * (L - K)ᵀ =
      L * S * Lᵀ - P * Hᵀ * Lᵀ - L * (H * P) + K * (H * P) := by
    calc (L - K) * S * (L - K)ᵀ
        = L * S * Lᵀ - K * S * Lᵀ - L * (S * Kᵀ) + K * (S * Kᵀ) := by
          rw [transpose_sub]
          simp only [Matrix.mul_sub, Matrix.sub_mul, Matrix.mul_assoc]
          abel
      _ = L * S * Lᵀ - P * Hᵀ * Lᵀ - L * (H * P) + K * (H * P) := by rw [hK, hKt]
  rw [hform, hsquare, Matrix.sub_mul, Matrix.one_mul, Matrix.mul_assoc K H P]
  abel

omit [LinearOrder R] in
/-- The error covariance is additive in the covariance it starts from. -/
theorem josephForm_sub (Q P : Matrix n n R) (L : Matrix n m R) :
    josephForm Q N H L - josephForm P N H L = (1 - L * H) * (Q - P) * (1 - L * H)ᵀ := by
  rw [josephForm, josephForm, Matrix.mul_sub (1 - L * H) Q P,
    Matrix.sub_mul ((1 - L * H) * Q) ((1 - L * H) * P), add_sub_add_right_eq_sub]

/-- An arbitrary gain applied to no smaller covariance leaves no smaller covariance than the
optimal gain. -/
theorem PosSemidef.correct_le [IsStrictOrderedRing R] {Q : Matrix n n R} (hQ : PosSemidef (Q - P))
    (hP : PosSemidef P) (hN : PosSemidef N) (hK : K * (H * P * Hᵀ + N) = P * Hᵀ)
    (L : Matrix n m R) : PosSemidef (josephForm Q N H L - (1 - K * H) * P) := by
  have hloss : josephForm P N H L - (1 - K * H) * P =
      (L - K) * (H * P * Hᵀ + N) * (L - K)ᵀ := by
    rw [josephForm_eq hP.1 hN.1 hK, add_sub_cancel_left]
  have hsplit : josephForm Q N H L - (1 - K * H) * P =
      (1 - L * H) * (Q - P) * (1 - L * H)ᵀ + (L - K) * (H * P * Hᵀ + N) * (L - K)ᵀ := by
    rw [← josephForm_sub, ← hloss, sub_add_sub_cancel]
  rw [hsplit]
  exact (hQ.congruence _).add (((hP.congruence H).add hN).congruence _)

/-- A gain that leaves the covariance of the optimal one is the optimal one. -/
theorem gain_unique (hP : P.IsSymm) (hN : N.IsSymm) (hK : K * (H * P * Hᵀ + N) = P * Hᵀ)
    (hS : ∀ x, x ≠ 0 → 0 < x ⬝ᵥ (H * P * Hᵀ + N) *ᵥ x) {L : Matrix n m R}
    (hL : josephForm P N H L = (1 - K * H) * P) : L = K := by
  have hzero : (L - K) * (H * P * Hᵀ + N) * (L - K)ᵀ = 0 := by
    rwa [josephForm_eq hP hN hK, add_eq_left] at hL
  -- a nonzero row of the difference would have a positive diagonal entry
  have hrow (i : n) : (L - K)ᵀ *ᵥ Pi.single i 1 = 0 := by
    by_contra hne
    have hpos := hS _ hne
    rw [← dotProduct_congruence, hzero, zero_mulVec, dotProduct_zero] at hpos
    exact hpos.false
  rw [← sub_eq_zero]
  ext i j
  have hentry := congrFun (hrow i) j
  rwa [mulVec_single_one] at hentry

end Correct

end Quadratic
