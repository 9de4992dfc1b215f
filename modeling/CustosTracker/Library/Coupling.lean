import Mathlib

set_option relaxedAutoImplicit false
set_option autoImplicit false

/-!
# Matrices that couple channels

A linear filter whose coordinates fall into channels: a matrix couples a row with a column of the
same channel only.  Such matrices are closed under the operations of a filter, and in each channel
the optimal correction is a move towards the measurement by a share of the way.

## Main definitions

* `Coupling.Couples` — nonzero entries stay within a channel.
* `Coupling.share` — the share of the way to the measurement.
* `Coupling.Pulls` — a map that moves every number towards a point.

## Main results

* `Coupling.Couples.mul`, `Coupling.Couples.add`, `Coupling.Couples.transpose` — closure.
* `Coupling.Couples.mul_apply`, `Coupling.Couples.div_apply` — products with, and quotients by, a
  matrix of one coordinate a channel.
* `Coupling.move_mem_segment`, `Coupling.abs_sub_move_le`, `Coupling.abs_sub_pull_move_le` — the
  correction of a channel never overshoots, and less noise brings it closer.
-/

namespace Coupling

open Matrix

/-! ## Channels -/

section Channels

variable {R : Type} [Field R] {m n o ι : Type} {c : m → ι} {d : n → ι} {e : o → ι}

/-- Rows and columns of different channels have no common entry. -/
def Couples (c : m → ι) (d : n → ι) (A : Matrix m n R) : Prop := ∀ i j, c i ≠ d j → A i j = 0

theorem Couples.add {A B : Matrix m n R} (hA : Couples c d A) (hB : Couples c d B) :
    Couples c d (A + B) := by
  intro i j hij
  rw [Matrix.add_apply, hA i j hij, hB i j hij, add_zero]

theorem Couples.sub {A B : Matrix m n R} (hA : Couples c d A) (hB : Couples c d B) :
    Couples c d (A - B) := by
  intro i j hij
  rw [Matrix.sub_apply, hA i j hij, hB i j hij, sub_zero]

theorem Couples.transpose {A : Matrix m n R} (hA : Couples c d A) : Couples d c Aᵀ :=
  fun i j hij => hA j i hij.symm

theorem couples_diagonal [DecidableEq m] (v : m → R) : Couples c c (diagonal v) := by
  intro i j hij
  exact diagonal_apply_ne v fun h => hij (congrArg c h)

variable [Fintype n]

/-- A path through a product stays in its channel. -/
theorem Couples.mul {A : Matrix m n R} {B : Matrix n o R} (hA : Couples c d A)
    (hB : Couples d e B) : Couples c e (A * B) := by
  intro i j hij
  rw [Matrix.mul_apply]
  apply Finset.sum_eq_zero
  intro k _
  by_cases hik : c i = d k
  · rw [hB k j fun hkj => hij (hik.trans hkj), mul_zero]
  · rw [hA i k hik, zero_mul]

/-- A matrix with one column a channel reads the channel of the row. -/
theorem Couples.mulVec_apply {c : m → n} {A : Matrix m n R} (hA : Couples c id A) (v : n → R)
    (i : m) : (A *ᵥ v) i = A i (c i) * v (c i) := by
  apply Finset.sum_eq_single (c i)
  · intro k _ hk
    change A i k * v k = 0
    rw [hA i k fun h => hk h.symm, zero_mul]
  · intro h
    exact absurd (Finset.mem_univ _) h

theorem Couples.mul_apply {c : m → n} {A : Matrix m n R} (hA : Couples c id A) (B : Matrix n o R)
    (i : m) (j : o) : (A * B) i j = A i (c i) * B (c i) j :=
  hA.mulVec_apply (fun k => B k j) i

/-- A quotient by a matrix of one coordinate a channel is one of entries. -/
theorem Couples.div_apply {S : Matrix n n R} (hS : Couples id id S) (hne : ∀ j, S j j ≠ 0)
    {K B : Matrix m n R} (h : K * S = B) (i : m) (j : n) : K i j = B i j / S j j := by
  have hentry : (K * S) i j = K i j * S j j := by
    rw [Matrix.mul_apply]
    apply Finset.sum_eq_single j
    · intro k _ hk
      rw [hS k j hk, mul_zero]
    · intro hj
      exact absurd (Finset.mem_univ _) hj
  rw [eq_div_iff (hne j), ← hentry, h]

end Channels

/-! ## The correction of a channel -/

section Share

variable {R : Type} [Field R] [LinearOrder R] [IsStrictOrderedRing R] {a r r₁ r₂ x m : R}

/-- The share of the way to the measurement, for a prior variance and a noise. -/
def share (a r : R) : R := a / (a + r)

theorem share_mem (ha : 0 ≤ a) (hr : 0 < r) : share a r ∈ Set.Icc 0 1 :=
  ⟨div_nonneg ha (by linarith), (div_le_one (by linarith)).mpr (by linarith)⟩

/-- Less noise means a greater share. -/
theorem share_antitone (ha : 0 ≤ a) (hr : 0 < r₁) (h : r₁ ≤ r₂) : share a r₂ ≤ share a r₁ :=
  div_le_div_of_nonneg_left ha (by linarith) (by linarith)

/-- The correction lies between the prior and the measurement. -/
theorem move_mem_segment (ha : 0 ≤ a) (hr : 0 < r) (x m : R) :
    x + share a r * (m - x) ∈ segment R x m := by
  obtain ⟨hzero, hone⟩ := share_mem ha hr
  refine ⟨1 - share a r, share a r, sub_nonneg.mpr hone, hzero, sub_add_cancel _ _, ?_⟩
  simp only [smul_eq_mul]
  ring

/-- A map that moves every number towards a point, and keeps their order. -/
structure Pulls (f : R → R) (p : R) : Prop where
  mono : Monotone f
  below : ∀ x ≤ p, x ≤ f x
  above : ∀ x, p ≤ x → f x ≤ x

omit [Field R] [IsStrictOrderedRing R] in
theorem pulls_id (p : R) : Pulls id p := ⟨monotone_id, fun _ _ => le_rfl, fun _ _ => le_rfl⟩

/-- **Less noise brings the correction closer.** This survives a map that pulls towards the prior.

**Proof sketch.** Both corrections are on the way from the prior to the measurement, the one with
less noise further along.  The pull keeps their order and takes neither past the measurement. -/
theorem abs_sub_pull_move_le {f : R → R} (hf : Pulls f x) (ha : 0 ≤ a) (hr : 0 < r₁) (h : r₁ ≤ r₂)
    (m : R) : |m - f (x + share a r₁ * (m - x))| ≤ |m - f (x + share a r₂ * (m - x))| := by
  have hshare := share_antitone ha hr h
  obtain ⟨-, hone⟩ := share_mem ha hr
  obtain ⟨hzero, -⟩ := share_mem ha (hr.trans_le h)
  rcases le_total x m with hxm | hmx
  · have hway := sub_nonneg.mpr hxm
    have horder : x + share a r₂ * (m - x) ≤ x + share a r₁ * (m - x) := by
      linarith [mul_le_mul_of_nonneg_right hshare hway]
    have hstart : x ≤ x + share a r₁ * (m - x) :=
      le_add_of_nonneg_right (mul_nonneg (hzero.trans hshare) hway)
    have hend : x + share a r₁ * (m - x) ≤ m := by
      linarith [mul_le_mul_of_nonneg_right hone hway]
    have hpulled := (hf.above _ hstart).trans hend
    rw [abs_of_nonneg (sub_nonneg.mpr hpulled),
      abs_of_nonneg (sub_nonneg.mpr ((hf.mono horder).trans hpulled))]
    exact sub_le_sub_left (hf.mono horder) m
  · have hway := sub_nonpos.mpr hmx
    have horder : x + share a r₁ * (m - x) ≤ x + share a r₂ * (m - x) := by
      linarith [mul_le_mul_of_nonpos_right hshare hway]
    have hstart : x + share a r₁ * (m - x) ≤ x :=
      add_le_of_nonpos_right (mul_nonpos_of_nonneg_of_nonpos (hzero.trans hshare) hway)
    have hend : m ≤ x + share a r₁ * (m - x) := by
      linarith [mul_le_mul_of_nonpos_right hone hway]
    have hpulled := hend.trans (hf.below _ hstart)
    rw [abs_of_nonpos (sub_nonpos.mpr hpulled),
      abs_of_nonpos (sub_nonpos.mpr (hpulled.trans (hf.mono horder)))]
    exact neg_le_neg (sub_le_sub_left (hf.mono horder) m)

theorem abs_sub_move_le (ha : 0 ≤ a) (hr : 0 < r₁) (h : r₁ ≤ r₂) (x m : R) :
    |m - (x + share a r₁ * (m - x))| ≤ |m - (x + share a r₂ * (m - x))| :=
  abs_sub_pull_move_le (pulls_id x) ha hr h m

end Share

end Coupling
