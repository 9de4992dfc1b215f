import Mathlib

set_option relaxedAutoImplicit false
set_option autoImplicit false

/-!
# Regularized least squares on complex samples

One complex coefficient is fitted to weighted samples: it should carry each input to its target,
and stay small.  The coefficient with the least cost is a quotient of two sums over the samples,
so a fit that keeps these two sums never needs the samples again, and an exponential forgetting of
the samples is a blend of the sums.

Complex numbers are pairs, so everything is computable over any field.

## Main definitions

* `LeastSquares.mul`, `conj`, `normSq` — complex arithmetic on pairs.
* `LeastSquares.Sample`, `cost` — a weighted sample, the regularized cost of a coefficient.
* `LeastSquares.cross`, `power`, `best` — the two sums and their quotient.
* `LeastSquares.learn`, `reweigh` — add a sample and forget the others by a rate.

## Main results

* `LeastSquares.cost_eq` — the quotient is the unique minimizer, and what any other loses.
* `LeastSquares.cross_learn`, `power_learn` — learning blends the sums.
* `LeastSquares.Convex.reweigh` — learning keeps the weights a convex combination.
-/

namespace LeastSquares

variable {R : Type} [Field R]

/-- Complex multiplication. -/
def mul (a b : R × R) : R × R := (a.1 * b.1 - a.2 * b.2, a.1 * b.2 + a.2 * b.1)

/-- Complex conjugation. -/
def conj (a : R × R) : R × R := (a.1, -a.2)

/-- The squared modulus. -/
def normSq (a : R × R) : R := a.1 * a.1 + a.2 * a.2

/-- A number times its conjugate is its squared modulus. -/
theorem mul_conj_self (a : R × R) : mul a (conj a) = (normSq a, 0) := by
  ext
  · simp only [mul, conj, normSq]
    ring
  · simp only [mul, conj]
    ring

/-- A weighted sample: the coefficient should carry the input to the target. -/
structure Sample (R : Type) where
  weight : R
  input : R × R
  target : R × R

/-- The regularized cost of a coefficient. -/
def cost (reg : R) (s : List (Sample R)) (h : R × R) : R :=
  (s.map fun a => a.weight * normSq (mul h a.input - a.target)).sum + reg * normSq h

/-- The weighted sum of the targets against the inputs. -/
def cross (s : List (Sample R)) : R × R :=
  ((s.map fun a => a.weight * (mul a.target (conj a.input)).1).sum,
    (s.map fun a => a.weight * (mul a.target (conj a.input)).2).sum)

/-- The weighted power of the inputs. -/
def power (s : List (Sample R)) : R := (s.map fun a => a.weight * normSq a.input).sum

/-- The fitted coefficient. -/
def best (reg : R) (s : List (Sample R)) : R × R :=
  ((cross s).1 / (power s + reg), (cross s).2 / (power s + reg))

/-- The cost as a quadratic polynomial in the coefficient. -/
theorem cost_expand (reg : R) (s : List (Sample R)) (h : R × R) :
    cost reg s h = (power s + reg) * normSq h -
      2 * (h.1 * (cross s).1 + h.2 * (cross s).2) +
      (s.map fun a => a.weight * normSq a.target).sum := by
  induction s with
  | nil => simp [cost, power, cross]
  | cons a s ih =>
    simp only [cost, power, cross, List.map_cons, List.sum_cons] at ih ⊢
    rw [add_assoc, ih]
    simp only [normSq, mul, conj, Prod.fst_sub, Prod.snd_sub]
    ring

/-- **The fitted coefficient is the unique minimizer.** Any other loses the regularized power of
the inputs times its squared distance. -/
theorem cost_eq {reg : R} {s : List (Sample R)} (hreg : power s + reg ≠ 0) (h : R × R) :
    cost reg s h = cost reg s (best reg s) + (power s + reg) * normSq (h - best reg s) := by
  rw [cost_expand, cost_expand]
  simp only [normSq, best, Prod.fst_sub, Prod.snd_sub]
  field_simp
  ring

section Learn

/-- Forget every sample by the rate. -/
def forget (lr : R) (s : List (Sample R)) : List (Sample R) :=
  s.map fun a => { a with weight := a.weight * (1 - lr) }

/-- Add a sample with the rate as its weight and forget the others by it. -/
def learn (lr : R) (s : List (Sample R)) (input target : R × R) : List (Sample R) :=
  forget lr s ++ [⟨lr, input, target⟩]

/-- Forgetting scales every weighted sum of the samples. -/
theorem sum_forget (lr : R) (s : List (Sample R)) (f : R × R → R × R → R) :
    ((forget lr s).map fun a => a.weight * f a.input a.target).sum =
      (s.map fun a => a.weight * f a.input a.target).sum * (1 - lr) := by
  induction s with
  | nil => simp [forget]
  | cons a s ih =>
    simp only [forget, List.map_cons, List.sum_cons] at ih ⊢
    rw [ih]
    ring

/-- Learning blends every weighted sum of the samples. -/
theorem sum_learn (lr : R) (s : List (Sample R)) (input target : R × R) (f : R × R → R × R → R) :
    ((learn lr s input target).map fun a => a.weight * f a.input a.target).sum =
      (s.map fun a => a.weight * f a.input a.target).sum * (1 - lr) + f input target * lr := by
  rw [learn, List.map_append, List.sum_append, sum_forget, List.map_singleton, List.sum_singleton,
    mul_comm lr]

theorem cross_learn (lr : R) (s : List (Sample R)) (input target : R × R) :
    cross (learn lr s input target) =
      ((cross s).1 * (1 - lr) + (mul target (conj input)).1 * lr,
        (cross s).2 * (1 - lr) + (mul target (conj input)).2 * lr) :=
  Prod.ext (sum_learn lr s input target fun i t => (mul t (conj i)).1)
    (sum_learn lr s input target fun i t => (mul t (conj i)).2)

theorem power_learn (lr : R) (s : List (Sample R)) (input target : R × R) :
    power (learn lr s input target) = power s * (1 - lr) + normSq input * lr :=
  sum_learn lr s input target fun i _ => normSq i

end Learn

section Order

variable [LinearOrder R] [IsStrictOrderedRing R]

/-- The weights are a convex combination. -/
structure Convex (w : List R) : Prop where
  nonneg : ∀ a ∈ w, 0 ≤ a
  sum : w.sum = 1

/-- Scale the weights down by the rate and give the rate to a new one. -/
def reweigh (lr : R) (w : List R) : List R := w.map (· * (1 - lr)) ++ [lr]

/-- The first sample learned at rate one is a convex combination. -/
theorem convex_singleton : Convex [(1 : R)] where
  nonneg := by
    intro a ha
    rw [List.mem_singleton.mp ha]
    exact zero_le_one
  sum := List.sum_singleton

/-- Reweighing by a rate between zero and one keeps the weights a convex combination. -/
theorem Convex.reweigh {w : List R} (hw : Convex w) {lr : R} (h0 : 0 ≤ lr) (h1 : lr ≤ 1) :
    Convex (reweigh lr w) where
  nonneg := by
    intro a ha
    rw [LeastSquares.reweigh, List.mem_append, List.mem_singleton] at ha
    rcases ha with ha | rfl
    · obtain ⟨b, hb, rfl⟩ := List.mem_map.mp ha
      exact mul_nonneg (hw.nonneg b hb) (sub_nonneg.mpr h1)
    · exact h0
  sum := by
    rw [LeastSquares.reweigh, List.sum_append, List.sum_map_mul_right, List.map_id', hw.sum,
      List.sum_singleton]
    ring

theorem normSq_nonneg (a : R × R) : 0 ≤ normSq a :=
  add_nonneg (mul_self_nonneg _) (mul_self_nonneg _)

/-- Weighted powers of inputs are nonnegative. -/
theorem Convex.power_nonneg {s : List (Sample R)} (hs : Convex (s.map Sample.weight)) :
    0 ≤ power s := by
  apply List.sum_nonneg
  intro p hp
  obtain ⟨a, ha, rfl⟩ := List.mem_map.mp hp
  exact mul_nonneg (hs.nonneg _ (List.mem_map_of_mem ha)) (normSq_nonneg _)

end Order

end LeastSquares
