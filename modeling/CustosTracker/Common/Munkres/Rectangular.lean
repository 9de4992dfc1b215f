import CustosTracker.Common.Munkres.Solve
import CustosTracker.Library.Assignment

set_option relaxedAutoImplicit false
set_option autoImplicit false

/-!
# The rectangular solver

`munkres_solve` pads the cost matrix to a square with zeros, solves the square and keeps the
starred cells inside the rectangle.  Its answers are the cells of a permutation of the square, so
they are one-to-one, fill the shorter side and cost less than any other such choice plus the zero
tolerance of the solver for each index of the longer side.

## Main definitions

* `Ctrk.rowEmb`, `Ctrk.colEmb` — the rectangle in the padded square.
* `Ctrk.assigned` — the cells `munkres_solve` assigns.

## Main results

* `Ctrk.munkresSolve_spec` — the rectangular solver in terms of a certified square matching.
* `Ctrk.munkresSolve_near_optimal` — the solver, as a nearly cheapest permutation of the square.
* `Ctrk.munkresSolve_optimal` — the answers against every one-to-one choice of that size.
-/

namespace Ctrk

open Matching

variable {R : Type} [Scalar R]

/-! ## The padded square -/

/-- The last index satisfying a predicate that holds at most once.

**Proof sketch.** By induction on the list from its end: the last element either satisfies the
predicate, and is then the only one, or leaves the fold as it was. -/
private theorem foldl_last_eq_some {α : Type} (p : α → Bool) :
    ∀ (l : List α) (_ : ∀ a b, p a = true → p b = true → a = b) (a : α),
      l.foldl (fun acc x => if p x then some x else acc) none = some a ↔ a ∈ l ∧ p a = true := by
  intro l huniq a
  induction l using List.reverseRecOn with
  | nil => simp
  | append_singleton l x ih =>
    rw [List.foldl_append, List.foldl_cons, List.foldl_nil]
    split_ifs with hx
    · constructor
      · rintro h
        obtain rfl := Option.some.inj h
        exact ⟨by simp, hx⟩
      · rintro ⟨-, ha⟩
        rw [huniq a x ha hx]
    · rw [ih]
      simp only [List.mem_append, List.mem_singleton]
      constructor
      · rintro ⟨h, ha⟩
        exact ⟨Or.inl h, ha⟩
      · rintro ⟨h | rfl, ha⟩
        · exact ⟨h, ha⟩
        · exact absurd ha hx

/-- The padding of a cost matrix at a real cell. -/
theorem padded_castLE {rows cols : ℕ} (cost : Fin rows → Fin cols → R) (i : Fin rows)
    (j : Fin cols) :
    padded cost (i.castLE (le_max_left rows cols)) (j.castLE (le_max_right rows cols)) =
      cost i j := by
  simp [padded, i.isLt, j.isLt]

/-- **The rectangular solver.**  The answers of `munkres_solve` are the real cells of a perfect
matching of the padded square, optimal up to `kZeroEps` per cell. -/
theorem munkresSolve_spec [IsStrictOrderedRing R] {rows cols : ℕ} (hr : rows ≠ 0) (hc : cols ≠ 0)
    (cost : Fin rows → Fin cols → R) :
    ∃ star, IsMatching star ∧ (∀ j, ColUsed star j) ∧ NearTight (padded cost) kZeroEps star ∧
      ∀ i j, munkresSolve cost i = some j ↔
        star (i.castLE (le_max_left rows cols)) (j.castLE (le_max_right rows cols)) = true := by
  obtain ⟨star, hsolve, hM, hall, htight⟩ := Munkres.solve_spec (padded cost)
  refine ⟨star, hM, hall, htight, fun i j => ?_⟩
  have huniq : ∀ a b : Fin cols,
      star (i.castLE (le_max_left rows cols)) (a.castLE (le_max_right rows cols)) = true →
      star (i.castLE (le_max_left rows cols)) (b.castLE (le_max_right rows cols)) = true →
      a = b := by
    intro a b ha hb
    have := congrArg Fin.val (hM.row ha hb)
    exact Fin.ext this
  rw [munkresSolve, if_neg (by simp [hr, hc]), hsolve]
  simp only [rowToCol]
  rw [foldl_last_eq_some _ _ huniq j]
  simp

/-- Different rows get different columns. -/
theorem munkresSolve_injective [IsStrictOrderedRing R] {rows cols : ℕ}
    (cost : Fin rows → Fin cols → R) {i i' : Fin rows} {j : Fin cols}
    (h : munkresSolve cost i = some j) (h' : munkresSolve cost i' = some j) : i = i' := by
  have hr : rows ≠ 0 := fun h0 => (h0 ▸ i).elim0
  have hc : cols ≠ 0 := fun h0 => (h0 ▸ j).elim0
  obtain ⟨star, hM, -, -, hstar⟩ := munkresSolve_spec hr hc cost
  have := congrArg Fin.val (hM.col ((hstar i j).mp h) ((hstar i' j).mp h'))
  exact Fin.ext this

/-! ## The solver as a permutation -/

section Solver

variable [IsStrictOrderedRing R] {rows cols : ℕ}

/-- The rows of the rectangle in the square. -/
def rowEmb (rows cols : ℕ) : Fin rows ↪ Fin (max rows cols) :=
  ⟨Fin.castLE (le_max_left rows cols), Fin.castLE_injective _⟩

/-- The columns of the rectangle in the square. -/
def colEmb (rows cols : ℕ) : Fin cols ↪ Fin (max rows cols) :=
  ⟨Fin.castLE (le_max_right rows cols), Fin.castLE_injective _⟩

omit [IsStrictOrderedRing R] in
/-- The padded matrix extends the cost matrix by zeros. -/
theorem pads_padded (cost : Fin rows → Fin cols → R) :
    Pads (rowEmb rows cols) (colEmb rows cols) cost (padded cost) where
  inside i j := padded_castLE cost i j
  row i j hi := by
    have hrow : ¬i.val < rows := fun h => hi ⟨⟨i, h⟩, rfl⟩
    rw [padded, dif_neg fun h => hrow h.1]
  col i j hj := by
    have hcol : ¬j.val < cols := fun h => hj ⟨⟨j, h⟩, rfl⟩
    rw [padded, dif_neg fun h => hcol h.2]

/-- One side of the rectangle fills the square. -/
theorem rowEmb_or_colEmb_surjective (rows cols : ℕ) :
    Function.Surjective (rowEmb rows cols) ∨ Function.Surjective (colEmb rows cols) := by
  rcases le_total cols rows with h | h
  · exact Or.inl fun i => ⟨⟨i, lt_of_lt_of_eq i.isLt (max_eq_left h)⟩, rfl⟩
  · exact Or.inr fun j => ⟨⟨j, lt_of_lt_of_eq j.isLt (max_eq_right h)⟩, rfl⟩

/-- **The solver as a permutation.** The answers of `munkres_solve` are the cells of a permutation
of the padded square whose cost exceeds the cheapest one by less than `kZeroEps` per row. -/
theorem munkresSolve_near_optimal (hr : rows ≠ 0) (hc : cols ≠ 0)
    (cost : Fin rows → Fin cols → R) :
    ∃ σ : Equiv.Perm (Fin (max rows cols)),
      (∀ i j, munkresSolve cost i = some j ↔
        (i, j) ∈ cellsOf (rowEmb rows cols) (colEmb rows cols) σ) ∧
      ∀ τ : Equiv.Perm (Fin (max rows cols)),
        ∑ i, padded cost i (σ i) < ∑ i, padded cost i (τ i) + (max rows cols : ℕ) * kZeroEps := by
  obtain ⟨star, hM, hall, htight, hstar⟩ := munkresSolve_spec hr hc cost
  have : Nonempty (Fin (max rows cols)) :=
    ⟨⟨0, lt_max_of_lt_left (Nat.pos_of_ne_zero hr)⟩⟩
  obtain ⟨σ, hσ, hbest⟩ := htight.exists_perm hM hall
  refine ⟨σ, fun i j => ?_, fun τ => ?_⟩
  · rw [hstar, mem_cellsOf]
    exact hσ _ _
  · have h := hbest τ
    rwa [Fintype.card_fin] at h

end Solver

/-! ## Optimality on the rectangle -/

section Optimal

variable {rows cols : ℕ}

/-- The cells `munkres_solve` assigns: a row with its non-negative answer. -/
def assigned (cost : Fin rows → Fin cols → R) : Finset (Fin rows × Fin cols) :=
  Finset.univ.filter fun p => munkresSolve cost p.1 = some p.2

theorem mem_assigned {cost : Fin rows → Fin cols → R} {p : Fin rows × Fin cols} :
    p ∈ assigned cost ↔ munkresSolve cost p.1 = some p.2 := by
  rw [assigned, Finset.mem_filter, and_iff_right (Finset.mem_univ _)]

/-- The number of rows with an answer is the number of assigned cells. -/
theorem card_assigned (cost : Fin rows → Fin cols → R) :
    (assigned cost).card = (Finset.univ.filter fun i => (munkresSolve cost i).isSome).card := by
  refine Finset.card_nbij Prod.fst ?_ ?_ ?_
  · intro p hp
    rw [Finset.mem_coe, mem_assigned] at hp
    simp [hp]
  · intro p hp q hq hpq
    rw [Finset.mem_coe, mem_assigned] at hp hq
    rw [show p.1 = q.1 from hpq, hq] at hp
    exact Prod.ext hpq (Option.some.inj hp).symm
  · intro i hi
    obtain ⟨j, hj⟩ := Option.isSome_iff_exists.mp (Finset.mem_filter.mp hi).2
    exact ⟨(i, j), mem_assigned.mpr hj, rfl⟩

/-- The assigned cells are those of a nearly cheapest permutation. -/
theorem assigned_eq_cellsOf [IsStrictOrderedRing R] (hr : rows ≠ 0) (hc : cols ≠ 0)
    (cost : Fin rows → Fin cols → R) :
    ∃ σ : Equiv.Perm (Fin (max rows cols)),
      assigned cost = cellsOf (rowEmb rows cols) (colEmb rows cols) σ ∧
      ∀ τ : Equiv.Perm (Fin (max rows cols)),
        ∑ p ∈ assigned cost, cost p.1 p.2 <
          ∑ p ∈ cellsOf (rowEmb rows cols) (colEmb rows cols) τ, cost p.1 p.2 +
            (max rows cols : ℕ) * kZeroEps := by
  obtain ⟨σ, hassigned, hbest⟩ := munkresSolve_near_optimal hr hc cost
  have hcells : assigned cost = cellsOf (rowEmb rows cols) (colEmb rows cols) σ := by
    ext p
    rw [mem_assigned]
    exact hassigned p.1 p.2
  refine ⟨σ, hcells, fun τ => ?_⟩
  have h := hbest τ
  rwa [(pads_padded cost).sum_eq, (pads_padded cost).sum_eq, ← hcells] at h

/-- **Munkres is optimal.** On a non-empty matrix the answers are distinct columns, as many rows as
the shorter side has indices get one, and the assigned cells cost less than `1e-9` for each index
of the longer side above any one-to-one choice of that many cells.

**Proof sketch.** The answers are the cells of a permutation of the padded square that the dual
potentials certify as nearly cheapest.  A one-to-one choice is among the cells of some permutation,
and all permutations pick equally many cells, so the choice is exactly those cells. -/
theorem munkresSolve_optimal [IsStrictOrderedRing R] (hr : rows ≠ 0) (hc : cols ≠ 0)
    (cost : Fin rows → Fin cols → R) :
    (∀ i i' j, munkresSolve cost i = some j → munkresSolve cost i' = some j → i = i') ∧
    (Finset.univ.filter fun i => (munkresSolve cost i).isSome).card = min rows cols ∧
    ∀ N : Finset (Fin rows × Fin cols), PairsMatch N → N.card = min rows cols →
      ∑ p ∈ assigned cost, cost p.1 p.2 <
        ∑ p ∈ N, cost p.1 p.2 + (max rows cols : ℕ) * 1e-9 := by
  obtain ⟨σ, hcells, hbest⟩ := assigned_eq_cellsOf hr hc cost
  have hcard := card_cellsOf (rowEmb_or_colEmb_surjective rows cols)
  simp only [Fintype.card_fin] at hcard
  refine ⟨fun i i' j => munkresSolve_injective cost, ?_, fun N hN hcardN => ?_⟩
  · rw [← card_assigned, hcells]
    exact hcard σ
  · obtain ⟨τ, hτ⟩ := hN.exists_perm (f := rowEmb rows cols) (g := colEmb rows cols)
    -- the choice has as many cells as the permutation it is part of
    have hN : N = cellsOf (rowEmb rows cols) (colEmb rows cols) τ :=
      Finset.eq_of_subset_of_card_le hτ (by rw [hcard, hcardN])
    have heps : (kZeroEps : R) = 1e-9 := by norm_num [kZeroEps]
    rw [hN, ← heps]
    exact hbest τ

/-- The solver on a `2 × 3` matrix with negative costs and ties. -/
theorem munkresSolve_optimal_rect :
    let cost : Fin 2 → Fin 3 → ℚ := fun i j => (i.val * j.val : ℚ) - 1
    (Finset.univ.filter fun i => (munkresSolve cost i).isSome).card = 2 ∧
      ∀ N : Finset (Fin 2 × Fin 3), PairsMatch N → N.card = 2 →
        ∑ p ∈ assigned cost, cost p.1 p.2 < ∑ p ∈ N, cost p.1 p.2 + 3 * 1e-9 :=
  (munkresSolve_optimal (by decide : 2 ≠ 0) (by decide : 3 ≠ 0) _).2

end Optimal

end Ctrk
