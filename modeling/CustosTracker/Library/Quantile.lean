import Mathlib

set_option relaxedAutoImplicit false
set_option autoImplicit false

/-!
# Order statistics by sorting

The element at a position of the sorted list, what it says about how many elements lie below it, and
that a monotone change of the elements changes it in the same way.

## Main definitions

* `Quantile.nth` — the element of a rank, counted from zero.

## Main results

* `Quantile.nth_map` — order statistics of a monotone image.
* `Quantile.countP_lt_le`, `Quantile.lt_countP_le` — how many elements lie below, or not above.
-/

namespace Quantile

variable {α β : Type} [LinearOrder α] [LinearOrder β]

/-- The element at position `k` of the sorted list. -/
def nth (xs : List α) (k : ℕ) : Option α := (xs.mergeSort fun a b => decide (a ≤ b))[k]?

theorem pairwise_sorted (xs : List α) :
    (xs.mergeSort fun a b => decide (a ≤ b)).Pairwise (· ≤ ·) :=
  List.pairwise_mergeSort' (· ≤ ·) xs

/-- There is an element of every rank below the length. -/
theorem nth_isSome {xs : List α} {k : ℕ} (hk : k < xs.length) : ∃ v, nth xs k = some v := by
  refine ⟨_, List.getElem?_eq_getElem ?_⟩
  rwa [List.length_mergeSort]

theorem mem_of_nth {xs : List α} {k : ℕ} {v : α} (h : nth xs k = some v) : v ∈ xs :=
  List.mem_mergeSort.mp (List.mem_of_getElem? h)

/-- Sorting commutes with a monotone map. -/
theorem sorted_map {f : α → β} (hf : Monotone f) (xs : List α) :
    ((xs.map f).mergeSort fun a b => decide (a ≤ b)) =
      (xs.mergeSort fun a b => decide (a ≤ b)).map f := by
  refine List.Perm.eq_of_pairwise' (r := (· ≤ ·)) (pairwise_sorted _) ?_ ?_
  · exact (pairwise_sorted xs).map f fun a b hab => hf hab
  · exact (List.mergeSort_perm _ _).trans ((List.mergeSort_perm xs _).map f).symm

/-- The order statistics of the images are the images of the order statistics. -/
theorem nth_map {f : α → β} (hf : Monotone f) (xs : List α) (k : ℕ) :
    nth (xs.map f) k = (nth xs k).map f := by
  rw [nth, nth, sorted_map hf, List.getElem?_map]

section Count

variable {xs : List α} {k : ℕ} {v : α}

/-- Around the element of rank `k`: before it nothing is greater, after it nothing is smaller. -/
theorem exists_split (h : nth xs k = some v) :
    ∃ pre post, (pre ++ v :: post).Perm xs ∧ pre.length = k ∧ (∀ x ∈ pre, x ≤ v) ∧
      ∀ x ∈ post, v ≤ x := by
  obtain ⟨hk, hv⟩ := List.getElem?_eq_some_iff.mp h
  have hsplit : (xs.mergeSort fun a b => decide (a ≤ b)).take k ++
      v :: (xs.mergeSort fun a b => decide (a ≤ b)).drop (k + 1) =
        xs.mergeSort fun a b => decide (a ≤ b) := by
    rw [← hv, List.cons_getElem_drop_succ, List.take_append_drop]
  have hsorted := pairwise_sorted xs
  rw [← hsplit, List.pairwise_append, List.pairwise_cons] at hsorted
  refine ⟨_, _, hsplit ▸ List.mergeSort_perm xs _, ?_, ?_, hsorted.2.1.1⟩
  · rw [List.length_take]
    exact min_eq_left hk.le
  · intro x hx
    exact hsorted.2.2 x hx v List.mem_cons_self

/-- At most `k` elements lie below the one of rank `k`. -/
theorem countP_lt_le (h : nth xs k = some v) : xs.countP (fun x => decide (x < v)) ≤ k := by
  obtain ⟨pre, post, hperm, hlen, -, hpost⟩ := exists_split h
  have htail : (v :: post).countP (fun x => decide (x < v)) = 0 := by
    refine List.countP_eq_zero.mpr fun x hx => ?_
    rcases List.mem_cons.mp hx with rfl | hx
    · simp
    · simpa using hpost x hx
  rw [← hperm.countP_eq, List.countP_append, htail, Nat.add_zero, ← hlen]
  exact List.countP_le_length

/-- More than `k` elements do not lie above the one of rank `k`. -/
theorem lt_countP_le (h : nth xs k = some v) : k < xs.countP fun x => decide (x ≤ v) := by
  obtain ⟨pre, post, hperm, hlen, hpre, -⟩ := exists_split h
  have hhead : pre.countP (fun x => decide (x ≤ v)) = k := by
    rw [← hlen]
    exact List.countP_eq_length.mpr fun x hx => by simpa using hpre x hx
  rw [← hperm.countP_eq, List.countP_append, hhead, List.countP_cons]
  simp

end Count

end Quantile
