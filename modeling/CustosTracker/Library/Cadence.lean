import Mathlib

set_option relaxedAutoImplicit false
set_option autoImplicit false

/-!
# Events with a minimum distance

A sequence of moments, some of them marked.  A greedy rule marks a moment when it is ready and
enough moments have passed since the last marked one, or since the beginning.  Marks are then
never too close, and a ready moment is only passed over for being too close.

## Main definitions

* `Cadence.idle`, `Cadence.last` — the moments since the last mark; the last marked moment.
* `Cadence.Greedy` — the rule.

## Main results

* `Cadence.Greedy.concat` — the rule extends by one moment.
* `Cadence.Greedy.spacing` — marks keep their distance, also from the beginning.
-/

namespace Cadence

variable {α : Type} (mark : α → Bool)

/-- The number of moments since the last mark. -/
def idle (s : List α) : ℕ := s.foldl (fun n x => if mark x then 0 else n + 1) 0

/-- The last marked moment. -/
def last (s : List α) : Option α := s.foldl (fun l x => if mark x then some x else l) none

theorem idle_concat (s : List α) (x : α) :
    idle mark (s ++ [x]) = if mark x then 0 else idle mark s + 1 := by
  simp [idle]

theorem last_concat (s : List α) (x : α) :
    last mark (s ++ [x]) = if mark x then some x else last mark s := by
  simp [last]

/-- At most all moments are idle. -/
theorem idle_le_length (s : List α) : idle mark s ≤ s.length := by
  induction s using List.reverseRecOn with
  | nil => exact le_rfl
  | append_singleton s x ih =>
    rw [idle_concat, List.length_append, List.length_singleton]
    split_ifs <;> omega

/-- Only the moments after a mark are idle. -/
theorem idle_add_lt {s : List α} {j : ℕ} {x : α} (hx : s[j]? = some x) (hmark : mark x = true) :
    idle mark s + j < s.length := by
  induction s using List.reverseRecOn with
  | nil => simp at hx
  | append_singleton s y ih =>
    rw [idle_concat, List.length_append, List.length_singleton]
    rcases Nat.lt_or_ge j s.length with hj | hj
    · rw [List.getElem?_append_left hj] at hx
      have hlt := ih hx
      split_ifs <;> omega
    · rw [List.getElem?_append_right hj, List.getElem?_singleton] at hx
      have hjs : j = s.length := by
        by_contra hne
        rw [if_neg (by omega)] at hx
        cases hx
      rw [hjs, Nat.sub_self, if_pos rfl] at hx
      rw [Option.some.inj hx, if_pos hmark]
      omega

/-- A moment is marked exactly when it is ready and far enough from the last mark. -/
def Greedy (gap : ℤ) (ready : α → Prop) (s : List α) : Prop :=
  ∀ i x, s[i]? = some x → (mark x = true ↔ ready x ∧ gap ≤ idle mark (s.take i) + 1)

variable {mark} {gap : ℤ} {ready : α → Prop} {s : List α}

/-- The rule extends by one moment. -/
theorem Greedy.concat (hs : Greedy mark gap ready s) {x : α}
    (hx : mark x = true ↔ ready x ∧ gap ≤ idle mark s + 1) : Greedy mark gap ready (s ++ [x]) := by
  intro i y hy
  rcases Nat.lt_or_ge i s.length with hi | hi
  · rw [List.getElem?_append_left hi] at hy
    rw [List.take_append_of_le_length hi.le]
    exact hs i y hy
  · have hlen := (List.getElem?_eq_some_iff.mp hy).1
    rw [List.length_append, List.length_singleton] at hlen
    obtain rfl : i = s.length := by omega
    rw [List.getElem?_concat_length] at hy
    rw [List.take_left, ← Option.some.inj hy]
    exact hx

/-- Marks keep their distance, also from the beginning. -/
theorem Greedy.spacing (hs : Greedy mark gap ready s) {i : ℕ} {x : α} (hx : s[i]? = some x)
    (hmark : mark x = true) :
    gap ≤ i + 1 ∧ ∀ j y, j < i → s[j]? = some y → mark y = true → gap ≤ i - j := by
  have hgap := ((hs i x hx).mp hmark).2
  have hi := (List.getElem?_eq_some_iff.mp hx).1
  have hlen : (s.take i).length = i := List.length_take_of_le hi.le
  refine ⟨?_, fun j y hj hy hmark' => ?_⟩
  · have hle := idle_le_length mark (s.take i)
    omega
  · have hlt := idle_add_lt mark (s := s.take i) (by rw [List.getElem?_take_of_lt hj, hy]) hmark'
    omega

end Cadence
