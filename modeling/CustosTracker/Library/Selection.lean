import Mathlib.Data.List.MinMax
import Mathlib.Data.List.Basic
import Mathlib.Tactic

set_option relaxedAutoImplicit false
set_option autoImplicit false

/-!
# Running optima

A loop over a list keeps one eligible element and replaces it by every later eligible element that
is better.  What is left at the end depends on what *better* means on equals: a strict comparison
keeps the first optimum, a comparison that ties pass keeps the last one.

## Main definitions

* `Selection.choose` — the element the loop ends with.
* `Selection.overwrite` — a step of the loop that stores the key of its element.
* `Selection.Overtakes` — the comparisons for which the loop finds an optimum.
* `Selection.FirstMax`, `Selection.LastMax`, `Selection.LastMin` — the optima of a list.

## Main results

* `Selection.choose_concat` — one more element.
* `Selection.choose_eq_none_iff` — when there is nothing to choose.
* `Selection.exists_split` — the chosen element, against those before and after it.
* `Selection.foldl_overwrite` — the loop with a stored key makes the same choice.
* `Selection.firstMax_of_choose`, `Selection.lastMax_of_choose`, `Selection.lastMin_of_choose`.
-/

namespace Selection

variable {α β : Type} (p : α → Prop) [DecidablePred p]

/-! ## The loop -/

section Loop

variable (better : α → α → Prop) [DecidableRel better]

/-- Keep an eligible element, and replace it by every later eligible element that is better. -/
def choose (l : List α) : Option α := (l.filter p).foldl (List.argAux better) none

@[simp] theorem choose_nil : choose p better [] = none := rfl

/-- What the loop does to the last element. -/
theorem choose_concat (l : List α) (x : α) : choose p better (l ++ [x]) =
    if p x then List.argAux better (choose p better l) x else choose p better l := by
  rw [choose, List.filter_append, List.foldl_append]
  by_cases hx : p x
  · rw [List.filter_singleton, decide_eq_true hx, if_pos hx]
    rfl
  · rw [List.filter_singleton, decide_eq_false hx, if_neg hx]
    rfl

/-- Nothing is chosen exactly when nothing is eligible. -/
theorem choose_eq_none_iff {l : List α} : choose p better l = none ↔ ∀ x ∈ l, ¬p x := by
  rw [choose, List.foldl_argAux_eq_none, and_iff_left rfl, List.filter_eq_nil_iff]
  simp only [decide_eq_true_eq]

/-- What is chosen is eligible. -/
theorem choose_eligible {l : List α} {a : α} (h : choose p better l = some a) : p a := by
  induction l using List.reverseRecOn generalizing a with
  | nil => exact absurd h (by simp)
  | append_singleton l x ih =>
    rw [choose_concat] at h
    split_ifs at h with hx
    · cases hl : choose p better l with
      | none =>
        rw [hl] at h
        exact Option.some.inj h ▸ hx
      | some b =>
        rw [hl, List.argAux] at h
        simp only at h
        split_ifs at h
        · exact Option.some.inj h ▸ hx
        · exact Option.some.inj h ▸ ih hl
    · exact ih h

/-- The choice depends on the eligible elements of the list only. -/
theorem choose_congr {q : α → Prop} [DecidablePred q] (h : ∀ x, p x ↔ q x) (l : List α) :
    choose p better l = choose q better l := by
  rw [choose, choose, List.filter_congr fun x _ => decide_eq_decide.mpr (h x)]

/-- A comparison for which the survivor of the loop is better than all before it, and none after
it is better. -/
structure Overtakes : Prop where
  trans : ∀ {a b c}, better c b → better b a → better c a
  mix : ∀ {a b c}, better c a → ¬better b a → better c b

variable {p better}

/-- **The survivor.** The chosen element is eligible, better than every eligible element before it,
and no eligible element after it is better.

**Proof sketch.** Induction on the list from its end.  A new element that overtakes the survivor
overtakes what the survivor was better than (`trans`) and what was not better than the survivor
(`mix`). -/
theorem exists_split (hb : Overtakes better) {l : List α} {a : α} (h : choose p better l = some a) :
    ∃ pre post, l = pre ++ a :: post ∧ p a ∧ (∀ x ∈ pre, p x → better a x) ∧
      ∀ x ∈ post, p x → ¬better x a := by
  induction l using List.reverseRecOn generalizing a with
  | nil => exact absurd h (by simp)
  | append_singleton l y ih =>
    rw [choose_concat] at h
    by_cases hy : p y
    · rw [if_pos hy] at h
      cases hl : choose p better l with
      | none =>
        rw [hl] at h
        obtain rfl : y = a := Option.some.inj h
        have hnone := (choose_eq_none_iff p better).mp hl
        exact ⟨l, [], rfl, hy, fun x hx hpx => absurd hpx (hnone x hx), fun x hx => by simp at hx⟩
      | some b =>
        obtain ⟨pre, post, hsplit, hpb, hpre, hpost⟩ := ih hl
        rw [hl, List.argAux] at h
        simp only at h
        split_ifs at h with hyb
        · obtain rfl : y = a := Option.some.inj h
          refine ⟨l, [], rfl, hy, fun x hx hpx => ?_, fun x hx => by simp at hx⟩
          rw [hsplit, List.mem_append, List.mem_cons] at hx
          rcases hx with hx | rfl | hx
          · exact hb.trans hyb (hpre x hx hpx)
          · exact hyb
          · exact hb.mix hyb (hpost x hx hpx)
        · obtain rfl : b = a := Option.some.inj h
          refine ⟨pre, post ++ [y], by rw [hsplit]; simp, hpb, hpre, fun x hx hpx => ?_⟩
          rcases List.mem_append.mp hx with hx | hx
          · exact hpost x hx hpx
          · rw [List.mem_singleton.mp hx]
            exact hyb
    · rw [if_neg hy] at h
      obtain ⟨pre, post, hsplit, hpa, hpre, hpost⟩ := ih h
      refine ⟨pre, post ++ [y], by rw [hsplit]; simp, hpa, hpre, fun x hx hpx => ?_⟩
      rcases List.mem_append.mp hx with hx | hx
      · exact hpost x hx hpx
      · exact absurd hpx (List.mem_singleton.mp hx ▸ hy)

end Loop

/-! ## The loop with a stored key -/

section Stored

variable (key : α → β) (r : β → β → Prop) [DecidableRel r]

/-- One step of a loop that stores the key next to the element: an element that passes `p` and whose
key beats the stored one replaces both. -/
def overwrite (best : Option α × β) (x : α) : Option α × β :=
  if p x ∧ r (key x) best.2 then (some x, key x) else best

theorem overwrite_of {best : Option α × β} {x : α} (h : p x ∧ r (key x) best.2) :
    overwrite p key r best x = (some x, key x) :=
  if_pos h

theorem overwrite_of_not {best : Option α × β} {x : α} (h : ¬(p x ∧ r (key x) best.2)) :
    overwrite p key r best x = best :=
  if_neg h

/-- **The stored key.** The loop that starts from a bound chooses among the elements that pass `p`
and beat the bound; the stored key is the one of the choice, or the bound.

**Proof sketch.** Induction on the list from its end.  An element that does not beat the bound does
not beat the key of the choice, which does. -/
theorem foldl_overwrite (htrans : ∀ {a b c}, r a b → r b c → r a c) (bound : β) (l : List α) :
    l.foldl (overwrite p key r) (none, bound) =
      let chosen := choose (fun x => p x ∧ r (key x) bound) (fun x a => r (key x) (key a)) l
      (chosen, chosen.elim bound key) := by
  simp only
  induction l using List.reverseRecOn with
  | nil => rfl
  | append_singleton l x ih =>
    rw [List.foldl_append, ih, choose_concat, List.foldl_cons, List.foldl_nil]
    cases hl : choose (fun x => p x ∧ r (key x) bound) (fun x a => r (key x) (key a)) l with
    | none =>
      change overwrite p key r (none, bound) x = _
      by_cases hx : p x ∧ r (key x) bound
      · rw [overwrite_of p key r hx, if_pos hx]
        rfl
      · rw [overwrite_of_not p key r hx, if_neg hx]
        rfl
    | some a =>
      change overwrite p key r (some a, key a) x = _
      have ha := (choose_eligible _ _ hl).2
      by_cases hx : p x ∧ r (key x) (key a)
      · rw [overwrite_of p key r hx, if_pos ⟨hx.1, htrans hx.2 ha⟩, List.argAux]
        simp only [if_pos hx.2, Option.elim_some]
      · rw [overwrite_of_not p key r hx]
        by_cases hel : p x ∧ r (key x) bound
        · have hkeep : ¬r (key x) (key a) := fun h => hx ⟨hel.1, h⟩
          rw [if_pos hel, List.argAux]
          simp only [if_neg hkeep, Option.elim_some]
        · rw [if_neg hel]
          rfl

end Stored

/-! ## Optima of a key -/

section Optima

variable [LinearOrder β] (key : α → β)

omit [DecidablePred p]

/-- The first eligible element of greatest key. -/
def FirstMax (l : List α) (a : α) : Prop :=
  ∃ pre post, l = pre ++ a :: post ∧ p a ∧ (∀ x ∈ pre, p x → key x < key a) ∧
    ∀ x ∈ post, p x → key x ≤ key a

/-- The last eligible element of greatest key. -/
def LastMax (l : List α) (a : α) : Prop :=
  ∃ pre post, l = pre ++ a :: post ∧ p a ∧ (∀ x ∈ pre, p x → key x ≤ key a) ∧
    ∀ x ∈ post, p x → key x < key a

/-- The last eligible element of least key. -/
def LastMin (l : List α) (a : α) : Prop :=
  ∃ pre post, l = pre ++ a :: post ∧ p a ∧ (∀ x ∈ pre, p x → key a ≤ key x) ∧
    ∀ x ∈ post, p x → key a < key x

theorem overtakes_gt : Overtakes fun x a => key a < key x where
  trans h h' := lt_trans h' h
  mix h h' := lt_of_le_of_lt (not_lt.mp h') h

theorem overtakes_ge : Overtakes fun x a => key a ≤ key x where
  trans h h' := le_trans h' h
  mix h h' := (lt_of_lt_of_le (not_le.mp h') h).le

theorem overtakes_le : Overtakes fun x a => key x ≤ key a where
  trans h h' := le_trans h h'
  mix h h' := (lt_of_le_of_lt h (not_le.mp h')).le

variable {p key} [DecidablePred p] {l : List α} {a : α}

/-- A strict comparison finds the first maximum. -/
theorem firstMax_of_choose (h : choose p (fun x a => key a < key x) l = some a) :
    FirstMax p key l a := by
  obtain ⟨pre, post, hsplit, hpa, hpre, hpost⟩ := exists_split (overtakes_gt key) h
  exact ⟨pre, post, hsplit, hpa, hpre, fun x hx hpx => not_lt.mp (hpost x hx hpx)⟩

/-- A comparison that ties pass finds the last maximum. -/
theorem lastMax_of_choose (h : choose p (fun x a => key a ≤ key x) l = some a) :
    LastMax p key l a := by
  obtain ⟨pre, post, hsplit, hpa, hpre, hpost⟩ := exists_split (overtakes_ge key) h
  exact ⟨pre, post, hsplit, hpa, hpre, fun x hx hpx => not_le.mp (hpost x hx hpx)⟩

/-- A comparison that ties pass finds the last minimum. -/
theorem lastMin_of_choose (h : choose p (fun x a => key x ≤ key a) l = some a) :
    LastMin p key l a := by
  obtain ⟨pre, post, hsplit, hpa, hpre, hpost⟩ := exists_split (overtakes_le key) h
  exact ⟨pre, post, hsplit, hpa, hpre, fun x hx hpx => not_le.mp (hpost x hx hpx)⟩

end Optima

end Selection
