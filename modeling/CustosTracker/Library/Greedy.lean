import Mathlib.Data.List.Basic
import Mathlib.Data.List.Pairwise
import Mathlib.Data.List.Nodup
import Mathlib.Tactic

set_option relaxedAutoImplicit false
set_option autoImplicit false

/-!
# Greedy selection

Go through a list in order and keep every element that no kept element suppresses.

## Main definitions

* `Greedy.select` — the kept elements.

## Main results

* `Greedy.pairwise_select` — no kept element suppresses a later one.
* `Greedy.mem_select_iff_idxOf` — which elements are kept.
* `Greedy.select_eq_self` — selecting again keeps everything.
* `Greedy.select_map` — selection commutes with renaming.
* `Greedy.filter_select_iff` — when selection on the whole list is selection group by group.
-/

namespace Greedy

variable {α β γ : Type}

/-- The elements of a list that no kept earlier element suppresses. -/
def select (suppresses : α → α → Bool) (xs : List α) : List α :=
  xs.foldl (fun kept x => if kept.any (suppresses · x) then kept else kept ++ [x]) []

variable {suppresses own : α → α → Bool}

@[simp] theorem select_nil : select suppresses [] = [] := rfl

/-- What selection does to the last element. -/
theorem select_concat (xs : List α) (x : α) : select suppresses (xs ++ [x]) =
    if (select suppresses xs).any (suppresses · x) then select suppresses xs
    else select suppresses xs ++ [x] := by
  rw [select, List.foldl_append]
  rfl

/-- Selection keeps elements of the list, in order. -/
theorem select_sublist (xs : List α) : (select suppresses xs).Sublist xs := by
  induction xs using List.reverseRecOn with
  | nil => exact List.Sublist.refl []
  | append_singleton xs x ih =>
    rw [select_concat]
    split_ifs
    · exact ih.trans (List.sublist_append_left xs [x])
    · exact ih.append (List.Sublist.refl [x])

/-- No kept element suppresses a later one. -/
theorem pairwise_select (xs : List α) :
    (select suppresses xs).Pairwise fun a b => suppresses a b = false := by
  induction xs using List.reverseRecOn with
  | nil => exact List.Pairwise.nil
  | append_singleton xs x ih =>
    rw [select_concat]
    split_ifs with hany
    · exact ih
    · rw [List.pairwise_append]
      refine ⟨ih, List.pairwise_singleton _ _, fun a ha b hb => ?_⟩
      rw [List.mem_singleton.mp hb]
      by_contra hsup
      exact hany (List.any_eq_true.mpr ⟨a, ha, Bool.eq_true_of_not_eq_false hsup⟩)

/-- A longer list keeps what its front keeps, and then elements of the rest. -/
theorem select_append (suppresses : α → α → Bool) (pre post : List α) :
    ∃ rest, select suppresses (pre ++ post) = select suppresses pre ++ rest ∧
      rest.Sublist post := by
  induction post using List.reverseRecOn with
  | nil => exact ⟨[], by simp, List.Sublist.refl []⟩
  | append_singleton post x ih =>
    obtain ⟨rest, hrest, hsub⟩ := ih
    rw [← List.append_assoc, select_concat, hrest]
    split_ifs
    · exact ⟨rest, rfl, hsub.trans (List.sublist_append_left post [x])⟩
    · exact ⟨rest ++ [x], List.append_assoc _ _ _, hsub.append (List.Sublist.refl [x])⟩

/-- An element is kept when nothing kept before it suppresses it. -/
theorem mem_select_append_cons {pre post : List α} {x : α} (hnd : (pre ++ x :: post).Nodup) :
    x ∈ select suppresses (pre ++ x :: post) ↔
      ∀ a ∈ select suppresses pre, suppresses a x = false := by
  have hparts := List.nodup_append.mp hnd
  have hpre : x ∉ select suppresses pre := fun h =>
    hparts.2.2 x ((select_sublist pre).subset h) x List.mem_cons_self rfl
  have hpost : x ∉ post := (List.nodup_cons.mp hparts.2.1).1
  obtain ⟨rest, hrest, hsub⟩ := select_append suppresses (pre ++ [x]) post
  rw [List.append_cons, hrest, List.mem_append, or_iff_left fun h => hpost (hsub.subset h),
    select_concat]
  split_ifs with hany
  · obtain ⟨a, ha, hsup⟩ := List.any_eq_true.mp hany
    refine iff_of_false hpre fun h => ?_
    rw [h a ha] at hsup
    exact Bool.false_ne_true hsup
  · refine iff_of_true (List.mem_append_right _ (List.mem_singleton_self x)) fun a ha => ?_
    by_contra hsup
    exact hany (List.any_eq_true.mpr ⟨a, ha, Bool.eq_true_of_not_eq_false hsup⟩)

/-- **What is kept.** In a list without repetitions, the kept elements are those that no kept
element before them suppresses.

**Proof sketch.** Split the list at the element.  Without repetitions, its index is the length of
the front, and the kept elements of smaller index are those kept of the front; selection looks at
these only. -/
theorem mem_select_iff_idxOf [DecidableEq α] {xs : List α} (hnd : xs.Nodup) {x : α}
    (hx : x ∈ xs) : x ∈ select suppresses xs ↔
      ∀ a ∈ select suppresses xs, xs.idxOf a < xs.idxOf x → suppresses a x = false := by
  obtain ⟨pre, post, rfl⟩ := List.append_of_mem hx
  have hparts := List.nodup_append.mp hnd
  have hxpre : x ∉ pre := fun h => hparts.2.2 x h x List.mem_cons_self rfl
  have hidx : (pre ++ x :: post).idxOf x = pre.length := by
    rw [List.idxOf_append_of_notMem hxpre, List.idxOf_cons_self, Nat.add_zero]
  -- the elements before `x` that the whole list keeps are those its front keeps
  have hfront : ∀ a, a ∈ select suppresses (pre ++ x :: post) ∧
      (pre ++ x :: post).idxOf a < pre.length ↔ a ∈ select suppresses pre := by
    intro a
    obtain ⟨rest, hrest, hsub⟩ := select_append suppresses pre (x :: post)
    constructor
    · rintro ⟨ha, hlt⟩
      have hapre : a ∈ pre := by
        by_contra hapre
        rw [List.idxOf_append_of_notMem hapre] at hlt
        omega
      rw [hrest] at ha
      refine (List.mem_append.mp ha).resolve_right fun h => ?_
      exact hparts.2.2 a hapre a (hsub.subset h) rfl
    · intro ha
      have hapre := (select_sublist pre).subset ha
      rw [List.idxOf_append_of_mem hapre, hrest]
      exact ⟨List.mem_append_left _ ha, List.idxOf_lt_length_of_mem hapre⟩
  rw [mem_select_append_cons hnd, hidx]
  constructor
  · intro h a ha hlt
    exact h a ((hfront a).mp ⟨ha, hlt⟩)
  · intro h a ha
    obtain ⟨hmem, hlt⟩ := (hfront a).mpr ha
    exact h a hmem hlt

/-- Where nothing is suppressed, everything is kept. -/
theorem select_eq_self {xs : List α} (h : xs.Pairwise fun a b => suppresses a b = false) :
    select suppresses xs = xs := by
  induction xs using List.reverseRecOn with
  | nil => rfl
  | append_singleton xs x ih =>
    obtain ⟨hxs, -, hlast⟩ := List.pairwise_append.mp h
    rw [select_concat, ih hxs, if_neg]
    intro hany
    obtain ⟨a, ha, hsup⟩ := List.any_eq_true.mp hany
    rw [hlast a ha x (List.mem_singleton_self x)] at hsup
    exact Bool.false_ne_true hsup

/-- Selection commutes with renaming. -/
theorem select_map (f : β → α) (xs : List β) :
    select suppresses (xs.map f) = (select (fun a b => suppresses (f a) (f b)) xs).map f := by
  induction xs using List.reverseRecOn with
  | nil => rfl
  | append_singleton xs x ih =>
    rw [List.map_append, List.map_singleton, select_concat, select_concat, ih, List.any_map]
    split_ifs with h1 h2 h2
    · rfl
    · exact absurd h1 h2
    · exact absurd h2 h1
    · rw [List.map_append, List.map_singleton]

/-- Only the relation on the list matters. -/
theorem select_congr {xs : List α} (h : ∀ a ∈ xs, ∀ b ∈ xs, suppresses a b = own a b) :
    select suppresses xs = select own xs := by
  induction xs using List.reverseRecOn with
  | nil => rfl
  | append_singleton xs x ih =>
    have hxs : select suppresses xs = select own xs :=
      ih fun a ha b hb => h a (List.mem_append_left _ ha) b (List.mem_append_left _ hb)
    have hany : (select own xs).any (suppresses · x) = (select own xs).any (own · x) := by
      rw [Bool.eq_iff_iff, List.any_eq_true, List.any_eq_true]
      refine exists_congr fun a => and_congr_right fun ha => ?_
      rw [h a (List.mem_append_left _ ((select_sublist xs).subset ha)) x (by simp)]
    rw [select_concat, select_concat, hxs, hany]

/-! ## Groups -/

section Groups

variable [DecidableEq γ] {group : α → γ}

/-- The elements of a group selected within the group. -/
def selectGroup (suppresses : α → α → Bool) (group : α → γ) (xs : List α) (c : γ) : List α :=
  select suppresses (xs.filter fun a => group a = c)

theorem selectGroup_concat_same (xs : List α) (x : α) :
    selectGroup suppresses group (xs ++ [x]) (group x) =
      if (selectGroup suppresses group xs (group x)).any (suppresses · x) then
        selectGroup suppresses group xs (group x)
      else selectGroup suppresses group xs (group x) ++ [x] := by
  rw [selectGroup, List.filter_append, List.filter_singleton, decide_eq_true rfl, cond_true,
    select_concat]
  rfl

theorem selectGroup_concat_other (xs : List α) {x : α} {c : γ} (h : group x ≠ c) :
    selectGroup suppresses group (xs ++ [x]) c = selectGroup suppresses group xs c := by
  rw [selectGroup, List.filter_append, List.filter_singleton, decide_eq_false h, cond_false,
    List.append_nil]
  rfl

theorem mem_selectGroup {xs : List α} {c : γ} {a : α}
    (h : a ∈ selectGroup suppresses group xs c) : group a = c := by
  have hmem := (select_sublist _).subset h
  simpa using (List.mem_filter.mp hmem).2

/-- A longer list keeps what a group kept. -/
theorem mem_selectGroup_concat {xs : List α} {x : α} {c : γ} {a : α}
    (h : a ∈ selectGroup suppresses group xs c) :
    a ∈ selectGroup suppresses group (xs ++ [x]) c := by
  by_cases hx : group x = c
  · rw [← hx] at h ⊢
    rw [selectGroup_concat_same]
    split_ifs
    · exact h
    · exact List.mem_append_left _ h
  · rwa [selectGroup_concat_other xs hx]

/-- If what the groups keep does not suppress across groups, selection on the whole list is
selection group by group.

**Proof sketch.** By induction on the list from its end.  A kept element of another group does
not suppress the last element, so the last element is suppressed on the whole list exactly when
it is within its group. -/
theorem filter_select_of_separate (hown : ∀ a b, group a = group b → suppresses a b = own a b)
    {xs : List α} (hsep : ∀ c c', c ≠ c' → ∀ a ∈ selectGroup own group xs c,
      ∀ b ∈ selectGroup own group xs c', suppresses a b = false) (c : γ) :
    (select suppresses xs).filter (fun a => group a = c) = selectGroup own group xs c := by
  induction xs using List.reverseRecOn generalizing c with
  | nil => rfl
  | append_singleton xs x ih =>
    have ih' : ∀ c, (select suppresses xs).filter (fun a => group a = c) =
        selectGroup own group xs c := fun c => ih (fun c c' hc a ha b hb =>
      hsep c c' hc a (mem_selectGroup_concat ha) b (mem_selectGroup_concat hb)) c
    -- the last element is suppressed on the whole list iff it is within its group
    have hany : (select suppresses xs).any (suppresses · x) =
        (selectGroup own group xs (group x)).any (own · x) := by
      rw [Bool.eq_iff_iff, List.any_eq_true, List.any_eq_true]
      constructor
      · rintro ⟨a, ha, hsup⟩
        by_cases hg : group a = group x
        · refine ⟨a, ?_, hown a x hg ▸ hsup⟩
          rw [← ih']
          exact List.mem_filter.mpr ⟨ha, decide_eq_true hg⟩
        · by_contra hnone
          have hx : x ∈ selectGroup own group (xs ++ [x]) (group x) := by
            rw [selectGroup_concat_same, if_neg]
            · exact List.mem_append_right _ (List.mem_singleton_self x)
            · exact fun h => hnone (List.any_eq_true.mp h)
          have ha' : a ∈ selectGroup own group xs (group a) := by
            rw [← ih']
            exact List.mem_filter.mpr ⟨ha, decide_eq_true rfl⟩
          have hno := hsep _ _ hg a (mem_selectGroup_concat ha') x hx
          exact absurd hsup (by simp [hno])
      · rintro ⟨a, ha, hsup⟩
        have hg := mem_selectGroup ha
        rw [← ih'] at ha
        exact ⟨a, (List.mem_filter.mp ha).1, (hown a x hg).symm ▸ hsup⟩
    rw [select_concat, hany]
    by_cases hx : group x = c
    · subst hx
      rw [selectGroup_concat_same]
      split_ifs
      · exact ih' _
      · rw [List.filter_append, ih', List.filter_singleton, decide_eq_true rfl]
        rfl
    · rw [selectGroup_concat_other xs hx]
      split_ifs
      · exact ih' _
      · rw [List.filter_append, ih', List.filter_singleton, decide_eq_false hx]
        exact List.append_nil _

/-- **Selection group by group.** For a symmetric relation, selection on the whole list is
selection group by group exactly when what the groups keep does not suppress across groups. -/
theorem filter_select_iff (hsymm : ∀ a b, suppresses a b = suppresses b a)
    (hown : ∀ a b, group a = group b → suppresses a b = own a b) {xs : List α} :
    (∀ c, (select suppresses xs).filter (fun a => group a = c) = selectGroup own group xs c) ↔
      ∀ c c', c ≠ c' → ∀ a ∈ selectGroup own group xs c, ∀ b ∈ selectGroup own group xs c',
        suppresses a b = false := by
  constructor
  · intro h c c' hc a ha b hb
    have hab : a ≠ b := by
      rintro rfl
      exact hc ((mem_selectGroup ha).symm.trans (mem_selectGroup hb))
    rw [← h] at ha hb
    have hpair : (select suppresses xs).Pairwise fun a b => suppresses a b = false :=
      pairwise_select xs
    have : Std.Symm fun a b => suppresses a b = false := ⟨fun a b hno => (hsymm b a).trans hno⟩
    exact hpair.forall (List.mem_filter.mp ha).1 (List.mem_filter.mp hb).1 hab
  · exact filter_select_of_separate hown

end Groups

end Greedy
