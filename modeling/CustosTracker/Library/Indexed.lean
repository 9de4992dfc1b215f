import Mathlib

set_option relaxedAutoImplicit false
set_option autoImplicit false

/-!
# Updating a list through index pools

Loops that visit some indices of a list and change the entries there.  When no index is visited
twice, the result is described entry by entry.

## Main definitions

* `Indexed.modifyAll` — for each item of a list of jobs, change the entry the job names.
* `Indexed.compact` — drop the entries at flagged indices, keeping the order.

## Main results

* `Indexed.getElem?_modifyAll_of_mem`, `Indexed.getElem?_modifyAll_of_not_mem`.
* `Indexed.modifyAll_eq_of_const` — writing every entry forgets the list.
* `Indexed.modifyAll_map_jobs`, `Indexed.modifyAll_map`, `Indexed.compact_map` — loops under other
  names and over translated entries.
* `Indexed.compact_append` — entries appended behind all flagged indices are kept.
-/

namespace Indexed

variable {α β : Type}

/-- For each job in turn, change the entry at index `key` of the job. -/
def modifyAll (key : β → ℕ) (f : β → α → α) (ts : List α) (jobs : List β) : List α :=
  jobs.foldl (fun ts b => ts.modify (key b) (f b)) ts

section ModifyAll

variable (key : β → ℕ) (f : β → α → α)

@[simp] theorem length_modifyAll (ts : List α) (jobs : List β) :
    (modifyAll key f ts jobs).length = ts.length := by
  induction jobs generalizing ts with
  | nil => rfl
  | cons b jobs ih =>
    rw [modifyAll, List.foldl_cons]
    exact (ih _).trans (List.length_modify ..)

/-- Entries no job names are unchanged. -/
theorem getElem?_modifyAll_of_not_mem {ts : List α} {jobs : List β} {i : ℕ}
    (hi : i ∉ jobs.map key) : (modifyAll key f ts jobs)[i]? = ts[i]? := by
  induction jobs generalizing ts with
  | nil => rfl
  | cons b jobs ih =>
    rw [List.map_cons, List.mem_cons, not_or] at hi
    rw [modifyAll, List.foldl_cons]
    refine (ih hi.2).trans ?_
    exact List.getElem?_modify_ne _ _ (Ne.symm hi.1)

/-- If the jobs name distinct indices, each named entry is changed once. -/
theorem getElem?_modifyAll_of_mem {ts : List α} {jobs : List β} (hnd : (jobs.map key).Nodup)
    {b : β} (hb : b ∈ jobs) :
    (modifyAll key f ts jobs)[key b]? = ts[key b]?.map (f b) := by
  induction jobs generalizing ts with
  | nil => exact absurd hb List.not_mem_nil
  | cons a jobs ih =>
    rw [List.map_cons, List.nodup_cons] at hnd
    rw [modifyAll, List.foldl_cons]
    rcases List.mem_cons.mp hb with rfl | hb
    · refine (getElem?_modifyAll_of_not_mem key f hnd.1).trans ?_
      exact List.getElem?_modify_eq ..
    · refine (ih hnd.2 hb).trans ?_
      have hne : key a ≠ key b := fun h => hnd.1 (h ▸ List.mem_map_of_mem hb)
      rw [List.getElem?_modify_ne _ _ hne]

/-- A named entry whose new value ignores the old one does not depend on the list.

**Proof sketch.** By induction on the jobs.  If a later job names the entry again, it decides;
otherwise this is the last job that names it, and its value ignores what stood there. -/
theorem getElem?_modifyAll_of_const {ts ts' : List α} (hf : ∀ b x y, f b x = f b y)
    (hlen : ts.length = ts'.length) {jobs : List β} {i : ℕ} (hi : i ∈ jobs.map key) :
    (modifyAll key f ts jobs)[i]? = (modifyAll key f ts' jobs)[i]? := by
  induction jobs generalizing ts ts' with
  | nil => exact absurd hi List.not_mem_nil
  | cons b jobs ih =>
    have hlen' : (ts.modify (key b) (f b)).length = (ts'.modify (key b) (f b)).length := by
      rw [List.length_modify, List.length_modify, hlen]
    by_cases hrest : i ∈ jobs.map key
    · exact ih hlen' hrest
    · -- the last job that names the entry
      obtain rfl : i = key b := (List.mem_cons.mp hi).resolve_right hrest
      have hlast : ∀ us : List α, (modifyAll key f us (b :: jobs))[key b]? =
          (us.modify (key b) (f b))[key b]? :=
        fun us => getElem?_modifyAll_of_not_mem key f hrest
      rw [hlast, hlast]
      rw [List.getElem?_modify_eq, List.getElem?_modify_eq]
      by_cases hlt : key b < ts.length
      · rw [List.getElem?_eq_getElem hlt, List.getElem?_eq_getElem (hlen ▸ hlt)]
        exact congrArg some (hf b _ _)
      · rw [List.getElem?_eq_none (by omega), List.getElem?_eq_none (by omega)]

/-- Jobs that write every entry leave nothing of the old list. -/
theorem modifyAll_eq_of_const {ts ts' : List α} (hf : ∀ b x y, f b x = f b y)
    (hlen : ts.length = ts'.length) {jobs : List β}
    (hall : ∀ i < ts.length, i ∈ jobs.map key) :
    modifyAll key f ts jobs = modifyAll key f ts' jobs := by
  apply List.ext_getElem?
  intro i
  by_cases hi : i < ts.length
  · exact getElem?_modifyAll_of_const key f hf hlen (hall i hi)
  · rw [List.getElem?_eq_none, List.getElem?_eq_none]
    · rw [length_modifyAll]
      omega
    · rw [length_modifyAll]
      omega

/-- Jobs under other names. -/
theorem modifyAll_map_jobs {γ : Type} (g : γ → β) (ts : List α) (jobs : List γ) :
    modifyAll key f ts (jobs.map g) = modifyAll (key ∘ g) (fun c => f (g c)) ts jobs :=
  List.foldl_map

/-- Jobs that change the same entries in the same way. -/
theorem modifyAll_congr {f' : β → α → α} {jobs : List β} (h : ∀ b ∈ jobs, f b = f' b)
    (ts : List α) : modifyAll key f ts jobs = modifyAll key f' ts jobs := by
  induction jobs generalizing ts with
  | nil => rfl
  | cons b jobs ih =>
    rw [modifyAll, modifyAll, List.foldl_cons, List.foldl_cons, h b List.mem_cons_self]
    exact ih (fun b' hb' => h b' (List.mem_cons_of_mem _ hb')) _

/-- A translation of the entries that the jobs commute with. -/
theorem modifyAll_map {f' : β → α → α} {g : α → α} {jobs : List β}
    (h : ∀ b ∈ jobs, ∀ t, f' b (g t) = g (f b t)) (ts : List α) :
    modifyAll key f' (ts.map g) jobs = (modifyAll key f ts jobs).map g := by
  induction jobs generalizing ts with
  | nil => rfl
  | cons b jobs ih =>
    have hb : (ts.map g).modify (key b) (f' b) = (ts.modify (key b) (f b)).map g := by
      apply List.ext_getElem?
      intro i
      simp only [List.getElem?_modify, List.getElem?_map]
      cases ts[i]? with
      | none => simp
      | some t =>
        by_cases hi : key b = i
        · simp [hi, h b List.mem_cons_self t]
        · simp [hi]
    rw [modifyAll, modifyAll, List.foldl_cons, List.foldl_cons, hb]
    exact ih (fun b' hb' => h b' (List.mem_cons_of_mem _ hb')) _

end ModifyAll

/-! ## Compaction -/

/-- The entries at indices that are not flagged, in order. -/
def compact (ts : List α) (flagged : List ℕ) : List α :=
  (List.range ts.length).filterMap fun i => if i ∈ flagged then none else ts[i]?

/-- Compaction commutes with a translation of the entries. -/
theorem compact_map {γ : Type} (g : α → γ) (ts : List α) (flagged : List ℕ) :
    compact (ts.map g) flagged = (compact ts flagged).map g := by
  rw [compact, compact, List.map_filterMap, List.length_map]
  refine List.filterMap_congr fun i _ => ?_
  rw [List.getElem?_map]
  split_ifs <;> rfl

/-- The indices below `n` that are not flagged, in order. -/
def kept (n : ℕ) (flagged : List ℕ) : List ℕ := (List.range n).filter fun i => i ∉ flagged

theorem mem_kept {n : ℕ} {flagged : List ℕ} {i : ℕ} : i ∈ kept n flagged ↔ i < n ∧ i ∉ flagged := by
  simp [kept]

theorem kept_pairwise (n : ℕ) (flagged : List ℕ) : (kept n flagged).Pairwise (· < ·) :=
  List.pairwise_lt_range.filter _

/-- Every index is kept or flagged. -/
theorem length_kept {n : ℕ} {flagged : List ℕ} (hnd : flagged.Nodup) (hlt : ∀ i ∈ flagged, i < n) :
    (kept n flagged).length + flagged.length = n := by
  have hsplit := List.length_eq_length_filter_add (l := List.range n) fun i => i ∉ flagged
  have hperm : ((List.range n).filter fun i => !decide (i ∉ flagged)).Perm flagged := by
    refine (List.perm_ext_iff_of_nodup (List.nodup_range.filter _) hnd).mpr fun i => ?_
    simpa using hlt i
  rw [List.length_range, hperm.length_eq] at hsplit
  exact hsplit.symm

/-- Reading a list at all its indices gives the list. -/
theorem filterMap_range_getElem? (us : List α) :
    ((List.range us.length).filterMap fun i => us[i]?) = us := by
  induction us with
  | nil => rfl
  | cons u us ih =>
    rw [List.length_cons, List.range_succ_eq_map, List.filterMap_cons, List.filterMap_map]
    simpa [Function.comp_def] using ih

/-- Compaction reads the list at the kept indices. -/
theorem compact_eq (ts : List α) (flagged : List ℕ) :
    compact ts flagged = (kept ts.length flagged).filterMap fun i => ts[i]? := by
  rw [compact, kept, List.filterMap_filter]
  congr 1
  funext i
  by_cases h : i ∈ flagged <;> simp [h]

/-- Entries appended behind all flagged indices are kept. -/
theorem compact_append {ts us : List α} {flagged : List ℕ} (h : ∀ i ∈ flagged, i < ts.length) :
    compact (ts ++ us) flagged = compact ts flagged ++ us := by
  rw [compact, List.length_append, List.range_add, List.filterMap_append]
  congr 1
  · refine List.filterMap_congr fun i hi => ?_
    rw [List.getElem?_append_left (List.mem_range.mp hi)]
  · rw [List.filterMap_map]
    have hus : ∀ i ∈ List.range us.length,
        ((fun i => if i ∈ flagged then none else (ts ++ us)[i]?) ∘ fun x => ts.length + x) i =
          us[i]? := by
      intro i _
      have hi : ts.length + i ∉ flagged := fun hm => by
        have := h _ hm
        omega
      simp [hi, List.getElem?_append_right]
    rw [List.filterMap_congr hus]
    exact filterMap_range_getElem? us

/-! ## Reading through an index list -/

/-- When every entry is kept, `filterMap` keeps the positions. -/
theorem getElem?_filterMap_of_isSome {l : List β} {f : β → Option α}
    (h : ∀ x ∈ l, (f x).isSome = true) (k : ℕ) : (l.filterMap f)[k]? = l[k]?.bind f := by
  induction l generalizing k with
  | nil => rfl
  | cons b l ih =>
    obtain ⟨a, ha⟩ := Option.isSome_iff_exists.mp (h b List.mem_cons_self)
    rw [List.filterMap_cons_some ha]
    cases k with
    | zero => exact ha.symm
    | succ k => exact ih (fun x hx => h x (List.mem_cons_of_mem _ hx)) k

theorem length_filterMap_of_isSome {l : List β} {f : β → Option α}
    (h : ∀ x ∈ l, (f x).isSome = true) : (l.filterMap f).length = l.length := by
  induction l with
  | nil => rfl
  | cons b l ih =>
    obtain ⟨a, ha⟩ := Option.isSome_iff_exists.mp (h b List.mem_cons_self)
    rw [List.filterMap_cons_some ha, List.length_cons, List.length_cons,
      ih fun x hx => h x (List.mem_cons_of_mem _ hx)]

/-- Reading a list at all its indices, with a default, gives the list. -/
theorem map_getD_range (l : List α) (d : α) :
    ((List.range l.length).map fun i => l.getD i d) = l := by
  apply List.ext_getElem
  · simp
  · intro i h1 h2
    simp [List.getElem?_eq_getElem h2]

/-- A filtered list reads the list at the indices of the entries that pass. -/
theorem filter_eq_map_range (p : α → Bool) (l : List α) (d : α) :
    l.filter p =
      ((List.range l.length).filter fun i => p (l.getD i d)).map fun i => l.getD i d := by
  conv_lhs => rw [← map_getD_range l d]
  rw [List.filter_map]
  rfl

/-- Writing one entry of a tabulated list. -/
theorem set_map_range (f : ℕ → α) (n i : ℕ) (x : α) :
    ((List.range n).map f).set i x = (List.range n).map (Function.update f i x) := by
  apply List.ext_getElem
  · simp
  · intro j h1 h2
    simp only [List.getElem_set, List.getElem_map, List.getElem_range, Function.update_apply]
    simp only [eq_comm]

/-- One more entry replaced, from the front. -/
theorem update_below (f g : ℕ → α) (k : ℕ) :
    Function.update (fun i => if i < k then g i else f i) k (g k) =
      fun i => if i < k + 1 then g i else f i := by
  funext i
  rcases lt_trichotomy i k with h | rfl | h
  · simp [h, h.ne, h.trans k.lt_succ_self]
  · simp
  · simp [h.ne', h.not_gt, show ¬i < k + 1 by omega]

/-- Reading one entry of a tabulated list. -/
theorem getD_map_range (f : ℕ → α) {n i : ℕ} (hi : i < n) (d : α) :
    ((List.range n).map f).getD i d = f i := by
  rw [List.getD_eq_getElem _ _ (by simpa using hi), List.getElem_map, List.getElem_range]

/-- The entries `filterMap` keeps, at the places they come from. -/
theorem map_filter_isSome (f : β → Option α) (l : List β) :
    (l.filter fun x => (f x).isSome).map f = (l.filterMap f).map some := by
  induction l with
  | nil => rfl
  | cons b l ih =>
    cases hb : f b with
    | none => rw [List.filter_cons_of_neg (by simp [hb]), List.filterMap_cons_none hb, ih]
    | some a =>
      rw [List.filter_cons_of_pos (by simp [hb]), List.filterMap_cons_some hb, List.map_cons, hb,
        List.map_cons, ih]

/-- Reading a list without repetitions at indices that do not repeat. -/
theorem nodup_map_getD {l : List α} (hl : l.Nodup) {is : List ℕ} (his : is.Nodup)
    (hlt : ∀ i ∈ is, i < l.length) (d : α) : (is.map fun i => l.getD i d).Nodup := by
  refine List.Nodup.map_on ?_ his
  intro i hi j hj heq
  rw [List.getD_eq_getElem _ _ (hlt i hi), List.getD_eq_getElem _ _ (hlt j hj)] at heq
  exact hl.getElem_inj_iff.mp heq

/-- The positions of the entries of a list without repetitions. -/
theorem map_idxOf_self {l : List ℕ} (h : l.Nodup) : l.map l.idxOf = List.range l.length := by
  apply List.ext_getElem
  · simp
  · intro i h1 h2
    simp [List.Nodup.idxOf_getElem h]

end Indexed
