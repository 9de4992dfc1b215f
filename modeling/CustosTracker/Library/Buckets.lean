import Mathlib

set_option relaxedAutoImplicit false
set_option autoImplicit false

/-!
# Values collected under their keys

An ordered map from keys to lists: a value is appended to the list of its key, which is created
when the key is new.  The map lists each key once, in increasing order, with the values of that key
in the order in which they came.

## Main definitions

* `Buckets.push` — append a value under a key.
* `Buckets.collect` — the map after a sequence of keyed values.
* `Buckets.valuesOf` — the values of a key in a sequence.

## Main results

* `Buckets.pairwise_keys_collect`, `Buckets.mem_keys_collect` — the keys of the map.
* `Buckets.mem_collect` — the lists of the map.
* `Buckets.collect_map` — changing the values before or after collecting them.
-/

namespace Buckets

variable {κ α β : Type} [LinearOrder κ]

/-- Append a value under its key. -/
def push (k : κ) (x : α) : List (κ × List α) → List (κ × List α)
  | [] => [(k, [x])]
  | (k', xs) :: m =>
    if k < k' then (k, [x]) :: (k', xs) :: m
    else if k = k' then (k', xs ++ [x]) :: m
    else (k', xs) :: push k x m

/-- The map after a sequence of keyed values. -/
def collect (es : List (κ × α)) : List (κ × List α) := es.foldl (fun m e => push e.1 e.2 m) []

/-- The values of a key, in order. -/
def valuesOf (k : κ) (es : List (κ × α)) : List α :=
  (es.filter fun e => e.1 = k).map Prod.snd

theorem collect_append (es : List (κ × α)) (e : κ × α) :
    collect (es ++ [e]) = push e.1 e.2 (collect es) := List.foldl_append

theorem valuesOf_append (k : κ) (es : List (κ × α)) (e : κ × α) :
    valuesOf k (es ++ [e]) = valuesOf k es ++ if e.1 = k then [e.2] else [] := by
  rw [valuesOf, valuesOf, List.filter_append, List.map_append]
  congr 1
  split <;> simp_all

/-! ## Changing the values -/

/-- Apply a function to all values. -/
def mapValues (f : α → β) (m : List (κ × List α)) : List (κ × List β) :=
  m.map fun b => (b.1, b.2.map f)

theorem push_mapValues (f : α → β) (k : κ) (x : α) (m : List (κ × List α)) :
    push k (f x) (mapValues f m) = mapValues f (push k x m) := by
  induction m with
  | nil => rfl
  | cons b m ih =>
    rw [mapValues] at ih
    simp only [mapValues, List.map_cons, push]
    split
    · rfl
    · split
      · simp
      · rw [List.map_cons, ih]
        rfl

/-- The values may be changed before they are collected or afterwards. -/
theorem collect_map (f : α → β) (es : List (κ × α)) :
    collect (es.map fun e => (e.1, f e.2)) = mapValues f (collect es) := by
  induction es using List.reverseRecOn with
  | nil => rfl
  | append_singleton es e ih =>
    rw [List.map_append, List.map_singleton, collect_append, ih, collect_append]
    exact push_mapValues f e.1 e.2 (collect es)

/-! ## What is collected -/

/-- The keys of a map. -/
def keys (m : List (κ × List α)) : List κ := m.map Prod.fst

omit [LinearOrder κ] in
theorem mem_keys {m : List (κ × List α)} {b : κ × List α} (h : b ∈ m) : b.1 ∈ keys m :=
  List.mem_map_of_mem h

theorem mem_keys_push {k k' : κ} {x : α} {m : List (κ × List α)} :
    k' ∈ keys (push k x m) ↔ k' = k ∨ k' ∈ keys m := by
  induction m with
  | nil => simp [keys, push]
  | cons b m ih =>
    rw [keys, keys] at ih
    rw [push]
    split
    · simp [keys]
    · split
      · rename_i heq
        simp [keys, heq]
      · simp only [keys, List.map_cons, List.mem_cons, ih]
        exact or_left_comm

/-- The keys stay in order.

**Proof sketch.** By induction on the list.  The key is placed before the first greater one,
found, or placed behind the head, which is smaller. -/
theorem pairwise_keys_push {m : List (κ × List α)} (hm : (keys m).Pairwise (· < ·)) (k : κ)
    (x : α) : (keys (push k x m)).Pairwise (· < ·) := by
  induction m with
  | nil => exact List.pairwise_singleton _ _
  | cons b m ih =>
    obtain ⟨hhead, htail⟩ := List.pairwise_cons.mp hm
    rw [push]
    split
    · rename_i hlt
      refine List.pairwise_cons.mpr ⟨fun k' hk' => ?_, hm⟩
      rcases List.mem_cons.mp hk' with rfl | hk'
      · exact hlt
      · exact hlt.trans (hhead k' hk')
    · split
      · exact hm
      · rename_i hnlt hne
        refine List.pairwise_cons.mpr ⟨fun k' hk' => ?_, ih htail⟩
        rcases mem_keys_push.mp hk' with rfl | hk'
        · exact lt_of_le_of_ne (not_lt.mp hnlt) (Ne.symm hne)
        · exact hhead k' hk'

/-- The list of the key gets the value at its end, or is new; the other lists stay.

**Proof sketch.** By induction on the list, along the three places where `push` puts the value.
Since the keys increase, a bucket behind a greater or equal key has another key. -/
theorem mem_push {k : κ} {x : α} {m : List (κ × List α)} (hm : (keys m).Pairwise (· < ·))
    {b : κ × List α} (h : b ∈ push k x m) :
    b.1 ≠ k ∧ b ∈ m ∨ b.1 = k ∧ (∃ xs, (k, xs) ∈ m ∧ b.2 = xs ++ [x]) ∨
      b.1 = k ∧ k ∉ keys m ∧ b.2 = [x] := by
  induction m with
  | nil =>
    obtain rfl := List.mem_singleton.mp h
    exact .inr (.inr ⟨rfl, List.not_mem_nil, rfl⟩)
  | cons b₀ m ih =>
    obtain ⟨hhead, htail⟩ := List.pairwise_cons.mp hm
    rw [push] at h
    split at h
    · rename_i hlt
      have habove : ∀ k' ∈ keys (b₀ :: m), k < k' := by
        intro k' hk'
        rcases List.mem_cons.mp hk' with rfl | hk'
        · exact hlt
        · exact hlt.trans (hhead k' hk')
      rcases List.mem_cons.mp h with rfl | h
      · exact .inr (.inr ⟨rfl, fun hk => lt_irrefl k (habove k hk), rfl⟩)
      · exact .inl ⟨(habove b.1 (mem_keys h)).ne', h⟩
    · split at h
      · rename_i heq
        rcases List.mem_cons.mp h with rfl | h
        · exact .inr (.inl ⟨heq.symm, b₀.2, heq ▸ List.mem_cons_self, rfl⟩)
        · exact .inl ⟨heq ▸ (hhead b.1 (mem_keys h)).ne', List.mem_cons_of_mem _ h⟩
      · rename_i hne
        rcases List.mem_cons.mp h with rfl | h
        · exact .inl ⟨Ne.symm hne, List.mem_cons_self⟩
        · rcases ih htail h with ⟨hk, hb⟩ | ⟨hk, xs, hxs, hb⟩ | ⟨hk, hnew, hb⟩
          · exact .inl ⟨hk, List.mem_cons_of_mem _ hb⟩
          · exact .inr (.inl ⟨hk, xs, List.mem_cons_of_mem _ hxs, hb⟩)
          · refine .inr (.inr ⟨hk, fun hmem => ?_, hb⟩)
            rcases List.mem_cons.mp hmem with heq | hmem
            · exact hne heq
            · exact hnew hmem

/-- The map lists every key once, in order. -/
theorem pairwise_keys_collect (es : List (κ × α)) : (keys (collect es)).Pairwise (· < ·) := by
  induction es using List.reverseRecOn with
  | nil => exact List.Pairwise.nil
  | append_singleton es e ih =>
    rw [collect_append]
    exact pairwise_keys_push ih e.1 e.2

/-- The keys of the map are those that occurred. -/
theorem mem_keys_collect (es : List (κ × α)) (k : κ) :
    k ∈ keys (collect es) ↔ k ∈ es.map Prod.fst := by
  induction es using List.reverseRecOn with
  | nil => exact Iff.rfl
  | append_singleton es e ih =>
    rw [collect_append, mem_keys_push, ih, List.map_append, List.mem_append, List.map_singleton,
      List.mem_singleton]
    exact or_comm

theorem valuesOf_eq_nil {es : List (κ × α)} {k : κ} (h : k ∉ es.map Prod.fst) :
    valuesOf k es = [] := by
  rw [valuesOf, List.map_eq_nil_iff, List.filter_eq_nil_iff]
  intro e he
  simp only [decide_eq_true_eq]
  rintro rfl
  exact h (List.mem_map_of_mem he)

/-- Each list of the map is the values of its key, and none is empty. -/
theorem mem_collect {es : List (κ × α)} {b : κ × List α} (h : b ∈ collect es) :
    b.2 = valuesOf b.1 es ∧ b.2 ≠ [] := by
  induction es using List.reverseRecOn generalizing b with
  | nil => cases h
  | append_singleton es e ih =>
    rw [collect_append] at h
    rw [valuesOf_append]
    rcases mem_push (pairwise_keys_collect es) h with ⟨hk, hb⟩ | ⟨hk, xs, hxs, hb⟩ | ⟨hk, hnew, hb⟩
    · rw [if_neg (Ne.symm hk), List.append_nil]
      exact ih hb
    · have hold : xs = valuesOf e.1 es := (ih hxs).1
      rw [if_pos hk.symm, hb, hold, hk]
      exact ⟨rfl, List.append_ne_nil_of_right_ne_nil _ (List.cons_ne_nil _ _)⟩
    · rw [mem_keys_collect] at hnew
      rw [if_pos hk.symm, hb, hk, valuesOf_eq_nil hnew]
      exact ⟨rfl, List.cons_ne_nil _ _⟩

end Buckets
