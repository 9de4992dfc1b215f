import CustosTracker.Common.Munkres.Basic

set_option relaxedAutoImplicit false
set_option autoImplicit false

/-!
# The augmenting path

`Munkres::augment` walks from a primed zero through the star of its column to the prime of
that star's row, and so on, then exchanges primes and stars along the walk.  It relies on an
order among the primed rows which the solver never stores: the star in the column of a prime,
if there is one, lies in a row primed *earlier*.  `PrimeChain` states this order.  Along it the
walk visits each row at most once, always finds the prime it looks for, and the exchange is a
sequence of moves of one star within its column, followed by the addition of one star.

## Main definitions

* `Ctrk.Munkres.PrimeChain` — the primed rows, the latest first, with their primes.

## Main results

* `Ctrk.Munkres.path_flip` — the walk ends, and the exchange along it is a matching that uses
  one row more and no column less.
-/

namespace Ctrk

namespace Munkres

open Matching

variable {n : ℕ} {star prime : Fin n → Fin n → Bool}

/-! ## First entries of rows and columns -/

/-- `star_in_col` answers `-1` exactly on unused columns. -/
theorem starInCol_eq_none_iff {j : Fin n} : starInCol star j = none ↔ ¬ColUsed star j := by
  simp [starInCol, ColUsed]

/-- `star_in_col` answers a starred row. -/
theorem star_of_starInCol {i j : Fin n} (h : starInCol star j = some i) : star i j = true :=
  List.find?_some (p := fun i => star i j) h

/-- `star_in_row` answers `-1` exactly on unused rows. -/
theorem starInRow_eq_none_iff {i : Fin n} : starInRow star i = none ↔ ¬RowUsed star i := by
  simp [starInRow, RowUsed]

/-- `star_in_row` answers a starred column. -/
theorem star_of_starInRow {i j : Fin n} (h : starInRow star i = some j) : star i j = true :=
  List.find?_some (p := fun j => star i j) h

/-- `prime_in_row` answers the prime of a row with exactly one. -/
theorem primeInRow_eq_some {i j : Fin n} (h : prime i j = true)
    (huniq : ∀ j', prime i j' = true → j' = j) : primeInRow prime i = some j := by
  cases hp : primeInRow prime i with
  | none => simp [primeInRow] at hp; exact absurd h (by simp [hp j])
  | some j' => rw [huniq j' (List.find?_some (p := fun j => prime i j) hp)]

/-- Columns with the same entries have the same first star. -/
theorem starInCol_congr {s : Fin n → Fin n → Bool} {j : Fin n} (h : ∀ i, s i j = star i j) :
    starInCol s j = starInCol star j := by
  unfold starInCol
  congr 1
  funext i
  exact h i

/-! ## The order among the primed rows -/

/-- The primed rows, the latest first: each has exactly one prime, and the star in the column
of that prime lies in an earlier row. -/
inductive PrimeChain (star prime : Fin n → Fin n → Bool) : List (Fin n) → Prop
  /-- No row is primed. -/
  | nil : PrimeChain star prime []
  /-- Row `r` was primed last, at column `c`. -/
  | cons {r c : Fin n} {rs : List (Fin n)} (fresh : r ∉ rs) (primed : prime r c = true)
      (unique : ∀ c', prime r c' = true → c' = c) (earlier : ∀ i, star i c = true → i ∈ rs)
      (tail : PrimeChain star prime rs) : PrimeChain star prime (r :: rs)

/-- What was primed before some row is again a chain. -/
theorem PrimeChain.of_append {pre rs : List (Fin n)} (h : PrimeChain star prime (pre ++ rs)) :
    PrimeChain star prime rs := by
  induction pre with
  | nil => exact h
  | cons r pre ih => cases h with | cons _ _ _ _ tail => exact ih tail

/-- The rows of a chain are distinct. -/
theorem PrimeChain.nodup {rs : List (Fin n)} (h : PrimeChain star prime rs) : rs.Nodup := by
  induction h with
  | nil => exact List.nodup_nil
  | cons fresh _ _ _ _ ih => exact List.nodup_cons.mpr ⟨fresh, ih⟩

/-- The stars in the column of a chain's prime lie in the chain. -/
theorem PrimeChain.star_mem {rs : List (Fin n)} (h : PrimeChain star prime rs) {r c i : Fin n}
    (hr : r ∈ rs) (hc : prime r c = true) (hi : star i c = true) : i ∈ rs := by
  induction h with
  | nil => exact absurd hr List.not_mem_nil
  | cons _ _ unique earlier _ ih =>
    rcases List.mem_cons.mp hr with rfl | hr
    · exact List.mem_cons_of_mem _ (earlier i (unique c hc ▸ hi))
    · exact List.mem_cons_of_mem _ (ih hr)

/-- A chain for one star matrix is a chain for another one whose entries in the columns of the
chain's primes are the same. -/
theorem PrimeChain.congr {s : Fin n → Fin n → Bool} {rs : List (Fin n)}
    (h : PrimeChain star prime rs)
    (hs : ∀ r ∈ rs, ∀ c, prime r c = true → ∀ i, s i c = true → star i c = true) :
    PrimeChain s prime rs := by
  induction h with
  | nil => exact PrimeChain.nil
  | @cons r c rs fresh primed unique earlier _ ih =>
    refine PrimeChain.cons fresh primed unique (fun i hi => earlier i ?_)
      (ih fun r' hr' => hs r' (List.mem_cons_of_mem _ hr'))
    exact hs r List.mem_cons_self c primed i hi

/-- Priming a cell in a row outside a chain does not touch the chain. -/
theorem PrimeChain.prime_cell {rs : List (Fin n)} (h : PrimeChain star prime rs) {i : Fin n}
    (hi : i ∉ rs) (j : Fin n) : PrimeChain star (setCell prime i j true) rs := by
  induction h with
  | nil => exact PrimeChain.nil
  | @cons r c rs fresh primed unique earlier _ ih =>
    have hri : r ≠ i := by rintro rfl; exact hi List.mem_cons_self
    refine PrimeChain.cons fresh (setCell_true_iff.mpr (Or.inr primed)) (fun c' h => ?_) earlier
      (ih fun h => hi (List.mem_cons_of_mem _ h))
    rcases setCell_true_iff.mp h with ⟨h, -⟩ | h
    · exact absurd h hri
    · exact unique c' h

/-! ## The exchange -/

/-- Shifting the positions by two does not change which cells are stars. -/
private theorem foldl_zipIdx_add_two (p : List (Fin n × Fin n)) :
    ∀ (k : ℕ) (s : Fin n → Fin n → Bool),
      (p.zipIdx (k + 2)).foldl (fun s z => setCell s z.1.1 z.1.2 (z.2 % 2 == 0)) s =
        (p.zipIdx k).foldl (fun s z => setCell s z.1.1 z.1.2 (z.2 % 2 == 0)) s := by
  induction p with
  | nil => intro k s; rfl
  | cons z p ih =>
    intro k s
    simp only [List.zipIdx_cons, List.foldl_cons, Nat.add_mod_right]
    exact ih (k + 1) _

/-- The exchange along a path of one cell adds a star. -/
theorem flip_singleton (s : Fin n → Fin n → Bool) (z : Fin n × Fin n) :
    flip s [z] = setCell s z.1 z.2 true := by
  simp [flip]

/-- The exchange handles a path two cells at a time: a new star and an old one. -/
theorem flip_cons_cons (s : Fin n → Fin n → Bool) (z w : Fin n × Fin n)
    (p : List (Fin n × Fin n)) :
    flip s (z :: w :: p) = flip (setCell (setCell s z.1 z.2 true) w.1 w.2 false) p := by
  simp only [flip, List.zipIdx_cons, List.foldl_cons]
  exact foldl_zipIdx_add_two p 0 _

/-- **The augmentation.**  Let `s` be a matching with row `z.1` unused, and let the stars of
column `z.2` lie in the chain `rs` of primed rows.  Then the walk from `z` ends within
`|rs| + 1` iterations, and the exchange along it yields a matching which uses row `z.1` besides
the rows `s` uses, frees no column, and consists of old stars, primes and `z`.

The walk reads the matrix `star`, the exchange writes `s`; they start equal and stay equal in
the columns still ahead.

**Proof sketch.** Induction on the iterations.  If column `z.2` has no star, the exchange adds
one at `z`.  Otherwise its star lies in some row `r` of the chain, with prime `(r, c)`; the
first two cells of the path move that star from row `r` up to row `z.1`.  Now row `r` is
unused, the stars of column `c` lie in the part of the chain before `r`, and none of the
columns ahead is `z.2`, whose star was in row `r`; the induction hypothesis applies from
`(r, c)`. -/
theorem path_flip :
    ∀ (fuel : ℕ) (rs : List (Fin n)) (z : Fin n × Fin n) (s : Fin n → Fin n → Bool),
      rs.length < fuel → PrimeChain star prime rs → PrimeChain s prime rs →
      (∀ r ∈ rs, ∀ c, prime r c = true → ∀ i, s i c = star i c) →
      (∀ i, s i z.2 = star i z.2) → (∀ i, s i z.2 = true → i ∈ rs) →
      IsMatching s → ¬RowUsed s z.1 →
      ∃ p, path star prime fuel z = some p ∧ IsMatching (flip s p) ∧
        (∀ i, RowUsed (flip s p) i ↔ i = z.1 ∨ RowUsed s i) ∧
        (∀ j, ColUsed s j → ColUsed (flip s p) j) ∧
        ∀ i j, flip s p i j = true → s i j = true ∨ (i, j) = z ∨ (i ∈ rs ∧ prime i j = true) := by
  intro fuel
  induction fuel with
  | zero => intro rs z s h; exact absurd h (Nat.not_lt_zero _)
  | succ k ih =>
    intro rs z s hlen hstar hs hahead hcol hmem hM hfree
    rw [path, ← starInCol_congr hcol]
    cases hc : starInCol s z.2 with
    | none =>
      have hz : ¬ColUsed s z.2 := starInCol_eq_none_iff.mp hc
      refine ⟨[z], rfl, ?_, fun i => ?_, fun j => ?_, fun i j hij => ?_⟩
      · rw [flip_singleton]; exact hM.add hfree hz
      · rw [flip_singleton]
        constructor
        · rintro ⟨j, hj⟩
          rcases setCell_true_iff.mp hj with ⟨h, -⟩ | h
          · exact Or.inl h
          · exact Or.inr ⟨j, h⟩
        · rintro (rfl | ⟨j, hj⟩)
          · exact ⟨z.2, setCell_true_iff.mpr (Or.inl ⟨rfl, rfl⟩)⟩
          · exact ⟨j, setCell_true_iff.mpr (Or.inr hj)⟩
      · rintro ⟨i, hi⟩
        rw [flip_singleton]
        exact ⟨i, setCell_true_iff.mpr (Or.inr hi)⟩
      · rw [flip_singleton] at hij
        rcases setCell_true_iff.mp hij with ⟨rfl, rfl⟩ | h
        · exact Or.inr (Or.inl rfl)
        · exact Or.inl h
    | some r =>
      have hrz : s r z.2 = true := star_of_starInCol hc
      have hr : r ∈ rs := hmem r hrz
      obtain ⟨pre, rs', rfl⟩ := List.append_of_mem hr
      -- the chain before `r`, and the prime of `r`
      have hstar' := hstar.of_append
      have hs' := hs.of_append
      cases hs' with
      | @cons _ c _ fresh primed unique earlier tail =>
      have hstarTail : PrimeChain star prime rs' := by
        cases hstar' with | cons _ _ _ _ t => exact t
      have hzr : z.1 ≠ r := by rintro h; exact hfree ⟨z.2, h ▸ hrz⟩
      -- none of the columns ahead is the column of the moved star
      have hne : ∀ r' ∈ r :: rs', ∀ c', prime r' c' = true → c' ≠ z.2 := by
        rintro r' hr' c' hc' rfl
        rcases List.mem_cons.mp hr' with rfl | hr'
        · exact fresh (earlier _ (unique _ hc' ▸ hrz))
        · exact fresh (tail.star_mem hr' hc' hrz)
      set s' := setCell (setCell s z.1 z.2 true) r z.2 false with hmoved
      have hsame : ∀ j, j ≠ z.2 → ∀ i, s' i j = s i j := by
        intro j hj i
        simp [hmoved, setCell, hj]
      have hsub : ∀ r' ∈ rs', r' ∈ pre ++ r :: rs' := fun r' hr' => by simp [hr']
      have hahead' : ∀ r' ∈ r :: rs', ∀ c', prime r' c' = true → ∀ i, s' i c' = star i c' := by
        intro r' hr' c' hc' i
        rw [hsame c' (hne r' hr' c' hc') i]
        exact hahead r' (List.mem_append_right _ hr') c' hc' i
      have hchain' : PrimeChain s' prime rs' := by
        refine tail.congr fun r' hr' c' hc' i hi => ?_
        rwa [hsame c' (hne r' (List.mem_cons_of_mem _ hr') c' hc') i] at hi
      have hfree' : ¬RowUsed s' r := by
        rw [hmoved, hM.rowUsed_move hfree hrz]
        rintro (h | h)
        · exact hzr h.symm
        · exact h.1 rfl
      obtain ⟨p, hp, hpM, hprow, hpcol, hpcell⟩ := ih rs' (r, c) s'
        (by simp at hlen; omega) hstarTail hchain'
        (fun r' hr' => hahead' r' (List.mem_cons_of_mem _ hr'))
        (hahead' r List.mem_cons_self c primed)
        (fun i hi => earlier i (by rwa [hsame c (hne r List.mem_cons_self c primed) i] at hi))
        (hM.move hfree hrz) hfree'
      refine ⟨z :: (r, z.2) :: p, ?_, ?_, fun i => ?_, fun j hj => ?_, fun i j hij => ?_⟩
      · simp only [primeInRow_eq_some primed unique, hp, Option.map_some]
      · rw [flip_cons_cons]; exact hpM
      · rw [flip_cons_cons, hprow, hmoved, hM.rowUsed_move hfree hrz]
        constructor
        · rintro (rfl | h | h)
          · exact Or.inr ⟨z.2, hrz⟩
          · exact Or.inl h
          · exact Or.inr h.2
        · rintro (rfl | h)
          · exact Or.inr (Or.inl rfl)
          · by_cases hir : i = r
            · exact Or.inl hir
            · exact Or.inr (Or.inr ⟨hir, h⟩)
      · rw [flip_cons_cons]
        exact hpcol j (colUsed_move hzr hj)
      · rw [flip_cons_cons] at hij
        rcases hpcell i j hij with h | h | h
        · rcases (move_iff hzr).mp h with ⟨rfl, rfl⟩ | ⟨-, h⟩
          · exact Or.inr (Or.inl rfl)
          · exact Or.inl h
        · obtain ⟨rfl, rfl⟩ := Prod.mk.inj h
          exact Or.inr (Or.inr ⟨hr, primed⟩)
        · exact Or.inr (Or.inr ⟨hsub i h.1, h.2⟩)

end Munkres

end Ctrk
