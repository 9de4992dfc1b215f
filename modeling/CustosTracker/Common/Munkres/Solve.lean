import CustosTracker.Common.Munkres.Augment

set_option relaxedAutoImplicit false
set_option autoImplicit false

/-!
# The Munkres loops

Step lemmas for the loops of `Munkres::solve` and, from them, termination and the certificate
of the result.  Arithmetic is exact, so a cell that is lowered to the minimum becomes exactly
zero and one `adjust` is enough to continue a search.

## Main definitions

* `Ctrk.Munkres.Reduced` — the cost matrix is the original one minus row and column potentials,
  and nonnegative.
* `Ctrk.Munkres.Starred` — the stars are a matching of zeros.
* `Ctrk.Munkres.Covering` — how covers, primes and stars fit together inside the inner loop.

## Main results

* `Ctrk.Munkres.search_spec` — a search ends after at most one `adjust`.
* `Ctrk.Munkres.primeLoop_spec` — the inner loop ends and adds a star.
* `Ctrk.Munkres.solve_spec` — the solver ends with a perfect matching of certified cost.
-/

namespace Ctrk

namespace Munkres

open Matching

variable {R : Type} [Scalar R] {n : ℕ}

/-! ## Minima -/

/-- The minimum of a nonempty list is one of its entries and a lower bound. -/
theorem minOf_spec {l : List R} (hl : l ≠ []) : minOf l ∈ l ∧ ∀ x ∈ l, minOf l ≤ x := by
  obtain ⟨a, ha⟩ := Option.ne_none_iff_exists'.mp (mt List.min?_eq_none_iff.mp hl)
  have h := List.min?_eq_some_iff.mp ha
  rw [minOf, ha]
  exact h

/-- The minimum of a function over a nonempty index range is attained. -/
theorem minOf_finRange (hn : 0 < n) (f : Fin n → R) :
    (∃ i, minOf ((List.finRange n).map f) = f i) ∧
      ∀ i, minOf ((List.finRange n).map f) ≤ f i := by
  have hne : (List.finRange n).map f ≠ [] := by
    intro h
    have hlen := congrArg List.length h
    simp at hlen
    omega
  obtain ⟨h1, h2⟩ := minOf_spec hne
  obtain ⟨i, -, hi⟩ := List.mem_map.mp h1
  exact ⟨⟨i, hi.symm⟩, fun i => h2 _ (List.mem_map.mpr ⟨i, List.mem_finRange i, rfl⟩)⟩

/-! ## The reduced matrix -/

/-- The working matrix is the original one minus potentials, and nonnegative. -/
structure Reduced (c₀ c : Fin n → Fin n → R) : Prop where
  nonneg : ∀ i j, 0 ≤ c i j
  potentials : ∃ (u v : Fin n → R), ∀ i j, c i j = c₀ i j - u i - v j

/-- The reduction produces a reduced matrix. -/
theorem reduce_reduced [IsStrictOrderedRing R] (m : Munkres R n) : Reduced m.c m.reduce.c := by
  refine ⟨fun i j => ?_, fun i => minOf ((List.finRange n).map (m.c i)),
    fun j => minOf ((List.finRange n).map fun k =>
      m.c k j - minOf ((List.finRange n).map (m.c k))), fun i j => rfl⟩
  have h := (minOf_finRange i.pos fun k =>
    m.c k j - minOf ((List.finRange n).map (m.c k))).2 i
  simp only [reduce]
  linarith

/-- The stars are a matching, and they lie on zeros. -/
structure Starred (m : Munkres R n) : Prop where
  matching : IsMatching m.star
  zero : ∀ i j, m.star i j = true → isZero (m.c i j) = true

/-- One cell of the initial starring keeps a matching of zeros whose used rows and columns are
the recorded ones.

**Proof sketch.** A cell is starred only where its row and its column are not recorded, hence not
used, so the matching grows by one; and the row and the column are recorded with it. -/
theorem starCell_inv {c : Fin n → Fin n → R}
    {s : (Fin n → Fin n → Bool) × (Fin n → Bool) × (Fin n → Bool)} (z : Fin n × Fin n)
    (hM : IsMatching s.1) (hz : ∀ i j, s.1 i j = true → isZero (c i j) = true)
    (hr : ∀ i, RowUsed s.1 i → s.2.1 i = true) (hc : ∀ j, ColUsed s.1 j → s.2.2 j = true) :
    IsMatching (starCell c s z).1 ∧
      (∀ i j, (starCell c s z).1 i j = true → isZero (c i j) = true) ∧
      (∀ i, RowUsed (starCell c s z).1 i → (starCell c s z).2.1 i = true) ∧
      ∀ j, ColUsed (starCell c s z).1 j → (starCell c s z).2.2 j = true := by
  unfold starCell
  split_ifs with h
  · simp only [Bool.and_eq_true, Bool.not_eq_true'] at h
    obtain ⟨⟨h1, h2⟩, h3⟩ := h
    refine ⟨hM.add (fun hu => ?_) (fun hu => ?_), fun i j hij => ?_, ?_, ?_⟩
    · simp [hr _ hu] at h1
    · simp [hc _ hu] at h2
    · rcases setCell_true_iff.mp hij with ⟨rfl, rfl⟩ | hij
      · exact h3
      · exact hz i j hij
    · rintro i ⟨j, hij⟩
      rcases setCell_true_iff.mp hij with ⟨rfl, -⟩ | hij
      · simp
      · by_cases hi : i = z.1
        · simp [hi]
        · simpa [Function.update_of_ne hi] using hr i ⟨j, hij⟩
    · rintro j ⟨i, hij⟩
      rcases setCell_true_iff.mp hij with ⟨-, rfl⟩ | hij
      · simp
      · by_cases hj : j = z.2
        · simp [hj]
        · simpa [Function.update_of_ne hj] using hc j ⟨i, hij⟩
  · exact ⟨hM, hz, hr, hc⟩

/-- The initial starring yields a matching of zeros. -/
theorem starInitial_starred {m : Munkres R n} (hm : ∀ i j, m.star i j = false) :
    Starred m.starInitial := by
  have key : ∀ (l : List (Fin n × Fin n))
      (s : (Fin n → Fin n → Bool) × (Fin n → Bool) × (Fin n → Bool)),
      IsMatching s.1 → (∀ i j, s.1 i j = true → isZero (m.c i j) = true) →
      (∀ i, RowUsed s.1 i → s.2.1 i = true) → (∀ j, ColUsed s.1 j → s.2.2 j = true) →
      IsMatching (l.foldl (starCell m.c) s).1 ∧
        ∀ i j, (l.foldl (starCell m.c) s).1 i j = true → isZero (m.c i j) = true := by
    intro l
    induction l with
    | nil => intro s hM hz _ _; exact ⟨hM, hz⟩
    | cons z l ih =>
      intro s hM hz hr hc
      obtain ⟨h1, h2, h3, h4⟩ := starCell_inv z hM hz hr hc
      exact ih _ h1 h2 h3 h4
  obtain ⟨h1, h2⟩ := key (cells n) (m.star, fun _ => false, fun _ => false)
    ⟨fun h => by simp [hm] at h, fun h => by simp [hm] at h⟩ (fun i j h => by simp [hm] at h)
    (by rintro i ⟨j, h⟩; simp [hm] at h) (by rintro j ⟨i, h⟩; simp [hm] at h)
  exact ⟨h1, h2⟩

/-! ## Covers -/

/-- Inside the inner loop: the covered rows are the primed ones, a starred column is covered
until its row is primed, and primes are zeros in uncovered columns. -/
structure Covering (m : Munkres R n) (rows : List (Fin n)) : Prop where
  rowCov : ∀ i, m.rowCov i = true ↔ i ∈ rows
  chain : PrimeChain m.star m.prime rows
  prime_row : ∀ i j, m.prime i j = true → i ∈ rows
  prime_col : ∀ i j, m.prime i j = true → m.colCov j = false
  prime_zero : ∀ i j, m.prime i j = true → isZero (m.c i j) = true
  used : ∀ i ∈ rows, RowUsed m.star i
  star_col : ∀ i j, m.star i j = true → (m.colCov j = true ↔ i ∉ rows)
  colUsed : ∀ j, m.colCov j = true → ColUsed m.star j

/-- Covering the starred columns starts the inner loop with an empty chain. -/
theorem coverStarColumns_covering {m : Munkres R n} (hr : ∀ i, m.rowCov i = false)
    (hp : ∀ i j, m.prime i j = false) : Covering m.coverStarColumns [] := by
  have hcol : ∀ j, m.coverStarColumns.colCov j = true ↔ ColUsed m.star j := by
    intro j
    simp [coverStarColumns, ColUsed]
  exact ⟨fun i => by simp [coverStarColumns, hr i], PrimeChain.nil,
    fun i j h => by simp [coverStarColumns, hp] at h,
    fun i j h => by simp [coverStarColumns, hp] at h,
    fun i j h => by simp [coverStarColumns, hp] at h, fun i h => absurd h List.not_mem_nil,
    fun i j h => by simp [hcol, ColUsed]; exact ⟨i, h⟩, fun j h => (hcol j).mp h⟩

omit [Scalar R] in
/-- `cover_star_columns` reports success exactly when every column holds a star. -/
theorem allCovered_iff {m : Munkres R n} :
    m.coverStarColumns.allCovered = true ↔ ∀ j, ColUsed m.star j := by
  have h : m.coverStarColumns.allCovered = true ↔ ∀ j, m.coverStarColumns.colCov j = true := by
    have hlen := List.countP_eq_length (p := m.coverStarColumns.colCov) (l := List.finRange n)
    simp only [List.length_finRange, List.mem_finRange, forall_const] at hlen
    rw [allCovered, beq_iff_eq, hlen]
  rw [h]
  simp [coverStarColumns, ColUsed]

/-! ## Searching for an uncovered zero -/

/-- A found cell is an uncovered zero. -/
theorem findUncoveredZero_some {m : Munkres R n} {z : Fin n × Fin n}
    (h : m.findUncoveredZero = some z) :
    m.rowCov z.1 = false ∧ m.colCov z.2 = false ∧ isZero (m.c z.1 z.2) = true := by
  obtain ⟨i, -, hi⟩ := List.exists_of_findSome?_eq_some h
  split_ifs at hi with hcov
  obtain ⟨j, hj, rfl⟩ := Option.map_eq_some_iff.mp hi
  have hj' := List.find?_some (p := fun j => !m.colCov j && isZero (m.c i j)) hj
  simp only [Bool.and_eq_true, Bool.not_eq_true'] at hj'
  exact ⟨by simpa using hcov, hj'.1, hj'.2⟩

/-- If nothing is found, no uncovered cell is a zero. -/
theorem findUncoveredZero_none {m : Munkres R n} (h : m.findUncoveredZero = none) {i j : Fin n}
    (hi : m.rowCov i = false) (hj : m.colCov j = false) : isZero (m.c i j) = false := by
  have h' := List.findSome?_eq_none_iff.mp h i (List.mem_finRange i)
  rw [hi] at h'
  simp only [Bool.false_eq_true, ↓reduceIte, Option.map_eq_none_iff] at h'
  have := List.find?_eq_none.mp h' j (List.mem_finRange j)
  simpa [hj] using this

/-- With an uncovered cell, `adjust` subtracts the cost of an uncovered cell, and no uncovered
cell costs less. -/
theorem minUncovered_spec {m : Munkres R n} {i₀ j₀ : Fin n} (hi : m.rowCov i₀ = false)
    (hj : m.colCov j₀ = false) :
    (∃ i j, m.rowCov i = false ∧ m.colCov j = false ∧ m.minUncovered = m.c i j) ∧
      ∀ i j, m.rowCov i = false → m.colCov j = false → m.minUncovered ≤ m.c i j := by
  have hmem : ∀ i j, (i, j) ∈ (cells n).filter (fun z => !m.rowCov z.1 && !m.colCov z.2) ↔
      m.rowCov i = false ∧ m.colCov j = false := by
    intro i j
    simp [cells, List.mem_filter]
  have hne : ((cells n).filter fun z => !m.rowCov z.1 && !m.colCov z.2).map
      (fun z => m.c z.1 z.2) ≠ [] := by
    intro h
    have hcell := (hmem i₀ j₀).mpr ⟨hi, hj⟩
    rw [List.map_eq_nil_iff.mp h] at hcell
    exact absurd hcell List.not_mem_nil
  obtain ⟨h1, h2⟩ := minOf_spec hne
  obtain ⟨⟨i, j⟩, hij, hval⟩ := List.mem_map.mp h1
  refine ⟨⟨i, j, ((hmem i j).mp hij).1, ((hmem i j).mp hij).2, hval.symm⟩, fun i j hi hj => ?_⟩
  exact h2 _ (List.mem_map.mpr ⟨(i, j), (hmem i j).mpr ⟨hi, hj⟩, rfl⟩)

/-- `adjust` does not change a cell whose row is covered exactly if its column is not. -/
theorem adjust_c_of_crossed {m : Munkres R n} {i j : Fin n}
    (h : m.rowCov i = true ↔ m.colCov j = false) : m.adjust.c i j = m.c i j := by
  cases hr : m.rowCov i <;> cases hc : m.colCov j <;> simp_all [adjust]

/-- `adjust` leaves stars and primes on zeros. -/
theorem adjust_covering {m : Munkres R n} {rows : List (Fin n)} (hS : Starred m)
    (hC : Covering m rows) : Starred m.adjust ∧ Covering m.adjust rows := by
  refine ⟨⟨hS.matching, fun i j h => ?_⟩, hC.rowCov, hC.chain, hC.prime_row, hC.prime_col,
    fun i j h => ?_, hC.used, hC.star_col, hC.colUsed⟩
  · have hcross : m.rowCov i = true ↔ m.colCov j = false := by
      have h1 := hC.rowCov i
      have h2 := hC.star_col i j h
      cases hc : m.colCov j <;> simp_all
    rw [adjust_c_of_crossed hcross]
    exact hS.zero i j h
  · have hcross : m.rowCov i = true ↔ m.colCov j = false := by
      simp [hC.prime_col i j h, hC.rowCov i, hC.prime_row i j h]
    rw [adjust_c_of_crossed hcross]
    exact hC.prime_zero i j h

/-- While some column holds no star, some cell is uncovered. -/
theorem exists_uncovered {m : Munkres R n} {rows : List (Fin n)} (hS : Starred m)
    (hC : Covering m rows) (hopen : ¬∀ j, ColUsed m.star j) :
    ∃ i j, ¬RowUsed m.star i ∧ m.rowCov i = false ∧ m.colCov j = false := by
  obtain ⟨j, hj⟩ := not_forall.mp hopen
  obtain ⟨i, hi⟩ := not_forall.mp (mt hS.matching.all_cols_of_all_rows hopen)
  refine ⟨i, j, hi, ?_, ?_⟩
  · rw [← Bool.not_eq_true, hC.rowCov i]
    exact fun hmem => hi (hC.used i hmem)
  · rw [← Bool.not_eq_true]
    exact fun hcov => hj (hC.colUsed j hcov)

variable [IsStrictOrderedRing R]

/-- Zero is a zero. -/
theorem isZero_zero : isZero (0 : R) = true := by
  simp [isZero, kZeroEps]

/-- `adjust` keeps the matrix reduced. -/
theorem adjust_reduced {c₀ : Fin n → Fin n → R} {m : Munkres R n} (h : Reduced c₀ m.c)
    {i₀ j₀ : Fin n} (hi : m.rowCov i₀ = false) (hj : m.colCov j₀ = false) :
    Reduced c₀ m.adjust.c := by
  obtain ⟨⟨i₁, j₁, -, -, he⟩, hmin⟩ := minUncovered_spec hi hj
  have hpos : 0 ≤ m.minUncovered := he ▸ h.nonneg i₁ j₁
  obtain ⟨u, v, huv⟩ := h.potentials
  refine ⟨fun i j => ?_, fun i => u i - (if m.rowCov i then m.minUncovered else 0),
    fun j => v j + (if m.colCov j then 0 else m.minUncovered), fun i j => ?_⟩
  · have h0 := h.nonneg i j
    have h1 := hmin i j
    cases hr : m.rowCov i <;> cases hc : m.colCov j <;> simp_all [adjust]
    linarith
  · have h0 := huv i j
    cases hr : m.rowCov i <;> cases hc : m.colCov j <;> simp [adjust, hr, hc, h0] <;> ring

/-- `adjust` creates an uncovered zero. -/
theorem findUncoveredZero_adjust {m : Munkres R n} {i₀ j₀ : Fin n} (hi : m.rowCov i₀ = false)
    (hj : m.colCov j₀ = false) : m.adjust.findUncoveredZero ≠ none := by
  obtain ⟨⟨i, j, hri, hcj, he⟩, -⟩ := minUncovered_spec hi hj
  intro h
  have hz := findUncoveredZero_none h (i := i) (j := j) hri hcj
  have hval : m.adjust.c i j = 0 := by
    simp [adjust, hri, hcj, he]
  rw [hval, isZero_zero] at hz
  exact Bool.noConfusion hz

/-- **One search.**  Two iterations find an uncovered zero, changing costs only. -/
theorem search_spec {c₀ : Fin n → Fin n → R} {m : Munkres R n} {rows : List (Fin n)}
    (hR : Reduced c₀ m.c) (hS : Starred m) (hC : Covering m rows)
    (hopen : ¬∀ j, ColUsed m.star j) {fuel : ℕ} (hf : 2 ≤ fuel) :
    ∃ m' z, search fuel m = some (m', z) ∧ Reduced c₀ m'.c ∧ Starred m' ∧ Covering m' rows ∧
      m'.star = m.star ∧ m'.findUncoveredZero = some z := by
  obtain ⟨k, rfl⟩ : ∃ k, fuel = k + 2 := ⟨fuel - 2, by omega⟩
  cases hz : m.findUncoveredZero with
  | some z => exact ⟨m, z, by simp [search, hz], hR, hS, hC, rfl, hz⟩
  | none =>
    obtain ⟨i, j, -, hi, hj⟩ := exists_uncovered hS hC hopen
    obtain ⟨z, hz'⟩ := Option.ne_none_iff_exists'.mp (findUncoveredZero_adjust hi hj)
    obtain ⟨hS', hC'⟩ := adjust_covering hS hC
    exact ⟨m.adjust, z, by simp [search, hz, hz'], adjust_reduced hR hi hj, hS', hC', rfl, hz'⟩

/-! ## The inner loop -/

omit [IsStrictOrderedRing R] in
/-- Priming an uncovered zero whose row has a star at `s`, covering the row and uncovering the
column of the star, extends the chain by one row.

**Proof sketch.** The row was not covered, so it has no prime yet, and the new prime starts a
longer chain: every star in its column stands in a covered row.  Uncovering the column of the
star `s` keeps it true that a star is in a covered column exactly when its row is not covered. -/
theorem Covering.cons {m : Munkres R n} {rows : List (Fin n)} (hS : Starred m)
    (hC : Covering m rows) {i j s : Fin n} (hi : m.rowCov i = false) (hj : m.colCov j = false)
    (hz : isZero (m.c i j) = true) (hs : m.star i s = true) :
    Covering ((m.primeCell (i, j)).coverRow i s) (i :: rows) := by
  have hfresh : i ∉ rows := by rw [← hC.rowCov, hi]; simp
  have hnoprime : ∀ j', m.prime i j' = false := fun j' =>
    Bool.eq_false_iff.mpr fun h => hfresh (hC.prime_row i j' h)
  have hcol : ∀ j', ((m.primeCell (i, j)).coverRow i s).colCov j' = true ↔
      j' ≠ s ∧ m.colCov j' = true := by
    intro j'
    by_cases h : j' = s <;> simp [coverRow, primeCell, h]
  have hrow : ∀ a, ((m.primeCell (i, j)).coverRow i s).rowCov a = true ↔
      a = i ∨ m.rowCov a = true := by
    intro a
    by_cases h : a = i <;> simp [coverRow, primeCell, h]
  refine ⟨fun a => ?_, ?_, fun a b h => ?_, fun a b h => ?_, fun a b h => ?_, fun a h => ?_,
    fun a b h => ?_, fun b h => ?_⟩
  · rw [hrow, hC.rowCov, List.mem_cons]
  · refine PrimeChain.cons hfresh (c := j) (setCell_true_iff.mpr (Or.inl ⟨rfl, rfl⟩))
      (fun c' h => ?_) (fun a ha => ?_) ?_
    · rcases setCell_true_iff.mp h with ⟨-, h⟩ | h
      · exact h
      · exact absurd h (by simp [hnoprime c'])
    · by_contra hmem
      have := (hC.star_col a j ha).mpr hmem
      simp [hj] at this
    · exact hC.chain.prime_cell hfresh j
  · rcases setCell_true_iff.mp h with ⟨rfl, -⟩ | h
    · exact List.mem_cons_self
    · exact List.mem_cons_of_mem _ (hC.prime_row a b h)
  · rw [← Bool.not_eq_true, hcol]
    rcases setCell_true_iff.mp h with ⟨-, rfl⟩ | h
    · simp [hj]
    · simp [hC.prime_col a b h]
  · rcases setCell_true_iff.mp h with ⟨rfl, rfl⟩ | h
    · exact hz
    · exact hC.prime_zero a b h
  · rcases List.mem_cons.mp h with rfl | h
    · exact ⟨s, hs⟩
    · exact hC.used a h
  · have hold := hC.star_col a b h
    rw [hcol, hold, List.mem_cons, not_or]
    refine and_congr_left fun _ => ⟨?_, ?_⟩
    · rintro hbs rfl
      exact hbs (hS.matching.row h hs)
    · rintro hai rfl
      exact hai (hS.matching.col h hs)
  · exact hC.colUsed b ((hcol b).mp h).2

omit [IsStrictOrderedRing R] in
/-- Augmenting from an uncovered zero in a row without a star succeeds, and after clearing, the
stars are a matching of zeros with one row more.

**Proof sketch.** The chain of primes extended by the zero is walked within as many passes as it
has rows.  After flipping, every star is an old star, the zero, or an old prime, and all of them
stand on zeros. -/
theorem augment_spec {m : Munkres R n} {rows : List (Fin n)} (hS : Starred m)
    (hC : Covering m rows) {z : Fin n × Fin n} (hj : m.colCov z.2 = false)
    (hz : isZero (m.c z.1 z.2) = true) (hfree : ¬RowUsed m.star z.1) {fuel : ℕ}
    (hf : rows.length < fuel) :
    ∃ m', augment fuel (m.primeCell z) z = some m' ∧
      Starred m' ∧ m'.c = m.c ∧ (∀ i, RowUsed m'.star i ↔ i = z.1 ∨ RowUsed m.star i) ∧
      ∀ j, ColUsed m.star j → ColUsed m'.star j := by
  have hfresh : z.1 ∉ rows := fun h => hfree (hC.used _ h)
  have hmem : ∀ i, m.star i z.2 = true → i ∈ rows := by
    intro i hi
    by_contra h
    have := (hC.star_col i z.2 hi).mpr h
    simp [hj] at this
  have hchain := hC.chain.prime_cell hfresh z.2
  obtain ⟨p, hp, hM, hrow, hcol, hcell⟩ := path_flip fuel rows z m.star hf hchain hchain
    (fun _ _ _ _ _ => rfl) (fun _ => rfl) hmem hS.matching hfree
  refine ⟨{ m.primeCell z with star := flip m.star p }, ?_, ⟨hM, fun i j h => ?_⟩, rfl, hrow,
    hcol⟩
  · simp only [augment, primeCell, hp, Option.map_some]
  · rcases hcell i j h with h | h | ⟨hr, h⟩
    · exact hS.zero i j h
    · obtain ⟨rfl, rfl⟩ := Prod.mk.inj h
      exact hz
    · rcases setCell_true_iff.mp h with ⟨rfl, rfl⟩ | h
      · exact hz
      · exact hC.prime_zero i j h

/-- **The inner loop.**  From a covering with a column still unused, the inner loop ends within
as many passes as there are rows outside the chain, and leaves a matching of zeros with one row
more, everything uncovered and no prime.

**Proof sketch.** Induction on the passes.  A pass finds an uncovered zero (`search_spec`).  If
its row has a star, the chain grows by this row (`Covering.cons`), so one pass less is needed.
Otherwise the loop augments (`augment_spec`) and ends.  The rows of a chain are distinct and in
use, and some row is unused, so the chain never exhausts the rows. -/
theorem primeLoop_spec {c₀ : Fin n → Fin n → R} {fuel : ℕ} (hf : n + 2 ≤ fuel) :
    ∀ (k : ℕ) (rows : List (Fin n)) (m : Munkres R n), Reduced c₀ m.c → Starred m →
      Covering m rows → (¬∀ j, ColUsed m.star j) → n ≤ rows.length + k →
      ∃ m', primeLoop fuel k m = some m' ∧ Reduced c₀ m'.c ∧ Starred m' ∧
        (∀ i, m'.rowCov i = false) ∧ (∀ i j, m'.prime i j = false) ∧
        (∃ r, ¬RowUsed m.star r ∧ ∀ i, RowUsed m'.star i ↔ i = r ∨ RowUsed m.star i) := by
  intro k
  induction k with
  | zero =>
    intro rows m hR hS hC hopen hlen
    -- the chain cannot hold all rows
    obtain ⟨i, -, -, hi, -⟩ := exists_uncovered hS hC hopen
    have hnodup := (List.nodup_cons.mpr ⟨fun h => by simp [(hC.rowCov i).mpr h] at hi,
      hC.chain.nodup⟩ : (i :: rows).Nodup)
    have hcard := hnodup.length_le_card
    rw [Fintype.card_fin, List.length_cons] at hcard
    omega
  | succ k ih =>
    intro rows m hR hS hC hopen hlen
    obtain ⟨m₁, z, hsearch, hR₁, hS₁, hC₁, hstar, hz⟩ :=
      search_spec hR hS hC hopen (show 2 ≤ fuel by omega)
    obtain ⟨hzr, hzc, hz0⟩ := findUncoveredZero_some hz
    rw [primeLoop, hsearch]
    simp only [Option.bind_some]
    rw [show (m₁.primeCell z).star = m₁.star from rfl]
    cases hs : starInRow m₁.star z.1 with
    | none =>
      have hfree : ¬RowUsed m₁.star z.1 := starInRow_eq_none_iff.mp hs
      have hrows := hC₁.chain.nodup.length_le_card
      rw [Fintype.card_fin] at hrows
      obtain ⟨m₂, haug, hS₂, hc₂, hrow, -⟩ :=
        augment_spec hS₁ hC₁ hzc hz0 hfree (show rows.length < fuel by omega)
      refine ⟨m₂.clearCoversAndPrimes, by simp [haug], ?_, ⟨hS₂.matching, hS₂.zero⟩,
        fun _ => rfl, fun _ _ => rfl, z.1, hstar ▸ hfree, fun i => ?_⟩
      · change Reduced c₀ m₂.c
        rw [hc₂]
        exact hR₁
      · rw [← hstar]
        exact hrow i
    | some s =>
      have hC₂ := hC₁.cons hS₁ hzr hzc hz0 (star_of_starInRow hs)
      obtain ⟨m', hloop, h'⟩ := ih (z.1 :: rows) ((m₁.primeCell z).coverRow z.1 s) hR₁
        ⟨hS₁.matching, hS₁.zero⟩ hC₂ (by change ¬∀ j, ColUsed m₁.star j; rw [hstar]; exact hopen)
        (by simp only [List.length_cons]; omega)
      refine ⟨m', hloop, ?_⟩
      change _ ∧ _ ∧ _ ∧ _ ∧ ∃ r, ¬RowUsed m₁.star r ∧
        ∀ i, RowUsed m'.star i ↔ i = r ∨ RowUsed m₁.star i at h'
      rwa [hstar] at h'

/-! ## The outer loop -/

/-- The number of rows without a star. -/
noncomputable def freeRows (m : Munkres R n) : ℕ :=
  open Classical in (Finset.univ.filter fun i => ¬RowUsed m.star i).card

/-- **The outer loop.**  It ends within one iteration per unused row and one more, with a
matching of zeros that uses every column.

**Proof sketch.** Induction on the iterations: each one that does not stop uses one row more
(`primeLoop_spec`). -/
theorem coverLoop_spec {c₀ : Fin n → Fin n → R} {fuel : ℕ} (hf : n + 2 ≤ fuel) :
    ∀ (k : ℕ) (m : Munkres R n), Reduced c₀ m.c → Starred m → (∀ i, m.rowCov i = false) →
      (∀ i j, m.prime i j = false) → m.freeRows < k →
      ∃ m', coverLoop fuel k m = some m' ∧ Reduced c₀ m'.c ∧ Starred m' ∧
        ∀ j, ColUsed m'.star j := by
  intro k
  induction k with
  | zero => intro m _ _ _ _ h; exact absurd h (Nat.not_lt_zero _)
  | succ k ih =>
    intro m hR hS hr hp hfree
    rw [coverLoop]
    split_ifs with hall
    · exact ⟨_, rfl, hR, ⟨hS.matching, hS.zero⟩, allCovered_iff.mp hall⟩
    · have hopen : ¬∀ j, ColUsed m.star j := fun h => hall (allCovered_iff.mpr h)
      obtain ⟨m₁, hloop, hR₁, hS₁, hr₁, hp₁, r, hru, hrow⟩ := primeLoop_spec hf fuel []
        m.coverStarColumns hR ⟨hS.matching, hS.zero⟩ (coverStarColumns_covering hr hp) hopen
        (by simp only [List.length_nil]; omega)
      change ¬RowUsed m.star r at hru
      change ∀ i, RowUsed m₁.star i ↔ i = r ∨ RowUsed m.star i at hrow
      have hlt : m₁.freeRows < m.freeRows := by
        classical
        refine Finset.card_lt_card (Finset.ssubset_iff_of_subset ?_ |>.mpr ⟨r, ?_, ?_⟩)
        · intro i hi
          simp only [Finset.mem_filter, Finset.mem_univ, true_and] at hi ⊢
          exact fun h => hi ((hrow i).mpr (Or.inr h))
        · simpa using hru
        · simpa using (hrow r).mpr (Or.inl rfl)
      obtain ⟨m', hm', h'⟩ := ih m₁ hR₁ hS₁ hr₁ hp₁ (by omega)
      exact ⟨m', by rw [hloop]; exact hm', h'⟩

/-- **The solver.**  On every cost matrix `solve` ends within `n + 2` iterations of each loop.
Its stars form a perfect matching, optimal up to `kZeroEps` per cell.

**Proof sketch.** Reducing and starring establish the invariants of the outer loop, and each of
its passes leaves one free row less, so `n + 2` passes are enough.  At the end the reduced costs
are nonnegative and the starred ones below `kZeroEps`, and they differ from the original costs by
potentials, which is near tightness. -/
theorem solve_spec (c₀ : Fin n → Fin n → R) :
    ∃ star, (new c₀).solve (n + 2) = some star ∧ IsMatching star ∧ (∀ j, ColUsed star j) ∧
      NearTight c₀ kZeroEps star := by
  have hR : Reduced c₀ (new c₀).reduce.starInitial.c := reduce_reduced (new c₀)
  have hS : Starred (new c₀).reduce.starInitial := starInitial_starred fun _ _ => rfl
  have hcard : (new c₀).reduce.starInitial.freeRows < n + 2 := by
    have h := Finset.card_le_univ (open Classical in
      Finset.univ.filter fun i => ¬RowUsed (new c₀).reduce.starInitial.star i)
    rw [Fintype.card_fin] at h
    unfold freeRows
    omega
  obtain ⟨m, hm, hRm, hSm, hall⟩ := coverLoop_spec le_rfl (n + 2) _ hR hS (fun _ => rfl)
    (fun _ _ => rfl) hcard
  refine ⟨m.star, by rw [solve, hm]; rfl, hSm.matching, hall, ?_⟩
  obtain ⟨u, v, huv⟩ := hRm.potentials
  refine ⟨u, v, fun i j => ?_, fun i j h => ?_⟩
  · have := hRm.nonneg i j
    have := huv i j
    linarith
  · have hz := hSm.zero i j h
    rw [isZero, decide_eq_true_eq, abs_lt] at hz
    have := huv i j
    linarith [hz.2]

end Munkres

end Ctrk
