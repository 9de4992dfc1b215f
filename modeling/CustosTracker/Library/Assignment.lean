import CustosTracker.Library.Matching

set_option relaxedAutoImplicit false
set_option autoImplicit false

/-!
# Assignments on a padded square

A rectangular assignment problem between `α` and `β` is solved on a square type `ι` into which both
embed.  A perfect matching of the square, as a permutation, picks the *cells* it has in the
rectangle; every partial matching of the rectangle is among the cells of some permutation.  When
forbidden pairs cost more than all other pairs together, a nearly cheapest permutation picks a
largest matching of allowed pairs, and among the largest ones a nearly cheapest.

## Main definitions

* `Matching.cellsOf` — the pairs of the rectangle a permutation of the square picks.
* `Matching.PairsMatch` — a finite set of pairs that is one-to-one.
* `Matching.Pads` — a square cost that extends a rectangular one by zeros.

## Main results

* `Matching.NearTight.exists_perm` — a certified perfect matching is a nearly cheapest permutation.
* `Matching.PairsMatch.exists_perm` — partial matchings extend to permutations.
* `Matching.card_cellsOf` — all permutations pick equally many cells.
* `Matching.card_le_of_forbidden`, `Matching.cost_le_of_forbidden` — the effect of a large cost on
  forbidden pairs.
-/

namespace Matching

variable {ι α β : Type} {R : Type} [Field R] [LinearOrder R]

/-! ## Perfect matchings as permutations -/

/-- A perfect matching of a square is a permutation. -/
theorem IsMatching.exists_perm [Finite ι] {s : ι → ι → Bool} (hs : IsMatching s)
    (hall : ∀ j, ColUsed s j) : ∃ σ : Equiv.Perm ι, ∀ i j, s i j = true ↔ σ i = j := by
  choose f hf using hs.all_rows_of_all_cols hall
  have hinj : Function.Injective f := fun a b hab => hs.col (hf a) (hab ▸ hf b)
  refine ⟨Equiv.ofBijective f (Finite.injective_iff_bijective.mp hinj), fun i j => ?_⟩
  rw [Equiv.ofBijective_apply]
  constructor
  · intro h
    exact hs.row (hf i) h
  · intro h
    exact h ▸ hf i

/-- A certified perfect matching costs less than `ε` per row more than any permutation. -/
theorem NearTight.exists_perm [IsStrictOrderedRing R] [Fintype ι] [Nonempty ι] {c : ι → ι → R}
    {ε : R} {s : ι → ι → Bool} (h : NearTight c ε s) (hs : IsMatching s) (hall : ∀ j, ColUsed s j) :
    ∃ σ : Equiv.Perm ι, (∀ i j, s i j = true ↔ σ i = j) ∧
      ∀ τ : Equiv.Perm ι, ∑ i, c i (σ i) < ∑ i, c i (τ i) + Fintype.card ι * ε := by
  obtain ⟨σ, hσ⟩ := hs.exists_perm hall
  obtain ⟨u, v, hle, hlt⟩ := h
  refine ⟨σ, hσ, fun τ => ?_⟩
  calc ∑ i, c i (σ i)
      < ∑ i, (u i + v (σ i) + ε) :=
        Finset.sum_lt_sum_of_nonempty Finset.univ_nonempty fun i _ =>
          hlt i (σ i) ((hσ i (σ i)).mpr rfl)
    _ = ∑ i, u i + ∑ j, v j + Fintype.card ι * ε := by
        rw [Finset.sum_add_distrib, Finset.sum_add_distrib, Equiv.sum_comp σ v, Finset.sum_const,
          Finset.card_univ, nsmul_eq_mul]
    _ = ∑ i, (u i + v (τ i)) + Fintype.card ι * ε := by
        rw [Finset.sum_add_distrib, Equiv.sum_comp τ v]
    _ ≤ ∑ i, c i (τ i) + Fintype.card ι * ε := by
        gcongr with i
        exact hle i (τ i)

/-! ## Cells of a permutation -/

section Cells

variable [Fintype α] [Fintype β] [DecidableEq ι] (f : α ↪ ι) (g : β ↪ ι)

/-- The pairs of the rectangle a permutation of the square picks. -/
def cellsOf (τ : Equiv.Perm ι) : Finset (α × β) :=
  Finset.univ.filter fun p => τ (f p.1) = g p.2

/-- A finite set of pairs in which no row and no column repeats. -/
structure PairsMatch (N : Finset (α × β)) : Prop where
  rows : ∀ {p q}, p ∈ N → q ∈ N → p.1 = q.1 → p = q
  cols : ∀ {p q}, p ∈ N → q ∈ N → p.2 = q.2 → p = q

/-- A square cost that extends a rectangular one by zeros. -/
structure Pads (c : α → β → R) (c' : ι → ι → R) : Prop where
  inside : ∀ a b, c' (f a) (g b) = c a b
  row : ∀ i j, i ∉ Set.range f → c' i j = 0
  col : ∀ i j, j ∉ Set.range g → c' i j = 0

variable {f g}

theorem mem_cellsOf {τ : Equiv.Perm ι} {p : α × β} : p ∈ cellsOf f g τ ↔ τ (f p.1) = g p.2 := by
  rw [cellsOf, Finset.mem_filter, and_iff_right (Finset.mem_univ _)]

/-- The cells of a permutation are one-to-one. -/
theorem pairsMatch_cellsOf (τ : Equiv.Perm ι) : PairsMatch (cellsOf f g τ) where
  rows {p q} hp hq h := by
    rw [mem_cellsOf] at hp hq
    exact Prod.ext h (g.injective (by rw [← hp, ← hq, h]))
  cols {p q} hp hq h := by
    rw [mem_cellsOf] at hp hq
    exact Prod.ext (f.injective (τ.injective (by rw [hp, hq, h]))) h

/-- Every one-to-one set of pairs is among the cells of a permutation.

**Proof sketch.** The map from the rows of the pairs to their columns is injective, since the
pairs are one-to-one, and an injective map on a part of a finite type extends to a permutation of
it. -/
theorem PairsMatch.exists_perm [Fintype ι] {N : Finset (α × β)} (hN : PairsMatch N) :
    ∃ τ : Equiv.Perm ι, N ⊆ cellsOf f g τ := by
  classical
  -- send the row of each pair to its column
  have hφ : ∃ φ : ι → ι, ∀ p ∈ N, φ (f p.1) = g p.2 := by
    refine ⟨fun i => if h : ∃ p ∈ N, f p.1 = i then g h.choose.2 else i, fun p hp => ?_⟩
    have h : ∃ q ∈ N, f q.1 = f p.1 := ⟨p, hp, rfl⟩
    have hchosen : h.choose = p := hN.rows h.choose_spec.1 hp (f.injective h.choose_spec.2)
    simp only [dif_pos h, hchosen]
  obtain ⟨φ, hφ⟩ := hφ
  have hinj : Set.InjOn φ (N.image fun p => f p.1 : Finset ι) := by
    intro i hi j hj hij
    obtain ⟨p, hp, rfl⟩ := Finset.mem_image.mp (Finset.mem_coe.mp hi)
    obtain ⟨q, hq, rfl⟩ := Finset.mem_image.mp (Finset.mem_coe.mp hj)
    rw [hφ p hp, hφ q hq] at hij
    rw [hN.cols hp hq (g.injective hij)]
  obtain ⟨e, he⟩ := Finset.exists_equiv_extend_of_card_eq (t := (Finset.univ : Finset ι))
    Finset.card_univ.symm (Finset.subset_univ _) hinj
  refine ⟨e.trans (Equiv.subtypeUnivEquiv Finset.mem_univ), fun p hp => ?_⟩
  rw [mem_cellsOf]
  exact (he _ (Finset.mem_image_of_mem _ hp)).trans (hφ p hp)

omit [LinearOrder R] in
/-- The padded cost of a permutation is the cost of its cells. -/
theorem Pads.sum_eq [Fintype ι] {c : α → β → R} {c' : ι → ι → R} (h : Pads f g c c')
    (τ : Equiv.Perm ι) : ∑ i, c' i (τ i) = ∑ p ∈ cellsOf f g τ, c p.1 p.2 := by
  symm
  refine Finset.sum_of_injOn (fun p => f p.1) ?_ (fun p _ => Finset.mem_univ _) ?_ ?_
  · intro p hp q hq hpq
    exact (pairsMatch_cellsOf τ).rows hp hq (f.injective hpq)
  · intro i _ hi
    by_cases hrow : i ∈ Set.range f
    · obtain ⟨a, rfl⟩ := hrow
      refine h.col _ _ fun hcol => ?_
      obtain ⟨b, hb⟩ := hcol
      exact hi ⟨(a, b), mem_cellsOf.mpr hb.symm, rfl⟩
    · exact h.row _ _ hrow
  · intro p hp
    rw [mem_cellsOf.mp hp, h.inside]

/-- When one side fills the square, every permutation picks as many cells as the other side has
entries.

**Proof sketch.** The cells of a permutation are one-to-one.  Where one side fills the square,
every entry of the other side is the end of a cell, so projecting to that side is a bijection. -/
theorem card_cellsOf [Fintype ι] (hfg : Function.Surjective f ∨ Function.Surjective g)
    (τ : Equiv.Perm ι) : (cellsOf f g τ).card = min (Fintype.card α) (Fintype.card β) := by
  have hα := Fintype.card_le_of_embedding f
  have hβ := Fintype.card_le_of_embedding g
  rcases hfg with hf | hg
  · have hcard : (cellsOf f g τ).card = Fintype.card β := by
      rw [← Finset.card_univ]
      refine Finset.card_nbij Prod.snd (fun _ _ => Finset.mem_univ _) ?_ ?_
      · intro p hp q hq h
        exact (pairsMatch_cellsOf τ).cols hp hq h
      · intro b _
        obtain ⟨a, ha⟩ := hf (τ.symm (g b))
        exact ⟨(a, b), mem_cellsOf.mpr (by rw [ha, Equiv.apply_symm_apply]), rfl⟩
    have hle := Fintype.card_le_of_surjective f hf
    rw [hcard, min_eq_right (hβ.trans hle)]
  · have hcard : (cellsOf f g τ).card = Fintype.card α := by
      rw [← Finset.card_univ]
      refine Finset.card_nbij Prod.fst (fun _ _ => Finset.mem_univ _) ?_ ?_
      · intro p hp q hq h
        exact (pairsMatch_cellsOf τ).rows hp hq h
      · intro a _
        obtain ⟨b, hb⟩ := hg (τ (f a))
        exact ⟨(a, b), mem_cellsOf.mpr hb.symm, rfl⟩
    have hle := Fintype.card_le_of_surjective g hg
    rw [hcard, min_eq_left (hα.trans hle)]

/-! ## Forbidden pairs -/

section Forbidden

variable {c : α → β → R} {c' : ι → ι → R} {B M ε : R} {allowed : α → β → Prop}
  [∀ a b, Decidable (allowed a b)]

omit [LinearOrder R] in
/-- The cost of the cells of a permutation: its allowed cells, and `M` for each other one. -/
theorem cost_cellsOf (hforbidden : ∀ a b, ¬allowed a b → c a b = M) (τ : Equiv.Perm ι) :
    ∑ p ∈ cellsOf f g τ, c p.1 p.2 =
      ∑ p ∈ (cellsOf f g τ).filter (fun p => allowed p.1 p.2), c p.1 p.2 +
        ((cellsOf f g τ).card - ((cellsOf f g τ).filter fun p => allowed p.1 p.2).card : R) * M := by
  have hrest : ∑ p ∈ (cellsOf f g τ).filter (fun p => ¬allowed p.1 p.2), c p.1 p.2 =
      ((cellsOf f g τ).card - ((cellsOf f g τ).filter fun p => allowed p.1 p.2).card : R) * M := by
    have hcard := Finset.card_filter_add_card_filter_not (s := cellsOf f g τ)
      fun p => allowed p.1 p.2
    rw [Finset.sum_congr rfl fun p hp => hforbidden _ _ (Finset.mem_filter.mp hp).2,
      Finset.sum_const, nsmul_eq_mul, ← hcard]
    push_cast
    ring
  rw [← hrest]
  exact (Finset.sum_filter_add_sum_filter_not _ _ _).symm

variable [IsStrictOrderedRing R]

/-- The cost of the cells of a permutation that contains a given matching. -/
theorem cost_cellsOf_le (hM : ∀ a b, c a b ≤ M) {N : Finset (α × β)} {τ : Equiv.Perm ι}
    (hτ : N ⊆ cellsOf f g τ) :
    ∑ p ∈ cellsOf f g τ, c p.1 p.2 ≤
      ∑ p ∈ N, c p.1 p.2 + ((cellsOf f g τ).card - N.card : R) * M := by
  classical
  have hrest : ∑ p ∈ cellsOf f g τ \ N, c p.1 p.2 ≤ ((cellsOf f g τ).card - N.card : R) * M := by
    calc ∑ p ∈ cellsOf f g τ \ N, c p.1 p.2
        ≤ ((cellsOf f g τ \ N).card : R) * M := by
          rw [← nsmul_eq_mul]
          exact Finset.sum_le_card_nsmul _ _ _ fun p _ => hM _ _
      _ = _ := by rw [Finset.cast_card_sdiff hτ]
  rw [← Finset.sum_sdiff hτ]
  linarith

variable [Fintype ι]

/-- A nearly cheapest permutation compared with a matching of allowed pairs. -/
theorem cost_compare (hfg : Function.Surjective f ∨ Function.Surjective g)
    (hpad : Pads f g c c') (hforbidden : ∀ a b, ¬allowed a b → c a b = M) (hM : ∀ a b, c a b ≤ M)
    {σ : Equiv.Perm ι} (hσ : ∀ τ : Equiv.Perm ι, ∑ i, c' i (σ i) ≤ ∑ i, c' i (τ i) + ε)
    {N : Finset (α × β)} (hN : PairsMatch N) :
    ∑ p ∈ (cellsOf f g σ).filter (fun p => allowed p.1 p.2), c p.1 p.2 +
        ((N.card : R) - ((cellsOf f g σ).filter fun p => allowed p.1 p.2).card) * M ≤
      ∑ p ∈ N, c p.1 p.2 + ε := by
  obtain ⟨τ, hτ⟩ := hN.exists_perm (f := f) (g := g)
  have hbest := hσ τ
  rw [hpad.sum_eq, hpad.sum_eq, cost_cellsOf hforbidden σ] at hbest
  have hle := cost_cellsOf_le hM hτ
  rw [card_cellsOf hfg] at hbest hle
  linarith

/-- **No larger matching.** When an allowed pair costs at most `B` and a forbidden one more than
all allowed pairs together, a nearly cheapest permutation picks a largest matching of allowed
pairs.

**Proof sketch.** A larger set of pairs extends to a permutation that picks more allowed cells,
so at least one forbidden cell fewer.  That saves `M`, which is more than all allowed pairs
together and the slack can cost. -/
theorem card_le_of_forbidden (hfg : Function.Surjective f ∨ Function.Surjective g)
    (hpad : Pads f g c c') (hforbidden : ∀ a b, ¬allowed a b → c a b = M) (hM : ∀ a b, c a b ≤ M)
    (hallowed : ∀ a b, allowed a b → 0 ≤ c a b ∧ c a b ≤ B) (hB : 0 ≤ B)
    (hbig : B * min (Fintype.card α) (Fintype.card β) + ε < M)
    {σ : Equiv.Perm ι} (hσ : ∀ τ : Equiv.Perm ι, ∑ i, c' i (σ i) ≤ ∑ i, c' i (τ i) + ε)
    {N : Finset (α × β)} (hN : PairsMatch N) (hNallowed : ∀ p ∈ N, allowed p.1 p.2) (hε : 0 ≤ ε) :
    N.card ≤ ((cellsOf f g σ).filter fun p => allowed p.1 p.2).card := by
  by_contra hlt
  have hlt' : (((cellsOf f g σ).filter fun p => allowed p.1 p.2).card : R) + 1 ≤ N.card := by
    exact_mod_cast not_le.mp hlt
  have hcompare := cost_compare hfg hpad hforbidden hM hσ hN
  have hnonneg : 0 ≤ ∑ p ∈ (cellsOf f g σ).filter (fun p => allowed p.1 p.2), c p.1 p.2 :=
    Finset.sum_nonneg fun p hp => (hallowed _ _ (Finset.mem_filter.mp hp).2).1
  have hupper : ∑ p ∈ N, c p.1 p.2 ≤ B * min (Fintype.card α) (Fintype.card β) := by
    obtain ⟨τ, hτ⟩ := hN.exists_perm (f := f) (g := g)
    have hcard : (N.card : R) ≤ min (Fintype.card α) (Fintype.card β) := by
      have hle := Finset.card_le_card hτ
      rw [card_cellsOf hfg] at hle
      exact_mod_cast hle
    calc ∑ p ∈ N, c p.1 p.2
        ≤ N.card • B := Finset.sum_le_card_nsmul _ _ _ fun p hp => (hallowed _ _ (hNallowed p hp)).2
      _ = B * N.card := by rw [nsmul_eq_mul, mul_comm]
      _ ≤ B * min (Fintype.card α) (Fintype.card β) := mul_le_mul_of_nonneg_left hcard hB
  have hMpos : 0 ≤ M := by
    have h : 0 ≤ B * min (Fintype.card α) (Fintype.card β) := by positivity
    linarith
  have hgap : M ≤ ((N.card : R) - ((cellsOf f g σ).filter fun p => allowed p.1 p.2).card) * M := by
    nlinarith
  linarith

/-- **No cheaper matching of the same size.** -/
theorem cost_le_of_forbidden (hfg : Function.Surjective f ∨ Function.Surjective g)
    (hpad : Pads f g c c') (hforbidden : ∀ a b, ¬allowed a b → c a b = M) (hM : ∀ a b, c a b ≤ M)
    {σ : Equiv.Perm ι} (hσ : ∀ τ : Equiv.Perm ι, ∑ i, c' i (σ i) ≤ ∑ i, c' i (τ i) + ε)
    {N : Finset (α × β)} (hN : PairsMatch N)
    (hcard : N.card = ((cellsOf f g σ).filter fun p => allowed p.1 p.2).card) :
    ∑ p ∈ (cellsOf f g σ).filter (fun p => allowed p.1 p.2), c p.1 p.2 ≤ ∑ p ∈ N, c p.1 p.2 + ε := by
  have hcompare := cost_compare hfg hpad hforbidden hM hσ hN
  rw [hcard] at hcompare
  linarith

end Forbidden

end Cells

end Matching
