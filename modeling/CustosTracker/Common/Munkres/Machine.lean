import CustosTracker.Common.Munkres.Rectangular

set_option relaxedAutoImplicit false
set_option autoImplicit false

/-!
# The solver as a machine

`Munkres::solve` once more, now without a bound on its loops: a machine whose every step is one
pass of a loop of the source.  It halts on every matrix, with the stars the bounded loops compute,
and what holds in every state it reaches is what holds at the corresponding line of the source in
every run.

## Main definitions

* `Ctrk.Munkres.Control`, `Ctrk.Munkres.step` — the lines a run stands at, and one pass of a loop.
* `Ctrk.Munkres.AugmentCall` — what `augment` finds and what it leaves.
* `Ctrk.Munkres.Sound` — the invariant of a run.

## Main results

* `Ctrk.Munkres.reaches_of_solve` — the machine halts where the bounded loops do.
* `Ctrk.Munkres.Sound.step`, `Ctrk.Munkres.sound_of_reaches` — the invariant, over a run.
* `Ctrk.munkres_terminates` — termination, and what makes for it.
* `Ctrk.augment_wellFormed` — every call of `augment`.
-/

namespace Ctrk

namespace Munkres

open Matching StateTransition

variable {R : Type} [Scalar R] {n : ℕ}

/-! ## The machine -/

/-- Where a run of `solve` stands. -/
inductive Control (R : Type) (n : ℕ)
  /-- At `while (!cover_star_columns())`. -/
  | cover (m : Munkres R n)
  /-- At `while (!find_uncovered_zero(zr, zc)) adjust();`. -/
  | search (m : Munkres R n)
  /-- In the loop of `augment`, with the path `pre` and then `z`. -/
  | walk (m : Munkres R n) (pre : List (Fin n × Fin n)) (z : Fin n × Fin n)
  /-- At `return star_;`. -/
  | done (m : Munkres R n)

/-- One pass of the loop a run stands at.  Besides a finished run, a walk has no next state where
`prime_in_row` answers `-1`. -/
def step : Control R n → Option (Control R n)
  | .cover m =>
    let m := m.coverStarColumns
    if m.allCovered then some (.done m) else some (.search m)
  | .search m =>
    match m.findUncoveredZero with
    | none => some (.search m.adjust)
    | some z =>
      let m := m.primeCell z
      match starInRow m.star z.1 with
      | none => some (.walk m [] z)
      | some s => some (.search (m.coverRow z.1 s))
  | .walk m pre z =>
    match starInCol m.star z.2 with
    | none => some (.cover { m with star := flip m.star (pre ++ [z]) }.clearCoversAndPrimes)
    | some r => (primeInRow m.prime r).map fun c => .walk m (pre ++ [z, (r, z.2)]) (r, c)
  | .done _ => none

/-- A run starts after `reduce` and `star_initial`. -/
def start (c₀ : Fin n → Fin n → R) : Control R n := .cover (new c₀).reduce.starInitial

/-- A number of steps in a row. -/
def steps : ℕ → Control R n → Option (Control R n)
  | 0, s => some s
  | k + 1, s => (step s).bind (steps k)

/-- The call of `augment` at the start of its walk. -/
def Control.callOf : Control R n → Option (Munkres R n × (Fin n × Fin n))
  | .walk m [] z => some (m, z)
  | _ => none

/-! ## The bounded loops run on the machine -/

/-- One step, then the rest of a run. -/
theorem reaches_head {s s' t : Control R n} (h : step s = some s') (ht : Reaches step s' t) :
    Reaches step s t :=
  Relation.ReflTransGen.head (Option.mem_def.mpr h) ht

/-- Steps in a row are a run. -/
theorem reaches_of_steps {k : ℕ} {s t : Control R n} (h : steps k s = some t) :
    Reaches step s t := by
  induction k generalizing s with
  | zero =>
    obtain rfl := Option.some.inj h
    exact .refl
  | succ k ih =>
    obtain ⟨s', hs', ht⟩ := Option.bind_eq_some_iff.mp h
    exact reaches_head hs' (ih ht)

omit [Scalar R] in
/-- A call is the state it starts in. -/
theorem eq_of_callOf {s : Control R n} {m : Munkres R n} {z : Fin n × Fin n}
    (h : s.callOf = some (m, z)) : s = .walk m [] z := by
  cases s with
  | walk m' pre z' =>
    cases pre with
    | nil =>
      obtain ⟨rfl, rfl⟩ := Prod.mk.inj (Option.some.inj h)
      rfl
    | cons w pre => exact absurd h (by simp [Control.callOf])
  | cover m' => exact absurd h (by simp [Control.callOf])
  | search m' => exact absurd h (by simp [Control.callOf])
  | done m' => exact absurd h (by simp [Control.callOf])

/-- The path loop.

**Proof sketch.** By induction on the fuel.  Each turn of the loop is one step of the machine,
which appends a starred and a primed cell to the path walked so far. -/
theorem reaches_of_path (pre : List (Fin n × Fin n)) {m : Munkres R n} {fuel : ℕ}
    {p : List (Fin n × Fin n)} {z : Fin n × Fin n} (h : path m.star m.prime fuel z = some p) :
    Reaches step (.walk m pre z)
      (.cover { m with star := flip m.star (pre ++ p) }.clearCoversAndPrimes) := by
  induction fuel generalizing pre p z with
  | zero => exact absurd h (by simp [path])
  | succ k ih =>
    rw [path] at h
    cases hc : starInCol m.star z.2 with
    | none =>
      simp only [hc, Option.some.injEq] at h
      subst h
      refine reaches_head ?_ .refl
      simp only [step, hc]
    | some r =>
      simp only [hc] at h
      cases hp : primeInRow m.prime r with
      | none => simp [hp] at h
      | some c =>
        simp only [hp] at h
        obtain ⟨q, hq, rfl⟩ := Option.map_eq_some_iff.mp h
        refine reaches_head (show step (.walk m pre z) =
          some (.walk m (pre ++ [z, (r, z.2)]) (r, c)) from ?_) ?_
        · simp only [step, hc, hp, Option.map_some]
        · have hrest := ih (pre ++ [z, (r, z.2)]) hq
          rwa [List.append_assoc, List.cons_append, List.cons_append, List.nil_append] at hrest

/-- The search loop ends where a zero is found. -/
theorem reaches_of_search {fuel : ℕ} {m m' : Munkres R n} {z : Fin n × Fin n}
    (h : search fuel m = some (m', z)) :
    Reaches step (.search m) (.search m') ∧ m'.findUncoveredZero = some z := by
  induction fuel generalizing m with
  | zero => exact absurd h (by simp [search])
  | succ k ih =>
    rw [search] at h
    cases hz : m.findUncoveredZero with
    | some w =>
      simp only [hz, Option.some.injEq, Prod.mk.injEq] at h
      obtain ⟨rfl, rfl⟩ := h
      exact ⟨.refl, hz⟩
    | none =>
      simp only [hz] at h
      obtain ⟨hrun, hfound⟩ := ih h
      refine ⟨reaches_head ?_ hrun, hfound⟩
      simp only [step, hz]

/-- The inner loop.

**Proof sketch.** By induction on the passes.  A pass searches for an uncovered zero and primes
it; then it walks the augmenting path, or covers the row and goes on. -/
theorem reaches_of_primeLoop {fuel k : ℕ} {m m' : Munkres R n}
    (h : primeLoop fuel k m = some m') : Reaches step (.search m) (.cover m') := by
  induction k generalizing m with
  | zero => exact absurd h (by simp [primeLoop])
  | succ k ih =>
    rw [primeLoop] at h
    obtain ⟨⟨m₁, z⟩, hsearch, h⟩ := Option.bind_eq_some_iff.mp h
    obtain ⟨hrun, hz⟩ := reaches_of_search hsearch
    refine hrun.trans ?_
    cases hs : starInRow (m₁.primeCell z).star z.1 with
    | none =>
      simp only [hs] at h
      obtain ⟨m₂, haug, rfl⟩ := Option.map_eq_some_iff.mp h
      obtain ⟨p, hp, rfl⟩ := Option.map_eq_some_iff.mp haug
      refine reaches_head (show step (.search m₁) = some (.walk (m₁.primeCell z) [] z) from ?_)
        (reaches_of_path [] hp)
      simp only [step, hz, hs]
    | some s =>
      simp only [hs] at h
      refine reaches_head ?_ (ih h)
      simp only [step, hz, hs]

/-- The outer loop. -/
theorem reaches_of_coverLoop {fuel k : ℕ} {m m' : Munkres R n}
    (h : coverLoop fuel k m = some m') : Reaches step (.cover m) (.done m') := by
  induction k generalizing m with
  | zero => exact absurd h (by simp [coverLoop])
  | succ k ih =>
    rw [coverLoop] at h
    split_ifs at h with hall
    · obtain rfl := Option.some.inj h
      refine reaches_head ?_ .refl
      simp only [step, if_pos hall]
    · obtain ⟨m₁, hprime, h⟩ := Option.bind_eq_some_iff.mp h
      refine reaches_head (show step (.cover m) = some (.search m.coverStarColumns) from ?_)
        ((reaches_of_primeLoop hprime).trans (ih h))
      simp only [step, if_neg hall]

/-- **Simulation.** Where the bounded loops give an answer, the machine halts with it. -/
theorem reaches_of_solve {c₀ : Fin n → Fin n → R} {fuel : ℕ} {star : Fin n → Fin n → Bool}
    (h : (new c₀).solve fuel = some star) :
    ∃ m : Munkres R n, Control.done m ∈ eval step (start c₀) ∧ m.star = star := by
  obtain ⟨m, hm, rfl⟩ := Option.map_eq_some_iff.mp h
  exact ⟨m, mem_eval.mpr ⟨reaches_of_coverLoop hm, rfl⟩, rfl⟩

/-! ## Calls of `augment` -/

/-- A call of `augment` from `z`, in a row without a star: its path `p`, and the exchange along
it. -/
structure AugmentCall (c₀ : Fin n → Fin n → R) (m : Munkres R n) (z : Fin n × Fin n)
    (p : List (Fin n × Fin n)) : Prop where
  reduced : Reduced c₀ m.c
  starred : Starred m
  free : ¬RowUsed m.star z.1
  path_eq : path m.star m.prime (n + 1) z = some p
  nodup : p.Nodup
  flipped : Starred { m with star := flip m.star p }
  rows : ∀ i, RowUsed (flip m.star p) i ↔ i = z.1 ∨ RowUsed m.star i
  cols : ∀ j, ColUsed m.star j → ColUsed (flip m.star p) j

/-- More iterations give the same path. -/
theorem path_mono {star prime : Fin n → Fin n → Bool} {fuel fuel' : ℕ} {z : Fin n × Fin n}
    {p : List (Fin n × Fin n)} (hle : fuel ≤ fuel') (h : path star prime fuel z = some p) :
    path star prime fuel' z = some p := by
  induction fuel generalizing fuel' z p with
  | zero => exact absurd h (by simp [path])
  | succ k ih =>
    obtain ⟨k', rfl⟩ : ∃ k', fuel' = k' + 1 := ⟨fuel' - 1, by omega⟩
    rw [path] at h ⊢
    cases hc : starInCol star z.2 with
    | none => simpa only [hc] using h
    | some r =>
      simp only [hc] at h ⊢
      cases hp : primeInRow prime r with
      | none => simp [hp] at h
      | some c =>
        simp only [hp] at h ⊢
        obtain ⟨q, hq, rfl⟩ := Option.map_eq_some_iff.mp h
        rw [ih (Nat.le_of_succ_le_succ hle) hq, Option.map_some]

/-- A path begins where it is started. -/
theorem exists_of_path {star prime : Fin n → Fin n → Bool} {fuel : ℕ} {z : Fin n × Fin n}
    {p : List (Fin n × Fin n)} (h : path star prime fuel z = some p) : ∃ q, p = z :: q := by
  cases fuel with
  | zero => exact absurd h (by simp [path])
  | succ k =>
    rw [path] at h
    cases hc : starInCol star z.2 with
    | none =>
      simp only [hc, Option.some.injEq] at h
      exact ⟨[], h.symm⟩
    | some r =>
      simp only [hc] at h
      cases hp : primeInRow prime r with
      | none => simp [hp] at h
      | some c =>
        simp only [hp] at h
        obtain ⟨q, -, rfl⟩ := Option.map_eq_some_iff.mp h
        exact ⟨(r, z.2) :: q, rfl⟩

/-- **No cell repeats.** Along a chain that holds the stars of column `z.2` but not row `z.1`, the
path from `z` visits each cell once, and after `z` the rows of the chain only.

**Proof sketch.** The second cell of the path lies in a row `r` of the chain, and the rest of the
path starts at the prime of `r`, in a column other than that of the star.  What follows lies in the
rows primed before `r`. -/
theorem nodup_of_path {star prime : Fin n → Fin n → Bool} {fuel : ℕ} {rs : List (Fin n)}
    {z : Fin n × Fin n} {p : List (Fin n × Fin n)} (hchain : PrimeChain star prime rs)
    (hstar : ∀ i, star i z.2 = true → i ∈ rs) (hz : z.1 ∉ rs)
    (h : path star prime fuel z = some p) : p.Nodup ∧ ∀ w ∈ p.tail, w.1 ∈ rs := by
  induction fuel generalizing rs z p with
  | zero => exact absurd h (by simp [path])
  | succ k ih =>
    rw [path] at h
    cases hc : starInCol star z.2 with
    | none =>
      simp only [hc, Option.some.injEq] at h
      subst h
      exact ⟨List.nodup_singleton z, fun w hw => absurd hw List.not_mem_nil⟩
    | some r =>
      simp only [hc] at h
      have hrz : star r z.2 = true := star_of_starInCol hc
      have hr : r ∈ rs := hstar r hrz
      obtain ⟨pre, rs', rfl⟩ := List.append_of_mem hr
      have hsub := hchain.of_append
      cases hsub with
      | @cons _ c _ fresh primed unique earlier tail =>
      simp only [primeInRow_eq_some primed unique] at h
      obtain ⟨q, hq, rfl⟩ := Option.map_eq_some_iff.mp h
      obtain ⟨hnodup, htail⟩ := ih tail earlier fresh hq
      obtain ⟨q', rfl⟩ := exists_of_path hq
      have hcol : c ≠ z.2 := by
        rintro rfl
        exact fresh (earlier r hrz)
      have hrows : ∀ w ∈ (r, z.2) :: (r, c) :: q', w.1 ∈ pre ++ r :: rs' := by
        intro w hw
        rcases List.mem_cons.mp hw with rfl | hw
        · exact hr
        · rcases List.mem_cons.mp hw with rfl | hw
          · exact hr
          · exact List.mem_append_right pre (List.mem_cons_of_mem r (htail w hw))
      refine ⟨List.nodup_cons.mpr ⟨fun hmem => hz (hrows z hmem), List.nodup_cons.mpr ⟨?_, hnodup⟩⟩,
        hrows⟩
      intro hmem
      rcases List.mem_cons.mp hmem with heq | hmem
      · exact hcol (Prod.mk.inj heq).2.symm
      · exact fresh (htail _ hmem)

/-- What `augment` leaves. -/
theorem AugmentCall.augment_eq {c₀ : Fin n → Fin n → R} {m : Munkres R n} {z : Fin n × Fin n}
    {p : List (Fin n × Fin n)} (h : AugmentCall c₀ m z p) {fuel : ℕ} (hf : n < fuel) :
    augment fuel m z = some { m with star := flip m.star p } := by
  rw [augment, path_mono hf h.path_eq, Option.map_some]

/-- `augment` adds one star. -/
theorem AugmentCall.marks_succ {c₀ : Fin n → Fin n → R} {m : Munkres R n} {z : Fin n × Fin n}
    {p : List (Fin n × Fin n)} (h : AugmentCall c₀ m z p) :
    marks (flip m.star p) = marks m.star + 1 :=
  h.starred.matching.marks_succ h.flipped.matching h.free h.rows

/-- From an uncovered zero in a row without a star, `augment` is called as it should be.

**Proof sketch.** The row of the zero is not covered, so it extends the chain of primes that the
covered rows form.  The walk along an extended chain ends within as many passes as there are
rows, and flipping it gives one star more. -/
theorem augmentCall_of_covering {c₀ : Fin n → Fin n → R} {m : Munkres R n} {rows : List (Fin n)}
    (hR : Reduced c₀ m.c) (hS : Starred m) (hC : Covering m rows) {z : Fin n × Fin n}
    (hj : m.colCov z.2 = false) (hz : isZero (m.c z.1 z.2) = true) (hfree : ¬RowUsed m.star z.1) :
    ∃ p, AugmentCall c₀ (m.primeCell z) z p := by
  have hfresh : z.1 ∉ rows := fun h => hfree (hC.used _ h)
  have hmem : ∀ i, m.star i z.2 = true → i ∈ rows := by
    intro i hi
    by_contra h
    have := (hC.star_col i z.2 hi).mpr h
    simp [hj] at this
  have hchain := hC.chain.prime_cell hfresh z.2
  have hlen := hC.chain.nodup.length_le_card
  rw [Fintype.card_fin] at hlen
  obtain ⟨p, hp, hM, hrow, hcol, hcell⟩ := path_flip (n + 1) rows z m.star (by omega) hchain hchain
    (fun _ _ _ _ _ => rfl) (fun _ => rfl) hmem hS.matching hfree
  refine ⟨p, hR, ⟨hS.matching, hS.zero⟩, hfree, hp, (nodup_of_path hchain hmem hfresh hp).1,
    ⟨hM, fun i j h => ?_⟩, hrow, hcol⟩
  rcases hcell i j h with h | h | ⟨-, h⟩
  · exact hS.zero i j h
  · obtain ⟨rfl, rfl⟩ := Prod.mk.inj h
    exact hz
  · rcases setCell_true_iff.mp h with ⟨rfl, rfl⟩ | h
    · exact hz
    · exact hC.prime_zero i j h

/-! ## The invariant -/

/-- What holds where a run stands. -/
def Sound (c₀ : Fin n → Fin n → R) : Control R n → Prop
  | .cover m => Reduced c₀ m.c ∧ Starred m ∧ (∀ i, m.rowCov i = false) ∧ ∀ i j, m.prime i j = false
  | .search m =>
    Reduced c₀ m.c ∧ Starred m ∧ (∃ rows, Covering m rows) ∧ ¬∀ j, ColUsed m.star j
  | .walk m pre z =>
    ∃ z₀ p q fuel, AugmentCall c₀ m z₀ p ∧ path m.star m.prime fuel z = some q ∧ p = pre ++ q
  | .done m => Reduced c₀ m.c ∧ Starred m ∧ ∀ j, ColUsed m.star j

section Run

variable [IsStrictOrderedRing R] {c₀ : Fin n → Fin n → R}

/-- A run starts sound. -/
theorem sound_start (c₀ : Fin n → Fin n → R) : Sound c₀ (start c₀) :=
  ⟨reduce_reduced (new c₀), starInitial_starred fun _ _ => rfl, fun _ => rfl, fun _ _ => rfl⟩

/-- Every step keeps a run sound.

**Proof sketch.** By cases on the control point.  Covering starts an empty chain.  A search that
finds no zero adjusts the costs by the least uncovered entry, which keeps the invariant; one that
finds a zero extends the chain, or calls `augment` as it should be called.  A step of the walk is
a step of `path`, whose remaining fuel is one less. -/
theorem Sound.step {s s' : Control R n} (hs : Sound c₀ s) (h : Munkres.step s = some s') :
    Sound c₀ s' := by
  cases s with
  | cover m =>
    obtain ⟨hR, hS, hrow, hprime⟩ := hs
    simp only [Munkres.step] at h
    split_ifs at h with hall
    · obtain rfl := Option.some.inj h
      exact ⟨hR, ⟨hS.matching, hS.zero⟩, allCovered_iff.mp hall⟩
    · obtain rfl := Option.some.inj h
      exact ⟨hR, ⟨hS.matching, hS.zero⟩, ⟨[], coverStarColumns_covering hrow hprime⟩,
        fun hused => hall (allCovered_iff.mpr hused)⟩
  | search m =>
    obtain ⟨hR, hS, ⟨rows, hC⟩, hopen⟩ := hs
    simp only [Munkres.step] at h
    cases hz : m.findUncoveredZero with
    | none =>
      simp only [hz, Option.some.injEq] at h
      subst h
      obtain ⟨i, j, -, hi, hj⟩ := exists_uncovered hS hC hopen
      obtain ⟨hS', hC'⟩ := adjust_covering hS hC
      exact ⟨adjust_reduced hR hi hj, hS', ⟨rows, hC'⟩, hopen⟩
    | some z =>
      obtain ⟨hzr, hzc, hz0⟩ := findUncoveredZero_some hz
      simp only [hz] at h
      cases hstar : starInRow (m.primeCell z).star z.1 with
      | none =>
        simp only [hstar, Option.some.injEq] at h
        subst h
        obtain ⟨p, hcall⟩ :=
          augmentCall_of_covering hR hS hC hzc hz0 (starInRow_eq_none_iff.mp hstar)
        exact ⟨z, p, p, n + 1, hcall, hcall.path_eq, rfl⟩
      | some j =>
        simp only [hstar, Option.some.injEq] at h
        subst h
        exact ⟨hR, ⟨hS.matching, hS.zero⟩,
          ⟨z.1 :: rows, hC.cons hS hzr hzc hz0 (star_of_starInRow hstar)⟩, hopen⟩
  | walk m pre z =>
    obtain ⟨z₀, p, q, fuel, hcall, hq, rfl⟩ := hs
    simp only [Munkres.step] at h
    cases fuel with
    | zero => exact absurd hq (by simp [path])
    | succ k =>
      rw [path] at hq
      cases hc : starInCol m.star z.2 with
      | none =>
        simp only [hc, Option.some.injEq] at hq h
        subst hq h
        exact ⟨hcall.reduced, ⟨hcall.flipped.matching, hcall.flipped.zero⟩, fun _ => rfl,
          fun _ _ => rfl⟩
      | some r =>
        simp only [hc] at hq h
        cases hp : primeInRow m.prime r with
        | none => simp [hp] at h
        | some c =>
          simp only [hp, Option.map_some, Option.some.injEq] at hq h
          subst h
          obtain ⟨q', hq', rfl⟩ := Option.map_eq_some_iff.mp hq
          exact ⟨z₀, _, q', k, hcall, hq', by simp⟩
  | done m => exact absurd h (by simp [Munkres.step])

/-- Every state a run reaches is sound. -/
theorem sound_of_reaches {s : Control R n} (h : Reaches Munkres.step (start c₀) s) :
    Sound c₀ s := by
  induction h with
  | refl => exact sound_start c₀
  | tail _ hstep ih => exact ih.step (Option.mem_def.mp hstep)

/-- Whenever a run calls `augment`, the call is as it should be. -/
theorem augmentCall_of_reaches {m : Munkres R n} {z : Fin n × Fin n}
    (h : Reaches Munkres.step (start c₀) (.walk m [] z)) : ∃ p, AugmentCall c₀ m z p := by
  obtain ⟨z₀, p, q, fuel, hcall, hq, rfl⟩ := sound_of_reaches h
  obtain ⟨t, ht⟩ := exists_of_path hcall.path_eq
  obtain ⟨t', ht'⟩ := exists_of_path hq
  have hz : z₀ = z := by
    rw [ht'] at ht
    exact (List.cons.inj ht).1.symm
  exact ⟨_, hz ▸ hcall⟩

/-- Where a run walks, the walk goes on unless the column has no star, and no cell repeats. -/
theorem walk_of_reaches {m : Munkres R n} {pre : List (Fin n × Fin n)} {w : Fin n × Fin n}
    (h : Reaches Munkres.step (start c₀) (.walk m pre w)) : (pre ++ [w]).Nodup ∧
      ∀ r, starInCol m.star w.2 = some r → ∃ c, primeInRow m.prime r = some c := by
  obtain ⟨z₀, p, q, fuel, hcall, hq, rfl⟩ := sound_of_reaches h
  obtain ⟨t, rfl⟩ := exists_of_path hq
  constructor
  · have hnodup := hcall.nodup
    rw [← List.singleton_append, ← List.append_assoc] at hnodup
    exact hnodup.of_append_left
  · intro r hr
    cases fuel with
    | zero => exact absurd hq (by simp [path])
    | succ k =>
      rw [path, hr] at hq
      cases hp : primeInRow m.prime r with
      | none => simp [hp] at hq
      | some c => exact ⟨c, rfl⟩

end Run

/-! ## Main results -/

/-- The number of covered rows. -/
def coveredRows (m : Munkres R n) : ℕ := (Finset.univ.filter fun i => m.rowCov i = true).card

omit [Scalar R] in
/-- Covering a row adds it to the covered ones. -/
theorem coveredRows_coverRow {m : Munkres R n} {i : Fin n} (hi : m.rowCov i = false) (j : Fin n) :
    (m.coverRow i j).coveredRows = m.coveredRows + 1 := by
  have hrows : (Finset.univ.filter fun a => (m.coverRow i j).rowCov a = true) =
      insert i (Finset.univ.filter fun a => m.rowCov a = true) := by
    ext a
    rw [Finset.mem_insert, Finset.mem_filter, Finset.mem_filter]
    by_cases h : a = i <;> simp [coverRow, h]
  rw [coveredRows, hrows, Finset.card_insert_of_notMem (by simp [hi]), coveredRows]

end Munkres

open Munkres Matching StateTransition

variable {R : Type} [Scalar R] [IsStrictOrderedRing R]

/-- **Augmenting paths are well formed.** Whenever a run of `solve` calls `augment`: at every
starred column the walk reaches, the row of the star has a prime; no cell repeats; the walk ends,
within `n + 1` passes; and afterwards the stars are at most one for each row and column, one more
than before, all on zeros, and no row and no column has lost its star.

**Proof sketch.** Soundness is kept by every step, so any call of `augment` in a run is from an
uncovered zero at the end of a chain of primes.  Along such a chain the walk is defined at every
star, does not repeat a cell and ends; flipping it exchanges primes for stars. -/
theorem augment_wellFormed {n : ℕ} (c₀ : Fin n → Fin n → R) {m : Munkres R n} {z : Fin n × Fin n}
    (hcall : Reaches step (start c₀) (.walk m [] z)) :
    (∀ pre w, Reaches step (.walk m [] z) (.walk m pre w) → (pre ++ [w]).Nodup ∧
      ∀ r, starInCol m.star w.2 = some r → ∃ c, primeInRow m.prime r = some c) ∧
    ∃ m', (∀ fuel, n < fuel → augment fuel m z = some m') ∧
      Reaches step (.walk m [] z) (.cover m'.clearCoversAndPrimes) ∧
      IsMatching m'.star ∧ marks m'.star = marks m.star + 1 ∧
      (∀ i j, m'.star i j = true → |m'.c i j| < kZeroEps) ∧
      (∀ i, RowUsed m.star i → RowUsed m'.star i) ∧
      ∀ j, ColUsed m.star j → ColUsed m'.star j := by
  obtain ⟨p, h⟩ := augmentCall_of_reaches hcall
  refine ⟨fun pre w hw => walk_of_reaches (hcall.trans hw), { m with star := flip m.star p },
    fun fuel hf => h.augment_eq hf, ?_, h.flipped.matching, h.marks_succ, fun i j hij => ?_,
    fun i hi => (h.rows i).mpr (Or.inr hi), h.cols⟩
  · have hrun := reaches_of_path [] h.path_eq
    rwa [List.nil_append] at hrun
  · have hzero := h.flipped.zero i j hij
    rwa [isZero, decide_eq_true_eq] at hzero

/-- A matrix on which the first zeros starred leave a row without a star. -/
def crossed : Fin 2 → Fin 2 → ℚ
  | 0, _ => 0
  | 1, 0 => 0
  | 1, 1 => 5

theorem augment_wellFormed_crossed : ∃ (m : Munkres ℚ 2) (z : Fin 2 × Fin 2),
    Reaches step (start crossed) (.walk m [] z) ∧
    ∃ m', (∀ fuel, 2 < fuel → augment fuel m z = some m') ∧
      marks m'.star = marks m.star + 1 := by
  obtain ⟨⟨m, z⟩, hcall⟩ := Option.isSome_iff_exists.mp
    (show ((steps 3 (start crossed)).bind Control.callOf).isSome = true by decide +kernel)
  obtain ⟨s, hs, hcall⟩ := Option.bind_eq_some_iff.mp hcall
  have hrun : Reaches step (start crossed) (.walk m [] z) :=
    eq_of_callOf hcall ▸ reaches_of_steps hs
  obtain ⟨-, m', haug, -, -, hmarks, -⟩ := augment_wellFormed crossed hrun
  exact ⟨m, z, hrun, m', haug, hmarks⟩

/-- **Munkres terminates.** On every non-empty matrix `solve` halts, with the stars the answer is
read from.  In every run: where `adjust` is called, some cell is uncovered and afterwards some
uncovered cell is a zero; a pass of the inner loop that does not augment covers one row more; and
`augment` adds one star, up to one for each row.

**Proof sketch.** The bounded loops end within their bounds (`solve_spec`), and the machine runs
where they do.  The rest is the invariant: while some column has no star, some cell is uncovered
(`exists_uncovered`), and `adjust` makes the least of the uncovered costs zero. -/
theorem munkres_terminates {rows cols : ℕ} (hr : rows ≠ 0) (hc : cols ≠ 0)
    (cost : Fin rows → Fin cols → R) :
    (∃ m : Munkres R (max rows cols), Control.done m ∈ eval step (start (padded cost)) ∧
      munkresSolve cost = rowToCol m.star) ∧
    (∀ m, Reaches step (start (padded cost)) (.search m) → m.findUncoveredZero = none →
      (∃ i j, m.rowCov i = false ∧ m.colCov j = false) ∧
        ∃ z, m.adjust.findUncoveredZero = some z) ∧
    (∀ m m', Reaches step (start (padded cost)) (.search m) → m.findUncoveredZero ≠ none →
      step (.search m) = some (.search m') → m'.coveredRows = m.coveredRows + 1) ∧
    ∀ m z, Reaches step (start (padded cost)) (.walk m [] z) →
      ∃ m', augment (max rows cols + 1) m z = some m' ∧
        Reaches step (.walk m [] z) (.cover m'.clearCoversAndPrimes) ∧
        marks m'.star = marks m.star + 1 ∧ marks m'.star ≤ max rows cols := by
  refine ⟨?_, ?_, ?_, ?_⟩
  · obtain ⟨star, hsolve, -⟩ := solve_spec (padded cost)
    obtain ⟨m, hhalt, rfl⟩ := reaches_of_solve hsolve
    refine ⟨m, hhalt, ?_⟩
    rw [munkresSolve, if_neg (by tauto), hsolve]
  · intro m hm hnone
    obtain ⟨-, hS, ⟨rows, hC⟩, hopen⟩ := sound_of_reaches hm
    obtain ⟨i, j, -, hi, hj⟩ := exists_uncovered hS hC hopen
    exact ⟨⟨i, j, hi, hj⟩, Option.ne_none_iff_exists'.mp (findUncoveredZero_adjust hi hj)⟩
  · intro m m' hm hsome hstep
    obtain ⟨z, hz⟩ := Option.ne_none_iff_exists'.mp hsome
    have hrow : (m.primeCell z).rowCov z.1 = false := (findUncoveredZero_some hz).1
    simp only [step, hz] at hstep
    cases hstar : starInRow (m.primeCell z).star z.1 with
    | none => simp [hstar] at hstep
    | some s =>
      simp only [hstar, Option.some.injEq, Control.search.injEq] at hstep
      rw [← hstep]
      exact coveredRows_coverRow hrow s
  · intro m z hm
    obtain ⟨p, h⟩ := augmentCall_of_reaches hm
    have hrun := reaches_of_path [] h.path_eq
    rw [List.nil_append] at hrun
    have hle := h.flipped.matching.marks_le
    rw [Fintype.card_fin] at hle
    exact ⟨_, h.augment_eq (Nat.lt_succ_self _), hrun, h.marks_succ, hle⟩

/-- A `2 × 3` matrix with negative costs and ties. -/
theorem munkres_terminates_rect :
    let cost : Fin 2 → Fin 3 → ℚ := fun i j => (i.val * j.val : ℚ) - 1
    ∃ m : Munkres ℚ 3, Control.done m ∈ eval step (start (padded cost)) ∧
      munkresSolve cost = rowToCol m.star :=
  (munkres_terminates (by decide : 2 ≠ 0) (by decide : 3 ≠ 0) _).1

end Ctrk
