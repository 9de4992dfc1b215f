import Mathlib

set_option relaxedAutoImplicit false
set_option autoImplicit false

/-!
# Operations under one lock

A monitor is a state that threads only touch while they hold its lock.  An operation takes the lock,
then changes the state in several small steps, and other threads may run between any two of them;
they cannot get the lock.  Whatever the interleaving, the state is the one that the operations reach
when each is performed at once, in the order in which they took the lock.

## Main definitions

* `Monitor.State`, `Monitor.acquire`, `Monitor.advance`, `Monitor.release` — the lock.
* `Monitor.perform` — an operation performed at once.
* `Monitor.finish` — the state once the holder of the lock is through.

## Main results

* `Monitor.finish_run` — the concurrent operations are the sequential ones in lock order.
* `Monitor.le_finish` — what the small steps only let grow has not grown past the sequential state.
-/

namespace Monitor

variable {ι σ ω : Type}

/-- The shared state, and the holder of the lock with the small steps it has yet to take. -/
structure State (ι σ : Type) where
  shared : σ
  held : Option (ι × List (σ → σ))

/-- What the threads do at the lock. -/
inductive Event (ι ω : Type) where
  | acquire (t : ι) (o : ω)
  | advance (t : ι)
  | release (t : ι)

/-- The operation for which the lock is taken. -/
def Event.op? : Event ι ω → Option ω
  | .acquire _ o => some o
  | .advance _ => none
  | .release _ => none

/-- Take small steps one after another. -/
def runAll (steps : List (σ → σ)) (s : σ) : σ := steps.foldl (fun s f => f s) s

@[simp] theorem runAll_nil (s : σ) : runAll [] s = s := rfl

@[simp] theorem runAll_cons (f : σ → σ) (steps : List (σ → σ)) (s : σ) :
    runAll (f :: steps) s = runAll steps (f s) := rfl

theorem runAll_append (steps steps' : List (σ → σ)) (s : σ) :
    runAll (steps ++ steps') s = runAll steps' (runAll steps s) := List.foldl_append

/-- An operation performed at once. -/
def perform (body : ω → σ → List (σ → σ)) (s : σ) (o : ω) : σ := runAll (body o s) s

/-- Take the lock; only possible when nobody holds it. -/
def acquire (body : ω → σ → List (σ → σ)) (t : ι) (o : ω) (s : State ι σ) : Option (State ι σ) :=
  match s.held with
  | none => some ⟨s.shared, some (t, body o s.shared)⟩
  | some _ => none

/-- The holder takes its next small step. -/
def advance [DecidableEq ι] (t : ι) (s : State ι σ) : Option (State ι σ) :=
  match s.held with
  | some (t', f :: steps) => if t' = t then some ⟨f s.shared, some (t', steps)⟩ else none
  | _ => none

/-- The holder, through with its steps, gives the lock back. -/
def release [DecidableEq ι] (t : ι) (s : State ι σ) : Option (State ι σ) :=
  match s.held with
  | some (t', []) => if t' = t then some ⟨s.shared, none⟩ else none
  | _ => none

/-- One event at the lock. -/
def step [DecidableEq ι] (body : ω → σ → List (σ → σ)) (s : State ι σ) :
    Event ι ω → Option (State ι σ)
  | .acquire t o => acquire body t o s
  | .advance t => advance t s
  | .release t => release t s

/-- The events of a run in turn; none when one of them is impossible. -/
def run [DecidableEq ι] (body : ω → σ → List (σ → σ)) (s : State ι σ) (es : List (Event ι ω)) :
    Option (State ι σ) :=
  es.foldlM (step body) s

theorem run_singleton [DecidableEq ι] {body : ω → σ → List (σ → σ)} {s s' : State ι σ}
    {e : Event ι ω} (h : step body s e = some s') : run body s [e] = some s' := by
  rw [run, List.foldlM_cons, Option.bind_eq_bind, h]
  rfl

theorem run_append [DecidableEq ι] {body : ω → σ → List (σ → σ)} {s s₁ s₂ : State ι σ}
    {es es' : List (Event ι ω)} (h : run body s es = some s₁) (h' : run body s₁ es' = some s₂) :
    run body s (es ++ es') = some s₂ := by
  rw [run, List.foldlM_append, Option.bind_eq_bind]
  rw [run] at h
  rw [h, Option.bind_some]
  exact h'

/-- The state once the holder of the lock is through. -/
def finish (s : State ι σ) : σ :=
  match s.held with
  | none => s.shared
  | some (_, steps) => runAll steps s.shared

theorem finish_of_free {s : State ι σ} (h : s.held = none) : finish s = s.shared := by
  rw [finish, h]

/-! ## What an event does -/

theorem acquire_eq_some {body : ω → σ → List (σ → σ)} {s s' : State ι σ} {t : ι} {o : ω} :
    acquire body t o s = some s' ↔ s.held = none ∧ ⟨s.shared, some (t, body o s.shared)⟩ = s' := by
  rw [acquire]
  split <;> simp_all

theorem advance_eq_some [DecidableEq ι] {s s' : State ι σ} {t : ι} :
    advance t s = some s' ↔
      ∃ f steps, s.held = some (t, f :: steps) ∧ ⟨f s.shared, some (t, steps)⟩ = s' := by
  constructor
  · intro h
    rw [advance] at h
    split at h
    · rename_i t' f steps hheld
      rw [Option.ite_none_right_eq_some] at h
      obtain ⟨rfl, h⟩ := h
      exact ⟨f, steps, hheld, Option.some.inj h⟩
    · cases h
  · intro h
    obtain ⟨f, steps, hheld, rfl⟩ := h
    simp only [advance, hheld, if_true]

theorem release_eq_some [DecidableEq ι] {s s' : State ι σ} {t : ι} :
    release t s = some s' ↔ s.held = some (t, []) ∧ ⟨s.shared, none⟩ = s' := by
  constructor
  · intro h
    rw [release] at h
    split at h
    · rename_i t' hheld
      rw [Option.ite_none_right_eq_some] at h
      obtain ⟨rfl, h⟩ := h
      exact ⟨hheld, Option.some.inj h⟩
    · cases h
  · intro h
    obtain ⟨hheld, rfl⟩ := h
    simp only [release, hheld, if_true]

/-! ## The order of the operations -/

/-- The lock is taken: the state to come is the one after the whole operation. -/
theorem finish_acquire {body : ω → σ → List (σ → σ)} {s s' : State ι σ} {t : ι} {o : ω}
    (h : acquire body t o s = some s') : finish s' = perform body (finish s) o := by
  obtain ⟨hfree, rfl⟩ := acquire_eq_some.mp h
  rw [finish_of_free hfree]
  rfl

section Sequential

variable [DecidableEq ι] {body : ω → σ → List (σ → σ)} {s s' : State ι σ} {t : ι}

/-- A small step brings the holder closer to the same state. -/
theorem finish_advance (h : advance t s = some s') : finish s' = finish s := by
  obtain ⟨f, steps, hheld, rfl⟩ := advance_eq_some.mp h
  rw [finish, finish, hheld]
  rfl

theorem finish_release (h : release t s = some s') : finish s' = finish s := by
  obtain ⟨hheld, rfl⟩ := release_eq_some.mp h
  rw [finish, finish, hheld]
  rfl

/-- One event performs its operation, if it has one. -/
theorem finish_step {e : Event ι ω} (h : step body s e = some s') :
    finish s' = (e.op?.toList).foldl (perform body) (finish s) := by
  cases e with
  | acquire t o => exact finish_acquire h
  | advance t => exact finish_advance h
  | release t => exact finish_release h

/-- However the threads interleave, the state is that of the operations performed one after
another, in the order in which they took the lock. -/
theorem finish_run {es : List (Event ι ω)} (h : run body s es = some s') :
    finish s' = (es.filterMap Event.op?).foldl (perform body) (finish s) := by
  induction es generalizing s with
  | nil =>
    obtain rfl := Option.some.inj h
    rfl
  | cons e es ih =>
    rw [run, List.foldlM_cons, Option.bind_eq_bind, Option.bind_eq_some_iff] at h
    obtain ⟨s₁, hstep, hrun⟩ := h
    rw [ih hrun, finish_step hstep, ← List.foldl_append]
    congr 1
    cases hop : e.op? with
    | none => rw [List.filterMap_cons_none hop]; rfl
    | some o => rw [List.filterMap_cons_some hop]; rfl

end Sequential

/-! ## What the small steps let grow -/

/-- Every small step that is left makes the state grow. -/
def Grows (r : σ → σ → Prop) (s : State ι σ) : Prop :=
  ∀ t steps, s.held = some (t, steps) → ∀ f ∈ steps, ∀ x, r x (f x)

theorem rel_runAll {r : σ → σ → Prop} (hrefl : ∀ x, r x x)
    (htrans : ∀ x y z, r x y → r y z → r x z) {steps : List (σ → σ)}
    (h : ∀ f ∈ steps, ∀ x, r x (f x)) (s : σ) : r s (runAll steps s) := by
  induction steps generalizing s with
  | nil => exact hrefl s
  | cons f steps ih =>
    have hfirst := h f List.mem_cons_self s
    have hrest := ih (fun g hg => h g (List.mem_cons_of_mem f hg)) (f s)
    exact htrans _ _ _ hfirst hrest

/-- The state has not grown past the one that the holder will leave. -/
theorem le_finish {r : σ → σ → Prop} (hrefl : ∀ x, r x x)
    (htrans : ∀ x y z, r x y → r y z → r x z) {s : State ι σ} (h : Grows r s) :
    r s.shared (finish s) := by
  rw [finish]
  split
  · exact hrefl _
  · rename_i t steps hheld
    exact rel_runAll hrefl htrans (h t steps hheld) s.shared

section GrowsRun

variable [DecidableEq ι] {body : ω → σ → List (σ → σ)} {r : σ → σ → Prop} {s s' : State ι σ}

theorem Grows.step (hbody : ∀ o x, ∀ f ∈ body o x, ∀ y, r y (f y)) (hs : Grows r s)
    {e : Event ι ω} (h : step body s e = some s') : Grows r s' := by
  intro t steps hheld
  cases e with
  | acquire t' o =>
    obtain ⟨-, rfl⟩ := acquire_eq_some.mp h
    obtain ⟨rfl, rfl⟩ := Prod.mk.inj (Option.some.inj hheld)
    exact hbody o s.shared
  | advance t' =>
    obtain ⟨f, rest, hold, rfl⟩ := advance_eq_some.mp h
    obtain ⟨rfl, rfl⟩ := Prod.mk.inj (Option.some.inj hheld)
    exact fun g hg => hs t' (f :: rest) hold g (List.mem_cons_of_mem f hg)
  | release t' =>
    obtain ⟨-, rfl⟩ := release_eq_some.mp h
    cases hheld

/-- When the operations are made of growing steps, what is left at the lock always is. -/
theorem Grows.run (hbody : ∀ o x, ∀ f ∈ body o x, ∀ y, r y (f y)) (hs : Grows r s)
    {es : List (Event ι ω)} (h : run body s es = some s') : Grows r s' := by
  induction es generalizing s with
  | nil =>
    obtain rfl := Option.some.inj h
    exact hs
  | cons e es ih =>
    rw [Monitor.run, List.foldlM_cons, Option.bind_eq_bind, Option.bind_eq_some_iff] at h
    obtain ⟨s₁, hstep, hrun⟩ := h
    exact ih (hs.step hbody hstep) hrun

end GrowsRun

end Monitor
