import Mathlib

set_option relaxedAutoImplicit false
set_option autoImplicit false

/-!
# Event traces of a machine

A machine executes operations; each either fails or produces one event and a new state.  A run
collects the events.  Facts about whole runs are proved with an invariant that relates the state to
the events so far, and facts about single events by splitting a run at the event.

## Main definitions

* `Trace.run` — the events of a list of operations, and the final state.
* `Trace.Since` — a marked event happened, and nothing has cleared it since.

## Main results

* `Trace.run_induction` — an invariant of state and history.
* `Trace.run_prefix`, `Trace.run_split`, `Trace.run_at` — a prefix of a trace is a trace, and the
  state before an event.
* `Trace.run_agree` — related states that take agreeing steps have agreeing runs.
* `Trace.run_foldlM` — a run is simulated by a fold that takes matching steps.
* `Trace.since_append_singleton` — one more event.
* `Trace.exists_last`, `Trace.split_first_unique` — the last and the first event of a kind.
-/

namespace Trace

variable {S O E : Type}

/-- Execute the operations in turn, collecting the events; none when one of them fails. -/
def run (step : S → O → Option (E × S)) (s : S) : List O → Option (List E × S)
  | [] => some ([], s)
  | op :: ops => (step s op).bind fun p => (run step p.2 ops).map fun q => (p.1 :: q.1, q.2)

section Run

variable {step : S → O → Option (E × S)}

/-- A nonempty run starts with a step. -/
theorem run_cons_eq_some {s s' : S} {op : O} {ops : List O} {evs : List E} :
    run step s (op :: ops) = some (evs, s') ↔
      ∃ e s₁ es, step s op = some (e, s₁) ∧ run step s₁ ops = some (es, s') ∧ evs = e :: es := by
  rw [run, Option.bind_eq_some_iff]
  constructor
  · intro h
    obtain ⟨⟨e, s₁⟩, hstep, h⟩ := h
    rw [Option.map_eq_some_iff] at h
    obtain ⟨⟨es, s₂⟩, hrun, heq⟩ := h
    obtain ⟨rfl, rfl⟩ := Prod.mk.inj heq
    exact ⟨e, s₁, es, hstep, hrun, rfl⟩
  · intro h
    obtain ⟨e, s₁, es, hstep, hrun, rfl⟩ := h
    exact ⟨(e, s₁), hstep, by rw [hrun]; rfl⟩

/-- A run of one more operation takes one more step.

**Proof sketch.** By induction on the operations; each case takes the first step off and puts it
back. -/
theorem run_append_singleton {s s' : S} {ops : List O} {op : O} {evs : List E} :
    run step s (ops ++ [op]) = some (evs, s') ↔
      ∃ pre e s₁, run step s ops = some (pre, s₁) ∧ step s₁ op = some (e, s') ∧
        evs = pre ++ [e] := by
  induction ops generalizing s evs with
  | nil =>
    rw [List.nil_append, run_cons_eq_some]
    constructor
    · intro h
      obtain ⟨e, s₁, es, hstep, hrun, rfl⟩ := h
      obtain ⟨rfl, rfl⟩ := Prod.mk.inj (Option.some.inj hrun)
      exact ⟨[], e, s, rfl, hstep, rfl⟩
    · intro h
      obtain ⟨pre, e, s₁, hrun, hstep, rfl⟩ := h
      obtain ⟨rfl, rfl⟩ := Prod.mk.inj (Option.some.inj hrun)
      exact ⟨e, s', [], hstep, rfl, rfl⟩
  | cons op' ops ih =>
    rw [List.cons_append, run_cons_eq_some]
    constructor
    · intro h
      obtain ⟨e', s₁, es, hstep', hrun, rfl⟩ := h
      obtain ⟨pre, e, s₂, hpre, hstep, rfl⟩ := ih.mp hrun
      exact ⟨e' :: pre, e, s₂, run_cons_eq_some.mpr ⟨e', s₁, pre, hstep', hpre, rfl⟩, hstep, rfl⟩
    · intro h
      obtain ⟨pre, e, s₂, hpre, hstep, rfl⟩ := h
      obtain ⟨e', s₁, es, hstep', hrun, rfl⟩ := run_cons_eq_some.mp hpre
      exact ⟨e', s₁, es ++ [e], hstep', ih.mpr ⟨es, e, s₂, hrun, hstep, rfl⟩, rfl⟩

/-- What holds at the start and is preserved by every step, for the events so far and the state,
holds after every run. -/
theorem run_induction {P : List E → S → Prop} {s : S} (h0 : P [] s)
    (hstep : ∀ evs s₁ op e s₂, P evs s₁ → step s₁ op = some (e, s₂) → P (evs ++ [e]) s₂)
    {ops : List O} {evs : List E} {s' : S} (h : run step s ops = some (evs, s')) : P evs s' := by
  suffices hgen : ∀ (ops : List O) (acc evs : List E) (s : S), P acc s →
      run step s ops = some (evs, s') → P (acc ++ evs) s' from hgen ops [] evs s h0 h
  intro ops
  induction ops with
  | nil =>
    intro acc evs s hacc h
    obtain ⟨rfl, rfl⟩ := Prod.mk.inj (Option.some.inj h)
    rwa [List.append_nil]
  | cons op ops ih =>
    intro acc evs s hacc h
    obtain ⟨e, s₁, es, hs, hrun, rfl⟩ := run_cons_eq_some.mp h
    have hnext := ih (acc ++ [e]) es s₁ (hstep acc s op e s₁ hacc hs) hrun
    rwa [List.append_assoc] at hnext

/-- A prefix of a trace is the trace of a prefix of the operations. -/
theorem run_prefix {s s' : S} {ops : List O} {pre post : List E}
    (h : run step s ops = some (pre ++ post, s')) :
    ∃ ops₁ s₁, run step s ops₁ = some (pre, s₁) := by
  induction pre generalizing s ops with
  | nil => exact ⟨[], s, rfl⟩
  | cons e pre ih =>
    cases ops with
    | nil => exact absurd (congrArg Prod.fst (Option.some.inj h)) (by simp)
    | cons op ops =>
      obtain ⟨e', s₁, es, hs, hrun, heq⟩ := run_cons_eq_some.mp h
      obtain ⟨rfl, rfl⟩ := List.cons.inj heq
      obtain ⟨ops₁, s₂, h₁⟩ := ih hrun
      exact ⟨op :: ops₁, s₂, run_cons_eq_some.mpr ⟨e, s₁, pre, hs, h₁, rfl⟩⟩

/-- Every event of a trace was produced by a step from a state reached before, at an operation.

**Proof sketch.** By induction on the events before the chosen one, taking one operation off the
run for each. -/
theorem run_split_ops {s s' : S} {ops : List O} {pre post : List E} {e : E}
    (h : run step s ops = some (pre ++ e :: post, s')) :
    ∃ ops₁ op ops₂ s₁ s₂, ops = ops₁ ++ op :: ops₂ ∧ run step s ops₁ = some (pre, s₁) ∧
      step s₁ op = some (e, s₂) := by
  induction pre generalizing s ops with
  | nil =>
    cases ops with
    | nil => exact absurd (congrArg Prod.fst (Option.some.inj h)) (by simp)
    | cons op ops =>
      obtain ⟨e', s₁, es, hs, -, heq⟩ := run_cons_eq_some.mp h
      obtain ⟨rfl, -⟩ := List.cons.inj heq
      exact ⟨[], op, ops, s, s₁, rfl, rfl, hs⟩
  | cons a pre ih =>
    cases ops with
    | nil => exact absurd (congrArg Prod.fst (Option.some.inj h)) (by simp)
    | cons op ops =>
      obtain ⟨e', s₁, es, hs, hrun, heq⟩ := run_cons_eq_some.mp h
      obtain ⟨rfl, rfl⟩ := List.cons.inj heq
      obtain ⟨ops₁, op', ops₂, s₂, s₃, rfl, h₁, h₂⟩ := ih hrun
      exact ⟨op :: ops₁, op', ops₂, s₂, s₃, rfl,
        run_cons_eq_some.mpr ⟨a, s₁, pre, hs, h₁, rfl⟩, h₂⟩

/-- Every event of a trace was produced by a step from a state reached before. -/
theorem run_split {s s' : S} {ops : List O} {pre post : List E} {e : E}
    (h : run step s ops = some (pre ++ e :: post, s')) :
    ∃ ops₁ op s₁ s₂, run step s ops₁ = some (pre, s₁) ∧ step s₁ op = some (e, s₂) := by
  obtain ⟨ops₁, op, -, s₁, s₂, -, hpre, hstep⟩ := run_split_ops h
  exact ⟨ops₁, op, s₁, s₂, hpre, hstep⟩

/-- A run goes on after any of its operations. -/
theorem run_at {s s₁ s' : S} {ops₁ ops₂ : List O} {op : O} {pre evs : List E}
    (h : run step s (ops₁ ++ op :: ops₂) = some (evs, s'))
    (hpre : run step s ops₁ = some (pre, s₁)) :
    ∃ e s₂ post, step s₁ op = some (e, s₂) ∧ evs = pre ++ e :: post := by
  induction ops₁ generalizing s pre evs with
  | nil =>
    obtain ⟨rfl, rfl⟩ := Prod.mk.inj (Option.some.inj hpre)
    obtain ⟨e, s₂, post, hs, -, rfl⟩ := run_cons_eq_some.mp h
    exact ⟨e, s₂, post, hs, rfl⟩
  | cons op' ops₁ ih =>
    obtain ⟨a, s₂, es, hs, hrun, rfl⟩ := run_cons_eq_some.mp hpre
    obtain ⟨a', s₂', es', hs', hrun', rfl⟩ := run_cons_eq_some.mp h
    obtain ⟨rfl, rfl⟩ := Prod.mk.inj (Option.some.inj (hs.symm.trans hs'))
    obtain ⟨e, s₃, post, hstep, rfl⟩ := ih hrun' hrun
    exact ⟨e, s₃, post, hstep, rfl⟩

end Run

/-! ## Two runs -/

/-- Both results fail, or both have the same event and related states. -/
def Agree {A : Type} (Rel : S → S → Prop) : Option (A × S) → Option (A × S) → Prop :=
  Option.Rel fun p q => p.1 = q.1 ∧ Rel p.2 q.2

/-- Results that agree have the same events. -/
theorem Agree.map_fst {A : Type} {Rel : S → S → Prop} {x y : Option (A × S)} (h : Agree Rel x y) :
    x.map Prod.fst = y.map Prod.fst := by
  cases h with
  | some h => exact congrArg some h.1
  | none => rfl

/-- Agreeing runs still agree with an event in front. -/
theorem Agree.cons {Rel : S → S → Prop} {x y : Option (List E × S)} (h : Agree Rel x y) (e : E) :
    Agree Rel (x.map fun q => (e :: q.1, q.2)) (y.map fun q => (e :: q.1, q.2)) := by
  cases h with
  | some h => exact .some ⟨congrArg (e :: ·) h.1, h.2⟩
  | none => exact .none

/-- When related states take agreeing steps, they have agreeing runs. -/
theorem run_agree {step : S → O → Option (E × S)} {Rel : S → S → Prop}
    (hstep : ∀ s t op, Rel s t → Agree Rel (step s op) (step t op)) {s t : S} (h : Rel s t)
    (ops : List O) : Agree Rel (run step s ops) (run step t ops) := by
  induction ops generalizing s t with
  | nil => exact .some ⟨rfl, h⟩
  | cons op ops ih =>
    have hop := hstep s t op h
    rw [run, run]
    generalize step s op = x at hop
    generalize step t op = y at hop
    cases hop with
    | none => exact .none
    | @some p q hop =>
      obtain ⟨hevent, hrel⟩ := hop
      rw [Option.bind_some, Option.bind_some, hevent]
      exact (ih hrel).cons q.1

/-- A run is simulated by a fold that takes a matching step for each operation.  The relation sees
the events of the run so far. -/
theorem run_foldlM {step : S → O → Option (E × S)} {T A : Type} (body : T → A → Option T)
    (op : A → O) (Rel : List E → S → T → Prop) {as : List A}
    (hstep : ∀ a ∈ as, ∀ evs s t e s', Rel evs s t → step s (op a) = some (e, s') →
      ∃ t', body t a = some t' ∧ Rel (evs ++ [e]) s' t') {s s' : S} {t : T} {evs : List E}
    (hrel : Rel [] s t) (h : run step s (as.map op) = some (evs, s')) :
    ∃ t', as.foldlM body t = some t' ∧ Rel evs s' t' := by
  induction as using List.reverseRecOn generalizing evs s' with
  | nil =>
    obtain ⟨rfl, rfl⟩ := Prod.mk.inj (Option.some.inj h)
    exact ⟨t, rfl, hrel⟩
  | append_singleton as a ih =>
    rw [List.map_append, List.map_singleton] at h
    obtain ⟨pre, e, s₁, hpre, hlast, rfl⟩ := run_append_singleton.mp h
    obtain ⟨t₁, hfold, hrel₁⟩ := ih (fun b hb => hstep b (List.mem_append_left _ hb)) hpre
    obtain ⟨t', hbody, hrel'⟩ :=
      hstep a (List.mem_append_right _ (List.mem_singleton_self a)) pre s₁ t₁ e s' hrel₁ hlast
    refine ⟨t', ?_, hrel'⟩
    rw [List.foldlM_append, hfold, Option.bind_eq_bind, Option.bind_some, List.foldlM_cons, hbody]
    rfl

/-! ## Positions in a history -/

/-- A position in a history that grew by one event is the new event or an old position. -/
theorem append_singleton_split {evs before lows : List E} {e a : E}
    (h : evs ++ [e] = before ++ a :: lows) :
    (before = evs ∧ a = e ∧ lows = []) ∨
      ∃ lows', lows = lows' ++ [e] ∧ evs = before ++ a :: lows' := by
  induction lows using List.reverseRecOn with
  | nil =>
    obtain ⟨hevs, he⟩ := List.append_inj' h rfl
    exact Or.inl ⟨hevs.symm, (List.cons.inj he).1.symm, rfl⟩
  | append_singleton lows e' _ =>
    have h' : evs ++ [e] = (before ++ a :: lows) ++ [e'] := by rw [h]; simp
    obtain ⟨hevs, he⟩ := List.append_inj' h' rfl
    exact Or.inr ⟨lows, by rw [(List.cons.inj he).1], hevs⟩

/-- A history that contains a marked event has a last one.

**Proof sketch.** By induction on the history from its end: the last event is marked, or the
marked event is in the rest. -/
theorem exists_last {p : E → Bool} {evs : List E} (h : ∃ e ∈ evs, p e = true) :
    ∃ before a lows, evs = before ++ a :: lows ∧ p a = true ∧ ∀ e ∈ lows, p e = false := by
  induction evs using List.reverseRecOn with
  | nil =>
    obtain ⟨e, he, -⟩ := h
    exact absurd he List.not_mem_nil
  | append_singleton evs e ih =>
    cases hp : p e with
    | true => exact ⟨evs, e, [], rfl, hp, fun e' he' => absurd he' List.not_mem_nil⟩
    | false =>
      obtain ⟨e', he', hpe'⟩ := h
      have hmem : e' ∈ evs := by
        rcases List.mem_append.mp he' with hold | hnew
        · exact hold
        · rw [List.mem_singleton.mp hnew, hp] at hpe'
          exact Bool.noConfusion hpe'
      obtain ⟨before, a, lows, rfl, ha, hlows⟩ := ih ⟨e', hmem, hpe'⟩
      refine ⟨before, a, lows ++ [e], by simp, ha, fun e'' he'' => ?_⟩
      rcases List.mem_append.mp he'' with hold | hnew
      · exact hlows e'' hold
      · rw [List.mem_singleton.mp hnew, hp]

/-- Some event was marked, by the history before it, and no event after it was cleared. -/
def Since (mark : List E → E → Bool) (clear : E → Bool) (evs : List E) : Prop :=
  ∃ before e after, evs = before ++ e :: after ∧ mark before e = true ∧
    ∀ e' ∈ after, clear e' = false

/-- A new event is marked itself, or does not clear what was marked before. -/
theorem since_append_singleton {mark : List E → E → Bool} {clear : E → Bool} {evs : List E}
    {e : E} : Since mark clear (evs ++ [e]) ↔
      mark evs e = true ∨ clear e = false ∧ Since mark clear evs := by
  constructor
  · intro h
    obtain ⟨before, a, after, hsplit, hmark, hclear⟩ := h
    rcases append_singleton_split hsplit with ⟨rfl, rfl, -⟩ | ⟨after', rfl, rfl⟩
    · exact Or.inl hmark
    · refine Or.inr ⟨hclear e (by simp), before, a, after', rfl, hmark, ?_⟩
      intro e' he'
      exact hclear e' (List.mem_append_left _ he')
  · rintro (hmark | ⟨hclear, before, a, after, rfl, hmark, hafter⟩)
    · exact ⟨evs, e, [], rfl, hmark, fun e' he' => absurd he' List.not_mem_nil⟩
    · refine ⟨before, a, after ++ [e], by simp, hmark, ?_⟩
      intro e' he'
      rcases List.mem_append.mp he' with hold | hnew
      · exact hafter e' hold
      · rwa [List.mem_singleton.mp hnew]

/-- A history splits in one way at its first marked event.

**Proof sketch.** By induction on the front of one split.  A front that ends while the other goes
on would contain a marked event. -/
theorem split_first_unique {p : E → Bool} {l₁ l₁' : List E} {a a' : E} {l₂ l₂' : List E}
    (h : l₁ ++ a :: l₂ = l₁' ++ a' :: l₂') (h₁ : ∀ x ∈ l₁, p x = false)
    (h₁' : ∀ x ∈ l₁', p x = false) (ha : p a = true) (ha' : p a' = true) : l₁ = l₁' ∧ l₂ = l₂' := by
  induction l₁ generalizing l₁' with
  | nil =>
    cases l₁' with
    | nil => exact ⟨rfl, (List.cons.inj h).2⟩
    | cons x l₁' =>
      obtain ⟨rfl, -⟩ := List.cons.inj h
      rw [h₁' a List.mem_cons_self] at ha
      exact Bool.noConfusion ha
  | cons x l₁ ih =>
    cases l₁' with
    | nil =>
      obtain ⟨rfl, -⟩ := List.cons.inj h
      rw [h₁ x List.mem_cons_self] at ha'
      exact Bool.noConfusion ha'
    | cons y l₁' =>
      obtain ⟨rfl, hrest⟩ := List.cons.inj h
      obtain ⟨rfl, rfl⟩ := ih hrest (fun z hz => h₁ z (List.mem_cons_of_mem _ hz))
        fun z hz => h₁' z (List.mem_cons_of_mem _ hz)
      exact ⟨rfl, rfl⟩

end Trace
