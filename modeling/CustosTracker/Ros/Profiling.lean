import CustosTracker.Library.Monitor
import CustosTracker.Library.Trace

set_option relaxedAutoImplicit false
set_option autoImplicit false

/-!
# Stage latencies, from the pipelines to the collectors

Every pipeline thread of a process times its stages with `ProfileScope`s, whose destructors hand the
sample to the process-wide profile sink.  `install_process_sinks` makes that sink a fan-out to the
registered `ProfileCollector`s, which come and go with the nodes.  The sink is copied under one lock
and called outside it; the registry of collectors has a second lock, under which the callbacks run.

Threads interleave freely between any two steps.  The registry is nevertheless the one that its
operations reach one at a time, so each sample gets to every collector registered when the registry
was locked, once, and to none whose destructor has had the lock.

## Main definitions

* `Profile.Registry` — `Registry` and the operations on it.
* `Profile.step` — one step of one thread.
* `Profile.heard` — what a collector is called with while it is registered.

## Main results

* `Profile.lock_run` — the registry is a monitor.
* `Profile.emitted_run` — no sample is lost or doubled on the way to the registry.
* `Profile.delivery` — what each collector is called with.

## Implementation notes

Callbacks do not take the registry's lock themselves (they would never return).  `g_enabled` is read
with relaxed ordering: a scope may still read it unset after it was set.  The sink of a ROS process
is set once and never cleared.  The calls are recorded in the registry; the code keeps no such list.
-/

namespace Ctrk

namespace Profile

/-- What a scope reports: `stage`, `ms`. -/
structure Sample (α : Type) where
  stage : String
  ms : α
deriving DecidableEq

/-! ## The registry -/

/-- `Registry`, with the callbacks made so far. -/
structure Registry (Fn α : Type) where
  collectors : List (ℕ × Fn)
  nextId : ℕ
  calls : List (ℕ × Fn × Sample α)

/-- What threads do with the registry. -/
inductive Op (Fn α : Type) where
  | add (fn : Fn)
  | erase (id : ℕ)
  | deliver (x : Sample α)

variable {ι Fn α : Type}

namespace Registry

def empty : Registry Fn α := ⟨[], 1, []⟩

/-- `ProfileCollector::ProfileCollector`; ids are 64 bits wide. -/
def add (fn : Fn) (r : Registry Fn α) : Registry Fn α :=
  { r with collectors := r.collectors ++ [(r.nextId, fn)], nextId := (r.nextId + 1) % 2 ^ 64 }

/-- `ProfileCollector::~ProfileCollector`. -/
def erase (id : ℕ) (r : Registry Fn α) : Registry Fn α :=
  { r with collectors := r.collectors.filter fun e => e.1 ≠ id }

/-- One turn of the sink's loop over the collectors. -/
def call (x : Sample α) (r : Registry Fn α) (i : ℕ) : Registry Fn α :=
  match r.collectors[i]? with
  | some e => { r with calls := r.calls ++ [(e.1, e.2, x)] }
  | none => r

/-- What a thread does under the lock, step by step. -/
def body : Op Fn α → Registry Fn α → List (Registry Fn α → Registry Fn α)
  | .add fn, _ => [add fn]
  | .erase id, _ => [erase id]
  | .deliver x, r => (List.range r.collectors.length).map fun i r => call x r i

end Registry

/-! ## The threads -/

/-- Where a thread is: in its pipeline, in `profile_emit` before and after it has copied the sink,
or under the registry's lock. -/
inductive Pc (α : Type) where
  | pipeline
  | emit (x : Sample α)
  | call (x : Sample α)
  | locked

instance (pc : Pc α) : Decidable (pc = .pipeline) :=
  match pc with
  | .pipeline => isTrue rfl
  | .emit _ => isFalse nofun
  | .call _ => isFalse nofun
  | .locked => isFalse nofun

/-- A thread, with its open `ProfileScope`s (`stage_`, `active_`), innermost first. -/
structure PipelineThread (α : Type) where
  scopes : List (String × Bool)
  pc : Pc α

/-- The samples a thread has taken and not yet brought to the registry. -/
def inFlight (th : PipelineThread α) : List (Sample α) :=
  match th.pc with
  | .emit x => [x]
  | .call x => [x]
  | .pipeline => []
  | .locked => []

/-- The process: `g_sink` set, `g_enabled`, `g_mutex` held by `set_profile_sink`, the registry and
its mutex, and the threads. -/
structure Process (ι Fn α : Type) where
  sink : Bool
  enabled : Bool
  setting : Bool
  registry : Monitor.State ι (Registry Fn α)
  threads : ι → PipelineThread α

/-- The process before anything ran. -/
def initial : Process ι Fn α :=
  ⟨false, false, false, ⟨.empty, none⟩, fun _ => ⟨[], .pipeline⟩⟩

/-- What the scheduler lets a thread do. -/
inductive Choice (ι Fn α : Type) where
  | setSink (t : ι)
  | setEnabled (t : ι)
  | openScope (t : ι) (stage : String) (active : Bool)
  | closeScope (t : ι) (ms : α)
  | copySink (t : ι)
  | deliver (t : ι)
  | construct (t : ι) (fn : Fn)
  | destruct (t : ι) (id : ℕ)
  | advance (t : ι)
  | release (t : ι)

/-- What can be seen of a step. -/
inductive Event (ι Fn α : Type) where
  | taken (t : ι) (x : Sample α)
  | delivered (t : ι) (x : Sample α)
  | constructed (t : ι) (fn : Fn) (id : ℕ)
  | destructed (t : ι) (id : ℕ)
  | advanced (t : ι)
  | released (t : ι)
  | silent

variable [DecidableEq ι]

/-- The thread `t` becomes `th`. -/
def Process.setThread (p : Process ι Fn α) (t : ι) (th : PipelineThread α) : Process ι Fn α :=
  { p with threads := Function.update p.threads t th }

theorem Process.setThread_threads (p : Process ι Fn α) (t t' : ι) (th : PipelineThread α) :
    (p.setThread t th).threads t' = if t' = t then th else p.threads t' :=
  Function.update_apply p.threads t th t'

/-- A thread takes the registry's lock for an operation. -/
def Process.lockFor (p : Process ι Fn α) (t : ι) (o : Op Fn α) : Option (Process ι Fn α) :=
  (Monitor.acquire Registry.body t o p.registry).map fun m =>
    { p.setThread t { p.threads t with pc := .locked } with registry := m }

/-- One step of one thread. -/
def step (p : Process ι Fn α) : Choice ι Fn α → Option (Event ι Fn α × Process ι Fn α)
  -- `set_profile_sink`, from `install_process_sinks`: two stores under `g_mutex`
  | .setSink t =>
    if (p.threads t).pc = .pipeline ∧ p.sink = false then
      some (.silent, { p with sink := true, setting := true })
    else none
  | .setEnabled t =>
    if (p.threads t).pc = .pipeline ∧ p.setting = true then
      some (.silent, { p with enabled := p.sink, setting := false })
    else none
  -- `ProfileScope::ProfileScope`
  | .openScope t stage active =>
    let th := p.threads t
    if th.pc = .pipeline ∧ (active = true → p.enabled = true) then
      some (.silent, p.setThread t { th with scopes := (stage, active) :: th.scopes })
    else none
  -- `ProfileScope::~ProfileScope`
  | .closeScope t ms =>
    let th := p.threads t
    match th.pc, th.scopes with
    | .pipeline, (stage, true) :: scopes =>
      some (.taken t ⟨stage, ms⟩, p.setThread t ⟨scopes, .emit ⟨stage, ms⟩⟩)
    | .pipeline, (_, false) :: scopes => some (.silent, p.setThread t ⟨scopes, .pipeline⟩)
    | _, _ => none
  -- `profile_emit`: copy the sink under `g_mutex`, then call it
  | .copySink t =>
    let th := p.threads t
    match th.pc with
    | .emit x =>
      if p.setting = true then none
      else some (.silent, p.setThread t { th with pc := if p.sink then .call x else .pipeline })
    | _ => none
  | .deliver t =>
    match (p.threads t).pc with
    | .call x => (p.lockFor t (.deliver x)).map fun p' => (.delivered t x, p')
    | _ => none
  | .construct t fn =>
    if (p.threads t).pc = .pipeline then
      (p.lockFor t (.add fn)).map fun p' => (.constructed t fn p.registry.shared.nextId, p')
    else none
  | .destruct t id =>
    if (p.threads t).pc = .pipeline then
      (p.lockFor t (.erase id)).map fun p' => (.destructed t id, p')
    else none
  | .advance t =>
    (Monitor.advance t p.registry).map fun m => (.advanced t, { p with registry := m })
  | .release t =>
    (Monitor.release t p.registry).map fun m =>
      (.released t, { p.setThread t { p.threads t with pc := .pipeline } with registry := m })

/-! ## What a run shows -/

/-- What happens at the registry's lock. -/
def Event.atLock : Event ι Fn α → Option (Monitor.Event ι (Op Fn α))
  | .delivered t x => some (.acquire t (.deliver x))
  | .constructed t fn _ => some (.acquire t (.add fn))
  | .destructed t id => some (.acquire t (.erase id))
  | .advanced t => some (.advance t)
  | .released t => some (.release t)
  | .taken _ _ => none
  | .silent => none

/-- The operations on the registry, in the order in which the threads got its lock. -/
def ops (evs : List (Event ι Fn α)) : List (Op Fn α) :=
  (evs.filterMap Event.atLock).filterMap Monitor.Event.op?

/-- The samples that the scopes of a thread have taken. -/
def taken (t : ι) (evs : List (Event ι Fn α)) : List (Sample α) :=
  evs.filterMap fun
    | .taken t' x => if t' = t then some x else none
    | _ => none

/-- The samples that a thread has brought to the registry. -/
def delivered (t : ι) (evs : List (Event ι Fn α)) : List (Sample α) :=
  evs.filterMap fun
    | .delivered t' x => if t' = t then some x else none
    | _ => none

/-! ## What a step can do -/

/-- The steps of the process, guards included. -/
inductive Steps (p : Process ι Fn α) : Event ι Fn α → Process ι Fn α → Prop where
  | setSink (hsink : p.sink = false) : Steps p .silent { p with sink := true, setting := true }
  | setEnabled (hsetting : p.setting = true) :
      Steps p .silent { p with enabled := p.sink, setting := false }
  | openScope (t : ι) (stage : String) (active : Bool) (hpc : (p.threads t).pc = .pipeline)
      (henabled : active = true → p.enabled = true) :
      Steps p .silent
        (p.setThread t { p.threads t with scopes := (stage, active) :: (p.threads t).scopes })
  | closeActive (t : ι) (stage : String) (ms : α) (scopes : List (String × Bool))
      (hpc : (p.threads t).pc = .pipeline)
      (hscopes : (p.threads t).scopes = (stage, true) :: scopes) :
      Steps p (.taken t ⟨stage, ms⟩) (p.setThread t ⟨scopes, .emit ⟨stage, ms⟩⟩)
  | closeInactive (t : ι) (stage : String) (scopes : List (String × Bool))
      (hpc : (p.threads t).pc = .pipeline)
      (hscopes : (p.threads t).scopes = (stage, false) :: scopes) :
      Steps p .silent (p.setThread t ⟨scopes, .pipeline⟩)
  | copySink (t : ι) (x : Sample α) (hpc : (p.threads t).pc = .emit x)
      (hsetting : p.setting = false) :
      Steps p .silent
        (p.setThread t { p.threads t with pc := if p.sink then .call x else .pipeline })
  | deliver (t : ι) (x : Sample α) (p' : Process ι Fn α) (hpc : (p.threads t).pc = .call x)
      (hlock : p.lockFor t (.deliver x) = some p') : Steps p (.delivered t x) p'
  | construct (t : ι) (fn : Fn) (p' : Process ι Fn α) (hpc : (p.threads t).pc = .pipeline)
      (hlock : p.lockFor t (.add fn) = some p') :
      Steps p (.constructed t fn p.registry.shared.nextId) p'
  | destruct (t : ι) (id : ℕ) (p' : Process ι Fn α) (hpc : (p.threads t).pc = .pipeline)
      (hlock : p.lockFor t (.erase id) = some p') : Steps p (.destructed t id) p'
  | advance (t : ι) (m : Monitor.State ι (Registry Fn α))
      (hm : Monitor.advance t p.registry = some m) : Steps p (.advanced t) { p with registry := m }
  | release (t : ι) (m : Monitor.State ι (Registry Fn α))
      (hm : Monitor.release t p.registry = some m) :
      Steps p (.released t)
        { p.setThread t { p.threads t with pc := .pipeline } with registry := m }

section Runs

variable {p p' : Process ι Fn α} {c : Choice ι Fn α} {e : Event ι Fn α}

theorem step_cases (h : step p c = some (e, p')) : Steps p e p' := by
  cases c with
  | setSink t =>
    rw [step, Option.ite_none_right_eq_some] at h
    obtain ⟨⟨-, hsink⟩, h⟩ := h
    obtain ⟨rfl, rfl⟩ := Prod.mk.inj (Option.some.inj h)
    exact .setSink hsink
  | setEnabled t =>
    rw [step, Option.ite_none_right_eq_some] at h
    obtain ⟨⟨-, hsetting⟩, h⟩ := h
    obtain ⟨rfl, rfl⟩ := Prod.mk.inj (Option.some.inj h)
    exact .setEnabled hsetting
  | openScope t stage active =>
    rw [step, Option.ite_none_right_eq_some] at h
    obtain ⟨⟨hpc, henabled⟩, h⟩ := h
    obtain ⟨rfl, rfl⟩ := Prod.mk.inj (Option.some.inj h)
    exact .openScope t stage active hpc henabled
  | closeScope t ms =>
    simp only [step] at h
    split at h
    · rename_i stage scopes hpc hscopes
      obtain ⟨rfl, rfl⟩ := Prod.mk.inj (Option.some.inj h)
      exact .closeActive t stage ms scopes hpc hscopes
    · rename_i stage scopes hpc hscopes
      obtain ⟨rfl, rfl⟩ := Prod.mk.inj (Option.some.inj h)
      exact .closeInactive t stage scopes hpc hscopes
    · cases h
  | copySink t =>
    simp only [step] at h
    split at h
    · rename_i x hpc
      rw [Option.ite_none_left_eq_some, Bool.not_eq_true] at h
      obtain ⟨hsetting, h⟩ := h
      obtain ⟨rfl, rfl⟩ := Prod.mk.inj (Option.some.inj h)
      exact .copySink t x hpc hsetting
    · cases h
  | deliver t =>
    simp only [step] at h
    split at h
    · rename_i x hpc
      obtain ⟨p₁, hlock, heq⟩ := Option.map_eq_some_iff.mp h
      obtain ⟨rfl, rfl⟩ := Prod.mk.inj heq
      exact .deliver t x p₁ hpc hlock
    · cases h
  | construct t fn =>
    rw [step, Option.ite_none_right_eq_some, Option.map_eq_some_iff] at h
    obtain ⟨hpc, p₁, hlock, heq⟩ := h
    obtain ⟨rfl, rfl⟩ := Prod.mk.inj heq
    exact .construct t fn p₁ hpc hlock
  | destruct t id =>
    rw [step, Option.ite_none_right_eq_some, Option.map_eq_some_iff] at h
    obtain ⟨hpc, p₁, hlock, heq⟩ := h
    obtain ⟨rfl, rfl⟩ := Prod.mk.inj heq
    exact .destruct t id p₁ hpc hlock
  | advance t =>
    rw [step, Option.map_eq_some_iff] at h
    obtain ⟨m, hm, heq⟩ := h
    obtain ⟨rfl, rfl⟩ := Prod.mk.inj heq
    exact .advance t m hm
  | release t =>
    rw [step, Option.map_eq_some_iff] at h
    obtain ⟨m, hm, heq⟩ := h
    obtain ⟨rfl, rfl⟩ := Prod.mk.inj heq
    exact .release t m hm

theorem lockFor_eq_some {t : ι} {o : Op Fn α} (h : p.lockFor t o = some p') :
    Monitor.acquire Registry.body t o p.registry = some p'.registry ∧
      p' = { p.setThread t { p.threads t with pc := .locked } with registry := p'.registry } := by
  rw [Process.lockFor, Option.map_eq_some_iff] at h
  obtain ⟨m, hm, rfl⟩ := h
  exact ⟨hm, rfl⟩

/-! ## The registry is a monitor -/

/-- A step moves the registry as its event says. -/
theorem Steps.registry (h : Steps p e p') :
    Monitor.run Registry.body p.registry ([e].filterMap Event.atLock) = some p'.registry := by
  cases h with
  | setSink | setEnabled | openScope | closeActive | closeInactive | copySink => rfl
  | deliver t x p' hpc hlock => exact Monitor.run_singleton (lockFor_eq_some hlock).1
  | construct t fn p' hpc hlock => exact Monitor.run_singleton (lockFor_eq_some hlock).1
  | destruct t id p' hpc hlock => exact Monitor.run_singleton (lockFor_eq_some hlock).1
  | advance t m hm => exact Monitor.run_singleton (e := .advance t) hm
  | release t m hm => exact Monitor.run_singleton (e := .release t) hm

/-- However the threads interleave, the registry moves as a monitor does. -/
theorem lock_run {evs : List (Event ι Fn α)} {cs : List (Choice ι Fn α)}
    (h : Trace.run step initial cs = some (evs, p)) :
    Monitor.run Registry.body ⟨.empty, none⟩ (evs.filterMap Event.atLock) = some p.registry := by
  refine Trace.run_induction
    (P := fun evs (p : Process ι Fn α) =>
      Monitor.run Registry.body ⟨.empty, none⟩ (evs.filterMap Event.atLock) = some p.registry)
    rfl ?_ h
  intro evs p c e p' hrun hstep
  rw [List.filterMap_append]
  exact Monitor.run_append hrun (step_cases hstep).registry

/-! ## From the scopes to the registry -/

/-- Scopes are active and samples on their way only when the sink is set, and who holds the
registry's lock knows it. -/
structure Wired (p : Process ι Fn α) : Prop where
  enabled : p.enabled = true → p.sink = true
  scopes : ∀ t stage, (stage, true) ∈ (p.threads t).scopes → p.sink = true
  emit : ∀ t x, (p.threads t).pc = .emit x → p.sink = true
  holder : ∀ t steps, p.registry.held = some (t, steps) → (p.threads t).pc = .locked

omit [DecidableEq ι] in
theorem wired_initial : Wired (initial : Process ι Fn α) where
  enabled h := nomatch h
  scopes _ _ h := nomatch h
  emit _ _ h := nomatch h
  holder _ _ h := nomatch h

/-- A thread that is not under the lock goes on; the others are where they were.

**Proof sketch.** The fields about scopes and emissions are checked at the new thread and
unchanged at the others; the holder of the lock is another thread, since the new one was free. -/
theorem Wired.setThread (hw : Wired p) {t : ι} {th : PipelineThread α}
    (hscopes : ∀ stage, (stage, true) ∈ th.scopes → p.sink = true)
    (hemit : ∀ x, th.pc = .emit x → p.sink = true) (hfree : (p.threads t).pc ≠ .locked) :
    Wired (p.setThread t th) where
  enabled := hw.enabled
  scopes t' stage h := by
    rw [Process.setThread_threads] at h
    split at h
    · exact hscopes stage h
    · exact hw.scopes t' stage h
  emit t' x h := by
    rw [Process.setThread_threads] at h
    split at h
    · exact hemit x h
    · exact hw.emit t' x h
  holder t' steps h := by
    have hlocked := hw.holder t' steps h
    have hne : t' ≠ t := by
      rintro rfl
      exact hfree hlocked
    rw [Process.setThread_threads, if_neg hne]
    exact hlocked

/-- A thread takes or releases the lock. -/
theorem Wired.setLock (hw : Wired p) {t : ι} {pc : Pc α} {m : Monitor.State ι (Registry Fn α)}
    (hpc : ∀ x, pc ≠ .emit x)
    (hholder : ∀ t' steps, m.held = some (t', steps) → t' = t ∧ pc = .locked) :
    Wired { p.setThread t { p.threads t with pc := pc } with registry := m } where
  enabled := hw.enabled
  scopes t' stage h := by
    rw [Process.setThread_threads] at h
    split at h
    · exact hw.scopes t stage h
    · exact hw.scopes t' stage h
  emit t' x h := by
    rw [Process.setThread_threads] at h
    split at h
    · exact absurd h (hpc x)
    · exact hw.emit t' x h
  holder t' steps h := by
    obtain ⟨rfl, rfl⟩ := hholder t' steps h
    rw [Process.setThread_threads, if_pos rfl]

theorem Wired.lockFor (hw : Wired p) {t : ι} {o : Op Fn α} (h : p.lockFor t o = some p') :
    Wired p' := by
  obtain ⟨hacquire, hp'⟩ := lockFor_eq_some h
  obtain ⟨-, hregistry⟩ := Monitor.acquire_eq_some.mp hacquire
  rw [hp']
  refine hw.setLock nofun fun t' steps hheld => ?_
  rw [← hregistry] at hheld
  exact ⟨(Prod.mk.inj (Option.some.inj hheld)).1.symm, rfl⟩

theorem Steps.wired (h : Steps p e p') (hw : Wired p) : Wired p' := by
  cases h with
  | setSink hsink =>
    exact ⟨fun _ => rfl, fun _ _ _ => rfl, fun _ _ _ => rfl, hw.holder⟩
  | setEnabled hsetting => exact ⟨id, hw.scopes, hw.emit, hw.holder⟩
  | openScope t stage active hpc henabled =>
    refine hw.setThread ?_ ?_ ?_
    · intro stage' hmem
      rcases List.mem_cons.mp hmem with heq | hmem
      · exact hw.enabled (henabled (Prod.mk.inj heq).2.symm)
      · exact hw.scopes t stage' hmem
    · intro x hx
      exact hw.emit t x hx
    · rw [hpc]
      exact nofun
  | closeActive t stage ms scopes hpc hscopes =>
    refine hw.setThread ?_ ?_ ?_
    · intro stage' hmem
      exact hw.scopes t stage' (hscopes ▸ List.mem_cons_of_mem _ hmem)
    · intro x hx
      exact hw.scopes t stage (hscopes ▸ List.mem_cons_self)
    · rw [hpc]
      exact nofun
  | closeInactive t stage scopes hpc hscopes =>
    refine hw.setThread ?_ nofun ?_
    · intro stage' hmem
      exact hw.scopes t stage' (hscopes ▸ List.mem_cons_of_mem _ hmem)
    · rw [hpc]
      exact nofun
  | copySink t x hpc hsetting =>
    refine hw.setThread (hw.scopes t) ?_ ?_
    · intro x' hx'
      exact hw.emit t x hpc
    · rw [hpc]
      exact nofun
  | deliver t x p' hpc hlock => exact hw.lockFor hlock
  | construct t fn p' hpc hlock => exact hw.lockFor hlock
  | destruct t id p' hpc hlock => exact hw.lockFor hlock
  | advance t m hm =>
    obtain ⟨f, steps, hheld, rfl⟩ := Monitor.advance_eq_some.mp hm
    refine ⟨hw.enabled, hw.scopes, hw.emit, fun t' steps' h => ?_⟩
    obtain ⟨rfl, -⟩ := Prod.mk.inj (Option.some.inj h)
    exact hw.holder t (f :: steps) hheld
  | release t m hm =>
    obtain ⟨hheld, rfl⟩ := Monitor.release_eq_some.mp hm
    exact hw.setLock nofun nofun

/-- A thread with as many samples on their way as before. -/
theorem inFlight_setThread {t : ι} {th : PipelineThread α}
    (h : inFlight th = inFlight (p.threads t)) (t' : ι) :
    inFlight ((p.setThread t th).threads t') = inFlight (p.threads t') := by
  rw [Process.setThread_threads]
  split
  · rename_i heq
    rw [h, heq]
  · rfl

theorem inFlight_lockFor {t : ι} {o : Op Fn α} (h : p.lockFor t o = some p') (t' : ι) :
    inFlight (p'.threads t') = if t' = t then [] else inFlight (p.threads t') := by
  obtain ⟨-, hp'⟩ := lockFor_eq_some h
  rw [hp', Process.setThread_threads]
  split <;> rfl

theorem inFlight_lockFor_of_pipeline {t : ι} {o : Op Fn α} (h : p.lockFor t o = some p')
    (hpc : (p.threads t).pc = .pipeline) (t' : ι) :
    inFlight (p'.threads t') = inFlight (p.threads t') := by
  rw [inFlight_lockFor h]
  split
  · rename_i heq
    rw [heq, inFlight, hpc]
  · rfl

/-- No step loses or doubles a sample on its way to the registry.

**Proof sketch.** By cases on the step.  Closing an active scope takes a sample and puts it on
its way, and delivering takes it off; the sink of an active scope is set, so the copy of the sink
does not drop the sample. -/
theorem Steps.account (h : Steps p e p') (hw : Wired p) (t : ι) :
    inFlight (p.threads t) ++ taken t [e] = delivered t [e] ++ inFlight (p'.threads t) := by
  cases h with
  | setSink | setEnabled => exact List.append_nil _
  | openScope t' stage active hpc henabled =>
    have hsame : inFlight { p.threads t' with scopes := (stage, active) :: (p.threads t').scopes } =
        inFlight (p.threads t') := rfl
    refine (List.append_nil _).trans (Eq.symm ?_)
    exact inFlight_setThread hsame t
  | closeInactive t' stage scopes hpc hscopes =>
    rw [inFlight_setThread (by rw [inFlight, inFlight, hpc])]
    exact List.append_nil _
  | closeActive t' stage ms scopes hpc hscopes =>
    rw [Process.setThread_threads]
    by_cases ht : t' = t
    · have hnone : inFlight (p.threads t) = [] := by rw [inFlight, ← ht, hpc]
      rw [hnone, if_pos ht.symm]
      simp [taken, delivered, inFlight, ht]
    · rw [if_neg (Ne.symm ht)]
      simp [taken, delivered, ht]
  | copySink t' x hpc hsetting =>
    -- the sink of an active scope is set
    have hsink := hw.emit t' x hpc
    rw [inFlight_setThread (by simp only [inFlight, hpc, hsink, if_true])]
    exact List.append_nil _
  | deliver t' x p' hpc hlock =>
    rw [inFlight_lockFor hlock]
    by_cases ht : t' = t
    · have hone : inFlight (p.threads t) = [x] := by rw [inFlight, ← ht, hpc]
      rw [hone, if_pos ht.symm]
      simp [taken, delivered, ht]
    · rw [if_neg (Ne.symm ht)]
      simp [taken, delivered, ht]
  | construct t' fn p' hpc hlock =>
    rw [inFlight_lockFor_of_pipeline hlock hpc]
    exact List.append_nil _
  | destruct t' id p' hpc hlock =>
    rw [inFlight_lockFor_of_pipeline hlock hpc]
    exact List.append_nil _
  | advance t' m hm => exact List.append_nil _
  | release t' m hm =>
    have hlocked := hw.holder t' [] (Monitor.release_eq_some.mp hm).1
    have hsame : inFlight { p.threads t' with pc := .pipeline } = inFlight (p.threads t') := by
      rw [inFlight, inFlight, hlocked]
    refine (List.append_nil _).trans (Eq.symm ?_)
    exact inFlight_setThread hsame t

/-- Every sample that a scope has taken is on its way or was brought to the registry, once and in
order.

**Proof sketch.** By induction on the run: a step moves at most one sample, and what the thread
had on its way before it accounts for what it delivers and what it has on its way after. -/
theorem emitted_run {evs : List (Event ι Fn α)} {cs : List (Choice ι Fn α)}
    (h : Trace.run step initial cs = some (evs, p)) (t : ι) :
    taken t evs = delivered t evs ++ inFlight (p.threads t) := by
  suffices hinv : Wired p ∧ ∀ t, taken t evs = delivered t evs ++ inFlight (p.threads t) from
    hinv.2 t
  refine Trace.run_induction
    (P := fun evs (p : Process ι Fn α) =>
      Wired p ∧ ∀ t, taken t evs = delivered t evs ++ inFlight (p.threads t))
    ⟨wired_initial, fun _ => rfl⟩ ?_ h
  intro evs p c e p' hinv hstep
  obtain ⟨hw, haccount⟩ := hinv
  have hsteps := step_cases hstep
  refine ⟨hsteps.wired hw, fun t => ?_⟩
  calc taken t (evs ++ [e]) = taken t evs ++ taken t [e] := List.filterMap_append
    _ = delivered t evs ++ (inFlight (p.threads t) ++ taken t [e]) := by
      rw [haccount t, List.append_assoc]
    _ = delivered t evs ++ delivered t [e] ++ inFlight (p'.threads t) := by
      rw [hsteps.account hw t, List.append_assoc]
    _ = delivered t (evs ++ [e]) ++ inFlight (p'.threads t) := by
      rw [delivered, delivered, delivered, List.filterMap_append]

end Runs

/-! ## The registry, one operation at a time -/

/-- The operation registers a collector. -/
def Op.isAdd : Op Fn α → Bool
  | .add _ => true
  | .erase _ => false
  | .deliver _ => false

/-- How many collectors were registered. -/
def adds (os : List (Op Fn α)) : ℕ := os.countP Op.isAdd

theorem adds_cons (o : Op Fn α) (os : List (Op Fn α)) : adds (o :: os) = adds [o] + adds os := by
  rw [← List.singleton_append, adds, List.countP_append]
  rfl

theorem adds_append_cons (pre post : List (Op Fn α)) (o : Op Fn α) :
    adds (pre ++ o :: post) = adds pre + (adds [o] + adds post) := by
  rw [adds, List.countP_append, ← adds, ← adds, adds_cons]

theorem adds_add (fn : Fn) : adds [(.add fn : Op Fn α)] = 1 := rfl

/-- The samples delivered while the collector is registered. -/
def heard (id : ℕ) : List (Op Fn α) → List (Sample α)
  | [] => []
  | .add _ :: os => heard id os
  | .erase i :: os => if i = id then [] else heard id os
  | .deliver x :: os => x :: heard id os

namespace Registry

/-- The calls to one collector. -/
def received (id : ℕ) (r : Registry Fn α) : List (ℕ × Fn × Sample α) :=
  r.calls.filter fun c => c.1 = id

/-- The entries of one collector. -/
def entries (id : ℕ) (r : Registry Fn α) : List (ℕ × Fn) :=
  r.collectors.filter fun e => e.1 = id

/-- Calls were made, none was taken back. -/
def Extends (r r' : Registry Fn α) : Prop := r.calls <+: r'.calls

/-- The registry after operations performed one after another. -/
def after (os : List (Op Fn α)) (r : Registry Fn α) : Registry Fn α :=
  os.foldl (Monitor.perform body) r

omit [DecidableEq ι]

/-- The sink's loop calls every registered collector once, in order. -/
theorem perform_deliver (x : Sample α) (r : Registry Fn α) :
    Monitor.perform body r (.deliver x) =
      { r with calls := r.calls ++ r.collectors.map fun e => (e.1, e.2, x) } := by
  suffices hloop : ∀ n, Monitor.runAll ((List.range n).map fun i r => call x r i) r =
      { r with calls := r.calls ++ (r.collectors.take n).map fun e => (e.1, e.2, x) } by
    have hall := hloop r.collectors.length
    rwa [List.take_length] at hall
  intro n
  induction n with
  | zero => simp
  | succ n ih =>
    rw [List.range_succ, List.map_append, Monitor.runAll_append, ih, List.map_singleton,
      Monitor.runAll_cons, Monitor.runAll_nil, List.take_add_one, call]
    cases r.collectors[n]? <;> simp

@[simp] theorem perform_add (fn : Fn) (r : Registry Fn α) :
    Monitor.perform body r (.add fn) = add fn r := rfl

@[simp] theorem perform_erase (id : ℕ) (r : Registry Fn α) :
    Monitor.perform body r (.erase id) = erase id r := rfl

/-- After `k` registrations, the ids up to `k` have been given out. -/
structure Numbered (k : ℕ) (r : Registry Fn α) : Prop where
  next : r.nextId = (k + 1) % 2 ^ 64
  collectors : ∀ e ∈ r.collectors, e.1 ≤ k
  calls : ∀ c ∈ r.calls, c.1 ≤ k

theorem numbered_empty : Numbered 0 (empty : Registry Fn α) where
  next := rfl
  collectors _ h := nomatch h
  calls _ h := nomatch h

theorem Numbered.nextId {k : ℕ} {r : Registry Fn α} (h : Numbered k r) (hk : k + 1 < 2 ^ 64) :
    r.nextId = k + 1 := by
  rw [h.next, Nat.mod_eq_of_lt hk]

theorem Numbered.perform {k : ℕ} {r : Registry Fn α} (h : Numbered k r) {o : Op Fn α}
    (hk : k + adds [o] < 2 ^ 64) : Numbered (k + adds [o]) (Monitor.perform body r o) := by
  cases o with
  | add fn =>
    have hnext := h.nextId hk
    refine ⟨?_, fun e he => ?_, fun c hc => Nat.le_succ_of_le (h.calls c hc)⟩
    · rw [perform_add, add, hnext]
      rfl
    · rcases List.mem_append.mp he with he | he
      · exact Nat.le_succ_of_le (h.collectors e he)
      · rw [List.mem_singleton.mp he, hnext]
        exact le_refl _
  | erase id => exact ⟨h.next, fun e he => h.collectors e (List.mem_filter.mp he).1, h.calls⟩
  | deliver x =>
    rw [perform_deliver]
    refine ⟨h.next, h.collectors, fun c hc => ?_⟩
    rcases List.mem_append.mp hc with hc | hc
    · exact h.calls c hc
    · obtain ⟨e, he, rfl⟩ := List.mem_map.mp hc
      exact h.collectors e he

theorem Numbered.after {k : ℕ} {r : Registry Fn α} (h : Numbered k r) {os : List (Op Fn α)}
    (hk : k + adds os < 2 ^ 64) : Numbered (k + adds os) (after os r) := by
  induction os generalizing k r with
  | nil => exact h
  | cons o os ih =>
    rw [adds_cons, ← Nat.add_assoc] at hk ⊢
    exact ih (h.perform (by omega)) hk

section Collector

variable {k id : ℕ} {r : Registry Fn α}

/-- A later registration is somebody else's. -/
theorem Numbered.entries_add (h : Numbered k r) (hid : id ≤ k) (hk : k + 1 < 2 ^ 64) (fn : Fn) :
    entries id (add fn r) = entries id r := by
  have hne : ¬ r.nextId = id := by
    rw [h.nextId hk]
    omega
  simp [entries, add, List.filter_append, hne]

theorem entries_erase_self (id : ℕ) (r : Registry Fn α) : entries id (erase id r) = [] := by
  rw [entries, erase, List.filter_filter, List.filter_eq_nil_iff]
  simp

theorem entries_erase_of_ne {i : ℕ} (hi : i ≠ id) (r : Registry Fn α) :
    entries id (erase i r) = entries id r := by
  rw [entries, erase, List.filter_filter, entries]
  refine List.filter_congr fun e _ => ?_
  by_cases he : e.1 = id
  · simp [he, hi.symm]
  · simp [he]

/-- A delivery calls the entries of a collector. -/
theorem received_deliver (id : ℕ) (x : Sample α) (r : Registry Fn α) :
    received id (Monitor.perform body r (.deliver x)) =
      received id r ++ (entries id r).map fun e => (e.1, e.2, x) := by
  rw [perform_deliver, received, List.filter_append, List.filter_map]
  rfl

/-- A collector is called with what is delivered until it is erased, and then no more.

**Proof sketch.** By induction on the operations.  A delivery calls the entries of the id, an
erasure of the id ends the list of what it hears, and since fresh ids are larger than all used
ones, no addition puts a second entry under the id. -/
theorem received_after (h : Numbered k r) (hid : id ≤ k) {os : List (Op Fn α)}
    (hk : k + adds os < 2 ^ 64) :
    received id (after os r) = received id r ++
      (heard id os).flatMap fun x => (entries id r).map fun e => (e.1, e.2, x) := by
  induction os generalizing k r with
  | nil => simp [after, heard]
  | cons o os ih =>
    rw [adds_cons, ← Nat.add_assoc] at hk
    have hnext := ih (h.perform (by omega)) (by omega) hk
    rw [after, List.foldl_cons, ← after, hnext]
    cases o with
    | add fn =>
      rw [adds_add] at hk
      rw [perform_add, h.entries_add hid (by omega)]
      rfl
    | erase i =>
      rw [perform_erase, heard]
      by_cases hi : i = id
      · rw [if_pos hi, ← hi, entries_erase_self, List.flatMap_nil, List.append_nil]
        have hnone : ∀ l : List (Sample α),
            (l.flatMap fun _ => ([] : List (ℕ × Fn × Sample α))) = [] :=
          fun l => List.flatMap_eq_nil_iff.mpr fun _ _ => rfl
        exact (congrArg (received i (erase i r) ++ ·) (hnone _)).trans (List.append_nil _)
      · rw [if_neg hi, entries_erase_of_ne hi]
        rfl
    | deliver x =>
      rw [received_deliver, heard, List.flatMap_cons, List.append_assoc, perform_deliver]
      rfl

end Collector

/-- What a collector is called with, from its registration on.

**Proof sketch.** The new id is larger than every id in the registry and in its calls, so it has
no call yet and exactly one entry; from there on `received_after` counts the calls. -/
theorem received_registered {pre post : List (Op Fn α)} {fn : Fn}
    (hadds : adds (pre ++ .add fn :: post) < 2 ^ 64) :
    received (after pre empty).nextId (after (pre ++ .add fn :: post) empty) =
      (heard (after pre empty).nextId post).map fun x => ((after pre empty).nextId, fn, x) := by
  rw [adds_append_cons, adds_add] at hadds
  have hpre : Numbered (adds pre) (after pre (empty : Registry Fn α)) := by
    rw [← Nat.zero_add (adds pre)]
    exact numbered_empty.after (by omega)
  have hid : (after pre (empty : Registry Fn α)).nextId = adds pre + 1 := hpre.nextId (by omega)
  generalize hr : after pre (empty : Registry Fn α) = r at hpre hid
  have hreg : Numbered (adds pre + 1) (add fn r) := hpre.perform (o := .add fn) (by
    rw [adds_add]
    omega)
  have hafter : after (pre ++ .add fn :: post) empty = after post (add fn r) := by
    rw [after, List.foldl_append, List.foldl_cons, ← hr]
    rfl
  -- nobody had the id before
  have hcalls : received r.nextId (add fn r) = [] := by
    rw [received, List.filter_eq_nil_iff]
    intro c hc
    have hle := hpre.calls c hc
    simp only [decide_eq_true_eq]
    omega
  have hentries : entries r.nextId (add fn r) = [(r.nextId, fn)] := by
    have hold : entries r.nextId r = [] := by
      rw [entries, List.filter_eq_nil_iff]
      intro e he
      have hle := hpre.collectors e he
      simp only [decide_eq_true_eq]
      omega
    rw [entries] at hold
    rw [entries, add, List.filter_append, hold]
    simp
  rw [hafter, received_after hreg hid.le (by omega), hcalls, hentries, List.nil_append]
  exact List.map_eq_flatMap.symm

end Registry

/-! ## What a collector is called with -/

section Delivery

variable {p : Process ι Fn α} {evs : List (Event ι Fn α)} {cs : List (Choice ι Fn α)}

/-- Once the holder of the lock is through, the registry is the one that its operations reach one
after another. -/
theorem registry_run (h : Trace.run step initial cs = some (evs, p)) :
    Monitor.finish p.registry = Registry.after (ops evs) .empty :=
  Monitor.finish_run (lock_run h)

/-- Under the lock the calls only become more. -/
theorem grows_run (h : Trace.run step initial cs = some (evs, p)) :
    Monitor.Grows Registry.Extends p.registry := by
  refine Monitor.Grows.run ?_ ?_ (lock_run h)
  · intro o r f hf r'
    cases o with
    | add fn =>
      obtain rfl := List.mem_singleton.mp hf
      exact List.prefix_refl _
    | erase id =>
      obtain rfl := List.mem_singleton.mp hf
      exact List.prefix_refl _
    | deliver x =>
      obtain ⟨i, -, rfl⟩ := List.mem_map.mp hf
      show r'.calls <+: (Registry.call x r' i).calls
      unfold Registry.call
      split
      · exact List.prefix_append _ _
      · exact List.prefix_refl _
  · exact nofun

/-- The id of a collector is the next one of the registry that its constructor found. -/
theorem constructed_id {pre post : List (Event ι Fn α)} {t : ι} {fn : Fn} {id : ℕ}
    (h : Trace.run step initial cs = some (pre ++ .constructed t fn id :: post, p)) :
    id = (Registry.after (ops pre) (.empty : Registry Fn α)).nextId := by
  obtain ⟨cs₁, c, s₁, s₂, hpre, hstep⟩ := Trace.run_split h
  have hsteps := step_cases hstep
  cases hsteps with
  | construct t fn p' hpc hlock =>
    have hfree := (Monitor.acquire_eq_some.mp (lockFor_eq_some hlock).1).1
    rw [← registry_run hpre, Monitor.finish_of_free hfree]

/-- Whatever the interleaving: every sample a scope takes is on its way or was brought to the
registry once, in order; and a collector is called, in the order of deliveries, with the samples
delivered between its registration and its removal, each once — all of them when the lock is
free.

**Proof sketch.** The registry is a monitor, so its calls are those of the operations in the
order of their locks, and a run under the lock that is not finished has made a prefix of its
calls.  The operations after a registration call the collector with what it hears. -/
theorem delivery (h : Trace.run step initial cs = some (evs, p)) (hids : adds (ops evs) < 2 ^ 64) :
    (∀ t, taken t evs = delivered t evs ++ inFlight (p.threads t)) ∧
      ∀ pre t fn id post, evs = pre ++ .constructed t fn id :: post →
        Registry.received id p.registry.shared <+:
            (heard id (ops post)).map (fun x => (id, fn, x)) ∧
          (p.registry.held = none → Registry.received id p.registry.shared =
            (heard id (ops post)).map fun x => (id, fn, x)) := by
  refine ⟨emitted_run h, fun pre t fn id post hevs => ?_⟩
  subst hevs
  have hops : ops (pre ++ .constructed t fn id :: post) = ops pre ++ .add fn :: ops post := by
    rw [ops, List.filterMap_append, List.filterMap_append]
    rfl
  have hall : Registry.received id (Monitor.finish p.registry) =
      (heard id (ops post)).map fun x => (id, fn, x) := by
    obtain rfl := constructed_id h
    rw [hops] at hids
    rw [registry_run h, hops]
    exact Registry.received_registered hids
  refine ⟨?_, fun hfree => ?_⟩
  · have hgrown : Registry.Extends p.registry.shared (Monitor.finish p.registry) :=
      Monitor.le_finish (r := Registry.Extends) (fun r => List.prefix_refl r.calls)
        (fun _ _ _ => List.IsPrefix.trans) (grows_run h)
    rw [← hall]
    exact hgrown.filter _
  · rw [← hall, Monitor.finish_of_free hfree]

/-- Two threads and two collectors.  The second thread delivers a sample to both collectors, which
the first thread has constructed, one of them while the sample was under way; then the first thread
removes the first collector, and the second thread delivers another sample. -/
def handover : List (Choice Bool String ℕ) :=
  [.setSink false, .setEnabled false, .construct false "bench", .advance false, .release false,
    .openScope true "det.infer" true, .closeScope true 7, .copySink true,
    .construct false "trace", .advance false, .release false,
    .deliver true, .advance true, .advance true, .release true,
    .openScope true "det.decode" true, .closeScope true 3,
    .destruct false 1, .advance false, .release false,
    .copySink true, .deliver true, .advance true, .release true]

/-- The removed collector was called with the first sample only, the other one with both, in
order. -/
theorem delivery_handover :
    let registry := ((Trace.run step initial handover).elim initial Prod.snd).registry.shared
    Registry.received 1 registry = [(1, "bench", ⟨"det.infer", 7⟩)] ∧
      Registry.received 2 registry =
        [(2, "trace", ⟨"det.infer", 7⟩), (2, "trace", ⟨"det.decode", 3⟩)] := by
  intro registry
  have hrun : Trace.run step (initial : Process Bool String ℕ) handover =
      some ((Trace.run step initial handover).elim [] Prod.fst,
        (Trace.run step initial handover).elim initial Prod.snd) := rfl
  obtain ⟨-, hcollector⟩ := delivery hrun (by decide)
  constructor
  · exact (hcollector [.silent, .silent] false "bench" 1 _ rfl).2 rfl
  · exact (hcollector [.silent, .silent, .constructed false "bench" 1, .advanced false,
      .released false, .silent, .taken true ⟨"det.infer", 7⟩, .silent] false "trace" 2 _ rfl).2 rfl

end Delivery

end Profile

end Ctrk
