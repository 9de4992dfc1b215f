import CustosTracker.Ros.ParamConfig

set_option relaxedAutoImplicit false
set_option autoImplicit false

/-!
# Configuring a node twice

`on_configure` declares every parameter of the node, and no transition takes a declaration back.
The first parameter is declared by every call that gets past it, so of all calls on one node
object only the first can succeed.

## Main definitions

* `Ctrk.onConfigure` — `on_configure`, as far as parameters and models decide its outcome.
* `Ctrk.ParamNode`, `Ctrk.NodeOp`, `Ctrk.ParamNode.run` — the life of a node object.
* `Ctrk.ConfiguresOnce` — a valid configuration succeeds exactly the first time.

## Main results

* `Ctrk.ParamNode.inv_run` — what the store knows after any life.
* `Ctrk.configure_iff_first` — both tracker nodes configure exactly once.
* `Ctrk.configure_again_fails` — a second configuration after a cleanup.

## Implementation notes

The parameter services of the node base class are a `Params.Store` with its documented behaviour.
Whether the models load for given parameters is part of the call of `on_configure`.
-/

namespace Ctrk

open Params

variable {R : Type} [Scalar R] {P : Type}

/-- The parameter services of a node. -/
abbrev ParamStore (R : Type) [Scalar R] := Store (ParamValue R) String ParamValue.sameType

/-- `on_configure`: declare the parameters and load the models; success, and the store. -/
def onConfigure (store : ParamStore R) (script : ParamScript R P) (loads : P → Bool)
    (s : store.State) : Bool × store.State :=
  match script.run store s with
  | (.ok p, s) => (loads p, s)
  | (.error _, s) => (false, s)

/-- A node object: its primary state, its parameters, and how its calls of `on_configure` ended. -/
structure ParamNode (store : ParamStore R) where
  lifecycle : Lifecycle := .unconfigured
  params : store.State
  outcomes : List Bool := []

/-- What happens to a node object: a transition is requested, or a parameter is set. -/
inductive NodeOp (R P : Type)
  | configure (loads : P → Bool)
  | activate (succeeds : Bool)
  | deactivate
  | cleanup
  | shutdown
  | setParameter (name : String) (v : ParamValue R)

namespace ParamNode

variable {store : ParamStore R} (script : ParamScript R P)

/-- The configure transition: refused outside the unconfigured state. -/
def configure (n : ParamNode store) (loads : P → Bool) : ParamNode store :=
  if n.lifecycle ≠ .unconfigured then n
  else
    let r := onConfigure store script loads n.params
    { lifecycle := if r.1 then .inactive else .unconfigured
      params := r.2
      outcomes := n.outcomes ++ [r.1] }

/-- Execute one operation. -/
def step (n : ParamNode store) : NodeOp R P → ParamNode store
  | .configure loads => n.configure script loads
  | .activate succeeds =>
    if n.lifecycle = .inactive ∧ succeeds then { n with lifecycle := .active } else n
  | .deactivate => if n.lifecycle = .active then { n with lifecycle := .inactive } else n
  | .cleanup => if n.lifecycle = .inactive then { n with lifecycle := .unconfigured } else n
  | .shutdown => { n with lifecycle := .finalized }
  | .setParameter name v => { n with params := store.set n.params name v }

/-- The life of a node object. -/
def run (n : ParamNode store) (ops : List (NodeOp R P)) : ParamNode store :=
  ops.foldl (step script) n

/-- What the store knows: nothing is declared before the first configuration, and after it the
first parameter is declared or has a value of the wrong type. -/
structure Inv (first : String) (dflt : ParamValue R) (n : ParamNode store) : Prop where
  fresh : n.outcomes = [] → ∀ m, store.declared n.params m = false
  used : n.outcomes ≠ [] → store.declared n.params first = true ∨
    store.declared n.params first = false ∧
      ∃ v, store.value n.params first = some v ∧ ParamValue.sameType v dflt = false

variable {first : String} {dflt : ParamValue R} {next : ParamValue R → ParamScript R P}

theorem onConfigure_snd (loads : P → Bool) (s : store.State) :
    (onConfigure store script loads s).2 = (script.run store s).2 := by
  unfold onConfigure
  rcases script.run store s with ⟨_ | p, s'⟩
  · rfl
  · rfl

/-- A configuration establishes what holds after the first one. -/
theorem Inv.configure {n : ParamNode store} (h : n.Inv first dflt) (loads : P → Bool) :
    (n.configure (.declare first dflt next) loads).Inv first dflt := by
  unfold ParamNode.configure
  split_ifs with hstate
  · exact h
  · refine ⟨fun hnil => absurd hnil (by simp), fun _ => ?_⟩
    simp only [onConfigure_snd]
    have hfirst : store.declared ((Script.declare first dflt next).run store n.params).2 first =
          true ∨ ((Script.declare first dflt next).run store n.params).2 = n.params ∧ _ :=
      Script.first_declared_or_mismatch store n.params
    rcases hfirst with hdecl | ⟨hsame, hmismatch⟩
    · exact Or.inl hdecl
    · rw [hsame]
      exact Or.inr hmismatch

/-- Setting a parameter from outside declares nothing. -/
theorem Inv.setParameter {n : ParamNode store} (h : n.Inv first dflt) (name : String)
    (v : ParamValue R) :
    ({ n with params := store.set n.params name v } : ParamNode store).Inv first dflt where
  fresh hnil m := by
    rw [store.declared_set]
    exact h.fresh hnil m
  used hne := by
    simp only [store.declared_set]
    rcases h.used hne with hdecl | ⟨hdecl, hmismatch⟩
    · exact Or.inl hdecl
    · rw [store.value_set n.params name v first hdecl]
      exact Or.inr ⟨hdecl, hmismatch⟩

theorem Inv.step {n : ParamNode store} (h : n.Inv first dflt) (op : NodeOp R P) :
    (n.step (.declare first dflt next) op).Inv first dflt := by
  cases op with
  | configure loads => exact h.configure loads
  | activate succeeds =>
    simp only [ParamNode.step]
    split_ifs
    · exact ⟨h.fresh, h.used⟩
    · exact h
  | deactivate =>
    simp only [ParamNode.step]
    split_ifs
    · exact ⟨h.fresh, h.used⟩
    · exact h
  | cleanup =>
    simp only [ParamNode.step]
    split_ifs
    · exact ⟨h.fresh, h.used⟩
    · exact h
  | shutdown => exact ⟨h.fresh, h.used⟩
  | setParameter name v => exact h.setParameter name v

/-- What the store knows after any life. -/
theorem inv_run {s : store.State} (hs : ∀ m, store.declared s m = false)
    (ops : List (NodeOp R P)) :
    (({ params := s } : ParamNode store).run (.declare first dflt next) ops).Inv first dflt := by
  induction ops using List.reverseRecOn with
  | nil => exact ⟨fun _ => hs, fun hne => absurd rfl hne⟩
  | append_singleton ops op ih =>
    rw [run, List.foldl_append]
    exact ih.step op

end ParamNode

/-- A valid configuration succeeds exactly the first time.  For every node object, after every life
that ends unconfigured: when the current values are valid and the models load for them, the next
`on_configure` succeeds exactly if there was none before. -/
def ConfiguresOnce (script : ParamScript R P) : Prop :=
  ∀ (store : ParamStore R) (s : store.State), (∀ m, store.declared s m = false) →
    ∀ (ops : List (NodeOp R P)) (p : P) (loads : P → Bool),
    let n := ({ params := s } : ParamNode store).run script ops
    n.lifecycle = .unconfigured →
    script.accepts ParamValue.sameType (store.value n.params) [] = some p → loads p = true →
    ((onConfigure store script loads n.params).1 = true ↔ n.outcomes = [])

/-- A script that starts with a declaration configures once.

**Proof sketch.** Before the first call nothing is declared, so the script does what it does on the
values alone (`Script.toOption_run`). After it the first parameter is declared, and the script
throws on it, or its value has the wrong type and the values are not valid. -/
theorem configuresOnce_of_declare {first : String} {dflt : ParamValue R}
    {next : ParamValue R → ParamScript R P} :
    ConfiguresOnce (.declare first dflt next : ParamScript R P) := by
  intro store s hs ops p loads n _ hvalid hloads
  have hinv : n.Inv first dflt := ParamNode.inv_run hs ops
  constructor
  · intro hok
    by_contra hne
    rcases hinv.used hne with hdecl | ⟨-, v, hv, htype⟩
    · obtain ⟨e, he⟩ : ∃ e, (Script.declare first dflt next).run store n.params =
          (.error e, n.params) := Script.run_of_declared store hdecl
      rw [onConfigure, he] at hok
      exact Bool.false_ne_true hok
    · simp [Script.accepts, hv, htype] at hvalid
  · intro hnil
    have hfresh := hinv.fresh hnil
    have hseen : ∀ m, store.declared n.params m = true ↔ m ∈ ([] : List String) :=
      fun m => by simp [hfresh m]
    have hrun := (Script.declare first dflt next).toOption_run store hseen fun m _ => rfl
    rw [hvalid] at hrun
    rw [onConfigure]
    rcases h : (Script.declare first dflt next).run store n.params with ⟨e | q, s'⟩
    · rw [h] at hrun
      cases hrun
    · rw [h] at hrun
      obtain rfl := Option.some.inj hrun
      exact hloads

/-- After a successful configuration and a cleanup, the values are as valid as before.

**Proof sketch.** On a fresh store the script does what it does on the values, so the
configuration succeeds.  The values it leaves are accepted again (`accepts_value_run`); that the
names stay declared does not matter for what is accepted from the values alone. -/
theorem configure_cleanup {store : ParamStore R} {s : store.State}
    (hs : ∀ m, store.declared s m = false) {script : ParamScript R P} {p : P}
    (hvalid : script.accepts ParamValue.sameType (store.value s) [] = some p) :
    let n := ({ params := s } : ParamNode store).run script [.configure fun _ => true, .cleanup]
    n.lifecycle = .unconfigured ∧ n.outcomes = [true] ∧
      script.accepts ParamValue.sameType (store.value n.params) [] = some p := by
  have hseen : ∀ m, store.declared s m = true ↔ m ∈ ([] : List String) := fun m => by simp [hs m]
  have hrun := script.toOption_run store hseen fun m _ => rfl
  rw [hvalid] at hrun
  have hok : onConfigure store script (fun _ => true) s = (true, (script.run store s).2) := by
    unfold onConfigure
    rcases h : script.run store s with ⟨e | q, s'⟩
    · rw [h] at hrun
      cases hrun
    · rfl
  have hvalues := script.accepts_value_run store ParamValue.sameType_self hseen hvalid
  have hconfigured : ({ params := s } : ParamNode store).configure script (fun _ => true) =
      ⟨.inactive, (script.run store s).2, [true]⟩ := by
    simp [ParamNode.configure, hok]
  intro n
  have hn : n = ⟨.unconfigured, (script.run store s).2, [true]⟩ := by
    simp [n, ParamNode.run, ParamNode.step, hconfigured]
  rw [hn]
  exact ⟨rfl, rfl, hvalues⟩

theorem tbd_configuresOnce : ConfiguresOnce (declareTbdParams : ParamScript R (TbdParams R)) :=
  configuresOnce_of_declare

theorem sot_configuresOnce : ConfiguresOnce (declareSotParams : ParamScript R (SotParams R)) :=
  configuresOnce_of_declare

/-- **Both tracker nodes configure exactly once.** -/
theorem configure_iff_first : ConfiguresOnce (declareTbdParams : ParamScript R (TbdParams R)) ∧
    ConfiguresOnce (declareSotParams : ParamScript R (SotParams R)) :=
  ⟨tbd_configuresOnce, sot_configuresOnce⟩

/-- The parameter services, as a map. -/
def mapParams : ParamStore ℚ :=
  mapStore ParamValue.sameType (fun name => "parameter '" ++ name ++ "' has already been declared")
    fun name => "parameter '" ++ name ++ "' has invalid type"

/-- The default parameters are valid. -/
theorem defaults_valid : ∃ p, (declareTbdParams : ParamScript ℚ (TbdParams ℚ)).accepts
    ParamValue.sameType (fun _ => none) [] = some p := by
  rw [← Option.isSome_iff_exists]
  decide +kernel

/-- The first configuration with the default parameters succeeds. -/
theorem configure_iff_first_defaults :
    (onConfigure mapParams declareTbdParams (fun _ => true) (MapState.new fun _ => none)).1 =
      true := by
  obtain ⟨p, hp⟩ := defaults_valid
  exact (configure_iff_first.1 mapParams (MapState.new fun _ => none) (fun _ => rfl) [] p
    (fun _ => true) rfl hp rfl).mpr rfl

/-- **A second configuration fails.** With the default parameters, after a successful
configuration and a cleanup. -/
theorem configure_again_fails :
    ¬∀ (store : ParamStore ℚ) (s : store.State), (∀ m, store.declared s m = false) →
      ∀ (ops : List (NodeOp ℚ (TbdParams ℚ))) (p : TbdParams ℚ) (loads : TbdParams ℚ → Bool),
      let n := ({ params := s } : ParamNode store).run declareTbdParams ops
      n.lifecycle = .unconfigured →
      declareTbdParams.accepts ParamValue.sameType (store.value n.params) [] = some p →
      loads p = true → (onConfigure store declareTbdParams loads n.params).1 = true := by
  intro h
  obtain ⟨p, hp⟩ := defaults_valid
  have hfresh : ∀ m, mapParams.declared (MapState.new fun _ => none) m = false := fun _ => rfl
  obtain ⟨hstate, houtcomes, hvalid⟩ := configure_cleanup hfresh hp
  have hok := h mapParams _ hfresh [.configure fun _ => true, .cleanup] p (fun _ => true) hstate
    hvalid rfl
  have hnil := (tbd_configuresOnce mapParams _ hfresh _ p (fun _ => true) hstate hvalid
    rfl).mp hok
  rw [houtcomes] at hnil
  cases hnil

end Ctrk
