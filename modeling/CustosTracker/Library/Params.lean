import Mathlib.Data.List.Basic
import Mathlib.Tactic

set_option relaxedAutoImplicit false
set_option autoImplicit false

/-!
# Scripts that declare named parameters

A script declares parameters one after the other, reads their values and may throw.  It runs
against a parameter store, which refuses a name that was declared before.

## Main definitions

* `Params.Script` — scripts, with their monad structure.
* `Params.Store` — a parameter store with its documented behaviour; `Params.mapStore` is one.
* `Params.Script.run` — a script on a store; `Params.Script.accepts` — on given values alone.

## Main results

* `Params.Script.declared_run` — what is declared stays declared.
* `Params.Script.toOption_run` — on a store without declarations, a script succeeds exactly when
  it accepts the values that are set.
* `Params.Script.accepts_value_run` — a script accepts the values it has read.
-/

namespace Params

variable {V E α β : Type}

/-! ## Scripts -/

/-- A script over values `V` and exceptions `E`. -/
inductive Script (V E α : Type)
  | done (a : α)
  | fail (e : E)
  | declare (name : String) (dflt : V) (next : V → Script V E α)

namespace Script

/-- Run one script after another. -/
def bind : Script V E α → (α → Script V E β) → Script V E β
  | done a, k => k a
  | fail e, _ => fail e
  | declare name dflt next, k => declare name dflt fun v => (next v).bind k

instance : Monad (Script V E) where
  pure := done
  bind := bind

@[simp] theorem pure_eq (a : α) : (pure a : Script V E α) = done a := rfl

@[simp] theorem done_bind (a : α) (k : α → Script V E β) : (done a >>= k) = k a := rfl

@[simp] theorem fail_bind (e : E) (k : α → Script V E β) : (fail e >>= k) = fail e := rfl

@[simp] theorem declare_bind (name : String) (dflt : V) (next : V → Script V E α)
    (k : α → Script V E β) :
    (declare name dflt next >>= k) = declare name dflt fun v => next v >>= k := rfl

/-- The result of a script on given values, when `seen` has been declared: a name must be new, and
a set value must have the type of the default. -/
def accepts (sameType : V → V → Bool) (values : String → Option V) :
    List String → Script V E α → Option α
  | _, done a => some a
  | _, fail _ => none
  | seen, declare name dflt next =>
    if name ∈ seen then none
    else match values name with
      | none => (next dflt).accepts sameType values (name :: seen)
      | some v =>
        if sameType v dflt then (next v).accepts sameType values (name :: seen) else none

end Script

/-! ## Stores -/

/-- A parameter store: which names are declared, and which values are set (of a declared name its
value, of another one the value it would be declared with). -/
structure Store (V E : Type) (sameType : V → V → Bool) where
  State : Type
  declared : State → String → Bool
  value : State → String → Option V
  /-- Declare a name with a default; throws or returns the value. -/
  declare : State → String → V → Except E V × State
  /-- Set a declared name from outside. -/
  set : State → String → V → State
  declare_declared : ∀ s n d, declared s n = true → ∃ e, declare s n d = (.error e, s)
  declare_mismatch : ∀ s n d v, declared s n = false → value s n = some v →
    sameType v d = false → ∃ e, declare s n d = (.error e, s)
  declare_unset : ∀ s n d, declared s n = false → value s n = none → (declare s n d).1 = .ok d
  declare_set : ∀ s n d v, declared s n = false → value s n = some v → sameType v d = true →
    (declare s n d).1 = .ok v
  declared_declare : ∀ s n d v m, (declare s n d).1 = .ok v →
    (declared (declare s n d).2 m = true ↔ m = n ∨ declared s m = true)
  value_declared : ∀ s n d v, (declare s n d).1 = .ok v → value (declare s n d).2 n = some v
  value_declare : ∀ s n d m, m ≠ n → value (declare s n d).2 m = value s m
  declared_set : ∀ s n v m, declared (set s n v) m = declared s m
  value_set : ∀ s n v m, declared s m = false → value (set s n v) m = value s m

variable {sameType : V → V → Bool} (store : Store V E sameType)

/-- What is declared stays declared.

**Proof sketch.** By cases on the call: a repeated declaration and one of the wrong type leave
the store as it is, and the others add a name. -/
theorem Store.declared_mono (s : store.State) (n : String) (d : V) {m : String}
    (hm : store.declared s m = true) : store.declared (store.declare s n d).2 m = true := by
  cases hn : store.declared s n with
  | true =>
    obtain ⟨e, he⟩ := store.declare_declared s n d hn
    rw [he]
    exact hm
  | false =>
    cases hv : store.value s n with
    | none =>
      have hok := store.declare_unset s n d hn hv
      exact (store.declared_declare s n d _ m hok).mpr (Or.inr hm)
    | some v =>
      cases ht : sameType v d with
      | true =>
        have hok := store.declare_set s n d v hn hv ht
        exact (store.declared_declare s n d _ m hok).mpr (Or.inr hm)
      | false =>
        obtain ⟨e, he⟩ := store.declare_mismatch s n d v hn hv ht
        rw [he]
        exact hm

namespace Script

/-- A script on a store. -/
def run : Script V E α → store.State → Except E α × store.State
  | done a, s => (.ok a, s)
  | fail e, s => (.error e, s)
  | declare name dflt next, s =>
    match store.declare s name dflt with
    | (.error e, s) => (.error e, s)
    | (.ok v, s) => (next v).run s

theorem run_declare (name : String) (dflt : V) (next : V → Script V E α) (s : store.State) :
    (declare name dflt next).run store s = match store.declare s name dflt with
      | (.error e, s) => (.error e, s)
      | (.ok v, s) => (next v).run store s := by
  rw [run]

/-- What is declared stays declared. -/
theorem declared_run (script : Script V E α) {s : store.State} {m : String}
    (hm : store.declared s m = true) : store.declared (script.run store s).2 m = true := by
  induction script generalizing s with
  | done a => exact hm
  | fail e => exact hm
  | declare name dflt next ih =>
    have hstep := store.declared_mono s name dflt hm
    rw [run_declare]
    rcases h : store.declare s name dflt with ⟨_ | v, s'⟩
    · rwa [h] at hstep
    · rw [h] at hstep
      exact ih v hstep

/-- A script that starts with a declared name throws and changes nothing. -/
theorem run_of_declared {name : String} {dflt : V} {next : V → Script V E α} {s : store.State}
    (h : store.declared s name = true) :
    ∃ e, (declare name dflt next).run store s = (.error e, s) := by
  obtain ⟨e, he⟩ := store.declare_declared s name dflt h
  exact ⟨e, by rw [run_declare, he]⟩

/-- After a run, the first name is declared, or its value has the wrong type and nothing changed.

**Proof sketch.** The first call of the script either succeeds, and what is declared stays
declared over the rest, or it fails by a repeated name, which is declared, or by a wrong type,
which leaves the store alone. -/
theorem first_declared_or_mismatch {name : String} {dflt : V} {next : V → Script V E α}
    (s : store.State) :
    store.declared ((declare name dflt next).run store s).2 name = true ∨
      ((declare name dflt next).run store s).2 = s ∧ store.declared s name = false ∧
        ∃ v, store.value s name = some v ∧ sameType v dflt = false := by
  have hok : ∀ v, (store.declare s name dflt).1 = .ok v →
      store.declared ((declare name dflt next).run store s).2 name = true := by
    intro v hv
    have hdecl := (store.declared_declare s name dflt v name hv).mpr (Or.inl rfl)
    rw [run_declare]
    rcases h : store.declare s name dflt with ⟨_ | v', s'⟩
    · rw [h] at hv
      cases hv
    · rw [h] at hdecl
      exact declared_run store (next v') hdecl
  cases hn : store.declared s name with
  | true => exact Or.inl (declared_run store _ hn)
  | false =>
    cases hv : store.value s name with
    | none => exact Or.inl (hok _ (store.declare_unset s name dflt hn hv))
    | some v =>
      cases ht : sameType v dflt with
      | true => exact Or.inl (hok _ (store.declare_set s name dflt v hn hv ht))
      | false =>
        obtain ⟨e, he⟩ := store.declare_mismatch s name dflt v hn hv ht
        refine Or.inr ⟨?_, rfl, v, rfl, ht⟩
        rw [run_declare, he]

/-- A script does what it does on the values alone, as long as the store and the script agree on
what has been declared.

**Proof sketch.** By induction on the script.  One declaration reads the same value on both
sides, or fails on both, and after a success store and script agree on one name more. -/
theorem toOption_run (script : Script V E α) {s : store.State} {values : String → Option V}
    {seen : List String} (hseen : ∀ n, store.declared s n = true ↔ n ∈ seen)
    (hvalues : ∀ n, n ∉ seen → store.value s n = values n) :
    (script.run store s).1.toOption = script.accepts sameType values seen := by
  induction script generalizing s seen with
  | done a => rfl
  | fail e => rfl
  | declare name dflt next ih =>
    rw [run_declare, accepts]
    by_cases hname : name ∈ seen
    · obtain ⟨e, he⟩ := store.declare_declared s name dflt ((hseen name).mpr hname)
      rw [he, if_pos hname]
      rfl
    · have hn : store.declared s name = false := by
        rw [Bool.eq_false_iff]
        exact fun h => hname ((hseen name).mp h)
      -- after a successful declaration the hypotheses hold with the name added
      have hnext : ∀ v, (store.declare s name dflt).1 = .ok v →
          ((next v).run store (store.declare s name dflt).2).1.toOption =
            (next v).accepts sameType values (name :: seen) := by
        intro v hv
        refine ih v (fun m => ?_) fun m hm => ?_
        · rw [store.declared_declare s name dflt v m hv, hseen, List.mem_cons]
        · rw [List.mem_cons, not_or] at hm
          rw [store.value_declare s name dflt m hm.1, hvalues m hm.2]
      rw [if_neg hname, ← hvalues name hname]
      cases hv : store.value s name with
      | none =>
        have hok := store.declare_unset s name dflt hn hv
        have hrest := hnext dflt hok
        rcases h : store.declare s name dflt with ⟨r, s'⟩
        rw [h] at hok hrest
        cases hok
        exact hrest
      | some v =>
        simp only
        split_ifs with ht
        · have hok := store.declare_set s name dflt v hn hv ht
          have hrest := hnext v hok
          rcases h : store.declare s name dflt with ⟨r, s'⟩
          rw [h] at hok hrest
          cases hok
          exact hrest
        · obtain ⟨e, he⟩ :=
            store.declare_mismatch s name dflt v hn hv (Bool.eq_false_of_not_eq_true ht)
          rw [he]
          rfl

/-- The value of a declared name survives a script. -/
theorem value_run (script : Script V E α) {s : store.State} {m : String}
    (hm : store.declared s m = true) : store.value (script.run store s).2 m = store.value s m := by
  induction script generalizing s with
  | done a => rfl
  | fail e => rfl
  | declare name dflt next ih =>
    rw [run_declare]
    by_cases hname : m = name
    · obtain ⟨e, he⟩ := store.declare_declared s name dflt (hname ▸ hm)
      rw [he]
    · have hmono := store.declared_mono s name dflt hm
      have hvalue := store.value_declare s name dflt m hname
      rcases h : store.declare s name dflt with ⟨_ | v, s'⟩
      · rwa [h] at hvalue
      · rw [h] at hmono hvalue
        exact (ih v hmono).trans hvalue

/-- **A script accepts the values it has read**: run on values it accepts, it leaves values it
accepts, with the same result.

**Proof sketch.** By induction on the script.  The first declaration leaves the value that it has
read under its name and no other name changed, so the rest accepts the same values; and reading
that value again gives it back, whatever the default. -/
theorem accepts_value_run (hrefl : ∀ v, sameType v v = true) (script : Script V E α)
    {s : store.State} {seen : List String} (hseen : ∀ n, store.declared s n = true ↔ n ∈ seen)
    {a : α} (ha : script.accepts sameType (store.value s) seen = some a) :
    script.accepts sameType (store.value (script.run store s).2) seen = some a := by
  induction script generalizing s seen with
  | done b => exact ha
  | fail e => exact ha
  | declare name dflt next ih =>
    rw [accepts] at ha ⊢
    split_ifs at ha with hname
    have hn : store.declared s name = false := by
      rw [Bool.eq_false_iff]
      exact fun h => hname ((hseen name).mp h)
    -- the value read, and the script behind it
    obtain ⟨v, hok, hnext, htype⟩ : ∃ v, (store.declare s name dflt).1 = .ok v ∧
        (next v).accepts sameType (store.value s) (name :: seen) = some a ∧
        (v = dflt ∨ sameType v dflt = true) := by
      cases hv : store.value s name with
      | none =>
        rw [hv] at ha
        exact ⟨dflt, store.declare_unset s name dflt hn hv, ha, Or.inl rfl⟩
      | some v =>
        simp only [hv] at ha
        split_ifs at ha with ht
        exact ⟨v, store.declare_set s name dflt v hn hv ht, ha, Or.inr ht⟩
    have htype' : sameType v dflt = true := by
      rcases htype with rfl | h
      · exact hrefl v
      · exact h
    have hdecl := fun m => store.declared_declare s name dflt v m hok
    have hself := store.value_declared s name dflt v hok
    have hothers := store.value_declare s name dflt
    rw [run_declare]
    rcases h : store.declare s name dflt with ⟨r, s'⟩
    rw [h] at hok hself
    simp only [h] at hdecl hothers
    obtain rfl : r = .ok v := hok
    have hseen' : ∀ n, store.declared s' n = true ↔ n ∈ name :: seen := by
      intro n
      rw [hdecl, hseen, List.mem_cons]
    have hnext' : (next v).accepts sameType (store.value s') (name :: seen) = some a := by
      have hsame : ((next v).run store s').1.toOption =
          (next v).accepts sameType (store.value s) (name :: seen) := by
        refine toOption_run store (next v) hseen' fun n hn => ?_
        rw [List.mem_cons, not_or] at hn
        exact hothers n hn.1
      have hself' : ((next v).run store s').1.toOption =
          (next v).accepts sameType (store.value s') (name :: seen) :=
        toOption_run store (next v) hseen' fun n _ => rfl
      rw [← hself', hsame]
      exact hnext
    have hrest := ih v hseen' hnext'
    have hvalue : store.value ((next v).run store s').2 name = some v := by
      rw [value_run store (next v) ((hdecl name).mpr (Or.inl rfl)), hself]
    simp only
    rw [if_neg hname, hvalue]
    simp only [htype', if_true]
    exact hrest

end Script

/-! ## A store -/

/-- The state of a map store: the overrides given at the start, and the declared values. -/
structure MapState (V : Type) where
  overrides : String → Option V
  declared : String → Option V

/-- The state of a new node. -/
def MapState.new (overrides : String → Option V) : MapState V := ⟨overrides, fun _ => none⟩

/-- Declare a name in a map. -/
def MapState.add (s : MapState V) (n : String) (v : V) : MapState V :=
  { s with declared := Function.update s.declared n (some v) }

/-- The store that keeps its values in a map, with the exceptions it throws. -/
def mapStore (sameType : V → V → Bool) (already mismatch : String → E) : Store V E sameType where
  State := MapState V
  declared s n := (s.declared n).isSome
  value s n := (s.declared n).or (s.overrides n)
  declare s n d :=
    if (s.declared n).isSome then (.error (already n), s)
    else match s.overrides n with
      | none => (.ok d, s.add n d)
      | some v => if sameType v d then (.ok v, s.add n v) else (.error (mismatch n), s)
  set s n v :=
    match s.declared n with
    | none => s
    | some old => if sameType v old then s.add n v else s
  declare_declared s n d h := ⟨already n, by rw [if_pos h]⟩
  declare_mismatch s n d v hn hv ht := by
    have hnone : s.declared n = none := by simpa using hn
    rw [hnone, Option.none_or] at hv
    exact ⟨mismatch n, by simp [hnone, hv, ht]⟩
  declare_unset s n d hn hv := by
    have hnone : s.declared n = none := by simpa using hn
    rw [hnone, Option.none_or] at hv
    simp [hnone, hv]
  declare_set s n d v hn hv ht := by
    have hnone : s.declared n = none := by simpa using hn
    rw [hnone, Option.none_or] at hv
    simp [hnone, hv, ht]
  declared_declare s n d v m hok := by
    have hadd : ∀ w : V, ((s.add n w).declared m).isSome = true ↔
        m = n ∨ (s.declared m).isSome = true := by
      intro w
      by_cases hm : m = n
      · simp [MapState.add, hm]
      · simp [MapState.add, hm]
    split_ifs at hok ⊢
    cases hv : s.overrides n with
    | none => exact hadd d
    | some w =>
      simp only [hv] at hok ⊢
      split_ifs at hok ⊢
      exact hadd w
  value_declared s n d v hok := by
    have hadd : ∀ w : V, ((s.add n w).declared n).or ((s.add n w).overrides n) = some w := by
      intro w
      simp [MapState.add]
    split_ifs at hok ⊢
    cases hv : s.overrides n with
    | none =>
      simp only [hv] at hok ⊢
      rw [hadd, Except.ok.inj hok]
    | some w =>
      simp only [hv] at hok ⊢
      split_ifs at hok ⊢
      rw [hadd, Except.ok.inj hok]
  value_declare s n d m hm := by
    have hadd : ∀ w : V, (s.add n w).declared m = s.declared m ∧
        (s.add n w).overrides m = s.overrides m := by
      intro w
      simp [MapState.add, hm]
    split_ifs
    · rfl
    · cases hv : s.overrides n with
      | none => simp only [(hadd d).1, (hadd d).2]
      | some w =>
        simp only
        split_ifs
        · simp only [(hadd w).1, (hadd w).2]
        · rfl
  declared_set s n v m := by
    cases hold : s.declared n with
    | none => rfl
    | some old =>
      simp only
      split_ifs
      · by_cases hm : m = n
        · simp [MapState.add, hm, hold]
        · simp [MapState.add, hm]
      · rfl
  value_set s n v m hm := by
    have hnone : s.declared m = none := by simpa using hm
    cases hold : s.declared n with
    | none => rfl
    | some old =>
      have hne : m ≠ n := by
        rintro rfl
        rw [hnone] at hold
        cases hold
      simp only
      split_ifs
      · simp [MapState.add, hne]
      · rfl

end Params
