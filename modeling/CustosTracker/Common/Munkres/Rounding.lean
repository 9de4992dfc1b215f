import CustosTracker.Common.MachineNumbers
import CustosTracker.Common.Munkres.Machine

set_option relaxedAutoImplicit false
set_option autoImplicit false

/-!
# The solver in machine arithmetic

The machine of `Common/Munkres/Machine` over any type with the operators of the language.  Over a
`Scalar` it is that machine; over `Float` it is the compiled solver, whose `adjust` adds and
subtracts the least uncovered cost in turn.  On a starred cell of a covered row and an uncovered
column the two do not cancel, and a cell that was a zero for `is_zero` may cease to be one.

## Main definitions

* `Ctrk.Cpp.reduce`, `Ctrk.Cpp.adjust`, `Ctrk.Cpp.step` — the parts of the solver that compute with
  costs.

## Main results

* `Ctrk.Cpp.step_exact`, `Ctrk.Cpp.startSolve_exact` — in exact arithmetic this is the machine.
* `Ctrk.Cpp.augment_drift` — a call of `augment` after which a star stands on no zero.
-/

namespace Ctrk

namespace Cpp

open Matching StateTransition

open Munkres (Control)

section Machine

variable {F : Type} [Add F] [Sub F] [Div F] [LT F] [DecidableLT F] [CMath F] {n : ℕ}

/-- The minimum of a list, as a loop over it. -/
def minOf : List F → F
  | [] => CMath.maxValue
  | v :: l => l.foldl stdMin v

/-- `is_zero`. -/
def isZero (v : F) : Bool := decide (CMath.abs v < ratio 1 (10 ^ 9))

/-- `reduce`. -/
def reduce (m : Munkres F n) : Munkres F n :=
  let c₁ := fun i j => m.c i j - minOf ((List.finRange n).map (m.c i))
  { m with c := fun i j => c₁ i j - minOf ((List.finRange n).map fun k => c₁ k j) }

/-- One cell of `star_initial`. -/
def starCell (c : Fin n → Fin n → F)
    (s : (Fin n → Fin n → Bool) × (Fin n → Bool) × (Fin n → Bool)) (z : Fin n × Fin n) :
    (Fin n → Fin n → Bool) × (Fin n → Bool) × (Fin n → Bool) :=
  if !s.2.1 z.1 && !s.2.2 z.2 && isZero (c z.1 z.2) then
    (setCell s.1 z.1 z.2 true, Function.update s.2.1 z.1 true, Function.update s.2.2 z.2 true)
  else s

/-- `star_initial`. -/
def starInitial (m : Munkres F n) : Munkres F n :=
  { m with star :=
      ((cells n).foldl (starCell m.c) (m.star, fun _ => false, fun _ => false)).1 }

/-- `find_uncovered_zero`. -/
def findUncoveredZero (m : Munkres F n) : Option (Fin n × Fin n) :=
  (List.finRange n).findSome? fun i =>
    if m.rowCov i then none
    else ((List.finRange n).find? fun j => !m.colCov j && isZero (m.c i j)).map fun j => (i, j)

/-- `adjust`: covered rows gain the least uncovered cost, then uncovered columns lose it. -/
def adjust (m : Munkres F n) : Munkres F n :=
  let e := minOf (((cells n).filter fun z => !m.rowCov z.1 && !m.colCov z.2).map fun z =>
    m.c z.1 z.2)
  { m with c := fun i j =>
      let v := if m.rowCov i then m.c i j + e else m.c i j
      if m.colCov j then v else v - e }

/-- One pass of the loop a run stands at. -/
def step : Control F n → Option (Control F n)
  | .cover m =>
    let m := m.coverStarColumns
    if m.allCovered then some (.done m) else some (.search m)
  | .search m =>
    match findUncoveredZero m with
    | none => some (.search (adjust m))
    | some z =>
      let m := m.primeCell z
      match Munkres.starInRow m.star z.1 with
      | none => some (.walk m [] z)
      | some s => some (.search (m.coverRow z.1 s))
  | .walk m pre z =>
    match Munkres.starInCol m.star z.2 with
    | none =>
      some (.cover { m with star := Munkres.flip m.star (pre ++ [z]) }.clearCoversAndPrimes)
    | some r => (Munkres.primeInRow m.prime r).map fun c => .walk m (pre ++ [z, (r, z.2)]) (r, c)
  | .done _ => none

/-- A run starts after `reduce` and `star_initial`. -/
def startSolve (c₀ : Fin n → Fin n → F) : Control F n :=
  .cover (starInitial (reduce (Munkres.new c₀)))

/-- A number of steps in a row. -/
def steps : ℕ → Control F n → Option (Control F n)
  | 0, s => some s
  | k + 1, s => (step s).bind (steps k)

/-- Steps in a row are a run. -/
theorem reaches_of_steps {k : ℕ} {s t : Control F n} (h : steps k s = some t) :
    Reaches step s t := by
  induction k generalizing s with
  | zero =>
    obtain rfl := Option.some.inj h
    exact .refl
  | succ k ih =>
    obtain ⟨s', hs', ht⟩ := Option.bind_eq_some_iff.mp h
    exact Relation.ReflTransGen.head (Option.mem_def.mpr hs') (ih ht)

end Machine

/-! ## In exact arithmetic -/

section Exact

variable {R : Type} [Scalar R] {n : ℕ}

theorem minOf_exact (l : List R) : minOf l = Ctrk.minOf l := by
  have hmin : (stdMin : R → R → R) = min := funext fun a => funext fun b => stdMin_eq_min a b
  cases l with
  | nil => rfl
  | cons v l => rw [minOf, hmin, Ctrk.minOf, List.min?_cons', Option.getD_some]

theorem isZero_exact (v : R) : isZero v = Ctrk.isZero v := by
  simp only [isZero, Ctrk.isZero, kZeroEps, abs_exact, ratio_exact]
  norm_num

theorem adjust_exact (m : Munkres R n) : adjust m = m.adjust := by
  simp only [adjust, Munkres.adjust, Munkres.minUncovered, minOf_exact]

theorem findUncoveredZero_exact (m : Munkres R n) :
    findUncoveredZero m = m.findUncoveredZero := by
  simp only [findUncoveredZero, Munkres.findUncoveredZero, isZero_exact]

/-- **In exact arithmetic** every pass is a pass of the machine, -/
theorem step_exact (s : Control R n) : step s = Munkres.step s := by
  cases s with
  | search m =>
    cases hzero : m.findUncoveredZero with
    | none => simp only [step, Munkres.step, findUncoveredZero_exact, adjust_exact, hzero]
    | some z =>
      cases hstar : Munkres.starInRow (m.primeCell z).star z.1 with
      | none => simp only [step, Munkres.step, findUncoveredZero_exact, hzero, hstar]
      | some s => simp only [step, Munkres.step, findUncoveredZero_exact, hzero, hstar]
  | cover m => rfl
  | walk m pre z => rfl
  | done m => rfl

/-- and a run starts where the machine does. -/
theorem startSolve_exact (c₀ : Fin n → Fin n → R) : startSolve c₀ = Munkres.start c₀ := by
  simp only [startSolve, Munkres.start, starInitial, Munkres.starInitial, reduce, Munkres.reduce,
    minOf_exact]
  have hcell : ∀ c : Fin n → Fin n → R, starCell c = Munkres.starCell c := by
    intro c
    funext s z
    rw [starCell, Munkres.starCell, isZero_exact]
  simp only [hcell]

end Exact

/-! ## In double precision -/

/-- The entry `9.95e-10`, as the `float` that is nearest to it. -/
def tiny : Float := CMath.ofInt 8962163 / CMath.ofInt (2 ^ 53)

/-- A matrix with a star on a cell just below `kZeroEps`. -/
def driftMatrix : Fin 4 → Fin 4 → Float
  | 0 => ![tiny, 0, 2000000, 0]
  | 1 => ![0, 0, 2000000, 2000000]
  | 2 => ![2000000, 2000000, 0, 2000000]
  | 3 => ![2000000, 2000000, 0, 1000000]

/-- The first call of `augment` and what it leaves: the star of the first row before and after, and
whether it stands on a zero afterwards. -/
def firstAugment : Option (Bool × Bool × Bool) :=
  (steps 5 (startSolve driftMatrix)).bind fun s => s.callOf.bind fun call =>
    (Munkres.augment 5 call.1 call.2).map fun m =>
      (call.1.star 0 0, m.star 0 0, isZero (m.c 0 0))

/-- Three zeros are starred, two rows covered, and `adjust` moves a million through the starred cell
of the first row.  The next zero has a row without a star: `augment` keeps the star in the first row
and leaves it on a cell that is no zero any more. -/
theorem augment_drift : ∃ (m m' : Munkres Float 4) (z : Fin 4 × Fin 4),
    Reaches step (startSolve driftMatrix) (.walk m [] z) ∧ Munkres.augment 5 m z = some m' ∧
      m.star 0 0 = true ∧ m'.star 0 0 = true ∧ ¬CMath.abs (m'.c 0 0) < ratio 1 (10 ^ 9) := by
  have hrun : firstAugment = some (true, true, false) := by decide +kernel
  obtain ⟨s, hs, hcall⟩ := Option.bind_eq_some_iff.mp hrun
  obtain ⟨⟨m, z⟩, hmz, haug⟩ := Option.bind_eq_some_iff.mp hcall
  obtain ⟨m', hm', hstars⟩ := Option.map_eq_some_iff.mp haug
  simp only [Prod.mk.injEq] at hstars
  obtain ⟨hbefore, hafter, hzero⟩ := hstars
  refine ⟨m, m', z, Munkres.eq_of_callOf hmz ▸ reaches_of_steps hs, hm', hbefore, hafter, ?_⟩
  exact of_decide_eq_false hzero

end Cpp

end Ctrk
