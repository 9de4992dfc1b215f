import CustosTracker.Types
import CustosTracker.Library.Matching

set_option relaxedAutoImplicit false
set_option autoImplicit false

/-!
# Minimum-cost assignment

The star/prime Munkres solver of `core/src/common/munkres.cpp`, loop by loop.

A solver value holds the mutable members of the class: the reduced cost matrix, the stars, the
primes and the two cover vectors.  Each unbounded loop of the source takes a number of
iterations it may use and answers `none` when they run out; `munkresSolve` gives every loop
`n + 2` iterations for an `n × n` matrix.

## Main definitions

* `Ctrk.Munkres` — the solver state.
* `Ctrk.Munkres.augment`, `Ctrk.Munkres.adjust`, `Ctrk.Munkres.solve` — its steps.
* `Ctrk.munkresSolve` — the padded solver on a rectangular matrix.

## Implementation notes

Matrices are functions on `Fin n`, so an index is in range by construction; `-1` results are
`none`.  The sentinel `std::numeric_limits<double>::max()` seeding the minima is the value of
an empty minimum only (`minOf`).
-/

namespace Ctrk

open Matching

variable {R : Type} [Scalar R]

/-- `kZeroEps`: cells closer to zero than this count as zeros. -/
def kZeroEps : R := 1 / 10 ^ 9

/-- `std::numeric_limits<double>::max()`. -/
def doubleMax : R := 2 ^ 1024 - 2 ^ 971

/-- The minimum of a list, with the source's sentinel for the empty list. -/
def minOf (l : List R) : R := l.min?.getD doubleMax

/-- `is_zero`. -/
def isZero (v : R) : Bool := decide (|v| < kZeroEps)

/-- All cells of an `n × n` matrix in the order of the source's double loop. -/
def cells (n : ℕ) : List (Fin n × Fin n) := (List.finRange n) ×ˢ (List.finRange n)

/-- The members of the solver that its steps change. -/
structure Munkres (R : Type) (n : ℕ) where
  c : Fin n → Fin n → R
  star : Fin n → Fin n → Bool
  prime : Fin n → Fin n → Bool
  rowCov : Fin n → Bool
  colCov : Fin n → Bool

namespace Munkres

variable {n : ℕ}

/-- The constructor: no star, no prime, nothing covered. -/
def new (c : Fin n → Fin n → R) : Munkres R n :=
  ⟨c, fun _ _ => false, fun _ _ => false, fun _ => false, fun _ => false⟩

/-- Subtract from every row its minimum, then from every column its minimum. -/
def reduce (m : Munkres R n) : Munkres R n :=
  let c₁ := fun i j => m.c i j - minOf ((List.finRange n).map (m.c i))
  { m with c := fun i j => c₁ i j - minOf ((List.finRange n).map fun k => c₁ k j) }

/-- One cell of the initial starring: star a zero whose row and column are still unused. -/
def starCell (c : Fin n → Fin n → R)
    (s : (Fin n → Fin n → Bool) × (Fin n → Bool) × (Fin n → Bool)) (z : Fin n × Fin n) :
    (Fin n → Fin n → Bool) × (Fin n → Bool) × (Fin n → Bool) :=
  if !s.2.1 z.1 && !s.2.2 z.2 && isZero (c z.1 z.2) then
    (setCell s.1 z.1 z.2 true, Function.update s.2.1 z.1 true, Function.update s.2.2 z.2 true)
  else s

/-- Greedy starring of independent zeros, in row-major order. -/
def starInitial (m : Munkres R n) : Munkres R n :=
  { m with star :=
      ((cells n).foldl (starCell m.c) (m.star, fun _ => false, fun _ => false)).1 }

/-- Cover exactly the columns that hold a star. -/
def coverStarColumns (m : Munkres R n) : Munkres R n :=
  { m with colCov := fun j => (List.finRange n).any fun i => m.star i j }

/-- The result of `cover_star_columns`: all `n` columns are covered. -/
def allCovered (m : Munkres R n) : Bool := (List.finRange n).countP m.colCov == n

/-- The first uncovered zero in row-major order. -/
def findUncoveredZero (m : Munkres R n) : Option (Fin n × Fin n) :=
  (List.finRange n).findSome? fun i =>
    if m.rowCov i then none
    else ((List.finRange n).find? fun j => !m.colCov j && isZero (m.c i j)).map fun j => (i, j)

/-- The first starred column of a row. -/
def starInRow (star : Fin n → Fin n → Bool) (row : Fin n) : Option (Fin n) :=
  (List.finRange n).find? fun j => star row j

/-- The first starred row of a column. -/
def starInCol (star : Fin n → Fin n → Bool) (col : Fin n) : Option (Fin n) :=
  (List.finRange n).find? fun i => star i col

/-- The first primed column of a row. -/
def primeInRow (prime : Fin n → Fin n → Bool) (row : Fin n) : Option (Fin n) :=
  (List.finRange n).find? fun j => prime row j

/-- The path loop of `augment` from the primed cell `z`: the star of its column, then the prime
of that star's row, and so on until a column without a star.  Besides running out of
iterations, the path fails where `prime_in_row` answers `-1`. -/
def path (star prime : Fin n → Fin n → Bool) :
    ℕ → Fin n × Fin n → Option (List (Fin n × Fin n))
  | 0, _ => none
  | k + 1, z =>
    match starInCol star z.2 with
    | none => some [z]
    | some r =>
      match primeInRow prime r with
      | none => none
      | some c => (path star prime k (r, c)).map fun p => z :: (r, z.2) :: p

/-- Along the path, cells at even positions become stars and cells at odd positions lose
theirs. -/
def flip (star : Fin n → Fin n → Bool) (p : List (Fin n × Fin n)) : Fin n → Fin n → Bool :=
  p.zipIdx.foldl (fun s z => setCell s z.1.1 z.1.2 (z.2 % 2 == 0)) star

/-- Augment along the alternating path from the primed zero `z`. -/
def augment (fuel : ℕ) (m : Munkres R n) (z : Fin n × Fin n) : Option (Munkres R n) :=
  (path m.star m.prime fuel z).map fun p => { m with star := flip m.star p }

/-- Uncover everything and erase all primes. -/
def clearCoversAndPrimes (m : Munkres R n) : Munkres R n :=
  { m with prime := fun _ _ => false, rowCov := fun _ => false, colCov := fun _ => false }

/-- The smallest uncovered cost. -/
def minUncovered (m : Munkres R n) : R :=
  minOf (((cells n).filter fun z => !m.rowCov z.1 && !m.colCov z.2).map fun z => m.c z.1 z.2)

/-- Shift the smallest uncovered cost onto the covered rows and off the uncovered columns. -/
def adjust (m : Munkres R n) : Munkres R n :=
  let e := m.minUncovered
  { m with c := fun i j =>
      let v := if m.rowCov i then m.c i j + e else m.c i j
      if m.colCov j then v else v - e }

/-- `while (!find_uncovered_zero(zr, zc)) adjust();` -/
def search : ℕ → Munkres R n → Option (Munkres R n × (Fin n × Fin n))
  | 0, _ => none
  | k + 1, m =>
    match m.findUncoveredZero with
    | some z => some (m, z)
    | none => search k m.adjust

/-- `prime_[zr][zc] = true;` -/
def primeCell (m : Munkres R n) (z : Fin n × Fin n) : Munkres R n :=
  { m with prime := setCell m.prime z.1 z.2 true }

/-- `row_cov_[zr] = true; col_cov_[star_col] = false;` -/
def coverRow (m : Munkres R n) (i s : Fin n) : Munkres R n :=
  { m with rowCov := Function.update m.rowCov i true, colCov := Function.update m.colCov s false }

/-- The inner loop: prime uncovered zeros, trading a starred column's cover for its row's,
until a primed row has no star; then augment and clear. -/
def primeLoop (fuel : ℕ) : ℕ → Munkres R n → Option (Munkres R n)
  | 0, _ => none
  | k + 1, m =>
    (search fuel m).bind fun mz =>
      let z := mz.2
      let m := mz.1.primeCell z
      match starInRow m.star z.1 with
      | none => (augment fuel m z).map clearCoversAndPrimes
      | some s => primeLoop fuel k (m.coverRow z.1 s)

/-- The outer loop: cover the starred columns, and augment until all columns are covered. -/
def coverLoop (fuel : ℕ) : ℕ → Munkres R n → Option (Munkres R n)
  | 0, _ => none
  | k + 1, m =>
    let m := m.coverStarColumns
    if m.allCovered then some m
    else (primeLoop fuel fuel m).bind (coverLoop fuel k)

/-- `solve`: the final star matrix. -/
def solve (fuel : ℕ) (m : Munkres R n) : Option (Fin n → Fin n → Bool) :=
  (coverLoop fuel fuel m.reduce.starInitial).map Munkres.star

end Munkres

/-- The rectangular cost matrix padded with free dummy cells to a square one. -/
def padded {rows cols : ℕ} (cost : Fin rows → Fin cols → R) :
    Fin (max rows cols) → Fin (max rows cols) → R := fun i j =>
  if h : i.val < rows ∧ j.val < cols then cost ⟨i, h.1⟩ ⟨j, h.2⟩ else 0

/-- The starred column of a row, restricted to the real columns; as in the source's loop, the
last one counts. -/
def rowToCol {rows cols : ℕ} (star : Fin (max rows cols) → Fin (max rows cols) → Bool)
    (i : Fin rows) : Option (Fin cols) :=
  (List.finRange cols).foldl
    (fun acc j =>
      if star (i.castLE (le_max_left rows cols)) (j.castLE (le_max_right rows cols)) then some j
      else acc) none

/-- `munkres_solve`: for each row the assigned column, or `none`.  The second `none` case
stands for a solver that ran out of iterations. -/
def munkresSolve {rows cols : ℕ} (cost : Fin rows → Fin cols → R) : Fin rows → Option (Fin cols) :=
  if rows = 0 ∨ cols = 0 then fun _ => none
  else
    match (Munkres.new (padded cost)).solve (max rows cols + 2) with
    | some star => rowToCol star
    | none => fun _ => none

end Ctrk
