import CustosTracker.Common.Geometry

set_option relaxedAutoImplicit false
set_option autoImplicit false

/-!
# The numbers of the machine

The core computes with `float` and `double`; the rest of this development computes exactly.  What
infinities, `NaN`s and rounding change is visible only where a function is written over any type
with the operators of the language: over a `Scalar` such a function is the exact definition, over
`Float32` and `Float` it is what the compiled code computes.

## Main definitions

* `Ctrk.CMath` — the conversions and the routines of `<cmath>`.
* `Ctrk.Cpp.stdMin`, `Ctrk.Cpp.stdMax`, `Ctrk.Cpp.stdClamp` — the comparisons of `<algorithm>`, in
  the order in which they compare.

## Main results

* `Ctrk.Cpp.stdMin_eq_min`, `Ctrk.Cpp.stdMax_eq_max`, `Ctrk.Cpp.stdClamp_eq_clamp` — over a linear
  order they are minimum, maximum and clamp.

## Implementation notes

`Float32` and `Float` are IEEE 754 binary32 and binary64 with rounding to the nearest, ties to
even.  A conversion to `int` that the language leaves open (of a `NaN`, or out of range) gives the
least `int`, as the conversion instruction of x86 does.
-/

namespace Ctrk

/-- The conversions between numbers and integers, and the library routines of `<cmath>`. -/
class CMath (F : Type) where
  /-- `static_cast` of an integer. -/
  ofInt : ℤ → F
  /-- `static_cast<int>`. -/
  toInt : F → ℤ
  /-- `std::sqrt`. -/
  sqrt : F → F
  /-- `std::abs`. -/
  abs : F → F
  /-- `std::numeric_limits::max()`. -/
  maxValue : F

/-- Exact arithmetic. -/
instance exactMath {R : Type} [Scalar R] : CMath R where
  ofInt n := (n : R)
  toInt := Scalar.toInt
  sqrt := Scalar.sqrt
  abs x := |x|
  maxValue := 2 ^ 1024 - 2 ^ 971

/-- `float`. -/
instance floatMath : CMath Float32 where
  ofInt := Float32.ofInt
  toInt x :=
    if -2147483649 < x ∧ x < 2147483648 then
      if x < 0 then -((-x).toUInt32.toNat : ℤ) else (x.toUInt32.toNat : ℤ)
    else -2147483648
  sqrt := Float32.sqrt
  abs := Float32.abs
  maxValue := Float32.ofInt (2 ^ 128 - 2 ^ 104)

/-- `double`. -/
instance doubleMath : CMath Float where
  ofInt := Float.ofInt
  toInt x :=
    if -2147483649 < x ∧ x < 2147483648 then
      if x < 0 then -((-x).toUInt32.toNat : ℤ) else (x.toUInt32.toNat : ℤ)
    else -2147483648
  sqrt := Float.sqrt
  abs := Float.abs
  maxValue := Float.ofInt (2 ^ 1024 - 2 ^ 971)

example : CMath.toInt (-3.75 : Float32) = -3 ∧ CMath.toInt (0 / 0 : Float32) = -2147483648 := by
  decide +kernel

namespace Cpp

variable {F : Type}

/-- A decimal literal, as the quotient of two integers that are numbers themselves. -/
def ratio [Div F] [CMath F] (p q : ℤ) : F := CMath.ofInt p / CMath.ofInt q

section Compare

variable [LT F] [DecidableLT F]

/-- `std::min`. -/
def stdMin (a b : F) : F := if b < a then b else a

/-- `std::max`. -/
def stdMax (a b : F) : F := if a < b then b else a

/-- `std::clamp`. -/
def stdClamp (v lo hi : F) : F := if v < lo then lo else if hi < v then hi else v

end Compare

/-- A comparison with `NaN` is false: the minimum is its first argument, and a clamp keeps it. -/
example : (stdMin (0 / 0 : Float32) 1).isNaN ∧ (stdClamp (0 / 0 : Float32) 0 1).isNaN := by
  decide +kernel

/-! ## In exact arithmetic -/

section Exact

variable {R : Type} [Scalar R]

@[simp] theorem ofInt_exact (n : ℤ) : (CMath.ofInt n : R) = n := rfl

@[simp] theorem toInt_exact (x : R) : CMath.toInt x = Scalar.toInt x := rfl

@[simp] theorem sqrt_exact (x : R) : CMath.sqrt x = Scalar.sqrt x := rfl

@[simp] theorem abs_exact (x : R) : CMath.abs x = |x| := rfl

@[simp] theorem ratio_exact (p q : ℤ) : (ratio p q : R) = p / q := rfl

@[simp] theorem stdMin_eq_min (a b : R) : stdMin a b = min a b := by
  rw [stdMin, min_comm, min_def_lt]

@[simp] theorem stdMax_eq_max (a b : R) : stdMax a b = max a b := by
  rw [stdMax, max_def_lt]

@[simp] theorem stdClamp_eq_clamp (v lo hi : R) : stdClamp v lo hi = clamp v lo hi := rfl

end Exact

end Cpp

end Ctrk
