import Mathlib

set_option relaxedAutoImplicit false
set_option autoImplicit false

/-!
# Decimal numbers as text

Numbers printed with a fixed number of decimals, and a reader of decimal literals.  The reader gives
back the sign, the digits as one number, and the power of ten they are to be multiplied with.

## Main definitions

* `Decimal.print` — a number of units of the last decimal, printed.
* `Decimal.read` — a decimal literal, read.
* `Decimal.value` — the number a literal stands for.

## Main results

* `Decimal.read_print` — what is printed is read back.
* `Decimal.mem_print`, `Decimal.length_print_le` — which characters are printed, and how many.
-/

namespace Decimal

/-! ## Printing -/

/-- The last `d` digits of a number. -/
def lastDigits : ℕ → ℕ → List Char
  | 0, _ => []
  | d + 1, n => lastDigits d (n / 10) ++ [Nat.digitChar (n % 10)]

/-- The number `n / 10 ^ d` with its sign, printed with `d` decimals. -/
def print (d : ℕ) (neg : Bool) (n : ℕ) : List Char :=
  (if neg then ['-'] else []) ++ (Nat.toDigits 10 (n / 10 ^ d) ++ '.' :: lastDigits d n)

@[simp] theorem length_lastDigits (d n : ℕ) : (lastDigits d n).length = d := by
  induction d generalizing n with
  | zero => rfl
  | succ d ih => rw [lastDigits, List.length_append, ih, List.length_singleton]

theorem isDigit_of_mem_lastDigits {d n : ℕ} {c : Char} (h : c ∈ lastDigits d n) :
    c.isDigit = true := by
  induction d generalizing n with
  | zero => exact absurd h List.not_mem_nil
  | succ d ih =>
    rw [lastDigits, List.mem_append, List.mem_singleton] at h
    rcases h with h | rfl
    · exact ih h
    · have hlt : n % 10 < 10 := Nat.mod_lt _ (by decide)
      interval_cases n % 10 <;> rfl

/-- Reading the last digits after a number appends them to it. -/
theorem ofDigitChars_lastDigits (d n init : ℕ) :
    Nat.ofDigitChars 10 (lastDigits d n) init = init * 10 ^ d + n % 10 ^ d := by
  induction d generalizing n with
  | zero => simp [lastDigits, Nat.mod_one]
  | succ d ih =>
    have hsplit : n % 10 ^ (d + 1) = 10 * (n / 10 % 10 ^ d) + n % 10 := by
      rw [pow_succ', Nat.mod_mul, Nat.add_comm]
    rw [lastDigits, Nat.ofDigitChars_append, ih,
      Nat.ofDigitChars_cons_digitChar_of_lt_ten (Nat.mod_lt _ (by decide)), Nat.ofDigitChars_nil,
      hsplit]
    ring

/-- Printed numbers are made of digits, a point and a sign. -/
theorem mem_print {d : ℕ} {neg : Bool} {n : ℕ} {c : Char} (h : c ∈ print d neg n) :
    c.isDigit = true ∨ c = '.' ∨ c = '-' := by
  rw [print, List.mem_append, List.mem_append, List.mem_cons] at h
  rcases h with h | h | h | h
  · cases neg
    · exact absurd h List.not_mem_nil
    · exact Or.inr (Or.inr (List.mem_singleton.mp h))
  · exact Or.inl (Nat.isDigit_of_mem_toDigits (by decide) le_rfl h)
  · exact Or.inr (Or.inl h)
  · exact Or.inl (isDigit_of_mem_lastDigits h)

theorem print_ne_nil (d : ℕ) (neg : Bool) (n : ℕ) : print d neg n ≠ [] := by
  simp [print]

/-- A number with at most `k` digits before the point is printed with at most `k + d + 2`
characters. -/
theorem length_print_le {d k n : ℕ} (hk : 0 < k) (h : n < 10 ^ (k + d)) (neg : Bool) :
    (print d neg n).length ≤ k + d + 2 := by
  have hint : (Nat.toDigits 10 (n / 10 ^ d)).length ≤ k := by
    rw [Nat.length_toDigits_le_iff (by decide) hk]
    exact Nat.div_lt_of_lt_mul (by rwa [← pow_add, Nat.add_comm])
  have hsign : (if neg then ['-'] else []).length ≤ 1 := by
    cases neg <;> decide
  rw [print, List.length_append, List.length_append, List.length_cons, length_lastDigits]
  omega

/-- Without its sign a number is not printed longer. -/
theorem length_print_false_le (d : ℕ) (neg : Bool) (n : ℕ) :
    (print d false n).length ≤ (print d neg n).length := by
  cases neg <;> simp [print]

/-! ## Reading -/

/-- A sign and what follows it. -/
def sign : List Char → Bool × List Char
  | '-' :: cs => (true, cs)
  | '+' :: cs => (false, cs)
  | cs => (false, cs)

/-- The exponent at the end of a literal. -/
def readExponent : List Char → Option ℤ
  | [] => some 0
  | c :: cs =>
    let s := sign cs
    let e : ℤ := Nat.ofDigitChars 10 s.2 0
    if (c = 'e' ∨ c = 'E') ∧ s.2 ≠ [] ∧ s.2.all Char.isDigit then some (if s.1 then -e else e)
    else none

/-- The digits after a point, and what follows them. -/
def fraction : List Char → List Char × List Char
  | '.' :: cs => (cs.takeWhile Char.isDigit, cs.dropWhile Char.isDigit)
  | cs => ([], cs)

/-- A decimal literal: its sign, its digits as one number, and its power of ten. -/
def read (cs : List Char) : Option (Bool × ℕ × ℤ) :=
  let s := sign cs
  let int := s.2.takeWhile Char.isDigit
  let frac := fraction (s.2.dropWhile Char.isDigit)
  if int = [] ∧ frac.1 = [] then none
  else (readExponent frac.2).map fun e =>
    (s.1, Nat.ofDigitChars 10 (int ++ frac.1) 0, e - frac.1.length)

/-- The number a literal stands for. -/
def value {R : Type} [Field R] (l : Bool × ℕ × ℤ) : R :=
  (if l.1 then -1 else 1) * l.2.1 * 10 ^ l.2.2

/-- A text that starts with a digit has no sign. -/
theorem sign_of_isDigit {c : Char} (hc : c.isDigit = true) (cs : List Char) :
    sign (c :: cs) = (false, c :: cs) := by
  unfold sign
  split
  · rename_i h
    cases h
    exact absurd hc (by decide)
  · rename_i h
    cases h
    exact absurd hc (by decide)
  · rfl

/-- **What is printed is read back.**

**Proof sketch.** The sign is read off, the digits before the point are the longest run of
digits, and those behind it are the last digits.  Put together, the two runs are the digits of
the number, by division with remainder. -/
theorem read_print (d : ℕ) (neg : Bool) (n : ℕ) :
    read (print d neg n) = some (neg, n, -(d : ℤ)) := by
  have hint : ∀ c ∈ Nat.toDigits 10 (n / 10 ^ d), c.isDigit = true :=
    fun c hc => Nat.isDigit_of_mem_toDigits (by decide) le_rfl hc
  have hlast : ∀ c ∈ lastDigits d n, c.isDigit = true := fun c hc => isDigit_of_mem_lastDigits hc
  have hsign : sign (print d neg n) =
      (neg, Nat.toDigits 10 (n / 10 ^ d) ++ '.' :: lastDigits d n) := by
    cases neg with
    | true => rfl
    | false =>
      obtain ⟨c, cs, hcs⟩ :=
        List.exists_cons_of_ne_nil (Nat.toDigits_ne_nil (n := n / 10 ^ d) (b := 10))
      rw [print, hcs]
      exact sign_of_isDigit (hint c (hcs ▸ List.mem_cons_self)) _
  have htake : (Nat.toDigits 10 (n / 10 ^ d) ++ '.' :: lastDigits d n).takeWhile Char.isDigit =
      Nat.toDigits 10 (n / 10 ^ d) := by
    rw [List.takeWhile_append_of_pos hint, List.takeWhile_cons_of_neg (by decide), List.append_nil]
  have hdrop : (Nat.toDigits 10 (n / 10 ^ d) ++ '.' :: lastDigits d n).dropWhile Char.isDigit =
      '.' :: lastDigits d n := by
    rw [List.dropWhile_append_of_pos hint, List.dropWhile_cons_of_neg (by decide)]
  have hfrac : fraction ('.' :: lastDigits d n) = (lastDigits d n, []) := by
    rw [fraction, List.takeWhile_eq_self_iff.mpr hlast, List.dropWhile_eq_nil_iff.mpr hlast]
  have hvalue : Nat.ofDigitChars 10 (Nat.toDigits 10 (n / 10 ^ d) ++ lastDigits d n) 0 = n := by
    rw [Nat.ofDigitChars_append, Nat.ofDigitChars_ten_toDigits, ofDigitChars_lastDigits,
      Nat.div_add_mod']
  simp only [read, hsign, htake, hdrop, hfrac, hvalue, readExponent, Option.map_some,
    length_lastDigits]
  rw [if_neg fun h => Nat.toDigits_ne_nil h.1]
  simp

end Decimal
