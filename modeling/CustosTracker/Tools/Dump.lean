import CustosTracker.Tools.Calibration
import CustosTracker.Tools.SotEval
import CustosTracker.Library.Decimal

set_option relaxedAutoImplicit false
set_option autoImplicit false

/-!
# The text of a single-object dump

`track_sot` and `SotNode` write one line of text for each frame, and `load_boxes` of
`tools/eval/sot_eval.py` reads the boxes of such a file, or of a ground-truth file, back.

## Main definitions

* `SotDump.fixed2`, `SotDump.dumpText`, `SotDump.dumpFile` — the writers.
* `SotDump.loadBoxes` — the reader.
* `SotDump.hundredths` — what is left of a box.

## Main results

* `SotDump.load_dump` — the boxes of a dump are read back, rounded to hundredths, and a second trip
  changes nothing.

## Implementation notes

Numbers are exact.  A text is its list of characters.  The reader knows the decimal literals, with
exponents; the other spellings of Python's `float` (infinities, `nan`, underscores) are no numbers
here.
-/

namespace Ctrk

namespace SotDump

variable {R : Type} [Scalar R]

/-! ## Writing -/

/-- `%.2f`: the nearest hundredth, the even one of two. -/
def fixed2 (x : R) : List Char :=
  Decimal.print 2 (decide (x < 0)) (Quantize.pyRound (|x| * 100)).toNat

/-- `"%.2f,%.2f,%.2f,%.2f\n"`. -/
def dumpText (b : BBox R) : List Char :=
  fixed2 b.x ++ ',' :: (fixed2 b.y ++ ',' :: (fixed2 b.w ++ ',' :: (fixed2 b.h ++ ['\n'])))

/-- `dump_box`, of `track_sot` and of `SotNode` alike: `snprintf` cuts the text to the 95 characters
that the buffer holds. -/
def dumpBox (b : BBox R) : List Char := (dumpText b).take 95

/-- A dump: the lines of its boxes. -/
def dumpFile (bs : List (BBox R)) : List Char := (bs.map dumpBox).flatten

/-! ## Reading -/

/-- What `\s` matches. -/
def isBlank (c : Char) : Bool :=
  let n := c.toNat
  (9 ≤ n && n ≤ 13) || (28 ≤ n && n ≤ 32) || n = 0x85 || n = 0xA0 || n = 0x1680 ||
    (0x2000 ≤ n && n ≤ 0x200A) || n = 0x2028 || n = 0x2029 || n = 0x202F || n = 0x205F || n = 0x3000

/-- `str.strip`. -/
def strip (line : List Char) : List Char :=
  ((line.dropWhile isBlank).reverse.dropWhile isBlank).reverse

/-- `re.split(r"[,\s]+", line.strip())`, without the empty fields. -/
def fields (line : List Char) : List (List Char) :=
  ((strip line).splitOnP fun c => c = ',' || isBlank c).filter fun v => v ≠ []

/-- The lines of a text.  The line breaks are left out, which `strip` would drop. -/
def lines (text : List Char) : List (List Char) := text.splitOnP fun c => c = '\n' || c = '\r'

/-- The row that a line adds, if any; there is no result where `float` raises `ValueError`. -/
def rowOf (line : List Char) : Option (Option (BBox R)) :=
  ((fields line).mapM fun v => (Decimal.read v).map Decimal.value).map fun vals =>
    match vals with
    | x :: y :: w :: h :: _ => some ⟨x, y, w, h⟩
    | _ => none

/-- `load_boxes`. -/
def loadBoxes (text : List Char) : Option (List (BBox R)) :=
  ((lines text).mapM rowOf).map fun rows => rows.filterMap id

/-! ## What is left of a number -/

/-- A number rounded to hundredths. -/
def hundredth (x : R) : R := (if x < 0 then -1 else 1) * (Quantize.pyRound (|x| * 100) / 100)

/-- A box rounded to hundredths. -/
def hundredths (b : BBox R) : BBox R :=
  ⟨hundredth b.x, hundredth b.y, hundredth b.w, hundredth b.h⟩

/-! ## Characters -/

/-- Nothing that ends a field or a line is printed. -/
theorem plain_of_mem_fixed2 {x : R} {c : Char} (h : c ∈ fixed2 x) :
    c ≠ ',' ∧ c ≠ '\n' ∧ c ≠ '\r' ∧ isBlank c = false := by
  rcases Decimal.mem_print h with hdigit | rfl | rfl
  · -- the digits are the characters from 48 to 57
    have hrange : 48 ≤ c.toNat ∧ c.toNat ≤ 57 := by
      rw [Char.isDigit, Bool.and_eq_true, decide_eq_true_iff, decide_eq_true_iff] at hdigit
      exact ⟨hdigit.1, hdigit.2⟩
    have hne : ∀ d : Char, d.toNat < 48 → c ≠ d := by
      rintro d hd rfl
      omega
    refine ⟨hne _ (by decide), hne _ (by decide), hne _ (by decide), ?_⟩
    simp only [isBlank, Bool.or_eq_false_iff, Bool.and_eq_false_iff, decide_eq_false_iff_not]
    omega
  · decide
  · decide

/-- A line of a dump without its line break. -/
def lineOf (b : BBox R) : List Char :=
  fixed2 b.x ++ ',' :: (fixed2 b.y ++ ',' :: (fixed2 b.w ++ ',' :: fixed2 b.h))

theorem dumpText_eq (b : BBox R) : dumpText b = lineOf b ++ ['\n'] := by
  simp [dumpText, lineOf]

/-- The line of a box is made of commas and of what its numbers print. -/
theorem mem_lineOf {b : BBox R} {c : Char} (h : c ∈ lineOf b) :
    c = ',' ∨ ∃ x : R, c ∈ fixed2 x := by
  simp only [lineOf, List.mem_append, List.mem_cons] at h
  rcases h with h | h | h | h | h | h | h
  · exact Or.inr ⟨_, h⟩
  · exact Or.inl h
  · exact Or.inr ⟨_, h⟩
  · exact Or.inl h
  · exact Or.inr ⟨_, h⟩
  · exact Or.inl h
  · exact Or.inr ⟨_, h⟩

theorem ne_break_of_mem_lineOf {b : BBox R} {c : Char} (h : c ∈ lineOf b) :
    c ≠ '\n' ∧ c ≠ '\r' := by
  rcases mem_lineOf h with rfl | ⟨x, hx⟩
  · decide
  · obtain ⟨-, hn, hr, -⟩ := plain_of_mem_fixed2 hx
    exact ⟨hn, hr⟩

theorem isBlank_of_mem_lineOf {b : BBox R} {c : Char} (h : c ∈ lineOf b) : isBlank c = false := by
  rcases mem_lineOf h with rfl | ⟨x, hx⟩
  · decide
  · exact (plain_of_mem_fixed2 hx).2.2.2

/-! ## Lines and fields -/

/-- The lines of a dump, and the empty one after the last line break. -/
theorem lines_dumpFile {bs : List (BBox R)} (hfit : ∀ b ∈ bs, (dumpText b).length ≤ 95) :
    lines (dumpFile bs) = bs.map lineOf ++ [[]] := by
  induction bs with
  | nil => rfl
  | cons b bs ih =>
    have hline : dumpBox b = lineOf b ++ ['\n'] := by
      rw [dumpBox, List.take_of_length_le (hfit b List.mem_cons_self), dumpText_eq]
    have hfile : dumpFile (b :: bs) = lineOf b ++ '\n' :: dumpFile bs := by
      simp [dumpFile, hline]
    have hrest := ih fun b' hb' => hfit b' (List.mem_cons_of_mem _ hb')
    rw [lines] at hrest ⊢
    rw [hfile, List.splitOnP_append_cons_of_forall_mem _ _ (by decide), hrest]
    · rfl
    · intro c hc
      obtain ⟨hn, hr⟩ := ne_break_of_mem_lineOf hc
      simp [hn, hr]

/-- `strip` keeps a line without blanks. -/
theorem strip_of_no_blank {line : List Char} (h : ∀ c ∈ line, isBlank c = false) :
    strip line = line := by
  have hdrop : ∀ l : List Char, (∀ c ∈ l, isBlank c = false) → l.dropWhile isBlank = l := by
    intro l hl
    cases l with
    | nil => rfl
    | cons c l => exact List.dropWhile_cons_of_neg (by simp [hl c List.mem_cons_self])
  rw [strip, hdrop line h, hdrop _ fun c hc => h c (List.mem_reverse.mp hc), List.reverse_reverse]

/-- The fields of a line are the four printed numbers. -/
theorem fields_lineOf (b : BBox R) :
    fields (lineOf b) = [fixed2 b.x, fixed2 b.y, fixed2 b.w, fixed2 b.h] := by
  have hplain : ∀ x : R, ∀ c ∈ fixed2 x, (decide (c = ',') || isBlank c) = false := by
    intro x c hc
    obtain ⟨hcomma, -, -, hblank⟩ := plain_of_mem_fixed2 hc
    simp [hcomma, hblank]
  have hsome : ∀ x : R, fixed2 x ≠ [] := fun x => Decimal.print_ne_nil _ _ _
  rw [fields, strip_of_no_blank fun c hc => isBlank_of_mem_lineOf hc, lineOf,
    List.splitOnP_append_cons_of_forall_mem (hplain b.x) _ (by decide),
    List.splitOnP_append_cons_of_forall_mem (hplain b.y) _ (by decide),
    List.splitOnP_append_cons_of_forall_mem (hplain b.w) _ (by decide),
    List.splitOnP_eq_singleton (hplain b.h)]
  simp [hsome]

/-! ## Numbers -/

section Numbers

variable [LawfulScalar R]

theorem pyRound_nonneg {x : R} (hx : 0 ≤ x) : 0 ≤ Quantize.pyRound x := by
  obtain ⟨k, -, hlt, hpy, -⟩ := Quantize.round_cases hx
  have hk : (-1 : R) < (k : R) := by linarith
  have hk' : -1 < k := by exact_mod_cast hk
  rw [hpy]
  split_ifs <;> omega

/-- Python's `round` is off by one half at most. -/
theorem abs_pyRound_sub_le {x : R} (hx : 0 ≤ x) : |(Quantize.pyRound x : R) - x| ≤ 1 / 2 := by
  obtain ⟨k, hle, hlt, hpy, -⟩ := Quantize.round_cases hx
  rw [hpy, abs_le]
  split_ifs with hlow hhigh
  · constructor <;> linarith
  · push_cast
    constructor <;> linarith
  · -- a tie, where the result is one of the two neighbours
    have htie : x - k = 1 / 2 := le_antisymm (not_lt.mp hhigh) (not_lt.mp hlow)
    rcases Int.emod_two_eq_zero_or_one k with hk | hk
    · rw [hk, add_zero]
      constructor <;> linarith
    · rw [hk]
      push_cast
      constructor <;> linarith

/-- A number closer than one half to an integer is rounded to it. -/
theorem pyRound_eq_of_abs_lt {x : R} (hx : 0 ≤ x) {k : ℤ} (h : |x - k| < 1 / 2) :
    Quantize.pyRound x = k := by
  have hround := abs_le.mp (abs_pyRound_sub_le hx)
  have hnear := abs_lt.mp h
  have hlow : ((Quantize.pyRound x : ℤ) : R) < (k + 1 : ℤ) := by
    push_cast
    linarith
  have hhigh : (k : R) < (Quantize.pyRound x + 1 : ℤ) := by
    push_cast
    linarith
  have h₁ : Quantize.pyRound x < k + 1 := by exact_mod_cast hlow
  have h₂ : k < Quantize.pyRound x + 1 := by exact_mod_cast hhigh
  omega

/-- What is printed of a number is read as the number rounded to hundredths. -/
theorem read_fixed2 (x : R) :
    (Decimal.read (fixed2 x)).map Decimal.value = some (hundredth x) := by
  have hnonneg : 0 ≤ Quantize.pyRound (|x| * 100) := pyRound_nonneg (by positivity)
  have hcast : (((Quantize.pyRound (|x| * 100)).toNat : ℕ) : R) =
      (Quantize.pyRound (|x| * 100) : R) := by
    exact_mod_cast congrArg (Int.cast : ℤ → R) (Int.toNat_of_nonneg hnonneg)
  have hpow : (10 : R) ^ (-((2 : ℕ) : ℤ)) = 1 / 100 := by norm_num
  rw [fixed2, Decimal.read_print, Option.map_some, Decimal.value, hundredth, hcast, hpow,
    mul_one_div, mul_div_assoc]
  simp only [decide_eq_true_eq]

/-- A number is off by half a hundredth at most. -/
theorem abs_hundredth_sub_le (x : R) : |hundredth x - x| ≤ 1 / 200 := by
  have hround := abs_le.mp (abs_pyRound_sub_le (x := |x| * 100) (by positivity))
  rw [abs_le, hundredth]
  rcases lt_or_ge x 0 with hx | hx
  · rw [abs_of_neg hx] at hround ⊢
    rw [if_pos hx]
    constructor <;> linarith
  · rw [abs_of_nonneg hx] at hround ⊢
    rw [if_neg (not_lt.mpr hx)]
    constructor <;> linarith

/-- A rounded number is a whole number of hundredths. -/
theorem abs_hundredth_mul (x : R) : |hundredth x| * 100 = Quantize.pyRound (|x| * 100) := by
  have hnonneg : (0 : R) ≤ Quantize.pyRound (|x| * 100) := by
    exact_mod_cast pyRound_nonneg (x := |x| * 100) (by positivity)
  have hsign : |(if x < 0 then -1 else 1 : R)| = 1 := by
    split_ifs
    · rw [abs_neg, abs_one]
    · exact abs_one
  rw [hundredth, abs_mul, hsign, one_mul, abs_of_nonneg (by positivity)]
  exact div_mul_cancel₀ _ (by norm_num)

/-- Rounding does not make a number negative. -/
theorem hundredth_nonneg {x : R} (hx : 0 ≤ x) : 0 ≤ hundredth x := by
  have hnonneg : (0 : R) ≤ Quantize.pyRound (|x| * 100) := by
    exact_mod_cast pyRound_nonneg (x := |x| * 100) (by positivity)
  rw [hundredth, if_neg (not_lt.mpr hx), one_mul]
  positivity

/-- A rounded number has its hundredths. -/
theorem pyRound_hundredth (x : R) :
    Quantize.pyRound (|hundredth x| * 100) = Quantize.pyRound (|x| * 100) := by
  refine pyRound_eq_of_abs_lt (by positivity) ?_
  rw [abs_hundredth_mul, sub_self, abs_zero]
  norm_num

/-- Rounding a rounded number changes nothing.

**Proof sketch.** The hundredths of the rounded number are those of the number, so only the sign
could differ: a negative number that is rounded to zero loses it, and zero has no sign. -/
theorem hundredth_hundredth (x : R) : hundredth (hundredth x) = hundredth x := by
  have habs := abs_hundredth_mul x
  rw [hundredth, pyRound_hundredth, ← habs, mul_div_cancel_right₀ _ (by norm_num)]
  split_ifs with hneg
  · rw [abs_of_neg hneg, neg_one_mul, neg_neg]
  · rw [abs_of_nonneg (not_lt.mp hneg), one_mul]

/-- A rounded number is not printed longer. -/
theorem length_fixed2_hundredth_le (x : R) : (fixed2 (hundredth x)).length ≤ (fixed2 x).length := by
  rw [fixed2, fixed2, pyRound_hundredth]
  by_cases hneg : hundredth x < 0
  · have hx : x < 0 := by
      by_contra hx
      exact absurd (hundredth_nonneg (not_lt.mp hx)) (not_le.mpr hneg)
    rw [decide_eq_true hneg, decide_eq_true hx]
  · rw [decide_eq_false hneg]
    exact Decimal.length_print_false_le _ _ _

/-- A number of at most eighteen digits is printed with at most twenty-two characters. -/
theorem length_fixed2_le {x : R} (hx : |x| ≤ 10 ^ 17) : (fixed2 x).length ≤ 22 := by
  have hround := (abs_le.mp (abs_pyRound_sub_le (x := |x| * 100) (by positivity))).2
  have hcast : (Quantize.pyRound (|x| * 100) : R) < ((10 ^ 20 : ℤ) : R) := by
    push_cast
    linarith
  have hlt : Quantize.pyRound (|x| * 100) < 10 ^ 20 := by exact_mod_cast hcast
  refine Decimal.length_print_le (k := 18) (by decide) ?_ _
  omega

end Numbers

/-! ## The round trip -/

theorem rowOf_nil : rowOf (R := R) [] = some none := by
  simp [rowOf, fields, strip]

section RoundTrip

variable [LawfulScalar R]

/-- A line gives the row of its box, rounded. -/
theorem rowOf_lineOf (b : BBox R) : rowOf (lineOf b) = some (some (hundredths b)) := by
  rw [rowOf, fields_lineOf]
  simp only [List.mapM_cons, List.mapM_nil, read_fixed2]
  rfl

/-- Lines that fit the buffer are read back.

**Proof sketch.** No printed character is a line break, so the lines of the file are those written,
and an empty one after the last break, which gives no row.  None is a blank or a comma either, so
the fields of a line are its four numbers. -/
theorem loadBoxes_dumpFile {bs : List (BBox R)} (hfit : ∀ b ∈ bs, (dumpText b).length ≤ 95) :
    loadBoxes (dumpFile bs) = some (bs.map hundredths) := by
  have hrows : ∀ bs : List (BBox R), (bs.map lineOf ++ [[]]).mapM rowOf =
      some (bs.map (fun b => some (hundredths b)) ++ [none]) := by
    intro bs
    induction bs with
    | nil => simp [rowOf_nil]
    | cons b bs ih =>
      rw [List.map_cons, List.cons_append, List.mapM_cons, rowOf_lineOf, ih]
      rfl
  rw [loadBoxes, lines_dumpFile hfit, hrows, Option.map_some, List.filterMap_append]
  simp [List.filterMap_map]

/-- The text of a rounded box is not longer. -/
theorem length_dumpText_hundredths_le (b : BBox R) :
    (dumpText (hundredths b)).length ≤ (dumpText b).length := by
  have hx := length_fixed2_hundredth_le b.x
  have hy := length_fixed2_hundredth_le b.y
  have hw := length_fixed2_hundredth_le b.w
  have hh := length_fixed2_hundredth_le b.h
  simp only [dumpText, hundredths, List.length_append, List.length_cons, List.length_nil]
  omega

/-- **The round trip of a dump.** A dump whose lines fit the buffer is read back line by line: every
box, in its place, rounded to hundredths.  The rounding moves a coordinate by half a hundredth at
most, and what was read back can be dumped and read again without any change.

**Proof sketch.** The texts of the numbers are cut apart where they were joined, and each is read as
the number of hundredths that was printed, with its sign.  Rounding again gives the same hundredths
and no longer texts, so the lines of the second dump fit as well. -/
theorem load_dump {bs : List (BBox R)} (hfit : ∀ b ∈ bs, (dumpText b).length ≤ 95) :
    loadBoxes (dumpFile bs) = some (bs.map hundredths) ∧
      (∀ b ∈ bs, |(hundredths b).x - b.x| ≤ 1 / 200 ∧ |(hundredths b).y - b.y| ≤ 1 / 200 ∧
        |(hundredths b).w - b.w| ≤ 1 / 200 ∧ |(hundredths b).h - b.h| ≤ 1 / 200) ∧
      loadBoxes (dumpFile (bs.map hundredths)) = some (bs.map hundredths) := by
  refine ⟨loadBoxes_dumpFile hfit, fun b _ => ?_, ?_⟩
  · exact ⟨abs_hundredth_sub_le b.x, abs_hundredth_sub_le b.y, abs_hundredth_sub_le b.w,
      abs_hundredth_sub_le b.h⟩
  · have hfit' : ∀ b ∈ bs.map hundredths, (dumpText b).length ≤ 95 := by
      intro b hb
      obtain ⟨b', hb', rfl⟩ := List.mem_map.mp hb
      exact (length_dumpText_hundredths_le b').trans (hfit b' hb')
    have hsame : ∀ b : BBox R, hundredths (hundredths b) = hundredths b := fun b => by
      simp only [hundredths, hundredth_hundredth]
    rw [loadBoxes_dumpFile hfit', List.map_map]
    exact congrArg some (List.map_congr_left fun b _ => hsame b)

/-- Lines of coordinates up to `10 ^ 17` fit. -/
theorem length_dumpText_le {b : BBox R} (hx : |b.x| ≤ 10 ^ 17) (hy : |b.y| ≤ 10 ^ 17)
    (hw : |b.w| ≤ 10 ^ 17) (hh : |b.h| ≤ 10 ^ 17) : (dumpText b).length ≤ 95 := by
  have h₁ := length_fixed2_le hx
  have h₂ := length_fixed2_le hy
  have h₃ := length_fixed2_le hw
  have h₄ := length_fixed2_le hh
  simp only [dumpText, List.length_append, List.length_cons, List.length_nil]
  omega

end RoundTrip

/-- A number whose hundredths are closest to `k`. -/
theorem hundredth_eq [LawfulScalar R] {x : R} (k : ℤ) (h : |(|x| * 100 - k)| < 1 / 2) :
    hundredth x = (if x < 0 then -1 else 1) * (k / 100) := by
  rw [hundredth, pyRound_eq_of_abs_lt (by positivity) h]

/-- A box that leaves the frame on the left, and one whose corner is rounded to zero from below. -/
theorem load_dump_two :
    let bs : List (BBox ℝ) := [⟨-7 / 3, 12344 / 1000, 80, 81 / 2⟩, ⟨-1 / 250, 5, 200 / 3, 30⟩]
    loadBoxes (dumpFile bs) =
      some [(⟨-233 / 100, 1234 / 100, 80, 81 / 2⟩ : BBox ℝ), ⟨0, 5, 6667 / 100, 30⟩] := by
  intro bs
  have hfit : ∀ b ∈ bs, (dumpText b).length ≤ 95 := by
    intro b hb
    rcases List.mem_pair.mp hb with rfl | rfl
    · exact length_dumpText_le (by norm_num [abs_le]) (by norm_num [abs_le])
        (by norm_num [abs_le]) (by norm_num [abs_le])
    · exact length_dumpText_le (by norm_num [abs_le]) (by norm_num [abs_le])
        (by norm_num [abs_le]) (by norm_num [abs_le])
  have hrounded : bs.map hundredths =
      [⟨-233 / 100, 1234 / 100, 80, 81 / 2⟩, ⟨0, 5, 6667 / 100, 30⟩] := by
    simp only [bs, List.map_cons, List.map_nil, hundredths]
    rw [hundredth_eq (x := -7 / 3) 233 (by norm_num [abs_lt]),
      hundredth_eq (x := 12344 / 1000) 1234 (by norm_num [abs_lt]),
      hundredth_eq (x := 80) 8000 (by norm_num [abs_lt]),
      hundredth_eq (x := 81 / 2) 4050 (by norm_num [abs_lt]),
      hundredth_eq (x := -1 / 250) 0 (by norm_num [abs_lt]),
      hundredth_eq (x := 5) 500 (by norm_num [abs_lt]),
      hundredth_eq (x := 200 / 3) 6667 (by norm_num [abs_lt]),
      hundredth_eq (x := 30) 3000 (by norm_num [abs_lt])]
    norm_num
  rw [(load_dump hfit).1, hrounded]

end SotDump

end Ctrk
