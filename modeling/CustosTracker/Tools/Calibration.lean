import CustosTracker.Sot.Crops
import CustosTracker.Tbd.Detector

set_option relaxedAutoImplicit false
set_option autoImplicit false

/-!
# The calibration replicas

`tools/export/quantize.py` calibrates the quantized models on inputs that it prepares itself, with
replicas of the preprocessing of the core: `letterbox_blob` of the detector's letterbox, and
`subwindow_blob` of the siamese crop.  A calibrated scale is only as good as the replica, so the two
sides are compared on every image.

## Main definitions

* `Quantize.chw` — an image as NumPy lays out its transposed planes.
* `Quantize.pyRound`, `Quantize.letterboxBlob` — the letterbox replica.
* `Quantize.subwindowBlob`, `Quantize.nanoBlob` — the crop replica.

## Main results

* `Quantize.letterbox_replica` — the letterbox is the detector's, except where a scaled side is a
  tie that Python and C++ round apart.
* `Quantize.subwindow_replica` — the crop is the tracker's, up to the value of the padding.
* `Quantize.calibration_crops` — the crops around a box against those of the tracker.

## Implementation notes

Both sides call the same resampling routine of OpenCV, which is a parameter.  Numbers are exact.
-/

namespace Ctrk

namespace Quantize

variable {R : Type} [Scalar R]

/-! ## Planes -/

/-- The channels of a pixel in the order of OpenCV. -/
def channel (p : Bgr) : ℕ → UInt8
  | 0 => p.b
  | 1 => p.g
  | _ => p.r

/-- `m[:, :, ::-1].transpose(2, 0, 1)` in memory order: planes of rows, red first. -/
def chw (m : Image Bgr) : List UInt8 :=
  (List.range 3).flatMap fun c => (List.range m.rows).flatMap fun y =>
    (List.range m.cols).map fun x => channel (m.px x y) (2 - c)

/-- Blocks of one length, one after another. -/
theorem flatMap_range {α : Type} (a b : ℕ) (f : ℕ → ℕ → α) :
    (List.range a).flatMap (fun i => (List.range b).map (f i)) =
      (List.range (a * b)).map fun k => f (k / b) (k % b) := by
  induction a with
  | zero => simp
  | succ a ih =>
    rw [List.range_succ, List.flatMap_append, ih, Nat.succ_mul, List.range_add, List.map_append,
      List.flatMap_singleton, List.map_map]
    congr 1
    refine List.map_congr_left fun k hk => ?_
    have hlt : k < b := List.mem_range.mp hk
    have hb : 0 < b := by omega
    show f a k = f ((a * b + k) / b) ((a * b + k) % b)
    rw [Nat.mul_comm a b, Nat.mul_add_div hb, Nat.mul_add_mod, Nat.div_eq_of_lt hlt,
      Nat.mod_eq_of_lt hlt, Nat.add_zero]

/-- The planes by position. -/
theorem chw_eq (m : Image Bgr) : chw m = (List.range (3 * (m.rows * m.cols))).map fun k =>
    channel (m.px (k % (m.rows * m.cols) % m.cols) (k % (m.rows * m.cols) / m.cols))
      (2 - k / (m.rows * m.cols)) := by
  rw [chw, ← flatMap_range 3 (m.rows * m.cols) fun c i =>
    channel (m.px (i % m.cols) (i / m.cols)) (2 - c)]
  congr 1
  funext c
  exact flatMap_range m.rows m.cols fun y x => channel (m.px x y) (2 - c)

@[simp] theorem length_chw (m : Image Bgr) : (chw m).length = 3 * (m.rows * m.cols) := by
  rw [chw_eq, List.length_map, List.length_range]

theorem chw_getElem? (m : Image Bgr) {c x y : ℕ} (hc : c < 3) (hx : x < m.cols) (hy : y < m.rows) :
    (chw m)[c * (m.rows * m.cols) + (y * m.cols + x)]? = some (channel (m.px x y) (2 - c)) := by
  have hin : y * m.cols + x < m.rows * m.cols := by
    calc y * m.cols + x < y * m.cols + m.cols := Nat.add_lt_add_left hx _
      _ = (y + 1) * m.cols := (Nat.succ_mul y m.cols).symm
      _ ≤ m.rows * m.cols := Nat.mul_le_mul_right _ hy
  have hall : c * (m.rows * m.cols) + (y * m.cols + x) < 3 * (m.rows * m.cols) := by
    calc c * (m.rows * m.cols) + (y * m.cols + x)
        < c * (m.rows * m.cols) + m.rows * m.cols := Nat.add_lt_add_left hin _
      _ = (c + 1) * (m.rows * m.cols) := (Nat.succ_mul c _).symm
      _ ≤ 3 * (m.rows * m.cols) := Nat.mul_le_mul_right _ hc
  have hcols : 0 < m.cols := by omega
  have hhw : 0 < m.rows * m.cols := by omega
  rw [chw_eq, List.getElem?_map, List.getElem?_range hall, Option.map_some]
  rw [Nat.mul_comm c, Nat.mul_add_mod, Nat.mul_add_div hhw, Nat.mod_eq_of_lt hin,
    Nat.div_eq_of_lt hin, Nat.mul_comm y, Nat.mul_add_mod, Nat.mul_add_div hcols,
    Nat.mod_eq_of_lt hx, Nat.div_eq_of_lt hx, Nat.add_zero, Nat.add_zero]

/-! ## The letterbox -/

/-- Python's `round`: to the nearest integer, halves to the even one. -/
def pyRound (x : R) : ℤ :=
  let k := floorInt x
  if x - k < 1 / 2 then k else if 1 / 2 < x - k then k + 1 else k + k % 2

/-- Where `letterbox_blob` draws the frame. -/
def letterboxRect (R : Type) [Scalar R] (cols rows size : ℤ) : Rect :=
  let scale : R := min (size / cols) (size / rows)
  let nw := pyRound (cols * scale)
  let nh := pyRound (rows * scale)
  -- `//` rounds down
  ⟨(size - nw) / 2, (size - nh) / 2, nw, nh⟩

/-- `letterbox_blob`. -/
def letterboxBlob (ops : DetectorOps R) (img : Image Bgr) (size : ℕ) : List R :=
  let r := letterboxRect R img.cols img.rows size
  let canvas : Image Bgr := ⟨size, size, fun _ _ => grey⟩
  (chw (canvas.drawInto r (ops.resize img r.width r.height))).map fun v => (v.toNat : R) / 255

section Letterbox

variable [LawfulScalar R]

theorem toInt_eq {x : R} {k : ℤ} (hx : 0 ≤ x) (hk : (k : R) ≤ x) (hlt : x < k + 1) :
    Scalar.toInt x = k := by
  refine le_antisymm ?_ ((le_toInt_iff hx).mpr hk)
  have hle : (Scalar.toInt x : R) ≤ x := (LawfulScalar.toInt_nonneg x hx).1
  have hcast : (Scalar.toInt x : R) < (k + 1 : ℤ) := by
    push_cast
    linarith
  exact Int.lt_add_one_iff.mp (by exact_mod_cast hcast)

/-- The two roundings of a number that is not negative, by its distance to the integer below. -/
theorem round_cases {x : R} (hx : 0 ≤ x) :
    ∃ k : ℤ, (k : R) ≤ x ∧ x < k + 1 ∧
      pyRound x = (if x - k < 1 / 2 then k else if 1 / 2 < x - k then k + 1 else k + k % 2) ∧
      lround x = if x - k < 1 / 2 then k else k + 1 := by
  obtain ⟨hle, hlt⟩ := LawfulScalar.toInt_nonneg x hx
  refine ⟨Scalar.toInt x, hle, hlt, ?_, ?_⟩
  · rw [pyRound, floorInt, if_neg (not_lt.mpr hle)]
  · rw [lround, if_pos hx]
    split_ifs with hhalf
    · exact toInt_eq (by linarith) (by linarith) (by linarith)
    · refine toInt_eq (by linarith) ?_ ?_
      · push_cast
        linarith
      · push_cast
        linarith

/-- Python and C++ round alike, except halfway above an even number.

**Proof sketch.** Both round to the nearer integer when there is one.  At a tie C++ rounds up and
Python to the even one, so they differ exactly when the integer below is even. -/
theorem pyRound_eq_lround_iff {x : R} (hx : 0 ≤ x) :
    pyRound x = lround x ↔ ∀ m : ℤ, x ≠ 2 * m + 1 / 2 := by
  obtain ⟨k, hle, hlt, hpy, hround⟩ := round_cases hx
  -- a tie above an even number lies halfway above the integer below
  have htie : ∀ m : ℤ, x = 2 * m + 1 / 2 → k = 2 * m := by
    intro m hm
    have hlow : ((2 * m : ℤ) : R) < (k + 1 : ℤ) := by
      push_cast
      linarith
    have hhigh : (k : R) < (2 * m + 1 : ℤ) := by
      push_cast
      linarith
    have h₁ : 2 * m < k + 1 := by exact_mod_cast hlow
    have h₂ : k < 2 * m + 1 := by exact_mod_cast hhigh
    omega
  rw [hpy, hround]
  rcases lt_trichotomy (x - k) (1 / 2) with hlow | hhalf | hhigh
  · rw [if_pos hlow, if_pos hlow]
    refine iff_of_true rfl fun m hm => ?_
    rw [htie m hm] at hlow
    push_cast at hlow
    linarith
  · rw [if_neg hhalf.not_lt, if_neg hhalf.not_gt, if_neg hhalf.not_lt, add_right_inj]
    constructor
    · intro hodd m hm
      have heven := htie m hm
      omega
    · intro h
      by_contra hodd
      refine h (k / 2) ?_
      have heven : k = 2 * (k / 2) := by omega
      have hcast : (k : R) = 2 * ((k / 2 : ℤ) : R) := by exact_mod_cast heven
      linarith
  · rw [if_neg hhigh.not_gt, if_pos hhigh, if_neg hhigh.not_gt]
    refine iff_of_true rfl fun m hm => ?_
    rw [htie m hm] at hhigh
    push_cast at hhigh
    linarith

/-- At such a tie Python's result is one less. -/
theorem lround_sub_pyRound {x : R} (hx : 0 ≤ x) :
    0 ≤ lround x - pyRound x ∧ lround x - pyRound x ≤ 1 := by
  obtain ⟨k, -, -, hpy, hround⟩ := round_cases hx
  rw [hpy, hround]
  split_ifs <;> omega

section Rectangle

variable {cols rows size : ℤ} (hcols : 1 ≤ cols) (hrows : 1 ≤ rows) (hsize : 0 ≤ size)

include hcols hrows hsize

theorem scaled_nonneg :
    (0 : R) ≤ cols * min (size / cols : R) (size / rows) ∧
      (0 : R) ≤ rows * min (size / cols : R) (size / rows) := by
  have hc : (0 : R) ≤ cols := by exact_mod_cast (show (0 : ℤ) ≤ cols by omega)
  have hr : (0 : R) ≤ rows := by exact_mod_cast (show (0 : ℤ) ≤ rows by omega)
  have hs : (0 : R) ≤ size := by exact_mod_cast hsize
  have hscale : (0 : R) ≤ min (size / cols : R) (size / rows) :=
    le_min (div_nonneg hs hc) (div_nonneg hs hr)
  exact ⟨mul_nonneg hc hscale, mul_nonneg hr hscale⟩

/-- The replica draws where the detector draws, unless a scaled side is a tie above an even
number.

**Proof sketch.** The rectangles agree exactly when their sizes do, since the margins are
computed from these alike; then `pyRound_eq_lround_iff` for each side. -/
theorem letterboxRect_eq_iff :
    letterboxRect R cols rows size = fittedRect R cols rows size ↔
      ∀ m : ℤ, (cols * min (size / cols : R) (size / rows) ≠ 2 * m + 1 / 2) ∧
        rows * min (size / cols : R) (size / rows) ≠ 2 * m + 1 / 2 := by
  obtain ⟨hu, hv⟩ := scaled_nonneg (R := R) hcols hrows hsize
  rw [forall_and, ← pyRound_eq_lround_iff hu, ← pyRound_eq_lround_iff hv]
  constructor
  · intro h
    exact ⟨congrArg Rect.width h, congrArg Rect.height h⟩
  · rintro ⟨hw, hh⟩
    obtain ⟨hwle, hhle⟩ := mul_scale_le R size hcols hrows
    have hw' : 0 ≤ size - lround (cols * min (size / cols : R) (size / rows)) :=
      sub_nonneg.mpr (lround_le hwle)
    have hh' : 0 ≤ size - lround (rows * min (size / cols : R) (size / rows)) :=
      sub_nonneg.mpr (lround_le hhle)
    have hfitted : fittedRect R cols rows size =
        placed size (lround (cols * min (size / cols : R) (size / rows)))
          (lround (rows * min (size / cols : R) (size / rows))) := rfl
    rw [hfitted, placed, Int.tdiv_eq_ediv_of_nonneg hw', Int.tdiv_eq_ediv_of_nonneg hh']
    simp only [letterboxRect, hw, hh]

end Rectangle

omit [LawfulScalar R] in
/-- The replica of a canvas is the input tensor the detector fills from it. -/
theorem chw_blob (canvas : Image Bgr) (size : ℕ) (hcols : canvas.cols = size)
    (hrows : canvas.rows = size) {k : ℕ} (hk : k < 3 * (size * size)) :
    ((chw canvas).map fun v => (v.toNat : R) / 255)[k]? = some (blob canvas size k) := by
  have hplane : k / (size * size) < 3 := Nat.div_lt_of_lt_mul (by rwa [Nat.mul_comm])
  rw [chw_eq, hcols, hrows, List.getElem?_map, List.getElem?_map, List.getElem?_range hk,
    Option.map_some, Option.map_some, blob]
  generalize k / (size * size) = plane at hplane
  interval_cases plane <;> rfl

/-- **The letterbox replica.** After whatever frames the detector saw before, the replica fills the
input tensor of the detector for every frame whose scaled sides are no ties above an even number,
and these are the only frames it draws elsewhere; there a side is one pixel short.

**Proof sketch.** The rectangles are compared by `letterboxRect_eq_iff`.  Where they agree the
canvas of the detector is the drawn frame, whatever it saw before, and the replica lays it out in
the same order. -/
theorem letterbox_replica (ops : DetectorOps R) (config : Yolov8Config R)
    (inputSize numClasses numAnchors : ℕ) (memory : ℕ → ℕ → Bgr) (frames : List (Image Bgr))
    (img : Image Bgr) (hcols : 1 ≤ img.cols) (hrows : 1 ≤ img.rows) :
    let used := (Yolov8Detector.new config inputSize numClasses numAnchors memory).runFrames ops
      frames
    let scale : R := min (inputSize / img.cols) (inputSize / img.rows)
    let replica := letterboxRect R img.cols img.rows inputSize
    let fitted := fittedRect R img.cols img.rows inputSize
    (replica = fitted ↔
      ∀ m : ℤ, img.cols * scale ≠ 2 * m + 1 / 2 ∧ img.rows * scale ≠ 2 * m + 1 / 2) ∧
    ((0 ≤ fitted.width - replica.width ∧ fitted.width - replica.width ≤ 1) ∧
      0 ≤ fitted.height - replica.height ∧ fitted.height - replica.height ≤ 1) ∧
    (replica = fitted → ∀ k < 3 * (inputSize * inputSize),
      (letterboxBlob ops img inputSize)[k]? =
        some (blob (used.preprocess ops img).canvas inputSize k)) := by
  intro used scale replica fitted
  have hc : (1 : ℤ) ≤ img.cols := by exact_mod_cast hcols
  have hr : (1 : ℤ) ≤ img.rows := by exact_mod_cast hrows
  have hs : (0 : ℤ) ≤ inputSize := Int.natCast_nonneg inputSize
  obtain ⟨hu, hv⟩ := scaled_nonneg (R := R) hc hr hs
  refine ⟨?_, ⟨lround_sub_pyRound hu, lround_sub_pyRound hv⟩, ?_⟩
  · have hiff := letterboxRect_eq_iff (R := R) hc hr hs
    simpa only [Int.cast_natCast] using hiff
  · intro heq k hk
    have hcanvas : (used.preprocess ops img).canvas = letterboxed ops inputSize img :=
      Yolov8Detector.canvas_of_runFrames ops config inputSize numClasses numAnchors memory frames
        img
    have hdrawn : letterboxBlob ops img inputSize =
        (chw (letterboxed ops inputSize img)).map fun v => (v.toNat : R) / 255 := by
      show (chw (Image.drawInto ⟨inputSize, inputSize, fun _ _ => grey⟩ replica
        (ops.resize img replica.width replica.height))).map (fun v => (v.toNat : R) / 255) = _
      rw [heq]
      rfl
    rw [hcanvas, hdrawn]
    exact chw_blob _ inputSize rfl rfl hk

end Letterbox

/-- A frame half of whose height is a tie is not drawn where the detector draws it. -/
theorem letterbox_replica_tie :
    letterboxRect ℝ (1280 : ℕ) (717 : ℕ) (640 : ℕ) ≠
      fittedRect ℝ (1280 : ℕ) (717 : ℕ) (640 : ℕ) := by
  intro heq
  let ops : DetectorOps ℝ :=
    { resize := fun img w h x y => img.px (x * img.cols / w.toNat) (y * img.rows / h.toNat)
      run := some
      sorter := stableSorter }
  have hties := (letterbox_replica ops {} 640 80 8400 (fun _ _ => ⟨0, 0, 0⟩) []
    ⟨1280, 717, fun _ _ => ⟨0, 0, 0⟩⟩ (by norm_num) (by norm_num)).1.mp heq 179
  have hscale : min ((640 : ℕ) / (1280 : ℕ) : ℝ) ((640 : ℕ) / (717 : ℕ)) = 1 / 2 := by
    rw [min_eq_left (by norm_num)]
    norm_num
  refine hties.2 ?_
  show ((717 : ℕ) : ℝ) * min ((640 : ℕ) / (1280 : ℕ) : ℝ) ((640 : ℕ) / (717 : ℕ)) = _
  rw [hscale]
  norm_num

/-! ## The crop -/

/-- The pixels of `subwindow_blob` before they are resized.  `pad` is the mean of the image as NumPy
stores it. -/
def subwindowPatch (pad : Bgr) (img : Image Bgr) (cx cy : R) (originalSz : ℤ) : Image Bgr :=
  -- `//` rounds down
  let c := (originalSz + 1) / 2
  let xmin := Scalar.toInt cx - c
  let ymin := Scalar.toInt cy - c
  let patch : Image Bgr := ⟨originalSz.toNat, originalSz.toNat, fun _ _ => pad⟩
  let x0 := max 0 xmin
  let y0 := max 0 ymin
  let x1 := min (img.cols : ℤ) (xmin + originalSz)
  let y1 := min (img.rows : ℤ) (ymin + originalSz)
  if x1 > x0 ∧ y1 > y0 then
    patch.paste (img.sub ⟨x0, y0, x1 - x0, y1 - y0⟩) (x0 - xmin).toNat (y0 - ymin).toNat
  else patch

/-- `subwindow_blob`. -/
def subwindowBlob (ops : CvOps R) (pad : Bgr) (img : Image Bgr) (cx cy : R) (originalSz : ℤ)
    (modelSz : ℕ) : List R :=
  (chw (ops.resize (subwindowPatch pad img cx cy originalSz) modelSz)).map fun v => (v.toNat : R)

/-- The patch of the replica shows the padded plane.

**Proof sketch.** By cases on whether the crop meets the image and, if it does, on whether the
place is one of the image: the part that is copied in is exactly the part that is shown. -/
theorem subwindowPatch_px (pad : Bgr) (img : Image Bgr) (cx cy : R) {sz : ℤ} {u v : ℕ}
    (hu : u < sz) (hv : v < sz) :
    (subwindowPatch pad img cx cy sz).px u v =
      img.plane pad (Scalar.toInt cx - (sz + 1) / 2 + u) (Scalar.toInt cy - (sz + 1) / 2 + v) := by
  generalize hx : Scalar.toInt cx - (sz + 1) / 2 = xmin
  generalize hy : Scalar.toInt cy - (sz + 1) / 2 = ymin
  simp only [subwindowPatch, hx, hy]
  by_cases hsome : min (img.cols : ℤ) (xmin + sz) > max 0 xmin ∧
      min (img.rows : ℤ) (ymin + sz) > max 0 ymin
  · have hshow : ((max 0 xmin - xmin).toNat ≤ u ∧
        u < (max 0 xmin - xmin).toNat + (min (img.cols : ℤ) (xmin + sz) - max 0 xmin).toNat ∧
        (max 0 ymin - ymin).toNat ≤ v ∧
        v < (max 0 ymin - ymin).toNat + (min (img.rows : ℤ) (ymin + sz) - max 0 ymin).toNat) ↔
        img.HasPixel (xmin + u) (ymin + v) := by
      simp only [Image.HasPixel]
      omega
    rw [if_pos hsome]
    by_cases hpix : img.HasPixel (xmin + u) (ymin + v)
    · obtain ⟨hleft, -, htop, -⟩ := hshow.mpr hpix
      rw [Image.plane, if_pos hpix]
      refine (if_pos (hshow.mpr hpix)).trans ?_
      show img.px (u - (max 0 xmin - xmin).toNat + (max 0 xmin).toNat)
          (v - (max 0 ymin - ymin).toNat + (max 0 ymin).toNat) =
        img.px (xmin + u).toNat (ymin + v).toNat
      obtain ⟨⟨hx0, -⟩, hy0, -⟩ := hpix
      congr 1 <;> omega
    · rw [Image.plane, if_neg hpix]
      exact if_neg (mt hshow.mp hpix)
  · -- the crop lies outside the image
    rw [if_neg hsome, Image.plane, if_neg]
    simp only [Image.HasPixel]
    omega

/-! ## The blob of the tracker -/

theorem resizeTo_self {n : ℕ} {out : List R} (h : out.length = n) : resizeTo n out = out := by
  rw [resizeTo, ← h, List.take_length, Nat.sub_self, List.replicate_zero, List.append_nil]

/-- Writing what is there changes nothing. -/
theorem modifyAll_fixed {α : Type} {out : List α} {writes : List (ℕ × α)}
    (h : ∀ w ∈ writes, out[w.1]? = some w.2) :
    Indexed.modifyAll Prod.fst (fun w _ => w.2) out writes = out := by
  induction writes with
  | nil => rfl
  | cons w writes ih =>
    have hsame : out.modify w.1 (fun _ => w.2) = out := by
      apply List.ext_getElem?
      intro i
      rw [List.getElem?_modify]
      split
      · rename_i hi
        rw [← hi, h w List.mem_cons_self]
        rfl
      · simp
    rw [Indexed.modifyAll, List.foldl_cons, hsame]
    exact ih fun w' hw' => h w' (List.mem_cons_of_mem w hw')

/-- `blob_rgb` lays out the planes as NumPy does. -/
theorem blobRgb_eq_chw (crop : Image Bgr) (out : List R) :
    blobRgb crop out = (chw crop).map fun v => (v.toNat : R) := by
  have hlen : ((chw crop).map fun v => (v.toNat : R)).length = 3 * (crop.rows * crop.cols) := by
    rw [List.length_map, length_chw]
  rw [blobRgb_buffer crop out ((chw crop).map fun v => (v.toNat : R)), blobRgb, resizeTo_self hlen]
  refine modifyAll_fixed fun w hw => ?_
  simp only [blobWrites, List.mem_flatMap, List.mem_range, List.mem_cons, List.not_mem_nil,
    or_false] at hw
  obtain ⟨y, hy, x, hx, hw⟩ := hw
  rw [List.getElem?_map]
  rcases hw with rfl | rfl | rfl
  · rw [chw_getElem? crop (by norm_num) hx hy]
    rfl
  · rw [chw_getElem? crop (by norm_num) hx hy]
    rfl
  · rw [chw_getElem? crop (by norm_num) hx hy]
    rfl

/-! ## The replica of the crop -/

/-- `cv::resize` reads the pixels of its image and nothing around them. -/
def ReadsPixels (ops : CvOps R) : Prop :=
  ∀ (m m' : Image Bgr) (n : ℕ), m.cols = m'.cols → m.rows = m'.rows →
    (∀ x y, x < m.cols → y < m.rows → m.px x y = m'.px x y) → ops.resize m n = ops.resize m' n

section Crop

variable (ops : CvOps R) (pad : Bgr) (img : Image Bgr) (posX posY : R) {sz : ℤ} (hsz : 1 ≤ sz)
  (modelSz : ℕ) (scratch : Image Bgr)

include hsz

/-- The patch of the replica against the patch of the tracker.

**Proof sketch.** Both patches show the padded plane from the same corner, one over the pad value
and the other over the mean. -/
theorem subwindowPatch_patch {u v : ℕ} (hu : u < sz) (hv : v < sz) :
    let g := nanoGeometry img posX posY sz
    (subwindowPatch pad img posX posY sz).px u v =
      if img.HasPixel (g.xmin + u) (g.ymin + v) then (g.patch img sz (ops.mean img) scratch).px u v
      else pad := by
  intro g
  have hexact := CropGeometry.exact_patch img g.xmin g.ymin hsz (ops.mean img) scratch
  have hpatch := hexact.px u v hu hv
  have hhalf : (sz + 1).tdiv 2 = (sz + 1) / 2 := Int.tdiv_eq_ediv_of_nonneg (by omega)
  have hxmin : g.xmin = Scalar.toInt posX - (sz + 1) / 2 := by
    rw [← hhalf]
    rfl
  have hymin : g.ymin = Scalar.toInt posY - (sz + 1) / 2 := by
    rw [← hhalf]
    rfl
  rw [subwindowPatch_px pad img posX posY hu hv, ← hxmin, ← hymin]
  split_ifs with hpix
  · refine Eq.trans ?_ hpatch.symm
    show img.plane pad (g.xmin + u) (g.ymin + v) =
      img.plane (ops.mean img) (g.xmin + u) (g.ymin + v)
    rw [Image.plane, Image.plane, if_pos hpix, if_pos hpix]
  · rw [Image.plane, if_neg hpix]

/-- Where no pad pixel shows, or the pad pixels are alike, the blobs are alike.

**Proof sketch.** The resize reads the pixels of the patch only, and these are equal: at a place
outside the image the pad value shows in both patches, so it is the mean or there is no such
place. -/
theorem subwindowBlob_eq (hreads : ReadsPixels ops) (out : List R)
    (h : (nanoGeometry img posX posY sz).padded = false ∨ pad = ops.mean img) :
    subwindowBlob ops pad img posX posY sz modelSz =
      blobRgb (nanoSubwindow ops img posX posY sz modelSz scratch).1 out := by
  have hexact : (nanoGeometry img posX posY sz).Exact img sz (ops.mean img)
      ((nanoGeometry img posX posY sz).patch img sz (ops.mean img) scratch) :=
    CropGeometry.exact_patch img _ _ hsz (ops.mean img) scratch
  have hside : (subwindowPatch pad img posX posY sz).cols = sz.toNat ∧
      (subwindowPatch pad img posX posY sz).rows = sz.toNat := by
    simp only [subwindowPatch]
    split_ifs <;> exact ⟨rfl, rfl⟩
  have hcols := hexact.cols
  have hrows := hexact.rows
  rw [blobRgb_eq_chw, nanoSubwindow_eq, subwindowBlob]
  congr 2
  refine hreads _ _ _ (by omega) (by omega) fun u v hu hv => ?_
  have hu' : (u : ℤ) < sz := by omega
  have hv' : (v : ℤ) < sz := by omega
  rw [subwindowPatch_patch ops pad img posX posY hsz scratch hu' hv']
  split_ifs with hpix
  · rfl
  · -- a pad pixel shows
    have hpadded := hexact.padded_iff.mpr ⟨u, v, hu', hv', hpix⟩
    have hmean : pad = ops.mean img := h.resolve_left (by rw [hpadded]; exact Bool.noConfusion)
    rw [hexact.px u v hu' hv', Image.plane, if_neg hpix, hmean]

end Crop

/-- **The crop replica.** For every image, centre and side the replica cuts the pixels that
`nano_subwindow` cuts, and pads the same places, with its own pad value; where none of these shows,
or the pad values are alike, the blob is the one `blob_rgb` fills, whatever the buffers held. -/
theorem subwindow_replica (ops : CvOps R) (hreads : ReadsPixels ops) (pad : Bgr) (img : Image Bgr)
    (posX posY : R) {sz : ℤ} (hsz : 1 ≤ sz) (modelSz : ℕ) (scratch : Image Bgr) (out : List R) :
    let g := nanoGeometry img posX posY sz
    (∀ u v : ℕ, u < sz → v < sz → (subwindowPatch pad img posX posY sz).px u v =
      if img.HasPixel (g.xmin + u) (g.ymin + v) then (g.patch img sz (ops.mean img) scratch).px u v
      else pad) ∧
    (g.padded = false ∨ pad = ops.mean img → subwindowBlob ops pad img posX posY sz modelSz =
      blobRgb (nanoSubwindow ops img posX posY sz modelSz scratch).1 out) :=
  ⟨fun _ _ hu hv => subwindowPatch_patch ops pad img posX posY hsz scratch hu hv,
    subwindowBlob_eq ops pad img posX posY hsz modelSz scratch hreads out⟩

/-- Resizing to the nearest pixel. -/
def nearest (m : Image Bgr) (n : ℕ) : Image Bgr :=
  ⟨n, n, fun x y =>
    if x < n ∧ y < n ∧ 0 < m.cols ∧ 0 < m.rows then m.px (x * m.cols / n) (y * m.rows / n)
    else default⟩

omit [Scalar R] in
theorem nearest_reads (mean : Image Bgr → Bgr) (exp : R → R) :
    ReadsPixels ⟨mean, nearest, exp⟩ := by
  intro m m' n hcols hrows hpx
  simp only [nearest, ← hcols, ← hrows]
  congr 1
  funext x y
  split_ifs with h
  · obtain ⟨hx, hy, hc, hr⟩ := h
    have hn : 0 < n := by omega
    refine hpx _ _ ?_ ?_
    · rw [Nat.div_lt_iff_lt_mul hn, Nat.mul_comm m.cols]
      exact Nat.mul_lt_mul_of_pos_right hx hc
    · rw [Nat.div_lt_iff_lt_mul hn, Nat.mul_comm m.rows]
      exact Nat.mul_lt_mul_of_pos_right hy hr
  · rfl

/-- The mean of an image whose channels have integer means. -/
def meanPixel (m : Image Bgr) : Bgr :=
  let mean (f : Bgr → UInt8) : UInt8 :=
    (((List.range m.rows).map fun y =>
      ((List.range m.cols).map fun x => (f (m.px x y)).toNat).sum).sum / (m.rows * m.cols)).toUInt8
  ⟨mean Bgr.b, mean Bgr.g, mean Bgr.r⟩

/-- A gradient with a mean of four in blue and green. -/
def gradient : Image Bgr := ⟨9, 9, fun x y => ⟨x.toUInt8, y.toUInt8, 0⟩⟩

/-- Two crops of a gradient at the size of the model, where resizing copies: one inside, and one that
hangs over a corner and shows the mean, which is a pixel value on both sides. -/
theorem subwindow_replica_gradient :
    let ops : CvOps ℚ := ⟨meanPixel, nearest, id⟩
    (subwindowBlob ops ⟨4, 4, 0⟩ gradient 4 4 3 3 =
        blobRgb (nanoSubwindow ops gradient 4 4 3 3 (emptyImage Bgr)).1 [] ∧
      subwindowBlob ops ⟨4, 4, 0⟩ gradient 1 1 3 3 =
        blobRgb (nanoSubwindow ops gradient 1 1 3 3 (emptyImage Bgr)).1 []) ∧
    subwindowBlob ops ⟨4, 4, 0⟩ gradient 1 1 3 3 =
      [0, 0, 0, 0, 0, 0, 0, 0, 0, 4, 4, 4, 4, 0, 0, 4, 1, 1, 4, 4, 4, 4, 0, 1, 4, 0, 1] := by
  intro ops
  have hreplica (x y : ℚ) := (subwindow_replica ops (nearest_reads _ _) ⟨4, 4, 0⟩ gradient x y
    (show (1 : ℤ) ≤ 3 by decide) 3 (emptyImage Bgr) []).2
  exact ⟨⟨hreplica 4 4 (Or.inl (by decide)), hreplica 1 1 (Or.inr (by decide +kernel))⟩,
    by decide +kernel⟩

/-! ## The calibration crops -/

/-- The crop that `nano_blobs` cuts around a box of the ground truth. -/
def nanoRequest (exemplar : Bool) (box : BBox R) : CropRequest R :=
  let wExt := box.w + 1 / 2 * (box.w + box.h)
  let hExt := box.h + 1 / 2 * (box.w + box.h)
  let s := Scalar.sqrt (wExt * hExt)
  ⟨box.x + box.w / 2, box.y + box.h / 2,
    if exemplar then Scalar.toInt s else Scalar.toInt s * 2⟩

/-- One blob of `nano_blobs`, unless the crop is too small. -/
def nanoBlob (exemplar : Bool) (ops : CvOps R) (pad : Bgr) (img : Image Bgr) (box : BBox R) :
    Option (List R) :=
  let q := nanoRequest exemplar box
  let modelSz := if exemplar then 127 else 255
  if q.side < 2 then none else some (subwindowBlob ops pad img q.posX q.posY q.side modelSz)

section Sides

variable [LawfulScalar R] {w h : R} (hw : 0 < w) (hh : 0 < h)

include hw hh

/-- The search side of `update` is at most that of the box, and less by at most one.

**Proof sketch.** The sum of the sides is cut by less than one, so the product under the root
falls, by less than the square of a side larger by one does. -/
theorem search_side_bounds (n : ℤ) (hn : 0 ≤ n) (hle : (n : R) ≤ w + h) (hlt : w + h < n + 1) :
    Scalar.sqrt ((w + 1 / 2 * n) * (h + 1 / 2 * n)) ≤ contextSide (1 / 2) w h ∧
      contextSide (1 / 2) w h ≤ Scalar.sqrt ((w + 1 / 2 * n) * (h + 1 / 2 * n)) + 1 := by
  have hn' : (0 : R) ≤ n := by exact_mod_cast hn
  have hcut : 0 ≤ (w + 1 / 2 * n) * (h + 1 / 2 * n) := by positivity
  have hfull : 0 ≤ (w + 1 / 2 * (w + h)) * (h + 1 / 2 * (w + h)) := by positivity
  have hroot := LawfulScalar.mul_self_sqrt _ hcut
  have hside := LawfulScalar.mul_self_sqrt _ hfull
  have hnonneg := LawfulScalar.sqrt_nonneg ((w + 1 / 2 * n) * (h + 1 / 2 * n))
  have hnonneg' := LawfulScalar.sqrt_nonneg ((w + 1 / 2 * (w + h)) * (h + 1 / 2 * (w + h)))
  constructor
  · rw [contextSide, le_sqrt_iff hnonneg hfull, hroot]
    exact mul_le_mul (by linarith) (by linarith) (by positivity) (by positivity)
  · -- the search side is at least half the sum it was cut from
    have hhalf : 1 / 2 * (n : R) ≤ Scalar.sqrt ((w + 1 / 2 * n) * (h + 1 / 2 * n)) := by
      rw [le_sqrt_iff (by positivity) hcut]
      exact mul_le_mul (by linarith) (by linarith) (by positivity) (by positivity)
    rw [contextSide]
    generalize Scalar.sqrt ((w + 1 / 2 * (n : R)) * (h + 1 / 2 * n)) = a at hroot hnonneg hhalf ⊢
    generalize Scalar.sqrt ((w + 1 / 2 * (w + h)) * (h + 1 / 2 * (w + h))) = b at hside hnonneg' ⊢
    by_contra hgt
    have hsquare : (a + 1) * (a + 1) < b * b :=
      mul_self_lt_mul_self (by linarith) (not_le.mp hgt)
    have hdiff : b * b - a * a =
        (w + h - n) * (1 / 2 * (w + h) + 1 / 4 * (w + h + n)) := by
      rw [hroot, hside]
      ring
    have hsmall : (w + h - n) * (1 / 2 * (w + h) + 1 / 4 * (w + h + n)) ≤
        1 * (1 / 2 * (n + 1) + 1 / 4 * (n + 1 + n)) :=
      mul_le_mul (by linarith) (by linarith) (by positivity) zero_le_one
    linarith

end Sides

/-- Twice the integer part of the side against the integer part of twice the search side. -/
theorem double_side_bounds [LawfulScalar R] {a b : R} (ha : 0 ≤ a) (hab : a ≤ b) (hba : b ≤ a + 1) :
    -2 ≤ Scalar.toInt (a * 2) - Scalar.toInt b * 2 ∧
      Scalar.toInt (a * 2) - Scalar.toInt b * 2 ≤ 1 := by
  obtain ⟨hlow, hhigh⟩ := LawfulScalar.toInt_nonneg (a * 2) (by positivity)
  obtain ⟨hlow', hhigh'⟩ := LawfulScalar.toInt_nonneg b (ha.trans hab)
  constructor
  · have hcast : ((Scalar.toInt b * 2 - 3 : ℤ) : R) < Scalar.toInt (a * 2) := by
      push_cast
      linarith
    have hlt : Scalar.toInt b * 2 - 3 < Scalar.toInt (a * 2) := by exact_mod_cast hcast
    omega
  · have hcast : (Scalar.toInt (a * 2) : R) < (Scalar.toInt b * 2 + 2 : ℤ) := by
      push_cast
      linarith
    have hlt : Scalar.toInt (a * 2) < Scalar.toInt b * 2 + 2 := by exact_mod_cast hcast
    omega

/-- **The calibration crops against the tracker.** With the default context, around any box of
positive size: the exemplar crop is the one `init` asks for, and its blob is the one `init` embeds
where no pad pixel shows or the pad values are alike; the search crop has the centre of the first
`update`, and a side that differs by two pixels at most.

**Proof sketch.** With the default context the exemplar request of the script is the one of
`init` by definition, so its blob is as well (`subwindowBlob_eq`).  The sides of the search crops
differ by the truncation of the context (`search_side_bounds`) and by that of the doubled side. -/
theorem calibration_crops [LawfulScalar R] (ops : NanoOps R) (hreads : ReadsPixels ops.cv)
    (pad : Bgr) (img : Image Bgr) (t : NanoTracker R) (hcontext : t.cfg.contextAmount = 1 / 2)
    (box : BBox R) (hw : 0 < box.w) (hh : 0 < box.h) :
    nanoRequest true box = t.initRequest box ∧
      (∀ b, nanoBlob true ops.cv pad img box = some b →
        (nanoGeometry img (t.initRequest box).posX (t.initRequest box).posY
          (t.initRequest box).side).padded = false ∨ pad = ops.cv.mean img →
        (t.init ops img box).zf = ops.backboneZ b) ∧
      let q := nanoRequest false box
      let r := (t.init ops img box).updateRequest
      (q.posX = r.posX ∧ q.posY = r.posY) ∧ -2 ≤ r.side - q.side ∧ r.side - q.side ≤ 1 := by
  have hexemplar : nanoRequest true box = t.initRequest box := by
    simp only [nanoRequest, NanoTracker.initRequest, contextSide, hcontext,
      div_eq_mul_one_div box.w, div_eq_mul_one_div box.h, if_true]
  refine ⟨hexemplar, ?_, ?_⟩
  · intro b hb halike
    simp only [nanoBlob, hexemplar, if_true] at hb
    rw [Option.ite_none_left_eq_some, not_lt] at hb
    obtain ⟨hside, hb⟩ := hb
    obtain rfl := Option.some.inj hb
    rw [NanoTracker.init_zf, CropRequest.cut]
    rw [subwindowBlob_eq ops.cv pad img _ _ (by omega) _ t.cropScratch hreads [] halike]
    rfl
  · intro q r
    have hsum : 0 ≤ box.w + box.h := (add_pos hw hh).le
    obtain ⟨hle, hlt⟩ := LawfulScalar.toInt_nonneg (box.w + box.h) hsum
    have hint : 0 ≤ Scalar.toInt (box.w + box.h) := by
      rw [le_toInt_iff hsum, Int.cast_zero]
      exact hsum
    obtain ⟨hbelow, habove⟩ := search_side_bounds hw hh _ hint hle hlt
    have hr : r.side =
        Scalar.toInt (Scalar.sqrt ((box.w + 1 / 2 * (Scalar.toInt (box.w + box.h) : R)) *
          (box.h + 1 / 2 * (Scalar.toInt (box.w + box.h) : R))) * 2) := by
      have hdouble : ((kInstance / kExemplar : ℕ) : R) = 2 := by norm_num [kInstance, kExemplar]
      rw [← hcontext, ← hdouble]
      rfl
    have hq : q.side = Scalar.toInt (contextSide (1 / 2) box.w box.h) * 2 := rfl
    refine ⟨⟨?_, ?_⟩, ?_⟩
    · show box.x + box.w / 2 = box.x + box.w * (1 / 2)
      rw [div_eq_mul_one_div]
    · show box.y + box.h / 2 = box.y + box.h * (1 / 2)
      rw [div_eq_mul_one_div]
    · rw [hr, hq]
      exact double_side_bounds (LawfulScalar.sqrt_nonneg _) hbelow habove

theorem calibration_crops_square :
    let ops : NanoOps ℝ :=
      { cv := ⟨fun _ => ⟨0, 0, 0⟩, nearest, Real.exp⟩
        backboneZ := id
        backboneX := id
        head := fun _ _ => ([], [])
        scoreSize := 0
        createHanningWindow := fun _ => [] }
    let box : BBox ℝ := ⟨10, 10, 4, 4⟩
    let r := ((NanoTracker.new ops {}).init ops ⟨640, 480, fun _ _ => ⟨0, 0, 0⟩⟩ box).updateRequest
    nanoRequest true box = (NanoTracker.new ops {}).initRequest box ∧
      -2 ≤ r.side - (nanoRequest false box).side ∧ r.side - (nanoRequest false box).side ≤ 1 := by
  intro ops box r
  have h := calibration_crops ops (nearest_reads _ _) ⟨0, 0, 0⟩ ⟨640, 480, fun _ _ => ⟨0, 0, 0⟩⟩
    (NanoTracker.new ops {}) rfl box (by norm_num [box]) (by norm_num [box])
  exact ⟨h.1, h.2.2.2⟩

end Quantize

end Ctrk
