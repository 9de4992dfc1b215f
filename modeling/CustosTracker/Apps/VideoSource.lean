import CustosTracker.Common.Image
import CustosTracker.Tbd.ByteTracker

set_option relaxedAutoImplicit false
set_option autoImplicit false

/-!
# Frames of an image sequence

`VideoSource` of `apps/app_common.cpp` on a file, the index stamps it shares with the frames player,
and `builtin_interfaces/Time` as `ros2/ctrk_ros/src/frame_view.hpp` reads it.

## Main definitions

* `Ctrk.fallbackFps`, `Ctrk.indexNs` — the frame rate and the time of a frame.
* `Ctrk.Stamp`, `Ctrk.stampOfNs`, `Ctrk.stampToNs` — a time on the wire, written and read.
* `Ctrk.VideoSource`, `Ctrk.VideoSource.read`, `Ctrk.VideoSource.consume` — a source, and a loop
  over its frames.
* `Ctrk.playable` — the frames a source gives.

## Main results

* `Ctrk.stampToNs_stampOfNs` — a time survives the wire.
* `Ctrk.VideoSource.consume_eq_read`, `Ctrk.VideoSource.consume_eq_foldlM` — the loop, as the source
  writes it and as a fold over the stamped frames.

## Implementation notes

A camera, whose frames carry the steady clock, is left out.  An image sequence gives its images in
order; the first empty one ends it.
-/

namespace Ctrk

variable {R : Type} [Scalar R]

/-! ## Index stamps -/

/-- The frame rate of a file: the probed one if it is plausible. -/
def fallbackFps (probed : R) : R := if 1 < probed ∧ probed < 1000 then probed else 30

/-- The time of the frame number `idx`, counted from zero, in nanoseconds. -/
def indexNs (fps : R) (idx : ℕ) : ℤ := Scalar.toInt ((idx : R) / fps * 10 ^ 9)

/-- A nonnegative number is cut down to its integer part. -/
def Truncates (R : Type) [Scalar R] : Prop :=
  ∀ x : R, 0 ≤ x → (Scalar.toInt x : R) ≤ x ∧ x < Scalar.toInt x + 1

theorem truncates_rat : Truncates ℚ := by
  intro x hx
  change ((if 0 ≤ x then ⌊x⌋ else ⌈x⌉ : ℤ) : ℚ) ≤ x ∧ x < (if 0 ≤ x then ⌊x⌋ else ⌈x⌉ : ℤ) + 1
  rw [if_pos hx]
  exact ⟨Int.floor_le x, Int.lt_floor_add_one x⟩

section Fits

variable [IsStrictOrderedRing R]

theorem one_lt_fallbackFps (probed : R) : 1 < fallbackFps probed := by
  unfold fallbackFps
  split_ifs with h
  · exact h.1
  · norm_num

/-- Index stamps of up to `2 ^ 31` frames fit the seconds of a message. -/
theorem indexNs_fits (htrunc : Truncates R) {fps : R} (hfps : 1 < fps) {idx : ℕ}
    (hidx : idx < 2 ^ 31) : 0 ≤ indexNs fps idx ∧ indexNs fps idx < 2 ^ 31 * 10 ^ 9 := by
  have hpos : (0 : R) < fps := zero_lt_one.trans hfps
  have hnonneg : (0 : R) ≤ (idx : R) / fps * 10 ^ 9 :=
    mul_nonneg (div_nonneg (Nat.cast_nonneg idx) hpos.le) (by norm_num)
  obtain ⟨hle, hlt⟩ := htrunc _ hnonneg
  constructor
  · have hneg : ((-1 : ℤ) : R) < (indexNs fps idx : R) := by
      rw [Int.cast_neg, Int.cast_one]
      exact neg_lt_iff_pos_add.mpr (lt_of_le_of_lt hnonneg hlt)
    have := Int.cast_lt.mp hneg
    omega
  · have hidx' : (idx : R) < 2 ^ 31 := by exact_mod_cast hidx
    have hdiv : (idx : R) / fps ≤ idx := div_le_self (Nat.cast_nonneg idx) hfps.le
    have hbound : (indexNs fps idx : R) < ((2 ^ 31 * 10 ^ 9 : ℤ) : R) := by
      calc (indexNs fps idx : R) ≤ (idx : R) / fps * 10 ^ 9 := hle
        _ < 2 ^ 31 * 10 ^ 9 := mul_lt_mul_of_pos_right (lt_of_le_of_lt hdiv hidx') (by norm_num)
        _ = ((2 ^ 31 * 10 ^ 9 : ℤ) : R) := by norm_num
    exact Int.cast_lt.mp hbound

theorem fallbackFps_lt (probed : R) : fallbackFps probed < 1000 := by
  unfold fallbackFps
  split_ifs with h
  · exact h.2
  · norm_num

/-- Up to a rate of one frame per nanosecond, index stamps increase. -/
theorem indexNs_strictMono (htrunc : Truncates R) {fps : R} (hfps : 0 < fps)
    (hmax : fps ≤ 10 ^ 9) : StrictMono (indexNs fps) := by
  refine strictMono_nat_of_lt_succ fun idx => ?_
  have hstep : (idx : R) / fps * 10 ^ 9 + 1 ≤ ((idx + 1 : ℕ) : R) / fps * 10 ^ 9 := by
    have hgap : 1 ≤ 1 / fps * 10 ^ 9 := by
      rw [one_div, inv_mul_eq_div, one_le_div hfps]
      exact hmax
    rw [Nat.cast_add, Nat.cast_one, add_div, add_mul]
    linarith
  have hnonneg : ∀ j : ℕ, (0 : R) ≤ (j : R) / fps * 10 ^ 9 := fun j =>
    mul_nonneg (div_nonneg (Nat.cast_nonneg j) hfps.le) (by norm_num)
  obtain ⟨hle, -⟩ := htrunc _ (hnonneg idx)
  obtain ⟨-, hlt⟩ := htrunc _ (hnonneg (idx + 1))
  have hcast : (indexNs fps idx : R) < (indexNs fps (idx + 1) : R) := by
    have hlt' : ((idx + 1 : ℕ) : R) / fps * 10 ^ 9 < (indexNs fps (idx + 1) : R) + 1 := hlt
    have hle' : (indexNs fps idx : R) ≤ (idx : R) / fps * 10 ^ 9 := hle
    linarith
  exact Int.cast_lt.mp hcast

end Fits

/-! ## Stamps on the wire -/

/-- `builtin_interfaces/Time`. -/
structure Stamp where
  sec : ℤ
  nanosec : ℤ
  deriving DecidableEq

/-- The stamp of an index-stamped message: `int32` seconds and `uint32` nanoseconds. -/
def stampOfNs (tNs : ℤ) : Stamp :=
  ⟨wrapInt (tNs.tdiv (10 ^ 9)), (tNs.tmod (10 ^ 9)) % 2 ^ 32⟩

/-- `stamp_to_ns`. -/
def stampToNs (t : Stamp) : ℤ := t.sec * 10 ^ 9 + t.nanosec

/-- A time up to `2 ^ 31` seconds survives the wire. -/
theorem stampToNs_stampOfNs {tNs : ℤ} (h0 : 0 ≤ tNs) (h : tNs < 2 ^ 31 * 10 ^ 9) :
    stampToNs (stampOfNs tNs) = tNs := by
  have hdiv : tNs.tdiv (10 ^ 9) = tNs / 10 ^ 9 := Int.tdiv_eq_ediv_of_nonneg h0
  have hmod : tNs.tmod (10 ^ 9) = tNs % 10 ^ 9 := Int.tmod_eq_emod_of_nonneg h0
  have hsec : wrapInt (tNs / 10 ^ 9) = tNs / 10 ^ 9 := by
    rw [wrapInt, Int.bmod_def]
    omega
  simp only [stampToNs, stampOfNs, hdiv, hmod, hsec]
  omega

/-! ## Sources -/

/-- A source on a file: its frame rate, the images left, and the number of frames read. -/
structure VideoSource (R : Type) where
  fps : R
  images : List (Image Bgr)
  idx : ℕ := 0

namespace VideoSource

/-- `VideoSource::open` on a file with a probed frame rate. -/
def new (probed : R) (images : List (Image Bgr)) : VideoSource R :=
  { fps := fallbackFps probed, images := images }

/-- `read`: the next image with its time. -/
def read (src : VideoSource R) : Option (Image Bgr × ℤ) × VideoSource R :=
  match src.images with
  | [] => (none, src)
  | image :: rest =>
    if image.isEmpty then (none, { src with images := rest })
    else (some (image, indexNs src.fps src.idx), { src with images := rest, idx := src.idx + 1 })

/-- `while (src->read(frame, t_ns))`: run a loop body on every frame. -/
def consume {σ : Type} (body : σ → Image Bgr → ℤ → Option σ) (fps : R) :
    List (Image Bgr) → ℕ → σ → Option σ
  | [], _, s => some s
  | image :: rest, idx, s =>
    if image.isEmpty then some s
    else (body s image (indexNs fps idx)).bind (consume body fps rest (idx + 1))

/-- The loop reads, and stops when there is no frame. -/
theorem consume_eq_read {σ : Type} (body : σ → Image Bgr → ℤ → Option σ) (src : VideoSource R)
    (s : σ) : consume body src.fps src.images src.idx s = match src.read with
      | (none, _) => some s
      | (some (image, tNs), src') =>
        (body s image tNs).bind (consume body src'.fps src'.images src'.idx) := by
  obtain ⟨fps, images, idx⟩ := src
  cases images with
  | nil => rfl
  | cons image rest =>
    simp only [consume, read]
    split_ifs <;> rfl

end VideoSource

/-- The frames a source gives: those before the first empty image. -/
def playable (images : List (Image Bgr)) : List (Image Bgr) := images.takeWhile fun m => !m.isEmpty

theorem playable_take (images : List (Image Bgr)) (k : ℕ) :
    playable (images.take k) = (playable images).take k := by
  induction images generalizing k with
  | nil => simp [playable]
  | cons image rest ih =>
    cases k with
    | zero => rfl
    | succ k =>
      cases hempty : image.isEmpty with
      | true => simp [playable, hempty]
      | false =>
        have htail := ih k
        simp only [playable] at htail
        simp [playable, hempty, htail]

theorem length_playable_le (images : List (Image Bgr)) :
    (playable images).length ≤ images.length :=
  (List.takeWhile_sublist _).length_le

/-- Images with their times, counted from `idx`. -/
def stamped (fps : R) (images : List (Image Bgr)) (idx : ℕ) : List (Image Bgr × ℤ) :=
  images.mapIdx fun i image => (image, indexNs fps (idx + i))

theorem stamped_cons (fps : R) (image : Image Bgr) (rest : List (Image Bgr)) (idx : ℕ) :
    stamped fps (image :: rest) idx = (image, indexNs fps idx) :: stamped fps rest (idx + 1) := by
  rw [stamped, List.mapIdx_cons, stamped, Nat.add_zero]
  congr 2
  funext i m
  rw [Nat.add_comm i 1, ← Nat.add_assoc]

/-- The loop runs its body on the stamped frames in turn.

**Proof sketch.** By induction on the images left.  One turn of the loop is one `read`: an empty
image ends it, as it ends the playable images, and otherwise the body runs on the first stamped
frame and the loop goes on with one image less and the next index. -/
theorem VideoSource.consume_eq_foldlM {σ : Type} (body : σ → Image Bgr → ℤ → Option σ) (fps : R)
    (images : List (Image Bgr)) (idx : ℕ) (s : σ) :
    consume body fps images idx s =
      (stamped fps (playable images) idx).foldlM (fun s frame => body s frame.1 frame.2) s := by
  induction images generalizing idx s with
  | nil => rfl
  | cons image rest ih =>
    have hturn := consume_eq_read body ⟨fps, image :: rest, idx⟩ s
    cases hempty : image.isEmpty with
    | true =>
      have hread : read (⟨fps, image :: rest, idx⟩ : VideoSource R) =
          (none, ⟨fps, rest, idx⟩) := by simp [read, hempty]
      rw [hread] at hturn
      rw [hturn]
      simp [playable, stamped, hempty]
    | false =>
      have hread : read (⟨fps, image :: rest, idx⟩ : VideoSource R) =
          (some (image, indexNs fps idx), ⟨fps, rest, idx + 1⟩) := by simp [read, hempty]
      have hplay : playable (image :: rest) = image :: playable rest := by simp [playable, hempty]
      rw [hread] at hturn
      rw [hturn, hplay, stamped_cons, List.foldlM_cons]
      exact congrArg (body s image (indexNs fps idx)).bind (funext fun s' => ih (idx + 1) s')

/-- What stands behind the first empty image makes no difference. -/
theorem VideoSource.consume_take {σ : Type} (body : σ → Image Bgr → ℤ → Option σ) (fps : R)
    (images : List (Image Bgr)) (idx : ℕ) (s : σ) :
    consume body fps (images.take (playable images).length) idx s =
      consume body fps images idx s := by
  rw [consume_eq_foldlM, consume_eq_foldlM, playable_take, List.take_length]

end Ctrk
