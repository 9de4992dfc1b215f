import CustosTracker.Ros.Replay

set_option relaxedAutoImplicit false
set_option autoImplicit false

/-!
# Images on the wire

The bytes behind `ImageMsg`: the frames player copies the rows of an image, which may be padded in
memory, into a packed message, and a node views the message without a copy.  The pixels and the
time arrive as they were sent, and the view never looks outside the buffer.

## Main definitions

* `Ctrk.RawMat`, `Ctrk.RawMat.pixels` — an image in memory, with a distance from row to row.
* `Ctrk.WireImage`, `Ctrk.wireMessage` — a message, and the one of an index-stamped frame.
* `Ctrk.WireImage.toView`, `Ctrk.BufferView.asMat` — what a node sees of it.

## Main results

* `Ctrk.getD_copyRows` — the copied bytes.
* `Ctrk.wire_roundtrip` — what is sent is what is seen.
-/

namespace Ctrk

variable {R : Type}

/-- `cv::Mat` of three bytes a pixel: a buffer with `step` bytes from row to row. -/
structure RawMat where
  cols : ℕ
  rows : ℕ
  step : ℕ
  bytes : ℕ → UInt8

/-- The pixels of an image in memory. -/
def RawMat.pixels (m : RawMat) : Image Bgr :=
  ⟨m.cols, m.rows, fun x y =>
    ⟨m.bytes (y * m.step + 3 * x), m.bytes (y * m.step + 3 * x + 1),
      m.bytes (y * m.step + 3 * x + 2)⟩⟩

/-- `sensor_msgs/Image`. -/
structure WireImage where
  stamp : Stamp
  encoding : String
  width : ℕ
  height : ℕ
  step : ℕ
  data : List UInt8

/-- `FrameView`, with the buffer behind its pointer. -/
structure BufferView where
  data : List UInt8
  width : ℤ
  height : ℤ
  strideBytes : ℤ
  tNs : ℤ

/-! ## Sending -/

/-- The copy of the rows: `step` bytes of each into a packed buffer. -/
def copyRows (m : RawMat) (step height : ℕ) : List UInt8 :=
  Indexed.modifyAll Prod.fst (fun w _ => w.2) (List.replicate (step * height) 0)
    ((List.range m.rows).flatMap fun y =>
      (List.range step).map fun i => (y * step + i, m.bytes (y * m.step + i)))

/-- The message `publish_next` builds of a frame with an index stamp. -/
def wireMessage (m : RawMat) (tNs : ℤ) : WireImage :=
  let step := m.cols * 3 % 2 ^ 32
  let height := m.rows % 2 ^ 32
  { stamp := stampOfNs tNs
    encoding := "bgr8"
    width := m.cols % 2 ^ 32
    height := height
    step := step
    data := copyRows m step height }

/-! ## Receiving -/

/-- `to_frame_view`: a view of a `bgr8` message. -/
def WireImage.toView (msg : WireImage) : Option BufferView :=
  if msg.encoding ≠ "bgr8" then none
  else some ⟨msg.data, wrapInt msg.width, wrapInt msg.height, wrapInt msg.step,
    stampToNs msg.stamp⟩

/-- `as_mat`: the image a view shows; none where its assertion fails. -/
def BufferView.asMat (v : BufferView) : Option RawMat :=
  if v.data ≠ [] ∧ 0 < v.width ∧ 0 < v.height then
    let step := if 0 < v.strideBytes then v.strideBytes else v.width * 3
    some ⟨v.width.toNat, v.height.toNat, step.toNat, fun i => v.data.getD i 0⟩
  else none

/-! ## The round trip -/

theorem length_copyRows (m : RawMat) (step height : ℕ) :
    (copyRows m step height).length = step * height := by
  rw [copyRows, Indexed.length_modifyAll, List.length_replicate]

/-- The row of an entry of a packed buffer. -/
theorem packed_row {step y i : ℕ} (hi : i < step) : (y * step + i) / step = y := by
  rw [Nat.mul_comm, Nat.mul_add_div (Nat.zero_lt_of_lt hi), Nat.div_eq_of_lt hi, Nat.add_zero]

/-- Rows do not overlap in a packed buffer. -/
theorem nodup_copyRows (m : RawMat) (step : ℕ) :
    (((List.range m.rows).flatMap fun y => (List.range step).map fun i =>
      (y * step + i, m.bytes (y * m.step + i))).map Prod.fst).Nodup := by
  rw [List.map_flatMap, List.nodup_flatMap]
  refine ⟨fun y _ => ?_, ?_⟩
  · rw [List.map_map]
    refine List.nodup_range.map fun i j hij => ?_
    exact Nat.add_left_cancel hij
  · refine List.nodup_range.imp fun {y y'} hne k hk hk' => ?_
    simp only [List.map_map, List.mem_map, List.mem_range, Function.comp_apply] at hk hk'
    obtain ⟨i, hi, rfl⟩ := hk
    obtain ⟨i', hi', heq⟩ := hk'
    have hrow := congrArg (· / step) heq
    simp only [packed_row hi, packed_row hi'] at hrow
    exact hne hrow.symm

/-- The copied bytes. -/
theorem getD_copyRows (m : RawMat) {step height y i : ℕ} (hheight : m.rows ≤ height)
    (hy : y < m.rows) (hi : i < step) :
    (copyRows m step height).getD (y * step + i) 0 = m.bytes (y * m.step + i) := by
  have hjob : (y * step + i, m.bytes (y * m.step + i)) ∈
      (List.range m.rows).flatMap fun y => (List.range step).map fun i =>
        (y * step + i, m.bytes (y * m.step + i)) :=
    List.mem_flatMap.mpr ⟨y, List.mem_range.mpr hy,
      List.mem_map.mpr ⟨i, List.mem_range.mpr hi, rfl⟩⟩
  have hbound : y * step + i < step * height := by
    have hrow : (y + 1) * step ≤ height * step := Nat.mul_le_mul_right step (by omega)
    rw [Nat.succ_mul] at hrow
    rw [Nat.mul_comm step height]
    omega
  have hget : (copyRows m step height)[y * step + i]? = some (m.bytes (y * m.step + i)) := by
    refine (Indexed.getElem?_modifyAll_of_mem Prod.fst _ (nodup_copyRows m step) hjob).trans ?_
    rw [List.getElem?_replicate, if_pos hbound]
    rfl
  rw [List.getD_eq_getElem?_getD, hget, Option.getD_some]

/-- **What is sent is what is seen.** Let a frame have pixels, sizes that fit the message, and any
padding of its rows in memory, and let its time fit a stamp.  Then a node sees the time, the size
and the pixels of the frame, as in the messages that carry images as a whole, and all bytes it looks
at are in the buffer of the message, which holds just the packed rows.

**Proof sketch.** The sizes fit their fields, so no wrapping changes them, and the step of the
message is three times the width.  Copying packs the rows, so the byte at a position of the
packed buffer is the byte at that position of its row in memory, and the three bytes of a pixel
lie within the row. -/
theorem wire_roundtrip (m : RawMat) (hcols : 0 < m.cols) (hrows : 0 < m.rows)
    (hwidth : m.cols * 3 < 2 ^ 31) (hheight : m.rows < 2 ^ 31) {tNs : ℤ} (h0 : 0 ≤ tNs)
    (ht : tNs < 2 ^ 31 * 10 ^ 9) (detector : Image Bgr → List (Detection R)) :
    ∃ v mat frame, (wireMessage m tNs).toView = some v ∧ v.asMat = some mat ∧
      toFrameView (stampedMessage detector (m.pixels, tNs)) = some frame ∧
      (v.tNs = tNs ∧ v.tNs = frame.tNs) ∧
      (mat.cols = m.cols ∧ mat.rows = m.rows ∧ mat.step = 3 * m.cols) ∧
      (mat.cols = frame.image.cols ∧ mat.rows = frame.image.rows) ∧
      (wireMessage m tNs).data.length = mat.step * mat.rows ∧
      ∀ x y, x < m.cols → y < m.rows →
        mat.pixels.px x y = m.pixels.px x y ∧ mat.pixels.px x y = frame.image.px x y ∧
          y * mat.step + 3 * x + 2 < (wireMessage m tNs).data.length := by
  have hstepmod : m.cols * 3 % 2 ^ 32 = m.cols * 3 := Nat.mod_eq_of_lt (by omega)
  have hcolsmod : m.cols % 2 ^ 32 = m.cols := Nat.mod_eq_of_lt (by omega)
  have hrowsmod : m.rows % 2 ^ 32 = m.rows := Nat.mod_eq_of_lt (by omega)
  have hcast {n : ℕ} (hn : n < 2 ^ 31) : wrapInt (n : ℤ) = n :=
    wrapInt_eq_self (by omega) (by omega)
  have hdata : (wireMessage m tNs).data = copyRows m (m.cols * 3) m.rows := by
    simp only [wireMessage, hstepmod, hrowsmod]
  have hlen : (wireMessage m tNs).data.length = m.cols * 3 * m.rows := by
    rw [hdata, length_copyRows]
  have hne : copyRows m (m.cols * 3) m.rows ≠ [] := by
    rw [← List.length_pos_iff, length_copyRows]
    exact Nat.mul_pos (by omega) hrows
  have hview : (wireMessage m tNs).toView =
      some ⟨copyRows m (m.cols * 3) m.rows, m.cols, m.rows, (m.cols * 3 : ℕ), tNs⟩ := by
    simp only [WireImage.toView, wireMessage, hstepmod, hcolsmod, hrowsmod, ne_eq,
      not_true_eq_false, if_false, hcast hwidth, hcast hheight,
      hcast (show m.cols < 2 ^ 31 by omega), stampToNs_stampOfNs h0 ht]
  have hmat : BufferView.asMat ⟨copyRows m (m.cols * 3) m.rows, m.cols, m.rows,
      (m.cols * 3 : ℕ), tNs⟩ = some ⟨m.cols, m.rows, m.cols * 3,
        fun i => (copyRows m (m.cols * 3) m.rows).getD i 0⟩ := by
    rw [BufferView.asMat, if_pos ⟨hne, Int.natCast_pos.mpr hcols, Int.natCast_pos.mpr hrows⟩,
      if_pos (Int.natCast_pos.mpr (Nat.mul_pos hcols (by omega)))]
    rfl
  have hframe : toFrameView (stampedMessage detector (m.pixels, tNs)) =
      some ⟨m.pixels, tNs, detector m.pixels⟩ := toFrameView_stampedMessage detector ⟨h0, ht⟩
  have hpixel {x y : ℕ} (hx : x < m.cols) (hy : y < m.rows) :
      (RawMat.mk m.cols m.rows (m.cols * 3)
        fun i => (copyRows m (m.cols * 3) m.rows).getD i 0).pixels.px x y = m.pixels.px x y := by
    -- the three bytes of a pixel lie in the copied part of its row
    have hbyte (k : ℕ) (hk : k < 3) :
        (copyRows m (m.cols * 3) m.rows).getD (y * (m.cols * 3) + (3 * x + k)) 0 =
          m.bytes (y * m.step + (3 * x + k)) :=
      getD_copyRows m le_rfl hy (by omega)
    simp only [RawMat.pixels, Nat.add_assoc, Bgr.mk.injEq]
    exact ⟨hbyte 0 (by omega), hbyte 1 (by omega), hbyte 2 (by omega)⟩
  refine ⟨_, _, _, hview, hmat, hframe, ⟨rfl, rfl⟩, ⟨rfl, rfl, Nat.mul_comm m.cols 3⟩, ⟨rfl, rfl⟩,
    hlen, fun x y hx hy => ⟨hpixel hx hy, hpixel hx hy, ?_⟩⟩
  · have hrow : (y + 1) * (m.cols * 3) ≤ m.rows * (m.cols * 3) :=
      Nat.mul_le_mul_right _ (by omega)
    rw [Nat.succ_mul, Nat.mul_comm m.rows] at hrow
    rw [hlen]
    change y * (m.cols * 3) + 3 * x + 2 < _
    omega

/-- Two rows of one pixel, with five bytes of padding. -/
def paddedMat : RawMat := ⟨1, 2, 8, fun i => i.toUInt8⟩

theorem wire_roundtrip_padded :
    ∃ v mat, (wireMessage paddedMat 7000000000).toView = some v ∧ v.asMat = some mat ∧
      v.tNs = 7000000000 ∧ mat.step = 3 ∧ mat.pixels.px 0 1 = paddedMat.pixels.px 0 1 := by
  obtain ⟨v, mat, frame, hview, hmat, -, ⟨htime, -⟩, ⟨-, -, hstep⟩, -, -, hpx⟩ :=
    wire_roundtrip paddedMat (by decide) (by decide) (by decide) (by decide)
      (show (0 : ℤ) ≤ 7000000000 by decide) (by decide) (fun _ => ([] : List (Detection ℚ)))
  exact ⟨v, mat, hview, hmat, htime, hstep, (hpx 0 1 (by decide) (by decide)).1⟩

end Ctrk
