import CustosTracker.Ros.TbdNode

set_option relaxedAutoImplicit false
set_option autoImplicit false

/-!
# The drawing node

`DrawNode` of `ros2/ctrk_ros/src/draw_node.cpp`: it keeps the latest tracks and the latest status
of the target, and draws both into every image that arrives.  The boxes go over the wire by their
centres and the ids as text, and still the node draws the boxes of the report they were made of,
each in the colour of its track.

## Main definitions

* `Ctrk.atoi`, `Ctrk.idHue` — the number and the colour of an id.
* `Ctrk.Drawing`, `Ctrk.Annotated`, `Ctrk.DrawNode` — what is drawn, and the node.
* `Ctrk.DrawEvent`, `Ctrk.DrawNode.run` — runs of its callbacks.

## Main results

* `Ctrk.atoi_toString` — an id survives the wire.
* `Ctrk.idHue_ne` — neighbouring ids have different colours.
* `Ctrk.DrawNode.draws_report` — an image shows the latest report.

## Implementation notes

A drawing is the rectangle, the colour and the text that the source hands to the image library; a
text is the values it formats.  The pixels are left out, as is the conversion of the hue to the
colour space of the image.
-/

namespace Ctrk

variable {R : Type} [Scalar R]

/-! ## Ids as text -/

/-- `isspace`. -/
def isSpace (c : Char) : Bool := c.toNat = 32 || (9 ≤ c.toNat && c.toNat ≤ 13)

/-- The number a run of digits starts with. -/
def leadingNat (cs : List Char) : ℕ := Nat.ofDigitChars 10 (cs.takeWhile Char.isDigit) 0

/-- `std::atoi`. -/
def atoi (s : String) : ℤ :=
  match s.toList.dropWhile isSpace with
  | [] => 0
  | c :: cs => if c = '-' then -leadingNat cs else if c = '+' then leadingNat cs
    else leadingNat (c :: cs)

/-- The digits of a number give it back. -/
theorem leadingNat_toDigits (n : ℕ) : leadingNat (Nat.toDigits 10 n) = n := by
  have hdigits : (Nat.toDigits 10 n).takeWhile Char.isDigit = Nat.toDigits 10 n := by
    rw [List.takeWhile_eq_self_iff]
    exact fun c hc => Nat.isDigit_of_mem_toDigits (by decide) le_rfl hc
  rw [leadingNat, hdigits, Nat.ofDigitChars_toDigits (by decide) le_rfl]

/-- A digit is no blank and no sign. -/
theorem isDigit_spec {c : Char} (hc : c.isDigit = true) :
    isSpace c = false ∧ c ≠ '-' ∧ c ≠ '+' := by
  refine ⟨?_, ?_, ?_⟩
  · rw [Char.isDigit, Bool.and_eq_true, decide_eq_true_eq] at hc
    have hge : 48 ≤ c.toNat := UInt32.le_iff_toNat_le.mp hc.1
    simp only [isSpace, Bool.or_eq_false_iff, Bool.and_eq_false_iff, decide_eq_false_iff_not]
    exact ⟨by omega, Or.inr (by omega)⟩
  · rintro rfl
    exact absurd hc (by decide)
  · rintro rfl
    exact absurd hc (by decide)

/-- A text that starts with a digit is read as a number. -/
theorem atoi_of_digits {s : String} {n : ℕ} (hs : s.toList = Nat.toDigits 10 n) : atoi s = n := by
  have hdigits : ∀ c ∈ Nat.toDigits 10 n, c.isDigit = true :=
    fun c hc => Nat.isDigit_of_mem_toDigits (by decide) le_rfl hc
  rw [← leadingNat_toDigits n, atoi, hs]
  cases hlist : Nat.toDigits 10 n with
  | nil => exact absurd hlist Nat.toDigits_ne_nil
  | cons c cs =>
    obtain ⟨hspace, hminus, hplus⟩ := isDigit_spec (hdigits c (hlist ▸ List.mem_cons_self))
    rw [List.dropWhile_cons_of_neg (by simp [hspace])]
    simp only [hminus, hplus, if_false]

/-- An id survives the wire. -/
theorem atoi_toString (n : ℤ) : atoi (toString n) = n := by
  rw [Int.toString_eq_repr, Int.repr_eq_if]
  split_ifs with hn
  · rw [atoi_of_digits Nat.toList_repr]
    exact Int.toNat_of_nonneg hn
  · have hlist : ("-" ++ (-n).toNat.repr).toList = '-' :: Nat.toDigits 10 (-n).toNat := by
      rw [String.toList_append, Nat.toList_repr]
      rfl
    have hskip : ('-' :: Nat.toDigits 10 (-n).toNat).dropWhile isSpace =
        '-' :: Nat.toDigits 10 (-n).toNat := List.dropWhile_cons_of_neg (by decide)
    rw [atoi, hlist, hskip]
    simp only [if_true, leadingNat_toDigits]
    omega

/-! ## Drawing -/

/-- The hue of `id_color`, in two degrees and saturated to a byte.  The product is an `int` of 32
bits. -/
def idHue (id : ℤ) : ℤ := max 0 (min 255 ((wrapInt (id * 47)).tmod 180))

/-- Neighbouring ids have different colours, while `47 * id` fits an `int`. -/
theorem idHue_ne {a b : ℤ} (ha : 0 ≤ a) (hab : a < b) (hb : b < a + 180) (hfit : b < 45691142) :
    idHue a ≠ idHue b := by
  have hmod {c : ℤ} (hc : 0 ≤ c) (hc' : c < 45691142) : idHue c = c * 47 % 180 := by
    have hprod : c * 47 < 2 ^ 31 := by omega
    rw [idHue, wrapInt_eq_self (by omega) hprod, Int.tmod_eq_emod_of_nonneg (by omega)]
    omega
  rw [hmod ha (by omega), hmod (by omega) hfit]
  omega

/-- The colour of a box: that of an id, or that of the target. -/
inductive DrawColor
  | ofHue (hue : ℤ)
  | target
  deriving DecidableEq

/-- The text at a box. -/
inductive DrawLabel (R : Type)
  | track (id : String) (score : R)
  | target (score : R)

/-- `draw_box`: a rectangle and its text. -/
structure Drawing (R : Type) where
  rect : Rect
  color : DrawColor
  label : DrawLabel R

/-- The rectangle `draw_box` draws: position and size cut to integers. -/
def drawRect (x y w h : R) : Rect :=
  ⟨Scalar.toInt x, Scalar.toInt y, Scalar.toInt w, Scalar.toInt h⟩

/-- The drawing of a detection message. -/
def drawDetection (d : Detection2D R) : Drawing R where
  rect := drawRect (d.centerX - 1 / 2 * d.sizeX) (d.centerY - 1 / 2 * d.sizeY) d.sizeX d.sizeY
  color := .ofHue (idHue (atoi d.id))
  label := .track d.id (match d.results with | [] => 0 | r :: _ => r.score)

/-- The drawing of a target, unless it is idle. -/
def drawTarget (s : SotStatus R) : List (Drawing R) :=
  if s.state ≠ .idle then [⟨drawRect s.box.x s.box.y s.box.w s.box.h, .target, .target s.score⟩]
  else []

/-- An annotated image: the header and the image that arrived, and what is drawn over it. -/
structure Annotated (R : Type) where
  header : Header
  image : Image Bgr
  drawings : List (Drawing R)

/-- The node's members. -/
structure DrawNode (R : Type) where
  tracks : Option (Detection2DArray R) := none
  target : Option (SotStatus R) := none

/-- What arrives at the node. -/
inductive DrawEvent (R : Type)
  | image (msg : ImageMsg R)
  | tracks (msg : Detection2DArray R)
  | target (msg : SotStatus R)

namespace DrawNode

/-- `on_image`: draw the latest tracks, then the target; other encodings are dropped. -/
def onImage (n : DrawNode R) (msg : ImageMsg R) : Option (Annotated R) :=
  if msg.encoding ≠ "bgr8" then none
  else some ⟨msg.header, msg.image,
    (match n.tracks with | none => [] | some m => m.detections.map drawDetection) ++
      match n.target with | none => [] | some s => drawTarget s⟩

/-- Deliver one event. -/
def step (n : DrawNode R) : DrawEvent R → Option (Annotated R) × DrawNode R
  | .image msg => (n.onImage msg, n)
  | .tracks msg => (none, { n with tracks := some msg })
  | .target msg => (none, { n with target := some msg })

/-- The node after a run of events. -/
def run (n : DrawNode R) (evs : List (DrawEvent R)) : DrawNode R :=
  evs.foldl (fun n ev => (n.step ev).2) n

/-- The latest tracks among the events. -/
def latestTracks (evs : List (DrawEvent R)) : Option (Detection2DArray R) :=
  evs.reverse.findSome? fun | .tracks msg => some msg | _ => none

/-- The latest status of the target among the events. -/
def latestTarget (evs : List (DrawEvent R)) : Option (SotStatus R) :=
  evs.reverse.findSome? fun | .target msg => some msg | _ => none

/-- The node keeps the latest messages. -/
theorem run_eq (evs : List (DrawEvent R)) :
    ({} : DrawNode R).run evs = ⟨latestTracks evs, latestTarget evs⟩ := by
  induction evs using List.reverseRecOn with
  | nil => rfl
  | append_singleton evs ev ih =>
    have hrun : ({} : DrawNode R).run (evs ++ [ev]) = ((({} : DrawNode R).run evs).step ev).2 := by
      rw [run, List.foldl_append]
      rfl
    rw [hrun, ih]
    cases ev <;> simp [latestTracks, latestTarget, step]

variable [IsStrictOrderedRing R]

/-- A detection message is drawn as the track it was made of. -/
theorem drawDetection_toDetection (header : Header) (t : Track R) :
    drawDetection (toDetection header t) =
      ⟨drawRect t.box.x t.box.y t.box.w t.box.h, .ofHue (idHue t.id),
        .track (toString t.id) t.score⟩ := by
  have hx : t.box.cx - 1 / 2 * t.box.w = t.box.x := by
    rw [BBox.cx]
    ring
  have hy : t.box.cy - 1 / 2 * t.box.h = t.box.y := by
    rw [BBox.cy]
    ring
  simp only [drawDetection, toDetection, hx, hy, atoi_toString]

/-- **An image shows the latest report.** Let a report of the tracker, of any run in which the id
counter does not wrap, be the latest tracks message the node got.  Then an image is published with
its header and pixels, and over it, in the order of the report, the box of every published track
with its id and score, in the colour of its id, and after them the latest target unless it is idle.
Tracks whose ids are less than 180 apart have different colours, as long as `47 * id` fits an
`int`.

**Proof sketch.** The node holds the latest messages (`run_eq`), and a detection message is drawn as
the track it was made of (`drawDetection_toDetection`).  Ids are positive in every report, and `47`
is prime to `180`. -/
theorem draws_report (ops : TbdOps R) (cfg : TbdConfig R) {frames : List (Frame R)}
    (hspawn : MultiTracker.spawnTotal ops cfg frames < 2 ^ 31 - 1) (report : List (Track R))
    (hreport : report ∈ (MultiTracker.new cfg).outputs ops frames) (header : Header)
    (includeLost : Bool) (evs : List (DrawEvent R))
    (hlatest : latestTracks evs = some (toDetections report header includeLost))
    (msg : ImageMsg R) (hmsg : msg.encoding = "bgr8") :
    (({} : DrawNode R).run evs).onImage msg = some ⟨msg.header, msg.image,
      (report.filter (published includeLost)).map (fun t =>
        ⟨drawRect t.box.x t.box.y t.box.w t.box.h, .ofHue (idHue t.id),
          .track (toString t.id) t.score⟩) ++
        match latestTarget evs with | none => [] | some s => drawTarget s⟩ ∧
    ∀ t ∈ report, ∀ u ∈ report, t.id < u.id → u.id < t.id + 180 → u.id < 45691142 →
      DrawColor.ofHue (idHue t.id) ≠ .ofHue (idHue u.id) := by
  refine ⟨?_, fun t ht u hu hlt hnear hfit heq => ?_⟩
  · rw [run_eq, onImage, if_neg (not_not_intro hmsg), hlatest]
    simp only [toDetections, List.map_map]
    congr 4
    funext t
    exact drawDetection_toDetection header t
  · have hid := (MultiTracker.wellFormed_outputs ops cfg hspawn report hreport).one_le_id t ht
    exact idHue_ne (by omega) hlt hnear hfit (DrawColor.ofHue.inj heq)

/-- A black frame with two persons. -/
def twoPersons : Frame ℚ :=
  ⟨⟨64, 48, fun _ _ => ⟨0, 0, 0⟩⟩, 0,
    [⟨⟨4, 4, 8, 16⟩, 9 / 10, 0, []⟩, ⟨⟨81 / 2, 10, 9, 20⟩, 8 / 10, 0, []⟩]⟩

/-- The report on it, where a track is confirmed at once. -/
def twoPersonsReport : List (Track ℚ) :=
  ((MultiTracker.new { assoc := { nInit := 1 } }).update MultiTracker.blackOps twoPersons).1

/-- A target, an older empty message and the report arrive, then an image: both persons are drawn,
in two colours, and the target after them. -/
theorem draws_report_two :
    let evs : List (DrawEvent ℚ) :=
      [.target ⟨⟨0, ""⟩, .tracking, ⟨20, 30, 5, 6⟩, 7 / 10⟩, .tracks ⟨⟨0, ""⟩, []⟩,
        .tracks (toDetections twoPersonsReport ⟨0, ""⟩ false)]
    let msg : ImageMsg ℚ := ⟨⟨0, ""⟩, "bgr8", twoPersons.image, []⟩
    ((({} : DrawNode ℚ).run evs).onImage msg).map (fun a => a.drawings.map Drawing.rect) =
      some [⟨4, 4, 8, 16⟩, ⟨40, 10, 9, 20⟩, ⟨20, 30, 5, 6⟩] ∧
    ∀ t ∈ twoPersonsReport, ∀ u ∈ twoPersonsReport, t.id < u.id → idHue t.id ≠ idHue u.id := by
  intro evs msg
  have hspawn : MultiTracker.spawnTotal MultiTracker.blackOps
      ({ assoc := { nInit := 1 } } : TbdConfig ℚ) [twoPersons] < 2 ^ 31 - 1 := by
    decide +kernel
  obtain ⟨himage, hcolors⟩ := draws_report MultiTracker.blackOps { assoc := { nInit := 1 } } hspawn
    twoPersonsReport List.mem_cons_self ⟨0, ""⟩ false evs rfl msg rfl
  have hids : ∀ t ∈ twoPersonsReport, t.id = 1 ∨ t.id = 2 := by decide +kernel
  constructor
  · rw [himage]
    decide +kernel
  · intro t ht u hu hlt heq
    refine hcolors t ht u hu hlt ?_ ?_ (congrArg DrawColor.ofHue heq)
    · rcases hids t ht with h | h <;> rcases hids u hu with h' | h' <;> omega
    · rcases hids u hu with h | h <;> omega

end DrawNode

end Ctrk
