import CustosTracker.Apps.Track
import CustosTracker.Ros.Pipeline
import CustosTracker.Ros.Protocol
import CustosTracker.Ros.TbdProtocol

set_option relaxedAutoImplicit false
set_option autoImplicit false

/-!
# Replaying a sequence through the nodes

A player with index stamps, in lockstep with a tracker node, computes what the command-line program
computes on the same file: the same tracker state, and the same dump.

## Main definitions

* `Ctrk.stampedMessage`, `Ctrk.indexMessage` — the messages of a player with index stamps.
* `Ctrk.tbdTracker`, `Ctrk.sotTracker` — the nodes, as a pipeline sees them.
* `Ctrk.TbdNode.launched`, `Ctrk.SotNode.launched` — the nodes after their activation.

## Main results

* `Ctrk.times_increase` — the times a node sees increase.
* `Ctrk.tbd_parity` — the multi-object node and `track_tbd`.
* `Ctrk.sot_parity` — the single-object node and `track_sot`.
-/

namespace Ctrk

open Trace

variable {R : Type} [Scalar R]

/-! ## Messages of a player -/

/-- The message of an image with its time. -/
def stampedMessage (detector : Image Bgr → List (Detection R)) (frame : Image Bgr × ℤ) :
    ImageMsg R where
  header := ⟨stampToNs (stampOfNs frame.2), ""⟩
  encoding := "bgr8"
  image := frame.1
  detections := detector frame.1

/-- The message of the frame number `idx`, counted from zero. -/
def indexMessage (detector : Image Bgr → List (Detection R)) (fps : R) (idx : ℕ)
    (image : Image Bgr) : ImageMsg R :=
  stampedMessage detector (image, indexNs fps idx)

omit [Scalar R] in
/-- A node sees the image and the time the program sees. -/
theorem toFrameView_stampedMessage (detector : Image Bgr → List (Detection R))
    {frame : Image Bgr × ℤ} (h : 0 ≤ frame.2 ∧ frame.2 < 2 ^ 31 * 10 ^ 9) :
    toFrameView (stampedMessage detector frame) =
      some ⟨frame.1, frame.2, detector frame.1⟩ := by
  simp [toFrameView, stampedMessage, stampToNs_stampOfNs h.1 h.2]

/-- The first messages of a player are those of the first stamped frames. -/
theorem take_messages (detector : Image Bgr → List (Detection R)) (fps : R)
    (images : List (Image Bgr)) (k : ℕ) :
    (Pipeline.messages (indexMessage detector fps) images).take k =
      (stamped fps (playable (images.take k)) 0).map (stampedMessage detector) := by
  rw [playable_take]
  apply List.ext_getElem?
  intro i
  simp only [Pipeline.messages, stamped, List.getElem?_take, List.getElem?_map,
    List.getElem?_mapIdx, Nat.zero_add]
  split_ifs with hi
  · rw [Option.map_map]
    rfl
  · rfl

/-- The stamps of a sequence fit a message. -/
theorem stamped_fits [IsStrictOrderedRing R] (htrunc : Truncates R) (probed : R)
    {images : List (Image Bgr)} (hlen : images.length ≤ 2 ^ 31) {k : ℕ} {frame : Image Bgr × ℤ}
    (h : frame ∈ stamped (fallbackFps probed) (playable (images.take k)) 0) :
    0 ≤ frame.2 ∧ frame.2 < 2 ^ 31 * 10 ^ 9 := by
  obtain ⟨i, hi, rfl⟩ := List.mem_mapIdx.mp h
  have hplay := length_playable_le (images.take k)
  have htake : (images.take k).length ≤ images.length := (List.take_sublist _ _).length_le
  exact indexNs_fits htrunc (one_lt_fallbackFps probed) (by omega)

/-! ## Times at the node -/

/-- **Time never runs backwards.** Under every order of timers, callbacks, deliveries, losses and
timeouts, in both pacing modes and around a loop, the images a node processes are a subsequence of
the published ones, in order, and carry strictly increasing times.

**Proof sketch.** The publications are numbered (`numbered_run`), index stamps increase with the
number, and the queue neither doubles nor reorders messages (`relays_run`). -/
theorem times_increase [IsStrictOrderedRing R] (htrunc : Truncates R) {N O : Type}
    (T : TrackerNode (ImageMsg R) N O) (detector : Image Bgr → List (Detection R)) (probed : R)
    (images : List (Image Bgr)) (player : PlayerParams) (node : N) (calls : List PipelineCall)
    (evs : List (PipelineEvent (ImageMsg R) O)) (s : Pipeline images (ImageMsg R) N O)
    (h : (Pipeline.new player node).run T (indexMessage detector (fallbackFps probed)) calls =
      some (evs, s)) (hcount : s.player.published ≤ 2 ^ 31) :
    (Pipeline.processed evs).Sublist (Pipeline.sent evs) ∧
      (Pipeline.processed evs).Pairwise fun m m' => m.header.stampNs < m'.header.stampNs := by
  obtain ⟨shown, hlen, hsent⟩ := Pipeline.numbered_run _ _ h
  have hsub := (Pipeline.relays_run _ _ h).relays.received_sublist
  refine ⟨hsub, List.Pairwise.sublist hsub ?_⟩
  have hfps := one_lt_fallbackFps probed
  have hmono := indexNs_strictMono htrunc (zero_lt_one.trans hfps)
    ((fallbackFps_lt probed).le.trans (by norm_num))
  have hstamp : ∀ idx, idx < 2 ^ 31 → ∀ image, (indexMessage detector (fallbackFps probed) idx
      image).header.stampNs = indexNs (fallbackFps probed) idx := by
    intro idx hidx image
    obtain ⟨hnonneg, hlt⟩ := indexNs_fits htrunc hfps hidx
    exact stampToNs_stampOfNs hnonneg hlt
  rw [hsent, List.pairwise_iff_getElem]
  intro i j hi hj hij
  rw [List.length_mapIdx] at hi hj
  rw [List.getElem_mapIdx, List.getElem_mapIdx, hstamp i (by omega), hstamp j (by omega)]
  exact hmono hij

/-- Two black images, on each of which something is detected. -/
def twoImages : List (Image Bgr) := List.replicate 2 ⟨8, 8, fun _ _ => ⟨0, 0, 0⟩⟩

/-- A detector that finds one box. -/
def findsOne : Image Bgr → List (Detection ℚ) := fun _ => [⟨⟨1, 1, 4, 4⟩, 1, 0, []⟩]

/-- The two images in front of a node that counts them. -/
def countScene : Pipeline twoImages (ImageMsg ℚ) ℕ Unit := Pipeline.new Playback.lockstepParams 0

/-- A node that counts images. -/
def countTracker : TrackerNode (ImageMsg ℚ) ℕ Unit := ⟨fun n _ => some (some (), n + 1), 1⟩

theorem times_increase_overtaken : ∃ evs s,
    countScene.run countTracker (indexMessage findsOne (fallbackFps 30))
      [.waitTick true, .image, .timeout, .image] = some (evs, s) ∧
    (Pipeline.processed evs).Pairwise fun m m' => m.header.stampNs < m'.header.stampNs := by
  have hrun : (countScene.run countTracker (indexMessage findsOne (fallbackFps 30))
      [.waitTick true, .image, .timeout, .image]).any
      (fun p => decide (p.2.player.published ≤ 2 ^ 31)) = true := by
    decide +kernel
  obtain ⟨⟨evs, s⟩, h, hcount⟩ := (Option.any_eq_true _ _).mp hrun
  exact ⟨evs, s, h, (times_increase truncates_rat countTracker findsOne 30 twoImages _ 0 _ evs s h
    (of_decide_eq_true hcount)).2⟩

/-! ## The multi-object node -/

/-- The multi-object node in a pipeline. -/
def tbdTracker (ops : TbdOps R) (depth : ℕ) :
    TrackerNode (ImageMsg R) (TbdNode R) (Detection2DArray R) where
  process n msg := (n.onImage ops msg).map fun p => (p.1.published, p.2)
  depth := depth

/-- The node after its configuration and activation. -/
def TbdNode.launched (params : TbdNodeParams R) : TbdNode R where
  lifecycle := .active
  params := params
  tracker := some (MultiTracker.new params.cfg)
  tracksPub := some true
  imageSub := true
  dumpOpen := params.dumps
  collector := params.bench

theorem TbdNode.life_launched (ops : TbdOps R) (params : TbdNodeParams R) :
    ({} : TbdNode R).life ops [.configure (.built params), .activate true] =
      some ([(.configure (.built params), {}), (.activate true, {})], launched params) := by
  obtain ⟨cfg, lost, dumps, bench⟩ := params
  cases dumps <;> cases bench <;> rfl

/-- The node and the program hold the same tracker, count the same frames and have the same
dump. -/
structure TbdAlike (n : TbdNode R) (s : TrackTbd R) : Prop where
  tracker : n.tracker = some s.tracker
  publisher : n.tracksPub = some true
  frameNo : n.frameNo = s.frameNo
  dump : s.dump = if n.dumpOpen then some n.dumpFile else none

/-- The node does with a message what the program does with the frame. -/
theorem TbdAlike.onFrame {ops : TbdOps R} {depth : ℕ} {n n' : TbdNode R} {s : TrackTbd R}
    (h : TbdAlike n s) {msg : ImageMsg R} {frame : Frame R} (hview : toFrameView msg = some frame)
    {answer : Option (Detection2DArray R)}
    (hprocess : (tbdTracker ops depth).process n msg = some (answer, n')) :
    TbdAlike n' (s.onFrame ops frame) ∧ n'.dumpOpen = n.dumpOpen := by
  obtain ⟨htracker, hpub, hframe, hdump⟩ := h
  simp only [tbdTracker, TbdNode.onImage, hview, htracker, hpub, Option.bind_some, Option.map_some,
    if_true] at hprocess
  obtain ⟨-, rfl⟩ := Prod.mk.inj (Option.some.inj hprocess)
  refine ⟨⟨rfl, rfl, ?_, ?_⟩, rfl⟩
  · simp [TrackTbd.onFrame, hframe]
  · simp only [TrackTbd.onFrame, hdump, hframe]
    cases n.dumpOpen <;> rfl

/-- A run of the node on the messages of a sequence is the loop of the program.

**Proof sketch.** Node and program take one step for each frame, on equal trackers: the message
shows the node the image and the time that the program reads.  The relation between the two is
kept by that step, and so by the run. -/
theorem tbd_run [IsStrictOrderedRing R] (htrunc : Truncates R) (ops : TbdOps R) (depth : ℕ)
    (detector : Image Bgr → List (Detection R)) {cfg : TbdConfig R} {probed : R}
    {images : List (Image Bgr)} (hlen : images.length ≤ 2 ^ 31) {params : TbdNodeParams R}
    (hcfg : params.cfg = { cfg with nominalFps := fallbackFps probed }) {k : ℕ}
    {answers : List (Option (Detection2DArray R))} {n : TbdNode R}
    (h : Trace.run (tbdTracker ops depth).process (TbdNode.launched params)
      ((Pipeline.messages (indexMessage detector (fallbackFps probed)) images).take k) =
        some (answers, n)) :
    ∃ s, trackTbd ops detector cfg params.dumps probed (images.take k) = some s ∧ TbdAlike n s ∧
      n.dumpOpen = params.dumps := by
  rw [take_messages] at h
  obtain ⟨s, hfold, halike, hopen⟩ := Trace.run_foldlM
    (fun s frame => some (s.onFrame ops ⟨frame.1, frame.2, detector frame.1⟩))
    (stampedMessage detector) (fun _ n s => TbdAlike n s ∧ n.dumpOpen = params.dumps)
    (t := { tracker := MultiTracker.new { cfg with nominalFps := fallbackFps probed }
            dump := if params.dumps then some [] else none })
    (fun frame hmem evs n s answer n' hrel hstep => by
      have hview := toFrameView_stampedMessage detector (stamped_fits htrunc probed hlen hmem)
      obtain ⟨halike, hopen⟩ := hrel.1.onFrame hview hstep
      exact ⟨_, rfl, halike, hopen.trans hrel.2⟩)
    ⟨⟨by rw [← hcfg]; rfl, rfl, rfl, rfl⟩, rfl⟩ h
  refine ⟨s, ?_, halike, hopen⟩
  rw [trackTbd, VideoSource.consume_eq_foldlM]
  exact hfold

/-- **Parity with `track_tbd`.** Play a file with index stamps, once and in lockstep, to the
multi-object node, under any order of timers, callbacks and deliveries without a timeout, losing
any images: the node holds the tracker, and has written the dump, of the program on the images
processed so far.  When the player is done and no image was lost, these are all images.

**Proof sketch.** At most one image or output is on its way (`sequenceInv_run`), so no queue
overflows and the node processes the messages of the sequence in turn.  Index stamps survive the
wire, so the node makes the tracker calls of the program. -/
theorem tbd_parity [IsStrictOrderedRing R] (htrunc : Truncates R) (ops : TbdOps R)
    (detector : Image Bgr → List (Detection R)) (cfg : TbdConfig R) (probed : R)
    (images : List (Image Bgr)) (hlen : images.length ≤ 2 ^ 31) (params : TbdNodeParams R)
    (hcfg : params.cfg = { cfg with nominalFps := fallbackFps probed }) (player : PlayerParams)
    (hmode : player.mode = .lockstep) (hloop : player.loop = false) (depth : ℕ)
    (hdepth : 1 ≤ depth) (calls : List PipelineCall) (hcalls : PipelineCall.timeout ∉ calls)
    (evs : List (PipelineEvent (ImageMsg R) (Detection2DArray R)))
    (s : Pipeline images (ImageMsg R) (TbdNode R) (Detection2DArray R))
    (h : (Pipeline.new player (TbdNode.launched params)).run (tbdTracker ops depth)
      (indexMessage detector (fallbackFps probed)) calls = some (evs, s)) :
    (∃ t, trackTbd ops detector cfg params.dumps probed
        (images.take (Pipeline.processed evs).length) = some t ∧ TbdAlike s.node t) ∧
      (player.frameLimit ≤ 0 → s.player.done = true → s.queue = [] →
        (∀ e ∈ evs, e.lost = false) →
          ∃ t, trackTbd ops detector cfg params.dumps probed images = some t ∧
            TbdAlike s.node t) := by
  have hran := (Pipeline.relays_run _ _ h).ran
  obtain ⟨hprocessed, hall⟩ := Pipeline.processed_run _ _ hdepth hmode hloop _ hcalls h
  constructor
  · rw [hprocessed] at hran
    obtain ⟨t, ht, halike, -⟩ := tbd_run htrunc ops depth detector hlen hcfg hran
    exact ⟨t, ht, halike⟩
  · intro hlimit hdone hqueue hnone
    have hframes : player.frames (playable images).length = (playable images).length :=
      if_neg (by omega)
    rw [hall hdone hqueue hnone, hframes] at hran
    obtain ⟨t, ht, halike, -⟩ := tbd_run htrunc ops depth detector hlen hcfg hran
    refine ⟨t, ?_, halike⟩
    rw [← ht, trackTbd, trackTbd]
    exact (VideoSource.consume_take _ _ _ _ _).symm

/-- The calls of a playback of two images. -/
def playTwo : List PipelineCall :=
  [.waitTick false, .waitTick true, .image, .output, .image, .output]

/-- The two images in front of a node. -/
def tbdScene : Pipeline twoImages (ImageMsg ℚ) (TbdNode ℚ) (Detection2DArray ℚ) :=
  Pipeline.new Playback.lockstepParams (TbdNode.launched TbdNode.confirmAtOnce)

theorem tbd_parity_two : ∃ evs s t,
    tbdScene.run (tbdTracker MultiTracker.blackOps 1) (indexMessage findsOne (fallbackFps 30))
      playTwo = some (evs, s) ∧
    trackTbd MultiTracker.blackOps findsOne { assoc := { nInit := 1 } } true 30 twoImages = some t ∧
    TbdAlike s.node t := by
  have hrun : (tbdScene.run (tbdTracker MultiTracker.blackOps 1)
      (indexMessage findsOne (fallbackFps 30)) playTwo).any (fun p => p.2.player.done &&
        p.2.queue.isEmpty && p.1.all fun e => !e.lost) = true := by
    decide +kernel
  obtain ⟨⟨evs, s⟩, h, hend⟩ := (Option.any_eq_true _ _).mp hrun
  simp only [Bool.and_eq_true, List.isEmpty_iff, List.all_eq_true, Bool.not_eq_true'] at hend
  obtain ⟨⟨hdone, hqueue⟩, hnone⟩ := hend
  have hcfg : TbdNode.confirmAtOnce.cfg =
      { ({ assoc := { nInit := 1 } } : TbdConfig ℚ) with nominalFps := fallbackFps 30 } := by
    simp [TbdNode.confirmAtOnce, fallbackFps]
  obtain ⟨-, hall⟩ := tbd_parity truncates_rat MultiTracker.blackOps findsOne
    { assoc := { nInit := 1 } } 30 twoImages (by decide) TbdNode.confirmAtOnce hcfg
    Playback.lockstepParams rfl rfl 1 le_rfl playTwo (by decide) evs s h
  obtain ⟨t, ht, halike⟩ := hall le_rfl hdone hqueue hnone
  exact ⟨evs, s, t, h, ht, halike⟩

/-! ## The single-object node -/

section Sot

variable {K : Backend R}

/-- The single-object node in a pipeline; a report that publishes stands for its output. -/
def sotTracker (ops : HistOps R) (depth : ℕ) :
    TrackerNode (ImageMsg R) (SotNode K) (SotNodeReport R) where
  process n msg := (n.onImage ops msg).map fun p =>
    (if p.1.published.isSome then some p.1 else none, p.2)
  depth := depth

/-- The node after its configuration and activation with an `init_bbox`. -/
def SotNode.launched (box : BBox R) (dumps : Bool) (tracker : SotTracker K) : SotNode K where
  lifecycle := .active
  params := { initBbox := [box.x, box.y, box.w, box.h], dumps := dumps }
  tracker := some tracker
  pendingInit := some box
  dumpOpen := dumps

theorem SotNode.life_launched (ops : HistOps R) (box : BBox R) (dumps : Bool)
    (tracker : SotTracker K) :
    (({} : SotNode K).life ops [.configure { initBbox := [box.x, box.y, box.w, box.h]
                                             dumps := dumps } tracker, .activate true]).map
      Prod.snd = some (launched box dumps tracker) := by
  cases dumps <;> rfl

/-- An answer of the node that publishes, and dumps, a result of the program. -/
def AnswersWith (dumps : Bool) (answer : Option (SotNodeReport R)) (r : SotResult R) : Prop :=
  ∃ rep header, answer = some rep ∧ rep.published = some (toSotStatus r header) ∧
    rep.dumped = if dumps then some r.box else none

/-- The node and the program hold the same tracker, are initialized alike, and gave the same
results. -/
structure SotAlike (box : BBox R) (dumps : Bool) (answers : List (Option (SotNodeReport R)))
    (n : SotNode K) (s : TrackSot K) : Prop where
  tracker : n.tracker = some s.tracker
  target : n.targetSet = s.initialized
  armed : s.initialized = false → n.pendingInit = some box
  dumping : n.dumpOpen = dumps
  answers : List.Forall₂ (AnswersWith dumps) answers s.drawn
  dump : s.dump = if dumps then some (s.drawn.map SotResult.box) else none

/-- The node does with a message what the program does with the frame.

**Proof sketch.** On the first frame both initialize on the box and report and dump it; on the
later ones both update the same tracker, and report and dump its result, or neither goes through. -/
theorem SotAlike.onFrame {ops : HistOps R} {depth : ℕ} {box : BBox R} {dumps : Bool}
    {answers : List (Option (SotNodeReport R))} {n n' : SotNode K} {s : TrackSot K}
    (h : SotAlike box dumps answers n s) {msg : ImageMsg R} {frame : Frame R}
    (hview : toFrameView msg = some frame) {answer : Option (SotNodeReport R)}
    (hprocess : (sotTracker ops depth).process n msg = some (answer, n')) :
    ∃ s', s.onFrame ops box frame = some s' ∧ SotAlike box dumps (answers ++ [answer]) n' s' := by
  obtain ⟨htracker, htarget, harmed, hdumping, hanswers, hdump⟩ := h
  cases hinit : s.initialized with
  | false =>
    simp only [sotTracker, SotNode.onImage, hview, htarget, hinit, harmed hinit, htracker,
      Bool.not_false, if_true, Option.map_some, Option.isSome_some] at hprocess
    obtain ⟨rfl, rfl⟩ := Prod.mk.inj (Option.some.inj hprocess)
    have hbody : s.onFrame ops box frame = some
        { tracker := s.tracker.init ops frame box
          initialized := true
          dump := s.dump.map fun boxes => boxes ++ [box]
          drawn := s.drawn ++ [⟨box, 1, .tracking⟩] } := by
      simp [TrackSot.onFrame, TrackSot.track, hinit]
    refine ⟨_, hbody, rfl, rfl, (fun h => by cases h), hdumping, ?_, ?_⟩
    · refine List.rel_append hanswers (.cons ⟨_, msg.header, rfl, rfl, ?_⟩ .nil)
      rw [SotNode.dumpBox, hdumping]
    · rw [hdump]
      cases dumps <;> simp
  | true =>
    simp only [sotTracker, SotNode.onImage, hview, htarget, hinit, htracker, Bool.not_true,
      Bool.false_eq_true, if_false, Option.bind_some] at hprocess
    cases hupdate : s.tracker.update ops frame with
    | none =>
      rw [hupdate] at hprocess
      cases hprocess
    | some p =>
      rw [hupdate] at hprocess
      simp only [Option.map_some, Option.isSome_some, if_true] at hprocess
      obtain ⟨rfl, rfl⟩ := Prod.mk.inj (Option.some.inj hprocess)
      have hbody : s.onFrame ops box frame = some
          { tracker := p.2
            initialized := true
            dump := s.dump.map fun boxes => boxes ++ [p.1.result.box]
            drawn := s.drawn ++ [p.1.result] } := by
        simp [TrackSot.onFrame, TrackSot.track, hinit, hupdate]
      refine ⟨_, hbody, rfl, rfl, (fun h => by cases h), hdumping, ?_, ?_⟩
      · refine List.rel_append hanswers (.cons ⟨_, msg.header, rfl, rfl, ?_⟩ .nil)
        rw [SotNode.dumpBox, hdumping]
      · rw [hdump]
        cases dumps <;> simp

/-- A run of the node on the messages of a sequence is the loop of the program.

**Proof sketch.** As in `tbd_run`: the node and the program step in pairs, related by `SotAlike`,
over the stamped frames. -/
theorem sot_run [IsStrictOrderedRing R] (htrunc : Truncates R) (ops : HistOps R) (depth : ℕ)
    (detector : Image Bgr → List (Detection R)) (tracker : SotTracker K) (box : BBox R)
    (dumps : Bool) (probed : R) {images : List (Image Bgr)} (hlen : images.length ≤ 2 ^ 31) {k : ℕ}
    {answers : List (Option (SotNodeReport R))} {n : SotNode K}
    (h : Trace.run (sotTracker ops depth).process (SotNode.launched box dumps tracker)
      ((Pipeline.messages (indexMessage detector (fallbackFps probed)) images).take k) =
        some (answers, n)) :
    ∃ s, trackSot ops detector tracker box dumps probed (images.take k) = some s ∧
      SotAlike box dumps answers n s := by
  rw [take_messages] at h
  obtain ⟨s, hfold, halike⟩ := Trace.run_foldlM
    (fun s frame => s.onFrame ops box ⟨frame.1, frame.2, detector frame.1⟩)
    (stampedMessage detector) (SotAlike box dumps)
    (t := { tracker := tracker, dump := if dumps then some [] else none })
    (fun frame hmem answers n s answer n' hrel hstep => by
      have hview := toFrameView_stampedMessage detector (stamped_fits htrunc probed hlen hmem)
      exact hrel.onFrame hview hstep)
    ⟨rfl, rfl, fun _ => rfl, rfl, .nil, rfl⟩ h
  refine ⟨s, ?_, halike⟩
  rw [trackSot, VideoSource.consume_eq_foldlM]
  exact hfold

/-- **Parity with `track_sot`.** Play a file with index stamps, once and in lockstep, to the
single-object node activated with an `init_bbox`, under any order of timers, callbacks and
deliveries without a timeout, losing any images: the node holds the tracker of the program on the
images processed so far, and has published and dumped its results.  When the player is done and no
image was lost, these are all images.

**Proof sketch.** In lockstep without timeouts the node has processed the first messages of the
sequence, in order, and on these it runs like the program (`sot_run`).  When the player is done
and nothing was lost they are all messages. -/
theorem sot_parity [IsStrictOrderedRing R] (htrunc : Truncates R) (ops : HistOps R)
    (detector : Image Bgr → List (Detection R)) (tracker : SotTracker K) (box : BBox R)
    (dumps : Bool) (probed : R) (images : List (Image Bgr)) (hlen : images.length ≤ 2 ^ 31)
    (player : PlayerParams) (hmode : player.mode = .lockstep) (hloop : player.loop = false)
    (depth : ℕ) (hdepth : 1 ≤ depth) (calls : List PipelineCall)
    (hcalls : PipelineCall.timeout ∉ calls)
    (evs : List (PipelineEvent (ImageMsg R) (SotNodeReport R)))
    (s : Pipeline images (ImageMsg R) (SotNode K) (SotNodeReport R))
    (h : (Pipeline.new player (SotNode.launched box dumps tracker)).run (sotTracker ops depth)
      (indexMessage detector (fallbackFps probed)) calls = some (evs, s)) :
    (∃ t, trackSot ops detector tracker box dumps probed
        (images.take (Pipeline.processed evs).length) = some t ∧
        SotAlike box dumps (Pipeline.answers evs) s.node t) ∧
      (player.frameLimit ≤ 0 → s.player.done = true → s.queue = [] →
        (∀ e ∈ evs, e.lost = false) →
          ∃ t, trackSot ops detector tracker box dumps probed images = some t ∧
            SotAlike box dumps (Pipeline.answers evs) s.node t) := by
  have hran := (Pipeline.relays_run _ _ h).ran
  obtain ⟨hprocessed, hall⟩ := Pipeline.processed_run _ _ hdepth hmode hloop _ hcalls h
  constructor
  · rw [hprocessed] at hran
    exact sot_run htrunc ops depth detector tracker box dumps probed hlen hran
  · intro hlimit hdone hqueue hnone
    have hframes : player.frames (playable images).length = (playable images).length :=
      if_neg (by omega)
    rw [hall hdone hqueue hnone, hframes] at hran
    obtain ⟨t, ht, halike⟩ :=
      sot_run htrunc ops depth detector tracker box dumps probed hlen hran
    refine ⟨t, ?_, halike⟩
    rw [← ht, trackSot, trackSot]
    exact (VideoSource.consume_take _ _ _ _ _).symm

end Sot

/-- A backend that follows a box for one frame. -/
def shortTracker : SotTracker (playback : Backend ℚ) :=
  SotTracker.new {} [⟨⟨2, 1, 4, 4⟩, 9 / 10, .tracking⟩]

/-- The two images in front of a node with a target. -/
def sotScene : Pipeline twoImages (ImageMsg ℚ) (SotNode (playback : Backend ℚ)) (SotNodeReport ℚ) :=
  Pipeline.new Playback.lockstepParams (SotNode.launched ⟨1, 1, 4, 4⟩ true shortTracker)

theorem sot_parity_two : ∃ evs s t,
    sotScene.run (sotTracker pixelOps 1) (indexMessage findsOne (fallbackFps 30)) playTwo =
      some (evs, s) ∧
    trackSot pixelOps findsOne shortTracker ⟨1, 1, 4, 4⟩ true 30 twoImages = some t ∧
    SotAlike ⟨1, 1, 4, 4⟩ true (Pipeline.answers evs) s.node t := by
  have hrun : (sotScene.run (sotTracker pixelOps 1) (indexMessage findsOne (fallbackFps 30))
      playTwo).any (fun p => p.2.player.done && p.2.queue.isEmpty && p.1.all fun e => !e.lost) =
        true := by
    decide +kernel
  obtain ⟨⟨evs, s⟩, h, hend⟩ := (Option.any_eq_true _ _).mp hrun
  simp only [Bool.and_eq_true, List.isEmpty_iff, List.all_eq_true, Bool.not_eq_true'] at hend
  obtain ⟨⟨hdone, hqueue⟩, hnone⟩ := hend
  obtain ⟨-, hall⟩ := sot_parity truncates_rat pixelOps findsOne shortTracker
    ⟨1, 1, 4, 4⟩ true 30 twoImages (by decide) Playback.lockstepParams rfl rfl 1 le_rfl playTwo
    (by decide) evs s h
  obtain ⟨t, ht, halike⟩ := hall le_rfl hdone hqueue hnone
  exact ⟨evs, s, t, h, ht, halike⟩

end Ctrk
