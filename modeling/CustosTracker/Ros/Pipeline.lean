import CustosTracker.Apps.VideoSource
import CustosTracker.Library.Relay
import CustosTracker.Ros.Lockstep

set_option relaxedAutoImplicit false
set_option autoImplicit false

/-!
# A player and a tracker

The frames player on an image sequence, a tracker node, and the two topics between them: images to
the tracker through a queue that keeps its last messages, outputs back to the player.  The node
works at its own pace, the transport may lose images, and the timers fire at any time.

## Main definitions

* `Ctrk.imageSequence` — a capture that gives images.
* `Ctrk.TrackerNode` — what a node does with an image.
* `Ctrk.Pipeline`, `Ctrk.Pipeline.step`, `Ctrk.Pipeline.run` — the composed system.
* `Ctrk.Pipeline.SequenceInv` — the invariant of a lockstep pipeline without timeouts.

## Main results

* `Ctrk.Pipeline.relays_run` — the node processes a subsequence of the published images, in order.
* `Ctrk.Pipeline.numbered_run` — the published messages are numbered in order.
* `Ctrk.Pipeline.sequenceInv_run` — in lockstep mode no image is dropped: the node processes the
  images of the sequence in turn, from the first.

## Implementation notes

A publication takes no time, and the node's callback is one step.  An output of the node reaches
the player's subscription with a keep-last queue of its own.
-/

namespace Ctrk

open Trace

/-! ## The player on an image sequence -/

/-- `cap_.read(frame) && !frame.empty()` on the images left. -/
def readSequence : List (Image Bgr) → Bool × List (Image Bgr)
  | [] => (false, [])
  | image :: rest => (!image.isEmpty, rest)

/-- `cv::VideoCapture` on an image sequence: the images left. -/
abbrev imageSequence (images : List (Image Bgr)) : Capture where
  State := List (Image Bgr)
  read := readSequence
  reopen _ := (true, images)

/-- The image the next read of a sequence gives. -/
def firstImage : List (Image Bgr) → Option (Image Bgr)
  | [] => none
  | image :: _ => if image.isEmpty then none else some image

/-- Up to their number, the playable images are the ones the reads give.

**Proof sketch.** By induction on the images: an empty first image ends the playable ones, and
the reads as well. -/
theorem getElem?_playable {images : List (Image Bgr)} {p : ℕ} (hp : p ≤ (playable images).length) :
    (playable images)[p]? = firstImage (images.drop p) := by
  induction images generalizing p with
  | nil =>
    obtain rfl : p = 0 := by simpa [playable] using hp
    rfl
  | cons image rest ih =>
    cases hempty : image.isEmpty with
    | true =>
      have hplay : playable (image :: rest) = [] := by simp [playable, hempty]
      rw [hplay] at hp ⊢
      obtain rfl : p = 0 := Nat.le_zero.mp hp
      simp [firstImage, hempty]
    | false =>
      have hplay : playable (image :: rest) = image :: playable rest := by simp [playable, hempty]
      rw [hplay] at hp ⊢
      cases p with
      | zero => simp [firstImage, hempty]
      | succ p =>
        rw [List.getElem?_cons_succ, List.drop_succ_cons]
        exact ih (Nat.le_of_succ_le_succ hp)

namespace FramesPlayer

variable {images : List (Image Bgr)}

/-- The image `readFrame` reads: the next one, or the first one of a sequence that loops. -/
def nextImage (n : FramesPlayer (imageSequence images)) : Option (Image Bgr) :=
  match firstImage n.cap with
  | some image => some image
  | none => if n.params.loop ∧ 0 < n.published then firstImage images else none

theorem readSequence_fst (cap : List (Image Bgr)) :
    (readSequence cap).1 = (firstImage cap).isSome := by
  cases cap with
  | nil => rfl
  | cons image rest =>
    cases hempty : image.isEmpty <;> simp [readSequence, firstImage, hempty]

/-- The player finds a frame exactly when there is an image. -/
theorem readFrame_fst (n : FramesPlayer (imageSequence images)) :
    n.readFrame.1 = n.nextImage.isSome := by
  cases hfirst : firstImage n.cap with
  | some image => simp [readFrame, nextImage, readSequence_fst, hfirst]
  | none =>
    by_cases hloop : n.params.loop = true ∧ 0 < n.published
    · simp [readFrame, nextImage, readSequence_fst, hfirst, hloop]
    · simp [readFrame, nextImage, readSequence_fst, hfirst, hloop]

/-- A publication comes with an image. -/
theorem nextImage_of_published {n n' : FramesPlayer (imageSequence images)} {k : ℕ}
    (h : n.publishNext = (some k, n')) : ∃ image, n.nextImage = some image := by
  cases hnext : n.hasNext with
  | true =>
    have hread : n.readFrame.1 = true := by simp_all [hasNext]
    exact Option.isSome_iff_exists.mp ((readFrame_fst n).symm.trans hread)
  | false =>
    obtain ⟨cap, rate, -, heq⟩ := publishNext_of_not_hasNext hnext
    rw [heq] at h
    exact absurd (Prod.mk.inj h).1 (by simp)

end FramesPlayer

/-! ## The composed system -/

/-- A tracker node: its image callback, which may publish an output, and the depth of its image
subscription. -/
structure TrackerNode (M N O : Type) where
  process : N → M → Option (Option O × N)
  depth : ℕ

/-- The depth of the player's subscription to the outputs. -/
def outputDepth : ℕ := 10

/-- A player, the images queued for the node, the node, and its outputs on the way to the player. -/
structure Pipeline (images : List (Image Bgr)) (M N O : Type) where
  player : FramesPlayer (imageSequence images)
  queue : List M := []
  node : N
  outputs : List O := []

/-- What the executors dispatch: a timer of the player, the node's image callback, the delivery of
an output, or the loss of a queued image. -/
inductive PipelineCall
  | waitTick (ready : Bool)
  | rateTick
  | timeout
  | image
  | output
  | lose (i : ℕ)
  deriving DecidableEq

/-- What happened: the message published, the message processed with the output, and whether an
image was lost. -/
structure PipelineEvent (M O : Type) where
  published : Option M := none
  processed : Option M := none
  output : Option O := none
  lost : Bool := false

namespace Pipeline

variable {images : List (Image Bgr)} {M N O : Type} (T : TrackerNode M N O)
  (message : ℕ → Image Bgr → M)

/-- The message of a publication. -/
def sentMessage (s : Pipeline images M N O) (frame : Option ℕ) : Option M :=
  frame.bind fun k => s.player.nextImage.map (message (k - 1))

/-- The player published, or did not. -/
def send (s : Pipeline images M N O) (r : Option ℕ × FramesPlayer (imageSequence images)) :
    PipelineEvent M O × Pipeline images M N O :=
  let sent := s.sentMessage message r.1
  ({ published := sent }, { s with
    player := r.2
    queue := sent.elim s.queue (Relay.push T.depth s.queue) })

/-- Dispatch one call; none when its timer is not set, its queue is empty, or the node faults. -/
def step (s : Pipeline images M N O) :
    PipelineCall → Option (PipelineEvent M O × Pipeline images M N O)
  | .waitTick ready =>
    if s.player.waitTimer then some (s.send T message (s.player.onWaitTick ready)) else none
  | .rateTick =>
    if s.player.rateTimer then some (s.send T message s.player.publishNext) else none
  | .timeout =>
    if s.player.timeoutTimer.isSome then some (s.send T message s.player.onAck) else none
  | .image =>
    match s.queue with
    | [] => none
    | m :: rest => (T.process s.node m).map fun p =>
      ({ processed := some m, output := p.1 },
        { s with
          queue := rest
          node := p.2
          outputs := p.1.elim s.outputs (Relay.push outputDepth s.outputs) })
  | .output =>
    match s.outputs with
    | [] => none
    | _ :: rest =>
      let s := { s with outputs := rest }
      -- only the lockstep mode subscribes to the outputs
      if s.player.params.mode = .lockstep then some (s.send T message s.player.onAck)
      else some ({}, s)
  | .lose i =>
    if i < s.queue.length then some ({ lost := true }, { s with queue := s.queue.eraseIdx i })
    else none

/-- Dispatch a sequence of calls. -/
def run (s : Pipeline images M N O) (calls : List PipelineCall) :
    Option (List (PipelineEvent M O) × Pipeline images M N O) :=
  Trace.run (step T message) s calls

/-- A player on the first image, and a node. -/
def new (params : PlayerParams) (node : N) : Pipeline images M N O :=
  { player := { params := params, cap := images }, node := node }

/-! ## Histories -/

/-- The messages published. -/
def sent (evs : List (PipelineEvent M O)) : List M := evs.filterMap PipelineEvent.published

/-- The messages the node processed. -/
def processed (evs : List (PipelineEvent M O)) : List M := evs.filterMap PipelineEvent.processed

/-- What the node answered to the messages it processed. -/
def answers (evs : List (PipelineEvent M O)) : List (Option O) :=
  (evs.filter fun e => e.processed.isSome).map PipelineEvent.output

@[simp] theorem sent_append_singleton (evs : List (PipelineEvent M O)) (e : PipelineEvent M O) :
    sent (evs ++ [e]) = sent evs ++ e.published.toList := by
  rw [sent, List.filterMap_append]
  cases hpub : e.published <;> simp [sent, hpub]

@[simp] theorem processed_append_singleton (evs : List (PipelineEvent M O))
    (e : PipelineEvent M O) : processed (evs ++ [e]) = processed evs ++ e.processed.toList := by
  rw [processed, List.filterMap_append]
  cases hproc : e.processed <;> simp [processed, hproc]

theorem answers_append_singleton (evs : List (PipelineEvent M O)) (e : PipelineEvent M O) :
    answers (evs ++ [e]) =
      answers evs ++ if e.processed.isSome then [e.output] else [] := by
  rw [answers, List.filter_append, List.map_append]
  cases hproc : e.processed <;> simp [answers, hproc]

/-! ## One call -/

/-- What one call of a pipeline does: the player publishes or not, or the node processes a message,
or an output or an image is gone. -/
inductive PipelineStep (s : Pipeline images M N O) :
    PipelineCall → PipelineEvent M O → Pipeline images M N O → Prop
  /-- The player was asked for the next frame by a timer. -/
  | asked (c : PipelineCall) (r : Option ℕ × FramesPlayer (imageSequence images))
      (hasked : c = .waitTick true ∧ s.player.waitTimer = true ∧ r = s.player.onWaitTick true ∨
        c = .rateTick ∧ s.player.rateTimer = true ∧ r = s.player.publishNext ∨
        c = .timeout ∧ s.player.timeoutTimer.isSome = true ∧ r = s.player.onAck) :
      PipelineStep s c (s.send T message r).1 (s.send T message r).2
  /-- The tracker is not there yet. -/
  | waited (hwait : s.player.waitTimer = true) : PipelineStep s (.waitTick false) {} s
  /-- The node processed a message. -/
  | processed (m : M) (rest : List M) (answer : Option O) (node : N) (hqueue : s.queue = m :: rest)
      (hprocess : T.process s.node m = some (answer, node)) :
      PipelineStep s .image { processed := some m, output := answer } { s with
        queue := rest
        node := node
        outputs := answer.elim s.outputs (Relay.push outputDepth s.outputs) }
  /-- An output asked the player for the next frame. -/
  | acked (o : O) (rest : List O) (houtputs : s.outputs = o :: rest)
      (hmode : s.player.params.mode = .lockstep) :
      PipelineStep s .output ({ s with outputs := rest }.send T message s.player.onAck).1
        ({ s with outputs := rest }.send T message s.player.onAck).2
  /-- An output nobody waits for. -/
  | ignored (o : O) (rest : List O) (houtputs : s.outputs = o :: rest)
      (hmode : s.player.params.mode ≠ .lockstep) :
      PipelineStep s .output {} { s with outputs := rest }
  /-- The transport lost an image. -/
  | lost (i : ℕ) (hi : i < s.queue.length) :
      PipelineStep s (.lose i) { lost := true } { s with queue := s.queue.eraseIdx i }

/-- Every call is one of these steps. -/
theorem step_cases {s s' : Pipeline images M N O} {c : PipelineCall} {e : PipelineEvent M O}
    (h : s.step T message c = some (e, s')) : PipelineStep T message s c e s' := by
  cases c with
  | waitTick ready =>
    simp only [step] at h
    split_ifs at h with hwait
    cases ready with
    | true =>
      obtain ⟨rfl, rfl⟩ := Prod.mk.inj (Option.some.inj h)
      exact .asked _ _ (Or.inl ⟨rfl, hwait, rfl⟩)
    | false =>
      obtain ⟨rfl, rfl⟩ := Prod.mk.inj (Option.some.inj h)
      exact .waited hwait
  | rateTick =>
    simp only [step] at h
    split_ifs at h with hrate
    obtain ⟨rfl, rfl⟩ := Prod.mk.inj (Option.some.inj h)
    exact .asked _ _ (Or.inr (Or.inl ⟨rfl, hrate, rfl⟩))
  | timeout =>
    simp only [step] at h
    split_ifs at h with htimer
    obtain ⟨rfl, rfl⟩ := Prod.mk.inj (Option.some.inj h)
    exact .asked _ _ (Or.inr (Or.inr ⟨rfl, htimer, rfl⟩))
  | image =>
    cases hqueue : s.queue with
    | nil =>
      simp only [step, hqueue] at h
      cases h
    | cons m rest =>
      simp only [step, hqueue] at h
      obtain ⟨⟨answer, node⟩, hprocess, heq⟩ := Option.map_eq_some_iff.mp h
      obtain ⟨rfl, rfl⟩ := Prod.mk.inj heq
      exact .processed m rest answer node hqueue hprocess
  | output =>
    cases houtputs : s.outputs with
    | nil =>
      simp only [step, houtputs] at h
      cases h
    | cons o rest =>
      simp only [step, houtputs] at h
      split_ifs at h with hmode
      · obtain ⟨rfl, rfl⟩ := Prod.mk.inj (Option.some.inj h)
        exact .acked o rest houtputs hmode
      · obtain ⟨rfl, rfl⟩ := Prod.mk.inj (Option.some.inj h)
        exact .ignored o rest houtputs hmode
  | lose i =>
    simp only [step] at h
    split_ifs at h with hi
    obtain ⟨rfl, rfl⟩ := Prod.mk.inj (Option.some.inj h)
    exact .lost i hi

/-! ## Every run -/

/-- Messages are neither doubled nor reordered, and the node has run on those it processed. -/
structure RelayInv (node : N) (evs : List (PipelineEvent M O)) (s : Pipeline images M N O) :
    Prop where
  relays : Relay.Relays (sent evs) (processed evs) s.queue
  ran : Trace.run T.process node (processed evs) = some (answers evs, s.node)

theorem relayInv_new (params : PlayerParams) (node : N) :
    RelayInv T node [] (new params node : Pipeline images M N O) :=
  ⟨List.Sublist.refl _, rfl⟩

/-- Whatever the player publishes is queued behind the rest. -/
theorem RelayInv.send {node : N} {evs : List (PipelineEvent M O)} {s : Pipeline images M N O}
    (hinv : RelayInv T node evs s) (r : Option ℕ × FramesPlayer (imageSequence images)) :
    RelayInv T node (evs ++ [(s.send T message r).1]) (s.send T message r).2 := by
  obtain ⟨hrelays, hran⟩ := hinv
  constructor
  · rw [sent_append_singleton, processed_append_singleton]
    simp only [Pipeline.send, Option.toList_none, List.append_nil]
    cases s.sentMessage message r.1 with
    | none => simpa using hrelays
    | some m => exact hrelays.push T.depth m
  · rw [processed_append_singleton, answers_append_singleton]
    simpa [Pipeline.send] using hran

/-- A call keeps the conservation of messages.

**Proof sketch.** What the player publishes is sent, what the node processes is taken off the
queue, and a loss shortens the queue; every other call leaves the messages where they are.  The
node's run grows by the message it processes. -/
theorem RelayInv.step {node : N} {evs : List (PipelineEvent M O)} {s s' : Pipeline images M N O}
    {c : PipelineCall} {e : PipelineEvent M O} (hinv : RelayInv T node evs s)
    (h : PipelineStep T message s c e s') : RelayInv T node (evs ++ [e]) s' := by
  cases h with
  | asked _ r hasked => exact hinv.send T message r
  | waited hwait =>
    refine ⟨?_, ?_⟩
    · simpa using hinv.relays
    · simpa [answers_append_singleton] using hinv.ran
  | processed m rest answer n hqueue hprocess =>
    obtain ⟨hrelays, hran⟩ := hinv
    rw [hqueue] at hrelays
    refine ⟨?_, ?_⟩
    · rw [sent_append_singleton, processed_append_singleton]
      simpa using hrelays.pop
    · rw [processed_append_singleton, answers_append_singleton]
      exact Trace.run_append_singleton.mpr ⟨_, _, _, hran, hprocess, rfl⟩
  | acked o rest houtputs hmode =>
    have hsame : RelayInv T node evs { s with outputs := rest } := ⟨hinv.relays, hinv.ran⟩
    exact hsame.send T message _
  | ignored o rest houtputs hmode =>
    refine ⟨?_, ?_⟩
    · simpa using hinv.relays
    · simpa [answers_append_singleton] using hinv.ran
  | lost i hi =>
    refine ⟨?_, ?_⟩
    · simpa using hinv.relays.lose i
    · simpa [answers_append_singleton] using hinv.ran

/-- **No message is doubled or reordered.** Under every order of timers, callbacks, deliveries and
losses, the node processes a subsequence of the published messages. -/
theorem relays_run {params : PlayerParams} {node : N} {calls : List PipelineCall}
    {evs : List (PipelineEvent M O)} {s : Pipeline images M N O}
    (h : (new params node).run T message calls = some (evs, s)) : RelayInv T node evs s := by
  refine Trace.run_induction (P := RelayInv T node) (relayInv_new T params node) ?_ h
  intro evs s₁ c e s₂ hinv hstep
  exact hinv.step T message (step_cases T message hstep)

/-- The player publishes the frame after the last one, or nothing. -/
def Counts (n : FramesPlayer (imageSequence images))
    (r : Option ℕ × FramesPlayer (imageSequence images)) : Prop :=
  r.1 = none ∧ r.2.published = n.published ∨
    r.1 = some (n.published + 1) ∧ r.2.published = n.published + 1 ∧
      ∃ image, n.nextImage = some image

theorem counts_publishNext (n : FramesPlayer (imageSequence images)) : Counts n n.publishNext := by
  cases hnext : n.hasNext with
  | true =>
    have heq := FramesPlayer.publishNext_of_hasNext hnext
    exact Or.inr ⟨by rw [heq], by rw [heq], FramesPlayer.nextImage_of_published heq⟩
  | false =>
    obtain ⟨cap, rate, -, heq⟩ := FramesPlayer.publishNext_of_not_hasNext hnext
    exact Or.inl ⟨by rw [heq], by rw [heq]⟩

theorem counts_onAck (n : FramesPlayer (imageSequence images)) : Counts n n.onAck := by
  have hcounts := counts_publishNext n
  cases hdone : n.done with
  | true => exact Or.inl (by simp [FramesPlayer.onAck, hdone])
  | false =>
    have hfst : n.onAck.1 = n.publishNext.1 := by simp [FramesPlayer.onAck, hdone]
    have hpub : n.onAck.2.published = n.publishNext.2.published := by
      simp only [FramesPlayer.onAck, hdone, Bool.false_eq_true, if_false]
      split_ifs <;> rfl
    rwa [Counts, hfst, hpub]

theorem counts_onWaitTick (n : FramesPlayer (imageSequence images)) :
    Counts n (n.onWaitTick true) := by
  have hcounts := counts_publishNext { n with waitTimer := false }
  have hfst : (n.onWaitTick true).1 = (FramesPlayer.publishNext { n with waitTimer := false }).1 := by
    simp [FramesPlayer.onWaitTick]
  have hpub : (n.onWaitTick true).2.published =
      (FramesPlayer.publishNext { n with waitTimer := false }).2.published := by
    simp only [FramesPlayer.onWaitTick, Bool.not_true, Bool.false_eq_true, if_false]
    split_ifs <;> rfl
  rw [Counts, hfst, hpub]
  exact hcounts

/-- The published messages are numbered in the order of their publication. -/
def Numbered (evs : List (PipelineEvent M O)) (s : Pipeline images M N O) : Prop :=
  ∃ shown : List (Image Bgr), shown.length = s.player.published ∧ sent evs = shown.mapIdx message

theorem Numbered.send {evs : List (PipelineEvent M O)} {s : Pipeline images M N O}
    (hnum : Numbered message evs s) {r : Option ℕ × FramesPlayer (imageSequence images)}
    (hr : Counts s.player r) :
    Numbered message (evs ++ [(s.send T message r).1]) (s.send T message r).2 := by
  obtain ⟨shown, hlen, hsent⟩ := hnum
  rcases hr with ⟨hnone, hpub⟩ | ⟨hsome, hpub, image, himage⟩
  · refine ⟨shown, hlen.trans hpub.symm, ?_⟩
    simp [Pipeline.send, sentMessage, hnone, hsent]
  · refine ⟨shown ++ [image], ?_, ?_⟩
    · rw [List.length_append, hlen]
      exact hpub.symm
    · simp [Pipeline.send, sentMessage, hsome, himage, hsent, hlen, List.mapIdx_append]

/-- **Messages are numbered in order**, whatever the mode of the player, also around a loop. -/
theorem numbered_run {params : PlayerParams} {node : N} {calls : List PipelineCall}
    {evs : List (PipelineEvent M O)} {s : Pipeline images M N O}
    (h : (new params node).run T message calls = some (evs, s)) : Numbered message evs s := by
  refine Trace.run_induction (P := Numbered message) ⟨[], rfl, rfl⟩ ?_ h
  intro evs s₁ c e s₂ hnum hstep
  cases step_cases T message hstep with
  | asked _ r hasked =>
    rcases hasked with ⟨-, -, rfl⟩ | ⟨-, -, rfl⟩ | ⟨-, -, rfl⟩
    · exact hnum.send T message (counts_onWaitTick _)
    · exact hnum.send T message (counts_publishNext _)
    · exact hnum.send T message (counts_onAck _)
  | acked o rest houtputs hmode =>
    exact Numbered.send T message (s := { s₁ with outputs := rest }) hnum (counts_onAck _)
  | _ =>
    obtain ⟨shown, hlen, hsent⟩ := hnum
    exact ⟨shown, hlen, by simpa using hsent⟩

end Pipeline

/-! ## Lockstep without timeouts -/

/-- The number of frames a player publishes of those available. -/
def PlayerParams.frames (params : PlayerParams) (available : ℕ) : ℕ :=
  if 0 < params.frameLimit then min params.frameLimit.toNat available else available

namespace FramesPlayer

variable {images : List (Image Bgr)} {params : PlayerParams}

/-- The player has published the first frames of a sequence it plays once. -/
structure InSequence (params : PlayerParams) (n : FramesPlayer (imageSequence images)) : Prop where
  configured : n.params = params
  le : n.published ≤ params.frames (playable images).length
  cap : n.done = false → n.cap = images.drop n.published
  finished : n.done = true → n.published = params.frames (playable images).length

/-- What the player does when it is asked for the next frame of the sequence. -/
inductive Asked (n : FramesPlayer (imageSequence images)) :
    Option ℕ × FramesPlayer (imageSequence images) → Prop
  | published (image : Image Bgr) (n' : FramesPlayer (imageSequence images))
      (himage : n.nextImage = some image) (hat : (playable images)[n.published]? = some image)
      (hpub : n'.published = n.published + 1) (hrate : n'.rateTimer = n.rateTimer) :
      Asked n (some (n.published + 1), n')
  | finished (n' : FramesPlayer (imageSequence images)) (hpub : n'.published = n.published)
      (hrate : n'.rateTimer = true → n.rateTimer = true) (hdone : n'.done = true) :
      Asked n (none, n')

theorem frames_le (params : PlayerParams) (available : ℕ) : params.frames available ≤ available := by
  rw [PlayerParams.frames]
  split_ifs
  · exact min_le_right _ _
  · exact le_rfl

/-- Without a loop the next image is the one at the read position. -/
theorem nextImage_eq {n : FramesPlayer (imageSequence images)} (hloop : n.params.loop = false) :
    n.nextImage = firstImage n.cap := by
  cases hfirst : firstImage n.cap <;> simp [nextImage, hfirst, hloop]

/-- A player that is not done publishes the image at its position, or has published them all.

**Proof sketch.** If there is a next frame, the limit is not reached and the read gives the image
at the number of frames published, which is the next playable one.  If there is none, either the
limit is reached or the playable images are used up, so all of them have been published. -/
theorem publishNext_sequence (hloop : params.loop = false)
    {n : FramesPlayer (imageSequence images)} (hn : n.InSequence params) (hdone : n.done = false) :
    Asked n n.publishNext ∧ n.publishNext.2.waitTimer = n.waitTimer ∧
      n.publishNext.2.InSequence params := by
  obtain ⟨hparams, hle, hcap, -⟩ := hn
  have hcap := hcap hdone
  have hloop' : n.params.loop = false := by rw [hparams, hloop]
  have hlen := hle.trans (frames_le params (playable images).length)
  have hat : (playable images)[n.published]? = n.nextImage := by
    rw [getElem?_playable hlen, nextImage_eq hloop', hcap]
  cases hnext : n.hasNext with
  | true =>
    obtain ⟨hlimit, hread⟩ : n.limitReached = false ∧ n.readFrame.1 = true := by
      simp_all [hasNext]
    obtain ⟨image, himage⟩ := Option.isSome_iff_exists.mp ((readFrame_fst n).symm.trans hread)
    rw [himage] at hat
    have hlt := (List.getElem?_eq_some_iff.mp hat).1
    have hroom : n.published + 1 ≤ params.frames (playable images).length := by
      rw [limitReached, hparams] at hlimit
      simp only [decide_eq_false_iff_not, not_and, not_le] at hlimit
      rw [PlayerParams.frames]
      split_ifs with hpos
      · have := hlimit hpos
        omega
      · omega
    have hcap' : n.readFrame.2 = images.drop (n.published + 1) := by
      have hfound : (readSequence n.cap).1 = true := by
        rw [readSequence_fst, ← nextImage_eq hloop', himage]
        rfl
      have hstay : n.readFrame = readSequence n.cap := by simp [readFrame, hfound]
      rw [hstay, hcap, ← List.drop_drop, List.drop_one]
      cases images.drop n.published <;> rfl
    rw [publishNext_of_hasNext hnext]
    refine ⟨.published image _ himage hat rfl rfl, rfl, hparams, hroom, fun _ => hcap', ?_⟩
    exact fun hdone' => absurd (hdone.symm.trans hdone') Bool.false_ne_true
  | false =>
    obtain ⟨cap, rate, hrate, heq⟩ := publishNext_of_not_hasNext hnext
    have hall : n.published = params.frames (playable images).length := by
      refine le_antisymm hle ?_
      by_cases hlimit : n.limitReached = true
      · rw [limitReached, hparams, decide_eq_true_eq] at hlimit
        rw [PlayerParams.frames, if_pos hlimit.1]
        omega
      · have hread : n.nextImage = none := by
          rw [← Option.not_isSome_iff_eq_none, ← readFrame_fst]
          simp_all [hasNext]
        rw [hread] at hat
        exact (frames_le _ _).trans (List.getElem?_eq_none_iff.mp hat)
    rw [heq]
    refine ⟨.finished _ rfl hrate rfl, rfl, hparams, hle, ?_, fun _ => hall⟩
    exact fun hdone' => absurd hdone' (Bool.noConfusion)

theorem onAck_sequence (hloop : params.loop = false) {n : FramesPlayer (imageSequence images)}
    (hn : n.InSequence params) :
    Asked n n.onAck ∧ n.onAck.2.waitTimer = n.waitTimer ∧ n.onAck.2.InSequence params := by
  cases hdone : n.done with
  | true =>
    have hstay : n.onAck = (none, n) := by simp [onAck, hdone]
    rw [hstay]
    exact ⟨.finished n rfl id hdone, rfl, hn⟩
  | false =>
    obtain ⟨hasked, hwait, hseq⟩ := publishNext_sequence hloop hn hdone
    simp only [onAck, hdone, Bool.false_eq_true, if_false]
    revert hasked hwait hseq
    rcases n.publishNext with ⟨frame, n'⟩
    intro hasked hwait hseq
    obtain ⟨hconf, hle, hcap, hfin⟩ := hseq
    cases hdone' : n'.done with
    | true =>
      simp only [Bool.not_true, Bool.false_eq_true, if_false]
      exact ⟨hasked, hwait, hconf, hle, hcap, hfin⟩
    | false =>
      simp only [Bool.not_false, if_true]
      refine ⟨?_, hwait, hconf, hle, hcap, hfin⟩
      cases hasked with
      | published image _ himage hat hpub hrate => exact .published image _ himage hat hpub hrate
      | finished _ hpub hrate hdone'' => exact .finished _ hpub hrate hdone''

theorem onWaitTick_sequence (hmode : params.mode = .lockstep) (hloop : params.loop = false)
    {n : FramesPlayer (imageSequence images)} (hn : n.InSequence params) (hdone : n.done = false) :
    Asked n (n.onWaitTick true) ∧ (n.onWaitTick true).2.waitTimer = false ∧
      (n.onWaitTick true).2.InSequence params := by
  have hstarted : InSequence params { n with waitTimer := false } :=
    ⟨hn.configured, hn.le, hn.cap, hn.finished⟩
  obtain ⟨hasked, hwait, hseq⟩ := publishNext_sequence hloop hstarted hdone
  simp only [onWaitTick, Bool.not_true, Bool.false_eq_true, if_false]
  revert hasked hwait hseq
  rcases publishNext { n with waitTimer := false } with ⟨frame, n'⟩
  intro hasked hwait hseq
  obtain ⟨hconf, hle, hcap, hfin⟩ := hseq
  rw [if_neg (by rw [hconf, hmode]; exact fun h => PlayerMode.noConfusion h)]
  refine ⟨?_, hwait, hconf, hle, hcap, hfin⟩
  cases hasked with
  | published image _ himage hat hpub hrate => exact .published image _ himage hat hpub hrate
  | finished _ hpub hrate hdone' => exact .finished _ hpub hrate hdone'

end FramesPlayer

namespace Pipeline

variable {images : List (Image Bgr)} {M N O : Type} (T : TrackerNode M N O)
  (message : ℕ → Image Bgr → M) {params : PlayerParams}

/-- The messages of a sequence. -/
def messages (images : List (Image Bgr)) : List M := (playable images).mapIdx message

/-- An image is on its way to the node, or its output to the player, or neither; or an image was
lost, and the pipeline stands still. -/
inductive Token (evs : List (PipelineEvent M O)) (s : Pipeline images M N O) : Prop
  | flowing (hone : s.queue.length + s.outputs.length ≤ 1)
      (hcomplete : Relay.Complete (sent evs) (processed evs) s.queue)
  | stalled (hstarted : s.player.waitTimer = false) (hqueue : s.queue = [])
      (houtputs : s.outputs = []) (hlost : ∃ e ∈ evs, e.lost = true)
      (htaken : processed evs <+: sent evs)

/-- The invariant of a lockstep pipeline without timeouts. -/
structure SequenceInv (params : PlayerParams) (evs : List (PipelineEvent M O))
    (s : Pipeline images M N O) : Prop where
  player : s.player.InSequence params
  rate : s.player.rateTimer = false
  sent : sent evs = (messages message images).take s.player.published
  waiting : s.player.waitTimer = true → s.player.done = false ∧ s.queue = [] ∧ s.outputs = []
  token : Token evs s

theorem sequenceInv_new (params : PlayerParams) (node : N) :
    SequenceInv message params [] (new params node : Pipeline images M N O) where
  player := ⟨rfl, Nat.zero_le _, fun _ => rfl, fun h => by cases h⟩
  rate := rfl
  sent := rfl
  waiting := fun _ => ⟨rfl, rfl, rfl⟩
  token := .flowing (Nat.zero_le 1) rfl

/-- With nothing on its way, what the player publishes is the next message of the sequence, and it
is the only one on its way.

**Proof sketch.** A publication finds room in the empty queue, and its message is the next of the
sequence, so one more message has been sent and it is the only one on its way.  The end of the
sequence sends nothing. -/
theorem SequenceInv.send (hdepth : 1 ≤ T.depth) {evs : List (PipelineEvent M O)}
    {s : Pipeline images M N O} {r : Option ℕ × FramesPlayer (imageSequence images)}
    (hsent : Pipeline.sent evs = (messages message images).take s.player.published)
    (hrate : s.player.rateTimer = false) (hqueue : s.queue = []) (houtputs : s.outputs = [])
    (hcomplete : Relay.Complete (Pipeline.sent evs) (processed evs) s.queue)
    (hasked : s.player.Asked r) (hwait : r.2.waitTimer = false)
    (hplayer : r.2.InSequence params) :
    SequenceInv message params (evs ++ [(s.send T message r).1]) (s.send T message r).2 := by
  cases hasked with
  | published image n' himage hat hpub hrate' =>
    have hmessage : s.sentMessage message (some (s.player.published + 1)) =
        some (message s.player.published image) := by
      simp [sentMessage, himage]
    have hnext : (messages message images)[s.player.published]? =
        some (message s.player.published image) := by
      simp [messages, hat]
    have hlt := (List.getElem?_eq_some_iff.mp hnext).1
    have hroom : s.queue.length < T.depth := by rw [hqueue]; exact hdepth
    refine ⟨hplayer, hrate'.trans hrate, ?_, ?_, .flowing ?_ ?_⟩
    · change Pipeline.sent _ = (messages message images).take n'.published
      rw [sent_append_singleton, hsent, hpub, List.take_add_one, hnext]
      simp [Pipeline.send, hmessage]
    · exact fun hwait' => absurd (hwait.symm.trans hwait') Bool.false_ne_true
    · simp [Pipeline.send, hmessage, hqueue, houtputs, Relay.push_nil hdepth]
    · rw [sent_append_singleton, processed_append_singleton]
      simpa [Pipeline.send, hmessage] using hcomplete.push hroom _
  | finished n' hpub hrate' hdone =>
    have hmessage : s.sentMessage message none = none := rfl
    refine ⟨hplayer, ?_, ?_, ?_, .flowing ?_ ?_⟩
    · rw [Bool.eq_false_iff]
      exact fun htrue => absurd (hrate.symm.trans (hrate' htrue)) Bool.false_ne_true
    · change Pipeline.sent _ = (messages message images).take n'.published
      rw [sent_append_singleton, hsent, hpub]
      simp [Pipeline.send, hmessage]
    · exact fun hwait' => absurd (hwait.symm.trans hwait') Bool.false_ne_true
    · simp [Pipeline.send, hmessage, hqueue, houtputs]
    · rw [sent_append_singleton, processed_append_singleton]
      simpa [Pipeline.send, hmessage] using hcomplete

/-- A call other than a timeout keeps the invariant.

**Proof sketch.** There is at most one message or output on its way.  A publication follows the
start or the delivery of an output, so the queue is empty and has room for it.  Once an image is
lost nothing is on its way any more, and no call but a timeout can be dispatched. -/
theorem SequenceInv.step (hdepth : 1 ≤ T.depth) (hmode : params.mode = .lockstep)
    (hloop : params.loop = false) {evs : List (PipelineEvent M O)} {s s' : Pipeline images M N O}
    {c : PipelineCall} {e : PipelineEvent M O} (hinv : SequenceInv message params evs s)
    (h : PipelineStep T message s c e s') (hc : c ≠ .timeout) :
    SequenceInv message params (evs ++ [e]) s' := by
  obtain ⟨hplayer, hrate, hsent, hwaiting, htoken⟩ := hinv
  cases h with
  | asked _ r hasked =>
    rcases hasked with ⟨-, hwait, rfl⟩ | ⟨-, hrate', -⟩ | ⟨rfl, -, -⟩
    · obtain ⟨hdone, hqueue, houtputs⟩ := hwaiting hwait
      obtain ⟨hasked, hwait', hplayer'⟩ :=
        FramesPlayer.onWaitTick_sequence hmode hloop hplayer hdone
      cases htoken with
      | flowing hone hcomplete =>
        exact SequenceInv.send T message hdepth hsent hrate hqueue houtputs hcomplete hasked hwait'
          hplayer'
      | stalled hstarted =>
        exact absurd (hstarted.symm.trans hwait) Bool.false_ne_true
    · exact absurd (hrate.symm.trans hrate') Bool.false_ne_true
    · exact absurd rfl hc
  | waited hwait =>
    obtain ⟨hdone, hqueue, houtputs⟩ := hwaiting hwait
    refine ⟨hplayer, hrate, by simpa using hsent, hwaiting, ?_⟩
    cases htoken with
    | flowing hone hcomplete => exact .flowing hone (by simpa using hcomplete)
    | stalled hstarted => exact absurd (hstarted.symm.trans hwait) Bool.false_ne_true
  | processed m rest answer node hqueue hprocess =>
    have hstarted : s.player.waitTimer = false := by
      rw [Bool.eq_false_iff]
      intro hwait
      rw [(hwaiting hwait).2.1] at hqueue
      cases hqueue
    refine ⟨hplayer, hrate, by simpa using hsent, ?_, ?_⟩
    · exact fun hwait => absurd (hstarted.symm.trans hwait) Bool.false_ne_true
    · cases htoken with
      | flowing hone hcomplete =>
        rw [hqueue] at hcomplete
        rw [hqueue, List.length_cons] at hone
        have hempty : s.outputs = [] := List.eq_nil_of_length_eq_zero (by omega)
        refine .flowing ?_ ?_
        · cases answer with
          | none => simp only [Option.elim_none]; omega
          | some o =>
            have hpush := Relay.push_nil (show 1 ≤ outputDepth by decide) o
            simp only [Option.elim_some, hempty, hpush, List.length_singleton]
            omega
        · rw [sent_append_singleton, processed_append_singleton]
          simpa using hcomplete.pop
      | stalled _ hqueue' =>
        rw [hqueue'] at hqueue
        cases hqueue
  | acked o rest houtputs hmode' =>
    cases htoken with
    | flowing hone hcomplete =>
      rw [houtputs, List.length_cons] at hone
      have hrest : rest = [] := List.eq_nil_of_length_eq_zero (by omega)
      have hqueue : s.queue = [] := List.eq_nil_of_length_eq_zero (by omega)
      have hstarted : s.player.waitTimer = false := by
        rw [Bool.eq_false_iff]
        intro hwait
        rw [(hwaiting hwait).2.2] at houtputs
        cases houtputs
      obtain ⟨hasked, hwait', hplayer'⟩ := FramesPlayer.onAck_sequence hloop hplayer
      exact SequenceInv.send T message hdepth (s := { s with outputs := rest }) hsent hrate hqueue
        hrest hcomplete hasked (hwait'.trans hstarted) hplayer'
    | stalled _ _ houtputs' =>
      rw [houtputs'] at houtputs
      cases houtputs
  | ignored o rest houtputs hmode' =>
    exact absurd (hplayer.configured ▸ hmode) hmode'
  | lost i hi =>
    cases htoken with
    | flowing hone hcomplete =>
      have hlen : s.queue.length = 1 := by omega
      obtain ⟨m, hqueue⟩ := List.length_eq_one_iff.mp hlen
      have houtputs : s.outputs = [] := List.eq_nil_of_length_eq_zero (by omega)
      have hstarted : s.player.waitTimer = false := by
        rw [Bool.eq_false_iff]
        intro hwait
        rw [(hwaiting hwait).2.1] at hqueue
        cases hqueue
      have herased : s.queue.eraseIdx i = [] := by
        apply List.eq_nil_of_length_eq_zero
        rw [List.length_eraseIdx_of_lt hi]
        omega
      refine ⟨hplayer, hrate, by simpa using hsent, ?_, .stalled hstarted herased houtputs ?_ ?_⟩
      · exact fun hwait => absurd (hstarted.symm.trans hwait) Bool.false_ne_true
      · exact ⟨_, List.mem_append_right _ (List.mem_singleton_self _), rfl⟩
      · simpa using hcomplete.isPrefix
    | stalled _ hqueue =>
      rw [hqueue] at hi
      exact absurd hi (Nat.not_lt_zero i)

/-- **In lockstep no image is dropped.** Without timeouts, the invariant holds after every run:
at any time at most one image or output is on its way. -/
theorem sequenceInv_run (hdepth : 1 ≤ T.depth) (hmode : params.mode = .lockstep)
    (hloop : params.loop = false) (node : N) {calls : List PipelineCall}
    (hcalls : PipelineCall.timeout ∉ calls) {evs : List (PipelineEvent M O)}
    {s : Pipeline images M N O} (h : (new params node).run T message calls = some (evs, s)) :
    SequenceInv message params evs s := by
  induction calls using List.reverseRecOn generalizing evs s with
  | nil =>
    obtain ⟨rfl, rfl⟩ := Prod.mk.inj (Option.some.inj h)
    exact sequenceInv_new message params node
  | append_singleton calls c ih =>
    obtain ⟨pre, e, s₁, hpre, hstep, rfl⟩ := Trace.run_append_singleton.mp h
    have hinv := ih (fun hmem => hcalls (List.mem_append_left _ hmem)) hpre
    refine hinv.step T message hdepth hmode hloop (step_cases T message hstep) ?_
    rintro rfl
    exact hcalls (List.mem_append_right _ (List.mem_singleton_self _))

/-- In lockstep without timeouts, the node has processed the first messages of the sequence, in
order; all of those the player publishes, when the player is done and no image was lost.

**Proof sketch.** The invariant of such runs says that a prefix of the sequence has been sent and
a prefix of that processed.  With the player done, nothing queued and nothing lost, both are
everything the player publishes. -/
theorem processed_run (hdepth : 1 ≤ T.depth) (hmode : params.mode = .lockstep)
    (hloop : params.loop = false) (node : N) {calls : List PipelineCall}
    (hcalls : PipelineCall.timeout ∉ calls) {evs : List (PipelineEvent M O)}
    {s : Pipeline images M N O} (h : (new params node).run T message calls = some (evs, s)) :
    processed evs = (messages message images).take (processed evs).length ∧
      (s.player.done = true → s.queue = [] → (∀ e ∈ evs, e.lost = false) →
        processed evs = (messages message images).take (params.frames (playable images).length)) := by
  have hinv := sequenceInv_run T message hdepth hmode hloop node hcalls h
  obtain ⟨hplayer, -, hsent, -, htoken⟩ := hinv
  have htaken : processed evs <+: sent evs := by
    cases htoken with
    | flowing _ hcomplete => exact hcomplete.isPrefix
    | stalled _ _ _ _ htaken => exact htaken
  constructor
  · rw [hsent] at htaken
    exact List.prefix_iff_eq_take.mp (htaken.trans (List.take_prefix _ _))
  · intro hdone hqueue hnone
    cases htoken with
    | flowing _ hcomplete =>
      rw [Relay.Complete, hqueue, List.append_nil] at hcomplete
      rw [hcomplete, hsent, hplayer.finished hdone]
    | stalled _ _ _ hlost =>
      obtain ⟨e, he, hlost⟩ := hlost
      rw [hnone e he] at hlost
      cases hlost

end Pipeline

end Ctrk
