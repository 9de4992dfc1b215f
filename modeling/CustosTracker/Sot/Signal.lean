import CustosTracker.Sot.PostProcess

set_option relaxedAutoImplicit false
set_option autoImplicit false

/-!
# The drift check has a signal

A backend keeps the centre of its box on the frame and the sides at ten pixels or more.  The region
that the box shares with the frame, in whole pixels, is then never too thin for a histogram, so that
a drift check of the tracked box always compares histograms.

## Main definitions

* `Ctrk.boxRoi` — the region of a box, in whole pixels.
* `Ctrk.backendSize` — the size of the frame a backend was started on.

## Main results

* `Ctrk.Extent.InFrame.five_le_boxRoi` — the region of a box in a frame has sides of at least five.
* `Ctrk.backend_update` — both backends return such boxes.
* `Ctrk.SotTracker.update_check` — what an update may do to the latch.
* `Ctrk.SotTracker.drift_check_has_signal` — every check in every run.
-/

namespace Ctrk

variable {R : Type} [Scalar R]

/-! ## The region of a box -/

/-- The region that `hsv_hist` looks at. -/
def boxRoi (img : Image Bgr) (box : BBox R) : Rect :=
  Rect.inter ⟨Scalar.toInt box.x, Scalar.toInt box.y, Scalar.toInt box.w, Scalar.toInt box.h⟩
    img.bounds

theorem regionHist_eq (hist : Image Bgr → List R) (img : Image Bgr) (box : BBox R) :
    regionHist hist img box =
      if (boxRoi img box).width < 2 ∨ (boxRoi img box).height < 2 then []
      else hist (img.sub (boxRoi img box)) := rfl

theorem Rect.isEmpty_eq_false {r : Rect} (hw : 0 < r.width) (hh : 0 < r.height) :
    r.isEmpty = false := by
  rw [isEmpty, decide_eq_false_iff_not]
  omega

/-- Rectangles that overlap along both axes have the overlap in common. -/
theorem Rect.inter_of_overlap {a b : Rect} (ha : a.isEmpty = false) (hb : b.isEmpty = false)
    (hw : 0 < overlap a.x a.width b.x b.width) (hh : 0 < overlap a.y a.height b.y b.height) :
    (a.inter b).width = overlap a.x a.width b.x b.width ∧
      (a.inter b).height = overlap a.y a.height b.y b.height := by
  have hempty : ¬(a.isEmpty || b.isEmpty) = true := by simp [ha, hb]
  have hcommon : Rect.isEmpty { x := max a.x b.x
                                y := max a.y b.y
                                width := overlap a.x a.width b.x b.width
                                height := overlap a.y a.height b.y b.height } = false :=
    isEmpty_eq_false hw hh
  rw [inter, if_neg hempty]
  simp only [hcommon, Bool.false_eq_true, if_false, and_self]

section Truncation

variable [LawfulScalar R]

/-- **Truncation towards zero leaves five pixels.** An interval of length at least ten whose middle
lies in `[0, n]` shares five pixels with it after both ends are truncated.

**Proof sketch.** A start on the frame moves left, so that half of the interval is left of the end
of the frame.  A start before the frame moves right, by less than one pixel, and the truncated
length is short by less than one. -/
theorem five_le_overlap {x w : R} {n : ℕ} (hc : x + 1 / 2 * w ∈ Set.Icc 0 (n : R))
    (hw : w ∈ Set.Icc 10 (n : R)) :
    5 ≤ Rect.overlap (Scalar.toInt x) (Scalar.toInt w) 0 n := by
  obtain ⟨hc, hc'⟩ := hc
  obtain ⟨hw, hw'⟩ := hw
  have hn : 10 ≤ n := by exact_mod_cast hw.trans hw'
  have hlen : 10 ≤ Scalar.toInt w :=
    (le_toInt_iff (by linarith)).mpr (by exact_mod_cast hw)
  obtain ⟨-, hwlt⟩ := LawfulScalar.toInt_nonneg w (by linarith)
  rw [Rect.overlap]
  rcases le_or_gt 0 x with hx | hx
  · obtain ⟨hxle, -⟩ := LawfulScalar.toInt_nonneg x hx
    have hstart : 0 ≤ Scalar.toInt x := (le_toInt_iff hx).mpr (by exact_mod_cast hx)
    have hend : Scalar.toInt x + 5 ≤ n := by
      have hcast : ((Scalar.toInt x + 5 : ℤ) : R) ≤ (n : ℤ) := by
        push_cast
        linarith
      exact_mod_cast hcast
    omega
  · obtain ⟨hxle, hxlt⟩ := LawfulScalar.toInt_nonneg (-x) (by linarith)
    rw [LawfulScalar.toInt_neg, Int.cast_neg] at hxle hxlt
    have hstart : Scalar.toInt x ≤ 0 := by
      have hcast : ((Scalar.toInt x : ℤ) : R) < (1 : ℤ) := by
        push_cast
        linarith
      have hlt : Scalar.toInt x < 1 := by exact_mod_cast hcast
      omega
    have hend : 4 < Scalar.toInt x + Scalar.toInt w := by
      have hcast : ((4 : ℤ) : R) < (Scalar.toInt x + Scalar.toInt w : ℤ) := by
        push_cast
        linarith
      exact_mod_cast hcast
    omega

/-- The region of a box in a frame has sides of at least five.

**Proof sketch.** The centre is on the image and the side at least ten, so on each axis half a
side of the box, at least five, lies inside, also after truncation. -/
theorem Extent.InFrame.five_le_boxRoi {e : Extent R} (h : e.InFrame) {img : Image Bgr}
    (hsize : e.imgSize = (img.cols, img.rows)) :
    5 ≤ (boxRoi img e.box).width ∧ 5 ≤ (boxRoi img e.box).height := by
  obtain ⟨hx, hy, hw, hh⟩ := h
  simp only [hsize] at hx hy hw hh
  have hwidth : 5 ≤ Rect.overlap (Scalar.toInt e.box.x) (Scalar.toInt e.szW) 0 img.cols := by
    refine five_le_overlap ?_ hw
    rwa [show e.box.x + 1 / 2 * e.szW = e.posX by rw [Extent.box]; ring]
  have hheight : 5 ≤ Rect.overlap (Scalar.toInt e.box.y) (Scalar.toInt e.szH) 0 img.rows := by
    refine five_le_overlap ?_ hh
    rwa [show e.box.y + 1 / 2 * e.szH = e.posY by rw [Extent.box]; ring]
  have hcols : 10 ≤ img.cols := by exact_mod_cast hw.1.trans hw.2
  have hrows : 10 ≤ img.rows := by exact_mod_cast hh.1.trans hh.2
  have hszW : 10 ≤ Scalar.toInt e.szW :=
    (le_toInt_iff (by linarith [hw.1])).mpr (by exact_mod_cast hw.1)
  have hszH : 10 ≤ Scalar.toInt e.szH :=
    (le_toInt_iff (by linarith [hh.1])).mpr (by exact_mod_cast hh.1)
  have hbox : Rect.isEmpty ⟨Scalar.toInt e.box.x, Scalar.toInt e.box.y, Scalar.toInt e.szW,
      Scalar.toInt e.szH⟩ = false :=
    Rect.isEmpty_eq_false (lt_of_lt_of_le (by omega) hszW) (lt_of_lt_of_le (by omega) hszH)
  have hbounds : img.bounds.isEmpty = false :=
    Rect.isEmpty_eq_false (show (0 : ℤ) < img.cols by omega) (show (0 : ℤ) < img.rows by omega)
  obtain ⟨hroi, hroi'⟩ := Rect.inter_of_overlap hbox hbounds (lt_of_lt_of_le (by omega) hwidth)
    (lt_of_lt_of_le (by omega) hheight)
  exact ⟨hroi.symm ▸ hwidth, hroi'.symm ▸ hheight⟩

end Truncation

/-! ## The boxes of the backends -/

namespace MosseTracker

/-- Where the box is. -/
def extent (t : MosseTracker R) : Extent R := ⟨t.posX, t.posY, t.szW, t.szH, t.imgSize⟩

variable (ops : MosseOps R)

/-- Training does not move the box. -/
theorem extent_train (t : MosseTracker R) (processed : Image R) (lr : R) :
    (t.train ops processed lr).extent = t.extent := by
  simp only [train]
  split_ifs <;> rfl

theorem extent_trainInitial (t : MosseTracker R) (image : Image Bgr) :
    (t.trainInitial ops image).extent = t.extent := by
  simp only [trainInitial, List.foldl_cons, List.foldl_nil, extent_train]

/-- `update` returns the box it leaves, which is in the frame, wherever the peak is. -/
theorem extent_update [LawfulScalar R] (t : MosseTracker R)
    (hsize : 10 ≤ t.imgSize.1 ∧ 10 ≤ t.imgSize.2) (image : Image Bgr) :
    (t.update ops image).2.extent.InFrame ∧
      (t.update ops image).1.box = (t.update ops image).2.extent.box ∧
      (t.update ops image).2.imgSize = t.imgSize := by
  -- the filter adapts after the box has moved
  have hextent : (t.update ops image).2.extent =
      (t.place (kScales.foldl (t.considerScale ops (t.filter ops) image)
        ⟨-1, 0, 1, (0, 0)⟩)).extent := by
    simp only [update]
    split_ifs
    · exact extent_train ops _ _ _
    · rfl
  refine ⟨?_, rfl, ?_⟩
  · rw [hextent]
    exact Extent.inFrame_clamp hsize _ _ _ _
  · exact congrArg Extent.imgSize hextent

end MosseTracker

/-- The size of the frame a backend was started on. -/
def backendSize : NanoTracker R ⊕ MosseTracker R → ℕ × ℕ :=
  Sum.elim NanoTracker.imgSize MosseTracker.imgSize

section Backend

variable (nops : NanoOps R) (mops : MosseOps R)

/-- `init` takes the size of the frame. -/
theorem backendSize_init (a : NanoTracker R ⊕ MosseTracker R) (img : Image Bgr) (box : BBox R) :
    backendSize ((coreBackend nops mops).init a img box) = (img.cols, img.rows) := by
  cases a with
  | inl t => rfl
  | inr t => exact congrArg Extent.imgSize (MosseTracker.extent_trainInitial mops _ img)

/-- Both backends keep it, and return a box in the frame. -/
theorem backend_update [LawfulScalar R] {a : NanoTracker R ⊕ MosseTracker R}
    (hsize : 10 ≤ (backendSize a).1 ∧ 10 ≤ (backendSize a).2) (img : Image Bgr) :
    backendSize ((coreBackend nops mops).update a img).2 = backendSize a ∧
      ∃ e : Extent R, e.InFrame ∧ e.imgSize = backendSize a ∧
        ((coreBackend nops mops).update a img).1.box = e.box := by
  cases a with
  | inl t =>
    obtain ⟨hframe, hbox, hkeep⟩ := t.extent_update nops hsize img
    exact ⟨hkeep, _, hframe, hkeep, hbox⟩
  | inr t =>
    obtain ⟨hframe, hbox, hkeep⟩ := t.extent_update mops hsize img
    exact ⟨hkeep, _, hframe, hkeep, hbox⟩

end Backend

/-! ## The facade -/

/-- The size of the frame of a call. -/
def SotOp.frameSize : SotOp R → ℕ × ℕ
  | .init frame _ => (frame.image.cols, frame.image.rows)
  | .update frame => (frame.image.cols, frame.image.rows)

namespace SotTracker

section Check

variable {K : Backend R} (ops : HistOps R)

/-- The comparison of a reference with the histogram of a box. -/
def histSimilarity (ref : List R) (img : Image Bgr) (box : BBox R) : R :=
  1 - ops.compareHist ref (ops.hist (img.sub (boxRoi img box)))

/-- A region of two pixels each way has a histogram, if images with pixels have one. -/
theorem hsvHist_of_roi {ops : HistOps R} (hhist : ∀ m, m.isEmpty = false → ops.hist m ≠ [])
    {img : Image Bgr} {box : BBox R}
    (hroi : 2 ≤ (boxRoi img box).width ∧ 2 ≤ (boxRoi img box).height) :
    hsvHist ops img box = ops.hist (img.sub (boxRoi img box)) ∧ hsvHist ops img box ≠ [] := by
  have hthick : ¬((boxRoi img box).width < 2 ∨ (boxRoi img box).height < 2) := by omega
  have hpixels : (img.sub (boxRoi img box)).isEmpty = false := by
    simp only [Image.isEmpty, Image.sub, Bool.or_eq_false_iff, beq_eq_false_iff_ne]
    omega
  rw [hsvHist, regionHist_eq, if_neg hthick]
  exact ⟨rfl, hhist _ hpixels⟩

/-- The similarity of a box with a signal is that of two histograms. -/
theorem similarity_of_signal {s : SotTracker K} (hemb : s.cfg.reid.embedder = .hsvHist)
    (href : s.refHist ≠ []) {img : Image Bgr} {box : BBox R}
    (hsignal : hsvHist ops img box = ops.hist (img.sub (boxRoi img box)) ∧
      hsvHist ops img box ≠ []) :
    s.similarity ops img box = histSimilarity ops s.refHist img box := by
  have href' : ¬s.refHist.isEmpty = true := by rwa [List.isEmpty_iff]
  have hhist : ¬(hsvHist ops img box).isEmpty = true := by rw [List.isEmpty_iff]; exact hsignal.2
  simp only [similarity, hemb, if_neg href', if_neg hhist]
  rw [hsignal.1, histSimilarity]

/-- The facade that the check of a frame looks at: the backend has moved its box. -/
def tracked (s : SotTracker K) (image : Image Bgr) : SotTracker K :=
  { s with backend := (K.update s.backend image).2 }

/-- **What an update may do to the latch.** Without a check it stays as it is; a check compares the
box of the backend with the reference, and sets the latch exactly when the similarity is low.

**Proof sketch.** By cases on the verdict.  The report's check is set only where the due check is
made, and there the latch is cleared or set with it; the re-acquisition tail keeps both. -/
theorem update_check {s s' : SotTracker K} {frame : Frame R} {rep : SotReport R}
    (h : s.update ops frame = some (rep, s')) :
    let sim := (s.tracked frame.image).similarity ops frame.image rep.raw.box
    rep.raw = (K.update s.backend frame.image).1 ∧
      ((rep.check = none ∧ s'.driftLatched = s.driftLatched) ∨
        (rep.check = some sim ∧ s'.driftLatched = decide (sim < s.cfg.reid.driftThr))) := by
  rw [update_eq_judge] at h
  generalize s.classify (K.update s.backend frame.image).1.score = verdict at h
  cases verdict with
  | unstable =>
    obtain ⟨rfl, rfl⟩ := Prod.mk.inj (Option.some.inj h)
    exact ⟨rfl, Or.inl ⟨rfl, rfl⟩⟩
  | lost =>
    simp only [judge] at h
    have hjudged := reacquireStep_judged ops rfl rfl h
    exact ⟨hjudged.raw, Or.inl ⟨hjudged.check, hjudged.driftLatched⟩⟩
  | tracking =>
    simp only [judge] at h
    split_ifs at h with hskip hpass
    · obtain ⟨rfl, rfl⟩ := Prod.mk.inj (Option.some.inj h)
      exact ⟨rfl, Or.inl ⟨rfl, rfl⟩⟩
    · obtain ⟨rfl, rfl⟩ := Prod.mk.inj (Option.some.inj h)
      exact ⟨rfl, Or.inr ⟨rfl, (decide_eq_false (not_lt.mpr hpass)).symm⟩⟩
    · have hjudged := reacquireStep_judged ops rfl rfl h
      have hraw : rep.raw = (K.update s.backend frame.image).1 := hjudged.raw
      have hlow := not_le.mp hpass
      refine ⟨hraw, Or.inr ?_⟩
      rw [hraw]
      exact ⟨hjudged.check, hjudged.driftLatched.trans (decide_eq_true hlow).symm⟩

end Check

/-! ## Runs -/

section Runs

variable [LawfulScalar R] {nops : NanoOps R} {mops : MosseOps R} (ops : HistOps R) {size : ℕ × ℕ}

/-- A call with a frame of the same size keeps the size. -/
theorem backendSize_step {s s' : SotTracker (coreBackend nops mops)} {op : SotOp R} {e : SotEvent R}
    (hsize : 10 ≤ size.1 ∧ 10 ≤ size.2) (hs : backendSize s.backend = size)
    (hop : op.frameSize = size) (h : s.step ops op = some (e, s')) :
    backendSize s'.backend = size := by
  cases op with
  | init frame target =>
    obtain ⟨-, rfl⟩ := Prod.mk.inj (Option.some.inj h)
    exact (backendSize_init nops mops s.backend frame.image target).trans hop
  | update frame =>
    obtain ⟨⟨rep, s₁⟩, hup, heq⟩ := Option.map_eq_some_iff.mp h
    obtain ⟨-, rfl⟩ := Prod.mk.inj heq
    obtain ⟨-, -, -, hseen | ⟨box, hseeded⟩⟩ := update_keeps ops hup
    · have hkeep := (backend_update nops mops (hs.symm ▸ hsize) frame.image).1
      exact (congrArg backendSize hseen).trans (hkeep.trans hs)
    · have hinit := backendSize_init nops mops
        ((coreBackend nops mops).update s.backend frame.image).2 frame.image box
      exact (congrArg backendSize hseeded).trans (hinit.trans hop)

theorem backendSize_run {s s' : SotTracker (coreBackend nops mops)} {calls : List (SotOp R)}
    {evs : List (SotEvent R)} (hsize : 10 ≤ size.1 ∧ 10 ≤ size.2)
    (hs : backendSize s.backend = size) (hcalls : ∀ op ∈ calls, op.frameSize = size)
    (h : s.run ops calls = some (evs, s')) :
    backendSize s'.backend = size := by
  induction calls generalizing s evs with
  | nil =>
    obtain ⟨-, rfl⟩ := Prod.mk.inj (Option.some.inj h)
    exact hs
  | cons op calls ih =>
    obtain ⟨e, s₁, es, hstep, hrun, -⟩ := Trace.run_cons_eq_some.mp h
    have hs₁ := backendSize_step ops hsize hs (hcalls op List.mem_cons_self) hstep
    exact ih hs₁ (fun op' hop' => hcalls op' (List.mem_cons_of_mem op hop')) hrun

/-- After an `init` the backend knows the size of the frames. -/
theorem backendSize_of_init {s s' : SotTracker (coreBackend nops mops)} {frame : Frame R}
    {target : BBox R} {calls : List (SotOp R)} {evs : List (SotEvent R)}
    (hsize : 10 ≤ size.1 ∧ 10 ≤ size.2)
    (hcalls : ∀ op ∈ SotOp.init frame target :: calls, op.frameSize = size)
    (h : s.run ops (.init frame target :: calls) = some (evs, s')) :
    backendSize s'.backend = size := by
  obtain ⟨e, s₁, es, hstep, hrun, -⟩ := Trace.run_cons_eq_some.mp h
  obtain ⟨-, rfl⟩ := Prod.mk.inj (Option.some.inj hstep)
  have hinit := (backendSize_init nops mops s.backend frame.image target).trans
    (hcalls _ List.mem_cons_self)
  exact backendSize_run ops hsize hinit
    (fun op hop => hcalls op (List.mem_cons_of_mem _ hop)) hrun

variable (nops mops) in
/-- The box of a backend that knows the size of the frame has a signal on it. -/
theorem two_le_boxRoi {a : NanoTracker R ⊕ MosseTracker R} (hsize : 10 ≤ size.1 ∧ 10 ≤ size.2)
    (ha : backendSize a = size) {img : Image Bgr} (himg : (img.cols, img.rows) = size) :
    let box := ((coreBackend nops mops).update a img).1.box
    2 ≤ (boxRoi img box).width ∧ 2 ≤ (boxRoi img box).height := by
  obtain ⟨-, e, hframe, he, hbox⟩ := backend_update nops mops (ha.symm ▸ hsize) img
  obtain ⟨hw, hh⟩ := hframe.five_le_boxRoi (he.trans (ha.trans himg.symm))
  rw [hbox]
  exact ⟨by omega, by omega⟩

/-- With histograms and a reference, a tracked box is judged by a comparison. -/
theorem similarity_tracked {s : SotTracker (coreBackend nops mops)} {frame : Frame R}
    (hhist : ∀ m, m.isEmpty = false → ops.hist m ≠ []) (hsize : 10 ≤ size.1 ∧ 10 ≤ size.2)
    (hs : backendSize s.backend = size) (hframe : (frame.image.cols, frame.image.rows) = size)
    (hemb : s.cfg.reid.embedder = .hsvHist) (href : s.refHist ≠ []) :
    let box := ((coreBackend nops mops).update s.backend frame.image).1.box
    (s.tracked frame.image).similarity ops frame.image box =
      histSimilarity ops s.refHist frame.image box := by
  have hsignal := hsvHist_of_roi hhist (two_le_boxRoi nops mops hsize hs hframe)
  exact similarity_of_signal ops (s := s.tracked frame.image) hemb href hsignal

/-- An update that clears the latch has compared histograms. -/
theorem check_of_cleared {s s' : SotTracker (coreBackend nops mops)} {frame : Frame R}
    {rep : SotReport R} (hhist : ∀ m, m.isEmpty = false → ops.hist m ≠ [])
    (hsize : 10 ≤ size.1 ∧ 10 ≤ size.2) (hs : backendSize s.backend = size)
    (hframe : (frame.image.cols, frame.image.rows) = size)
    (hemb : s.cfg.reid.embedder = .hsvHist) (href : s.refHist ≠ [])
    (h : s.update ops frame = some (rep, s')) :
    let sim := histSimilarity ops s.refHist frame.image rep.raw.box
    (rep.check = none ∨ rep.check = some sim) ∧
      (s.driftLatched = true → s'.driftLatched = false →
        rep.check = some sim ∧ s.cfg.reid.driftThr ≤ sim) := by
  obtain ⟨hraw, hcheck⟩ := update_check ops h
  have hsim := similarity_tracked ops hhist hsize hs hframe hemb href
  rw [← hraw] at hsim
  rw [hsim] at hcheck
  rcases hcheck with ⟨hnone, hkeep⟩ | ⟨hsome, hset⟩
  · exact ⟨Or.inl hnone, fun hlatched hclear => by rw [hkeep, hlatched] at hclear; cases hclear⟩
  · refine ⟨Or.inr hsome, fun _ hclear => ⟨hsome, ?_⟩⟩
    rw [hset, decide_eq_false_iff_not] at hclear
    exact not_lt.mp hclear

/-- **The latch between two starts.** Frames that clear the latch contain one whose check compared
histograms and passed.

**Proof sketch.** By induction on the frames.  An update clears a set latch only by a check that
passes, which compares the reference with the histogram of the box; if the first frame does not
clear it, a later one does. -/
theorem exists_check_of_cleared {s s' : SotTracker (coreBackend nops mops)}
    {frames : List (Frame R)} {evs : List (SotEvent R)}
    (hhist : ∀ m, m.isEmpty = false → ops.hist m ≠ [])
    (hsize : 10 ≤ size.1 ∧ 10 ≤ size.2) (hs : backendSize s.backend = size)
    (hframes : ∀ frame ∈ frames, (frame.image.cols, frame.image.rows) = size)
    (hemb : s.cfg.reid.embedder = .hsvHist) (href : s.refHist ≠ [])
    (hlatched : s.driftLatched = true) (h : s.run ops (frames.map .update) = some (evs, s'))
    (hclear : s'.driftLatched = false) :
    ∃ frame rep, (frame, SotEvent.reported rep) ∈ frames.zip evs ∧
      rep.check = some (histSimilarity ops s.refHist frame.image rep.raw.box) ∧
      s.cfg.reid.driftThr ≤ histSimilarity ops s.refHist frame.image rep.raw.box := by
  induction frames generalizing s evs with
  | nil =>
    obtain ⟨-, rfl⟩ := Prod.mk.inj (Option.some.inj h)
    rw [hlatched] at hclear
    cases hclear
  | cons frame frames ih =>
    obtain ⟨e, s₁, es, hstep, hrun, rfl⟩ := Trace.run_cons_eq_some.mp h
    have hframe : (SotOp.update frame).frameSize = size := hframes frame List.mem_cons_self
    have hs₁ := backendSize_step ops hsize hs hframe hstep
    obtain ⟨⟨rep, s₂⟩, hup, heq⟩ := Option.map_eq_some_iff.mp hstep
    obtain ⟨rfl, rfl⟩ := Prod.mk.inj heq
    by_cases hcleared : s₂.driftLatched = false
    · obtain ⟨hcheck, hthr⟩ :=
        (check_of_cleared ops hhist hsize hs hframe hemb href hup).2 hlatched hcleared
      exact ⟨frame, rep, List.mem_cons_self, hcheck, hthr⟩
    · obtain ⟨hcfg, -, hsame, -⟩ := update_keeps ops hup
      obtain ⟨frame', rep', hmem, hcheck, hthr⟩ := ih hs₁
        (fun f hf => hframes f (List.mem_cons_of_mem frame hf)) (hcfg.symm ▸ hemb)
        (hsame.symm ▸ href) (Bool.eq_true_of_not_eq_false hcleared) hrun
      rw [hsame] at hcheck hthr
      rw [hcfg] at hthr
      exact ⟨frame', rep', List.mem_cons_of_mem _ hmem, hcheck, hthr⟩

/-- **The drift check always has a signal.** For both backends and every run that begins with
`init`, on frames of one size with sides of at least ten:

* the region of every box that the backend returns, on the frame, is at least two pixels wide and
  high;
* with histograms and a reference, the similarity of the tracked box is the comparison of the two,
  and so is what a check of the frame reports;
* frames without an `init` in between that clear the latch contain one whose comparison reached the
  threshold.

**Proof sketch.** Both backends clamp their boxes into the frame, in every state after `init`, so
the region of a box has sides of at least five, and a histogram.  The similarity is then the
comparison of the two histograms, and a check that clears the latch reports one that passed. -/
theorem drift_check_has_signal (hhist : ∀ m, m.isEmpty = false → ops.hist m ≠ [])
    (hsize : 10 ≤ size.1 ∧ 10 ≤ size.2) (s₀ s : SotTracker (coreBackend nops mops))
    (frame₀ : Frame R) (target : BBox R) (calls : List (SotOp R))
    (hcalls : ∀ op ∈ SotOp.init frame₀ target :: calls, op.frameSize = size)
    (evs : List (SotEvent R)) (h : s₀.run ops (.init frame₀ target :: calls) = some (evs, s)) :
    (∀ frame : Frame R, (frame.image.cols, frame.image.rows) = size →
      let box := ((coreBackend nops mops).update s.backend frame.image).1.box
      2 ≤ (boxRoi frame.image box).width ∧ 2 ≤ (boxRoi frame.image box).height ∧
        (s.cfg.reid.embedder = .hsvHist → s.refHist ≠ [] →
          (s.tracked frame.image).similarity ops frame.image box =
              histSimilarity ops s.refHist frame.image box ∧
            ∀ rep s', s.update ops frame = some (rep, s') → rep.raw.box = box ∧
              (rep.check = none ∨
                rep.check = some (histSimilarity ops s.refHist frame.image box)))) ∧
    (s.cfg.reid.embedder = .hsvHist → s.refHist ≠ [] → s.driftLatched = true →
      ∀ (frames : List (Frame R)) (evs' : List (SotEvent R))
          (s' : SotTracker (coreBackend nops mops)),
        (∀ frame ∈ frames, (frame.image.cols, frame.image.rows) = size) →
        s.run ops (frames.map .update) = some (evs', s') → s'.driftLatched = false →
        ∃ frame rep, (frame, SotEvent.reported rep) ∈ frames.zip evs' ∧
          rep.check = some (histSimilarity ops s.refHist frame.image rep.raw.box) ∧
          s.cfg.reid.driftThr ≤ histSimilarity ops s.refHist frame.image rep.raw.box) := by
  have hs := backendSize_of_init ops hsize hcalls h
  refine ⟨fun frame hframe => ?_, fun hemb href hlatched frames evs' s' hframes hrun hclear =>
    exists_check_of_cleared ops hhist hsize hs hframes hemb href hlatched hrun hclear⟩
  have hroi := two_le_boxRoi nops mops hsize hs hframe
  refine ⟨hroi.1, hroi.2, fun hemb href => ⟨?_, fun rep s' hup => ?_⟩⟩
  · exact similarity_tracked ops hhist hsize hs hframe hemb href
  · have hraw := (update_check ops hup).1
    have hcheck := (check_of_cleared ops hhist hsize hs hframe hemb href hup).1
    rw [hraw] at hcheck
    exact ⟨by rw [hraw], hcheck⟩

end Runs

/-- A black frame of twenty pixels each way. -/
def blackFrame : Frame ℝ := ⟨⟨20, 20, fun _ _ => ⟨0, 0, 0⟩⟩, 0, []⟩

theorem drift_check_has_signal_black : ∃ evs s,
    (create noNano blackMosse { backend := .mosse, reid := { embedder := .hsvHist } } none).run
      pixelOps [.init blackFrame ⟨2, 2, 12, 12⟩, .update blackFrame] = some (evs, s) ∧
    2 ≤ (boxRoi blackFrame.image
      ((coreBackend noNano blackMosse).update s.backend blackFrame.image).1.box).width := by
  obtain ⟨⟨evs, s⟩, h⟩ := Option.isSome_iff_exists.mp (run_isSome pixelOps
    (s := create noNano blackMosse { backend := .mosse, reid := { embedder := .hsvHist } } none)
    (fun rc hrc => by cases hrc)
    [.init blackFrame ⟨2, 2, 12, 12⟩, .update blackFrame])
  have hsignal := drift_check_has_signal pixelOps (fun m _ => List.cons_ne_nil _ _)
    (show 10 ≤ (20, 20).1 ∧ 10 ≤ (20, 20).2 by decide) _ s blackFrame ⟨2, 2, 12, 12⟩
    [.update blackFrame] (by simp [SotOp.frameSize, blackFrame]) evs h
  exact ⟨evs, s, h, (hsignal.1 blackFrame rfl).1⟩

end SotTracker

end Ctrk
