import CustosTracker.Common.Subwindow
import CustosTracker.Tbd.Optimality
import CustosTracker.Tbd.Schedule

set_option relaxedAutoImplicit false
set_option autoImplicit false

/-!
# The appearance descriptors of the tracks

With an appearance weight, every detection of a detect frame gets the hue-saturation histogram of
its box, and every match blends it into the descriptor of the track.  Over every run a descriptor
is missing or a unit vector with nonnegative entries, so the cosine of the association is a number
between `0` and `1`, the fused cost of a pair inside the gate stays between `0` and `1`, and a
match never turns a descriptor away from the detection it blends in.

## Main definitions

* `Ctrk.UnitDescriptor`, `Ctrk.Described` — a proper descriptor; a descriptor that may be missing.
* `Ctrk.Call.Described` — the detections of a call are described.

## Main results

* `Ctrk.UnitDescriptor.blend` — a blend of proper descriptors is proper and no farther from the new.
* `Ctrk.ByteTracker.AllDescribed.step` — every call keeps the descriptors proper.
* `Ctrk.MultiTracker.descriptors` — over every run of the facade.
-/

namespace Ctrk

variable {R : Type} [Scalar R]

/-! ## Dot products -/

theorem dot_cons (x y : R) (a b : List R) : dot (x :: a) (y :: b) = x * y + dot a b := by
  simp [dot]

theorem dot_comm (a b : List R) : dot a b = dot b a := by
  rw [dot, dot, List.zipWith_comm]
  simp only [mul_comm]

/-- The entrywise average of two descriptors. -/
def mix (e : R) (a b : List R) : List R := List.zipWith (fun x y => e * x + (1 - e) * y) a b

/-- Averaging is linear in the dot product. -/
theorem dot_mix (e : R) {a b : List R} (h : a.length = b.length) (c : List R) :
    dot (mix e a b) c = e * dot a c + (1 - e) * dot b c := by
  induction a generalizing b c with
  | nil =>
    obtain rfl := List.length_eq_zero_iff.mp h.symm
    simp [mix, dot]
  | cons x a ih =>
    cases b with
    | nil => simp at h
    | cons y b =>
      cases c with
      | nil => simp [dot]
      | cons z c =>
        have htail := ih (Nat.succ.inj h) c
        rw [mix] at htail ⊢
        rw [List.zipWith_cons_cons, dot_cons, dot_cons, dot_cons, htail]
        ring

theorem dot_map_div (r : R) (a b : List R) : dot (a.map (· / r)) b = dot a b / r := by
  induction a generalizing b with
  | nil => simp [dot]
  | cons x a ih =>
    cases b with
    | nil => simp [dot]
    | cons y b =>
      rw [List.map_cons, dot_cons, dot_cons, ih]
      ring

/-! ## Proper descriptors -/

/-- A unit vector of `n` nonnegative entries. -/
structure UnitDescriptor (n : ℕ) (v : List R) : Prop where
  length_eq : v.length = n
  nonneg : ∀ x ∈ v, 0 ≤ x
  dot_self : dot v v = 1

/-- A descriptor is missing or proper. -/
def Described (n : ℕ) (v : List R) : Prop := v = [] ∨ UnitDescriptor n v

section Blend

variable [LawfulScalar R] {n : ℕ} {a b : List R}

theorem dot_nonneg (ha : ∀ x ∈ a, 0 ≤ x) (hb : ∀ x ∈ b, 0 ≤ x) : 0 ≤ dot a b := by
  induction a generalizing b with
  | nil => simp [dot]
  | cons x a ih =>
    cases b with
    | nil => simp [dot]
    | cons y b =>
      rw [dot_cons]
      exact add_nonneg (mul_nonneg (ha x List.mem_cons_self) (hb y List.mem_cons_self))
        (ih (fun x hx => ha x (List.mem_cons_of_mem _ hx)) fun x hx =>
          hb x (List.mem_cons_of_mem _ hx))

theorem UnitDescriptor.ne_nil (ha : UnitDescriptor n a) : a ≠ [] := by
  rintro rfl
  exact zero_ne_one ha.dot_self

/-- The dot product of proper descriptors is between `0` and `1`. -/
theorem UnitDescriptor.dot_mem (ha : UnitDescriptor n a) (hb : UnitDescriptor n b) :
    0 ≤ dot a b ∧ dot a b ≤ 1 := by
  have hnonneg := dot_nonneg ha.nonneg hb.nonneg
  have hsq := dot_sq_le (ha.length_eq.trans hb.length_eq.symm)
  rw [ha.dot_self, hb.dot_self, one_mul] at hsq
  exact ⟨hnonneg, by nlinarith⟩

/-- The cosine of proper descriptors is their dot product. -/
theorem UnitDescriptor.cosine_eq (ha : UnitDescriptor n a) (hb : UnitDescriptor n b) :
    cosineSimilarity a b = dot a b := by
  have hroot : Scalar.sqrt (1 : R) = 1 := by
    have hnonneg := LawfulScalar.sqrt_nonneg (1 : R)
    have hsq := LawfulScalar.mul_self_sqrt (1 : R) zero_le_one
    nlinarith
  have hsize : ¬(a.isEmpty ∨ a.length ≠ b.length) := by
    simp [ha.ne_nil, ha.length_eq, hb.length_eq]
  simp only [cosineSimilarity, if_neg hsize, ha.dot_self, hb.dot_self, hroot, mul_one, zero_lt_one,
    if_true, div_one]

/-- The cosine of descriptors that may be missing is between `0` and `1`. -/
theorem Described.cosine_mem (ha : Described n a) (hb : Described n b) :
    0 ≤ cosineSimilarity a b ∧ cosineSimilarity a b ≤ 1 := by
  have hmissing (hlen : a.isEmpty ∨ a.length ≠ b.length) :
      0 ≤ cosineSimilarity a b ∧ cosineSimilarity a b ≤ 1 := by
    rw [cosineSimilarity, if_pos hlen]
    exact ⟨le_rfl, zero_le_one⟩
  rcases ha with rfl | ha
  · exact hmissing (Or.inl rfl)
  · rcases hb with rfl | hb
    · exact hmissing (Or.inr (mt List.length_eq_zero_iff.mp ha.ne_nil))
    · rw [ha.cosine_eq hb]
      exact ha.dot_mem hb

/-- A blend of proper descriptors is proper, and at least as similar to the new one as the old
one was.

**Proof sketch.** With cosine `c` the average has the square
`e² + 2 e (1 - e) c + (1 - e)²`, which is positive and at most `1`.  So the norm is positive, and
dividing by it only increases the cosine `e c + (1 - e) ≥ c`. -/
theorem UnitDescriptor.blend (ha : UnitDescriptor n a) (hb : UnitDescriptor n b) {e : R}
    (h0 : 0 ≤ e) (h1 : e ≤ 1) :
    UnitDescriptor n (blendEmbedding e a b) ∧ dot a b ≤ dot (blendEmbedding e a b) b := by
  have hlen : a.length = b.length := ha.length_eq.trans hb.length_eq.symm
  obtain ⟨hc0, hc1⟩ := ha.dot_mem hb
  have hrest : 0 ≤ 1 - e := sub_nonneg.mpr h1
  have hself : dot (mix e a b) (mix e a b) = e * e + 2 * (e * (1 - e) * dot a b) +
      (1 - e) * (1 - e) := by
    rw [dot_mix e hlen, dot_comm a, dot_comm b, dot_mix e hlen, dot_mix e hlen, ha.dot_self,
      hb.dot_self, dot_comm b a]
    ring
  have hcross : 0 ≤ e * (1 - e) * dot a b := mul_nonneg (mul_nonneg h0 hrest) hc0
  have hpos : 0 < dot (mix e a b) (mix e a b) := by
    rw [hself]
    nlinarith [sq_nonneg (2 * e - 1)]
  have hle : dot (mix e a b) (mix e a b) ≤ 1 := by
    rw [hself]
    nlinarith [mul_le_mul_of_nonneg_left hc1 (mul_nonneg h0 hrest)]
  set norm := Scalar.sqrt (dot (mix e a b) (mix e a b)) with hnorm
  have hnormsq : norm * norm = dot (mix e a b) (mix e a b) :=
    LawfulScalar.mul_self_sqrt _ hpos.le
  have hnormpos : 0 < norm := sqrt_pos hpos
  have hnormle : norm ≤ 1 := by
    by_contra hgt
    nlinarith
  have hblend : blendEmbedding e a b = (mix e a b).map (· / norm) := by
    rw [blendEmbedding, if_neg (by simpa using hb.ne_nil), if_neg (not_not_intro hlen)]
    exact if_pos hnormpos
  rw [hblend]
  refine ⟨⟨?_, ?_, ?_⟩, ?_⟩
  · rw [List.length_map, mix, List.length_zipWith, ha.length_eq, hb.length_eq, min_self]
  · intro x hx
    obtain ⟨y, hy, rfl⟩ := List.mem_map.mp hx
    obtain ⟨u, hu, v, hv, rfl⟩ : ∃ u ∈ a, ∃ v ∈ b, e * u + (1 - e) * v = y := by
      obtain ⟨i, hi⟩ := List.mem_iff_getElem?.mp hy
      obtain ⟨u, v, hu, hv, huv⟩ := List.getElem?_zipWith_eq_some.mp hi
      exact ⟨u, List.mem_of_getElem? hu, v, List.mem_of_getElem? hv, huv⟩
    have hsum := add_nonneg (mul_nonneg h0 (ha.nonneg u hu)) (mul_nonneg hrest (hb.nonneg v hv))
    exact div_nonneg hsum hnormpos.le
  · rw [dot_map_div, dot_comm, dot_map_div, ← hnormsq, div_div, div_self (by positivity)]
  · rw [dot_map_div, dot_mix e hlen, hb.dot_self, le_div_iff₀ hnormpos]
    calc dot a b * norm ≤ dot a b * 1 := mul_le_mul_of_nonneg_left hnormle hc0
      _ ≤ e * dot a b + (1 - e) * 1 := by nlinarith

/-- All mass in the first bin. -/
theorem unitDescriptor_first (k : ℕ) : UnitDescriptor (k + 1) ((1 : R) :: List.replicate k 0) where
  length_eq := by simp
  nonneg := by
    intro x hx
    rcases List.mem_cons.mp hx with rfl | hx
    · exact zero_le_one
    · exact (List.eq_of_mem_replicate hx).ge
  dot_self := by simp [dot]

/-- Blending keeps a descriptor missing or proper. -/
theorem Described.blend (ha : Described n a) (hb : Described n b) {e : R} (h0 : 0 ≤ e)
    (h1 : e ≤ 1) : Described n (blendEmbedding e a b) := by
  rcases hb with rfl | hb
  · exact ha
  · rcases ha with rfl | ha
    · have hsize : ([] : List R).length ≠ b.length := (List.length_pos_iff.mpr hb.ne_nil).ne
      have hnew : blendEmbedding e [] b = b := by
        rw [blendEmbedding, if_neg (by simpa using hb.ne_nil), if_pos hsize]
      rw [hnew]
      exact Or.inr hb
    · exact Or.inr (ha.blend hb h0 h1).1

end Blend

/-! ## Runs -/

/-- The detections of a call are described. -/
def Call.Described (n : ℕ) : Call R → Prop
  | .update _ dets _ _ => ∀ d ∈ dets, Ctrk.Described n d.embedding
  | .coast _ _ => True

namespace ByteTracker

/-- The stored descriptors are missing or proper. -/
def AllDescribed (n : ℕ) (s : ByteTracker R) : Prop := ∀ t ∈ s.tracks, Described n t.embedding

@[simp] theorem missTrack_embedding (t : STrack R) : (missTrack t).embedding = t.embedding := by
  unfold missTrack
  split_ifs <;> rfl

section Step

variable [LawfulScalar R] {n : ℕ} {s : ByteTracker R}

/-- A call keeps the stored descriptors missing or proper: only a match touches one.

**Proof sketch.** A carried track keeps its descriptor in a coast and in a miss; in a match it
blends in that of a detection, and blending two proper descriptors gives a proper one.  A spawned
track has none. -/
theorem AllDescribed.step (hs : s.AllDescribed n) (h0 : 0 ≤ s.cfg.embeddingEma)
    (h1 : s.cfg.embeddingEma ≤ 1) {c : Call R} (hc : c.Described n) :
    (s.step c).2.AllDescribed n := by
  intro u hu
  obtain ⟨k, hk⟩ := List.mem_iff_getElem?.mp hu
  rcases s.carries_or_spawns hk with ⟨i, t, -, ht, rfl⟩ | hspawns
  · have hold := hs t (List.mem_of_getElem? ht)
    cases c with
    | coast dt warp => exact hold
    | update m dets dt warp =>
      change Described n (settle s.cfg (s.coastedDt + dt) dets (s.fate m dets dt warp i)
        (predictTrack dt warp t)).embedding
      cases hfate : s.fate m dets dt warp i with
      | none =>
        rw [settle, missTrack_embedding]
        exact hold
      | some j =>
        have hj : j < dets.length :=
          matched_snd_lt m s.cfg s.coastedDt (s.predicted dt warp) dets
            (Associations.mem_of_fate_eq_some hfate)
        have hdet : dets.getD j default ∈ dets := by
          rw [List.getD_eq_getElem _ _ hj]
          exact List.getElem_mem hj
        exact hold.blend (hc _ hdet) h0 h1
  · obtain ⟨id, det, hspawn⟩ := s.getElem?_step_of_spawns hspawns
    rw [hk] at hspawn
    rw [Option.some.inj hspawn]
    exact Or.inl rfl

end Step

end ByteTracker

namespace MultiTracker

section Run

variable [LawfulScalar R] {n : ℕ} {ops : TbdOps R}

omit [LawfulScalar R] in
/-- The histograms of a detect frame are missing or proper. -/
theorem described_detect
    (hhist : ∀ img, 2 ≤ img.cols → 2 ≤ img.rows → UnitDescriptor n (ops.hsvHist img))
    {s : MultiTracker R} (hw : 0 < s.cfg.assoc.appearanceWeight) (frame : Frame R) :
    ∀ d ∈ s.detect ops frame, Described n d.embedding := by
  intro d hd
  rw [detect, if_pos hw] at hd
  obtain ⟨det, -, rfl⟩ := List.mem_map.mp hd
  change Described n (regionHist ops.hsvHist frame.image det.box)
  simp only [regionHist]
  split_ifs with hthin
  · exact Or.inl rfl
  · rw [not_or, not_lt, not_lt] at hthin
    exact Or.inr (hhist _ (by simp only [Image.sub]; omega) (by simp only [Image.sub]; omega))

omit [LawfulScalar R] in
/-- The call a frame makes is described. -/
theorem described_call
    (hhist : ∀ img, 2 ≤ img.cols → 2 ≤ img.rows → UnitDescriptor n (ops.hsvHist img))
    {s : MultiTracker R} (hw : 0 < s.cfg.assoc.appearanceWeight) (frame : Frame R) :
    (s.call ops frame).Described n := by
  unfold call
  split_ifs
  · trivial
  · exact described_detect hhist hw frame

/-- The stored descriptors are missing or proper after every run. -/
theorem allDescribed_run (cfg : TbdConfig R) (hw : 0 < cfg.assoc.appearanceWeight)
    (h0 : 0 ≤ cfg.assoc.embeddingEma) (h1 : cfg.assoc.embeddingEma ≤ 1)
    (hhist : ∀ img, 2 ≤ img.cols → 2 ≤ img.rows → UnitDescriptor n (ops.hsvHist img))
    (frames : List (Frame R)) : ((new cfg).run ops frames).tracker.AllDescribed n := by
  induction frames using List.reverseRecOn with
  | nil => exact fun _ ht => absurd ht List.not_mem_nil
  | append_singleton frames frame ih =>
    have hcfg : ((new cfg).run ops frames).cfg = cfg := run_cfg ops (new cfg) frames
    have htracker : ((new cfg).run ops frames).tracker.cfg = cfg.assoc := by
      rw [run_tracker]
      exact ByteTracker.run_cfg _ _
    rw [run_concat, (update_eq_step ops _ frame).2]
    exact ih.step (htracker ▸ h0) (htracker ▸ h1) (described_call hhist (hcfg.symm ▸ hw) frame)

/-- **Descriptors are unit vectors.** Let a weight and an average between `0` and `1` be configured
and the histograms be normalized.  After every run of the facade the stored descriptors and those
of the next detections are missing or nonnegative unit vectors, their cosines are between `0` and
`1` and so are the fused costs inside the gate, and blending a detection into a descriptor gives a
unit vector that is at least as similar to the detection.

**Proof sketch.** The stored descriptors are proper by induction on the run, those of the next
detections by the normalized histograms.  The cosine of two nonnegative unit vectors is their
inner product, which is between `0` and `1`, so a fused cost averages two numbers of that
interval. -/
theorem descriptors (ops : TbdOps R) (cfg : TbdConfig R)
    (hw : 0 < cfg.assoc.appearanceWeight) (hw1 : cfg.assoc.appearanceWeight ≤ 1)
    (h0 : 0 ≤ cfg.assoc.embeddingEma) (h1 : cfg.assoc.embeddingEma ≤ 1)
    (hhist : ∀ img, 2 ≤ img.cols → 2 ≤ img.rows → UnitDescriptor n (ops.hsvHist img))
    (frames : List (Frame R)) (frame : Frame R) :
    let s := (new cfg).run ops frames
    let embs := s.tracker.tracks.map STrack.embedding
    (∀ v ∈ embs, Described n v) ∧
    ∀ d ∈ s.detect ops frame, Described n d.embedding ∧
      (∀ v ∈ embs, 0 ≤ cosineSimilarity v d.embedding ∧ cosineSimilarity v d.embedding ≤ 1 ∧
        (v ≠ [] → d.embedding ≠ [] →
          UnitDescriptor n (blendEmbedding cfg.assoc.embeddingEma v d.embedding) ∧
          cosineSimilarity v d.embedding ≤
            cosineSimilarity (blendEmbedding cfg.assoc.embeddingEma v d.embedding) d.embedding)) ∧
      ∀ i x, 0 ≤ x → x ≤ 1 →
        0 ≤ fusedCost (some embs) cfg.assoc.appearanceWeight i d x ∧
        fusedCost (some embs) cfg.assoc.appearanceWeight i d x ≤ 1 := by
  intro s embs
  have hembs : ∀ v ∈ embs, Described n v := by
    intro v hv
    obtain ⟨t, ht, rfl⟩ := List.mem_map.mp hv
    exact allDescribed_run cfg hw h0 h1 hhist frames t ht
  have hcfg : s.cfg = cfg := run_cfg ops (new cfg) frames
  refine ⟨hembs, fun d hd => ?_⟩
  have hdet := described_detect hhist (hcfg.symm ▸ hw) frame d hd
  refine ⟨hdet, fun v hv => ?_, fun i x hx0 hx1 => ?_⟩
  · obtain ⟨hcos0, hcos1⟩ := (hembs v hv).cosine_mem hdet
    refine ⟨hcos0, hcos1, fun hne hne' => ?_⟩
    have hunit := (hembs v hv).resolve_left hne
    have hunit' := hdet.resolve_left hne'
    obtain ⟨hblend, hcloser⟩ := hunit.blend hunit' h0 h1
    rw [hunit.cosine_eq hunit', hblend.cosine_eq hunit']
    exact ⟨hblend, hcloser⟩
  · have hemb : Described n (embs.getD i []) := by
      rw [List.getD_eq_getElem?_getD]
      cases hi : embs[i]? with
      | none => exact Or.inl rfl
      | some v => exact hembs v (List.mem_of_getElem? hi)
    obtain ⟨hcos0, hcos1⟩ := hemb.cosine_mem hdet
    simp only [fusedCost]
    split_ifs
    · have hgeom := mul_nonneg (sub_nonneg.mpr hw1) (sub_nonneg.mpr hx1)
      have happ := mul_nonneg hw.le (sub_nonneg.mpr hcos1)
      have hgeom' := mul_nonneg (sub_nonneg.mpr hw1) hx0
      have happ' := mul_nonneg hw.le hcos0
      constructor <;> nlinarith
    · exact ⟨sub_nonneg.mpr hx1, by linarith⟩

end Run

/-- Image routines on black frames: the histogram of black has all its mass in the first bin. -/
noncomputable def blackHistOps : TbdOps ℝ where
  flow :=
    { cvtColor := fun m => ⟨m.cols, m.rows, fun _ _ => 0⟩
      resize := fun m _ => m
      goodFeaturesToTrack := fun _ _ _ _ _ => []
      calcOpticalFlowPyrLK := fun _ _ _ => []
      estimateAffinePartial2D := fun _ _ => none }
  hsvHist _ := 1 :: List.replicate 959 0
  matcher := iouMatcher

/-- A person on a black frame. -/
noncomputable def blackPerson (tNs : ℤ) : Frame ℝ :=
  ⟨⟨64, 48, fun _ _ => ⟨0, 0, 0⟩⟩, tNs, [⟨⟨4, 4, 8, 16⟩, 9 / 10, 0, []⟩]⟩

theorem descriptors_black :
    ((new (R := ℝ) { assoc := { appearanceWeight := 1 / 2 } }).run blackHistOps
      [blackPerson 0, blackPerson 33000000]).tracker.AllDescribed 960 := by
  intro t ht
  exact (descriptors blackHistOps { assoc := { appearanceWeight := 1 / 2 } } (by norm_num)
    (by norm_num) (by norm_num) (by norm_num) (fun _ _ _ => unitDescriptor_first 959)
    [blackPerson 0, blackPerson 33000000] (blackPerson 66000000)).1 _ (List.mem_map_of_mem ht)

end MultiTracker

end Ctrk
