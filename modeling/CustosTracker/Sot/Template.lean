import CustosTracker.Library.Cadence
import CustosTracker.Sot.NanoTracker

set_option relaxedAutoImplicit false
set_option autoImplicit false

/-!
# The template of the siamese tracker

`init` freezes the features of the target.  With a refresh interval, a confident frame now and then
blends them with the features of the tracked box, and the head correlates with the blend from then
on.  Refreshes never compound: whatever happened before, the template in use is the frozen one
blended with the one live embedding of the last refreshed frame.

## Main definitions

* `Ctrk.NanoTracker.template` — the template in use.
* `Ctrk.mixTemplate` — a frozen template blended with a live one.
* `Ctrk.Shot`, `Ctrk.NanoTracker.shots` — the frames of a run, and whether each refreshed.

## Main results

* `Ctrk.NanoTracker.update_template` — what one update does to the template.
* `Ctrk.NanoTracker.template_schedule` — when a run refreshes, and what the template is after it.
-/

namespace Ctrk

open Cadence

variable {R : Type} [Scalar R]

/-- A frozen template blended with a live one. -/
def mixTemplate (b : R) (zf zf2 : List R) : List R :=
  (List.range zf.length).map fun i => b * zf.getD i 0 + (1 - b) * zf2.getD i 0

/-- The blending loop writes every entry of the reused vector. -/
theorem modifyAll_mix (b : R) (zf zf2 buffer : List R) :
    Indexed.modifyAll Prod.fst (fun w _ => w.2) (resizeTo zf.length buffer)
      ((List.range zf.length).map fun i => (i, b * zf.getD i 0 + (1 - b) * zf2.getD i 0)) =
        mixTemplate b zf zf2 := by
  have hnd : (((List.range zf.length).map fun i =>
      (i, b * zf.getD i 0 + (1 - b) * zf2.getD i 0)).map Prod.fst).Nodup := by
    rw [List.map_map]
    exact (List.map_id _).symm ▸ List.nodup_range
  apply List.ext_getElem?
  intro i
  rcases Nat.lt_or_ge i zf.length with hi | hi
  · have hmem := List.mem_map_of_mem (f := fun i =>
      (i, b * zf.getD i 0 + (1 - b) * zf2.getD i 0)) (List.mem_range.mpr hi)
    refine (Indexed.getElem?_modifyAll_of_mem Prod.fst _ hnd hmem).trans ?_
    have hlen : i < (resizeTo zf.length buffer).length := by rwa [length_resizeTo]
    rw [List.getElem?_eq_getElem hlen, mixTemplate, List.getElem?_map, List.getElem?_range hi]
    rfl
  · rw [List.getElem?_eq_none (by rwa [Indexed.length_modifyAll, length_resizeTo]),
      List.getElem?_eq_none (by rwa [mixTemplate, List.length_map, List.length_range])]

/-- A frame of a run: what the tracker answered, and whether it refreshed its template. -/
structure Shot (R : Type) where
  image : Image Bgr
  result : SotResult R
  refreshed : Bool

namespace NanoTracker

variable (ops : NanoOps R)

/-- The template the head correlates with. -/
def template (t : NanoTracker R) : List R := if t.zfMix.isEmpty then t.zf else t.zfMix

/-- The head correlates the search window with the template. -/
theorem respond_search (t : NanoTracker R) (image : Image Bgr) :
    (t.search ops image).respond ops =
      ops.head t.template (ops.backboneX (t.search ops image).xBlob) := rfl

/-- Whether an update refreshes the template. -/
def refreshes (t : NanoTracker R) (image : Image Bgr) : Bool :=
  decide (0 < t.cfg.templateUpdateInterval ∧
    t.cfg.templateUpdateInterval ≤ t.sinceRefresh + 1 ∧
    t.cfg.templateRefreshThr ≤ (t.update ops image).1.score)

/-- The frames of a run. -/
def shots (t : NanoTracker R) : List (Image Bgr) → List (Shot R)
  | [] => []
  | image :: images =>
    ⟨image, (t.update ops image).1, t.refreshes ops image⟩ :: (t.update ops image).2.shots images

/-- Execute a run of updates. -/
def run (t : NanoTracker R) (images : List (Image Bgr)) : NanoTracker R :=
  images.foldl (fun t image => (t.update ops image).2) t

theorem run_concat (t : NanoTracker R) (images : List (Image Bgr)) (image : Image Bgr) :
    t.run ops (images ++ [image]) = ((t.run ops images).update ops image).2 := by
  rw [run, List.foldl_append]
  rfl

theorem shots_concat (t : NanoTracker R) (images : List (Image Bgr)) (image : Image Bgr) :
    t.shots ops (images ++ [image]) = t.shots ops images ++
      [⟨image, ((t.run ops images).update ops image).1,
        (t.run ops images).refreshes ops image⟩] := by
  induction images generalizing t with
  | nil => rfl
  | cons first images ih =>
    rw [List.cons_append, shots, ih, shots, List.cons_append]
    rfl

/-- What a refresh does to the template and its counter.

**Proof sketch.** By the three conditions of the code, in their order; only if all hold is the
template written. -/
theorem refresh_template (t : NanoTracker R) (image : Image Bgr) (r : SotResult R) :
    let fires := 0 < t.cfg.templateUpdateInterval ∧
      t.cfg.templateUpdateInterval ≤ t.sinceRefresh + 1 ∧ t.cfg.templateRefreshThr ≤ r.score
    (t.refresh ops image r).cfg = t.cfg ∧ (t.refresh ops image r).zf = t.zf ∧
      (fires → (t.refresh ops image r).zfMix =
        mixTemplate t.cfg.templateBlend t.zf (t.embed ops image r.box) ∧
          (t.refresh ops image r).sinceRefresh = 0) ∧
      (¬fires → (t.refresh ops image r).zfMix = t.zfMix ∧
        (0 < t.cfg.templateUpdateInterval →
          (t.refresh ops image r).sinceRefresh = t.sinceRefresh + 1)) := by
  intro fires
  simp only [refresh]
  split_ifs with hoff hearly hweak
  · have hnot : ¬fires := fun h => absurd h.1 (not_lt.mpr hoff)
    exact ⟨rfl, rfl, fun h => absurd h hnot, fun _ => ⟨rfl, fun h => absurd h (not_lt.mpr hoff)⟩⟩
  · have hnot : ¬fires := fun h => absurd h.2.1 (not_le.mpr hearly)
    exact ⟨rfl, rfl, fun h => absurd h hnot, fun _ => ⟨rfl, fun _ => rfl⟩⟩
  · have hnot : ¬fires := fun h => absurd h.2.2 (not_le.mpr hweak)
    exact ⟨rfl, rfl, fun h => absurd h hnot, fun _ => ⟨rfl, fun _ => rfl⟩⟩
  · have hfires : fires := ⟨not_le.mp hoff, not_lt.mp hearly, not_lt.mp hweak⟩
    exact ⟨rfl, rfl, fun _ => ⟨modifyAll_mix _ _ _ _, rfl⟩, fun h => absurd hfires h⟩

/-- What an update does to the template and its counter. -/
theorem update_template (t : NanoTracker R) (image : Image Bgr) :
    (t.update ops image).2.cfg = t.cfg ∧ (t.update ops image).2.zf = t.zf ∧
      (t.refreshes ops image = true → (t.update ops image).2.zfMix =
        mixTemplate t.cfg.templateBlend t.zf (t.embed ops image (t.update ops image).1.box) ∧
          (t.update ops image).2.sinceRefresh = 0) ∧
      (t.refreshes ops image = false → (t.update ops image).2.zfMix = t.zfMix ∧
        (0 < t.cfg.templateUpdateInterval →
          (t.update ops image).2.sinceRefresh = t.sinceRefresh + 1)) := by
  have h := refresh_template ops ((t.search ops image).place t.scaleZ
    ((t.search ops image).bestCell ops ((t.search ops image).respond ops).1
      ((t.search ops image).respond ops).2)).2 image (t.update ops image).1
  refine ⟨h.1, h.2.1, fun hyes => h.2.2.1 (of_decide_eq_true hyes), fun hno => ?_⟩
  exact h.2.2.2 (of_decide_eq_false hno)

/-! ## Runs -/

/-- A shot may refresh when refreshing is on and the shot is confident. -/
def Ready (cfg : SotConfig R) (x : Shot R) : Prop :=
  0 < cfg.templateUpdateInterval ∧ cfg.templateRefreshThr ≤ x.result.score

/-- The blend after a run that started with the template `zf`. -/
def blended (t₀ : NanoTracker R) (s : List (Shot R)) : List R :=
  match last Shot.refreshed s with
  | none => []
  | some x => mixTemplate t₀.cfg.templateBlend t₀.zf (t₀.embed ops x.image x.result.box)

/-- The invariant of a run from `t₀`. -/
structure Refreshed (t₀ t : NanoTracker R) (s : List (Shot R)) : Prop where
  cfg : t.cfg = t₀.cfg
  zf : t.zf = t₀.zf
  zfMix : t.zfMix = t₀.blended ops s
  sinceRefresh : 0 < t₀.cfg.templateUpdateInterval → t.sinceRefresh = idle Shot.refreshed s
  greedy : Greedy Shot.refreshed t₀.cfg.templateUpdateInterval (Ready t₀.cfg) s

/-- The invariant holds after every run of a tracker that just started.

**Proof sketch.** By induction on the frames: the counter is the number of frames since the last
refresh, so the next frame refreshes exactly when the rule of the schedule says so, and the blend
is always with the frozen template. -/
theorem refreshed_run (t₀ : NanoTracker R) (hmix : t₀.zfMix = []) (hsince : t₀.sinceRefresh = 0)
    (images : List (Image Bgr)) :
    t₀.Refreshed ops (t₀.run ops images) (t₀.shots ops images) := by
  induction images using List.reverseRecOn with
  | nil => exact ⟨rfl, rfl, hmix, fun _ => hsince, fun i x hx => by cases hx⟩
  | append_singleton images image ih =>
    rw [run_concat, shots_concat]
    set t := t₀.run ops images
    set s := t₀.shots ops images
    obtain ⟨hcfg, hzf, hyes, hno⟩ := t.update_template ops image
    have hembed (box : BBox R) : t.embed ops image box = t₀.embed ops image box := by
      simp only [embed, ih.cfg]
    have hmark : t.refreshes ops image = true ↔
        Ready t₀.cfg ⟨image, (t.update ops image).1, t.refreshes ops image⟩ ∧
          t₀.cfg.templateUpdateInterval ≤ idle Shot.refreshed s + 1 := by
      rw [refreshes, decide_eq_true_eq, ih.cfg]
      constructor
      · rintro ⟨hon, hgap, hscore⟩
        exact ⟨⟨hon, hscore⟩, ih.sinceRefresh hon ▸ hgap⟩
      · rintro ⟨⟨hon, hscore⟩, hgap⟩
        exact ⟨hon, (ih.sinceRefresh hon).symm ▸ hgap, hscore⟩
    refine ⟨hcfg.trans ih.cfg, hzf.trans ih.zf, ?_, fun hon => ?_, ih.greedy.concat hmark⟩
    · rw [blended, last_concat]
      cases hfires : t.refreshes ops image with
      | true =>
        rw [(hyes hfires).1, ih.cfg, ih.zf, hembed]
        rfl
      | false =>
        rw [(hno hfires).1, ih.zfMix, blended]
        rfl
    · rw [idle_concat]
      cases hfires : t.refreshes ops image with
      | true => exact (hyes hfires).2
      | false =>
        rw [(hno hfires).2 (ih.cfg.symm ▸ hon), ih.sinceRefresh hon]
        rfl

/-- **The template never drifts away.** After `init` on any target and any updates: a frame
refreshed the template exactly when refreshing is on, its score was at least the threshold, and at
least an interval of frames had passed since the last refresh, or since `init`; so no two refreshes
are closer than the interval.  The frozen template is that of `init`, and the next frame is
correlated with the frozen one until the first refresh and afterwards with its blend with the
embedding of the tracked box in the last refreshed frame, whatever the earlier refreshes were.

**Proof sketch.** The marks of a run follow the greedy rule with the idle time since the last
one, which spaces them.  The frozen template never changes, so the blend in use is that of the
last refreshed frame alone; with a template of no features both are empty. -/
theorem template_schedule (t : NanoTracker R) (image : Image Bgr) (target : BBox R)
    (images : List (Image Bgr)) :
    let t₀ := t.init ops image target
    let s := t₀.shots ops images
    let gap := t.cfg.templateUpdateInterval
    (∀ (i : ℕ) (x : Shot R), s[i]? = some x → (x.refreshed = true ↔
      (0 < gap ∧ t.cfg.templateRefreshThr ≤ x.result.score) ∧
        gap ≤ idle Shot.refreshed (s.take i) + 1)) ∧
    (∀ (i : ℕ) (x : Shot R), s[i]? = some x → x.refreshed = true → gap ≤ i + 1 ∧
      ∀ (j : ℕ) (y : Shot R), j < i → s[j]? = some y → y.refreshed = true → gap ≤ i - j) ∧
    (t₀.run ops images).zf = t₀.zf ∧
    ∀ next, ((t₀.run ops images).search ops next).respond ops =
      ops.head (match last Shot.refreshed s with
        | none => t₀.zf
        | some x => mixTemplate t.cfg.templateBlend t₀.zf (t₀.embed ops x.image x.result.box))
        (ops.backboneX ((t₀.run ops images).search ops next).xBlob) := by
  intro t₀ s gap
  have hrun := t₀.refreshed_run ops rfl rfl images
  refine ⟨hrun.greedy, fun i x hx hmark => hrun.greedy.spacing hx hmark, hrun.zf, fun next => ?_⟩
  rw [respond_search]
  congr 1
  rw [template, hrun.zfMix, hrun.zf, blended]
  cases last Shot.refreshed s with
  | none => rfl
  | some x =>
    -- without features both templates are empty
    split_ifs with hempty
    · have hzf : t₀.zf.length = 0 := by
        simpa [mixTemplate] using hempty
      rw [List.length_eq_zero_iff.mp hzf]
      rfl
    · rfl

end NanoTracker

end Ctrk
