import CustosTracker.Library.LeastSquares
import CustosTracker.Sot.Reset

set_option relaxedAutoImplicit false
set_option autoImplicit false

/-!
# What the correlation filter fits

The tracker keeps two spectra and blends every accepted patch into them.  At every frequency the
filter they describe is the one best coefficient for all patches learned since `init`: no other
carries their spectra closer to the spectrum of the Gaussian peak, in the weighted squares and with
the regularizer `kEps`.  The weights are those of an exponential forgetting and sum to one.

## Main definitions

* `Ctrk.MosseOps.Lawful` — sizes of the image routines, multiplication of spectra.
* `Ctrk.MosseTracker.lesson` — the patch an update trains on, if any.
* `Ctrk.MosseTracker.initialLessons`, `lessons` — the patches learned so far, with their weights.
* `Ctrk.MosseTracker.Fits` — the spectra are the sums of a fit to the lessons.

## Main results

* `Ctrk.MosseTracker.Fits.train` — training keeps the fit.
* `Ctrk.MosseTracker.fits_run` — so does every run.
* `Ctrk.MosseTracker.filter_optimal` — the filter of a run is the best fit to its lessons.
-/

namespace Ctrk

open LeastSquares

variable {R : Type} [Scalar R]

/-- A square image. -/
def Image.IsSquare {P : Type} (m : Image P) (n : ℕ) : Prop := m.cols = n ∧ m.rows = n

/-- The image routines keep or make the sizes they should, and spectra multiply per element. -/
structure MosseOps.Lawful (ops : MosseOps R) : Prop where
  resize : ∀ m n, (ops.cv.resize m n).IsSquare n
  cvtColor : ∀ m n, m.IsSquare n → (ops.cvtColor m).IsSquare n
  rotate : ∀ m angle n, m.IsSquare n → (ops.rotate m angle).IsSquare n
  dft : ∀ m n, m.IsSquare n → (ops.dft m).IsSquare n
  mulSpectrums : ∀ a b n, a.IsSquare n → b.IsSquare n → (ops.mulSpectrums a b true).IsSquare n
  mulSpectrums_px : ∀ a b n, a.IsSquare n → b.IsSquare n → ∀ x y, x < n → y < n →
    (ops.mulSpectrums a b true).px x y = mul (a.px x y) (conj (b.px x y))

/-- The shared crop has the size of the model. -/
theorem isSquare_cropSubwindow {ops : CvOps R} (hops : ∀ m n, (ops.resize m n).IsSquare n)
    (img : Image Bgr) (cx cy : R) (sz : ℤ) (n : ℕ) (pad : Bgr) :
    (cropSubwindow ops img cx cy sz n pad).IsSquare n := by
  simp only [cropSubwindow]
  split_ifs with hsz hpad
  · -- the padded window: pasting the visible part keeps its size
    simp only [CropGeometry.window]
    split_ifs
    · exact ⟨by simp [Image.paste, Image.setTo, Image.create, hsz],
        by simp [Image.paste, Image.setTo, Image.create, hsz]⟩
    · exact ⟨by simp [Image.setTo, Image.create, hsz], by simp [Image.setTo, Image.create, hsz]⟩
  · exact ⟨by simp [Image.sub, hsz], by simp [Image.sub, hsz]⟩
  · exact hops _ n
  · exact hops _ n

namespace MosseTracker

variable (ops : MosseOps R)

/-- The best of the three scales of a frame. -/
def bestScale (t : MosseTracker R) (image : Image Bgr) : BestScale R :=
  kScales.foldl (t.considerScale ops (t.filter ops) image) ⟨-1, 0, 1, (0, 0)⟩

/-- The patch an update trains on: none when the peak is not credible. -/
def lesson (t : MosseTracker R) (image : Image Bgr) : Option (Image R) :=
  let best := t.bestScale ops image
  let t := t.place best
  if 8 ≤ best.psr then some (t.preprocess ops (t.grabPatch ops image 1)) else none

/-- Learn a patch at a rate: the older ones are forgotten by it. -/
def remember (h : List (R × Image R)) (p : Image R) (lr : R) : List (R × Image R) :=
  h.map (fun q => (q.1 * (1 - lr), q.2)) ++ [(lr, p)]

/-- The state `init` trains: placed on the target, without spectra. -/
def fresh (t : MosseTracker R) (image : Image Bgr) (target : BBox R) : MosseTracker R :=
  { t with
    posX := target.x + target.w * (1 / 2)
    posY := target.y + target.h * (1 / 2)
    szW := target.w
    szH := target.h
    imgSize := (image.cols, image.rows)
    hann := ops.createHanningWindow kSize
    gaussianFft := ops.dft (gauss ops)
    num := ⟨0, 0, fun _ _ => (0, 0)⟩
    den := ⟨0, 0, fun _ _ => (0, 0)⟩ }

/-- The lessons of `init`: the exact patch and its rotations. -/
def initialLessons (t : MosseTracker R) (image : Image Bgr) : List (R × Image R) :=
  let base := t.grabPatch ops image 1
  ([-2, -1, 1, 2] : List ℤ).foldl
    (fun h k => remember h (t.preprocess ops (ops.rotate base ((k : R) * 2))) (1 / 2))
    (remember [] (t.preprocess ops base) 1)

/-- The lessons after a run of updates. -/
def lessons (t : MosseTracker R) (h : List (R × Image R)) : List (Image Bgr) → List (R × Image R)
  | [] => h
  | image :: images =>
    (t.update ops image).2.lessons
      (match t.lesson ops image with
        | none => h
        | some p => remember h p kLr) images

/-- Execute a run of updates. -/
def run (t : MosseTracker R) (images : List (Image Bgr)) : MosseTracker R :=
  images.foldl (fun t image => (t.update ops image).2) t

/-- The lessons at a frequency, as samples that should meet the spectrum of the peak. -/
def samplesAt (h : List (R × Image R)) (x y : ℕ) : List (Sample R) :=
  h.map fun p => ⟨p.1, (ops.dft p.2).px x y, (ops.dft (gauss ops)).px x y⟩

theorem samplesAt_remember (h : List (R × Image R)) (p : Image R) (lr : R) (x y : ℕ) :
    samplesAt ops (remember h p lr) x y =
      learn lr (samplesAt ops h x y) ((ops.dft p).px x y) ((ops.dft (gauss ops)).px x y) := by
  simp [samplesAt, remember, learn, forget, Function.comp_def]

theorem map_weight_samplesAt (h : List (R × Image R)) (x y : ℕ) :
    (samplesAt ops h x y).map Sample.weight = h.map Prod.fst := by
  simp [samplesAt, Function.comp_def]

theorem map_fst_remember (h : List (R × Image R)) (p : Image R) (lr : R) :
    (remember h p lr).map Prod.fst = reweigh lr (h.map Prod.fst) := by
  simp [remember, reweigh, Function.comp_def]

/-- An update places the box and learns its lesson. -/
theorem update_snd (t : MosseTracker R) (image : Image Bgr) :
    (t.update ops image).2 = match t.lesson ops image with
      | none => t.place (t.bestScale ops image)
      | some p => (t.place (t.bestScale ops image)).train ops p kLr := by
  by_cases hbest : 8 ≤ (t.bestScale ops image).psr
  · have hlesson : t.lesson ops image = some ((t.place (t.bestScale ops image)).preprocess ops
        ((t.place (t.bestScale ops image)).grabPatch ops image 1)) := if_pos hbest
    rw [hlesson]
    exact if_pos hbest
  · have hlesson : t.lesson ops image = none := if_neg hbest
    rw [hlesson]
    exact if_neg hbest

/-- Training changes neither the window nor the box. -/
theorem preprocess_train (t : MosseTracker R) (p : Image R) (lr : R) (m : Image Bgr) :
    (t.train ops p lr).preprocess ops m = t.preprocess ops m := by
  simp only [train]
  split_ifs <;> rfl

/-! ## The fit -/

/-- The spectra are the sums of a fit to the lessons. -/
structure Fits (t : MosseTracker R) (h : List (R × Image R)) : Prop where
  gaussianFft : t.gaussianFft = ops.dft (gauss ops)
  num : t.num.IsSquare kSize
  den : t.den.IsSquare kSize
  num_px : ∀ x y, x < kSize → y < kSize → t.num.px x y = cross (samplesAt ops h x y)
  den_px : ∀ x y, x < kSize → y < kSize → t.den.px x y = (power (samplesAt ops h x y), 0)
  weights : Convex (h.map Prod.fst)

section Fit

variable {ops} (hops : ops.Lawful) {t : MosseTracker R} {h : List (R × Image R)} {p : Image R}

/-- Moving the box does not touch the fit. -/
theorem Fits.place (ht : t.Fits ops h) (best : BestScale R) : (t.place best).Fits ops h :=
  ⟨ht.gaussianFft, ht.num, ht.den, ht.num_px, ht.den_px, ht.weights⟩

include hops

/-- A processed patch has the size of the filter. -/
theorem isSquare_preprocess (t : MosseTracker R) {m : Image Bgr} (hm : m.IsSquare kSize) :
    (t.preprocess ops m).IsSquare kSize :=
  hops.cvtColor m kSize hm

theorem isSquare_grabPatch (t : MosseTracker R) (image : Image Bgr) (scale : R) :
    (t.grabPatch ops image scale).IsSquare kSize :=
  isSquare_cropSubwindow hops.resize ..

/-- A lesson has the size of the filter. -/
theorem isSquare_lesson {image : Image Bgr} (hp : t.lesson ops image = some p) :
    p.IsSquare kSize := by
  simp only [lesson, Option.ite_none_right_eq_some, Option.some.injEq] at hp
  obtain ⟨-, rfl⟩ := hp
  exact isSquare_preprocess hops _ (isSquare_grabPatch hops _ image 1)

variable [LawfulScalar R]

omit [LawfulScalar R] in
/-- The spectrum of the peak has the size of the filter. -/
theorem isSquare_dft_gauss : (ops.dft (gauss ops)).IsSquare kSize := hops.dft _ _ ⟨rfl, rfl⟩

/-- The first training fits its one patch. -/
theorem fits_train_fresh (hG : t.gaussianFft = ops.dft (gauss ops)) (hnum : t.num.isEmpty)
    (hp : p.IsSquare kSize) : (t.train ops p 1).Fits ops (remember [] p 1) := by
  have hF : (ops.dft p).IsSquare kSize := hops.dft p kSize hp
  have hsquare := isSquare_dft_gauss hops
  simp only [train, hnum, if_true, hG]
  refine ⟨rfl, hops.mulSpectrums _ _ _ hsquare hF, hops.mulSpectrums _ _ _ hF hF, ?_, ?_, ?_⟩
  · intro x y hx hy
    rw [samplesAt_remember, cross_learn, hops.mulSpectrums_px _ _ _ hsquare hF x y hx hy]
    simp [samplesAt, cross]
  · intro x y hx hy
    rw [samplesAt_remember, power_learn, hops.mulSpectrums_px _ _ _ hF hF x y hx hy,
      mul_conj_self]
    simp [samplesAt, power]
  · rw [map_fst_remember]
    simpa [reweigh] using (convex_singleton : Convex [(1 : R)])

/-- Training keeps the fit: the new lesson is blended into both sums. -/
theorem Fits.train (ht : t.Fits ops h) (hp : p.IsSquare kSize) {lr : R} (h0 : 0 ≤ lr)
    (h1 : lr ≤ 1) : (t.train ops p lr).Fits ops (remember h p lr) := by
  have hF : (ops.dft p).IsSquare kSize := hops.dft p kSize hp
  have hnonempty : t.num.isEmpty = false := by simp [Image.isEmpty, ht.num.1, ht.num.2, kSize]
  have hsquare := isSquare_dft_gauss hops
  simp only [MosseTracker.train, hnonempty, Bool.false_eq_true, if_false, ht.gaussianFft]
  refine ⟨rfl, ht.num, ht.den, ?_, ?_, ?_⟩
  · intro x y hx hy
    rw [samplesAt_remember, cross_learn, ← ht.num_px x y hx hy]
    simp only [blend, hops.mulSpectrums_px _ _ _ hsquare hF x y hx hy]
  · intro x y hx hy
    rw [samplesAt_remember, power_learn]
    simp only [blend, hops.mulSpectrums_px _ _ _ hF hF x y hx hy, mul_conj_self,
      ht.den_px x y hx hy]
    simp
  · rw [map_fst_remember]
    exact ht.weights.reweigh h0 h1

/-- Training on rotations of a patch keeps the fit; each is processed as by the state before. -/
theorem Fits.foldl_rotate {s : MosseTracker R} (hs : s.Fits ops h)
    (hsame : ∀ m, s.preprocess ops m = t.preprocess ops m) {base : Image Bgr}
    (hbase : base.IsSquare kSize) (ks : List ℤ) :
    (ks.foldl (fun t (k : ℤ) =>
        t.train ops (t.preprocess ops (ops.rotate base ((k : R) * 2))) (1 / 2)) s).Fits ops
      (ks.foldl (fun h (k : ℤ) =>
        remember h (t.preprocess ops (ops.rotate base ((k : R) * 2))) (1 / 2)) h) := by
  induction ks generalizing s h with
  | nil => exact hs
  | cons k ks ih =>
    have hp : (s.preprocess ops (ops.rotate base ((k : R) * 2))).IsSquare kSize :=
      isSquare_preprocess hops s (hops.rotate base _ _ hbase)
    simp only [List.foldl_cons]
    rw [← hsame]
    exact ih (hs.train hops hp (by norm_num) (by norm_num))
      fun m => (preprocess_train ops s _ _ m).trans (hsame m)

/-- A started tracker fits the lessons of `init`. -/
theorem fits_init (t : MosseTracker R) (image : Image Bgr) (target : BBox R) :
    (t.init ops image target).Fits ops
      ((t.fresh ops image target).initialLessons ops image) := by
  have hbase := isSquare_grabPatch hops (t.fresh ops image target) image 1
  exact (fits_train_fresh hops rfl rfl (isSquare_preprocess hops _ hbase)).foldl_rotate hops
    (fun m => preprocess_train ops _ _ _ m) hbase _

/-- An update keeps the fit. -/
theorem Fits.update (ht : t.Fits ops h) (image : Image Bgr) :
    (t.update ops image).2.Fits ops
      (match t.lesson ops image with
        | none => h
        | some p => remember h p kLr) := by
  rw [update_snd]
  cases hlesson : t.lesson ops image with
  | none => exact ht.place _
  | some p =>
    exact (ht.place _).train hops (isSquare_lesson hops hlesson) (by norm_num [kLr])
      (by norm_num [kLr])

/-- Every run keeps the fit. -/
theorem fits_run (ht : t.Fits ops h) (images : List (Image Bgr)) :
    (t.run ops images).Fits ops (t.lessons ops h images) := by
  induction images generalizing t h with
  | nil => exact ht
  | cons image images ih => exact ih (ht.update hops image)

/-- **The filter of a run is the best fit to its lessons.** After `init` on any target and any
updates, the weights of the learned patches form a convex combination, and at every frequency the
regularized denominator is real and positive, and the numerator over it has the least regularized
weighted squared distance between the response to a learned patch and the Gaussian peak: any other
coefficient loses the denominator times its squared distance from that quotient.

**Proof sketch.** `init` starts the sums of the filter with the weighted sums of its first
patches, and `update` blends one more patch into both, which reweighs the lessons by the same
rate; so the sums are those of all lessons, by induction on the updates.  At each frequency the
regularized cost is a square around the quotient of the sums. -/
theorem filter_optimal (t : MosseTracker R) (image : Image Bgr) (target : BBox R)
    (images : List (Image Bgr)) :
    let t₀ := t.init ops image target
    let t' := t₀.run ops images
    let h := t₀.lessons ops ((t.fresh ops image target).initialLessons ops image) images
    (∀ p ∈ h, 0 ≤ p.1) ∧ (h.map Prod.fst).sum = 1 ∧
    ∀ x y, x < kSize → y < kSize →
      let s := samplesAt ops h x y
      let d := (t'.den.px x y).1 + kEps
      let c := ((t'.num.px x y).1 / d, (t'.num.px x y).2 / d)
      0 < d ∧ (t'.den.px x y).2 = 0 ∧
      ∀ c', cost kEps s c' = cost kEps s c + d * normSq (c' - c) := by
  intro t₀ t' h
  have hfit : t'.Fits ops h := fits_run hops (fits_init hops t image target) images
  refine ⟨fun p hp => hfit.weights.nonneg p.1 (List.mem_map_of_mem hp), hfit.weights.sum, ?_⟩
  intro x y hx hy s d c
  have hweights : Convex (s.map Sample.weight) := by
    rw [map_weight_samplesAt]
    exact hfit.weights
  have hd : d = power s + kEps := by
    change (t'.den.px x y).1 + kEps = _
    rw [hfit.den_px x y hx hy]
  have hc : c = best kEps s := by
    change ((t'.num.px x y).1 / d, (t'.num.px x y).2 / d) = _
    rw [hd, hfit.num_px x y hx hy]
    rfl
  have hpos : 0 < power s + kEps :=
    add_pos_of_nonneg_of_pos hweights.power_nonneg (by norm_num [kEps])
  refine ⟨hd ▸ hpos, by rw [hfit.den_px x y hx hy], fun c' => ?_⟩
  rw [hc, hd]
  exact cost_eq hpos.ne' c'

end Fit

/-- The routines on black frames keep sizes and multiply spectra. -/
theorem lawful_blackMosse : SotTracker.blackMosse.Lawful where
  resize _ _ := ⟨rfl, rfl⟩
  cvtColor _ _ h := h
  rotate _ _ _ h := h
  dft _ _ h := h
  mulSpectrums _ _ _ h _ := h
  mulSpectrums_px a b n _ _ x y _ _ := by
    simp [SotTracker.blackMosse, mul, conj]

/-- A tracker that meets no credible peak still fits its five first lessons. -/
theorem filter_optimal_black :
    let t : MosseTracker ℝ := .new {}
    let ops := SotTracker.blackMosse
    let black := (blueFrame (R := ℝ) 0).image
    (((t.init ops black ⟨2, 2, 4, 4⟩).lessons ops
      ((t.fresh ops black ⟨2, 2, 4, 4⟩).initialLessons ops black) [black]).map Prod.fst).sum = 1 :=
  (filter_optimal lawful_blackMosse (.new {}) (blueFrame (R := ℝ) 0).image ⟨2, 2, 4, 4⟩
    [(blueFrame (R := ℝ) 0).image]).2.1

end MosseTracker

end Ctrk
