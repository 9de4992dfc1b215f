import CustosTracker.Common.Padding
import CustosTracker.Sot.Reset

set_option relaxedAutoImplicit false
set_option autoImplicit false

/-!
# The crops of the backends

The patches both backends cut out of a frame are windows of the padded plane, and a pad value that is
left out is one that nobody would see.  The siamese tracker computes the side of its crops in three
places, and only one of them keeps the side positive: `init` and the first `update` ask for an empty
crop when the box is small.

## Main definitions

* `Ctrk.nanoGeometry` — the geometry of the siamese crop.
* `Ctrk.CropRequest`, `Ctrk.NanoTracker.initRequest`, `Ctrk.NanoTracker.embedRequest`,
  `Ctrk.NanoTracker.updateRequest` — what is asked of `nano_subwindow`.
* `Ctrk.NanoTracker.TemplateCropsValid` — the crops of `init` and of the first `update` make sense.

## Main results

* `Ctrk.crop_padding_exact` — every patch, of both crops.
* `Ctrk.NanoTracker.one_le_initRequest_iff`, `Ctrk.NanoTracker.embedRequest_eq_iff`,
  `Ctrk.NanoTracker.one_le_updateRequest_iff` — when each crop makes sense.
* `Ctrk.NanoTracker.templateCrops_valid_iff` — exactly when the crops around a box make sense.
-/

namespace Ctrk

variable {R : Type} [Scalar R]

/-! ## Patches -/

/-- The geometry of the siamese crop: centred by truncation. -/
def nanoGeometry (img : Image Bgr) (posX posY : R) (originalSz : ℤ) : CropGeometry :=
  let c := (originalSz + 1).tdiv 2
  .ofCorner img (Scalar.toInt posX - c) (Scalar.toInt posY - c) originalSz

/-- `crop_subwindow` resizes the patch. -/
theorem cropSubwindow_eq (ops : CvOps R) (img : Image Bgr) (cx cy : R) (sz : ℤ) (modelSz : ℕ)
    (pad : Bgr) : cropSubwindow ops img cx cy sz modelSz pad =
      let p := (cropGeometry img cx cy sz).patch img sz pad (emptyImage Bgr)
      if sz = modelSz then p else ops.resize p modelSz := rfl

/-- `nano_subwindow` resizes the patch. -/
theorem nanoSubwindow_eq (ops : CvOps R) (img : Image Bgr) (posX posY : R) (sz : ℤ) (modelSz : ℕ)
    (scratch : Image Bgr) : (nanoSubwindow ops img posX posY sz modelSz scratch).1 =
      ops.resize ((nanoGeometry img posX posY sz).patch img sz (ops.mean img) scratch) modelSz := by
  have hform : nanoSubwindow ops img posX posY sz modelSz scratch =
      if (nanoGeometry img posX posY sz).padded then
        let scratch := (nanoGeometry img posX posY sz).window img sz (ops.mean img) scratch
        (ops.resize scratch modelSz, scratch)
      else
        (ops.resize (img.sub ⟨(nanoGeometry img posX posY sz).xmin,
          (nanoGeometry img posX posY sz).ymin, sz, sz⟩) modelSz, scratch) := rfl
  rw [hform, CropGeometry.patch]
  by_cases h : (nanoGeometry img posX posY sz).padded = true
  · rw [if_pos h, if_pos h]
  · rw [if_neg h, if_neg h]

/-- The pad value of a crop that needs none is not seen. -/
theorem cropSubwindow_pad {ops : CvOps R} {img : Image Bgr} {cx cy : R} {sz : ℤ}
    (h : subwindowNeedsPadding img cx cy sz = false) (modelSz : ℕ) (pad pad' : Bgr) :
    cropSubwindow ops img cx cy sz modelSz pad = cropSubwindow ops img cx cy sz modelSz pad' := by
  have hnone : ¬(cropGeometry img cx cy sz).padded = true := by
    rw [show (cropGeometry img cx cy sz).padded = false from h]
    exact Bool.false_ne_true
  rw [cropSubwindow_eq, cropSubwindow_eq, CropGeometry.patch, CropGeometry.patch, if_neg hnone,
    if_neg hnone]

/-- The mean of the frame may as well be computed for every patch. -/
theorem MosseTracker.grabPatch_eq (ops : MosseOps R) (t : MosseTracker R) (img : Image Bgr)
    (scale : R) : t.grabPatch ops img scale =
      cropSubwindow ops.cv img t.posX t.posY (max 2 (lround (max t.szW t.szH * scale))) kSize
        (ops.cv.mean img) := by
  rw [grabPatch]
  split_ifs with h
  · rfl
  · exact cropSubwindow_pad (Bool.eq_false_of_not_eq_true h) _ _ _

/-- **Padding the window is padding the frame.** For every image and every side:

* the patch that either crop resizes is a square of the padded plane, equal to the region of the
  padded frame, with every region in bounds, whatever the buffer held;
* the same goes for every corner a geometry could give;
* padding is needed exactly when a pad pixel shows;
* leaving out the mean of the frame when padding is not needed changes no patch.

**Proof sketch.** Both geometries are the geometry of a corner, for which the patch is the window
over the padded plane.  A corner needs padding exactly when its square leaves the image.  Where
it does not, no pixel of the patch is the pad value, so the mean may be left out. -/
theorem crop_padding_exact (img : Image Bgr) {sz : ℤ} (hsz : 1 ≤ sz) :
    (∀ (ops : CvOps R) (cx cy : R) (modelSz : ℕ) (pad : Bgr),
      let g := cropGeometry img cx cy sz
      let p := g.patch img sz pad (emptyImage Bgr)
      cropSubwindow ops img cx cy sz modelSz pad =
          (if sz = modelSz then p else ops.resize p modelSz) ∧
        g.Exact img sz pad p) ∧
    (∀ (ops : CvOps R) (posX posY : R) (modelSz : ℕ) (scratch : Image Bgr),
      let g := nanoGeometry img posX posY sz
      let p := g.patch img sz (ops.mean img) scratch
      (nanoSubwindow ops img posX posY sz modelSz scratch).1 = ops.resize p modelSz ∧
        g.Exact img sz (ops.mean img) p) ∧
    (∀ (xmin ymin : ℤ) (pad : Bgr) (buffer : Image Bgr),
      let g := CropGeometry.ofCorner img xmin ymin sz
      g.Exact img sz pad (g.patch img sz pad buffer)) ∧
    (∀ cx cy : R, subwindowNeedsPadding img cx cy sz = true ↔
      ∃ u v : ℕ, (u : ℤ) < sz ∧ (v : ℤ) < sz ∧ ¬img.HasPixel ((cropGeometry img cx cy sz).xmin + u)
        ((cropGeometry img cx cy sz).ymin + v)) ∧
    ∀ (ops : MosseOps R) (t : MosseTracker R) (scale : R), t.grabPatch ops img scale =
      cropSubwindow ops.cv img t.posX t.posY (max 2 (lround (max t.szW t.szH * scale))) kSize
        (ops.cv.mean img) := by
  refine ⟨fun ops cx cy modelSz pad => ⟨rfl, ?_⟩, fun ops posX posY modelSz scratch => ⟨?_, ?_⟩,
    fun xmin ymin pad buffer => ?_, fun cx cy => ?_,
    fun ops t scale => t.grabPatch_eq ops img scale⟩
  · exact CropGeometry.exact_patch img _ _ hsz pad _
  · exact nanoSubwindow_eq ops img posX posY sz modelSz scratch
  · exact CropGeometry.exact_patch img _ _ hsz _ scratch
  · exact CropGeometry.exact_patch img xmin ymin hsz pad buffer
  · exact CropGeometry.padded_iff img _ _ hsz

/-- A crop larger than the image, over its upper left corner. -/
theorem crop_padding_exact_corner :
    let p := (CropGeometry.ofCorner ⟨2, 2, fun _ _ => ⟨9, 9, 9⟩⟩ (-1) (-1) 5).patch
      ⟨2, 2, fun _ _ => ⟨9, 9, 9⟩⟩ 5 ⟨1, 2, 3⟩ (emptyImage Bgr)
    p.px 0 0 = ⟨1, 2, 3⟩ ∧ p.px 2 2 = ⟨9, 9, 9⟩ := by
  have h := (crop_padding_exact (R := ℚ) ⟨2, 2, fun _ _ => ⟨9, 9, 9⟩⟩
    (show (1 : ℤ) ≤ 5 by decide)).2.2.1 (-1) (-1) ⟨1, 2, 3⟩ (emptyImage Bgr)
  exact ⟨h.px 0 0 (by decide) (by decide), h.px 2 2 (by decide) (by decide)⟩

/-! ## The crops of the siamese tracker -/

/-- What is asked of `nano_subwindow`: the centre and the side of the crop. -/
structure CropRequest (R : Type) where
  posX : R
  posY : R
  side : ℤ

/-- The crop asked for. -/
def CropRequest.cut (q : CropRequest R) (ops : CvOps R) (image : Image Bgr) (modelSz : ℕ)
    (scratch : Image Bgr) : Image Bgr × Image Bgr :=
  nanoSubwindow ops image q.posX q.posY q.side modelSz scratch

namespace NanoTracker

variable (ops : NanoOps R)

/-- What `init` asks for. -/
def initRequest (t : NanoTracker R) (target : BBox R) : CropRequest R :=
  ⟨target.x + target.w * (1 / 2), target.y + target.h * (1 / 2),
    Scalar.toInt (contextSide t.cfg.contextAmount target.w target.h)⟩

/-- What `embed` asks for. -/
def embedRequest (t : NanoTracker R) (box : BBox R) : CropRequest R :=
  ⟨box.cx, box.cy, max 1 (Scalar.toInt (contextSide t.cfg.contextAmount box.w box.h))⟩

/-- What `update` asks for. -/
def updateRequest (t : NanoTracker R) : CropRequest R :=
  ⟨t.posX, t.posY, Scalar.toInt (t.searchSide * ((kInstance / kExemplar : ℕ) : R))⟩

/-- The area of the box as `update` extends it. -/
def searchArea (t : NanoTracker R) : R :=
  let szSum : R := ((Scalar.toInt (t.szW + t.szH) : ℤ) : R)
  (t.szW + t.cfg.contextAmount * szSum) * (t.szH + t.cfg.contextAmount * szSum)

/-- The search window has that area. -/
theorem searchSide_eq (t : NanoTracker R) : t.searchSide = Scalar.sqrt t.searchArea := rfl

/-- `init` embeds the crop it asks for. -/
theorem init_zf (t : NanoTracker R) (image : Image Bgr) (target : BBox R) :
    (t.init ops image target).zf = ops.backboneZ
      (blobRgb ((t.initRequest target).cut ops.cv image kExemplar t.cropScratch).1 []) := rfl

/-- `embed` embeds the crop it asks for. -/
theorem embed_eq (t : NanoTracker R) (image : Image Bgr) (box : BBox R) :
    t.embed ops image box = ops.backboneZ
      (blobRgb ((t.embedRequest box).cut ops.cv image kExemplar (emptyImage Bgr)).1 []) := rfl

/-- The crops of `init` and of the first `update` make sense: they have a side, `embed` asks for the
crop of `init` and finds the template, and the scale of `update` is positive. -/
structure TemplateCropsValid (t : NanoTracker R) (image : Image Bgr) (target : BBox R) : Prop where
  init_side : 1 ≤ (t.initRequest target).side
  embed_request : (t.init ops image target).embedRequest target = t.initRequest target
  embed_template : (t.init ops image target).embed ops image target = (t.init ops image target).zf
  update_side : 1 ≤ (t.init ops image target).updateRequest.side
  search_pos : 0 < (t.init ops image target).searchSide
  scale_pos : 0 < (t.init ops image target).scaleZ

section Valid

variable [LawfulScalar R] {ops} {t : NanoTracker R} {image : Image Bgr} {target : BBox R}

/-- The extended sides of a box are positive, with any nonnegative sum of sides. -/
theorem extent_pos {w c s : R} (hw : 0 < w) (hc : 0 ≤ c) (hs : 0 ≤ s) : 0 < w + c * s :=
  add_pos_of_pos_of_nonneg hw (mul_nonneg hc hs)

/-- `init` asks for a side exactly when the extended box has an area of at least one. -/
theorem one_le_initRequest_iff (hc : 0 ≤ t.cfg.contextAmount) (hw : 0 < target.w)
    (hh : 0 < target.h) : 1 ≤ (t.initRequest target).side ↔
      1 ≤ (target.w + t.cfg.contextAmount * (target.w + target.h)) *
        (target.h + t.cfg.contextAmount * (target.w + target.h)) := by
  have hsum : 0 ≤ target.w + target.h := (add_pos hw hh).le
  have harea := mul_pos (extent_pos hw hc hsum) (extent_pos hh hc hsum)
  have hroot := le_sqrt_iff zero_le_one harea.le
  rw [mul_one] at hroot
  simp only [initRequest, contextSide]
  rw [le_toInt_iff (LawfulScalar.sqrt_nonneg _), Int.cast_one, hroot]

omit [LawfulScalar R] in
/-- `embed` asks for the crop of `init` exactly when that crop has a side. -/
theorem embedRequest_eq_iff :
    (t.init ops image target).embedRequest target = t.initRequest target ↔
      1 ≤ (t.initRequest target).side := by
  have hx : target.cx = target.x + target.w * (1 / 2) := by rw [BBox.cx, mul_comm]
  have hy : target.cy = target.y + target.h * (1 / 2) := by rw [BBox.cy, mul_comm]
  have hcfg : (t.init ops image target).cfg = t.cfg := rfl
  simp only [embedRequest, initRequest, hcfg, hx, hy, CropRequest.mk.injEq, true_and]
  exact max_eq_right_iff

omit [LawfulScalar R] in
/-- The same crop has the same features. -/
theorem embed_of_request
    (h : (t.init ops image target).embedRequest target = t.initRequest target) :
    (t.init ops image target).embed ops image target = (t.init ops image target).zf := by
  rw [embed_eq, init_zf, h, CropRequest.cut, CropRequest.cut,
    nanoSubwindow_scratch _ _ _ _ _ _ (emptyImage Bgr) t.cropScratch]

/-- With a nonnegative context the search window of a box of positive size exists. -/
theorem searchArea_pos (hc : 0 ≤ t.cfg.contextAmount) (hw : 0 < t.szW) (hh : 0 < t.szH) :
    0 < t.searchArea := by
  have hint : 0 ≤ Scalar.toInt (t.szW + t.szH) := by
    rw [le_toInt_iff (add_pos hw hh).le, Int.cast_zero]
    exact (add_pos hw hh).le
  have hcast : (0 : R) ≤ Scalar.toInt (t.szW + t.szH) := by exact_mod_cast hint
  exact mul_pos (extent_pos hw hc hcast) (extent_pos hh hc hcast)

/-- The first `update` asks for a side exactly when four times that area is at least one. -/
theorem one_le_updateRequest_iff (hc : 0 ≤ t.cfg.contextAmount) (hw : 0 < target.w)
    (hh : 0 < target.h) : 1 ≤ (t.init ops image target).updateRequest.side ↔
      1 ≤ 4 * ((target.w + t.cfg.contextAmount * (Scalar.toInt (target.w + target.h) : R)) *
        (target.h + t.cfg.contextAmount * (Scalar.toInt (target.w + target.h) : R))) := by
  have harea : 0 < (t.init ops image target).searchArea := searchArea_pos hc hw hh
  have hdouble : ((kInstance / kExemplar : ℕ) : R) = 2 := by norm_num [kInstance, kExemplar]
  have hroot := le_sqrt_iff (show (0 : R) ≤ 1 / 2 by norm_num) harea.le
  have hexpand : (t.init ops image target).searchArea =
      (target.w + t.cfg.contextAmount * (Scalar.toInt (target.w + target.h) : R)) *
        (target.h + t.cfg.contextAmount * (Scalar.toInt (target.w + target.h) : R)) := rfl
  simp only [updateRequest]
  rw [searchSide_eq, le_toInt_iff (mul_nonneg (LawfulScalar.sqrt_nonneg _) (Nat.cast_nonneg _)),
    Int.cast_one, hdouble, ← div_le_iff₀ two_pos, hroot, hexpand]
  constructor <;> intro h <;> linarith

end Valid

/-- **The crops of `init`, `embed` and the first `update`.** With a nonnegative context and a box of
positive size they make sense exactly when the box with its context has an area of at least one, and
the box as `update` extends it, with the sum of the sides truncated, an area of at least a
quarter.

**Proof sketch.** The side of `init` is the truncated root of the extended area, and at least one
when that area is; then the lower bound of `embed` has no effect and both ask for one crop.
`update` truncates the sum of the sides first and doubles the side, so an area of a quarter is
enough for it. -/
theorem templateCrops_valid_iff [LawfulScalar R] (t : NanoTracker R) (image : Image Bgr)
    (target : BBox R) (hc : 0 ≤ t.cfg.contextAmount) (hw : 0 < target.w) (hh : 0 < target.h) :
    t.TemplateCropsValid ops image target ↔
      1 ≤ (target.w + t.cfg.contextAmount * (target.w + target.h)) *
          (target.h + t.cfg.contextAmount * (target.w + target.h)) ∧
        1 ≤ 4 * ((target.w + t.cfg.contextAmount * (Scalar.toInt (target.w + target.h) : R)) *
          (target.h + t.cfg.contextAmount * (Scalar.toInt (target.w + target.h) : R))) := by
  have hinit := one_le_initRequest_iff hc hw hh
  have hupdate : 1 ≤ (t.init ops image target).updateRequest.side ↔ _ :=
    one_le_updateRequest_iff hc hw hh
  constructor
  · intro h
    exact ⟨hinit.mp h.init_side, hupdate.mp h.update_side⟩
  · rintro ⟨hone, hquarter⟩
    have hrequest : (t.init ops image target).embedRequest target = t.initRequest target :=
      embedRequest_eq_iff.mpr (hinit.mpr hone)
    have hsearch : 0 < (t.init ops image target).searchSide := sqrt_pos (searchArea_pos hc hw hh)
    exact ⟨hinit.mpr hone, hrequest, embed_of_request hrequest, hupdate.mpr hquarter, hsearch,
      div_pos (by norm_num [kExemplar]) hsearch⟩

theorem templateCrops_valid_iff_small :
    (new SotTracker.noNano { contextAmount := 1 / 2 }).TemplateCropsValid SotTracker.noNano
      ⟨640, 480, fun _ _ => ⟨0, 0, 0⟩⟩ ⟨0, 0, 4, 2⟩ := by
  have hint : Scalar.toInt (4 + 2 : ℝ) = 6 := by
    have hfloor : Scalar.toInt (4 + 2 : ℝ) = ⌊(4 + 2 : ℝ)⌋ := if_pos (by norm_num)
    rw [hfloor]
    norm_num
  refine (templateCrops_valid_iff SotTracker.noNano _ _ _ (by norm_num [new]) (by norm_num)
    (by norm_num)).mpr ⟨by norm_num [new], ?_⟩
  simp only [hint]
  norm_num [new]

/-- Around a box of a quarter of a pixel `init` asks for an empty crop, where `embed` asks for a
pixel. -/
theorem templateCrops_invalid_subpixel :
    let t := new SotTracker.noNano { contextAmount := 1 / 2 }
    (t.initRequest ⟨0, 0, 1 / 4, 1 / 4⟩).side = 0 ∧ (t.embedRequest ⟨0, 0, 1 / 4, 1 / 4⟩).side = 1 ∧
      ¬t.TemplateCropsValid SotTracker.noNano ⟨640, 480, fun _ _ => ⟨0, 0, 0⟩⟩
        ⟨0, 0, 1 / 4, 1 / 4⟩ := by
  intro t
  have hsmall : ¬1 ≤ (t.initRequest ⟨0, 0, 1 / 4, 1 / 4⟩).side := by
    rw [one_le_initRequest_iff (by norm_num [t, new]) (by norm_num) (by norm_num)]
    norm_num [t, new]
  have hnonneg : 0 ≤ (t.initRequest ⟨0, 0, 1 / 4, 1 / 4⟩).side := by
    have hroot := LawfulScalar.sqrt_nonneg ((1 / 4 + t.cfg.contextAmount * (1 / 4 + 1 / 4)) *
      (1 / 4 + t.cfg.contextAmount * (1 / 4 + 1 / 4)))
    exact (le_toInt_iff hroot).mpr (by rwa [Int.cast_zero])
  have hside : (t.initRequest ⟨0, 0, 1 / 4, 1 / 4⟩).side = 0 := by omega
  have hembed : (t.embedRequest ⟨0, 0, 1 / 4, 1 / 4⟩).side =
      max 1 (t.initRequest ⟨0, 0, 1 / 4, 1 / 4⟩).side := rfl
  refine ⟨hside, by rw [hembed, hside]; rfl, fun h => hsmall h.init_side⟩

end NanoTracker

end Ctrk
