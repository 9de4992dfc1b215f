import CustosTracker.Common.Subwindow

set_option relaxedAutoImplicit false
set_option autoImplicit false

/-!
# Crops as windows of the padded plane

A crop shows what lies in a square of the plane: pixels of the image where there are some, and the
pad value elsewhere.  The window that `core/src/common/subwindow.cpp` builds in a buffer of the
size of the crop is this square, like the region of the whole padded frame it replaced
(`tests/test_subwindow_exact.cpp`).

## Main definitions

* `Ctrk.Image.plane` — an image continued over the whole plane.
* `Ctrk.Image.copyMakeBorder` — an image with a border of one value.
* `Ctrk.CropGeometry.patch` — the crop before it is resized.
* `Ctrk.CropGeometry.Exact` — what a correct crop is.

## Main results

* `Ctrk.CropGeometry.exact_patch` — every crop is correct, wherever it lies.
* `Ctrk.CropGeometry.padded_iff` — padding is needed exactly when a pad pixel shows.
-/

namespace Ctrk

/-! ## The padded plane -/

/-- A region within an image of a given size, as the constructor of a region asserts. -/
def Rect.Within (r : Rect) (cols rows : ℤ) : Prop :=
  (0 ≤ r.x ∧ 0 ≤ r.width ∧ r.x + r.width ≤ cols) ∧ 0 ≤ r.y ∧ 0 ≤ r.height ∧ r.y + r.height ≤ rows

namespace Image

variable {P : Type}

/-- There is a pixel at a place of the plane. -/
def HasPixel (m : Image P) (x y : ℤ) : Prop := (0 ≤ x ∧ x < m.cols) ∧ 0 ≤ y ∧ y < m.rows

instance (m : Image P) (x y : ℤ) : Decidable (m.HasPixel x y) :=
  inferInstanceAs (Decidable ((0 ≤ x ∧ x < m.cols) ∧ 0 ≤ y ∧ y < m.rows))

/-- An image continued over the whole plane by one value. -/
def plane (m : Image P) (pad : P) (x y : ℤ) : P :=
  if m.HasPixel x y then m.px x.toNat y.toNat else pad

/-- `cv::copyMakeBorder` with a constant border. -/
def copyMakeBorder (m : Image P) (top bottom left right : ℕ) (pad : P) : Image P :=
  ⟨left + m.cols + right, top + m.rows + bottom, fun x y =>
    if (left ≤ x ∧ x < left + m.cols) ∧ top ≤ y ∧ y < top + m.rows then m.px (x - left) (y - top)
    else pad⟩

/-- The border shows the plane around the image. -/
theorem copyMakeBorder_px (m : Image P) (top bottom left right : ℕ) (pad : P) (x y : ℕ) :
    (m.copyMakeBorder top bottom left right pad).px x y =
      m.plane pad ((x : ℤ) - left) ((y : ℤ) - top) := by
  have hin : ((left ≤ x ∧ x < left + m.cols) ∧ top ≤ y ∧ y < top + m.rows) ↔
      m.HasPixel ((x : ℤ) - left) ((y : ℤ) - top) := by
    simp only [HasPixel]
    omega
  simp only [copyMakeBorder, plane, hin]
  split_ifs with h
  · congr 1 <;> omega
  · rfl

/-- A region of an image shows the plane from the corner of the region. -/
theorem sub_px (m : Image P) {r : Rect} (hr : r.Within m.cols m.rows) (pad : P) {u v : ℕ}
    (hu : u < r.width) (hv : v < r.height) :
    (m.sub r).px u v = m.plane pad (r.x + u) (r.y + v) := by
  obtain ⟨⟨hx, hw, hright⟩, hy, hh, hbottom⟩ := hr
  have hpix : m.HasPixel (r.x + u) (r.y + v) := by
    simp only [HasPixel]
    omega
  rw [plane, if_pos hpix]
  show m.px (u + r.x.toNat) (v + r.y.toNat) = m.px (r.x + u).toNat (r.y + v).toNat
  congr 1 <;> omega

end Image

/-! ## The window -/

namespace CropGeometry

/-- The part of the image that shows in the window. -/
def visible (g : CropGeometry) (sz : ℤ) : Rect :=
  ⟨g.xmin + g.leftPad, g.ymin + g.topPad, sz - g.leftPad - g.rightPad, sz - g.topPad - g.bottomPad⟩

/-- The crop before it is resized: the padded window, or a region of the image. -/
def patch (g : CropGeometry) (img : Image Bgr) (sz : ℤ) (pad : Bgr) (buffer : Image Bgr) :
    Image Bgr :=
  if g.padded then g.window img sz pad buffer else img.sub ⟨g.xmin, g.ymin, sz, sz⟩

/-- The whole frame padded, as far as the crop needs it. -/
def bordered (g : CropGeometry) (img : Image Bgr) (pad : Bgr) : Image Bgr :=
  img.copyMakeBorder g.topPad.toNat g.bottomPad.toNat g.leftPad.toNat g.rightPad.toNat pad

/-- The region of the padded frame that the crop is. -/
def region (g : CropGeometry) (sz : ℤ) : Rect := ⟨g.xmin + g.leftPad, g.ymin + g.topPad, sz, sz⟩

/-- What a correct crop is: a square of the padded plane, equal to a region of the padded frame,
with every region in bounds, and padded exactly when a pad pixel shows. -/
structure Exact (g : CropGeometry) (img : Image Bgr) (sz : ℤ) (pad : Bgr) (p : Image Bgr) :
    Prop where
  cols : (p.cols : ℤ) = sz
  rows : (p.rows : ℤ) = sz
  px : ∀ u v : ℕ, u < sz → v < sz → p.px u v = img.plane pad (g.xmin + u) (g.ymin + v)
  border : ∀ u v : ℕ, u < sz → v < sz → p.px u v = ((g.bordered img pad).sub (g.region sz)).px u v
  region_within : (g.region sz).Within (g.bordered img pad).cols (g.bordered img pad).rows
  visible_within : 0 < (g.visible sz).width → 0 < (g.visible sz).height →
    (g.visible sz).Within img.cols img.rows ∧
      Rect.Within ⟨g.leftPad, g.topPad, (g.visible sz).width, (g.visible sz).height⟩ sz sz
  whole_within : g.padded = false → Rect.Within ⟨g.xmin, g.ymin, sz, sz⟩ img.cols img.rows
  padded_iff : g.padded = true ↔
    ∃ u v : ℕ, (u : ℤ) < sz ∧ (v : ℤ) < sz ∧ ¬img.HasPixel (g.xmin + u) (g.ymin + v)

section Corner

variable (img : Image Bgr) (xmin ymin : ℤ) {sz : ℤ}

/-- Without padding the crop lies in the image. -/
theorem padded_eq_false_iff : (ofCorner img xmin ymin sz).padded = false ↔
    (0 ≤ xmin ∧ xmin + sz ≤ img.cols) ∧ 0 ≤ ymin ∧ ymin + sz ≤ img.rows := by
  simp [padded, ofCorner]
  omega

/-- Padding is needed exactly when a pad pixel shows. -/
theorem padded_iff (hsz : 1 ≤ sz) : (ofCorner img xmin ymin sz).padded = true ↔
    ∃ u v : ℕ, (u : ℤ) < sz ∧ (v : ℤ) < sz ∧ ¬img.HasPixel (xmin + u) (ymin + v) := by
  rw [← Bool.not_eq_false, padded_eq_false_iff]
  simp only [Image.HasPixel]
  constructor
  · intro h
    -- the first or the last pixel of the first or the last row or column is outside
    by_cases hcorner : (0 ≤ xmin ∧ xmin < img.cols) ∧ 0 ≤ ymin ∧ ymin < img.rows
    · exact ⟨(sz - 1).toNat, (sz - 1).toNat, by omega, by omega, by omega⟩
    · exact ⟨0, 0, by omega, by omega, by omega⟩
  · rintro ⟨u, v, hu, hv, hpix⟩
    omega

/-- The part of the image that shows lies in the image, and in the window. -/
theorem visible_within (hw : 0 < ((ofCorner img xmin ymin sz).visible sz).width)
    (hh : 0 < ((ofCorner img xmin ymin sz).visible sz).height) :
    ((ofCorner img xmin ymin sz).visible sz).Within img.cols img.rows ∧
      Rect.Within ⟨(ofCorner img xmin ymin sz).leftPad, (ofCorner img xmin ymin sz).topPad,
        ((ofCorner img xmin ymin sz).visible sz).width,
        ((ofCorner img xmin ymin sz).visible sz).height⟩ sz sz := by
  simp only [visible, ofCorner, Rect.Within] at *
  omega

/-- The region of the padded frame lies in it. -/
theorem region_within (hsz : 1 ≤ sz) (pad : Bgr) :
    ((ofCorner img xmin ymin sz).region sz).Within
      ((ofCorner img xmin ymin sz).bordered img pad).cols
      ((ofCorner img xmin ymin sz).bordered img pad).rows := by
  simp only [region, bordered, ofCorner, Rect.Within, Image.copyMakeBorder]
  omega

/-- The window is a blank square with the visible part on top. -/
theorem window_eq (g : CropGeometry) (sz : ℤ) (pad : Bgr) (buffer : Image Bgr) :
    g.window img sz pad buffer =
      if 0 < (g.visible sz).width ∧ 0 < (g.visible sz).height then
        ((buffer.create sz.toNat sz.toNat).setTo pad).paste (img.sub (g.visible sz))
          g.leftPad.toNat g.topPad.toNat
      else (buffer.create sz.toNat sz.toNat).setTo pad := rfl

/-- The window shows the padded plane.

**Proof sketch.** A position of the window lies in the pasted rectangle exactly when the plane
has an image pixel there.  Inside, the paste copies that pixel; outside, the border is the pad
value.  A crop that misses the image has no rectangle, and its window is all border. -/
theorem window_px (pad : Bgr) (buffer : Image Bgr) {u v : ℕ} (hu : u < sz) (hv : v < sz) :
    ((ofCorner img xmin ymin sz).window img sz pad buffer).px u v =
      img.plane pad (xmin + u) (ymin + v) := by
  rw [window_eq]
  by_cases hsome : 0 < ((ofCorner img xmin ymin sz).visible sz).width ∧
      0 < ((ofCorner img xmin ymin sz).visible sz).height
  · obtain ⟨hin, -⟩ := visible_within img xmin ymin hsome.1 hsome.2
    have hshow : ((ofCorner img xmin ymin sz).leftPad.toNat ≤ u ∧
        u < (ofCorner img xmin ymin sz).leftPad.toNat +
          ((ofCorner img xmin ymin sz).visible sz).width.toNat ∧
        (ofCorner img xmin ymin sz).topPad.toNat ≤ v ∧
        v < (ofCorner img xmin ymin sz).topPad.toNat +
          ((ofCorner img xmin ymin sz).visible sz).height.toNat) ↔
        img.HasPixel (xmin + u) (ymin + v) := by
      simp only [visible, ofCorner, Image.HasPixel]
      omega
    rw [if_pos hsome]
    by_cases hpix : img.HasPixel (xmin + u) (ymin + v)
    · obtain ⟨hleft, hright, htop, hbottom⟩ := hshow.mpr hpix
      have hpaste := img.sub_px hin pad
        (show ((u - (ofCorner img xmin ymin sz).leftPad.toNat : ℕ) : ℤ) < _ by omega)
        (show ((v - (ofCorner img xmin ymin sz).topPad.toNat : ℕ) : ℤ) < _ by omega)
      refine (if_pos (hshow.mpr hpix)).trans (hpaste.trans ?_)
      simp only [visible, ofCorner] at hleft htop ⊢
      congr 1 <;> omega
    · rw [Image.plane, if_neg hpix]
      exact if_neg (mt hshow.mp hpix)
  · -- the crop lies outside the image
    rw [if_neg hsome, Image.plane, if_neg]
    · rfl
    · simp only [visible, ofCorner] at hsome
      simp only [Image.HasPixel]
      omega

/-- **Every crop is correct,** for every corner, every size of the image, and whatever the buffer
held.

**Proof sketch.** An unpadded crop lies within the image, and is copied.  A padded one is the
window over the padded plane (`window_px`). -/
theorem exact_patch (hsz : 1 ≤ sz) (pad : Bgr) (buffer : Image Bgr) :
    (ofCorner img xmin ymin sz).Exact img sz pad
      ((ofCorner img xmin ymin sz).patch img sz pad buffer) := by
  have hwhole : (ofCorner img xmin ymin sz).padded = false →
      Rect.Within ⟨xmin, ymin, sz, sz⟩ img.cols img.rows := by
    intro hpad
    obtain ⟨hx, hy⟩ := (padded_eq_false_iff img xmin ymin).mp hpad
    simp only [Rect.Within]
    omega
  have hpx : ∀ u v : ℕ, u < sz → v < sz →
      ((ofCorner img xmin ymin sz).patch img sz pad buffer).px u v =
        img.plane pad (xmin + u) (ymin + v) := by
    intro u v hu hv
    rw [patch]
    split_ifs with hpad
    · exact window_px img xmin ymin pad buffer hu hv
    · exact img.sub_px (hwhole (Bool.eq_false_of_not_eq_true hpad)) pad hu hv
  have hsize : ((ofCorner img xmin ymin sz).patch img sz pad buffer).cols = sz.toNat ∧
      ((ofCorner img xmin ymin sz).patch img sz pad buffer).rows = sz.toNat := by
    simp only [patch, window]
    split_ifs <;> exact ⟨rfl, rfl⟩
  refine ⟨by rw [hsize.1]; omega, by rw [hsize.2]; omega, hpx, fun u v hu hv => ?_,
    region_within img xmin ymin hsz pad, visible_within img xmin ymin, hwhole,
    padded_iff img xmin ymin hsz⟩
  -- the region of the padded frame shows the same square
  rw [hpx u v hu hv]
  simp only [Image.sub, bordered, Image.copyMakeBorder_px]
  congr 1 <;> simp only [region, ofCorner] <;> omega

end Corner

end CropGeometry

end Ctrk
