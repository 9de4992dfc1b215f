import CustosTracker.Common.Subwindow
import CustosTracker.Library.Indexed
import CustosTracker.Sot.SotTracker

set_option relaxedAutoImplicit false
set_option autoImplicit false

/-!
# The siamese backend

`NanoTracker` of `core/src/sot/nanotrack.cpp`: a template is embedded once, the search window of
every frame is correlated with it, and the best cell of the score map moves the box.

## Main definitions

* `Ctrk.NanoOps` — the three model graphs and the image routines.
* `Ctrk.NanoTracker`, `Ctrk.NanoTracker.init`, `Ctrk.NanoTracker.embed`, `Ctrk.NanoTracker.update`.
* `Ctrk.NanoTracker.core` — the state without the reused buffers.

## Main results

* `Ctrk.NanoTracker.init_core` — `init` depends on what the constructor set alone.
* `Ctrk.NanoTracker.update_core` — `update` does not depend on the reused buffers.
-/

namespace Ctrk

variable {R : Type} [Scalar R]

/-- The model graphs, as functions of the tensors they are given, and the routines around them. -/
structure NanoOps (R : Type) where
  cv : CvOps R
  /-- The template branch. -/
  backboneZ : List R → List R
  /-- The search branch. -/
  backboneX : List R → List R
  /-- The correlation head: class scores and box offsets. -/
  head : List R → List R → List R × List R
  /-- The side of the score map, read from the head graph. -/
  scoreSize : ℕ
  /-- `cv::createHanningWindow` of a square, row by row. -/
  createHanningWindow : ℕ → List R

/-- `kExemplar`. -/
def kExemplar : ℕ := 127

/-- `kInstance`. -/
def kInstance : ℕ := 255

/-- `kStride`. -/
def kStride : ℤ := 16

/-- `size_cal`. -/
def sizeCal (w h : R) : R :=
  let pad := (w + h) * (1 / 2)
  Scalar.sqrt ((w + pad) * (h + pad))

/-- `recip_max`. -/
def recipMax (v : R) : R := max v (1 / v)

/-- The side of the context window around a box. -/
def contextSide (contextAmount w h : R) : R :=
  let sum := w + h
  Scalar.sqrt ((w + contextAmount * sum) * (h + contextAmount * sum))

/-! ## Blobs -/

/-- `std::vector::resize`: the old entries stay, new ones are zero. -/
def resizeTo (n : ℕ) (out : List R) : List R := out.take n ++ List.replicate (n - out.length) 0

@[simp] theorem length_resizeTo (n : ℕ) (out : List R) : (resizeTo n out).length = n := by
  simp [resizeTo]
  omega

/-- The entries `blob_rgb` writes, in order: the three planes of each pixel. -/
def blobWrites (crop : Image Bgr) : List (ℕ × R) :=
  let hw := crop.rows * crop.cols
  (List.range crop.rows).flatMap fun y => (List.range crop.cols).flatMap fun x =>
    let i := y * crop.cols + x
    [(0 * hw + i, ((crop.px x y).r.toNat : R)), (1 * hw + i, ((crop.px x y).g.toNat : R)),
      (2 * hw + i, ((crop.px x y).b.toNat : R))]

/-- `blob_rgb`: the planes of a crop, written into a reused vector. -/
def blobRgb (crop : Image Bgr) (out : List R) : List R :=
  Indexed.modifyAll Prod.fst (fun w _ => w.2) (resizeTo (3 * (crop.rows * crop.cols)) out)
    (blobWrites crop)

/-- Every entry of a blob is written.

**Proof sketch.** An index is a plane, a row and a column, by division with remainder, and the
loops go through all of them. -/
theorem mem_blobWrites (crop : Image Bgr) {i : ℕ} (hi : i < 3 * (crop.rows * crop.cols)) :
    i ∈ (blobWrites (R := R) crop).map Prod.fst := by
  obtain ⟨cols, rows, px⟩ := crop
  have hhw : 0 < rows * cols := by
    rcases Nat.eq_zero_or_pos (rows * cols) with hzero | hpos
    · simp only [hzero] at hi
      omega
    · exact hpos
  have hcols : 0 < cols := Nat.pos_of_mul_pos_left hhw
  -- the pixel within a plane, and the plane
  have hpixel : i % (rows * cols) < rows * cols := Nat.mod_lt i hhw
  have hplane : i / (rows * cols) < 3 := Nat.div_lt_of_lt_mul (by rwa [mul_comm])
  have hrow : i % (rows * cols) / cols < rows := by
    apply Nat.div_lt_of_lt_mul
    rwa [Nat.mul_comm cols rows]
  have hcol : i % (rows * cols) % cols < cols := Nat.mod_lt _ hcols
  have hsplit : rows * cols * (i / (rows * cols)) + i % (rows * cols) = i := Nat.div_add_mod ..
  have hxy : i % (rows * cols) / cols * cols + i % (rows * cols) % cols = i % (rows * cols) :=
    Nat.div_add_mod' ..
  simp only [blobWrites, List.map_flatMap, List.mem_flatMap, List.mem_range]
  refine ⟨_, hrow, _, hcol, ?_⟩
  rw [hxy]
  generalize i / (rows * cols) = plane at hplane hsplit
  interval_cases plane
  · simp
    omega
  · simp
    omega
  · simp
    omega

/-- A blob does not depend on what the vector held. -/
theorem blobRgb_buffer (crop : Image Bgr) (out out' : List R) :
    blobRgb crop out = blobRgb crop out' := by
  apply Indexed.modifyAll_eq_of_const
  · intro b x y
    rfl
  · simp
  · intro i hi
    rw [length_resizeTo] at hi
    exact mem_blobWrites crop hi

/-! ## The tracker -/

/-- The tracker's members. -/
structure NanoTracker (R : Type) [Scalar R] where
  cfg : SotConfig R
  zf : List R := []
  zfMix : List R := []
  sinceRefresh : ℤ := 0
  xBlob : List R
  posX : R := 0
  posY : R := 0
  szW : R := 0
  szH : R := 0
  imgSize : ℕ × ℕ := (0, 0)
  hann : List R
  gridX : List R
  gridY : List R
  crop : Image Bgr := emptyImage Bgr
  cropScratch : Image Bgr := emptyImage Bgr

namespace NanoTracker

variable (ops : NanoOps R)

/-- A coordinate of the score grid, in pixels of the search window. -/
def gridCoord (i : ℕ) : R :=
  ((((i : ℤ) - (ops.scoreSize / 2 : ℕ)) * kStride + (kInstance / 2 : ℕ) : ℤ) : R)

/-- The constructor. -/
def new (cfg : SotConfig R) : NanoTracker R where
  cfg := cfg
  hann := ops.createHanningWindow ops.scoreSize
  gridX := (List.range ops.scoreSize).flatMap fun _ => (List.range ops.scoreSize).map (gridCoord ops)
  gridY := (List.range ops.scoreSize).flatMap fun r => (List.range ops.scoreSize).map fun _ =>
    gridCoord ops r
  xBlob := resizeTo (3 * kInstance * kInstance) []

/-- `init`: embed the template. -/
def init (t : NanoTracker R) (image : Image Bgr) (target : BBox R) : NanoTracker R :=
  let t := { t with
    posX := target.x + target.w * (1 / 2)
    posY := target.y + target.h * (1 / 2)
    szW := target.w
    szH := target.h
    imgSize := (image.cols, image.rows)
    zfMix := []
    sinceRefresh := 0 }
  let s := Scalar.toInt (contextSide t.cfg.contextAmount t.szW t.szH)
  let p := nanoSubwindow ops.cv image t.posX t.posY s kExemplar t.cropScratch
  { t with crop := p.1, cropScratch := p.2, zf := ops.backboneZ (blobRgb p.1 []) }

/-- `embed`: the features of a box. -/
def embed (t : NanoTracker R) (image : Image Bgr) (box : BBox R) : List R :=
  let s := max 1 (Scalar.toInt (contextSide t.cfg.contextAmount box.w box.h))
  let p := nanoSubwindow ops.cv image box.cx box.cy s kExemplar (emptyImage Bgr)
  ops.backboneZ (blobRgb p.1 [])

/-- The best cell so far. -/
structure BestCell (R : Type) where
  pscore : R
  score : R
  penalty : R
  x1 : R
  y1 : R
  x2 : R
  y2 : R

/-- One cell of the score map: class score, box, and the penalty for a change of size or aspect. -/
def considerCell (t : NanoTracker R) (cls reg : List R) (best : BestCell R) (i : ℕ) : BestCell R :=
  let kCells := ops.scoreSize * ops.scoreSize
  let c0 := cls.getD i 0
  let c1 := cls.getD (kCells + i) 0
  let m := max c0 c1
  let e0 := ops.cv.exp (c0 - m)
  let e1 := ops.cv.exp (c1 - m)
  let score := e1 / (e0 + e1)
  let x1 := t.gridX.getD i 0 - reg.getD (0 * kCells + i) 0
  let y1 := t.gridY.getD i 0 - reg.getD (1 * kCells + i) 0
  let x2 := t.gridX.getD i 0 + reg.getD (2 * kCells + i) 0
  let y2 := t.gridY.getD i 0 + reg.getD (3 * kCells + i) 0
  -- the reference size is that of the position, as in the reference implementation
  let sc := recipMax (sizeCal (x2 - x1) (y2 - y1) / sizeCal t.posX t.posY)
  let rc := recipMax (t.szW / t.szH / ((x2 - x1) / (y2 - y1)))
  let penalty := ops.cv.exp (-(rc * sc - 1) * t.cfg.penaltyK)
  let pscore := penalty * score * (1 - t.cfg.windowInfluence) +
    t.hann.getD i 0 * t.cfg.windowInfluence
  if best.pscore < pscore then ⟨pscore, score, penalty, x1, y1, x2, y2⟩ else best

/-- The best cell of the score map. -/
def bestCell (t : NanoTracker R) (cls reg : List R) : BestCell R :=
  (List.range (ops.scoreSize * ops.scoreSize)).foldl (t.considerCell ops cls reg)
    ⟨-1, 0, 0, 0, 0, 0, 0⟩

/-- Move the box to a cell. -/
def place (t : NanoTracker R) (scaleZ : R) (best : BestCell R) : SotResult R × NanoTracker R :=
  let half : R := ((kInstance / 2 : ℕ) : R)
  let predXs := (best.x1 + best.x2) * (1 / 2)
  let predYs := (best.y1 + best.y2) * (1 / 2)
  let predW := (best.x2 - best.x1) / scaleZ
  let predH := (best.y2 - best.y1) / scaleZ
  let diffXs := (predXs - half) / scaleZ
  let diffYs := (predYs - half) / scaleZ
  let szW := t.szW / scaleZ
  let szH := t.szH / scaleZ
  let lr := best.penalty * best.score * t.cfg.sizeLr
  let posX := clamp (t.posX + diffXs) 0 t.imgSize.1
  let posY := clamp (t.posY + diffYs) 0 t.imgSize.2
  let szW := clamp (predW * lr + (1 - lr) * szW) 10 t.imgSize.1
  let szH := clamp (predH * lr + (1 - lr) * szH) 10 t.imgSize.2
  (⟨⟨posX - szW * (1 / 2), posY - szH * (1 / 2), szW, szH⟩, best.score, .tracking⟩,
    { t with posX := posX, posY := posY, szW := szW, szH := szH })

/-- The refresh of the second template: every few frames, from a confident frame. -/
def refresh (t : NanoTracker R) (image : Image Bgr) (r : SotResult R) : NanoTracker R :=
  if t.cfg.templateUpdateInterval ≤ 0 then t
  else
    let t := { t with sinceRefresh := t.sinceRefresh + 1 }
    if t.sinceRefresh < t.cfg.templateUpdateInterval then t
    else if r.score < t.cfg.templateRefreshThr then t
    else
      let zf2 := t.embed ops image r.box
      let b := t.cfg.templateBlend
      { t with
        sinceRefresh := 0
        zfMix := Indexed.modifyAll Prod.fst (fun w _ => w.2) (resizeTo t.zf.length t.zfMix)
          ((List.range t.zf.length).map fun i => (i, b * t.zf.getD i 0 + (1 - b) * zf2.getD i 0)) }

/-- The side of the context window in `update`, with the size sum truncated to an integer. -/
def searchSide (t : NanoTracker R) : R :=
  let szSum : R := ((Scalar.toInt (t.szW + t.szH) : ℤ) : R)
  let wc := t.szW + t.cfg.contextAmount * szSum
  let hc := t.szH + t.cfg.contextAmount * szSum
  Scalar.sqrt (wc * hc)

/-- The scale from image pixels to pixels of the search window. -/
def scaleZ (t : NanoTracker R) : R := (kExemplar : R) / t.searchSide

/-- Scale the size to the search window, and cut the window out. -/
def search (t : NanoTracker R) (image : Image Bgr) : NanoTracker R :=
  -- an integer division in the source
  let sx := t.searchSide * ((kInstance / kExemplar : ℕ) : R)
  let p := nanoSubwindow ops.cv image t.posX t.posY (Scalar.toInt sx) kInstance t.cropScratch
  { t with
    szW := t.szW * t.scaleZ
    szH := t.szH * t.scaleZ
    crop := p.1
    cropScratch := p.2
    xBlob := blobRgb p.1 t.xBlob }

/-- The score map: the search blob correlated with the template, or with the blend. -/
def respond (t : NanoTracker R) : List R × List R :=
  ops.head (if t.zfMix.isEmpty then t.zf else t.zfMix) (ops.backboneX t.xBlob)

/-- `update`: track one frame. -/
def update (t : NanoTracker R) (image : Image Bgr) : SotResult R × NanoTracker R :=
  let scaleZ := t.scaleZ
  let t := t.search ops image
  let outs := t.respond ops
  let q := t.place scaleZ (t.bestCell ops outs.1 outs.2)
  (q.1, q.2.refresh ops image q.1)

/-! ## What the buffers do not change -/

/-- The state without the reused buffers. -/
def core (t : NanoTracker R) : NanoTracker R :=
  { t with xBlob := [], crop := emptyImage Bgr, cropScratch := emptyImage Bgr }

/-- The members that only the constructor sets. -/
def consts (t : NanoTracker R) : SotConfig R × List R × List R × List R :=
  (t.cfg, t.hann, t.gridX, t.gridY)

theorem consts_of_core {s t : NanoTracker R} (h : s.core = t.core) : s.consts = t.consts := by
  show s.core.consts = t.core.consts
  rw [h]

theorem consts_init (t : NanoTracker R) (image : Image Bgr) (target : BBox R) :
    (t.init ops image target).consts = t.consts := rfl

theorem consts_refresh (t : NanoTracker R) (image : Image Bgr) (r : SotResult R) :
    (t.refresh ops image r).consts = t.consts := by
  simp only [refresh]
  split_ifs <;> rfl

theorem consts_update (t : NanoTracker R) (image : Image Bgr) :
    (t.update ops image).2.consts = t.consts :=
  consts_refresh ops _ image _

/-- `init` forgets all but the members that only the constructor sets. -/
theorem init_core {s t : NanoTracker R} (h : s.consts = t.consts) (image : Image Bgr)
    (target : BBox R) : (s.init ops image target).core = (t.init ops image target).core := by
  obtain ⟨cfg, zf, zfMix, since, xBlob, posX, posY, szW, szH, size, hann, gridX, gridY, crop,
    scratch⟩ := s
  obtain ⟨cfg', zf', zfMix', since', xBlob', posX', posY', szW', szH', size', hann', gridX', gridY',
    crop', scratch'⟩ := t
  simp only [consts, Prod.mk.injEq] at h
  obtain ⟨rfl, rfl, rfl, rfl⟩ := h
  simp only [init, core]
  rw [nanoSubwindow_scratch _ _ _ _ _ _ scratch scratch']

/-- The embedding of a box depends on the configuration alone. -/
theorem embed_core {s t : NanoTracker R} (h : s.core = t.core) (image : Image Bgr) (box : BBox R) :
    s.embed ops image box = t.embed ops image box := by
  show s.core.embed ops image box = t.core.embed ops image box
  rw [h]

theorem place_core {s t : NanoTracker R} (h : s.core = t.core) (scaleZ : R) (best : BestCell R) :
    (s.place scaleZ best).1 = (t.place scaleZ best).1 ∧
      (s.place scaleZ best).2.core = (t.place scaleZ best).2.core := by
  have hs : (s.place scaleZ best).2.core = (s.core.place scaleZ best).2.core := rfl
  have ht : (t.place scaleZ best).2.core = (t.core.place scaleZ best).2.core := rfl
  refine ⟨?_, by rw [hs, ht, h]⟩
  show (s.core.place scaleZ best).1 = (t.core.place scaleZ best).1
  rw [h]

theorem refresh_core_eq (t : NanoTracker R) (image : Image Bgr) (r : SotResult R) :
    (t.refresh ops image r).core = (t.core.refresh ops image r).core := by
  simp only [refresh]
  split_ifs <;> first | rfl | contradiction

theorem refresh_core {s t : NanoTracker R} (h : s.core = t.core) (image : Image Bgr)
    (r : SotResult R) : (s.refresh ops image r).core = (t.refresh ops image r).core := by
  rw [refresh_core_eq, h, ← refresh_core_eq]

/-- The search blob, and the rest of the state, do not depend on the reused buffers. -/
theorem search_core {s t : NanoTracker R} (h : s.core = t.core) (image : Image Bgr) :
    (s.search ops image).core = (t.search ops image).core ∧
      (s.search ops image).xBlob = (t.search ops image).xBlob := by
  have hcrop : ∀ u : NanoTracker R, (u.search ops image).xBlob = (u.core.search ops image).xBlob := by
    intro u
    simp only [search]
    rw [blobRgb_buffer _ u.xBlob u.core.xBlob,
      nanoSubwindow_scratch _ _ _ _ _ _ u.cropScratch u.core.cropScratch]
    rfl
  refine ⟨?_, by rw [hcrop s, hcrop t, h]⟩
  show (s.core.search ops image).core = (t.core.search ops image).core
  rw [h]

theorem respond_core {s t : NanoTracker R} (h : s.core = t.core) (hblob : s.xBlob = t.xBlob) :
    s.respond ops = t.respond ops := by
  have hz : s.core.zf = t.core.zf ∧ s.core.zfMix = t.core.zfMix := by simp [h]
  rw [respond, respond, hblob, show s.zf = t.zf from hz.1, show s.zfMix = t.zfMix from hz.2]

theorem bestCell_core {s t : NanoTracker R} (h : s.core = t.core) (cls reg : List R) :
    s.bestCell ops cls reg = t.bestCell ops cls reg := by
  show s.core.bestCell ops cls reg = t.core.bestCell ops cls reg
  rw [h]

theorem scaleZ_core {s t : NanoTracker R} (h : s.core = t.core) : s.scaleZ = t.scaleZ := by
  show s.core.scaleZ = t.core.scaleZ
  rw [h]

/-- `update` does not depend on the reused buffers. -/
theorem update_core {s t : NanoTracker R} (h : s.core = t.core) (image : Image Bgr) :
    (s.update ops image).1 = (t.update ops image).1 ∧
      (s.update ops image).2.core = (t.update ops image).2.core := by
  obtain ⟨hsearch, hblob⟩ := search_core ops h image
  simp only [update]
  rw [respond_core ops hsearch hblob, bestCell_core ops hsearch, scaleZ_core h]
  obtain ⟨hres, hplace⟩ := place_core hsearch t.scaleZ
    ((t.search ops image).bestCell ops ((t.search ops image).respond ops).1
      ((t.search ops image).respond ops).2)
  exact ⟨hres, by rw [hres]; exact refresh_core ops hplace image _⟩

end NanoTracker

end Ctrk
