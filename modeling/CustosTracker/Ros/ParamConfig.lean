import CustosTracker.Library.Params
import CustosTracker.Ros.SotNode
import CustosTracker.Tbd.MultiTracker
import CustosTracker.Tbd.Yolov8

set_option relaxedAutoImplicit false
set_option autoImplicit false

/-!
# The parameters of the tracker nodes

`declare_tbd_params` and `declare_sot_params` of `ros2/ctrk_ros/src/param_config.cpp`, as scripts
that declare the parameters in the order of the source.

## Main definitions

* `Ctrk.ParamValue` — the values of parameters.
* `Ctrk.TbdParams`, `Ctrk.SotParams` — what the scripts read.
* `Ctrk.declareTbdParams`, `Ctrk.declareSotParams` — the scripts.

## Implementation notes

In exact arithmetic a `float` holds the number of the `double` it was cast from.
-/

namespace Ctrk

open Params

variable {R : Type} [Scalar R]

/-! ## Values -/

/-- The value of a parameter. -/
inductive ParamValue (R : Type)
  | bool (b : Bool)
  | int (i : ℤ)
  | double (x : R)
  | string (s : String)
  | ints (l : List ℤ)
  | doubles (l : List R)
  deriving DecidableEq

/-- Whether two values have one type. -/
def ParamValue.sameType : ParamValue R → ParamValue R → Bool
  | bool _, bool _ => true
  | int _, int _ => true
  | double _, double _ => true
  | string _, string _ => true
  | ints _, ints _ => true
  | doubles _, doubles _ => true
  | _, _ => false

omit [Scalar R] in
@[simp] theorem ParamValue.sameType_self (v : ParamValue R) : v.sameType v = true := by
  cases v <;> rfl

/-- Scripts over parameters, with the text of their exceptions. -/
abbrev ParamScript (R : Type) := Script (ParamValue R) String

/-- The exception of a value read at another type. -/
def wrongType {α : Type} (name : String) : ParamScript R α :=
  .fail ("parameter '" ++ name ++ "': wrong type")

/-- `get_double`. -/
def getDouble (name : String) (dflt : R) : ParamScript R R :=
  .declare name (.double dflt) fun v => match v with
    | .double x => .done x
    | _ => wrongType name

/-- `get_float`. -/
def getFloat (name : String) (dflt : R) : ParamScript R R := getDouble name dflt

/-- `get_int`: the 64-bit value cut down to an `int`. -/
def getInt (name : String) (dflt : ℤ) : ParamScript R ℤ :=
  .declare name (.int dflt) fun v => match v with
    | .int i => .done (wrapInt i)
    | _ => wrongType name

/-- `get_bool`. -/
def getBool (name : String) (dflt : Bool) : ParamScript R Bool :=
  .declare name (.bool dflt) fun v => match v with
    | .bool b => .done b
    | _ => wrongType name

/-- `get_string`. -/
def getString (name dflt : String) : ParamScript R String :=
  .declare name (.string dflt) fun v => match v with
    | .string s => .done s
    | _ => wrongType name

/-- `declare_parameter` with a list of integers. -/
def getInts (name : String) (dflt : List ℤ) : ParamScript R (List ℤ) :=
  .declare name (.ints dflt) fun v => match v with
    | .ints l => .done l
    | _ => wrongType name

/-- `declare_parameter` with a list of numbers. -/
def getDoubles (name : String) (dflt : List R) : ParamScript R (List R) :=
  .declare name (.doubles dflt) fun v => match v with
    | .doubles l => .done l
    | _ => wrongType name

/-- `bad_enum`. -/
def badEnum {α : Type} (name value : String) : ParamScript R α :=
  .fail ("parameter '" ++ name ++ "': unknown value '" ++ value ++ "'")

/-! ## Records -/

/-- `CommonParams`. -/
structure CommonParams where
  dumpPath : String := ""
  qosReliability : String := "best_effort"
  qosDepth : ℤ := 1
  bench : Bool := false
  deriving DecidableEq

/-- `TbdNodeParams`. -/
structure TbdParams (R : Type) [Scalar R] where
  detector : Yolov8Config R
  cfg : TbdConfig R
  publishLost : Bool
  common : CommonParams

/-- `ReacquireParams`. -/
structure ReacquireParams (R : Type) [Scalar R] where
  enable : Bool
  detector : Yolov8Config R
  config : ReacquireConfig R

/-- `SotNodeParams`, all of it. -/
structure SotParams (R : Type) [Scalar R] where
  backboneZPath : String
  backboneXPath : String
  headPath : String
  engine : EngineOptions
  cfg : SotConfig R
  reacquire : ReacquireParams R
  initBbox : List R
  common : CommonParams

/-! ## Scripts -/

/-- `declare_engine`. -/
def declareEngine (pfx : String) (dflt : EngineOptions) : ParamScript R EngineOptions := do
  let intraOpThreads ← getInt (pfx ++ ".intra_op_threads") dflt.intraOpThreads
  let allowSpinning ← getBool (pfx ++ ".allow_spinning") dflt.allowSpinning
  let warmup ← getBool (pfx ++ ".warmup") dflt.warmup
  let useDnnl ← getBool (pfx ++ ".use_dnnl") dflt.useDnnl
  return { intraOpThreads, allowSpinning, warmup, useDnnl }

/-- `declare_detector`. -/
def declareDetector (pfx : String) (dflt : Yolov8Config R) : ParamScript R (Yolov8Config R) := do
  let modelPath ← getString (pfx ++ ".model_path") dflt.modelPath
  let confThr ← getFloat (pfx ++ ".conf_thr") dflt.confThr
  let nmsIou ← getFloat (pfx ++ ".nms_iou") dflt.nmsIou
  let classes ← getInts (pfx ++ ".keep_classes") []
  let engine ← declareEngine (pfx ++ ".engine") dflt.engine
  return { modelPath, confThr, nmsIou, keepClasses := classes.map wrapInt, engine }

/-- `declare_common`. -/
def declareCommon : ParamScript R CommonParams := do
  let dflt : CommonParams := {}
  let dumpPath ← getString "dump_path" ""
  let qosReliability ← getString "image_qos_reliability" dflt.qosReliability
  if qosReliability ≠ "best_effort" ∧ qosReliability ≠ "reliable" then
    badEnum "image_qos_reliability" qosReliability
  else
    let qosDepth ← getInt "image_qos_depth" dflt.qosDepth
    let bench ← getBool "bench" dflt.bench
    return { dumpPath, qosReliability, qosDepth, bench }

/-- The association parameters of `declare_tbd_params`. -/
def declareAssoc : ParamScript R (AssocConfig R) := do
  let dflt : AssocConfig R := {}
  let useByte ← getBool "assoc.use_byte" dflt.useByte
  let trackThresh ← getFloat "assoc.track_thresh" dflt.trackThresh
  let matchThreshHigh ← getFloat "assoc.match_thresh_high" dflt.matchThreshHigh
  let matchThreshLow ← getFloat "assoc.match_thresh_low" dflt.matchThreshLow
  let tentativeMatchThresh ← getFloat "assoc.tentative_match_thresh" dflt.tentativeMatchThresh
  let newTrackThresh ← getFloat "assoc.new_track_thresh" dflt.newTrackThresh
  let nInit ← getInt "assoc.n_init" dflt.nInit
  let maxAge ← getInt "assoc.max_age" dflt.maxAge
  let nsa ← getBool "assoc.nsa" dflt.nsa
  let tentativeRelaxPerCoast ←
    getFloat "assoc.tentative_relax_per_coast" dflt.tentativeRelaxPerCoast
  let tentativeGateFloor ← getFloat "assoc.tentative_gate_floor" dflt.tentativeGateFloor
  let tentativePatience ← getInt "assoc.tentative_patience" dflt.tentativePatience
  let velocitySeed ← getBool "assoc.velocity_seed" dflt.velocitySeed
  let appearanceWeight ← getFloat "assoc.appearance_weight" dflt.appearanceWeight
  let embeddingEma ← getFloat "assoc.embedding_ema" dflt.embeddingEma
  return { useByte, trackThresh, matchThreshHigh, matchThreshLow, tentativeMatchThresh,
           newTrackThresh, nInit, maxAge, nsa, tentativeRelaxPerCoast, tentativeGateFloor,
           tentativePatience, velocitySeed, appearanceWeight, embeddingEma }

/-- `declare_tbd_params`. -/
def declareTbdParams : ParamScript R (TbdParams R) := do
  let dflt : TbdConfig R := {}
  let detector ← declareDetector "detector" { modelPath := "models/cache/yolov8n_640.onnx" }
  let assoc ← declareAssoc
  let gmcName ← getString "gmc" "off"
  let gmc ← if gmcName = "off" then pure GmcMethod.off
    else if gmcName = "sparse_flow" then pure GmcMethod.sparseFlow
    else badEnum "gmc" gmcName
  let nominalFps ← getDouble "nominal_fps" dflt.nominalFps
  let detectInterval ← getInt "detect_interval" dflt.detectInterval
  let publishLost ← getBool "publish_lost" false
  let common ← declareCommon
  return { detector, cfg := { assoc, gmc, nominalFps, detectInterval }, publishLost, common }

/-- The re-identification parameters of `declare_sot_params`. -/
def declareReid : ParamScript R (Reid R) := do
  let dflt : Reid R := {}
  let name ← getString "reid.embedder" "hsv"
  let embedder ← if name = "hsv" then pure Embedder.hsvHist
    else if name = "nanoz" then pure Embedder.nanoZ
    else if name = "none" then pure Embedder.none
    else badEnum "reid.embedder" name
  let accept ← getFloat "reid.accept" dflt.accept
  let driftCheckEvery ← getInt "reid.drift_check_every" dflt.driftCheckEvery
  let driftThr ← getFloat "reid.drift_thr" dflt.driftThr
  return { embedder, accept, driftCheckEvery, driftThr }

/-- The re-acquisition parameters of `declare_sot_params`. -/
def declareReacquire : ParamScript R (ReacquireParams R) := do
  let dflt : ReacquireConfig R := {}
  let enable ← getBool "reacquire.enable" false
  let detector ← declareDetector "reacquire.detector"
    { modelPath := "models/cache/yolov8n_640.onnx", confThr := 1 / 4 }
  let classId ← getInt "reacquire.class_id" 0
  let detectEvery ← getInt "reacquire.detect_every" dflt.detectEvery
  let minScore ← getFloat "reacquire.min_score" dflt.minScore
  let sizeLow ← getFloat "reacquire.size_low" dflt.sizeLow
  let sizeHigh ← getFloat "reacquire.size_high" dflt.sizeHigh
  let baseRadiusFrac ← getFloat "reacquire.base_radius_frac" dflt.baseRadiusFrac
  let growthPerFrame ← getFloat "reacquire.growth_per_frame" dflt.growthPerFrame
  return { enable, detector, config :=
    { classId, detectEvery, minScore, sizeLow, sizeHigh, baseRadiusFrac, growthPerFrame } }

/-- Whether `init_bbox` is neither empty nor a box of positive width and height. -/
def badInitBbox (box : List R) : Bool :=
  !box.isEmpty && (decide (box.length ≠ 4) || decide (box.getD 2 0 ≤ 0) || decide (box.getD 3 0 ≤ 0))

/-- The parameters of `declare_sot_params` behind the backend. -/
def declareSotRest (backend : SotBackend) : ParamScript R (SotParams R) := do
  let dflt : SotConfig R := {}
  let backboneZPath ← getString "backbone_z_path" "models/cache/nanotrack_backbone_z.onnx"
  let backboneXPath ← getString "backbone_x_path" "models/cache/nanotrack_backbone_x.onnx"
  let headPath ← getString "head_path" "models/cache/nanotrack_head.onnx"
  let engine ← declareEngine "engine" { intraOpThreads := 2, allowSpinning := false }
  let penaltyK ← getFloat "penalty_k" dflt.penaltyK
  let windowInfluence ← getFloat "window_influence" dflt.windowInfluence
  let sizeLr ← getFloat "size_lr" dflt.sizeLr
  let contextAmount ← getFloat "context_amount" dflt.contextAmount
  let lostScoreThr ← getFloat "lost_score_thr" dflt.lostScoreThr
  let lostPatience ← getInt "lost_patience" dflt.lostPatience
  let templateUpdateInterval ← getInt "template_update_interval" dflt.templateUpdateInterval
  let templateRefreshThr ← getFloat "template_refresh_thr" dflt.templateRefreshThr
  let templateBlend ← getFloat "template_blend" dflt.templateBlend
  let reid ← declareReid
  let reacquire ← declareReacquire
  let initBbox ← getDoubles "init_bbox" []
  if badInitBbox initBbox then
    .fail "parameter 'init_bbox': expected [x,y,w,h] with w,h > 0"
  else
    let common ← declareCommon
    let cfg : SotConfig R :=
      { backend, penaltyK, windowInfluence, sizeLr, contextAmount, lostScoreThr, lostPatience,
        templateUpdateInterval, templateRefreshThr, templateBlend, reid }
    return { backboneZPath, backboneXPath, headPath, engine, cfg, reacquire, initBbox, common }

/-- `declare_sot_params`. -/
def declareSotParams : ParamScript R (SotParams R) := do
  let name ← getString "backend" "nano"
  let backend ← if name = "nano" then pure SotBackend.nanoTrack
    else if name = "mosse" then pure SotBackend.mosse
    else badEnum "backend" name
  declareSotRest backend

end Ctrk
