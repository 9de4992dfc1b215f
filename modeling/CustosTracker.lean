import CustosTracker.Types
import CustosTracker.Common.Geometry
import CustosTracker.Common.Kalman
import CustosTracker.Common.Munkres.Basic
import CustosTracker.Common.Munkres.Augment
import CustosTracker.Common.Munkres.Solve
import CustosTracker.Tbd.Association
import CustosTracker.Tbd.ByteTracker
import CustosTracker.Tbd.Step
import CustosTracker.Tbd.Lifecycle
import CustosTracker.Tbd.Accounting
import CustosTracker.Tbd.Identity
import CustosTracker.Tbd.StaticScene
import CustosTracker.Common.Image
import CustosTracker.Tbd.Gmc
import CustosTracker.Tbd.MultiTracker
import CustosTracker.Tbd.GmcAlignment
import CustosTracker.Sot.SotTracker
import CustosTracker.Sot.Step
import CustosTracker.Sot.Drift
import CustosTracker.Sot.Hysteresis
import CustosTracker.Sot.Reacquire
import CustosTracker.Common.Subwindow
import CustosTracker.Sot.NanoTracker
import CustosTracker.Sot.MosseTracker
import CustosTracker.Sot.Reset
import CustosTracker.Ros.SotNode
import CustosTracker.Ros.Designation
import CustosTracker.Common.Covariance
import CustosTracker.Tbd.Relabel
import CustosTracker.Tbd.SortMode
import CustosTracker.Tbd.Translation
import CustosTracker.Library.Assignment
import CustosTracker.Tbd.Optimality
import CustosTracker.Tbd.Schedule
import CustosTracker.Common.Nms
import CustosTracker.Tbd.Yolov8
import CustosTracker.Tbd.ClassAware
import CustosTracker.Library.Params
import CustosTracker.Ros.ParamConfig
import CustosTracker.Ros.Reconfigure
import CustosTracker.Ros.AcceptedParams
import CustosTracker.Ros.Protocol
import CustosTracker.Ros.FramesPlayer
import CustosTracker.Ros.Lockstep
import CustosTracker.Library.Selection
import CustosTracker.Sot.Candidate
import CustosTracker.Tbd.Rescue
import CustosTracker.Library.AffineMotion
import CustosTracker.Common.Motion
import CustosTracker.Tbd.VelocitySeed
import CustosTracker.Tbd.Coasting
import CustosTracker.Tbd.DecodeReference
import CustosTracker.Tbd.Placement
import CustosTracker.Tbd.Detector
import CustosTracker.Common.Munkres.Machine
import CustosTracker.Common.Overlap
import CustosTracker.Common.Padding
import CustosTracker.Sot.Crops
import CustosTracker.Sot.PostProcess
import CustosTracker.Sot.Signal
import CustosTracker.Library.Coupling
import CustosTracker.Common.Channels
import CustosTracker.Apps.VideoSource
import CustosTracker.Library.Relay
import CustosTracker.Ros.Pipeline
import CustosTracker.Apps.Track
import CustosTracker.Ros.Replay
import CustosTracker.Common.MinimumVariance
import CustosTracker.Library.LeastSquares
import CustosTracker.Sot.MosseFilter
import CustosTracker.Common.Engine
import CustosTracker.Library.Cadence
import CustosTracker.Ros.DrawNode
import CustosTracker.Ros.Wire
import CustosTracker.Sot.Template
import CustosTracker.Tbd.Appearance
import CustosTracker.Library.Monitor
import CustosTracker.Ros.Profiling
import CustosTracker.Common.Latency
import CustosTracker.Tools.Calibration
import CustosTracker.Tools.SotEval
import CustosTracker.Library.Ledger
import CustosTracker.Tbd.Isolation
import CustosTracker.Library.Decimal
import CustosTracker.Tools.Dump
import CustosTracker.Common.MachineNumbers
import CustosTracker.Common.Munkres.Rounding
import CustosTracker.Sot.PlaceOverflow
import CustosTracker.Tbd.DecodeOverflow
