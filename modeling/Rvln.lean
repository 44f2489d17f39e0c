import Rvln.Machine
import Rvln.NavPath
import Rvln.ActionPathBridge
import Rvln.Python
import Rvln.ObservationState
import Rvln.EmbeddingCache
import Rvln.GoalCorrelation
import Rvln.Trig
import Rvln.EdgeNode
import Rvln.ActionTick
import Rvln.EdgeLifecycle
import Rvln.PyFloat
import Rvln.WaypointPD
import Rvln.PathFollower
import Rvln.DecodePath
import Rvln.NavidaText
import Rvln.StepCycle
import Rvln.History
import Rvln.NavidaBridge
import Rvln.NavidaSteps
import Rvln.PowerGate
import Rvln.CaptureBarrier
import Rvln.NavidaResponse
import Rvln.NavidaAgreement
import Rvln.LocalGoal
import Rvln.NodeEntities
import Rvln.RequestReply
import Rvln.CoalescingSender
import Rvln.ClientApp
import Rvln.GrpcLink
import Rvln.TextFeature
import Rvln.BinaryFloat
import Rvln.HalfCodec
import Rvln.Procedure
import Rvln.BatchRun
import Rvln.BatchAccounting
import Rvln.PyJson
import Rvln.WsMessage
import Rvln.PolicySession
import Rvln.Recorder
import Rvln.StepRuns
import Rvln.TurnAccounting
import Rvln.NavidaGrammar
import Rvln.NavidaReply
import Rvln.WaypointLimiter
import Rvln.Labels
import Rvln.RouteOracle
import Rvln.ClipWords
import Rvln.ClipTokenizer
import Rvln.CameraCapture
import Rvln.Window
import Rvln.ObsRing
import Rvln.ObsHistory
import Rvln.Overlap
import Rvln.AreaResize
import Rvln.PoseGoal
import Rvln.RigidMotion
import Rvln.DeltaPose
import Rvln.MovlaHistory
import Rvln.LiveSummary
import Rvln.LiveTransport
import Rvln.CivilTime
import Rvln.FileSink
import Rvln.SessionDirectory
import Rvln.SessionReplay
import Rvln.TextTable
import Rvln.AtomicReplace
import Rvln.PyJsonDumps
import Rvln.ResultFile
import Rvln.NearIsometry
import Rvln.R2RMotion
import Rvln.BestEffort
import Rvln.RemoteLoop
import Rvln.InferenceNode
import Rvln.HttpBody
import Rvln.LiveLoop
import Rvln.LiveServer
import Rvln.LiveRun
import Rvln.LiveRunSafety
import Rvln.LiveResults
import Rvln.NavidaHistory
