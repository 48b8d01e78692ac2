import HandTracking.BaseXGraph
import HandTracking.Library.BitVecSet
import HandTracking.Library.OrderedMap
import HandTracking.Library.Transition
import HandTracking.StreamCache
import HandTracking.XGraphSystem
import HandTracking.InFlightCache
import HandTracking.PushData
import HandTracking.StepShape
import HandTracking.Delivery
import HandTracking.OutputOrder
import HandTracking.BlockedOutput
import HandTracking.DroppedFrames
import HandTracking.ExecInfo
import HandTracking.Library.KalmanFilter
import HandTracking.OneEuroFilter
import HandTracking.Predictor
import HandTracking.PredictorRestart
import HandTracking.PredictorTime
import HandTracking.HandFilters
import HandTracking.HandRotation
import HandTracking.CameraModel
import HandTracking.Library.Buffer
import HandTracking.PopResult
import HandTracking.LiftInputs
import HandTracking.LiftMemory
import HandTracking.MonoMemory
import HandTracking.HandLandmark
import HandTracking.HandJoints
import HandTracking.MonoHandKpt3D
import HandTracking.HandFilter
import HandTracking.CameraConversion
import HandTracking.CoordTransformService
import HandTracking.StereoExtrinsics
import HandTracking.PluginLifecycle
import HandTracking.FirstFinalize
import HandTracking.Recalibration
import HandTracking.Library.WeakRegistry
import HandTracking.ModelRegistry
import HandTracking.SenderThread
import HandTracking.Library.BlockLoop
import HandTracking.Library.Lanes
import HandTracking.Softmax
import HandTracking.HandDetTrack
import HandTracking.Library.FirstBest
import HandTracking.HandDetect
import HandTracking.DetectLayout
import HandTracking.DetectInference
import HandTracking.DetectBatch
import HandTracking.DetectResize
import HandTracking.DetectHistory
import HandTracking.SharedQueue
import HandTracking.Library.Heap
import HandTracking.MemBuffer
import HandTracking.ThreadPool
import HandTracking.Library.BlockCipher
import HandTracking.Aes
import HandTracking.AesFile
import HandTracking.Library.Device
import HandTracking.Microtar
import HandTracking.MicrotarStreams
import HandTracking.MicrotarMemory
import HandTracking.MicrotarListing
import HandTracking.MicrotarData
import HandTracking.ModelConfig
import HandTracking.SharedConfig
import HandTracking.AnalysisTar
import HandTracking.Library.Rectangle
import HandTracking.Nms
import HandTracking.DetTrackBox
import HandTracking.WarpAffine
import HandTracking.SwitchSmoothing
import HandTracking.LostFrame
import HandTracking.PredictorStatus
import HandTracking.DetectBoxSmoothing
import HandTracking.PostFilter
import HandTracking.GestureEpisodes
import HandTracking.GestureFrames
import HandTracking.GestureRestart
import HandTracking.Library.Rotation
import HandTracking.EigenLaws
import HandTracking.JointChains
import HandTracking.Library.InPlace
import HandTracking.StereoRectification
import HandTracking.LiftOutputs
import HandTracking.KeypointMotion
import HandTracking.AffineSimilarity
import HandTracking.HandNimble
import HandTracking.NimbleFlora
import HandTracking.VirtualCamera
import HandTracking.CropInterpolation
import HandTracking.WarpBlocks
import HandTracking.Library.ParentTable
import HandTracking.HandSkeleton
import HandTracking.WorldTransfer
import HandTracking.CheckedProjection
import HandTracking.CameraRoundTrips
import HandTracking.BoxFormats
import HandTracking.RsnTiny
import HandTracking.HeatmapMeans
import HandTracking.LandmarkFilter
import HandTracking.FailedInference
import HandTracking.FingureHistories
import HandTracking.PinchEntry
import HandTracking.GestureInvariance
import HandTracking.HandOrientation
import HandTracking.PoolDepth
import HandTracking.TimedWait
import HandTracking.Library.Window
import HandTracking.SequenceWindow
import HandTracking.BlockHardRules
import HandTracking.EuroFilterReset
import HandTracking.ViewingRays
import HandTracking.PointFilters
import HandTracking.Library.SelectionSort
import HandTracking.Library.UnsignedLoop
import HandTracking.SwapSort
import HandTracking.Library.RunningVariance
import HandTracking.Statistic
import HandTracking.Library.NatInt
import HandTracking.NpuLayout
import HandTracking.Library.OrderStatistics
import HandTracking.Percentile
import HandTracking.HandDataRecord
import HandTracking.InputLatency
import HandTracking.Library.Fields
import HandTracking.Library.Table
import HandTracking.MicrotarHeaders
import HandTracking.MicrotarRoundTrip
import HandTracking.RecordOrder
import HandTracking.ReportHistory
import HandTracking.ArtosynDetect
import HandTracking.ArtosynRsn
import HandTracking.Library.MerkleDamgard
import HandTracking.Md5
import HandTracking.ModelIdentity
import HandTracking.FloraGraph
import HandTracking.Library.Similarity
import HandTracking.NimbleLift
import HandTracking.FloraBones
import HandTracking.StandardPosition
import HandTracking.DerivedEntries
