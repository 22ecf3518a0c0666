import MagpieTts.Library.Run
import MagpieTts.Library.BlockExecution
import MagpieTts.Library.LeaseLedger
import MagpieTts.Library.ThrowingState
import MagpieTts.Runtime.MachineWords
import MagpieTts.Runtime.AlignmentContract
import MagpieTts.Runtime.AttentionPrior
import MagpieTts.Runtime.AlignmentController
import MagpieTts.Runtime.AlignmentKernel
import MagpieTts.Runtime.AlignmentRefinement
import MagpieTts.Runtime.RequestState
import MagpieTts.Runtime.RequestStateSpec
import MagpieTts.Runtime.RequestAllocation
import MagpieTts.Runtime.RequestCalls
import MagpieTts.Runtime.RequestConservation
import MagpieTts.Api.PublicSnapshot
import MagpieTts.Api.AudioLease
import MagpieTts.Api.AudioHandOver
import MagpieTts.Runtime.RequestSnapshots
import MagpieTts.Rust.RequestSnapshot
import MagpieTts.Rust.SnapshotProtocol
import MagpieTts.Runtime.RuntimeManifest
import MagpieTts.Runtime.AsyncPipelineContract
import MagpieTts.Runtime.GenerationDiagnostics
import MagpieTts.Runtime.SynthesisErrors
import MagpieTts.Runtime.SynthesisPipeline
import MagpieTts.Runtime.SynthesisPipelineSpec
import MagpieTts.Runtime.SynthesisChunk
import MagpieTts.Runtime.SynthesisWorker
import MagpieTts.Runtime.RequestTraffic
import MagpieTts.Runtime.RequestLead
import MagpieTts.Runtime.SynthesisStream
import MagpieTts.Runtime.SynthesisInvariant
import MagpieTts.Runtime.SynthesisSteps
import MagpieTts.Runtime.SynthesisRuns
import MagpieTts.Runtime.SynthesisPublication
import MagpieTts.Runtime.InflightWork
import MagpieTts.Runtime.InflightPipeline
import MagpieTts.Runtime.SynthesisSchedule
import MagpieTts.Runtime.CodecExecutions
import MagpieTts.Library.Interaction
import MagpieTts.Rust.WorkerEvents
import MagpieTts.Rust.AudioLease
import MagpieTts.Rust.WorkerProgram
import MagpieTts.Rust.WorkerSystem
import MagpieTts.Rust.WorkerLedger
import MagpieTts.Rust.WorkerTracking
import MagpieTts.Rust.WorkerDiscipline
import MagpieTts.Rust.WorkerChannels
import MagpieTts.Rust.WorkerDelivery
import MagpieTts.Plugins.DevicePositionStatus
import MagpieTts.Plugins.DevicePositionBank
import MagpieTts.Runtime.ExecutionStatus
import MagpieTts.Library.StridedGemm
import MagpieTts.Plugins.DevicePositionAttention
import MagpieTts.Plugins.DevicePositionScan
import MagpieTts.Plugins.DevicePositionEnqueue
import MagpieTts.Plugins.DevicePositionRefinement
import MagpieTts.Manifest.ManifestError
import MagpieTts.Manifest.RuntimeFingerprint
import MagpieTts.Manifest.OsRelease
import MagpieTts.Library.ExceptRules
import MagpieTts.Plugins.PluginRegistration
import MagpieTts.Runtime.PluginLoader
import MagpieTts.Runtime.PluginOwnership
import MagpieTts.Library.RowTensor
import MagpieTts.Export.SofiaAlignmentController
import MagpieTts.Export.AlignmentAgreement
import MagpieTts.Library.Streaming
import MagpieTts.Library.StreamingConvolution
import MagpieTts.Export.NanoCodec
import MagpieTts.Export.NanoCodecStreaming
import MagpieTts.Library.FileSystem
import MagpieTts.Library.TextLines
import MagpieTts.Library.FieldTable
import MagpieTts.Bundle.BundleFiles
import MagpieTts.Bundle.BundleInventory
import MagpieTts.Bundle.BundleVerifier
import MagpieTts.Runtime.PreparedTokens
import MagpieTts.Api.ErrorBuffer
import MagpieTts.Api.RequestStart
import MagpieTts.Rust.RequestValidation
import MagpieTts.Runtime.AlignmentLaws
import MagpieTts.Runtime.OutputCapacity
import MagpieTts.Runtime.StartupDrain
import MagpieTts.Frontend.OpenJTalk
import MagpieTts.Frontend.SourceProjection
import MagpieTts.Frontend.PreparedUtterance
import MagpieTts.Frontend.SourceLineage
import MagpieTts.Frontend.PhonemeUnits
import MagpieTts.Frontend.PhonemeOrder
import MagpieTts.Frontend.PhonemeStructure
import MagpieTts.Library.GreedyPartition
import MagpieTts.Frontend.SegmentRanges
import MagpieTts.Frontend.NewlineBoundaries
import MagpieTts.Frontend.ServerRequest
import MagpieTts.Frontend.ServerLoop
import MagpieTts.Frontend.BenchmarkSource
import MagpieTts.Frontend.BenchmarkCorpus
import MagpieTts.Frontend.CorpusRecords
import MagpieTts.Frontend.CorpusRoundTrip
import MagpieTts.Frontend.CorpusSize
import MagpieTts.Api.Utf8Validation
import MagpieTts.Runtime.LeaseIdInterleaving
import MagpieTts.Manifest.DuplicateKeys
import MagpieTts.Runtime.StartupGoldenCapture
import MagpieTts.Api.RequestWait
import MagpieTts.Library.Philox
import MagpieTts.Plugins.PhiloxStream
import MagpieTts.Library.TreeReduction
import MagpieTts.Plugins.SamplingKernel
import MagpieTts.Plugins.EosKernels
import MagpieTts.Library.JsonText
import MagpieTts.Library.JsonTokens
import MagpieTts.Library.JsonScanner
import MagpieTts.Library.JsonRecord
import MagpieTts.Library.JsonWriter
import MagpieTts.Library.Sha256
import MagpieTts.Library.Latch
import MagpieTts.Plugins.KernelClassTable
import MagpieTts.Plugins.ClassTableDocument
import MagpieTts.Plugins.ClassTableIdentity
import MagpieTts.Export.Mode8ClassTable
import MagpieTts.Runtime.TensorStorage
import MagpieTts.Runtime.DeviceMemoryRegistry
import MagpieTts.Library.DenseTensor
import MagpieTts.Export.ConvolutionLowering
import MagpieTts.Export.GoldenNanoCodec
import MagpieTts.Runtime.AlignmentLaunch
import MagpieTts.Runtime.SessionWorkspace
import MagpieTts.Runtime.GenerationRecurrence
import MagpieTts.Runtime.GenerationBatches
import MagpieTts.Runtime.DeviceRuns
import MagpieTts.Runtime.DeviceComputations
import MagpieTts.Runtime.DeviceStreams
import MagpieTts.Runtime.DevicePublication
import MagpieTts.Runtime.ListenedRuns
import MagpieTts.Runtime.DeviceAudio
import MagpieTts.Runtime.GenerationGates
import MagpieTts.Runtime.SessionReuse
import MagpieTts.Runtime.HealthyDevice
import MagpieTts.Runtime.HealthyRuns
