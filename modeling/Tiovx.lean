import Tiovx.Lib.Run
import Tiovx.Lib.RingQueue
import Tiovx.ObjDesc
import Tiovx.ObjDescQueue
import Tiovx.AcquireParameters
import Tiovx.Target
import Tiovx.Steps
import Tiovx.Runs
import Tiovx.AcquireAll
import Tiovx.WakeUps
import Tiovx.Conservation
import Tiovx.Triggers
import Tiovx.Schedules
import Tiovx.RunsOnce
import Tiovx.Completion
import Tiovx.OncePerRun
import Tiovx.NodeKernel
import Tiovx.VerifyGraph
import Tiovx.Reverify
import Tiovx.KernelPairs
import Tiovx.KernelRuns
import Tiovx.FreeQueue
import Tiovx.RunCounts
import Tiovx.ScheduleCounts
import Tiovx.Lib.FoldExcept
import Tiovx.GraphData
import Tiovx.InAndOutNodes
import Tiovx.EdgeOrder
import Tiovx.GraphState
import Tiovx.CopyMoveNodes
import Tiovx.TopologicalSort
import Tiovx.DataReferences
import Tiovx.DataRefQueues
import Tiovx.VerifyStages
import Tiovx.LiveNodes
import Tiovx.SharedKernels
import Tiovx.ReplicateNode
import Tiovx.Replicas
import Tiovx.DataMemory
import Tiovx.AllocatedData
import Tiovx.QueueDescriptors
import Tiovx.Lib.SlotPool
import Tiovx.EventQueue
import Tiovx.CmdObjects
import Tiovx.TriggerNode
import Tiovx.EnqueueCounts
import Tiovx.GraphStream
import Tiovx.StreamHandshake
import Tiovx.ScheduleStatus
import Tiovx.ManualSchedule
import Tiovx.PipeupRefs
import Tiovx.PipeupEnqueues
import Tiovx.GraphAbandon
import Tiovx.Lib.SlotTable
import Tiovx.KernelTable
import Tiovx.TargetKernels
import Tiovx.LogRtTrace
import Tiovx.SubimageLists
import Tiovx.Lib.ByteRange
import Tiovx.RawImage
import Tiovx.ArrayObjects
import Tiovx.ImageLayout
import Tiovx.Lib.StackWalk
import Tiovx.ImagePointers
import Tiovx.PointerMoves
import Tiovx.PointerRuns
import Tiovx.ImagePlacement
import Tiovx.RegionAddresses
import Tiovx.Lib.ByteMemory
import Tiovx.Lib.ByteGrid
import Tiovx.ImagePatch
import Tiovx.PatchSizes
import Tiovx.PatchAccess
import Tiovx.ImageSwap
import Tiovx.ImageCopy
import Tiovx.Lib.TwelveBits
import Tiovx.UniformImage
import Tiovx.PatchRoundTrip
import Tiovx.VirtualLinks
import Tiovx.VirtualReleases
import Tiovx.DequeueBatch
import Tiovx.ObjectArrayList
import Tiovx.MapSlots
import Tiovx.TensorCopy
import Tiovx.SupplementaryData
import Tiovx.UserDataObjects
import Tiovx.TensorPatch
import Tiovx.KernelParameters
import Tiovx.ResolvedParameters
import Tiovx.WrittenParameters
import Tiovx.ElementKernels
import Tiovx.ContainerKernels
import Tiovx.Lib.CountedArray
import Tiovx.GraphNodeLists
import Tiovx.MetaFormat
import Tiovx.ReferenceLists
import Tiovx.ParameterConfig
import Tiovx.ParameterReferences
import Tiovx.EnqueueRuns
import Tiovx.SetGraphParameter
import Tiovx.Lib.TopologicalOrder
import Tiovx.SuperNodeSort
import Tiovx.SortOutcome
import Tiovx.PipelineArrays
import Tiovx.PipelineDepths
import Tiovx.DataObjects
import Tiovx.Interchangeable
import Tiovx.Exemplars
import Tiovx.ExemplarAttributes
import Tiovx.ExemplarCopies
import Tiovx.TimedWaits
import Tiovx.ValidRects
import Tiovx.TargetNodes
import Tiovx.DelayRuns
import Tiovx.SetParameter
import Tiovx.HandleTransfers
import Tiovx.LinkReleases
import Tiovx.LinkSettles
import Tiovx.Progress
import Tiovx.FirstVerification
import Tiovx.PosixQueue
import Tiovx.RtosQueue
import Tiovx.BoundedWork
import Tiovx.ComputedResults
