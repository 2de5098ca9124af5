import SdkPort.Lib.Linked
import SdkPort.Lib.Inherit
import SdkPort.Lib.Runs
import SdkPort.Lib.LastWriter
import SdkPort.OS.RepSched
import SdkPort.OS.SchedEnd
import SdkPort.OS.RepWave
import SdkPort.OS.RepMoves
import SdkPort.OS.RepOps
import SdkPort.OS.RepSync
import SdkPort.OS.Calls
import SdkPort.OS.Reach
import SdkPort.OS.View
import SdkPort.OS.SchedFrame
import SdkPort.OS.Structure
import SdkPort.OS.Preempt
import SdkPort.OS.MutexField
import SdkPort.OS.SchedDepth
import SdkPort.OS.Depth
import SdkPort.Lib.Withdraw
import SdkPort.OS.Cancel
import SdkPort.Lib.Blocks
import SdkPort.OS.Alloc
import SdkPort.OS.Cells
import SdkPort.OS.CellLists
import SdkPort.OS.CellOps
import SdkPort.OS.Heaps
import SdkPort.OS.HeapOps
import SdkPort.OS.HeapRegions
import SdkPort.OS.HeapCheck
import SdkPort.OS.HeapInit
import SdkPort.OS.HeapRuns
import SdkPort.OS.HeapSteps
import SdkPort.OS.HeapPartition
import SdkPort.OS.HeapIsolation
import SdkPort.OS.HeapCanonical
import SdkPort.Lib.RingBuffer
import SdkPort.OS.MessageFrame
import SdkPort.OS.Messages
import SdkPort.AR.Arq
import SdkPort.AR.ArqRuns
import SdkPort.AR.Engine
import SdkPort.AR.EngineSteps
import SdkPort.AR.ArqRefine
import SdkPort.AR.ArqReach
import SdkPort.AR.ArqSchedule
import SdkPort.Lib.StableInsert
import SdkPort.OS.Alarm
import SdkPort.OS.AlarmMem
import SdkPort.OS.AlarmSchedule
import SdkPort.OS.AlarmLinks
import SdkPort.OS.AlarmRep
import SdkPort.OS.AlarmRuns
import SdkPort.OS.AlarmDrain
import SdkPort.Card.CardCheck
import SdkPort.Lib.Chains
import SdkPort.Card.FatTable
import SdkPort.Card.FatAlloc
import SdkPort.Card.FatRuns
import SdkPort.DVD.Fst
import SdkPort.DVD.FstTree
import SdkPort.DVD.FstPath
import SdkPort.DVD.CurrentDir
import SdkPort.DVD.DirBuffer
import SdkPort.Card.Exi
import SdkPort.Card.CardBios
import SdkPort.Card.CardMount
import SdkPort.Card.CardRead
import SdkPort.Card.MountRuns
import SdkPort.Card.MountStart
import SdkPort.Card.FatExact
import SdkPort.Card.FatRelease
import SdkPort.Card.Dir
import SdkPort.Card.DirLookup
import SdkPort.Card.DirSeek
import SdkPort.Card.Unlock
import SdkPort.Card.NewerCopy
import SdkPort.DVD.Files
import SdkPort.DVD.Sessions
import SdkPort.DVD.Queue
import SdkPort.DVD.QueueRuns
import SdkPort.DVD.QueueStale
import SdkPort.OS.Module
import SdkPort.Lib.Gregorian
import SdkPort.OS.Time
import SdkPort.OS.Calendar
import SdkPort.OS.CalendarDates
import SdkPort.OS.CalendarRange
import SdkPort.OS.Sram
import SdkPort.OS.SramRuns
import SdkPort.Lib.Bands
import SdkPort.GX.PackedFields
import SdkPort.GX.PackedRuns
import SdkPort.GX.Z16
import SdkPort.Lib.MipChain
import SdkPort.GX.TexSize
import SdkPort.GX.VtxDesc
import SdkPort.GX.Texture
import SdkPort.GX.TexUnits
import SdkPort.GX.Setters
import SdkPort.GX.DispCopy
import SdkPort.OS.HeapSizes
import SdkPort.OS.HeapVerdict
import SdkPort.OS.MessageWaits
import SdkPort.Lib.Waves
import SdkPort.OS.WaveEnds
import SdkPort.OS.LocksEnd
import SdkPort.Card.MountImage
import SdkPort.Card.MountCopies
import SdkPort.AI.AiRuns
import SdkPort.Lib.Refine
import SdkPort.AR.Ar
import SdkPort.OS.Interrupts
import SdkPort.VI.Vi
import SdkPort.Lib.Intern
import SdkPort.VI.ViRuns
import SdkPort.VI.Retraces
import SdkPort.OS.GcWords
import SdkPort.SI.Si
import SdkPort.SI.SiRuns
import SdkPort.Lib.Octagon
import SdkPort.PAD.Pad
import SdkPort.PAD.PadClamp
import SdkPort.Lib.Pending
import SdkPort.PAD.PadReset
import SdkPort.PAD.PadRuns
import SdkPort.Card.Backend
import SdkPort.GX.Settings
import SdkPort.Card.ControlBlock
import SdkPort.OS.Stopwatch
