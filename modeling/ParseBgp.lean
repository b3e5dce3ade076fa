import ParseBgp.Core.MirroredMemory
import ParseBgp.Core.Loop
import ParseBgp.Core.ListLoop
import ParseBgp.Core.BoundedFifo
import ParseBgp.Core.WholeInput
import ParseBgp.Core.InputSplit
import ParseBgp.Fault
import ParseBgp.Message
import ParseBgp.Io.MirrorMapping
import ParseBgp.Io.MirroredRingBuffer
import ParseBgp.Io.RingBufferFifo
import ParseBgp.Io.Stream
import ParseBgp.Io.Reader
import ParseBgp.Io.ReaderSteps
import ParseBgp.Io.Streaming
import ParseBgp.Io.Instances
import ParseBgp.Io.WholeInputRefinement
import ParseBgp.Io.CallOrder
import ParseBgp.Io.AllocationFailure
import ParseBgp.Core.Ownership
import ParseBgp.Core.Pieces
import ParseBgp.Core.Cursor
import ParseBgp.Utils.CPtrView
import ParseBgp.Io.StreamFailure
import ParseBgp.Io.RangeFor
import ParseBgp.Io.GzipStream
import ParseBgp.Io.Bzip2Stream
import ParseBgp.Io.StatusInvariant
import ParseBgp.Io.MessageBoundaries
import ParseBgp.Io.MessageOrder
import ParseBgp.Io.GzipReader
import ParseBgp.Io.ReadCounts
import ParseBgp.Io.SplitInput
import ParseBgp.Io.CursorRefinement
import ParseBgp.Io.ReaderLoop
import ParseBgp.Io.CommitGuards
import ParseBgp.Core.Pointer
import ParseBgp.Utils.CPtrRange
import ParseBgp.Bgp.Update
import ParseBgp.Bgp.AttributeViews
import ParseBgp.Io.ReadLengths
import ParseBgp.Io.MappingOwnership
import ParseBgp.Io.MirrorCreation
import ParseBgp.Io.BufferContract
import ParseBgp.Io.StatusMeaning
import ParseBgp.Io.DecodeTermination
import ParseBgp.Bgp.Common
import ParseBgp.Utils.RangeLoop
import ParseBgp.Mrt.Message
import ParseBgp.Tools.Dump
import ParseBgp.Tools.DumpRefinement
import ParseBgp.Io.SilentEnd
import ParseBgp.Io.BufferGrowth
import ParseBgp.Io.RunTermination
import ParseBgp.Core.Logged
import ParseBgp.Io.CallLog
