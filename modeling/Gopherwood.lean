import Gopherwood.Library.Computation
import Gopherwood.Library.Decimal
import Gopherwood.Library.Execution
import Gopherwood.Library.Journal
import Gopherwood.Library.LittleEndian
import Gopherwood.Library.Pages
import Gopherwood.Library.Pairing
import Gopherwood.Library.Recency
import Gopherwood.Library.Ring
import Gopherwood.Library.Slots
import Gopherwood.Library.Tally
import Gopherwood.Common.LRUCache
import Gopherwood.Common.CacheNodes
import Gopherwood.Common.CacheHistory
import Gopherwood.Common.ThreadPool
import Gopherwood.Core.BlockStatus
import Gopherwood.Core.CriticalSection
import Gopherwood.Core.FileActiveStatus
import Gopherwood.Core.Manifest
import Gopherwood.Core.ManifestCodec
import Gopherwood.Core.ManifestSafety
import Gopherwood.Core.SharedMemoryContext
import Gopherwood.Core.SharedMemoryObj
import Gopherwood.Block.LocalSpace
import Gopherwood.Block.StorageNames
import Gopherwood.File.Acquisition
import Gopherwood.File.AdminEviction
import Gopherwood.File.Connections
import Gopherwood.File.Deletion
import Gopherwood.File.Eviction
import Gopherwood.File.Exceptions
import Gopherwood.File.Handles
import Gopherwood.File.Local
import Gopherwood.File.Opening
import Gopherwood.File.Refusal
import Gopherwood.File.Segment
import Gopherwood.File.System
import Gopherwood.File.Thread
import Gopherwood.File.BlockCounts
import Gopherwood.File.CountSections
import Gopherwood.File.UsageCount
import Gopherwood.File.Accesses
import Gopherwood.Segment.Accesses
import Gopherwood.Segment.Accounting
import Gopherwood.Segment.DeferredDelete
import Gopherwood.Segment.FreeBuckets
import Gopherwood.Segment.Leases
import Gopherwood.Segment.Moves
import Gopherwood.Segment.Registration
import Gopherwood.Segment.Roles
import Gopherwood.Segment.Roster
import Gopherwood.Segment.Sweep
import Gopherwood.Segment.Tags
import Gopherwood.Segment.Update
import Gopherwood.Segment.UsageCount
import Gopherwood.Journal.AppendOnly
import Gopherwood.Journal.Bytes
import Gopherwood.Journal.CatchUp
import Gopherwood.Journal.Closing
import Gopherwood.Journal.Logged
import Gopherwood.Journal.Filling
import Gopherwood.Journal.FillingRounds
import Gopherwood.Journal.LongRecords
import Gopherwood.Journal.Numbering
import Gopherwood.Journal.Session
import Gopherwood.Journal.Steps
import Gopherwood.Journal.Writers
import Gopherwood.File.QuotaPolicy
import Gopherwood.File.Holdings
import Gopherwood.File.QuotaSections
import Gopherwood.File.HoldingMoves
import Gopherwood.File.Quota
import Gopherwood.Coherence.Blocks
import Gopherwood.Coherence.Books
import Gopherwood.Coherence.Calls
import Gopherwood.Coherence.Departure
import Gopherwood.Coherence.Desk
import Gopherwood.Coherence.FlatFiles
import Gopherwood.Coherence.Frame
import Gopherwood.Coherence.Growth
import Gopherwood.Coherence.Guarantees
import Gopherwood.Coherence.Marks
import Gopherwood.Coherence.OneHandle
import Gopherwood.Coherence.Leaving
import Gopherwood.Coherence.Lists
import Gopherwood.Coherence.Loading
import Gopherwood.Coherence.Runs
import Gopherwood.Coherence.Scene
import Gopherwood.Coherence.Sections
import Gopherwood.Coherence.Serving
import Gopherwood.Coherence.Stages
import Gopherwood.Coherence.Tagged
import Gopherwood.Coherence.Transfers
import Gopherwood.Coherence.Turns
import Gopherwood.Coherence.Views
import Gopherwood.Coherence.Visits
import Gopherwood.Stream.Assertions
import Gopherwood.Stream.EndOfFile
import Gopherwood.Stream.LoneHandle
