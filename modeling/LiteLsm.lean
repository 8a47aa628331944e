import LiteLsm.Filesystem.AppendOrder
import LiteLsm.Filesystem.ConcurrentAppends
import LiteLsm.Filesystem.AppendCalls
import LiteLsm.Support.Interleaving
import LiteLsm.Util.EscapedStrings
import LiteLsm.Common.StreamExactness
import LiteLsm.Storage.BloomLookups
import LiteLsm.Util.BloomMemory
import LiteLsm.Storage.PageIdentity
import LiteLsm.Storage.CorruptedRuns
import LiteLsm.Util.HashCollisions
import LiteLsm.Support.WordMixing
import LiteLsm.Storage.FlippedBits
import LiteLsm.Support.BitParity
import LiteLsm.Support.Lockstep
import LiteLsm.Storage.SortedCursor
import LiteLsm.Storage.BloomPages
import LiteLsm.Util.BloomExactness
import LiteLsm.Filesystem.Directories
import LiteLsm.Storage.StoredPages
import LiteLsm.Filesystem.AppendedData
import LiteLsm.Filesystem.VolumeRefinement
import LiteLsm.Filesystem.Volume
import LiteLsm.Filesystem.PosixFileSystem
import LiteLsm.Storage.SeekStart
import LiteLsm.Util.StatusCopies
import LiteLsm.Support.Runs
import LiteLsm.Filesystem.Descriptors
import LiteLsm.Storage.ConfiguredPageSize
import LiteLsm.Storage.BuilderReuse
import LiteLsm.Storage.CorruptedPages
import LiteLsm.Common.VarintParsing
import LiteLsm.Common.VarintLengths
import LiteLsm.Storage.FilterCorruption
import LiteLsm.Filesystem.PosixFileRead
import LiteLsm.Filesystem.PosixFile
import LiteLsm.Filesystem.IoError
import LiteLsm.Storage.SliceLifetime
import LiteLsm.Storage.SizeEstimate
import LiteLsm.Storage.PageInvariant
import LiteLsm.Storage.EntryEncoding
import LiteLsm.Common.VarintExactness
import LiteLsm.Common.VarintStream
import LiteLsm.Support.Memory
import LiteLsm.Support.IndexSearch
import LiteLsm.Support.Base128
import LiteLsm.Support.BitArray
import LiteLsm.Support.BitCrc
import LiteLsm.Support.Segments
import LiteLsm.Common.Coding
import LiteLsm.Common.Comparator
import LiteLsm.Common.FilterPolicy
import LiteLsm.Util.Bloom
import LiteLsm.Util.Crc32c
import LiteLsm.Storage.Page
import LiteLsm.Storage.DataPageBuilder
import LiteLsm.Storage.DataPageReader
import LiteLsm.Storage.NewEntry
import LiteLsm.Storage.PageLayout
import LiteLsm.Storage.PageParsing
import LiteLsm.Storage.CursorMotion
import LiteLsm.Storage.RoundTrip
import LiteLsm.Storage.SeekMotion
import LiteLsm.Storage.SeekLowerBound
import LiteLsm.Storage.SeekHistory
import LiteLsm.Storage.InBounds
import LiteLsm.Storage.FilterPage
import LiteLsm.Storage.FilterWindows
import LiteLsm.Storage.FilterLookup
import LiteLsm.Storage.PageChecksum
