import AwsS3fs.Lib.Bytes
import AwsS3fs.Lib.Runs
import AwsS3fs.Lib.Threads
import AwsS3fs.Lib.FileTree
import AwsS3fs.Lib.Regex
import AwsS3fs.Lib.Calendar
import AwsS3fs.Lib.Recency
import AwsS3fs.Lib.ObjectStore
import AwsS3fs.GrantParameters
import AwsS3fs.Multipart
import AwsS3fs.Grant
import AwsS3fs.GrantRequests
import AwsS3fs.GrantLoop
import AwsS3fs.GrantMessages
import AwsS3fs.MultipartUpload
import AwsS3fs.Publishing
import AwsS3fs.CacheDatabase
import AwsS3fs.UploadParts
import AwsS3fs.TransferQueue
import AwsS3fs.TransferInvariant
import AwsS3fs.DownloadQueue
import AwsS3fs.TransferSlots
import AwsS3fs.TransferRows
import AwsS3fs.UploadSchedule
import AwsS3fs.SubscriptionLifetime
import AwsS3fs.GrantSocket
import AwsS3fs.CacheClients
import AwsS3fs.CachedReplies
import AwsS3fs.SingleDownload
import AwsS3fs.CacheCommands
import AwsS3fs.CreateMessage
import AwsS3fs.FileNames
import AwsS3fs.CacheSocket
import AwsS3fs.UploadSource
import AwsS3fs.CommandReplies
import AwsS3fs.ClientStubs
import AwsS3fs.ConcurrentCreates
import AwsS3fs.ObjectUrls
import AwsS3fs.FileMetadata
import AwsS3fs.Lib.Strings
import AwsS3fs.DateReads
import AwsS3fs.DateParts
import AwsS3fs.HeaderOrder
import AwsS3fs.HeaderNumbers
import AwsS3fs.OpenHandles
import AwsS3fs.UserKeys
import AwsS3fs.RequestSignatures
import AwsS3fs.StatCache
import AwsS3fs.DirectoryCache
import AwsS3fs.Paths
import AwsS3fs.FileStats
import AwsS3fs.MetadataUpdates
import AwsS3fs.AttributeChanges
import AwsS3fs.DirectoryListings
import AwsS3fs.ListingCoherence
import AwsS3fs.EmptyDirectories
import AwsS3fs.ListingPages
import AwsS3fs.FailedListings
import AwsS3fs.Lib.Blocks
import AwsS3fs.Lib.Base64
import AwsS3fs.Base64Coding
import AwsS3fs.Lib.Digests
import AwsS3fs.DigestBlocks
import AwsS3fs.DigestStreams
import AwsS3fs.KeyedDigests
import AwsS3fs.RequestHeaders
import AwsS3fs.CanonicalHeaders
import AwsS3fs.SigningBuffers
import AwsS3fs.Lib.Settings
import AwsS3fs.CommandLine
import AwsS3fs.Configure
import AwsS3fs.Lib.Pieces
import AwsS3fs.CurlBuffers
import AwsS3fs.ResponseHeaders
import AwsS3fs.AccessPermissions
import AwsS3fs.PathSearch
import AwsS3fs.CleanPaths
import AwsS3fs.HeaderTimes
import AwsS3fs.ShortReads
import AwsS3fs.LocalFileCreation
import AwsS3fs.Lib.Allocations
import AwsS3fs.Logger
import AwsS3fs.Lib.FormUrl
import AwsS3fs.UrlEncoding
import AwsS3fs.Lib.Aggregates
import AwsS3fs.UploadCompletion
import AwsS3fs.Lib.Escapes
import AwsS3fs.ColonValues
import AwsS3fs.PathTrimming
import AwsS3fs.Lib.Locks
import AwsS3fs.Lib.Waits
import AwsS3fs.MountLocks
import AwsS3fs.MountFiles
import AwsS3fs.Volumes
import AwsS3fs.SymbolicLinks
import AwsS3fs.Descriptors
import AwsS3fs.StartProcesses
import AwsS3fs.ProcessEnds
import AwsS3fs.SigpipeSignals
import AwsS3fs.DaemonLocks
import AwsS3fs.FileInfoLifetimes
