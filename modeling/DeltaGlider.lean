import DeltaGlider.Lib.RustStd
import DeltaGlider.Lib.Blocks
import DeltaGlider.Lib.Pull
import DeltaGlider.Lib.Aead
import DeltaGlider.Types
import DeltaGlider.Storage.ChunkFormat
import DeltaGlider.Storage.ChunkDecoder
import DeltaGlider.Storage.Encrypting
import DeltaGlider.Storage.ChunkedWriters
import DeltaGlider.Api.AwsChunked
import DeltaGlider.Storage.ChunkedReads
import DeltaGlider.Storage.FilesystemPaths
import DeltaGlider.Lib.Prog
import DeltaGlider.Engine.Backend
import DeltaGlider.Engine.Keys
import DeltaGlider.Engine.Calls
import DeltaGlider.Engine.Store
import DeltaGlider.Engine.Delete
import DeltaGlider.Engine.Retrieve
import DeltaGlider.Engine.Requests
import DeltaGlider.Engine.ReferenceInvariant
import DeltaGlider.Engine.LostResponse
import DeltaGlider.Api.Auth
import DeltaGlider.Lib.KeyMap
import DeltaGlider.Multipart.Store
import DeltaGlider.Multipart.Calls
import DeltaGlider.Multipart.Accounting
import DeltaGlider.Multipart.Lifecycle
import DeltaGlider.Multipart.Completion
import DeltaGlider.Multipart.Assembly
import DeltaGlider.Lib.Trace
import DeltaGlider.Lib.CasLease
import DeltaGlider.Coordination.Lease
import DeltaGlider.Coordination.Exclusion
import DeltaGlider.Engine.RetrieveStream
import DeltaGlider.Lib.Glob
import DeltaGlider.Lib.IamPolicy
import DeltaGlider.Iam.Permissions
import DeltaGlider.Iam.Visibility
import DeltaGlider.Lib.Base64
import DeltaGlider.Lib.JsonText
import DeltaGlider.Api.FormPost
import DeltaGlider.Sync.ConfigDbSync
import DeltaGlider.Replication.Planner
import DeltaGlider.Replication.Cycles
import DeltaGlider.Replication.Parity
import DeltaGlider.Lib.Cursor
import DeltaGlider.Engine.ListObjects
import DeltaGlider.Lib.IpAddr
import DeltaGlider.RateLimit.Limiter
import DeltaGlider.Security.OutboundUrl
import DeltaGlider.Security.BucketName
import DeltaGlider.RateLimit.ClientIp
import DeltaGlider.Lifecycle.Planner
import DeltaGlider.Lifecycle.RetainNewest
import DeltaGlider.Storage.MetadataCodec
import DeltaGlider.Storage.Routing
import DeltaGlider.Events.Outbox
import DeltaGlider.Events.Dispatcher
import DeltaGlider.Replication.EventConsumer
import DeltaGlider.Engine.Usage
import DeltaGlider.Multipart.Listing
import DeltaGlider.Lib.MergeWalk
import DeltaGlider.Replication.ParityDiff
import DeltaGlider.Transfer.Plan
import DeltaGlider.Api.ReplayGuard
import DeltaGlider.Storage.S3Listing
import DeltaGlider.Replication.ParityVerdict
import DeltaGlider.Storage.DelegatedListing
import DeltaGlider.Storage.DelegatedFetch
import DeltaGlider.Replication.Tracker
import DeltaGlider.Replication.Resume
