import Sitos.Core.Bytes
import Sitos.Core.Machine
import Sitos.Wire.AckResult
import Sitos.Fence.Diagnostic
import Sitos.Fence.LaneState
import Sitos.Fence.LaneHistory
import Sitos.Core.Ring
import Sitos.Node.AckRegistry
import Sitos.Node.AckHistory
import Sitos.Node.DurableWrite
import Sitos.Wire.Batch
import Sitos.Wire.Key
import Sitos.Node.Apply
import Sitos.Cache.Mutations
import Sitos.Client.ParamSubscription
import Sitos.Cache.Agreement
import Sitos.Cache.Attach
import Sitos.Node.AckApply
import Sitos.Catalog.FlatJson
import Sitos.Catalog.Record
import Sitos.Catalog.Lifecycle
import Sitos.Core.Crash
import Sitos.Core.OrderedMap
import Sitos.Node.DurableLifecycle
import Sitos.Node.CatalogHistory
import Sitos.Node.SessionAdmin
import Sitos.Node.SessionAdminSafety
import Sitos.Fence.Publisher
import Sitos.Cache.Delivery
import Sitos.Cache.DeliverySound
import Sitos.Core.Segments
import Sitos.Wire.FenceRoute
import Sitos.Wire.KeySpace
import Sitos.Client.ListPrefix
import Sitos.Core.SortedMap
import Sitos.Node.Query
import Sitos.Client.StoreList
import Sitos.Cache.ReadModel
import Sitos.Cache.Recovery
import Sitos.Fence.Waiter
import Sitos.Fence.WaiterSound
import Sitos.Node.ViewGeneration
import Sitos.Node.ViewGenerationSound
import Sitos.Fence.Receiver
import Sitos.Core.Cursor
import Sitos.Wire.BatchCodec
import Sitos.Node.StoredValue
import Sitos.Client.PutBatch
import Sitos.Wire.AckCodec
import Sitos.Catalog.FlatReader
import Sitos.Catalog.RecordCodec
import Sitos.Fence.Allocation
import Sitos.Core.Turns
import Sitos.Fence.Dispatch
import Sitos.Fence.DispatchOrder
import Sitos.Client.Drain
import Sitos.Client.DrainOrder
import Sitos.Core.Fips180
import Sitos.Node.Liveliness
import Sitos.Wire.Attachment
import Sitos.Wire.Sha256
import Sitos.Fence.ReceiverRuns
import Sitos.Node.AckFingerprint
import Sitos.Client.AckClient
import Sitos.Core.Binary64
import Sitos.Wire.ParamExtraction
import Sitos.Client.GetCompletion
import Sitos.Client.GetCompletionSafety
import Sitos.Client.ReadFailure
import Sitos.Client.ReadFailureReports
import Sitos.Core.Json
import Sitos.Client.SessionMetadata
import Sitos.Client.SessionMetadataReader
import Sitos.Client.SessionMetadataTokens
import Sitos.Client.SessionMetadataLanguage
import Sitos.Client.SessionMetadataAliases
import Sitos.Client.SessionDiscovery
import Sitos.Client.BufferPublisher
import Sitos.Client.BufferPublisherFence
import Sitos.Client.BufferPublisherRuns
import Sitos.Node.BufferFence
import Sitos.Node.BufferFenceBlocks
import Sitos.Node.BufferFenceMarkers
import Sitos.Node.BufferFenceActions
import Sitos.Node.BufferFenceRuns
import Sitos.Node.BufferReceipt
