import L2Flow.Loop
import L2Flow.DirectMapped
import L2Flow.Canonical
import L2Flow.Channel
import L2Flow.LinearProbing
import L2Flow.Lane
import L2Flow.Steps
import L2Flow.Calls
import L2Flow.Turns
import L2Flow.Runs
import L2Flow.Frontier
import L2Flow.Conservation
import L2Flow.History
import L2Flow.Isolation
import L2Flow.Window
import L2Flow.Reorder
import L2Flow.Origin
import L2Flow.Refusal
import L2Flow.Termination
import L2Flow.Interleaving
import L2Flow.Fairness
import L2Flow.Mailbox
import L2Flow.Handshake
import L2Flow.Dispatcher
import L2Flow.GapPolling
import L2Flow.GapDrain
import L2Flow.GapSteps
import L2Flow.Retry
import L2Flow.Timers
import L2Flow.Latency
import L2Flow.SpscRing
import L2Flow.RingOrder
import L2Flow.Bytes
import L2Flow.Hoare
import L2Flow.Message
import L2Flow.Wire
import L2Flow.Reading
import L2Flow.Catalog
import L2Flow.Fields
import L2Flow.TickDecoder
import L2Flow.SnapshotDecoder
import L2Flow.WellFormed
import L2Flow.Layout
import L2Flow.TickRoundTrip
import L2Flow.BookLayout
import L2Flow.SnapshotRoundTrip
import L2Flow.Route
import L2Flow.Admission
import L2Flow.AdmissionCalls
import L2Flow.SlotOwnership
import L2Flow.Shutdown
import L2Flow.SdkCallbacks
import L2Flow.SdkSession
import L2Flow.TickWorker
import L2Flow.TwoCatalogs
import L2Flow.QueueMatrix
import L2Flow.Polling
import L2Flow.ChannelTable
import L2Flow.CatalogMap
import L2Flow.Text
import L2Flow.CatalogCsv
import L2Flow.StreamConfig
import L2Flow.Meaning
import L2Flow.TickMeaning
import L2Flow.SnapshotMeaning
import L2Flow.Validity
import L2Flow.FixedPoint
import L2Flow.SignRules
import L2Flow.Routing
import L2Flow.Duplicates
import L2Flow.Freezing
import L2Flow.GapMetadata
import L2Flow.Emission
import L2Flow.Engine
import L2Flow.Instruments
import L2Flow.EngineParts
import L2Flow.EngineOrder
import L2Flow.Ingestd
import L2Flow.IngestdParts
import L2Flow.IngestdAccounts
import L2Flow.IngestdShutdown
import L2Flow.IngestdLaps
import L2Flow.IngestdExit
import L2Flow.StopEnds
import L2Flow.FatalError
import L2Flow.Configuration
import L2Flow.LastWrite
import L2Flow.CommandLine
