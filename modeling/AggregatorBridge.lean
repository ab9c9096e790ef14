import AggregatorBridge.Lib.Run
import AggregatorBridge.Lib.Checked
import AggregatorBridge.Lib.Text
import AggregatorBridge.Lib.MachineInt
import AggregatorBridge.Lib.Decimal
import AggregatorBridge.Lib.Remote
import AggregatorBridge.Lib.Register
import AggregatorBridge.Lib.Expiring
import AggregatorBridge.Lib.Pool
import AggregatorBridge.Lib.Bytes
import AggregatorBridge.Lib.Overwrite
import AggregatorBridge.Lib.Nesting
import AggregatorBridge.Lib.PrefixCode
import AggregatorBridge.Lib.OrderedMap
import AggregatorBridge.Lib.SlidingWindow
import AggregatorBridge.Lib.Table
import AggregatorBridge.Lib.Subjects
import AggregatorBridge.Lib.Batching
import AggregatorBridge.Lib.HashView
import AggregatorBridge.Chrono
import AggregatorBridge.Json
import AggregatorBridge.Models
import AggregatorBridge.Crypto
import AggregatorBridge.IngestPolicy
import AggregatorBridge.BinaryDecoder
import AggregatorBridge.Grpc
import AggregatorBridge.Dlms
import AggregatorBridge.Rest
import AggregatorBridge.InvocationCounter
import AggregatorBridge.Aggregator
import AggregatorBridge.CheckedBilling
import AggregatorBridge.Ledger
import AggregatorBridge.MintOutbox
import AggregatorBridge.MintInFlight
import AggregatorBridge.Settlement
import AggregatorBridge.ZoneIngester
import AggregatorBridge.PgReadings
import AggregatorBridge.MeterRegistry
import AggregatorBridge.OwnerReadModel
import AggregatorBridge.OpenLeadrVen
import AggregatorBridge.DispatchEngine
import AggregatorBridge.ApiKeyAuth
import AggregatorBridge.StreamCipher
import AggregatorBridge.KeyCache
import AggregatorBridge.Serde
import AggregatorBridge.JsonText
import AggregatorBridge.StreamEnvelope
import AggregatorBridge.StreamConsumer
import AggregatorBridge.BulkIngest
import AggregatorBridge.SyncManager
import AggregatorBridge.BinStore
import AggregatorBridge.UuidText
import AggregatorBridge.DeviceKeys
import AggregatorBridge.ExpandEnv
import AggregatorBridge.ZoneBalance
import AggregatorBridge.GridStatus
import AggregatorBridge.OwnerBackfill
import AggregatorBridge.MintGateway
import AggregatorBridge.ReadingSinks
import AggregatorBridge.Dissemination
import AggregatorBridge.Pipeline
import AggregatorBridge.StoredFormats
import AggregatorBridge.OpenLeadr
import AggregatorBridge.KafkaProducer
import AggregatorBridge.Laws.FrameDecoding
import AggregatorBridge.Laws.GrpcSignature
import AggregatorBridge.Laws.DlmsRegisters
import AggregatorBridge.Laws.RestSignature
import AggregatorBridge.Laws.RestGate
import AggregatorBridge.Laws.ParkRace
import AggregatorBridge.Laws.SettlementRuns
import AggregatorBridge.Laws.DurableHome
import AggregatorBridge.Laws.OwedEnergy
import AggregatorBridge.Laws.CountedOnce
import AggregatorBridge.Laws.TruthfulStamp
import AggregatorBridge.Laws.FreshWallet
import AggregatorBridge.Laws.OwnerConvergence
import AggregatorBridge.Laws.UnlinkedWallet
import AggregatorBridge.Laws.WalletRepair
import AggregatorBridge.Laws.EnergyBalance
import AggregatorBridge.Laws.SettledOnce
import AggregatorBridge.Laws.InOrderMeter
import AggregatorBridge.Laws.DurableGrowth
import AggregatorBridge.Laws.BillingOverflow
import AggregatorBridge.Laws.VenOnce
import AggregatorBridge.Laws.ApiKeyDecisions
import AggregatorBridge.Laws.StreamKey
import AggregatorBridge.Laws.KeyFreshness
import AggregatorBridge.Laws.MintExclusion
import AggregatorBridge.Laws.DispatchCooldown
import AggregatorBridge.Laws.AntiReplay
import AggregatorBridge.Laws.ReplayVerdict
import AggregatorBridge.Laws.StreamRoundTrip
import AggregatorBridge.Laws.StuckEntries
import AggregatorBridge.Laws.FrameRoundTrip
import AggregatorBridge.Laws.KeyColumns
import AggregatorBridge.Laws.BulkPairing
import AggregatorBridge.Laws.MapOrder
import AggregatorBridge.Laws.BatchConfirmation
import AggregatorBridge.Laws.VenSchedule
import AggregatorBridge.Laws.VenCancellation
import AggregatorBridge.Laws.OfflineReplay
import AggregatorBridge.Laws.CrashRecovery
import AggregatorBridge.Laws.BillingWindow
import AggregatorBridge.Laws.SerialSpelling
import AggregatorBridge.Laws.OneBill
import AggregatorBridge.Laws.BatchedKeys
import AggregatorBridge.Laws.RestBatch
import AggregatorBridge.Laws.GrpcBatch
import AggregatorBridge.Laws.DrainPartition
import AggregatorBridge.Laws.TariffSplit
import AggregatorBridge.Laws.MintKeys
import AggregatorBridge.Laws.ConfigExpansion
import AggregatorBridge.Laws.TlvScan
import AggregatorBridge.Laws.ZoneConservation
import AggregatorBridge.Laws.FrequencyWindow
import AggregatorBridge.Laws.AdapterSelection
import AggregatorBridge.Laws.BackfillOnce
import AggregatorBridge.Laws.MintReplies
import AggregatorBridge.Laws.SinkConservation
import AggregatorBridge.Laws.Cutover
import AggregatorBridge.Laws.SelfHeal
import AggregatorBridge.Laws.Starvation
import AggregatorBridge.Laws.EndToEnd
import AggregatorBridge.Laws.StoredRoundTrip
import AggregatorBridge.Laws.DispatchEvent
import AggregatorBridge.Laws.FlexRelay
import AggregatorBridge.Laws.RowHistory
import AggregatorBridge.Laws.ProducerRebuild
