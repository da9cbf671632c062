import KChatCore.Backup.CompactionView
import KChatCore.Backup.Drain
import KChatCore.Restore.Resurrection
import KChatCore.Restore.ChainContinuity
import KChatCore.Archive.ForwardSecrecy
import KChatCore.Message.Streams
import KChatCore.Message.Deletion
import KChatCore.Archive.TimelineRehydration
import KChatCore.Message.DesktopIndex
import KChatCore.Message.ConversationDeletion
import KChatCore.Archive.HydratedText
import KChatCore.Backup.FailedBackups
import KChatCore.Restore.Materialisation
import KChatCore.Backup.ShardCoverage
import KChatCore.Backup.TombstoneOrder
import KChatCore.Backup.PlatformSinks
import KChatCore.Media.ConcurrentMigration
import KChatCore.Media.RehydrationAndDeletion
import KChatCore.Backup.CompactionPlan
import KChatCore.Offload.HydrationQueue
import KChatCore.Search.DatePruning
import KChatCore.Search.ExcerptTokens
import KChatCore.Search.FtsExpression
import KChatCore.Search.TargetConfinement
import KChatCore.Media.Cache
import KChatCore.Search.BucketOrder
import KChatCore.Search.CacheBudget
import KChatCore.Media.ChunkBinding
import KChatCore.Message.Timeline
import KChatCore.LocalStore.ArchiveLifecycle
import KChatCore.Message.Activity
import KChatCore.Restore.ShardPrefetch
import KChatCore.Search.ColdAgreement
import KChatCore.LocalStore.MediaSearch
import KChatCore.Backup.BundleSizes
import KChatCore.Message.EventPayload
import KChatCore.Media.ResumedUpload
import KChatCore.Models.WhisperAudio
import KChatCore.Offload.StateChanges
import KChatCore.Search.SemanticAuto
import KChatCore.Search.TransportSource
import KChatCore.Media.IndexingCycles
import KChatCore.Backup.WeekBuckets
import KChatCore.Crypto.KeyHierarchy
import KChatCore.Media.Caption
import KChatCore.Models.Embeddings
import KChatCore.Scheduler.OneOffTasks
import KChatCore.Search.BloomShard
import KChatCore.Search.NamedResults
import KChatCore.Backup.Restarts
import KChatCore.LocalStore.ReaderPool
import KChatCore.LocalStore.Migrations
import KChatCore.Scheduler.Workers
import KChatCore.Transport.HttpService
import KChatCore.Restore.KeyRecovery
import KChatCore.Models.WhisperDecoding
