import KChatCore.Base

/-!
# `Formats` — the records that are sealed, signed and put on the wire

Every type here is CBOR-encoded somewhere: journal events inside a sealed segment's payload, backup and archive,
the signed backup manifest, and the two bundles handed to the backup sink. Field for field they follow the source's
serde structs.
-/

namespace KChatCore

/-! ## Backup events -/

/-- `BackupEventType`. -/
inductive BackupEventType
  | messageReceived
  | messageEdited
  | messageDeleted
  | mediaReceived
  | mediaDeleted
  | conversationCreated
  | conversationDeleted
deriving DecidableEq, Repr

namespace BackupEventType

/-- The snake_case tag stored in the `event_type` column. -/
def asStr : BackupEventType → String
  | messageReceived => "message_received"
  | messageEdited => "message_edited"
  | messageDeleted => "message_deleted"
  | mediaReceived => "media_received"
  | mediaDeleted => "media_deleted"
  | conversationCreated => "conversation_created"
  | conversationDeleted => "conversation_deleted"

/-- Parse a tag back; every other tag is an error. -/
def parseSnakeCase : String → Except Error BackupEventType
  | "message_received" => .ok messageReceived
  | "message_edited" => .ok messageEdited
  | "message_deleted" => .ok messageDeleted
  | "media_received" => .ok mediaReceived
  | "media_deleted" => .ok mediaDeleted
  | "conversation_created" => .ok conversationCreated
  | "conversation_deleted" => .ok conversationDeleted
  | other => .error (.storageMsg ("unknown backup event_type " ++ other.quote))

@[simp] theorem parseSnakeCase_asStr (t : BackupEventType) : parseSnakeCase t.asStr = .ok t := by
  cases t <;> rfl

end BackupEventType

/-- `BackupEvent`: one logical backup event. -/
structure BackupEvent where
  eventType : BackupEventType
  conversationId : Option Uuid
  messageId : Option Uuid
  payload : Bytes
  createdAtMs : Int
deriving DecidableEq, Repr

/-- `BACKUP_SEGMENT_PAYLOAD_MAGIC`. -/
def backupSegmentPayloadMagic : Bytes := utf8 "KCHAT_BAK_SEG_PAYLOAD_V1"

/-- `BackupSegmentPayload`: what a segment's ciphertext holds. -/
structure BackupSegmentPayload where
  magic : Bytes
  events : List BackupEvent
deriving DecidableEq, Repr

/-! ## Archive events -/

/-- `ArchiveEventType`. -/
inductive ArchiveEventType
  | messageReceived
  | messageEdited
  | messageDeleted
  | mediaReceived
  | conversationCreated
  | conversationDeleted
deriving DecidableEq, Repr

/-- The snake_case tag stored in the `event_type` column. -/
def ArchiveEventType.asStr : ArchiveEventType → String
  | messageReceived => "message_received"
  | messageEdited => "message_edited"
  | messageDeleted => "message_deleted"
  | mediaReceived => "media_received"
  | conversationCreated => "conversation_created"
  | conversationDeleted => "conversation_deleted"

/-- `ArchiveEvent`: one logical archive event. -/
structure ArchiveEvent where
  eventType : ArchiveEventType
  conversationId : Uuid
  messageId : Option Uuid
  payload : Bytes
  createdAtMs : Int
deriving DecidableEq, Repr

/-- `ARCHIVE_SEGMENT_PAYLOAD_MAGIC`. -/
def archiveSegmentPayloadMagic : Bytes := utf8 "KCHAT_ARC_SEG_PAYLOAD_V1"

/-- `ArchiveSegmentPayload`: what an archive segment's ciphertext holds. -/
structure ArchiveSegmentPayload where
  magic : Bytes
  conversationId : String
  timeBucket : String
  events : List ArchiveEvent
deriving DecidableEq, Repr

/-- `ARCHIVE_BODY_PAYLOAD_MAGIC`. -/
def archiveBodyPayloadMagic : String := "KCHAT_ARCHIVE_BODY_PAYLOAD_V1"

/-- `ArchiveMessageBodyPayload`: the payload of an archive event that carries a body. -/
structure ArchiveMessageBodyPayload where
  magic : String
  textContent : Option String
deriving DecidableEq, Repr

/-! ## The backup manifest -/

/-- `SegmentType`. -/
inductive SegmentType
  | events
  | messageDelta
  | timelineSkeleton
  | mediaKeyDelta
  | searchTextIndex
  | searchVectorIndex
  | mediaIndex
  | checkpoint
deriving DecidableEq, Repr

/-- The `Debug` form. -/
def SegmentType.debug : SegmentType → String
  | events => "Events"
  | messageDelta => "MessageDelta"
  | timelineSkeleton => "TimelineSkeleton"
  | mediaKeyDelta => "MediaKeyDelta"
  | searchTextIndex => "SearchTextIndex"
  | searchVectorIndex => "SearchVectorIndex"
  | mediaIndex => "MediaIndex"
  | checkpoint => "Checkpoint"

/-- `SegmentType::is_backup_segment`. -/
def SegmentType.isBackupSegment (t : SegmentType) : Bool := t == .events

/-- `SegmentType::is_archive_segment`. -/
def SegmentType.isArchiveSegment (t : SegmentType) : Bool := !t.isBackupSegment

/-- `search_shard::IndexType`. -/
inductive IndexType
  | bloom
  | text
  | fuzzy
  | vector
  | media
deriving DecidableEq, Repr

/-- `ManifestSegmentRef`. -/
structure ManifestSegmentRef where
  segmentId : Uuid
  segmentType : SegmentType
  ciphertextSha256 : ByteArr 32
  size : Nat
deriving DecidableEq

/-- `ManifestShardRef`. -/
structure ManifestShardRef where
  shardId : Uuid
  indexType : IndexType
  ciphertextSha256 : ByteArr 32
  timeBucket : String
deriving DecidableEq

/-- `ManifestMediaRef`. -/
structure ManifestMediaRef where
  assetId : Uuid
  blobId : Uuid
  merkleRoot : ByteArr 32
  wrappedKAsset : Bytes
deriving DecidableEq

/-- `Tombstone` (of a manifest, not of the event journal). -/
structure Tombstone where
  kind : String
  id : String
  deletedAtMs : Int
deriving DecidableEq

/-- `BACKUP_MANIFEST_MAGIC`. -/
def backupManifestMagic : String := "KCHAT_BAK_MANIFEST_V2"

/-- `MANIFEST_VERSION`. -/
def manifestVersion : Nat := 2

/-- `GENESIS_PREVIOUS_HASH`. -/
def genesisPreviousHash : ByteArr 32 := ByteArr.zeros 32

/-- `BackupManifest`. -/
structure BackupManifest where
  magic : String
  version : Nat
  manifestId : Uuid
  generation : Nat
  previousManifestHash : ByteArr 32
  segments : List ManifestSegmentRef
  searchIndexShards : List ManifestShardRef
  mediaReferences : List ManifestMediaRef
  tombstones : List Tombstone
  merkleRoot : ByteArr 32
  manifestSignature : Bytes
  pqcSignature : Bytes
deriving DecidableEq

/-- `BackupManifest::has_valid_header`. -/
def BackupManifest.hasValidHeader (m : BackupManifest) : Bool :=
  if m.magic != backupManifestMagic || m.version != manifestVersion then false
  else if m.generation == 0 && m.previousManifestHash != genesisPreviousHash then false
  else true

/-! ## The bundles a backup sink stores -/

/-- `MANIFEST_BUNDLE_MAGIC`. -/
def manifestBundleMagic : ByteArr 16 := ⟨utf8 "KCHAT_BAK_M_V1" ++ [0, 0], by decide⟩

/-- `SEGMENT_BUNDLE_MAGIC`. -/
def segmentBundleMagic : ByteArr 16 := ⟨utf8 "KCHAT_BAK_S_V1" ++ [0, 0], by decide⟩

/-- `BUNDLE_VERSION`. -/
def bundleVersion : Nat := 1

/-- `SealedManifestBundle`. -/
structure SealedManifestBundle where
  magic : ByteArr 16
  version : Nat
  manifest : BackupManifest
  nonce : ByteArr 24
  ciphertext : Bytes
  deviceId : String
deriving DecidableEq

/-- `SealedSegmentBundle`. -/
structure SealedSegmentBundle where
  magic : ByteArr 16
  version : Nat
  segmentId : Uuid
  segmentType : SegmentType
  nonce : ByteArr 24
  ciphertext : Bytes
  merkleRoot : ByteArr 32
  eventCount : Nat
  wrappedKSegment : Bytes
deriving DecidableEq

end KChatCore
