import KChatCore.Backup.Wire
import KChatCore.SerdeItems

/-!
# `Backup.BundleItems` — the items of the two bundles

What serde makes of a manifest bundle and of a segment bundle: structs of structs, with byte strings for ids,
hashes and ciphertexts. A bundle whose numbers are in the range of the source's types is read back out of its
item (`manifestBundleOf_item`, `segmentBundleOf_item`).

`WritesCbor` says that the bundle codecs of the primitives write these items; `cborPrimitives` are primitives
that do.
-/

namespace KChatCore.Backup

open Lib Lib.Cbor

/-! ## Enumerations -/

/-- `SegmentType` under `rename_all = "snake_case"`. -/
def segmentTypeName : SegmentType → String
  | .events => "events"
  | .messageDelta => "message_delta"
  | .timelineSkeleton => "timeline_skeleton"
  | .mediaKeyDelta => "media_key_delta"
  | .searchTextIndex => "search_text_index"
  | .searchVectorIndex => "search_vector_index"
  | .mediaIndex => "media_index"
  | .checkpoint => "checkpoint"

/-- `IndexType` under `rename_all = "lowercase"`. -/
def indexTypeName : IndexType → String
  | .bloom => "bloom"
  | .text => "text"
  | .fuzzy => "fuzzy"
  | .vector => "vector"
  | .media => "media"

/-- The variant of a name. -/
def variantOf {α : Type} (name : α → String) (variants : List α) (v : Value) : Option α :=
  v.asText?.bind fun s => variants.find? fun a => name a = s

def segmentTypeOf : Value → Option SegmentType :=
  variantOf segmentTypeName [.events, .messageDelta, .timelineSkeleton, .mediaKeyDelta, .searchTextIndex,
    .searchVectorIndex, .mediaIndex, .checkpoint]

def indexTypeOf : Value → Option IndexType :=
  variantOf indexTypeName [.bloom, .text, .fuzzy, .vector, .media]

@[simp] theorem segmentTypeOf_name (t : SegmentType) : segmentTypeOf (.text (segmentTypeName t)) = some t := by
  cases t <;> decide

@[simp] theorem indexTypeOf_name (t : IndexType) : indexTypeOf (.text (indexTypeName t)) = some t := by
  cases t <;> decide

/-! ## The references of a manifest -/

def segmentRefItem (r : ManifestSegmentRef) : Value :=
  structItem [("segment_id", uuidItem r.segmentId), ("segment_type", .text (segmentTypeName r.segmentType)),
    ("ciphertext_sha256", .bytes r.ciphertextSha256.toList), ("size", .uint r.size)]

def segmentRefOf (v : Value) : Option ManifestSegmentRef := do
  let segmentId ← (v.field "segment_id").bind uuidOf
  let segmentType ← (v.field "segment_type").bind segmentTypeOf
  let ciphertextSha256 ← (v.field "ciphertext_sha256").bind (byteArrOf 32)
  let size ← (v.field "size").bind Value.asUint?
  pure ⟨segmentId, segmentType, ciphertextSha256, size⟩

def shardRefItem (r : ManifestShardRef) : Value :=
  structItem [("shard_id", uuidItem r.shardId), ("index_type", .text (indexTypeName r.indexType)),
    ("ciphertext_sha256", .bytes r.ciphertextSha256.toList), ("time_bucket", .text r.timeBucket)]

def shardRefOf (v : Value) : Option ManifestShardRef := do
  let shardId ← (v.field "shard_id").bind uuidOf
  let indexType ← (v.field "index_type").bind indexTypeOf
  let ciphertextSha256 ← (v.field "ciphertext_sha256").bind (byteArrOf 32)
  let timeBucket ← (v.field "time_bucket").bind Value.asText?
  pure ⟨shardId, indexType, ciphertextSha256, timeBucket⟩

def mediaRefItem (r : ManifestMediaRef) : Value :=
  structItem [("asset_id", uuidItem r.assetId), ("blob_id", uuidItem r.blobId),
    ("merkle_root", .bytes r.merkleRoot.toList), ("wrapped_k_asset", .bytes r.wrappedKAsset)]

def mediaRefOf (v : Value) : Option ManifestMediaRef := do
  let assetId ← (v.field "asset_id").bind uuidOf
  let blobId ← (v.field "blob_id").bind uuidOf
  let merkleRoot ← (v.field "merkle_root").bind (byteArrOf 32)
  let wrappedKAsset ← (v.field "wrapped_k_asset").bind Value.asBytes?
  pure ⟨assetId, blobId, merkleRoot, wrappedKAsset⟩

def tombstoneItem (t : Tombstone) : Value :=
  structItem [("kind", .text t.kind), ("id", .text t.id), ("deleted_at_ms", .int t.deletedAtMs)]

def tombstoneOf (v : Value) : Option Tombstone := do
  let kind ← (v.field "kind").bind Value.asText?
  let id ← (v.field "id").bind Value.asText?
  let deletedAtMs ← (v.field "deleted_at_ms").bind Value.toInt?
  pure ⟨kind, id, deletedAtMs⟩

section References

theorem segmentRefOf_item {r : ManifestSegmentRef} (h : r.segmentId.InRange) :
    segmentRefOf (segmentRefItem r) = some r := by
  simp [segmentRefOf, segmentRefItem, structItem, Value.field, Value.lookupText, Value.asUint?,
    uuidOf_uuidItem h]

theorem shardRefOf_item {r : ManifestShardRef} (h : r.shardId.InRange) : shardRefOf (shardRefItem r) = some r := by
  simp [shardRefOf, shardRefItem, structItem, Value.field, Value.lookupText, Value.asText?, uuidOf_uuidItem h]

theorem mediaRefOf_item {r : ManifestMediaRef} (h : r.assetId.InRange) (h' : r.blobId.InRange) :
    mediaRefOf (mediaRefItem r) = some r := by
  simp [mediaRefOf, mediaRefItem, structItem, Value.field, Value.lookupText, Value.asBytes?,
    uuidOf_uuidItem h, uuidOf_uuidItem h']

theorem tombstoneOf_item (t : Tombstone) : tombstoneOf (tombstoneItem t) = some t := by
  simp [tombstoneOf, tombstoneItem, structItem, Value.field, Value.lookupText, Value.asText?]

end References

/-! ## The bundles -/

def manifestItem (m : BackupManifest) : Value :=
  structItem [("magic", .text m.magic), ("version", .uint m.version), ("manifest_id", uuidItem m.manifestId),
    ("generation", .uint m.generation), ("previous_manifest_hash", .bytes m.previousManifestHash.toList),
    ("segments", .array (m.segments.map segmentRefItem)),
    ("search_index_shards", .array (m.searchIndexShards.map shardRefItem)),
    ("media_references", .array (m.mediaReferences.map mediaRefItem)),
    ("tombstones", .array (m.tombstones.map tombstoneItem)), ("merkle_root", .bytes m.merkleRoot.toList),
    ("manifest_signature", .bytes m.manifestSignature), ("pqc_signature", .bytes m.pqcSignature)]

def manifestOf (v : Value) : Option BackupManifest := do
  let magic ← (v.field "magic").bind Value.asText?
  let version ← (v.field "version").bind Value.asUint?
  let manifestId ← (v.field "manifest_id").bind uuidOf
  let generation ← (v.field "generation").bind Value.asUint?
  let previousManifestHash ← (v.field "previous_manifest_hash").bind (byteArrOf 32)
  let segments ← (v.field "segments").bind (listOf segmentRefOf)
  let searchIndexShards ← (v.field "search_index_shards").bind (listOf shardRefOf)
  let mediaReferences ← (v.field "media_references").bind (listOf mediaRefOf)
  let tombstones ← (v.field "tombstones").bind (listOf tombstoneOf)
  let merkleRoot ← (v.field "merkle_root").bind (byteArrOf 32)
  let manifestSignature ← (v.field "manifest_signature").bind Value.asBytes?
  let pqcSignature ← (v.field "pqc_signature").bind Value.asBytes?
  pure ⟨magic, version, manifestId, generation, previousManifestHash, segments, searchIndexShards, mediaReferences,
    tombstones, merkleRoot, manifestSignature, pqcSignature⟩

def manifestBundleItem (b : SealedManifestBundle) : Value :=
  structItem [("magic", .bytes b.magic.toList), ("version", .uint b.version), ("manifest", manifestItem b.manifest),
    ("nonce", .bytes b.nonce.toList), ("ciphertext", .bytes b.ciphertext), ("device_id", .text b.deviceId)]

def manifestBundleOf (v : Value) : Option SealedManifestBundle := do
  let magic ← (v.field "magic").bind (byteArrOf 16)
  let version ← (v.field "version").bind Value.asUint?
  let manifest ← (v.field "manifest").bind manifestOf
  let nonce ← (v.field "nonce").bind (byteArrOf 24)
  let ciphertext ← (v.field "ciphertext").bind Value.asBytes?
  let deviceId ← (v.field "device_id").bind Value.asText?
  pure ⟨magic, version, manifest, nonce, ciphertext, deviceId⟩

def segmentBundleItem (b : SealedSegmentBundle) : Value :=
  structItem [("magic", .bytes b.magic.toList), ("version", .uint b.version), ("segment_id", uuidItem b.segmentId),
    ("segment_type", .text (segmentTypeName b.segmentType)), ("nonce", .bytes b.nonce.toList),
    ("ciphertext", .bytes b.ciphertext), ("merkle_root", .bytes b.merkleRoot.toList),
    ("event_count", .uint b.eventCount), ("wrapped_k_segment", .bytes b.wrappedKSegment)]

def segmentBundleOf (v : Value) : Option SealedSegmentBundle := do
  let magic ← (v.field "magic").bind (byteArrOf 16)
  let version ← (v.field "version").bind Value.asUint?
  let segmentId ← (v.field "segment_id").bind uuidOf
  let segmentType ← (v.field "segment_type").bind segmentTypeOf
  let nonce ← (v.field "nonce").bind (byteArrOf 24)
  let ciphertext ← (v.field "ciphertext").bind Value.asBytes?
  let merkleRoot ← (v.field "merkle_root").bind (byteArrOf 32)
  let eventCount ← (v.field "event_count").bind Value.asUint?
  let wrappedKSegment ← (v.field "wrapped_k_segment").bind Value.asBytes?
  pure ⟨magic, version, segmentId, segmentType, nonce, ciphertext, merkleRoot, eventCount, wrappedKSegment⟩

/-! ## Ranges -/

/-- The ids of a manifest are in range. -/
structure ManifestIdsInRange (m : BackupManifest) : Prop where
  manifestId : m.manifestId.InRange
  segments : ∀ r ∈ m.segments, r.segmentId.InRange
  shards : ∀ r ∈ m.searchIndexShards, r.shardId.InRange
  media : ∀ r ∈ m.mediaReferences, r.assetId.InRange ∧ r.blobId.InRange

/-- **The numbers of a manifest bundle are in the range of their types**: no length or number needs more than 64
bits, no id more than 128. -/
structure ManifestInRange (b : SealedManifestBundle) : Prop where
  fits : (manifestBundleItem b).Fits
  version : b.version < 2 ^ 16
  manifestVersion : b.manifest.version < 2 ^ 32
  ids : ManifestIdsInRange b.manifest

/-- **The numbers of a segment bundle are in the range of their types.** -/
structure SegmentInRange (b : SealedSegmentBundle) : Prop where
  fits : (segmentBundleItem b).Fits
  version : b.version < 2 ^ 16
  eventCount : b.eventCount ≤ u32Max
  segmentId : b.segmentId.InRange

theorem manifestOf_item {m : BackupManifest} (h : ManifestIdsInRange m) : manifestOf (manifestItem m) = some m := by
  have hsegments := listOf_array fun r hr => segmentRefOf_item (h.segments r hr)
  have hshards := listOf_array fun r hr => shardRefOf_item (h.shards r hr)
  have hmedia := listOf_array fun r hr => mediaRefOf_item (h.media r hr).1 (h.media r hr).2
  have htombstones := listOf_array fun t (_ : t ∈ m.tombstones) => tombstoneOf_item t
  simp [manifestOf, manifestItem, structItem, Value.field, Value.lookupText, Value.asText?, Value.asUint?,
    Value.asBytes?, uuidOf_uuidItem h.manifestId, hsegments, hshards, hmedia, htombstones]

/-- **A manifest bundle is read back out of its item.** -/
theorem manifestBundleOf_item {b : SealedManifestBundle} (h : ManifestIdsInRange b.manifest) :
    manifestBundleOf (manifestBundleItem b) = some b := by
  simp [manifestBundleOf, manifestBundleItem, structItem, Value.field, Value.lookupText, Value.asText?,
    Value.asUint?, Value.asBytes?, manifestOf_item h]

/-- **A segment bundle is read back out of its item.** -/
theorem segmentBundleOf_item {b : SealedSegmentBundle} (h : b.segmentId.InRange) :
    segmentBundleOf (segmentBundleItem b) = some b := by
  simp [segmentBundleOf, segmentBundleItem, structItem, Value.field, Value.lookupText, Value.asUint?, Value.asBytes?,
    uuidOf_uuidItem h]

/-! ## Codecs that write them -/

/-- **What `crate::cbor` does with a bundle**: it writes the item serde makes of it. -/
structure WritesCbor (P : Primitives) : Prop where
  manifest : ∀ b, ManifestInRange b → P.cborManifestBundle.encode b = encode (manifestBundleItem b)
  segment : ∀ b, SegmentInRange b → P.cborSegmentBundle.encode b = encode (segmentBundleItem b)

/-- The reference primitives with CBOR bundles. -/
def cborPrimitives : Primitives := { Primitives.reference with
  cborManifestBundle := typedCodec manifestBundleItem manifestBundleOf Primitives.manifestBundleCodec.toCodec
  cborSegmentBundle := typedCodec segmentBundleItem segmentBundleOf Primitives.segmentBundleCodec.toCodec }

theorem cborPrimitives_writesCbor : WritesCbor cborPrimitives where
  manifest _ h := typedCodec_encode h.fits (manifestBundleOf_item h.ids)
  segment _ h := typedCodec_encode h.fits (segmentBundleOf_item h.segmentId)

end KChatCore.Backup
