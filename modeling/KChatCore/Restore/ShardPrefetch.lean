import KChatCore.Archive.Prefetch
import KChatCore.Restore.ColdShards
import KChatCore.Search.QueryEngine

/-!
# `Restore.ShardPrefetch` — a bucket's index shards fetched among dummy requests

The real conversation hash is shuffled among minted ones, and for each hash all shard types are fetched in the same order.
How many are minted grows with the scope of the search.

* `batchPrefetchShardsVia_fst` — the plain prefetch of a steady transport is `batchPrefetchShards`.
* `padded_prefetch_is_plain` — padding changes neither what the two prefetches return nor whether they fail.
-/

namespace KChatCore.Restore

open Lib Cover LocalStore Search Archive

/-! ## The padded prefetch -/

/-- What the prefetch asks of the transport: `fetch_index_shards`. -/
abbrev IndexShardTransport (σ : Type) := Bytes → String → String → σ → Except Error Bytes × σ

/-- The shard in an answer; an empty answer means that there is none. -/
def prefetchedShard (conversationHash : Bytes) (bucket : String) (shardType : IndexType) (bytes : Bytes) :
    Option PrefetchedShard :=
  if bytes.isEmpty then none else some ⟨shardType, conversationHash, bucket, bytes⟩

/-- The plain prefetch keeps every shard. -/
def keepType (conversationHash : Bytes) (bucket : String) : Keep IndexType Bytes PrefetchedShard :=
  fun shardType => some (prefetchedShard conversationHash bucket shardType)

/-- The padded prefetch keeps the shards of the real hash. -/
def keepHash (conversationHash : Bytes) (bucket : String) : Keep (Bytes × IndexType) Bytes PrefetchedShard :=
  fun (hash, shardType) =>
    if hash = conversationHash then some (prefetchedShard conversationHash bucket shardType) else none

/-- `compute_scope_padding_multiplier`. -/
def computeScopePaddingMultiplier : SearchTarget → Nat
  | .conversation _ | .conversationGroup _ | .channel _ | .starred | .unread => 1
  | .community _ | .domain _ => 2
  | .tenant _ | .b2cAll => 3
  | .global => 4

section Prefetch

variable {σ : Type} (transport : IndexShardTransport σ) (conversationHash : Bytes) (bucket : String)

/-- `batch_prefetch_shards`, of a transport that may remember its requests. -/
def batchPrefetchShardsVia (s : σ) : Except Error (List PrefetchedShard) × σ :=
  gather (fun shardType => transport conversationHash bucket (shardTypeStr shardType)) (keepType conversationHash bucket)
    prefetchOrder s

/-- `batch_prefetch_shards_with_padding_for_target`. -/
def batchPrefetchShardsWithPaddingForTarget (privacyLevel : PrivacyLevel) (target : SearchTarget) (padding : Padding Bytes)
    (s : σ) : Except Error (List PrefetchedShard) × σ :=
  if shouldPad privacyLevel = false then batchPrefetchShardsVia transport conversationHash bucket s
  else
    let realHashes := [conversationHash]
    let base := computePaddingCount realHashes.length
    let dummyCount := base * computeScopePaddingMultiplier target
    let interleaved := padding.padWithDummyRequests realHashes dummyCount
    gather (fun (hash, shardType) => transport hash bucket (shardTypeStr shardType)) (keepHash conversationHash bucket)
      (interleaved.flatMap fun hash => prefetchOrder.map fun shardType => (hash, shardType)) s

/-- `batch_prefetch_shards_with_padding`. -/
def batchPrefetchShardsWithPadding (privacyLevel : PrivacyLevel) (padding : Padding Bytes) (s : σ) :
    Except Error (List PrefetchedShard) × σ :=
  batchPrefetchShardsWithPaddingForTarget transport conversationHash bucket privacyLevel (.conversation Uuid.nil) padding s

end Prefetch

/-- **A transport that answers for the real hash what it always answers.** -/
def SteadyShards {σ : Type} (transport : IndexShardTransport σ) (answers : ShardTransport) (conversationHash : Bytes)
    (bucket : String) : Prop :=
  ∀ shardType s, (transport conversationHash bucket (shardTypeStr shardType) s).1 =
    answers.fetchIndexShards conversationHash bucket (shardTypeStr shardType)

section Outcome

variable {σ : Type} {transport transport' : IndexShardTransport σ} {answers : ShardTransport} {conversationHash : Bytes}
  {bucket : String} {padding : Padding Bytes}

theorem collect_eq_prefetchShards (types : List IndexType) :
    collect (fun shardType => answers.fetchIndexShards conversationHash bucket (shardTypeStr shardType))
      (keepType conversationHash bucket) types = prefetchShards answers conversationHash bucket types := by
  induction types with
  | nil => rfl
  | cons shardType types ih =>
      have hkeep : keepType conversationHash bucket shardType = some (prefetchedShard conversationHash bucket shardType) := rfl
      rw [prefetchShards, ← ih]
      cases hfetch : answers.fetchIndexShards conversationHash bucket (shardTypeStr shardType) with
      | error e => rw [collect_failed hkeep hfetch]; rfl
      | ok bytes =>
          rw [collect_answered hkeep hfetch, prefetchedShard]
          cases collect (fun shardType => answers.fetchIndexShards conversationHash bucket (shardTypeStr shardType))
            (keepType conversationHash bucket) types with
          | error e => rfl
          | ok rest =>
              show Except.ok ((if bytes.isEmpty = true then none else some _).toList ++ rest) =
                Except.ok (if bytes.isEmpty = true then rest else _ :: rest)
              by_cases hempty : bytes.isEmpty = true
              · rw [if_pos hempty, if_pos hempty]
                rfl
              · rw [if_neg hempty, if_neg hempty]
                rfl

/-- **The plain prefetch**, from the answers alone. -/
theorem batchPrefetchShardsVia_fst (steady : SteadyShards transport answers conversationHash bucket) (s : σ) :
    (batchPrefetchShardsVia transport conversationHash bucket s).1 = batchPrefetchShards answers conversationHash bucket := by
  rw [batchPrefetchShards, ← collect_eq_prefetchShards]
  exact gather_fst (fun shardType _ _ s => steady shardType s) s

theorem wanted_keepHash {request : Bytes × IndexType} :
    Wanted (keepHash conversationHash bucket) request = decide (request.1 = conversationHash) := by
  by_cases h : request.1 = conversationHash
  · simp only [Wanted, keepHash, h, if_pos, decide_true, Option.isSome_some]
  · simp only [Wanted, keepHash, h, if_false, decide_false, Option.isSome_none]

/-- Requests by hash: those for one hash. -/
theorem filter_requests (hashes : List Bytes) :
    (hashes.flatMap fun hash => prefetchOrder.map fun shardType => (hash, shardType)).filter
        (Wanted (keepHash conversationHash bucket)) =
      (hashes.filter fun hash => hash = conversationHash).flatMap fun hash =>
        prefetchOrder.map fun shardType => (hash, shardType) := by
  induction hashes with
  | nil => rfl
  | cons hash hashes ih =>
      rw [List.flatMap_cons, List.filter_append, ih]
      by_cases h : hash = conversationHash
      · have hall : (prefetchOrder.map fun shardType => (hash, shardType)).filter
            (Wanted (keepHash conversationHash bucket)) = prefetchOrder.map fun shardType => (hash, shardType) := by
          rw [List.filter_eq_self]
          intro request hrequest
          obtain ⟨shardType, -, rfl⟩ := List.mem_map.mp hrequest
          rw [wanted_keepHash, decide_eq_true_eq]
          exact h
        rw [hall, List.filter_cons_of_pos (by simpa using h), List.flatMap_cons]
      · have hnone : (prefetchOrder.map fun shardType => (hash, shardType)).filter
            (Wanted (keepHash conversationHash bucket)) = [] := by
          rw [List.filter_eq_nil_iff]
          intro request hrequest
          obtain ⟨shardType, -, rfl⟩ := List.mem_map.mp hrequest
          rw [wanted_keepHash, decide_eq_true_eq]
          exact h
        rw [hnone, List.filter_cons_of_neg (by simpa using h), List.nil_append]

/-- Of the interleaved requests, those for the real hash are the plain ones, in their order. -/
theorem filter_interleaved (hfresh : padding.Avoids [conversationHash]) (dummyCount : Nat) :
    ((padding.padWithDummyRequests [conversationHash] dummyCount).flatMap fun hash =>
        prefetchOrder.map fun shardType => (hash, shardType)).filter (Wanted (keepHash conversationHash bucket)) =
      prefetchOrder.map fun shardType => (conversationHash, shardType) := by
  have honce : (padding.padWithDummyRequests [conversationHash] dummyCount).filter (fun hash => hash = conversationHash) =
      [conversationHash] := by
    refine List.perm_singleton.mp (Padding.filter_padWithDummyRequests ?_ fun n => ?_)
    · intro hash hhash
      simpa using hhash
    · simpa using hfresh n
  rw [filter_requests, honce, List.flatMap_singleton]

/-- **The padded prefetch returns what the plain one returns**, the same list or the same error. -/
theorem batchPrefetchShardsWithPadding_fst (privacyLevel : PrivacyLevel) (target : SearchTarget)
    (steady : SteadyShards transport answers conversationHash bucket) (hfresh : padding.Avoids [conversationHash]) (s : σ) :
    (batchPrefetchShardsWithPaddingForTarget transport conversationHash bucket privacyLevel target padding s).1 =
      batchPrefetchShards answers conversationHash bucket := by
  cases privacyLevel with
  | standard => exact batchPrefetchShardsVia_fst steady s
  | high =>
      have hgather : (batchPrefetchShardsWithPaddingForTarget transport conversationHash bucket .high target padding s).1 =
          collect (fun request : Bytes × IndexType => answers.fetchIndexShards request.1 bucket (shardTypeStr request.2))
            (keepHash conversationHash bucket)
            ((padding.padWithDummyRequests [conversationHash]
              (computePaddingCount 1 * computeScopePaddingMultiplier target)).flatMap fun hash =>
                prefetchOrder.map fun shardType => (hash, shardType)) := by
        refine gather_fst (fun request _ hwanted s => ?_) s
        obtain ⟨hash, shardType⟩ := request
        rw [wanted_keepHash, decide_eq_true_eq] at hwanted
        obtain rfl : hash = conversationHash := hwanted
        exact steady shardType s
      rw [hgather, ← collect_filter, filter_interleaved hfresh, collect_map, batchPrefetchShards,
        ← collect_eq_prefetchShards]
      refine collect_congr (fun shardType _ => ?_) fun shardType _ _ => rfl
      simp only [Function.comp_apply, keepHash, keepType, if_pos]

end Outcome

/-- **Padding is invisible in what the prefetches return**: for every content of the bucket, level, scope, shuffle and minted
ids other than the real ones. The segments come back as the same multiset, the shards as the same list; each prefetch fails
exactly if the plain one does; and nothing depends on what the transport makes of the dummies. -/
theorem padded_prefetch_is_plain {σ : Type} {segments segments' : SegmentTransport σ}
    {segmentAnswers : IdText → Except Error Bytes} {segmentMap : Table SegmentMapRow.segmentId} {conversationId : Uuid}
    {ids : Padding IdText} {shards shards' : IndexShardTransport σ} {shardAnswers : ShardTransport}
    {conversationHash : Bytes} {bucket : String} {hashes : Padding Bytes} (privacyLevel : PrivacyLevel)
    (target : SearchTarget) (hsegments : Steady segments segmentAnswers (realIds segmentMap conversationId bucket))
    (hsegments' : Steady segments' segmentAnswers (realIds segmentMap conversationId bucket))
    (hids : ids.Avoids (realIds segmentMap conversationId bucket))
    (hshards : SteadyShards shards shardAnswers conversationHash bucket)
    (hshards' : SteadyShards shards' shardAnswers conversationHash bucket) (hhashes : hashes.Avoids [conversationHash])
    (s s' : σ) :
    SameOutcome (batchPrefetchBucketWithPadding segments segmentMap conversationId bucket privacyLevel ids s).1
        (batchPrefetchBucket segments segmentMap conversationId bucket s').1 ∧
      (batchPrefetchBucketWithPadding segments segmentMap conversationId bucket privacyLevel ids s).1 =
        (batchPrefetchBucketWithPadding segments' segmentMap conversationId bucket privacyLevel ids s').1 ∧
      (batchPrefetchShardsWithPaddingForTarget shards conversationHash bucket privacyLevel target hashes s).1 =
        (batchPrefetchShardsVia shards conversationHash bucket s').1 ∧
      (batchPrefetchShardsWithPaddingForTarget shards conversationHash bucket privacyLevel target hashes s).1 =
        (batchPrefetchShardsWithPaddingForTarget shards' conversationHash bucket privacyLevel target hashes s').1 := by
  refine ⟨?_, ?_, ?_, ?_⟩
  · exact batchPrefetchBucketWithPadding_sameOutcome privacyLevel hsegments hids s s'
  · exact batchPrefetchBucketWithPadding_dummies privacyLevel hsegments hsegments' s s'
  · rw [batchPrefetchShardsWithPadding_fst privacyLevel target hshards hhashes, batchPrefetchShardsVia_fst hshards]
  · rw [batchPrefetchShardsWithPadding_fst privacyLevel target hshards hhashes,
      batchPrefetchShardsWithPadding_fst privacyLevel target hshards' hhashes]

/-! ## A backend that counts its requests -/

/-- Two uploaded segments of April, and one of May. -/
def uploadedRows : List SegmentMapRow :=
  [⟨.uuid ⟨1⟩, .uuid ⟨9⟩, "2026-04", "b1", "kchat_backend", .archiveUploaded⟩,
   ⟨.uuid ⟨2⟩, .uuid ⟨9⟩, "2026-04", "b2", "kchat_backend", .archiveUploaded⟩,
   ⟨.uuid ⟨3⟩, .uuid ⟨9⟩, "2026-05", "b3", "kchat_backend", .archiveUploaded⟩]

theorem uploadedRows_keyed : (uploadedRows.map SegmentMapRow.segmentId).Nodup := by
  decide

def uploadedMap : Table SegmentMapRow.segmentId := ⟨uploadedRows, uploadedRows_keyed⟩

/-- It has the first three ids; asked for another it fails every second time, and otherwise sends what nobody wants. -/
def countingSegments : SegmentTransport Nat := fun id asked =>
  (match id with
    | .uuid u => if u.val ≤ 3 then .ok [1] else if asked % 2 = 0 then .error (.transport (.custom "404")) else .ok [255]
    | .malformed _ => .error (.transport (.custom "404")), asked + 1)

/-- It has a text shard, under the hash that is one byte long. -/
def countingShards : IndexShardTransport Nat := fun hash _ shardType asked =>
  (if hash = [7] then if shardType = "text" then .ok [1] else .ok []
    else if asked % 2 = 0 then .error (.transport (.custom "404")) else .ok [255], asked + 1)

/-- Mint by counting, and shuffle by turning the list round. -/
def reversed {ι : Type} (mint : Nat → ι) : Padding ι := ⟨mint, List.reverse, List.reverse_perm⟩

theorem realIds_uploadedMap : realIds uploadedMap ⟨9⟩ "2026-04" = [.uuid ⟨1⟩, .uuid ⟨2⟩] := by
  decide

theorem countingSegments_steady : Steady countingSegments (fun _ => .ok [1]) (realIds uploadedMap ⟨9⟩ "2026-04") := by
  rw [realIds_uploadedMap]
  intro id hid s
  rcases List.mem_cons.mp hid with rfl | hid
  · rfl
  · obtain rfl := List.mem_singleton.mp hid
    rfl

theorem countingShards_steady : SteadyShards countingShards
    ⟨fun _ _ shardType => if shardType = "text" then .ok [1] else .ok []⟩ [7] "2026-04" := by
  intro shardType s
  rfl

/-- Of a tenant-wide search at the high level, four dummies and six; the two segments come back the other way round. -/
theorem padded_prefetch_counting :
    SameOutcome
        (batchPrefetchBucketWithPadding countingSegments uploadedMap ⟨9⟩ "2026-04" .high (reversed fun n => .uuid ⟨n + 4⟩) 0).1
        (batchPrefetchBucket countingSegments uploadedMap ⟨9⟩ "2026-04" 0).1 ∧
      (batchPrefetchShardsWithPaddingForTarget countingShards [7] "2026-04" .high (.tenant "t") (reversed fun n => [0, UInt8.ofNat n]) 0).1 =
        (batchPrefetchShardsVia countingShards [7] "2026-04" 0).1 ∧
      (batchPrefetchShardsVia countingShards [7] "2026-04" 0).1 = .ok [⟨.text, [7], "2026-04", [1]⟩] := by
  have hids : (reversed fun n => IdText.uuid ⟨n + 4⟩).Avoids (realIds uploadedMap ⟨9⟩ "2026-04") := by
    rw [realIds_uploadedMap]
    intro n
    simp [reversed]
  have hhashes : (reversed fun n => ([0, UInt8.ofNat n] : Bytes)).Avoids [[7]] := by
    intro n
    simp [reversed]
  obtain ⟨hsegments, -, hshards, -⟩ := padded_prefetch_is_plain .high (.tenant "t") countingSegments_steady
    countingSegments_steady hids countingShards_steady countingShards_steady hhashes 0 0
  exact ⟨hsegments, hshards, by decide⟩

end KChatCore.Restore
