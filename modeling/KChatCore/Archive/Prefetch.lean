import KChatCore.Archive.SegmentMap
import KChatCore.Lib.Cover
import KChatCore.Lib.Table
import KChatCore.Search.Engines

/-!
# `Archive.Prefetch` — a bucket's segments fetched among dummy requests

`batchPrefetchBucket` fetches every segment of a `(conversation, bucket)`, row by row. At `PrivacyLevel.high` the same ids
are shuffled among freshly minted ones and told apart again by looking them up in the bucket.

The transport may remember what it was asked; `Steady` says that its answers for the real ids do not depend on it.

* `batchPrefetchBucket_eq_router` — the plain prefetch is the routed one, where it does not refuse.
* `batchPrefetchBucketWithPadding_sameOutcome` — the padded prefetch is the plain one, up to the order.
-/

namespace KChatCore.Archive

open Lib Cover

/-! ## The policy -/

/-- `PrivacyLevel`. -/
inductive PrivacyLevel
  | standard
  | high
deriving DecidableEq, Repr

/-- `should_pad`, of the configured level. -/
def shouldPad (privacyLevel : PrivacyLevel) : Bool := privacyLevel = .high

/-- `MAX_PADDING_PER_BUCKET`. -/
def maxPaddingPerBucket : Nat := 32

/-- `DEFAULT_PADDING_MULTIPLIER`. -/
def defaultPaddingMultiplier : Nat := 2

/-- `compute_padding_count`; the cap is below every point where the product could saturate. -/
def computePaddingCount (realCount : Nat) : Nat :=
  if realCount = 0 then 0 else min (realCount * defaultPaddingMultiplier) maxPaddingPerBucket

/-- **The random choices of a padded prefetch**: the ids it mints, and how it shuffles. -/
structure Padding (ι : Type) where
  generateDummyId : Nat → ι
  shuffle : List ι → List ι
  shuffle_perm : ∀ ids, (shuffle ids).Perm ids

namespace Padding

variable {ι : Type} (padding : Padding ι)

/-- No minted id is a real one. -/
def Avoids (realIds : List ι) : Prop := ∀ n, padding.generateDummyId n ∉ realIds

/-- `pad_with_dummy_requests`. -/
def padWithDummyRequests (realIds : List ι) (paddingCount : Nat) : List ι :=
  padding.shuffle (realIds ++ (List.range paddingCount).map padding.generateDummyId)

variable {padding} {realIds : List ι} {paddingCount : Nat}

/-- **The real ids come back out**, in another order. -/
theorem filter_padWithDummyRequests {isReal : ι → Bool} (hreal : ∀ id ∈ realIds, isReal id = true)
    (hdummy : ∀ n, isReal (padding.generateDummyId n) = false) :
    ((padding.padWithDummyRequests realIds paddingCount).filter isReal).Perm realIds := by
  have hdrop : ((List.range paddingCount).map padding.generateDummyId).filter isReal = [] := by
    rw [List.filter_eq_nil_iff]
    intro id hid
    obtain ⟨n, -, rfl⟩ := List.mem_map.mp hid
    simp [hdummy n]
  have hperm := (padding.shuffle_perm (realIds ++ (List.range paddingCount).map padding.generateDummyId)).filter isReal
  rwa [List.filter_append, hdrop, List.append_nil, List.filter_eq_self.mpr hreal] at hperm

end Padding

/-! ## Segments -/

/-- What the prefetch asks of the transport: `fetch_archive_segment`. -/
abbrev SegmentTransport (σ : Type) := IdText → σ → Except Error Bytes × σ

/-- `ensure_all_kchat_backend`. -/
def ensureAllKchatBackend : List SegmentMapRow → Except Error Unit
  | [] => .ok ()
  | row :: rows =>
      if StorageBackend.fromStrOrDefault row.storageBackend ≠ .kchatBackend then
        .error (.storageMsg ("batch_prefetch_bucket: segment " ++ row.segmentId.text ++ " uses storage_backend '" ++
          row.storageBackend ++ "'; the legacy KChat-only entry point cannot route it. Use " ++
          "batch_prefetch_bucket_with_router with an ArchiveSegmentRouter built via ArchiveSegmentRouter::with_zkof(...)."))
      else ensureAllKchatBackend rows

/-- The rows of a bucket; `segment_id` is the table's key. -/
def bucketRows (segmentMap : Table SegmentMapRow.segmentId) (conversationId : Uuid) (timeBucket : String) :
    Table SegmentMapRow.segmentId :=
  segmentMap.delete fun row => !row.inBucket conversationId timeBucket

/-- The segment of a row, given its bytes. -/
def prefetchedSegment (row : SegmentMapRow) (ciphertext : Bytes) : PrefetchedSegment :=
  ⟨row.segmentId, row.blobId, row.storageBackend, ciphertext⟩

/-- The plain prefetch keeps every answer. -/
def keepRow : Keep SegmentMapRow Bytes PrefetchedSegment := fun row => some fun bytes => some (prefetchedSegment row bytes)

/-- The padded prefetch looks the id up among the real ones. -/
def keepReal (realRows : Table SegmentMapRow.segmentId) : Keep IdText Bytes PrefetchedSegment :=
  fun id => (realRows.find? id).map fun row bytes => some (prefetchedSegment row bytes)

section Prefetch

variable {σ : Type} (transport : SegmentTransport σ) (segmentMap : Table SegmentMapRow.segmentId) (conversationId : Uuid)
  (timeBucket : String)

/-- `batch_prefetch_bucket`. -/
def batchPrefetchBucket (s : σ) : Except Error (List PrefetchedSegment) × σ :=
  let rows := (bucketRows segmentMap conversationId timeBucket).rows
  match ensureAllKchatBackend rows with
  | .error e => (.error e, s)
  | .ok () => gather (fun row => transport row.segmentId) keepRow rows s

/-- `batch_prefetch_bucket_with_padding`. `real_rows` is a hash map; the order of its keys is lost in the shuffle. -/
def batchPrefetchBucketWithPadding (privacyLevel : PrivacyLevel) (padding : Padding IdText) (s : σ) :
    Except Error (List PrefetchedSegment) × σ :=
  if shouldPad privacyLevel = false then batchPrefetchBucket transport segmentMap conversationId timeBucket s
  else
    let realRows := bucketRows segmentMap conversationId timeBucket
    match ensureAllKchatBackend realRows.rows with
    | .error e => (.error e, s)
    | .ok () =>
        let realIds := realRows.rows.map SegmentMapRow.segmentId
        let padded := padding.padWithDummyRequests realIds (computePaddingCount realIds.length)
        gather transport (keepReal realRows) padded s

end Prefetch

/-- The real ids of a bucket. -/
def realIds (segmentMap : Table SegmentMapRow.segmentId) (conversationId : Uuid) (timeBucket : String) : List IdText :=
  (bucketRows segmentMap conversationId timeBucket).rows.map SegmentMapRow.segmentId

/-- **A transport that answers for the real ids what it always answers**, whatever it was asked before. -/
def Steady {σ : Type} (transport : SegmentTransport σ) (answers : IdText → Except Error Bytes) (ids : List IdText) : Prop :=
  ∀ id ∈ ids, ∀ s, (transport id s).1 = answers id

theorem wanted_iff {realRows : Table SegmentMapRow.segmentId} {id : IdText} :
    Wanted (keepReal realRows) id = true ↔ ∃ row ∈ realRows.rows, row.segmentId = id := by
  rw [Wanted, keepReal, Option.isSome_map, Option.isSome_iff_exists]
  simp only [Table.find?_eq_some]

section Outcome

variable {σ : Type} {transport transport' : SegmentTransport σ} {answers : IdText → Except Error Bytes}
  {segmentMap : Table SegmentMapRow.segmentId} {conversationId : Uuid} {timeBucket : String} {padding : Padding IdText}

/-- What the plain prefetch returns, from the answers alone. -/
def plainOutcome (answers : IdText → Except Error Bytes) (segmentMap : Table SegmentMapRow.segmentId) (conversationId : Uuid)
    (timeBucket : String) : Except Error (List PrefetchedSegment) :=
  let rows := (bucketRows segmentMap conversationId timeBucket).rows
  match ensureAllKchatBackend rows with
  | .error e => .error e
  | .ok () => collect (fun row => answers row.segmentId) keepRow rows

/-- What the padded prefetch returns, from the answers alone. -/
def paddedOutcome (answers : IdText → Except Error Bytes) (segmentMap : Table SegmentMapRow.segmentId) (conversationId : Uuid)
    (timeBucket : String) (padding : Padding IdText) : Except Error (List PrefetchedSegment) :=
  let realRows := bucketRows segmentMap conversationId timeBucket
  match ensureAllKchatBackend realRows.rows with
  | .error e => .error e
  | .ok () =>
      collect answers (keepReal realRows)
        (padding.padWithDummyRequests (realRows.rows.map SegmentMapRow.segmentId)
          (computePaddingCount (realRows.rows.map SegmentMapRow.segmentId).length))

theorem mem_realIds {row : SegmentMapRow} (h : row ∈ (bucketRows segmentMap conversationId timeBucket).rows) :
    row.segmentId ∈ realIds segmentMap conversationId timeBucket :=
  List.mem_map_of_mem h

theorem batchPrefetchBucket_fst (steady : Steady transport answers (realIds segmentMap conversationId timeBucket)) (s : σ) :
    (batchPrefetchBucket transport segmentMap conversationId timeBucket s).1 =
      plainOutcome answers segmentMap conversationId timeBucket := by
  simp only [batchPrefetchBucket, plainOutcome]
  cases ensureAllKchatBackend (bucketRows segmentMap conversationId timeBucket).rows with
  | error e => rfl
  | ok _ =>
      have hsteady : ∀ row ∈ (bucketRows segmentMap conversationId timeBucket).rows, ∀ s,
          (transport row.segmentId s).1 = answers row.segmentId :=
        fun row hrow s => steady row.segmentId (mem_realIds hrow) s
      exact gather_fst (fun row hrow _ s => hsteady row hrow s) s

theorem batchPrefetchBucketWithPadding_standard (s : σ) :
    batchPrefetchBucketWithPadding transport segmentMap conversationId timeBucket .standard padding s =
      batchPrefetchBucket transport segmentMap conversationId timeBucket s :=
  rfl

theorem batchPrefetchBucketWithPadding_high_fst
    (steady : Steady transport answers (realIds segmentMap conversationId timeBucket)) (s : σ) :
    (batchPrefetchBucketWithPadding transport segmentMap conversationId timeBucket .high padding s).1 =
      paddedOutcome answers segmentMap conversationId timeBucket padding := by
  simp only [batchPrefetchBucketWithPadding, shouldPad, decide_true, Bool.true_eq_false, if_false, paddedOutcome]
  cases ensureAllKchatBackend (bucketRows segmentMap conversationId timeBucket).rows with
  | error e => rfl
  | ok _ =>
      refine gather_fst (fun id _ hwanted s => ?_) s
      obtain ⟨row, hmem, rfl⟩ := wanted_iff.mp hwanted
      exact steady row.segmentId (mem_realIds hmem) s

/-- Without its dummies, the padded list is the real ids in another order. -/
theorem paddedOutcome_sameOutcome (hfresh : padding.Avoids (realIds segmentMap conversationId timeBucket)) :
    SameOutcome (paddedOutcome answers segmentMap conversationId timeBucket padding)
      (plainOutcome answers segmentMap conversationId timeBucket) := by
  simp only [paddedOutcome, plainOutcome]
  cases ensureAllKchatBackend (bucketRows segmentMap conversationId timeBucket).rows with
  | error e => exact .failed e e
  | ok _ =>
      have hplain : collect answers (keepReal (bucketRows segmentMap conversationId timeBucket))
          (realIds segmentMap conversationId timeBucket) = collect (fun row => answers row.segmentId) keepRow
            (bucketRows segmentMap conversationId timeBucket).rows := by
        rw [realIds, collect_map]
        refine collect_congr (fun row hrow => ?_) fun row _ _ => rfl
        simp only [Function.comp_apply, keepReal, keepRow, Table.find?_of_mem hrow, Option.map_some]
      rw [← hplain, ← collect_filter]
      refine collect_perm (Padding.filter_padWithDummyRequests ?_ ?_)
      · intro id hid
        obtain ⟨row, hrow, rfl⟩ := List.mem_map.mp hid
        exact wanted_iff.mpr ⟨row, hrow, rfl⟩
      · intro n
        by_contra hwanted
        obtain ⟨row, hrow, hid⟩ := wanted_iff.mp (Bool.not_eq_false _ ▸ hwanted)
        exact hfresh n (hid ▸ mem_realIds hrow)

/-- **The padded prefetch is the plain one**, up to the order: for every level, every shuffle and every minted id that is no
real one. -/
theorem batchPrefetchBucketWithPadding_sameOutcome (privacyLevel : PrivacyLevel)
    (steady : Steady transport answers (realIds segmentMap conversationId timeBucket))
    (hfresh : padding.Avoids (realIds segmentMap conversationId timeBucket)) (s s' : σ) :
    SameOutcome (batchPrefetchBucketWithPadding transport segmentMap conversationId timeBucket privacyLevel padding s).1
      (batchPrefetchBucket transport segmentMap conversationId timeBucket s').1 := by
  rw [batchPrefetchBucket_fst steady]
  cases privacyLevel with
  | standard =>
      rw [batchPrefetchBucketWithPadding_standard, batchPrefetchBucket_fst steady]
      exact .refl _
  | high =>
      rw [batchPrefetchBucketWithPadding_high_fst steady]
      exact paddedOutcome_sameOutcome hfresh

/-- **What the transport makes of the dummies does not matter.** -/
theorem batchPrefetchBucketWithPadding_dummies (privacyLevel : PrivacyLevel)
    (steady : Steady transport answers (realIds segmentMap conversationId timeBucket))
    (steady' : Steady transport' answers (realIds segmentMap conversationId timeBucket)) (s s' : σ) :
    (batchPrefetchBucketWithPadding transport segmentMap conversationId timeBucket privacyLevel padding s).1 =
      (batchPrefetchBucketWithPadding transport' segmentMap conversationId timeBucket privacyLevel padding s').1 := by
  cases privacyLevel with
  | standard =>
      rw [batchPrefetchBucketWithPadding_standard, batchPrefetchBucketWithPadding_standard, batchPrefetchBucket_fst steady,
        batchPrefetchBucket_fst steady']
  | high => rw [batchPrefetchBucketWithPadding_high_fst steady, batchPrefetchBucketWithPadding_high_fst steady']

end Outcome

/-! ## The routed prefetch -/

section Router

variable {store : ArchiveStore} {rows : List SegmentMapRow}

theorem ensureAllKchatBackend_eq_ok (h : ensureAllKchatBackend rows = .ok ()) :
    ∀ row ∈ rows, StorageBackend.fromStrOrDefault row.storageBackend = .kchatBackend := by
  induction rows with
  | nil => exact fun row hrow => absurd hrow (by simp)
  | cons row rows ih =>
      rw [ensureAllKchatBackend] at h
      by_cases hback : StorageBackend.fromStrOrDefault row.storageBackend = .kchatBackend
      · rw [if_neg (not_not.mpr hback)] at h
        intro row' hrow'
        rcases List.mem_cons.mp hrow' with rfl | hrow'
        · exact hback
        · exact ih h row' hrow'
      · rw [if_pos hback] at h
        exact absurd h (by simp)

theorem collect_eq_fetchRows
    (h : ∀ row ∈ rows, StorageBackend.fromStrOrDefault row.storageBackend = .kchatBackend) :
    collect (fun row => store.fetch .kchatBackend row.segmentId) keepRow rows = store.fetchRows rows := by
  induction rows with
  | nil => rfl
  | cons row rows ih =>
      have hrow : store.fetchRow row = store.fetch .kchatBackend row.segmentId := by
        rw [ArchiveStore.fetchRow, h row List.mem_cons_self]
      have hkeep : keepRow row = some fun bytes => some (prefetchedSegment row bytes) := rfl
      have hlater := ih fun r hr => h r (List.mem_cons_of_mem row hr)
      rw [ArchiveStore.fetchRows, hrow, ← hlater]
      cases hfetch : store.fetch .kchatBackend row.segmentId with
      | error e => rw [collect_failed hkeep hfetch]; rfl
      | ok bytes =>
          rw [collect_answered hkeep hfetch]
          cases collect (fun row : SegmentMapRow => store.fetch .kchatBackend row.segmentId) keepRow rows <;> rfl

/-- **Where it does not refuse, the plain prefetch is the routed one.** -/
theorem batchPrefetchBucket_eq_router {σ : Type} {transport : SegmentTransport σ}
    {segmentMap : Table SegmentMapRow.segmentId} {conversationId : Uuid} {timeBucket : String}
    (fetch : StorageBackend → IdText → Except Error Bytes)
    (steady : Steady transport (fetch .kchatBackend) (realIds segmentMap conversationId timeBucket))
    (hkchat : ensureAllKchatBackend (bucketRows segmentMap conversationId timeBucket).rows = .ok ()) (s : σ) :
    (batchPrefetchBucket transport segmentMap conversationId timeBucket s).1 =
      batchPrefetchBucketWithRouter ⟨segmentMap.rows, fetch⟩ conversationId timeBucket := by
  have hrows : (bucketRows segmentMap conversationId timeBucket).rows =
      segmentMap.rows.filter (SegmentMapRow.inBucket conversationId timeBucket) := by
    simp only [bucketRows, Table.delete, Bool.not_not]
  rw [batchPrefetchBucket_fst steady, plainOutcome, batchPrefetchBucketWithRouter, ← hrows, hkchat]
  exact @collect_eq_fetchRows ⟨segmentMap.rows, fetch⟩ _ (ensureAllKchatBackend_eq_ok hkchat)

end Router

end KChatCore.Archive
