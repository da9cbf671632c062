import KChatCore.Archive.Segment
import KChatCore.LocalStore.StateMachines

/-!
# `Archive.SegmentMap` — the rows that say where archive segments are, and the readers of a bucket

`archive_segment_map` has a row per uploaded segment. Readers fetch a whole `(conversation, bucket)` at a time,
each row from the backend it names, and they fetch the rows of every state.

* `openBucket_eq_ok` — what a reader of a bucket that succeeds gets.
* `archivedEvents` — everything readable of a conversation.
-/

namespace KChatCore.Archive

/-- `StorageBackend`. -/
inductive StorageBackend
  | kchatBackend
  | zkObjectFabric
deriving DecidableEq, Repr

/-- The text in the `storage_backend` column. -/
def StorageBackend.asStr : StorageBackend → String
  | kchatBackend => "kchat_backend"
  | zkObjectFabric => "zk_object_fabric"

/-- `StorageBackend::from_str(...).unwrap_or(KChatBackend)`. -/
def StorageBackend.fromStrOrDefault (text : String) : StorageBackend :=
  if text = "zk_object_fabric" then zkObjectFabric else kchatBackend

@[simp] theorem StorageBackend.fromStrOrDefault_asStr (b : StorageBackend) : fromStrOrDefault b.asStr = b := by
  cases b <;> decide

/-- An `archive_segment_map` row, with the columns the readers and the compaction use. -/
structure SegmentMapRow where
  segmentId : IdText
  conversationId : IdText
  timeBucket : String
  blobId : String
  storageBackend : String
  state : ArchiveState
deriving DecidableEq, Repr

/-- `persist_segment_map_row`: a freshly uploaded segment's row; `segment_id` is the table's key. -/
def persistSegmentMapRow (segment : BuiltSegment) (blobId : String) (storageBackend : StorageBackend)
    (rows : List SegmentMapRow) : Except Error (List SegmentMapRow) :=
  if segment.segmentId.toText ∈ rows.map SegmentMapRow.segmentId then
    .error (.storageMsg "UNIQUE constraint failed: archive_segment_map.segment_id")
  else
    .ok (rows ++ [{
      segmentId := segment.segmentId.toText
      conversationId := segment.conversationId.toText
      timeBucket := segment.timeBucket
      blobId := blobId
      storageBackend := storageBackend.asStr
      state := .archiveUploaded }])

/-- What a reader has at hand: the rows, and a router to the backends. -/
structure ArchiveStore where
  rows : List SegmentMapRow
  fetch : StorageBackend → IdText → Except Error Bytes

/-- `PrefetchedSegment`. -/
structure PrefetchedSegment where
  segmentId : IdText
  blobId : String
  storageBackend : String
  ciphertext : Bytes
deriving DecidableEq, Repr

/-- The row of a conversation and a bucket, in any state. -/
def SegmentMapRow.inBucket (conversationId : Uuid) (timeBucket : String) (row : SegmentMapRow) : Bool :=
  row.conversationId = conversationId.toText && row.timeBucket = timeBucket

/-- Fetch a row's blob from the backend it names. -/
def ArchiveStore.fetchRow (store : ArchiveStore) (row : SegmentMapRow) : Except Error Bytes :=
  store.fetch (StorageBackend.fromStrOrDefault row.storageBackend) row.segmentId

/-- Fetch row after row; one failure fails the batch. -/
def ArchiveStore.fetchRows (store : ArchiveStore) : List SegmentMapRow → Except Error (List PrefetchedSegment)
  | [] => .ok []
  | row :: rows => do
      let ciphertext ← store.fetchRow row
      let rest ← store.fetchRows rows
      return ⟨row.segmentId, row.blobId, row.storageBackend, ciphertext⟩ :: rest

/-- `batch_prefetch_bucket_with_router`. -/
def batchPrefetchBucketWithRouter (store : ArchiveStore) (conversationId : Uuid) (timeBucket : String) :
    Except Error (List PrefetchedSegment) :=
  store.fetchRows (store.rows.filter (SegmentMapRow.inBucket conversationId timeBucket))

/-- Open prefetched segments one after the other, each under its own key. -/
def openSegments (P : Primitives) (keyForSegment : IdText → Except Error KeyMaterial) :
    List PrefetchedSegment → Except Error (List ArchiveEvent)
  | [] => .ok []
  | segment :: segments => do
      let k ← keyForSegment segment.segmentId
      let events ← openArchiveSegment P segment.ciphertext k
      let rest ← openSegments P keyForSegment segments
      return events ++ rest

/-! ## What is readable -/

/-- The events a row's segment opens to; none if it cannot be fetched or opened. -/
def ArchiveStore.rowEvents (P : Primitives) (keyForSegment : IdText → Except Error KeyMaterial)
    (store : ArchiveStore) (row : SegmentMapRow) : List ArchiveEvent :=
  match store.fetchRow row, keyForSegment row.segmentId with
  | .ok bytes, .ok k => (openArchiveSegment P bytes k).toOption.getD []
  | _, _ => []

/-- **The archived events of a conversation**: of every bucket, from every readable segment. -/
def archivedEvents (P : Primitives) (keyForSegment : IdText → Except Error KeyMaterial) (store : ArchiveStore)
    (conversationId : Uuid) : List ArchiveEvent :=
  (store.rows.filter fun row => row.conversationId = conversationId.toText).flatMap
    (store.rowEvents P keyForSegment)

section Readers

variable {P : Primitives} {keyForSegment : IdText → Except Error KeyMaterial} {store : ArchiveStore}
  {rows : List SegmentMapRow} {prefetched : List PrefetchedSegment} {events : List ArchiveEvent}

theorem rowEvents_of_open {row : SegmentMapRow} {bytes : Bytes} {k : KeyMaterial} {events : List ArchiveEvent}
    (hfetch : store.fetchRow row = .ok bytes) (hkey : keyForSegment row.segmentId = .ok k)
    (hopen : openArchiveSegment P bytes k = .ok events) : store.rowEvents P keyForSegment row = events := by
  rw [ArchiveStore.rowEvents, hfetch, hkey]
  simp only [hopen]
  rfl

theorem mem_archivedEvents {conversationId : Uuid} {e : ArchiveEvent} :
    e ∈ archivedEvents P keyForSegment store conversationId ↔
      ∃ row ∈ store.rows, row.conversationId = conversationId.toText ∧ e ∈ store.rowEvents P keyForSegment row := by
  simp only [archivedEvents, List.mem_flatMap, List.mem_filter, decide_eq_true_eq, and_assoc]

/-- Every prefetched segment is the blob of a row. -/
theorem fetchRows_eq_ok (h : store.fetchRows rows = .ok prefetched) :
    ∀ p ∈ prefetched, ∃ row ∈ rows, row.segmentId = p.segmentId ∧ store.fetchRow row = .ok p.ciphertext := by
  induction rows generalizing prefetched with
  | nil =>
      obtain rfl : prefetched = [] := (Except.ok.inj h).symm
      intro p hp
      exact absurd hp (by simp)
  | cons row rows ih =>
      obtain ⟨ciphertext, hrow, h⟩ := except_bind_eq_ok.mp h
      obtain ⟨rest, hrest, h⟩ := except_bind_eq_ok.mp h
      obtain rfl := Except.ok.inj h
      intro p hp
      rcases List.mem_cons.mp hp with rfl | hp
      · exact ⟨row, by simp, rfl, hrow⟩
      · obtain ⟨row', hmem, hid, hfetch⟩ := ih hrest p hp
        exact ⟨row', by simp [hmem], hid, hfetch⟩

/-- Every event of opened segments is in one of them. -/
theorem openSegments_eq_ok (h : openSegments P keyForSegment prefetched = .ok events) {e : ArchiveEvent} (he : e ∈ events) :
    ∃ p ∈ prefetched, ∃ k opened, keyForSegment p.segmentId = .ok k ∧
      openArchiveSegment P p.ciphertext k = .ok opened ∧ e ∈ opened := by
  induction prefetched generalizing events with
  | nil =>
      obtain rfl : events = [] := (Except.ok.inj h).symm
      exact absurd he (by simp)
  | cons segment segments ih =>
      obtain ⟨k, hkey, h⟩ := except_bind_eq_ok.mp h
      obtain ⟨opened, hopen, h⟩ := except_bind_eq_ok.mp h
      obtain ⟨rest, hrest, h⟩ := except_bind_eq_ok.mp h
      obtain rfl := Except.ok.inj h
      rcases List.mem_append.mp he with hhere | hlater
      · exact ⟨segment, by simp, k, opened, hkey, hopen, hhere⟩
      · obtain ⟨p, hp, found⟩ := ih hrest hlater
        exact ⟨p, by simp [hp], found⟩

/-- **A reader of a bucket sees archived events only.** -/
theorem openBucket_subset {conversationId : Uuid} {timeBucket : String}
    (hfetch : batchPrefetchBucketWithRouter store conversationId timeBucket = .ok prefetched)
    {chosen : List PrefetchedSegment} (hchosen : chosen ⊆ prefetched)
    (hopen : openSegments P keyForSegment chosen = .ok events) :
    events ⊆ archivedEvents P keyForSegment store conversationId := by
  intro e he
  obtain ⟨p, hp, k, opened, hkey, hopened, hin⟩ := openSegments_eq_ok hopen he
  obtain ⟨row, hrow, hid, hrowFetch⟩ := fetchRows_eq_ok hfetch p (hchosen hp)
  obtain ⟨hmem, hbucket⟩ := List.mem_filter.mp hrow
  rw [SegmentMapRow.inBucket, Bool.and_eq_true, decide_eq_true_eq] at hbucket
  refine mem_archivedEvents.mpr ⟨row, hmem, hbucket.1, ?_⟩
  rw [rowEvents_of_open hrowFetch (hid ▸ hkey) hopened]
  exact hin

end Readers

end KChatCore.Archive
