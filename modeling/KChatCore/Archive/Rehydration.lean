import KChatCore.Archive.SegmentMap
import KChatCore.Message.Core

/-!
# `Archive.Rehydration` — archived messages coming back

* `rehydrateTimelineSkeletonsWithRouter` — a skeleton for each message the events of a bucket name.
* `hydrateColdSearchResults` — the bodies of cold search results, read out of the archive.
* `rehydrateMessageBodyLocally` — one body, its state and its two text indexes.

None of them runs in one transaction: each write is committed on its own, and an error ends the loop with the writes
before it in place. So each returns a result and a store. None of them asks `BodyState.tryTransition`.
-/

namespace KChatCore

open Lib

namespace LocalStore.LocalStoreDb

/-- `INSERT INTO message_body ... ON CONFLICT DO UPDATE SET text_content`, for a message that is there. -/
def upsertMessageBody (db : LocalStoreDb) (m : Uuid) (text : String) (hskel : db.skeletons.has m = true) : LocalStoreDb :=
  if hfree : db.bodies.has m = false then db.addBody ⟨m, some text, none, none⟩ hfree hskel
  else db.updateMessageBodyText m text

/-- `rehydrate_message_body`. -/
def rehydrateMessageBody (db : LocalStoreDb) (m : Uuid) (text : String) (newBodyState : BodyState) :
    Except DbError LocalStoreDb :=
  match hskel : db.skeletons.find? m with
  | none => .error (.invalidState ("rehydrate_message_body: no message_skeleton row for " ++ m.hyphenated))
  | some skel =>
      let db := db.upsertMessageBody m text (by rw [Table.has, hskel, Option.isSome_some])
      let db := db.updateBodyState m newBodyState
      let db := db.deleteFtsRow m.toText
      .ok (db.insertFtsRow ⟨m.toText, skel.conversationId, skel.senderId, skel.createdAtMs, text⟩)

end LocalStore.LocalStoreDb

namespace Archive

open LocalStore Message

/-! ## One body -/

/-- `rehydrate_message_body_locally`. -/
def rehydrateMessageBodyLocally (F : Platform) (db : LocalStoreDb) (m : Uuid) (text : String) (newBodyState : BodyState) :
    Except Error LocalStoreDb := do
  let db ← toStorage (db.rehydrateMessageBody m text newBodyState)
  return (db.removeMessage m.toText).indexMessage F.toLowercase m.toText text

/-! ## The timeline of a bucket -/

/-- The skeleton of an archived event, whatever the event is. -/
def stubSkeleton (conversationId messageId : Uuid) (createdAtMs receivedAtMs : Int) : MessageSkeleton where
  messageId := messageId
  conversationId := conversationId
  senderId := ""
  createdAtMs := createdAtMs
  receivedAtMs := receivedAtMs
  kind := .text
  bodyState := .remoteArchiveOnly
  mediaState := none
  archiveState := .archiveUploaded
  backupState := .notBackedUp
  replyTo := none
  editedAtMs := none
  deletedAtMs := none

/-- The events of one segment, one upsert each; the stubs that landed, oldest first. -/
def rehydrateEvents (conversationId : Uuid) (receivedAtMs : Int) :
    List ArchiveEvent → List MessageSkeleton → LocalStoreDb → Except Error (List MessageSkeleton) × LocalStoreDb
  | [], inserted, db => (.ok inserted, db)
  | event :: events, inserted, db =>
      match event.messageId with
      | none => rehydrateEvents conversationId receivedAtMs events inserted db
      | some messageId =>
          if event.conversationId ≠ conversationId then rehydrateEvents conversationId receivedAtMs events inserted db
          else
            let stub := stubSkeleton conversationId messageId event.createdAtMs receivedAtMs
            match toStorage (db.upsertSkeletonFromArchive stub) with
            | .error e => (.error e, db)
            | .ok (db', landed) =>
                rehydrateEvents conversationId receivedAtMs events (if landed then inserted ++ [stub] else inserted) db'

/-- The segments of a bucket, each opened when its turn comes. -/
def rehydrateSegments (F : Platform) (keyForSegment : IdText → Except Error KeyMaterial) (conversationId : Uuid)
    (receivedAtMs : Int) :
    List PrefetchedSegment → List MessageSkeleton → LocalStoreDb → Except Error (List MessageSkeleton) × LocalStoreDb
  | [], inserted, db => (.ok inserted, db)
  | segment :: segments, inserted, db =>
      match (keyForSegment segment.segmentId).bind (openArchiveSegment F.primitives segment.ciphertext) with
      | .error e => (.error e, db)
      | .ok events =>
          match rehydrateEvents conversationId receivedAtMs events inserted db with
          | (.error e, db') => (.error e, db')
          | (.ok inserted', db') => rehydrateSegments F keyForSegment conversationId receivedAtMs segments inserted' db'

/-- `rehydrate_timeline_skeletons_with_router`. -/
def rehydrateTimelineSkeletonsWithRouter (F : Platform) (archive : ArchiveStore) (conversationId : Uuid)
    (timeBucket : String) (keyForSegment : IdText → Except Error KeyMaterial) (receivedAtMs : Int) (db : LocalStoreDb) :
    Except Error (List MessageSkeleton) × LocalStoreDb :=
  match batchPrefetchBucketWithRouter archive conversationId timeBucket with
  | .error e => (.error e, db)
  | .ok segments => rehydrateSegments F keyForSegment conversationId receivedAtMs segments [] db

/-! ## Cold search results -/

/-- `{n:0width}`. -/
def zeroPadded (width n : Nat) : String :=
  let digits := Nat.toDigits 10 n
  String.ofList (List.replicate (width - digits.length) '0' ++ digits)

/-- `default_time_bucket_for_ms`: months of thirty days, years of 365. -/
def defaultTimeBucketForMs (createdAtMs : Int) : String :=
  let secs := createdAtMs.tdiv 1000
  if secs < 0 then "unknown"
  else
    let totalDays := secs.toNat / 86400
    zeroPadded 4 (1970 + totalDays / 365) ++ "-" ++ zeroPadded 2 (1 + min (totalDays % 365 / 30) 11)

/-- `SearchResult`; scores and snippets are left out. -/
structure SearchResult where
  messageId : Uuid
  conversationId : Uuid
  senderId : String
  createdAtMs : Int
  isCold : Bool
deriving DecidableEq, Repr

/-- The bucket of a result. -/
def SearchResult.bucket (r : SearchResult) : Uuid × String := (r.conversationId, defaultTimeBucketForMs r.createdAtMs)

/-- The order of a `BTreeMap<(Uuid, String), _>`. -/
def bucketLe (a b : Uuid × String) : Bool := a.1.val < b.1.val || (a.1 = b.1 && a.2 ≤ b.2)

/-- The buckets of the cold results, in key order, each with the messages wanted from it. -/
def coldBuckets (results : List SearchResult) : List ((Uuid × String) × List Uuid) :=
  let cold := results.filter SearchResult.isCold
  (((cold.map SearchResult.bucket).dedup).mergeSort bucketLe).map fun bucket =>
    (bucket, (cold.filter fun r => r.bucket = bucket).map SearchResult.messageId)

/-- The message and the text a wanted event brings back; a tombstone brings none. -/
def wantedText (F : Platform) (conversationId : Uuid) (wanted : List Uuid) (event : ArchiveEvent) : Option (Uuid × String) :=
  match event.messageId with
  | none => none
  | some m =>
      if event.conversationId ≠ conversationId ∨ m ∉ wanted then none
      else
        match event.eventType with
        | .messageReceived | .messageEdited => (tryDecodeText F.primitives event.payload).map fun text => (m, text)
        | _ => none

/-- The events of one segment. -/
def hydrateEvents (F : Platform) (conversationId : Uuid) (wanted : List Uuid) :
    List ArchiveEvent → Nat → LocalStoreDb → Except Error Nat × LocalStoreDb
  | [], hydrated, db => (.ok hydrated, db)
  | event :: events, hydrated, db =>
      match wantedText F conversationId wanted event with
      | none => hydrateEvents F conversationId wanted events hydrated db
      | some (m, text) =>
          match rehydrateMessageBodyLocally F db m text .localPlainAvailable with
          | .error e => (.error e, db)
          | .ok db' => hydrateEvents F conversationId wanted events (hydrated + 1) db'

/-- The segments of one bucket. -/
def hydrateSegments (F : Platform) (keyForSegment : IdText → Except Error KeyMaterial) (conversationId : Uuid)
    (wanted : List Uuid) : List PrefetchedSegment → Nat → LocalStoreDb → Except Error Nat × LocalStoreDb
  | [], hydrated, db => (.ok hydrated, db)
  | segment :: segments, hydrated, db =>
      match (keyForSegment segment.segmentId).bind (openArchiveSegment F.primitives segment.ciphertext) with
      | .error e => (.error e, db)
      | .ok events =>
          match hydrateEvents F conversationId wanted events hydrated db with
          | (.error e, db') => (.error e, db')
          | (.ok hydrated', db') => hydrateSegments F keyForSegment conversationId wanted segments hydrated' db'

/-- Bucket after bucket, each fetched when its turn comes. -/
def hydrateBuckets (F : Platform) (archive : ArchiveStore) (keyForSegment : IdText → Except Error KeyMaterial) :
    List ((Uuid × String) × List Uuid) → Nat → LocalStoreDb → Except Error Nat × LocalStoreDb
  | [], hydrated, db => (.ok hydrated, db)
  | ((conversationId, timeBucket), wanted) :: buckets, hydrated, db =>
      match batchPrefetchBucketWithRouter archive conversationId timeBucket with
      | .error e => (.error e, db)
      | .ok segments =>
          match hydrateSegments F keyForSegment conversationId wanted segments hydrated db with
          | (.error e, db') => (.error e, db')
          | (.ok hydrated', db') => hydrateBuckets F archive keyForSegment buckets hydrated' db'

/-- `hydrate_cold_search_results`. -/
def hydrateColdSearchResults (F : Platform) (archive : ArchiveStore) (results : List SearchResult)
    (keyForSegment : IdText → Except Error KeyMaterial) (db : LocalStoreDb) : Except Error Nat × LocalStoreDb :=
  hydrateBuckets F archive keyForSegment (coldBuckets results) 0 db

/-! ## An archive of one segment -/

/-- One uploaded segment of conversation 1. -/
def oneSegment (timeBucket : String) (built : BuiltSegment) : ArchiveStore :=
  ⟨[⟨built.segmentId.toText, Uuid.toText ⟨1⟩, timeBucket, "blob", "kchat_backend", .archiveUploaded⟩],
    fun _ _ => .ok built.blob⟩

theorem batchPrefetch_oneSegment (timeBucket : String) (built : BuiltSegment) :
    batchPrefetchBucketWithRouter (oneSegment timeBucket built) ⟨1⟩ timeBucket =
      .ok [⟨built.segmentId.toText, "blob", "kchat_backend", built.blob⟩] := by
  have hrows : (oneSegment timeBucket built).rows.filter (SegmentMapRow.inBucket ⟨1⟩ timeBucket) =
      (oneSegment timeBucket built).rows := by
    simp [oneSegment, SegmentMapRow.inBucket]
  rw [batchPrefetchBucketWithRouter, hrows]
  rfl

end Archive

end KChatCore
