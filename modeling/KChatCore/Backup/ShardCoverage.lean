import KChatCore.Backup.Faithfulness
import KChatCore.Backup.Progress
import KChatCore.Backup.SearchShards
import KChatCore.Message.Core

/-!
# `Backup.ShardCoverage` — do the shards cover what was backed up?

A pass rebuilds the shards of the buckets its own events fall into, from the messages these events name: once for each
event, under the bucket of the event, in place of the shard that was there. So a bucket stays covered as long as every
pass that touches it names each of its messages once.

* `ShardsCover` — each searchable message whose receipt was sealed is in the shards of its bucket, once.
* `shardsCover_of_run` — the condition on the calls that keeps it.
-/

namespace KChatCore.Backup

open Archive Lib LocalStore Message Search

/-! ## What a pass names -/

/-- The messages that sealed events name in a bucket. -/
def namedIn (sealedEvents : List SealedBackupEventRef) (key : Uuid × String) : List Uuid :=
  (sealedEvents.filter fun e => e.bucket = key).map SealedBackupEventRef.messageId

theorem lookup_bucketMap (sealedEvents : List SealedBackupEventRef) (key : Uuid × String) :
    ((bucketMap sealedEvents).lookup key).getD [] = namedIn sealedEvents key := by
  have hbucket : ((buckets bucketLe (fun e : SealedBackupEventRef => some e.bucket) sealedEvents).lookup key).getD [] = _ :=
    lookup_buckets key
  unfold bucketMap namedIn
  rw [lookup_map_snd (fun es : List SealedBackupEventRef => es.map SealedBackupEventRef.messageId)]
  simp only [Option.some.injEq] at hbucket
  rw [← hbucket]
  cases ((buckets bucketLe (fun e : SealedBackupEventRef => some e.bucket) sealedEvents).lookup key) <;> rfl

/-- The messages the next pass names in a bucket. -/
def nextNamed (d : Device) (key : Uuid × String) : List Uuid := namedIn (sealedEventRefs (nextBatch d.core.db)) key

/-! ## What a pass leaves -/

section Pass

variable {P : ShardPrimitives} {nowPersistMs : Int} {conversationHashKey : KeyMaterial} {keyForBucket : KeyForBucket}
  {d d' : Device} {out : RunIncrementalBackupWithShards}

/-- The refs a successful call of the inner pipeline returns are those of the next batch. -/
theorem sealedEventRefs_of_ok {P : Primitives} {c : Core} {backup : BackupResult} {sealedEvents : List SealedBackupEventRef}
    (h : (runIncrementalBackupInner P nowPersistMs c).1 = .ok (backup, sealedEvents)) :
    sealedEvents = sealedEventRefs (nextBatch c.db) ∧ (backup.segmentsBuilt = 0 → sealedEvents = []) := by
  rcases hrun : runIncrementalBackupInner P nowPersistMs c with ⟨r, c'⟩
  rw [hrun] at h
  rcases runIncrementalBackupInner_cases hrun with ⟨-, hidle⟩ | ⟨keys, batch, tracked, sealed, c₂, ru, hi, hup, rfl⟩
  · obtain ⟨hx, -, hread⟩ := hidle _ h
    obtain ⟨-, rfl⟩ := Prod.mk.inj hx
    have hnone : nextBatch c.db = [] := by rw [nextBatch, hread]
    rw [hnone]
    exact ⟨rfl, fun _ => rfl⟩
  · have hbatch : nextBatch c.db = batch.events := by rw [nextBatch, hi.read]
    cases ru with
    | error e => exact absurd h (by simp [Except.map])
    | ok uploaded =>
        obtain ⟨rfl, rfl⟩ := Prod.mk.inj (Except.ok.inj h)
        rw [hbatch]
        exact ⟨rfl, fun hzero => absurd hzero (by simp)⟩

/-- **What a successful pass leaves**: in each bucket, the index rows of the messages it names there over the rows that
were stored. -/
theorem storedRows_of_ok
    (h : runIncrementalBackupWithSearchShards P nowPersistMs conversationHashKey keyForBucket d = (.ok out, d'))
    (haccepts : d.server.Accepts) :
    d'.store = d.store ∧ d'.server.Accepts ∧ ∀ key, storedRows P conversationHashKey keyForBucket d'.server key =
      overlay (bucketRows d.store (nextNamed d key)) (storedRows P conversationHashKey keyForBucket d.server key) := by
  unfold runIncrementalBackupWithSearchShards at h
  cases hinner : (runIncrementalBackupInner P.toPrimitives nowPersistMs d.core).1 with
  | error e => simp [hinner] at h
  | ok res =>
      obtain ⟨backup, sealedEvents⟩ := res
      obtain ⟨hsealed, hnone⟩ := sealedEventRefs_of_ok hinner
      simp only [hinner] at h
      by_cases hidle : ((bucketMap sealedEvents).isEmpty || decide (backup.segmentsBuilt = 0)) = true
      · -- no bucket is touched
        rw [if_pos hidle] at h
        obtain ⟨-, rfl⟩ := Prod.mk.inj h
        refine ⟨rfl, haccepts, fun key => ?_⟩
        have hnamed : nextNamed d key = [] := by
          unfold nextNamed
          rw [← hsealed]
          rcases Bool.or_eq_true_iff.mp hidle with hmap | hbuilt
          · rw [← lookup_bucketMap, List.isEmpty_iff.mp hmap]
            rfl
          · rw [hnone (of_decide_eq_true hbuilt)]
            rfl
        rw [hnamed]
        rfl
      · rw [if_neg hidle] at h
        rcases hup : uploadBuckets P (d.backedUp P.toPrimitives nowPersistMs).store conversationHashKey keyForBucket
          (bucketMap sealedEvents)
          ⟨(d.backedUp P.toPrimitives nowPersistMs).server, (d.backedUp P.toPrimitives nowPersistMs).core.drawn⟩ with ⟨r, st⟩
        rw [hup] at h
        cases r with
        | error e => simp at h
        | ok shards =>
            obtain ⟨-, rfl⟩ := Prod.mk.inj h
            have hkeys : ((bucketMap sealedEvents).map Prod.fst).Nodup := by
              unfold bucketMap
              rw [List.map_map]
              exact buckets_keys_nodup
            obtain ⟨haccepts', hstored⟩ := storedRows_uploadBuckets hup haccepts hkeys
            refine ⟨rfl, haccepts', fun key => ?_⟩
            show storedRows P conversationHashKey keyForBucket st.server key = _
            rw [hstored, lookup_bucketMap, hsealed]
            rfl

end Pass

/-! ## Coverage -/

/-- **A message a search may show**: it is there, not deleted, and indexed under its own id. -/
structure Searchable (db : LocalStoreDb) (m : Uuid) (skel : MessageSkeleton) : Prop where
  skeleton : db.skeletons.find? m = some skel
  live : skel.bodyState.deleted = false
  indexed : (db.view m).fts ≠ []

/-- The bucket of a message. -/
def ownBucket (skel : MessageSkeleton) : Uuid × String := (skel.conversationId, defaultTimeBucketForMs skel.createdAtMs)

/-- **The rows cover the message**: one text row, and each of its n-grams once. -/
structure CoversMessage (rows : List FtsRow × List FuzzyRow) (db : LocalStoreDb) (m : Uuid) : Prop where
  text : (rows.1.countP fun r => r.messageId = m.toText) = 1
  fuzzy : ∀ r ∈ (db.view m).fuzzy, rows.2.count r = 1

/-- The receipt of the message is among the sealed events. -/
def ReceiptSealed (sealedEvents : List BackupEvent) (m : Uuid) : Prop :=
  ∃ ev ∈ sealedEvents, ev.eventType = .messageReceived ∧ ev.messageId = some m

section Rows

variable {db : LocalStoreDb} {m : Uuid} {mids : List Uuid}

/-- A message with a text row has as many rows in the shard as it is named. -/
theorem countP_bucketRows (hindexed : (db.view m).fts ≠ []) :
    ((bucketRows db mids).1.countP fun r => r.messageId = m.toText) = mids.count m := by
  have hother : ∀ (k : Uuid) (r : FtsRow), (db.fts.find? fun r => decide (r.messageId = k.toText)) = some r → r.messageId = k.toText := by
    intro k r hr
    simpa using List.find?_some hr
  induction mids with
  | nil => rfl
  | cons k mids ih =>
      have hcons : (bucketRows db (k :: mids)).1 =
          (db.fts.find? fun r => decide (r.messageId = k.toText)).toList ++ (bucketRows db mids).1 := by
        simp only [bucketRows, List.filterMap_cons]
        cases db.fts.find? fun r => decide (r.messageId = k.toText) <;> rfl
      rw [hcons, List.countP_append, ih, List.count_cons, Nat.add_comm]
      congr 1
      by_cases hk : k = m
      · subst hk
        -- its first row is there, since it has one
        obtain ⟨r, hr⟩ := List.exists_mem_of_ne_nil _ hindexed
        obtain ⟨hmem, hid⟩ := List.mem_filter.mp hr
        have hfound : (db.fts.find? fun r => decide (r.messageId = k.toText)).isSome = true :=
          List.find?_isSome.mpr ⟨r, hmem, hid⟩
        obtain ⟨r', hr'⟩ := Option.isSome_iff_exists.mp hfound
        rw [hr', if_pos (by simp)]
        simp [hother k r' hr']
      · rw [if_neg (by simpa using hk)]
        cases hfind : db.fts.find? fun r => decide (r.messageId = k.toText) with
        | none => rfl
        | some r' =>
            have hne : r'.messageId ≠ m.toText := by
              rw [hother k r' hfind]
              exact fun h => hk (Uuid.toText_inj.mp h)
            simp [hne]

/-- An n-gram of a message is in the shard as often as the message is named. -/
theorem count_bucketRows {r : FuzzyRow} (hr : r ∈ (db.view m).fuzzy) : (bucketRows db mids).2.count r = mids.count m := by
  obtain ⟨hmem, hid⟩ := List.mem_filter.mp hr
  have hid : r.messageId = m.toText := of_decide_eq_true hid
  have hnodup : db.fuzzy.rows.Nodup := List.Nodup.of_map _ db.fuzzy.keyed
  induction mids with
  | nil => rfl
  | cons k mids ih =>
      have hcons : (bucketRows db (k :: mids)).2 =
          (db.fuzzy.rows.filter fun r => decide (r.messageId = k.toText)) ++ (bucketRows db mids).2 := rfl
      rw [hcons, List.count_append, ih, List.count_cons, Nat.add_comm]
      congr 1
      by_cases hk : k = m
      · subst hk
        rw [if_pos (by simp), List.count_filter (by simpa using hid)]
        exact List.count_eq_one_of_mem hnodup hmem
      · rw [if_neg (by simpa using hk), List.count_eq_zero]
        intro hin
        have hid' : r.messageId = k.toText := of_decide_eq_true (List.mem_filter.mp hin).2
        exact hk (Uuid.toText_inj.mp (hid'.symm.trans hid))

/-- The text shard is left alone only if no named message has a text row. -/
theorem bucketRows_text_isEmpty : (bucketRows db mids).1.isEmpty = true ↔ ∀ k ∈ mids, (db.view k).fts = [] := by
  rw [List.isEmpty_iff, bucketRows, List.filterMap_eq_nil_iff]
  refine forall₂_congr fun k _ => ?_
  show (db.fts.find? fun r => decide (r.messageId = k.toText)) = none ↔ db.fts.filter _ = []
  rw [List.find?_eq_none, List.filter_eq_nil_iff]

theorem bucketRows_fuzzy_isEmpty : (bucketRows db mids).2.isEmpty = true ↔ ∀ k ∈ mids, (db.view k).fuzzy = [] := by
  rw [List.isEmpty_iff, bucketRows, List.flatMap_eq_nil_iff]
  exact Iff.rfl

end Rows

/-- **The condition on a pass, for a message**: if its receipt is new, it is named in its own bucket; and if a shard of
that bucket is replaced, it is named there once. -/
structure NamesOnce (db : LocalStoreDb) (sealedEvents : List BackupEvent) (named : List Uuid) (m : Uuid) : Prop where
  fresh : ¬ ReceiptSealed sealedEvents m → m ∈ named
  text : (∃ k ∈ named, (db.view k).fts ≠ []) → named.count m = 1
  fuzzy : (∃ k ∈ named, (db.view k).fuzzy ≠ []) → (db.view m).fuzzy ≠ [] → named.count m = 1

/-- **The upload of a bucket covers a message that it names once**, and one it leaves alone if that was covered. -/
theorem coversMessage_overlay {db : LocalStoreDb} {sealedEvents : List BackupEvent} {named : List Uuid} {m : Uuid}
    {stored : List FtsRow × List FuzzyRow} (hnames : NamesOnce db sealedEvents named m) (hindexed : (db.view m).fts ≠ [])
    (hold : ReceiptSealed sealedEvents m → CoversMessage stored db m) :
    CoversMessage (overlay (bucketRows db named) stored) db m := by
  constructor
  · unfold overlay
    by_cases hempty : (bucketRows db named).1.isEmpty = true
    · -- untouched: then the message is not named, so its receipt is an old one
      rw [if_pos hempty]
      have hunnamed : m ∉ named := fun hm => hindexed (bucketRows_text_isEmpty.mp hempty m hm)
      exact (hold (not_not.mp (mt hnames.fresh hunnamed))).text
    · rw [if_neg hempty, countP_bucketRows hindexed]
      rw [bucketRows_text_isEmpty] at hempty
      push Not at hempty
      exact hnames.text hempty
  · intro r hr
    have hgrams : (db.view m).fuzzy ≠ [] := List.ne_nil_of_mem hr
    unfold overlay
    by_cases hempty : (bucketRows db named).2.isEmpty = true
    · rw [if_pos hempty]
      have hunnamed : m ∉ named := fun hm => hgrams (bucketRows_fuzzy_isEmpty.mp hempty m hm)
      exact (hold (not_not.mp (mt hnames.fresh hunnamed))).fuzzy r hr
    · rw [if_neg hempty, count_bucketRows hr]
      rw [bucketRows_fuzzy_isEmpty] at hempty
      push Not at hempty
      exact hnames.fuzzy hempty hgrams

/-! ## Histories -/

/-- **A device in its history**: with the events its passes have sealed. -/
structure ShardHistory where
  device : Device
  sealedEvents : List BackupEvent

/-- The calls of a history: a call of the core, or a pass with the time of its persist. -/
inductive ShardCall
  | core (call : CoreCall)
  | backup (nowPersistMs : Int)

/-- After a call of the core: its journal is the one the pipelines read. -/
def Device.after (F : Platform) (d : Device) (call : CoreCall) : Device where
  store := call.apply F d.store
  core := { d.core with db := { d.core.db with journal := (call.apply F d.store).backupJournal } }
  server := d.server
  journal := rfl

/-- A device without messages, over a server that takes everything. -/
def Device.fresh (conversations : Table Conversation.conversationId) (keys : BackupKeys) (sink : Option BackupSink) :
    Device where
  store := LocalStoreDb.fresh conversations
  core := Core.fresh keys sink
  server := ShardServer.empty
  journal := rfl

namespace ShardHistory

section Step

variable (F : Platform) (P : ShardPrimitives) (conversationHashKey : KeyMaterial) (keyForBucket : KeyForBucket)

/-- **One call**: any call of the core, or a pass that succeeds. -/
def Step (s : ShardHistory) (call : ShardCall) (s' : ShardHistory) : Prop :=
  match call with
  | .core call => s' = ⟨s.device.after F call, s.sealedEvents⟩
  | .backup nowPersistMs =>
      ∃ out, runIncrementalBackupWithSearchShards P nowPersistMs conversationHashKey keyForBucket s.device =
        (.ok out, s'.device) ∧ s'.sealedEvents = s.sealedEvents ++ nextBatch s.device.core.db

/-- **The shards cover the backed-up history**: every searchable message whose receipt was sealed is covered by the
shards of its bucket. -/
def ShardsCover (s : ShardHistory) : Prop :=
  ∀ m skel, ReceiptSealed s.sealedEvents m → Searchable s.device.store m skel →
    CoversMessage (storedRows P conversationHashKey keyForBucket s.device.server (ownBucket skel)) s.device.store m

end Step

/-- A store that shows no more of the message than another: searchable there as well, in the same bucket, and without a
new n-gram. -/
def ShowsNoMore (db db' : LocalStoreDb) (m : Uuid) : Prop :=
  ∀ skel', Searchable db' m skel' → ∃ skel, Searchable db m skel ∧ ownBucket skel' = ownBucket skel ∧
    (db'.view m).fuzzy ⊆ (db.view m).fuzzy

/-- **The condition on a call.** A call of the core shows no more of a message whose receipt is sealed; a pass names
each searchable message once in its own bucket, if that is replaced or the receipt is new. -/
def Meets (F : Platform) (s : ShardHistory) : ShardCall → Prop
  | .core call => ∀ m, ReceiptSealed s.sealedEvents m → ShowsNoMore s.device.store (call.apply F s.device.store) m
  | .backup _ => ∀ m skel, ReceiptSealed (s.sealedEvents ++ nextBatch s.device.core.db) m →
      Searchable s.device.store m skel →
      NamesOnce s.device.store s.sealedEvents (nextNamed s.device (ownBucket skel)) m

variable {F : Platform} {P : ShardPrimitives} {conversationHashKey : KeyMaterial} {keyForBucket : KeyForBucket}
  {s s' : ShardHistory} {call : ShardCall} {tr : List (ShardHistory × ShardCall)}

/-- **One call keeps the coverage**, and the server goes on taking everything. -/
theorem shardsCover_step (hcovers : ShardsCover P conversationHashKey keyForBucket s) (haccepts : s.device.server.Accepts)
    (hstep : Step F P conversationHashKey keyForBucket s call s') (hmeets : Meets F s call) :
    ShardsCover P conversationHashKey keyForBucket s' ∧ s'.device.server.Accepts := by
  cases call with
  | core call =>
      obtain rfl : s' = _ := hstep
      refine ⟨?_, haccepts⟩
      intro m skel' hsealed hsearch
      obtain ⟨skel, hbefore, hbucket, hgrams⟩ := hmeets m hsealed skel' hsearch
      have hcovered := hcovers m skel hsealed hbefore
      rw [hbucket]
      exact ⟨hcovered.text, fun r hr => hcovered.fuzzy r (hgrams hr)⟩
  | backup nowPersistMs =>
      obtain ⟨out, hrun, hevents⟩ := hstep
      obtain ⟨hstore, haccepts', hstored⟩ := storedRows_of_ok hrun haccepts
      refine ⟨?_, haccepts'⟩
      intro m skel hsealed hsearch
      rw [hevents] at hsealed
      rw [hstore] at hsearch ⊢
      rw [hstored]
      exact coversMessage_overlay (hmeets m skel hsealed hsearch) hsearch.indexed fun hold => hcovers m skel hold hsearch

/-- **Coverage over histories.** If every call of a history from a device without messages meets the condition, the
shards cover the backed-up history in the state it leads to. -/
theorem shardsCover_of_run {conversations : Table Conversation.conversationId} {keys : BackupKeys} {sink : Option BackupSink}
    (hrun : Run (Step F P conversationHashKey keyForBucket) ⟨Device.fresh conversations keys sink, []⟩ tr s)
    (hmeets : ∀ p ∈ tr, Meets F p.1 p.2) : ShardsCover P conversationHashKey keyForBucket s := by
  have hinv : ShardsCover P conversationHashKey keyForBucket s ∧ s.device.server.Accepts := by
    apply hrun.invariant_of_guarded (G := Meets F) (I := fun s =>
      ShardsCover P conversationHashKey keyForBucket s ∧ s.device.server.Accepts) _ hmeets
    · refine ⟨?_, fun n => rfl⟩
      rintro m skel ⟨ev, hev, -⟩
      exact absurd hev (by simp)
    · rintro s call s' ⟨hcovers, haccepts⟩ hmeet hstep
      exact shardsCover_step hcovers haccepts hstep hmeet
  exact hinv.1

/-! ## What the calls of the core show -/

theorem showsNoMore_of_view {db db' : LocalStoreDb} {m : Uuid} (h : db'.view m = db.view m) : ShowsNoMore db db' m := by
  intro skel hsearch
  have hskel : db'.skeletons.find? m = db.skeletons.find? m := congrArg MessageView.skeleton h
  refine ⟨skel, ⟨hskel ▸ hsearch.skeleton, hsearch.live, ?_⟩, rfl, ?_⟩
  · rw [← h]
    exact hsearch.indexed
  · rw [h]
    exact List.Subset.refl _

/-- A deleted message is not shown at all. -/
theorem showsNoMore_of_deleted {db db' : LocalStoreDb} {skel : MessageSkeleton} {scope : DeleteScope} {ms : Int}
    (hskel : db.skeletons.find? skel.messageId = some skel) (h : db' = deleteInnerTx db skel scope ms) (m : Uuid) :
    ShowsNoMore db db' m := by
  by_cases hm : m = skel.messageId
  · intro skel' hsearch
    refine absurd ?_ hsearch.indexed
    rw [h, hm, view_deleteInnerTx scope ms hskel]
  · apply showsNoMore_of_view
    rw [h, view_deleteInnerTx_of_ne hm]

/-- **Only an edit shows more of a message that is there.** -/
theorem showsNoMore_of_has {db db' : LocalStoreDb} {call : CoreCall} {m : Uuid} (hthere : db.skeletons.has m = true)
    (hstep : CoreCall.Step F db call db') (hedit : ∀ newText ms, call ≠ .message (.editMessage m newText ms)) :
    ShowsNoMore db db' m := by
  -- a message that is created is another one
  have hnew : ∀ {skel : MessageSkeleton} {text : Option String}, Creates db db' skel text → ShowsNoMore db db' m := by
    intro skel text hcreate
    apply showsNoMore_of_view
    apply hcreate.others
    rintro rfl
    rw [hcreate.fresh] at hthere
    exact absurd hthere (by decide)
  cases call with
  | ingestMessages batch =>
      obtain rfl : _ = db' := hstep
      exact showsNoMore_of_view (view_ingestMessages hthere)
  | deleteConversation c =>
      obtain rfl : _ = db' := hstep
      have hview := db.view_deleteConversation c m
      rw [← deleteConversation_snd] at hview
      by_cases hin : db.inConversation c m.toText = true
      · intro skel hsearch
        rw [if_pos hin] at hview
        exact absurd (congrArg MessageView.fts hview) hsearch.indexed
      · rw [if_neg hin] at hview
        exact showsNoMore_of_view hview
  | message call =>
      have hcall : Call.Step F db call db' := hstep
      cases Call.did hcall with
      | nothing _ => exact showsNoMore_of_view rfl
      | ingested kind _ hcreate _ => exact hnew hcreate
      | sent _ hcreate _ => exact hnew hcreate
      | marked _ => exact showsNoMore_of_view rfl
      | sentMedia _ hcreate _ => exact hnew hcreate
      | @edited k newText ms skel _ hskel _ =>
          have hk : skel.messageId = k := Table.key_of_find? hskel
          apply showsNoMore_of_view
          apply view_editMessageInner_of_ne
          rintro rfl
          exact hedit newText ms (by rw [hk])
      | @deletedForMe k ms skel hskel _ =>
          have hk : skel.messageId = k := Table.key_of_find? hskel
          exact showsNoMore_of_deleted (hk ▸ hskel) rfl m
      | @deletedForEveryone k ms skel hskel _ =>
          have hk : skel.messageId = k := Table.key_of_find? hskel
          exact showsNoMore_of_deleted (hk ▸ hskel) rfl m

end ShardHistory

/-! ## A message that is named twice -/

section Example

variable {P : ShardPrimitives} {conversationHashKey : KeyMaterial} {keyForBucket : KeyForBucket}

/-- A sweep over a server that takes everything goes through when every bucket has its keys. -/
theorem uploadBuckets_isOk (hkeys : ∀ c bucket, ∃ ks, keyForBucket c bucket = .ok ks) (db : LocalStoreDb)
    (groups : List ((Uuid × String) × List Uuid)) {st : UploadState} (haccepts : st.server.Accepts) :
    ∃ receipts st', uploadBuckets P db conversationHashKey keyForBucket groups st = (.ok receipts, st') := by
  induction groups generalizing st with
  | nil => exact ⟨[], st, rfl⟩
  | cons group groups ih =>
      obtain ⟨⟨conv, bucket⟩, mids⟩ := group
      unfold uploadBuckets
      by_cases hempty : ((bucketRows db mids).1.isEmpty && (bucketRows db mids).2.isEmpty) = true
      · simp only [hempty, if_true]
        exact ih haccepts
      · obtain ⟨⟨kText, kFuzzy⟩, hk⟩ := hkeys conv.toText bucket
        obtain ⟨receipt, st₁, hup, haccepts₁, -⟩ :=
          @uploadSearchShards_of_accepts P conversationHashKey keyForBucket st haccepts (conv, bucket) _ _ hk (bucketRows db mids)
        obtain ⟨receipts, st₂, hrest⟩ := ih haccepts₁
        refine ⟨receipt :: receipts, st₂, ?_⟩
        simp only [hempty, hk, hup, hrest, Bool.false_eq_true, if_false]

/-- **A pass goes through** between calls, without a backup sink, when there is something to read. -/
theorem pass_isOk {keys : BackupKeys} {d : Device} {batch : ReadBatch} (hinv : CoreInv P.toPrimitives keys d.core)
    (hsink : d.core.backupSink = none) (hroom : nextGeneration d.core.backup.chainState.previousManifest ≤ u64Max)
    (hread : readBatch d.core.db = .ok (some batch)) (haccepts : d.server.Accepts)
    (hkeys : ∀ c bucket, ∃ ks, keyForBucket c bucket = .ok ks) (nowPersistMs : Int) :
    ∃ out d', runIncrementalBackupWithSearchShards P nowPersistMs conversationHashKey keyForBucket d = (.ok out, d') := by
  rcases hrun : runIncrementalBackupInner P.toPrimitives nowPersistMs d.core with ⟨r, c'⟩
  obtain ⟨tracked, sealed, c₂, ru, hi, hup, rfl⟩ := runIncrementalBackupInner_commits hinv hread hroom hrun
  have hnosink : c₂.backupSink = none := hi.committed.backupSink.trans hsink
  obtain rfl : ru = .ok (0, false) := by
    unfold uploadStep at hup
    simp only [hnosink] at hup
    exact (Prod.mk.inj hup).1.symm
  have hok : (runIncrementalBackupInner P.toPrimitives nowPersistMs d.core).1 =
      .ok (incrementalResult batch sealed (0, false)) := congrArg Prod.fst hrun
  unfold runIncrementalBackupWithSearchShards
  simp only [hok, incrementalResult]
  by_cases hidle : (bucketMap (sealedEventRefs batch.events)).isEmpty = true
  · simp only [hidle, Bool.true_or, if_true]
    exact ⟨_, _, rfl⟩
  · have haccepts' : UploadState.server ⟨d.server, (d.backedUp P.toPrimitives nowPersistMs).core.drawn⟩ |>.Accepts := haccepts
    obtain ⟨receipts, st, hgo⟩ : ∃ receipts st, uploadBuckets P d.store conversationHashKey keyForBucket
        (bucketMap (sealedEventRefs batch.events)) ⟨d.server, (d.backedUp P.toPrimitives nowPersistMs).core.drawn⟩ =
          (.ok receipts, st) := uploadBuckets_isOk hkeys d.store _ haccepts'
    have hgo' : uploadBuckets P (d.backedUp P.toPrimitives nowPersistMs).store conversationHashKey keyForBucket
        (bucketMap (sealedEventRefs batch.events))
        ⟨(d.backedUp P.toPrimitives nowPersistMs).server, (d.backedUp P.toPrimitives nowPersistMs).core.drawn⟩ =
          (.ok receipts, st) := hgo
    simp only [hidle, hgo', Bool.false_or, one_ne_zero, decide_false, Bool.false_eq_true, if_false]
    exact ⟨_, _, rfl⟩

end Example

/-- The journal of one received message. -/
def receivedOnce (payload : Bytes) : JournalTable :=
  JournalTable.empty.insert "message_received" (some (Uuid.toText ⟨1⟩)) (some (Uuid.toText ⟨2⟩)) payload 1002

theorem readBatch_receivedOnce (payload : Bytes) : readBatch { BackupDb.empty with journal := receivedOnce payload } =
    .ok (some ⟨[⟨.messageReceived, some ⟨1⟩, some ⟨2⟩, payload, 1002⟩], 1⟩) := rfl

/-- Then it is edited. -/
def editedOnce (payload payload' : Bytes) : JournalTable :=
  (receivedOnce payload).insert "message_edited" (some (Uuid.toText ⟨1⟩)) (some (Uuid.toText ⟨2⟩)) payload' 1003

theorem readBatch_editedOnce (payload payload' : Bytes) : readBatch { BackupDb.empty with journal := editedOnce payload payload' } =
    .ok (some ⟨[⟨.messageReceived, some ⟨1⟩, some ⟨2⟩, payload, 1002⟩, ⟨.messageEdited, some ⟨1⟩, some ⟨2⟩, payload', 1003⟩], 2⟩) := rfl

theorem journal_ingested {F : Platform} {db db' : LocalStoreDb} {msg : IngestedMessage} {receivedAtMs journaledAtMs : Int}
    (h : persistIngestedMessage F db msg receivedAtMs journaledAtMs = .ok db') :
    ∃ payload, db'.backupJournal = db.backupJournal.insert "message_received" (some msg.conversationId.toText)
      (some msg.messageId.toText) payload journaledAtMs := by
  obtain ⟨-, kind, hfree, hconv, db₂, db₃, -, hassets, htext, rfl⟩ := persistIngestedMessage_parts.mp h
  have hhang : HangsOff (msg.skeleton kind receivedAtMs).messageId _ db₂ := HangsOff.insertAssets hassets
  have hjournal := (filled_journals (filled_of_text hhang htext)).1
  refine ⟨skeletonPayload (msg.skeleton kind receivedAtMs), ?_⟩
  show db₃.backupJournal.insert _ _ _ _ _ = _
  rw [hjournal]
  rfl

/-- "alice" says "hi". -/
def hiArrives : CoreCall := .message (.persistIngestedMessage (aliceSays "hi") 1001 1002)

/-- She changes it to "ho". -/
def hiEdited : CoreCall := .message (.editMessage ⟨2⟩ "ho" 1003)

/-- The keys of every bucket. -/
def exampleBucketKeys : KeyForBucket := fun _ _ => .ok (leBytes 32 1, leBytes 32 2)

/-- A device on which nothing was backed up yet. -/
def unsealed (db : LocalStoreDb) : Device where
  store := db
  core := { Core.fresh exampleKeys none with db := { BackupDb.empty with journal := db.backupJournal } }
  server := ShardServer.empty
  journal := rfl

/-- **The first pass goes through** when there is something to read. -/
theorem firstPass_isOk {db : LocalStoreDb} {batch : ReadBatch}
    (hread : readBatch { BackupDb.empty with journal := db.backupJournal } = .ok (some batch)) : ∃ out d',
    runIncrementalBackupWithSearchShards .reference 2000 (leBytes 32 3) exampleBucketKeys (unsealed db) = (.ok out, d') := by
  have hfresh := coreInv_fresh Primitives.reference exampleKeys none
  have hinv : CoreInv Primitives.reference exampleKeys (unsealed db).core :=
    ⟨hfresh.keys_eq, hfresh.sealed, hfresh.ids_nodup, hfresh.ids_drawn, hfresh.tail_drawn,
      ⟨hfresh.hydrates.rows, hfresh.hydrates.tail⟩⟩
  refine pass_isOk hinv rfl ?_ hread (fun n => rfl) (fun c bucket => ⟨_, rfl⟩) 2000
  show 0 ≤ u64Max
  decide

/-- The steps of the example. -/
abbrev ExampleStep : ShardHistory → ShardCall → ShardHistory → Prop :=
  ShardHistory.Step .bare .reference (leBytes 32 3) exampleBucketKeys

theorem core_step {db db' : LocalStoreDb} {call : CoreCall} (h : CoreCall.Step .bare db call db') :
    ExampleStep ⟨unsealed db, []⟩ (.core call) ⟨unsealed db', []⟩ := by
  obtain rfl : _ = db' := h
  rfl

/-- What the two events of the message name in its bucket. -/
theorem nextNamed_example {db : LocalStoreDb} {payload payload' : Bytes} :
    (db.backupJournal = receivedOnce payload → nextNamed (unsealed db) (⟨1⟩, defaultTimeBucketForMs 1000) = [⟨2⟩]) ∧
      (db.backupJournal = editedOnce payload payload' →
        nextNamed (unsealed db) (⟨1⟩, defaultTimeBucketForMs 1000) = [⟨2⟩, ⟨2⟩]) := by
  have hreceived : defaultTimeBucketForMs 1002 = defaultTimeBucketForMs 1000 := by decide +kernel
  have hedited : defaultTimeBucketForMs 1003 = defaultTimeBucketForMs 1000 := by decide +kernel
  unfold nextNamed nextBatch unsealed
  constructor
  · intro hjournal
    simp only [hjournal, readBatch_receivedOnce]
    simp [namedIn, sealedEventRefs, BackupEvent.ids, SealedBackupEventRef.bucket, hreceived]
  · intro hjournal
    simp only [hjournal, readBatch_editedOnce]
    simp [namedIn, sealedEventRefs, BackupEvent.ids, SealedBackupEventRef.bucket, hreceived, hedited]

/-- The journal of the first message. -/
theorem hiArrives_step : ∃ db payload, CoreCall.Step .bare (.fresh oneConversation) hiArrives db ∧
    db.skeletons.find? ⟨2⟩ = some aliceSkeleton ∧ db.backupJournal = receivedOnce payload := by
  have htext : "hi".isEmpty = false := by decide
  obtain ⟨db, hok, hcreate, -⟩ := aliceSays_ingested htext
  obtain ⟨payload, hjournal⟩ := journal_ingested hok
  exact ⟨db, payload, step_persistIngestedMessage hok, hcreate.skeleton, hjournal⟩

/-- **One message and one pass**: the condition is met. -/
theorem shardsCover_hi : ∃ tr s, Run ExampleStep ⟨Device.fresh oneConversation exampleKeys none, []⟩ tr s ∧
    tr.map Prod.snd = [.core hiArrives, .backup 2000] ∧
    ShardHistory.ShardsCover .reference (leBytes 32 3) exampleBucketKeys s := by
  obtain ⟨db, payload, hstep, hskel, hjournal⟩ := hiArrives_step
  have hread : readBatch { BackupDb.empty with journal := db.backupJournal } =
      .ok (some ⟨[⟨.messageReceived, some ⟨1⟩, some ⟨2⟩, payload, 1002⟩], 1⟩) := by
    rw [hjournal]
    exact readBatch_receivedOnce payload
  obtain ⟨out, d', hpass⟩ := firstPass_isOk hread
  have harrive : ExampleStep ⟨Device.fresh oneConversation exampleKeys none, []⟩ (.core hiArrives) ⟨unsealed db, []⟩ :=
    core_step hstep
  have hbackup : ExampleStep ⟨unsealed db, []⟩ (.backup 2000) ⟨d', [] ++ nextBatch (unsealed db).core.db⟩ :=
    ⟨out, hpass, rfl⟩
  have hrun := (Run.single harrive).tail hbackup
  refine ⟨_, _, hrun, rfl, ShardHistory.shardsCover_of_run hrun ?_⟩
  intro p hp
  simp only [List.cons_append, List.nil_append, List.mem_cons, List.not_mem_nil, or_false] at hp
  rcases hp with rfl | rfl
  · rintro m ⟨ev, hev, -⟩
    exact absurd hev (by simp)
  · rintro m skel ⟨ev, hev, -, hid⟩ hsearch
    -- the only event is the receipt of the message
    have hbatch : nextBatch (unsealed db).core.db = [⟨.messageReceived, some ⟨1⟩, some ⟨2⟩, payload, 1002⟩] := by
      show nextBatch { BackupDb.empty with journal := db.backupJournal } = _
      rw [nextBatch, hread]
    simp only [hbatch, List.nil_append, List.mem_singleton] at hev
    subst hev
    obtain rfl : ⟨2⟩ = m := Option.some.inj hid
    obtain rfl : aliceSkeleton = skel := Option.some.inj (hskel.symm.trans hsearch.skeleton)
    have hnamed : nextNamed (unsealed db) (ownBucket aliceSkeleton) = [⟨2⟩] :=
      (@nextNamed_example db payload []).1 hjournal
    rw [hnamed]
    exact ⟨fun _ => by simp, fun _ => by simp, fun _ _ => by simp⟩

/-- The skeleton after the edit. -/
def editedSkeleton : MessageSkeleton := { aliceSkeleton with editedAtMs := some 1003 }

/-- The journal of the first message and its edit. -/
theorem hiEdited_step : ∃ db db' payload payload', CoreCall.Step .bare (.fresh oneConversation) hiArrives db ∧
    CoreCall.Step .bare db hiEdited db' ∧ db'.skeletons.find? ⟨2⟩ = some editedSkeleton ∧ (db'.view ⟨2⟩).fts ≠ [] ∧
    db'.backupJournal = editedOnce payload payload' := by
  obtain ⟨db, payload, hstep, hskel, hjournal⟩ := hiArrives_step
  refine ⟨db, editMessageInner .bare db aliceSkeleton "ho" 1003, payload, encodeEditEventPayload ⟨2⟩ 1003, hstep, ?_,
    editMessageInner_skeleton hskel, ?_, ?_⟩
  · show settle (editMessage .bare db ⟨2⟩ "ho" 1003) db = _
    rw [editMessage_eq_ok.mpr ⟨by decide, aliceSkeleton, hskel, rfl, rfl⟩, settle_ok]
  · have hrow : textRow aliceSkeleton (Uuid.toText ⟨2⟩) "ho" ∈ (editMessageInner .bare db aliceSkeleton "ho" 1003).fts :=
      List.mem_append_right _ List.mem_cons_self
    exact List.ne_nil_of_mem (List.mem_filter.mpr ⟨hrow, by simp [textRow]⟩)
  · show db.backupJournal.insert _ _ _ _ _ = _
    rw [hjournal]
    rfl

/-- **An edited message is in its shard twice**: both of its events name it. -/
theorem edited_message_twice : ∃ tr s, Run ExampleStep ⟨Device.fresh oneConversation exampleKeys none, []⟩ tr s ∧
    tr.map Prod.snd = [.core hiArrives, .core hiEdited, .backup 2000] ∧
    ¬ ShardHistory.ShardsCover .reference (leBytes 32 3) exampleBucketKeys s := by
  obtain ⟨db, db₂, payload, payload', hstep, hedit, hskel₂, hindexed, hjournal₂⟩ := hiEdited_step
  have hread : readBatch { BackupDb.empty with journal := db₂.backupJournal } = .ok (some ⟨[⟨.messageReceived, some ⟨1⟩,
      some ⟨2⟩, payload, 1002⟩, ⟨.messageEdited, some ⟨1⟩, some ⟨2⟩, payload', 1003⟩], 2⟩) := by
    rw [hjournal₂]
    exact readBatch_editedOnce _ _
  obtain ⟨out, d', hpass⟩ := firstPass_isOk hread
  have harrive : ExampleStep ⟨Device.fresh oneConversation exampleKeys none, []⟩ (.core hiArrives) ⟨unsealed db, []⟩ :=
    core_step hstep
  have hedited : ExampleStep ⟨unsealed db, []⟩ (.core hiEdited) ⟨unsealed db₂, []⟩ := core_step hedit
  have hbackup : ExampleStep ⟨unsealed db₂, []⟩ (.backup 2000) ⟨d', [] ++ nextBatch (unsealed db₂).core.db⟩ :=
    ⟨out, hpass, rfl⟩
  have hrun := ((Run.single harrive).tail hedited).tail hbackup
  refine ⟨_, _, hrun, rfl, fun hcovers => ?_⟩
  -- the receipt of the message is sealed, so its row should be covered
  have hsealed : ReceiptSealed ([] ++ nextBatch (unsealed db₂).core.db) ⟨2⟩ := by
    refine ⟨⟨.messageReceived, some ⟨1⟩, some ⟨2⟩, payload, 1002⟩, ?_, rfl, rfl⟩
    show _ ∈ nextBatch { BackupDb.empty with journal := db₂.backupJournal }
    rw [nextBatch, hread]
    exact List.mem_cons_self
  obtain ⟨hstore, -, hstored⟩ := storedRows_of_ok hpass fun n => rfl
  have hsearch : Searchable d'.store ⟨2⟩ editedSkeleton := by
    rw [hstore]
    exact ⟨hskel₂, rfl, hindexed⟩
  have htext := (hcovers ⟨2⟩ _ hsealed hsearch).text
  -- the receipt and the edit both name it
  have hnamed : nextNamed (unsealed db₂) (ownBucket editedSkeleton) = [⟨2⟩, ⟨2⟩] :=
    nextNamed_example.2 hjournal₂
  rw [hstored, hnamed] at htext
  have hnonempty : ¬ (bucketRows db₂ [⟨2⟩, ⟨2⟩]).1.isEmpty = true := by
    rw [bucketRows_text_isEmpty]
    exact fun h => hindexed (h ⟨2⟩ (by simp))
  have hrows : ∀ stored, (overlay (bucketRows db₂ [⟨2⟩, ⟨2⟩]) stored).1 = (bucketRows db₂ [⟨2⟩, ⟨2⟩]).1 :=
    fun stored => if_neg hnonempty
  have htwo : ((bucketRows db₂ [⟨2⟩, ⟨2⟩]).1.countP fun r => decide (r.messageId = Uuid.toText ⟨2⟩)) = 1 :=
    (congrArg (List.countP _) (hrows _)).symm.trans htext
  rw [countP_bucketRows hindexed] at htwo
  exact absurd htwo (by decide)

end KChatCore.Backup
