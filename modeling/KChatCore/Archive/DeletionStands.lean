import KChatCore.Archive.Rehydration

/-!
# `Archive.DeletionStands` — what a deleted message is safe from

An `Operation` is a call on the message layer or one of the rehydrations. Ingest, sends, edits and deletes leave a
deleted message alone, and so does the timeline. The two that write bodies do not look at the state of the message
they write to: `Revives` says when they hit a deleted one.

* `view_runPlan` — cold hydration as a plan of writes: what it does not write, it leaves alone.
* `view_step`, `view_run` — without a revival the view of a deleted message never changes again.
* `deletion_stands` — so the deletion stands.
-/

namespace KChatCore.Archive

open Lib LocalStore Message

/-! ## One body -/

section Bodies

variable {F : Platform} {db db' : LocalStoreDb}

/-- What a rehydrated body writes. -/
theorem rehydrateMessageBodyLocally_eq_ok {k : Uuid} {text : String} {newBodyState : BodyState}
    (h : rehydrateMessageBodyLocally F db k text newBodyState = .ok db') :
    ∃ skel hskel, db.skeletons.find? k = some skel ∧ db' = ((((((db.upsertMessageBody k text hskel).updateBodyState k
      newBodyState).deleteFtsRow k.toText).insertFtsRow ⟨k.toText, skel.conversationId, skel.senderId, skel.createdAtMs,
        text⟩).removeMessage k.toText).indexMessage F.toLowercase k.toText text) := by
  obtain ⟨db₁, hbody, h⟩ := except_bind_eq_ok.mp h
  have hbody := toStorage_eq_ok.mp hbody
  unfold LocalStoreDb.rehydrateMessageBody at hbody
  split at hbody
  · exact absurd hbody (by simp)
  · next skel hskel =>
      obtain rfl := Except.ok.inj hbody
      exact ⟨skel, by rw [Table.has, hskel, Option.isSome_some], hskel, (Except.ok.inj h).symm⟩

theorem view_upsertMessageBody {k m : Uuid} (hm : m ≠ k) (text : String) (hskel : db.skeletons.has k = true) :
    (db.upsertMessageBody k text hskel).view m = db.view m := by
  unfold LocalStoreDb.upsertMessageBody
  by_cases hfree : db.bodies.has k = false
  · rw [dif_pos hfree, LocalStoreDb.view_addBody, if_neg (Ne.symm hm)]
  · rw [dif_neg hfree, LocalStoreDb.view_updateMessageBodyText, if_neg (Ne.symm hm)]

theorem skeletons_upsertMessageBody {k : Uuid} (text : String) (hskel : db.skeletons.has k = true) :
    (db.upsertMessageBody k text hskel).skeletons = db.skeletons := by
  unfold LocalStoreDb.upsertMessageBody
  by_cases hfree : db.bodies.has k = false
  · rw [dif_pos hfree]
    rfl
  · rw [dif_neg hfree]
    rfl

/-- **A rehydrated body is its message's own business.** -/
theorem view_rehydrateMessageBodyLocally {k m : Uuid} {text : String} {newBodyState : BodyState}
    (h : rehydrateMessageBodyLocally F db k text newBodyState = .ok db') (hm : m ≠ k) : db'.view m = db.view m := by
  have hrow : k.toText ≠ m.toText := fun heq => hm (Uuid.toText_inj.mp heq).symm
  obtain ⟨skel, hskel, -, rfl⟩ := rehydrateMessageBodyLocally_eq_ok h
  unfold LocalStoreDb.updateBodyState
  rw [LocalStoreDb.view_indexMessage_of_ne hrow, LocalStoreDb.view_removeMessage, if_neg hrow,
    LocalStoreDb.view_insertFtsRow, if_neg hrow, LocalStoreDb.view_deleteFtsRow, if_neg hrow,
    LocalStoreDb.view_updateSkeleton, if_neg (Ne.symm hm), view_upsertMessageBody hm]

/-- It brings no message and drops none. -/
theorem has_rehydrateMessageBodyLocally {k : Uuid} {text : String} {newBodyState : BodyState}
    (h : rehydrateMessageBodyLocally F db k text newBodyState = .ok db') (m : Uuid) :
    db'.skeletons.has m = db.skeletons.has m := by
  obtain ⟨skel, hskel, -, rfl⟩ := rehydrateMessageBodyLocally_eq_ok h
  show (((db.upsertMessageBody k text hskel).updateBodyState k newBodyState).skeletons).has m = _
  unfold LocalStoreDb.updateBodyState LocalStoreDb.updateSkeleton
  rw [Table.has_update, skeletons_upsertMessageBody]

/-- It needs the message to be there. -/
theorem has_of_rehydrateMessageBodyLocally {k : Uuid} {text : String} {newBodyState : BodyState}
    (h : rehydrateMessageBodyLocally F db k text newBodyState = .ok db') : db.skeletons.has k = true := by
  obtain ⟨skel, hskel, -, -⟩ := rehydrateMessageBodyLocally_eq_ok h
  exact hskel

/-- The message has the state it was written with. -/
theorem skeleton_rehydrateMessageBodyLocally {k : Uuid} {text : String} {newBodyState : BodyState} {skel : MessageSkeleton}
    (h : rehydrateMessageBodyLocally F db k text newBodyState = .ok db') (hskel : db.skeletons.find? k = some skel) :
    db'.skeletons.find? k = some { skel with bodyState := newBodyState } := by
  obtain ⟨skel', hthere, -, rfl⟩ := rehydrateMessageBodyLocally_eq_ok h
  have hview := (db.upsertMessageBody k text hthere).view_updateSkeleton k
    (fun r => { r with bodyState := newBodyState }) (fun _ => rfl) (fun _ => rfl) k
  rw [if_pos rfl, skeletons_upsertMessageBody, hskel] at hview
  exact congrArg MessageView.skeleton hview

/-- A message that is there can be given a body. -/
theorem rehydrateMessageBodyLocally_isOk {k : Uuid} (text : String) (newBodyState : BodyState)
    (hskel : db.skeletons.has k = true) : ∃ db', rehydrateMessageBodyLocally F db k text newBodyState = .ok db' := by
  unfold rehydrateMessageBodyLocally LocalStoreDb.rehydrateMessageBody
  split
  · next hnone =>
      rw [Table.has, hnone] at hskel
      exact absurd hskel (by decide)
  · exact ⟨_, rfl⟩

end Bodies

/-! ## The timeline -/

section Timeline

variable {F : Platform} {db : LocalStoreDb} {conversationId : Uuid} {receivedAtMs : Int} {m : Uuid}

/-- An upsert leaves a row that is there. -/
theorem view_upsertSkeletonFromArchive {db' : LocalStoreDb} {stub : MessageSkeleton} {landed : Bool}
    (h : toStorage (db.upsertSkeletonFromArchive stub) = .ok (db', landed)) (hm : db.skeletons.has m = true) :
    db'.view m = db.view m := by
  have h := toStorage_eq_ok.mp h
  unfold LocalStoreDb.upsertSkeletonFromArchive at h
  by_cases hfree : db.skeletons.has stub.messageId = false
  · rw [dif_pos hfree] at h
    by_cases hconv : db.conversations.has stub.conversationId = true
    · rw [dif_pos hconv] at h
      obtain ⟨rfl, -⟩ := Prod.mk.inj (Except.ok.inj h)
      have hne : stub.messageId ≠ m := by
        intro heq
        rw [heq, hm] at hfree
        exact absurd hfree (by decide)
      rw [LocalStoreDb.view_addSkeleton, if_neg hne]
    · rw [dif_neg hconv] at h
      exact absurd h (by simp)
  · rw [dif_neg hfree] at h
    obtain ⟨rfl, -⟩ := Prod.mk.inj (Except.ok.inj h)
    rfl

/-- A view that has not changed still has its message. -/
theorem has_of_view {db' : LocalStoreDb} (hview : db'.view m = db.view m) (hm : db.skeletons.has m = true) :
    db'.skeletons.has m = true := by
  have hskel : db'.skeletons.find? m = db.skeletons.find? m := congrArg MessageView.skeleton hview
  rw [Table.has, hskel]
  exact hm

theorem view_rehydrateEvents (events : List ArchiveEvent) (inserted : List MessageSkeleton)
    (hm : db.skeletons.has m = true) :
    (rehydrateEvents conversationId receivedAtMs events inserted db).2.view m = db.view m := by
  induction events generalizing inserted db with
  | nil => rfl
  | cons event events ih =>
      unfold rehydrateEvents
      cases event.messageId with
      | none => exact ih inserted hm
      | some messageId =>
          by_cases hother : event.conversationId ≠ conversationId
          · simp only [if_pos hother]
            exact ih inserted hm
          · simp only [if_neg hother]
            cases hupsert : toStorage (db.upsertSkeletonFromArchive
                (stubSkeleton conversationId messageId event.createdAtMs receivedAtMs)) with
            | error e => rfl
            | ok result =>
                have hview := view_upsertSkeletonFromArchive hupsert hm
                exact (ih _ (has_of_view hview hm)).trans hview

theorem view_rehydrateSegments {keyForSegment : IdText → Except Error KeyMaterial} (segments : List PrefetchedSegment)
    (inserted : List MessageSkeleton) (hm : db.skeletons.has m = true) :
    (rehydrateSegments F keyForSegment conversationId receivedAtMs segments inserted db).2.view m = db.view m := by
  induction segments generalizing inserted db with
  | nil => rfl
  | cons segment segments ih =>
      unfold rehydrateSegments
      cases (keyForSegment segment.segmentId).bind (openArchiveSegment F.primitives segment.ciphertext) with
      | error e => rfl
      | ok events =>
          have hview : (rehydrateEvents conversationId receivedAtMs events inserted db).2.view m = db.view m :=
            view_rehydrateEvents events inserted hm
          rcases hresult : rehydrateEvents conversationId receivedAtMs events inserted db with ⟨result, db'⟩
          rw [hresult] at hview
          simp only [hresult]
          cases result with
          | error e => exact hview
          | ok inserted' => exact (ih inserted' (has_of_view hview hm)).trans hview

/-- **The timeline leaves the messages that are there alone.** -/
theorem view_rehydrateTimelineSkeletons {archive : ArchiveStore} {timeBucket : String}
    {keyForSegment : IdText → Except Error KeyMaterial} (hm : db.skeletons.has m = true) :
    (rehydrateTimelineSkeletonsWithRouter F archive conversationId timeBucket keyForSegment receivedAtMs db).2.view m =
      db.view m := by
  unfold rehydrateTimelineSkeletonsWithRouter
  cases batchPrefetchBucketWithRouter archive conversationId timeBucket with
  | error e => rfl
  | ok segments => exact view_rehydrateSegments segments [] hm

end Timeline

/-! ## Cold results, as a plan of writes -/

/-- A write of cold hydration: the message and its text. -/
abbrev ColdWrite := Uuid × String

/-- What a segment holds for a bucket's results: writes, or the error it ends the call with. -/
def segmentPlan (F : Platform) (keyForSegment : IdText → Except Error KeyMaterial) (conversationId : Uuid)
    (wanted : List Uuid) (segment : PrefetchedSegment) : List (Except Error ColdWrite) :=
  match (keyForSegment segment.segmentId).bind (openArchiveSegment F.primitives segment.ciphertext) with
  | .error e => [.error e]
  | .ok events => (events.filterMap (wantedText F conversationId wanted)).map .ok

/-- What a bucket holds for its results. -/
def bucketPlan (F : Platform) (archive : ArchiveStore) (keyForSegment : IdText → Except Error KeyMaterial)
    (bucket : (Uuid × String) × List Uuid) : List (Except Error ColdWrite) :=
  match batchPrefetchBucketWithRouter archive bucket.1.1 bucket.1.2 with
  | .error e => [.error e]
  | .ok segments => segments.flatMap (segmentPlan F keyForSegment bucket.1.1 bucket.2)

/-- **What the archive holds for these results**, in the order it is read. -/
def coldPlan (F : Platform) (archive : ArchiveStore) (results : List SearchResult)
    (keyForSegment : IdText → Except Error KeyMaterial) : List (Except Error ColdWrite) :=
  (coldBuckets results).flatMap (bucketPlan F archive keyForSegment)

/-- Write after write, until the plan or a write fails. -/
def runPlan (F : Platform) : List (Except Error ColdWrite) → Nat → LocalStoreDb → Except Error Nat × LocalStoreDb
  | [], hydrated, db => (.ok hydrated, db)
  | .error e :: _, _, db => (.error e, db)
  | .ok w :: plan, hydrated, db =>
      match rehydrateMessageBodyLocally F db w.1 w.2 .localPlainAvailable with
      | .error e => (.error e, db)
      | .ok db' => runPlan F plan (hydrated + 1) db'

section Plans

variable {F : Platform} {db : LocalStoreDb} {archive : ArchiveStore} {keyForSegment : IdText → Except Error KeyMaterial}
  {conversationId : Uuid} {wanted : List Uuid}

theorem runPlan_append (plan plan' : List (Except Error ColdWrite)) (hydrated : Nat) (db : LocalStoreDb) :
    runPlan F (plan ++ plan') hydrated db =
      match runPlan F plan hydrated db with
      | (.error e, db') => (.error e, db')
      | (.ok hydrated', db') => runPlan F plan' hydrated' db' := by
  induction plan generalizing hydrated db with
  | nil => rfl
  | cons item plan ih =>
      cases item with
      | error e => rfl
      | ok w =>
          simp only [List.cons_append, runPlan]
          cases rehydrateMessageBodyLocally F db w.1 w.2 .localPlainAvailable with
          | error e => rfl
          | ok db' => exact ih (hydrated + 1) db'

theorem hydrateEvents_eq (events : List ArchiveEvent) (hydrated : Nat) (db : LocalStoreDb) :
    hydrateEvents F conversationId wanted events hydrated db =
      runPlan F ((events.filterMap (wantedText F conversationId wanted)).map .ok) hydrated db := by
  induction events generalizing hydrated db with
  | nil => rfl
  | cons event events ih =>
      unfold hydrateEvents
      cases hwanted : wantedText F conversationId wanted event with
      | none => simp only [List.filterMap_cons_none hwanted, ih]
      | some w =>
          simp only [List.filterMap_cons_some hwanted, List.map_cons, runPlan]
          cases rehydrateMessageBodyLocally F db w.1 w.2 .localPlainAvailable with
          | error e => rfl
          | ok db' => exact ih (hydrated + 1) db'

theorem hydrateSegments_eq (segments : List PrefetchedSegment) (hydrated : Nat) (db : LocalStoreDb) :
    hydrateSegments F keyForSegment conversationId wanted segments hydrated db =
      runPlan F (segments.flatMap (segmentPlan F keyForSegment conversationId wanted)) hydrated db := by
  induction segments generalizing hydrated db with
  | nil => rfl
  | cons segment segments ih =>
      unfold hydrateSegments
      rw [List.flatMap_cons, runPlan_append, segmentPlan]
      cases (keyForSegment segment.segmentId).bind (openArchiveSegment F.primitives segment.ciphertext) with
      | error e => rfl
      | ok events =>
          dsimp only
          rw [hydrateEvents_eq]
          rcases runPlan F ((events.filterMap (wantedText F conversationId wanted)).map .ok) hydrated db with ⟨_ | _, _⟩
          · rfl
          · exact ih _ _

theorem hydrateBuckets_eq (buckets : List ((Uuid × String) × List Uuid)) (hydrated : Nat) (db : LocalStoreDb) :
    hydrateBuckets F archive keyForSegment buckets hydrated db =
      runPlan F (buckets.flatMap (bucketPlan F archive keyForSegment)) hydrated db := by
  induction buckets generalizing hydrated db with
  | nil => rfl
  | cons bucket buckets ih =>
      obtain ⟨⟨conversationId, timeBucket⟩, wanted⟩ := bucket
      unfold hydrateBuckets
      rw [List.flatMap_cons, runPlan_append, bucketPlan]
      cases batchPrefetchBucketWithRouter archive conversationId timeBucket with
      | error e => rfl
      | ok segments =>
          dsimp only
          rw [hydrateSegments_eq]
          rcases runPlan F (segments.flatMap (segmentPlan F keyForSegment conversationId wanted)) hydrated db with ⟨_ | _, _⟩
          · rfl
          · exact ih _ _

/-- **Cold hydration runs its plan.** -/
theorem hydrateColdSearchResults_eq (results : List SearchResult) :
    hydrateColdSearchResults F archive results keyForSegment db = runPlan F (coldPlan F archive results keyForSegment) 0 db :=
  hydrateBuckets_eq (coldBuckets results) 0 db

/-! What a plan performs. -/

/-- The writes before the plan's first error. -/
def planned : List (Except Error ColdWrite) → List ColdWrite
  | .ok w :: plan => w :: planned plan
  | _ => []

/-- **The writes a plan performs**: those before its first error and before the first message that is not there. -/
def performed (db : LocalStoreDb) (plan : List (Except Error ColdWrite)) : List ColdWrite :=
  (planned plan).takeWhile fun w => db.skeletons.has w.1

theorem performed_congr {db' : LocalStoreDb} (h : ∀ k, db'.skeletons.has k = db.skeletons.has k)
    (plan : List (Except Error ColdWrite)) : performed db' plan = performed db plan := by
  unfold performed
  simp only [h]

/-- **A plan leaves the messages it does not write to alone.** -/
theorem view_runPlan {m : Uuid} {plan : List (Except Error ColdWrite)} {hydrated : Nat}
    (hm : ∀ w ∈ performed db plan, w.1 ≠ m) : (runPlan F plan hydrated db).2.view m = db.view m := by
  induction plan generalizing hydrated db with
  | nil => rfl
  | cons item plan ih =>
      cases item with
      | error e => rfl
      | ok w =>
          unfold runPlan
          cases hwrite : rehydrateMessageBodyLocally F db w.1 w.2 .localPlainAvailable with
          | error e => rfl
          | ok db' =>
              have hhere : performed db (.ok w :: plan) = w :: performed db plan := by
                exact List.takeWhile_cons_of_pos (has_of_rehydrateMessageBodyLocally hwrite)
              rw [hhere] at hm
              have hrest : ∀ w' ∈ performed db' plan, w'.1 ≠ m := by
                rw [performed_congr (has_rehydrateMessageBodyLocally hwrite)]
                intro w' hw'
                exact hm w' (List.mem_cons_of_mem _ hw')
              have hne : m ≠ w.1 := (hm w List.mem_cons_self).symm
              exact (ih hrest).trans (view_rehydrateMessageBodyLocally hwrite hne)

end Plans

/-! ## Operations -/

/-- The operations on a store: calls of the message layer and rehydrations. -/
inductive Operation
  | ingestMessages (batch : List Arrival)
  | call (c : Call)
  | rehydrateTimelineSkeletons (archive : ArchiveStore) (conversationId : Uuid) (timeBucket : String)
      (keyForSegment : IdText → Except Error KeyMaterial) (receivedAtMs : Int)
  | hydrateColdSearchResults (archive : ArchiveStore) (results : List SearchResult)
      (keyForSegment : IdText → Except Error KeyMaterial)
  | rehydrateMessageBodyLocally (m : Uuid) (text : String) (newBodyState : BodyState)

namespace Operation

/-- The store an operation leaves. -/
def apply (F : Platform) (db : LocalStoreDb) : Operation → LocalStoreDb
  | ingestMessages batch => (Message.ingestMessages F batch db).2
  | call c => c.apply F db
  | rehydrateTimelineSkeletons archive conversationId timeBucket keyForSegment receivedAtMs =>
      (rehydrateTimelineSkeletonsWithRouter F archive conversationId timeBucket keyForSegment receivedAtMs db).2
  | hydrateColdSearchResults archive results keyForSegment =>
      (Archive.hydrateColdSearchResults F archive results keyForSegment db).2
  | rehydrateMessageBodyLocally m text newBodyState =>
      settle (Archive.rehydrateMessageBodyLocally F db m text newBodyState) db

/-- One operation as a step. -/
def Step (F : Platform) (db : LocalStoreDb) (op : Operation) (db' : LocalStoreDb) : Prop := op.apply F db = db'

/-- A rehydration that writes the body of a deleted message. -/
def Revives (F : Platform) (db : LocalStoreDb) : Operation → Prop
  | hydrateColdSearchResults archive results keyForSegment =>
      ∃ w ∈ performed db (coldPlan F archive results keyForSegment), db.isDeleted w.1 = true
  | rehydrateMessageBodyLocally m _ _ => db.isDeleted m = true
  | _ => False

end Operation

section Runs

variable {F : Platform} {db db' s t : LocalStoreDb} {op : Operation} {m : Uuid} {tr : List (LocalStoreDb × Operation)}

/-- A deleted message is there, and not in plain text. -/
theorem skeleton_of_isDeleted (h : db.isDeleted m = true) :
    ∃ skel, db.skeletons.find? m = some skel ∧ skel.bodyState ≠ .localPlainAvailable := by
  obtain ⟨state, hdeleted, skel, hskel, rfl⟩ := LocalStoreDb.isDeleted_iff.mp h
  refine ⟨skel, hskel, ?_⟩
  intro hplain
  rw [hplain] at hdeleted
  exact absurd hdeleted (by decide)

theorem has_of_isDeleted (h : db.isDeleted m = true) : db.skeletons.has m = true := by
  obtain ⟨skel, hskel, -⟩ := skeleton_of_isDeleted h
  rw [Table.has, hskel, Option.isSome_some]

/-- A call of the message layer leaves a deleted message alone. -/
theorem view_call {call : Call} (h : Call.Step F db call db') (hm : db.isDeleted m = true) : db'.view m = db.view m := by
  obtain ⟨skel, hskel, hstate⟩ := skeleton_of_isDeleted hm
  -- a new message has another id
  have hnew : ∀ {skel' text}, Creates db db' skel' text → db'.view m = db.view m := by
    intro skel' text hcreate
    apply hcreate.others
    intro heq
    have hfresh := hcreate.fresh
    rw [← heq, has_of_isDeleted hm] at hfresh
    exact absurd hfresh (by decide)
  -- a message in plain text is another one
  have hplain : ∀ {k skel'}, db.skeletons.find? k = some skel' → skel'.bodyState = .localPlainAvailable →
      m ≠ skel'.messageId := by
    intro k skel' hskel' hplain heq
    rw [heq, Table.key_of_find? hskel', hskel'] at hskel
    exact hstate (Option.some.inj hskel ▸ hplain)
  cases Call.did h with
  | nothing _ => rfl
  | ingested kind _ hcreate _ => exact hnew hcreate
  | sent _ hcreate _ => exact hnew hcreate
  | marked _ => rfl
  | sentMedia _ hcreate _ => exact hnew hcreate
  | edited _ hskel' hstate' => exact view_editMessageInner_of_ne (hplain hskel' hstate')
  | deletedForMe hskel' hstate' => exact view_deleteInnerTx_of_ne (hplain hskel' hstate')
  | deletedForEveryone hskel' hstate' => exact view_deleteInnerTx_of_ne (hplain hskel' hstate')

/-- **One operation leaves a deleted message alone**, unless it revives one. -/
theorem view_step (h : Operation.Step F db op db') (hno : ¬ op.Revives F db) (hm : db.isDeleted m = true) :
    db'.view m = db.view m := by
  unfold Operation.Step at h
  subst h
  cases op with
  | ingestMessages batch => exact view_ingestMessages (has_of_isDeleted hm)
  | call c => exact view_call rfl hm
  | rehydrateTimelineSkeletons archive conversationId timeBucket keyForSegment receivedAtMs =>
      exact view_rehydrateTimelineSkeletons (has_of_isDeleted hm)
  | hydrateColdSearchResults archive results keyForSegment =>
      show (hydrateColdSearchResults F archive results keyForSegment db).2.view m = db.view m
      rw [hydrateColdSearchResults_eq]
      apply view_runPlan
      intro w hw heq
      exact hno ⟨w, hw, heq ▸ hm⟩
  | rehydrateMessageBodyLocally k text newBodyState =>
      show (settle (rehydrateMessageBodyLocally F db k text newBodyState) db).view m = db.view m
      cases hwrite : rehydrateMessageBodyLocally F db k text newBodyState with
      | error e => rfl
      | ok db' =>
          apply view_rehydrateMessageBodyLocally hwrite
          intro heq
          exact hno (show db.isDeleted k = true from heq ▸ hm)

theorem isDeleted_of_view (hview : t.view m = s.view m) : t.isDeleted m = s.isDeleted m := by
  have hskel : t.skeletons.find? m = s.skeletons.find? m := congrArg MessageView.skeleton hview
  unfold LocalStoreDb.isDeleted
  rw [hskel]

/-- **Without a revival the view of a deleted message never changes.** -/
theorem view_run (hrun : Run (Operation.Step F) s tr t) (hno : ∀ p ∈ tr, ¬ p.2.Revives F p.1) (hm : s.isDeleted m = true) :
    t.view m = s.view m := by
  apply hrun.invariant_of_guarded (I := fun t => t.view m = s.view m) (G := fun t op => ¬ op.Revives F t)
  · intro t op t' hview hquiet hstep
    rw [view_step hstep hquiet ((isDeleted_of_view hview).trans hm), hview]
  · exact hno
  · rfl

/-- **What was deleted in `s` still stands in `t`**: the state, no new index row, and no body where there was none. -/
structure DeletionStands (s t : LocalStoreDb) : Prop where
  state : ∀ m state, s.deletedAs m state → t.deletedAs m state
  fts : ∀ m, s.isDeleted m = true → ∀ r ∈ t.fts, r.messageId = m.toText → r ∈ s.fts
  fuzzy : ∀ m, s.isDeleted m = true → ∀ r ∈ t.fuzzy.rows, r.messageId = m.toText → r ∈ s.fuzzy.rows
  vectors : ∀ m, s.isDeleted m = true → ∀ r ∈ t.vectors.rows, r.messageId = m.toText → r ∈ s.vectors.rows
  body : ∀ m, s.deletedAs m .deletedForEveryone → s.bodies.find? m = none → t.bodies.find? m = none

/-- **Deletion is terminal in every stretch of a run without a revival.** -/
theorem deletion_stands (hrun : Run (Operation.Step F) s tr t) (hno : ∀ p ∈ tr, ¬ p.2.Revives F p.1) :
    DeletionStands s t where
  state m state hm := by
    have hview := view_run hrun hno (LocalStoreDb.isDeleted_iff.mpr ⟨state, hm⟩)
    have hskel : t.skeletons.find? m = s.skeletons.find? m := congrArg MessageView.skeleton hview
    obtain ⟨hdeleted, skel, hthere, hstate⟩ := hm
    exact ⟨hdeleted, skel, hskel.trans hthere, hstate⟩
  fts m hm r hr hid := by
    have hrows := congrArg MessageView.fts (view_run hrun hno hm)
    have hin : r ∈ (t.view m).fts := List.mem_filter.mpr ⟨hr, decide_eq_true hid⟩
    rw [hrows] at hin
    exact List.mem_of_mem_filter hin
  fuzzy m hm r hr hid := by
    have hrows := congrArg MessageView.fuzzy (view_run hrun hno hm)
    have hin : r ∈ (t.view m).fuzzy := List.mem_filter.mpr ⟨hr, decide_eq_true hid⟩
    rw [hrows] at hin
    exact List.mem_of_mem_filter hin
  vectors m hm r hr hid := by
    have hrows := congrArg MessageView.vectors (view_run hrun hno hm)
    have hin : r ∈ (t.view m).vectors := List.mem_filter.mpr ⟨hr, decide_eq_true hid⟩
    rw [hrows] at hin
    exact List.mem_of_mem_filter hin
  body m hm hnone := by
    have hview := view_run hrun hno (LocalStoreDb.isDeleted_iff.mpr ⟨_, hm⟩)
    exact (congrArg MessageView.body hview).trans hnone

end Runs

/-! "hi" arrives, is deleted for everyone, and is found in the archive. -/

/-- A store after the two calls. -/
theorem hi_deleted : ∃ tr s, Run (Operation.Step .bare) (.fresh oneConversation) tr s ∧
    s.deletedAs ⟨2⟩ .deletedForEveryone ∧ s.bodies.find? ⟨2⟩ = none := by
  have htext : "hi".isEmpty = false := by decide
  obtain ⟨db, hok, hcreate, -⟩ := aliceSays_ingested htext
  have hskel : db.skeletons.find? aliceSkeleton.messageId = some aliceSkeleton := hcreate.skeleton
  have hdelete : deleteForEveryone db ⟨2⟩ 2000 = .ok (deleteInnerTx db aliceSkeleton .forEveryone 2000) :=
    deleteInner_eq_ok.mpr ⟨aliceSkeleton, hskel, rfl, rfl⟩
  have hview := view_deleteInnerTx .forEveryone 2000 hskel
  have hfirst : Operation.Step .bare (.fresh oneConversation)
      (.call (.persistIngestedMessage (aliceSays "hi") 1001 1002)) db := step_persistIngestedMessage hok
  have hsecond : Operation.Step .bare db (.call (.deleteForEveryone ⟨2⟩ 2000))
      (deleteInnerTx db aliceSkeleton .forEveryone 2000) := by
    show settle (deleteForEveryone db ⟨2⟩ 2000) db = _
    rw [hdelete, settle_ok]
  exact ⟨_, _, (Run.single hfirst).trans (Run.single hsecond), ⟨rfl, _, congrArg MessageView.skeleton hview, rfl⟩,
    congrArg MessageView.body hview⟩

theorem deletion_stands_edit : ∃ s t, s.deletedAs ⟨2⟩ .deletedForEveryone ∧ DeletionStands s t := by
  obtain ⟨-, s, -, hdeleted, -⟩ := hi_deleted
  have hstep : Operation.Step .bare s (.call (.editMessage ⟨2⟩ "ho" 3000)) _ := rfl
  exact ⟨s, _, hdeleted, deletion_stands (Run.single hstep) (by simp [Operation.Revives])⟩

/-- A cold search result for it. -/
def hiResult : SearchResult := ⟨⟨2⟩, ⟨1⟩, "alice", 1000, true⟩

/-- The bucket it lies in, with the event its arrival left in the archive journal. -/
def hiDelta : SegmentBuildRequest :=
  .messageDelta ⟨1⟩ (defaultTimeBucketForMs 1000) [receivedEvent .bare aliceSkeleton (some "hi")]

/-- Its plan: the text, written back. -/
theorem coldPlan_hiDelta {k : KeyMaterial} {built : BuiltSegment}
    (hbuilt : buildSegment Platform.bare.primitives hiDelta k 0 = .ok built) :
    coldPlan .bare (oneSegment (defaultTimeBucketForMs 1000) built) [hiResult] (fun _ => .ok k) = [.ok (⟨2⟩, "hi")] := by
  have hopen : openArchiveSegment Platform.bare.primitives built.blob k = .ok hiDelta.events := openArchiveSegment_blob hbuilt
  have hbuckets : coldBuckets [hiResult] = [((⟨1⟩, defaultTimeBucketForMs 1000), [⟨2⟩])] := by
    simp [coldBuckets, hiResult, SearchResult.bucket]
  have hwanted : wantedText .bare ⟨1⟩ [⟨2⟩] (receivedEvent .bare aliceSkeleton (some "hi")) = some (⟨2⟩, "hi") := by
    have hnonempty : ("hi".isEmpty) = false := by decide
    simp [wantedText, receivedEvent, aliceSkeleton, aliceSays, IngestedMessage.skeleton, hnonempty, Option.filter]
  have hfetch := batchPrefetch_oneSegment (defaultTimeBucketForMs 1000) built
  have hsegment : segmentPlan .bare (fun _ => .ok k) ⟨1⟩ [⟨2⟩] ⟨built.segmentId.toText, "blob", "kchat_backend", built.blob⟩ =
      [.ok (⟨2⟩, "hi")] := by
    have hevents : ((Except.ok k : Except Error KeyMaterial).bind
        (openArchiveSegment Platform.bare.primitives built.blob)) = .ok hiDelta.events := hopen
    simp only [segmentPlan, hevents, hiDelta, SegmentBuildRequest.messageDelta, List.filterMap_cons_some hwanted,
      List.filterMap_nil, List.map_cons, List.map_nil]
  simp only [coldPlan, hbuckets, List.flatMap_cons, List.flatMap_nil, bucketPlan, hfetch, hsegment, List.append_nil]

/-- **A message deleted for everyone comes back out of the archive**, through a cold search result. -/
theorem deleted_message_revived : ∃ tr s tr' t, Run (Operation.Step .bare) (.fresh oneConversation) tr s ∧
    Run (Operation.Step .bare) s tr' t ∧ ¬ DeletionStands s t := by
  obtain ⟨tr, s, hrun, hdeleted, -⟩ := hi_deleted
  obtain ⟨built, hbuilt⟩ : ∃ built, buildSegment Platform.bare.primitives hiDelta (leBytes 32 11) 0 = .ok built :=
    buildSegment_isOk (by simp [hiDelta, SegmentBuildRequest.messageDelta]) rfl
  have hstep : Operation.Step .bare s (.hydrateColdSearchResults (oneSegment (defaultTimeBucketForMs 1000) built) [hiResult] fun _ => .ok (leBytes 32 11))
      (hydrateColdSearchResults .bare (oneSegment (defaultTimeBucketForMs 1000) built) [hiResult] (fun _ => .ok (leBytes 32 11)) s).2 := rfl
  refine ⟨tr, s, _, _, hrun, Run.single hstep, ?_⟩
  intro hstands
  obtain ⟨-, skel, hskel, hstate⟩ := hdeleted
  have hthere : s.skeletons.has ⟨2⟩ = true := by rw [Table.has, hskel, Option.isSome_some]
  -- the writer checks that the message is there, and not that it lives
  obtain ⟨t, hwrite⟩ := rehydrateMessageBodyLocally_isOk (F := .bare) "hi" .localPlainAvailable hthere
  have ht : (hydrateColdSearchResults .bare (oneSegment (defaultTimeBucketForMs 1000) built) [hiResult] (fun _ => .ok (leBytes 32 11)) s).2 = t := by
    rw [hydrateColdSearchResults_eq, coldPlan_hiDelta hbuilt]
    simp only [runPlan, hwrite]
  have hplain := skeleton_rehydrateMessageBodyLocally hwrite hskel
  have hstill := hstands.state ⟨2⟩ .deletedForEveryone ⟨rfl, skel, hskel, hstate⟩
  rw [ht] at hstill
  obtain ⟨-, skel', hskel', hstate'⟩ := hstill
  rw [hplain] at hskel'
  rw [← Option.some.inj hskel'] at hstate'
  exact absurd hstate' (by simp)

end KChatCore.Archive
