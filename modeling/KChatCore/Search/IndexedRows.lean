import KChatCore.Archive.DeletionStands
import KChatCore.Message.IndexAgreement

/-!
# `Search.IndexedRows` — what a search can rely on

Whatever is done to a store, a row of the text index under the id of a message says of the message what its skeleton
says, and nothing is indexed under the id of a deleted message (`IndexedRows`). The rows of document pages are under ids
of their own, and say nothing of this kind.

The invariant is one of views: a step changes the view of one message, so each case has one view to look at.
-/

namespace KChatCore.Search

open Lib LocalStore Message Archive

/-- **The index rows under the id of a message**: text rows that say what the skeleton says, and none once it is
deleted. -/
structure IndexedView (m : Uuid) (v : MessageView) : Prop where
  text : ∀ r ∈ v.fts, ∃ skel, v.skeleton = some skel ∧ r = textRow skel m.toText r.textContent
  deleted : ∀ skel, v.skeleton = some skel → skel.bodyState.deleted = true → v.fts = [] ∧ v.fuzzy = [] ∧ v.vectors = []

/-- The same for every message. -/
def IndexedRows (db : LocalStoreDb) : Prop := ∀ m, IndexedView m (db.view m)

variable {F : Platform} {db db' : LocalStoreDb}

/-- A text row under the id of a message. -/
theorem IndexedRows.row (h : IndexedRows db) {r : FtsRow} (hr : r ∈ db.fts) {m : Uuid} (hid : r.messageId = m.toText) :
    ∃ skel, db.skeletons.find? m = some skel ∧ r = textRow skel m.toText r.textContent :=
  (h m).text r (List.mem_filter.mpr ⟨hr, decide_eq_true hid⟩)

/-- **A deleted message is not indexed.** -/
theorem IndexedRows.unindexed (h : IndexedRows db) {m : Uuid} (hm : db.isDeleted m = true) : db.unindexed m := by
  obtain ⟨state, hstate, skel, hskel, rfl⟩ := LocalStoreDb.isDeleted_iff.mp hm
  exact LocalStoreDb.unindexed_iff_view.mpr ((h m).deleted skel hskel hstate)

theorem indexedRows_fresh (conversations : Table Conversation.conversationId) : IndexedRows (.fresh conversations) := by
  intro m
  constructor
  · intro r hr
    exact absurd hr (by simp [LocalStoreDb.view, LocalStoreDb.fresh])
  · intro skel hskel
    exact absurd hskel (by simp [LocalStoreDb.fresh])

/-! ## What the writers keep -/

/-- **A statement about a store that every writer keeps**, the deletion of a conversation apart. -/
structure Upheld (F : Platform) (I : LocalStoreDb → Prop) : Prop where
  ingest : ∀ db msg receivedAtMs journaledAtMs db', I db →
    persistIngestedMessage F db msg receivedAtMs journaledAtMs = .ok db' → I db'
  arrival : ∀ db msg receivedAtMs journaledAtMs db', I db →
    persistIngestedMessage F db msg receivedAtMs journaledAtMs = .ok db' → I (maybeEmbedTextMessage F db' msg)
  outbox : ∀ db entry journaledAtMs db', I db → persistOutboxEntry F db entry journaledAtMs = .ok db' → I db'
  journal : ∀ db m journaledAtMs, I db → I (settle (markSent db m journaledAtMs) db)
  media : ∀ db send processed now db', I db → sendMedia F db send processed now = .ok db' → I db'
  edit : ∀ db (skel : MessageSkeleton) newText ms, I db → db.skeletons.find? skel.messageId = some skel →
    skel.bodyState = .localPlainAvailable → I (editMessageInner F db skel newText ms)
  delete : ∀ db (skel : MessageSkeleton) scope ms, I db → db.skeletons.find? skel.messageId = some skel →
    I (deleteInnerTx db skel scope ms)
  stub : ∀ db (skel : MessageSkeleton) landed db', I db → skel.bodyState.deleted = false →
    toStorage (db.upsertSkeletonFromArchive skel) = .ok (db', landed) → I db'
  body : ∀ db k text (state : BodyState) db', I db → state.deleted = false →
    rehydrateMessageBodyLocally F db k text state = .ok db' → I db'

namespace Upheld

variable {I : LocalStoreDb → Prop}

/-- A call of the message layer. -/
theorem call (H : Upheld F I) {call : Call} (h : I db) (hstep : Call.Step F db call db') : I db' := by
  -- a call that fails leaves the store
  have hdelete : ∀ m scope ms, I (settle (deleteInner db m scope ms) db) := by
    intro m scope ms
    cases hok : deleteInner db m scope ms with
    | error e => exact h
    | ok db' =>
        obtain ⟨skel, hskel, -, rfl⟩ := deleteInner_eq_ok.mp hok
        obtain rfl := Table.key_of_find? hskel
        exact H.delete db skel scope ms h hskel
  unfold Call.Step at hstep
  subst hstep
  cases call with
  | persistIngestedMessage msg receivedAtMs journaledAtMs =>
      show I (settle (persistIngestedMessage F db msg receivedAtMs journaledAtMs) db)
      cases hok : persistIngestedMessage F db msg receivedAtMs journaledAtMs with
      | error e => exact h
      | ok db' => exact H.ingest db msg receivedAtMs journaledAtMs db' h hok
  | persistOutboxEntry entry journaledAtMs =>
      show I (settle (persistOutboxEntry F db entry journaledAtMs) db)
      cases hok : persistOutboxEntry F db entry journaledAtMs with
      | error e => exact h
      | ok db' => exact H.outbox db entry journaledAtMs db' h hok
  | markSent m journaledAtMs => exact H.journal db m journaledAtMs h
  | sendMedia send processed now =>
      show I (settle (sendMedia F db send processed now) db)
      cases hok : sendMedia F db send processed now with
      | error e => exact h
      | ok db' => exact H.media db send processed now db' h hok
  | editMessage m newText editedAtMs =>
      show I (settle (editMessage F db m newText editedAtMs) db)
      cases hok : editMessage F db m newText editedAtMs with
      | error e => exact h
      | ok db' =>
          obtain ⟨-, skel, hskel, hstate, rfl⟩ := editMessage_eq_ok.mp hok
          obtain rfl := Table.key_of_find? hskel
          exact H.edit db skel newText editedAtMs h hskel hstate
  | deleteForMe m deletedAtMs => exact hdelete m .forMe deletedAtMs
  | deleteForEveryone m deletedAtMs => exact hdelete m .forEveryone deletedAtMs

/-- **A call of the core**, which drops a conversation only where that keeps the statement. -/
theorem coreCall (H : Upheld F I) {D : LocalStoreDb → Uuid → Prop} (hdrop : ∀ db c, I db → D db c → I (db.deleteConversation c).1)
    {call : CoreCall} (h : I db) (hstep : CoreCall.Step F db call db') (hmeets : call.Meets (fun _ _ => True) D db) :
    I db' := by
  refine CoreCall.step_preserves (G := fun _ _ => True) ?_ ?_ hdrop h hstep hmeets
  · intro db call db' h hstep _
    exact H.call h hstep
  · intro db msg receivedAtMs journaledAtMs db' h hok
    exact H.arrival db msg receivedAtMs journaledAtMs db' h hok

/-- The stubs of the events of a segment. -/
theorem rehydrateEvents (H : Upheld F I) {conversationId : Uuid} {receivedAtMs : Int} (events : List ArchiveEvent)
    (inserted : List MessageSkeleton) (h : I db) :
    I (Archive.rehydrateEvents conversationId receivedAtMs events inserted db).2 := by
  induction events generalizing inserted db with
  | nil => exact h
  | cons event events ih =>
      unfold Archive.rehydrateEvents
      cases event.messageId with
      | none => exact ih inserted h
      | some messageId =>
          by_cases hother : event.conversationId ≠ conversationId
          · simp only [if_pos hother]
            exact ih inserted h
          · simp only [if_neg hother]
            cases hupsert : toStorage (db.upsertSkeletonFromArchive
                (stubSkeleton conversationId messageId event.createdAtMs receivedAtMs)) with
            | error e => exact h
            | ok result => exact ih _ (H.stub db _ _ _ h rfl hupsert)

theorem rehydrateSegments (H : Upheld F I) {keyForSegment : IdText → Except Error KeyMaterial} {conversationId : Uuid}
    {receivedAtMs : Int} (segments : List PrefetchedSegment) (inserted : List MessageSkeleton) (h : I db) :
    I (Archive.rehydrateSegments F keyForSegment conversationId receivedAtMs segments inserted db).2 := by
  induction segments generalizing inserted db with
  | nil => exact h
  | cons segment segments ih =>
      unfold Archive.rehydrateSegments
      cases (keyForSegment segment.segmentId).bind (openArchiveSegment F.primitives segment.ciphertext) with
      | error e => exact h
      | ok events =>
          have hevents : I (Archive.rehydrateEvents conversationId receivedAtMs events inserted db).2 :=
            H.rehydrateEvents events inserted h
          rcases hresult : Archive.rehydrateEvents conversationId receivedAtMs events inserted db with ⟨result, db'⟩
          rw [hresult] at hevents
          simp only [hresult]
          cases result with
          | error e => exact hevents
          | ok inserted' => exact ih inserted' hevents

/-- The bodies of cold results. -/
theorem runPlan (H : Upheld F I) (plan : List (Except Error ColdWrite)) (hydrated : Nat) (h : I db) :
    I (Archive.runPlan F plan hydrated db).2 := by
  induction plan generalizing hydrated db with
  | nil => exact h
  | cons item plan ih =>
      cases item with
      | error e => exact h
      | ok w =>
          unfold Archive.runPlan
          cases hwrite : rehydrateMessageBodyLocally F db w.1 w.2 .localPlainAvailable with
          | error e => exact h
          | ok db' => exact ih _ (H.body db _ _ _ _ h rfl hwrite)

end Upheld

/-! ## One changed message -/

/-- What a change of one message has to show. -/
theorem IndexedRows.change (h : IndexedRows db) {k : Uuid} (hothers : ∀ m, m ≠ k → db'.view m = db.view m)
    (hk : IndexedView k (db'.view k)) : IndexedRows db' := by
  intro m
  by_cases hm : m = k
  · rw [hm]
    exact hk
  · rw [hothers m hm]
    exact h m

/-- A message that is there and not deleted, by its text rows. -/
theorem indexedView_of_live {k : Uuid} {skel : MessageSkeleton} (hskel : db'.skeletons.find? k = some skel)
    (hlive : skel.bodyState.deleted = false)
    (hrows : ∀ r ∈ db'.fts, r.messageId = k.toText → r = textRow skel k.toText r.textContent) :
    IndexedView k (db'.view k) where
  text r hr := by
    obtain ⟨hmem, hid⟩ := List.mem_filter.mp hr
    exact ⟨skel, hskel, hrows r hmem (of_decide_eq_true hid)⟩
  deleted skel' hskel' hdeleted := by
    obtain rfl := Option.some.inj (hskel.symm.trans hskel')
    exact absurd (hlive.symm.trans hdeleted) Bool.false_ne_true

/-- A message that is not there has no text row. -/
theorem IndexedRows.free (h : IndexedRows db) {k : Uuid} (hfree : db.skeletons.has k = false) {r : FtsRow} (hr : r ∈ db.fts) :
    r.messageId ≠ k.toText := by
  intro hid
  obtain ⟨skel, hskel, -⟩ := h.row hr hid
  rw [Table.has, hskel] at hfree
  exact absurd hfree (by simp)

/-- **A new message**, with the text rows it brings. -/
theorem IndexedRows.create (h : IndexedRows db) {skel : MessageSkeleton} {text : Option String}
    (hcreate : Creates db db' skel text) (hlive : skel.bodyState.deleted = false) {rows : List FtsRow}
    (hfts : db'.fts = db.fts ++ rows)
    (hrows : ∀ r ∈ rows, r.messageId = skel.messageId.toText → r = textRow skel skel.messageId.toText r.textContent) :
    IndexedRows db' := by
  apply h.change hcreate.others
  apply indexedView_of_live hcreate.skeleton hlive
  intro r hr hid
  rw [hfts] at hr
  rcases List.mem_append.mp hr with hold | hnew
  · exact absurd hid (h.free hcreate.fresh hold)
  · exact hrows r hnew hid

theorem indexedRows_ingest {msg : IngestedMessage} {receivedAtMs journaledAtMs : Int} (h : IndexedRows db)
    (hok : persistIngestedMessage F db msg receivedAtMs journaledAtMs = .ok db') : IndexedRows db' := by
  obtain ⟨-, kind, hkind, hcreate, -⟩ := persistIngestedMessage_eq_ok hok
  obtain ⟨-, kind', hfree, hconv, db₂, db₃, hkind', hassets, htext, rfl⟩ := persistIngestedMessage_parts.mp hok
  obtain rfl := Except.ok.inj (hkind.symm.trans hkind')
  obtain ⟨-, hfts⟩ := rowsOf_insertTextIfAny htext
  apply h.create hcreate rfl
  · show db₃.fts = _
    rw [hfts, (insertAssets_indexes hassets).1]
    rfl
  · intro r hr _
    obtain ⟨text, -, rfl⟩ := List.mem_map.mp hr
    rfl

theorem indexedRows_persistOutboxEntry {entry : OutboxEntry} {journaledAtMs : Int} (h : IndexedRows db)
    (hok : persistOutboxEntry F db entry journaledAtMs = .ok db') : IndexedRows db' := by
  obtain ⟨hcreate, -⟩ := persistOutboxEntry_eq_ok hok
  obtain ⟨hfree, hconv, db₂, htext, rfl⟩ := persistOutboxEntry_parts hok
  obtain ⟨-, hfts⟩ := rowsOf_insertTextIfAny htext
  apply h.create hcreate rfl hfts
  intro r hr _
  obtain ⟨text, -, rfl⟩ := List.mem_map.mp hr
  rfl

/-- An extracted row under the id of the message is the row of its text. -/
theorem eq_textRow_of_mem_extractedRows {skel : MessageSkeleton} {mimeType : String} {plaintext : Bytes} {row : FtsRow}
    (h : row ∈ extractedRows F skel mimeType plaintext) : row = textRow skel row.messageId row.textContent := by
  unfold extractedRows at h
  rcases List.mem_append.mp h with h | h
  · rcases List.mem_append.mp h with h | h
    · obtain ⟨text, -, rfl⟩ := List.mem_map.mp h
      rfl
    · obtain ⟨text, -, rfl⟩ := List.mem_map.mp h
      rfl
  · obtain ⟨page, -, rfl⟩ := List.mem_map.mp h
    rfl

/-- The text rows after a media message: its caption, and what was extracted. -/
theorem fts_sendMedia {send : MediaSend} {processed : Except Error MediaDescriptor} {now : Int}
    (hok : sendMedia F db send processed now = .ok db') :
    ∃ rows, (∀ r ∈ rows, r ∈ extractedRows F (send.skeleton now) send.mimeType send.plaintext) ∧
      db'.fts = db.fts ++ (send.caption.toList.map (textRow (send.skeleton now) send.messageId.toText) ++ rows) := by
  obtain ⟨descriptor, hfree, hconv, db₂, db₃, -, htext, hasset, rfl⟩ := sendMedia_parts hok
  obtain ⟨-, hfts⟩ := rowsOf_insertTextIfAny htext
  obtain ⟨hfree', hskel', rfl⟩ := LocalStoreDb.insertMediaAsset_eq_ok.mp hasset
  let stored := db₂.addAsset (send.asset descriptor) hfree' hskel'
  let P : FtsRow → Prop := fun row => row ∈ extractedRows F (send.skeleton now) send.mimeType send.plaintext
  have hclosure : RowClosure send.messageId P (RowsOf send.messageId P) :=
    RowsOf.closure fun row hrow => ownRow_of_mem_extractedRows hrow
  have hextract : RowsOf send.messageId P stored
      (extractMedia F stored (send.skeleton now) descriptor.assetId send.mimeType send.plaintext) :=
    hclosure.extractMedia rfl fun row hrow => hrow
  obtain ⟨rows, hrows, hfrom⟩ := hextract.fts
  have hall : (extractMedia F stored (send.skeleton now) descriptor.assetId send.mimeType send.plaintext).fts =
      db.fts ++ (send.caption.toList.map (textRow (send.skeleton now) send.messageId.toText) ++ rows) := by
    rw [hrows]
    show db₂.fts ++ rows = _
    rw [hfts, List.append_assoc]
    rfl
  exact ⟨rows, hfrom, hall⟩

theorem indexedRows_sendMedia {send : MediaSend} {processed : Except Error MediaDescriptor} {now : Int} (h : IndexedRows db)
    (hok : sendMedia F db send processed now = .ok db') : IndexedRows db' := by
  obtain ⟨hcreate, -⟩ := sendMedia_eq_ok hok
  obtain ⟨rows, hfrom, hall⟩ := fts_sendMedia hok
  refine h.create hcreate rfl hall fun r hr hid => ?_
  rcases List.mem_append.mp hr with hr | hr
  · obtain ⟨text, -, rfl⟩ := List.mem_map.mp hr
    rfl
  · have hrow := eq_textRow_of_mem_extractedRows (hfrom r hr)
    rw [hid] at hrow
    exact hrow

theorem indexedRows_edit {skel : MessageSkeleton} {newText : String} {ms : Int} (h : IndexedRows db)
    (hskel : db.skeletons.find? skel.messageId = some skel) (hstate : skel.bodyState = .localPlainAvailable) :
    IndexedRows (editMessageInner F db skel newText ms) := by
  apply h.change (k := skel.messageId) (fun m hm => view_editMessageInner_of_ne hm)
  apply indexedView_of_live (editMessageInner_skeleton hskel)
  · show skel.bodyState.deleted = false
    rw [hstate]
    rfl
  · intro r hr hid
    have hr : r ∈ (db.fts.filter fun r => r.messageId ≠ skel.messageId.toText) ++
        [textRow skel skel.messageId.toText newText] := hr
    rcases List.mem_append.mp hr with hold | hnew
    · exact absurd hid (of_decide_eq_true (List.mem_filter.mp hold).2)
    · rw [List.mem_singleton.mp hnew]
      rfl

theorem indexedRows_delete {skel : MessageSkeleton} {scope : DeleteScope} {ms : Int} (h : IndexedRows db)
    (hskel : db.skeletons.find? skel.messageId = some skel) : IndexedRows (deleteInnerTx db skel scope ms) := by
  apply h.change (k := skel.messageId) (fun m hm => view_deleteInnerTx_of_ne hm)
  rw [view_deleteInnerTx scope ms hskel]
  exact ⟨by simp, fun _ _ _ => ⟨rfl, rfl, rfl⟩⟩

/-! ## The other calls of the core -/

/-- The vector of a message that just arrived. -/
theorem indexedRows_embed {msg : IngestedMessage} {skel : MessageSkeleton} (h : IndexedRows db)
    (hskel : db.skeletons.find? msg.messageId = some skel) (hlive : skel.bodyState.deleted = false) :
    IndexedRows (maybeEmbedTextMessage F db msg) := by
  have hhang : HangsOff msg.messageId db (maybeEmbedTextMessage F db msg) := HangsOff.maybeEmbedTextMessage rfl
  have hrows : RowsOf msg.messageId (fun _ => False) db (maybeEmbedTextMessage F db msg) :=
    (RowsOf.closure fun _ h => h.elim).maybeEmbedTextMessage rfl
  obtain ⟨rows, hfts, hnone⟩ := hrows.fts
  rw [List.eq_nil_iff_forall_not_mem.mpr hnone, List.append_nil] at hfts
  apply h.change hhang.view
  apply indexedView_of_live (hhang.skeletons ▸ hskel) hlive
  intro r hr hid
  rw [hfts] at hr
  obtain ⟨skel', hskel', hrow⟩ := h.row hr hid
  obtain rfl := Option.some.inj (hskel.symm.trans hskel')
  exact hrow

theorem indexedRows_deleteConversation (h : IndexedRows db) (c : Uuid) : IndexedRows (db.deleteConversation c).1 := by
  intro m
  rw [db.view_deleteConversation]
  split_ifs
  · exact ⟨by simp, fun _ _ _ => ⟨rfl, rfl, rfl⟩⟩
  · exact h m

theorem indexedRows_arrival {msg : IngestedMessage} {receivedAtMs journaledAtMs : Int} (h : IndexedRows db)
    (hok : persistIngestedMessage F db msg receivedAtMs journaledAtMs = .ok db') :
    IndexedRows (maybeEmbedTextMessage F db' msg) := by
  obtain ⟨-, kind, -, hcreate, -⟩ := persistIngestedMessage_eq_ok hok
  exact indexedRows_embed (indexedRows_ingest h hok) hcreate.skeleton rfl

/-! ## Rehydration -/

/-- A stub for a message that is not there. -/
theorem indexedRows_upsert {stub : MessageSkeleton} {landed : Bool} (h : IndexedRows db)
    (hlive : stub.bodyState.deleted = false) (hok : toStorage (db.upsertSkeletonFromArchive stub) = .ok (db', landed)) :
    IndexedRows db' := by
  have hok := toStorage_eq_ok.mp hok
  unfold LocalStoreDb.upsertSkeletonFromArchive at hok
  split_ifs at hok with hfree hconv
  · obtain ⟨rfl, -⟩ := Prod.mk.inj (Except.ok.inj hok)
    apply h.change (k := stub.messageId)
    · intro m hm
      rw [LocalStoreDb.view_addSkeleton, if_neg (Ne.symm hm)]
    · apply indexedView_of_live (Table.find?_append_self db.skeletons stub hfree) hlive
      intro r hr hid
      exact absurd hid (h.free hfree hr)
  · obtain ⟨rfl, -⟩ := Prod.mk.inj (Except.ok.inj hok)
    exact h

/-- A body that comes back, with the row of its text. -/
theorem indexedRows_rehydrateBody {k : Uuid} {text : String} {newBodyState : BodyState} (h : IndexedRows db)
    (hlive : newBodyState.deleted = false) (hok : rehydrateMessageBodyLocally F db k text newBodyState = .ok db') :
    IndexedRows db' := by
  apply h.change fun m hm => view_rehydrateMessageBodyLocally hok hm
  obtain ⟨skel, hthere, hskel, hdb⟩ := rehydrateMessageBodyLocally_eq_ok hok
  apply indexedView_of_live (skeleton_rehydrateMessageBodyLocally hok hskel) hlive
  have hfts : db'.fts = (db.upsertMessageBody k text hthere).fts.filter (fun r => r.messageId ≠ k.toText) ++
      [textRow skel k.toText text] := by
    rw [hdb]
    rfl
  intro r hr hid
  rw [hfts] at hr
  rcases List.mem_append.mp hr with hold | hnew
  · exact absurd hid (of_decide_eq_true (List.mem_filter.mp hold).2)
  · rw [List.mem_singleton.mp hnew]
    rfl

/-! ## Histories -/

/-- What is done to a store: calls of the core, and rehydrations. -/
inductive StoreCall
  | core (call : CoreCall)
  | archive (op : Operation)

namespace StoreCall

/-- The store a call leaves. -/
def apply (F : Platform) (db : LocalStoreDb) : StoreCall → LocalStoreDb
  | core call => call.apply F db
  | archive op => op.apply F db

/-- One call as a step. -/
def Step (F : Platform) (db : LocalStoreDb) (call : StoreCall) (db' : LocalStoreDb) : Prop := call.apply F db = db'

/-- A body is brought back in a state that has one: the callers of `rehydrate_message_body_locally` pass no other. -/
def Restores : StoreCall → Prop
  | archive (.rehydrateMessageBodyLocally _ _ newBodyState) => newBodyState.deleted = false
  | _ => True

end StoreCall

/-- **A history of a store.** -/
abbrev StoreHistory (F : Platform) (db : LocalStoreDb) (tr : List (LocalStoreDb × StoreCall)) (db' : LocalStoreDb) : Prop :=
  Run (StoreCall.Step F) db tr db'

/-- **One call**, which drops a conversation only where that keeps the statement. -/
theorem Upheld.step {I : LocalStoreDb → Prop} (H : Upheld F I) {D : LocalStoreDb → Uuid → Prop}
    (hdrop : ∀ db c, I db → D db c → I (db.deleteConversation c).1) {call : StoreCall} (h : I db)
    (hrestores : call.Restores) (hmeets : ∀ c, call = .core (.deleteConversation c) → D db c)
    (hstep : StoreCall.Step F db call db') : I db' := by
  unfold StoreCall.Step at hstep
  subst hstep
  cases call with
  | core call =>
      apply H.coreCall hdrop h (rfl : CoreCall.Step F db call _)
      cases call with
      | ingestMessages batch => exact trivial
      | message c => exact trivial
      | deleteConversation c => exact hmeets c rfl
  | archive op =>
      cases op with
      | ingestMessages batch => exact H.coreCall hdrop h (rfl : CoreCall.Step F db (.ingestMessages batch) _) trivial
      | call c => exact H.call h rfl
      | rehydrateTimelineSkeletons archive conversationId timeBucket keyForSegment receivedAtMs =>
          show I (rehydrateTimelineSkeletonsWithRouter F archive conversationId timeBucket keyForSegment receivedAtMs db).2
          unfold rehydrateTimelineSkeletonsWithRouter
          cases batchPrefetchBucketWithRouter archive conversationId timeBucket with
          | error e => exact h
          | ok segments => exact H.rehydrateSegments segments [] h
      | hydrateColdSearchResults archive results keyForSegment =>
          show I (hydrateColdSearchResults F archive results keyForSegment db).2
          rw [hydrateColdSearchResults_eq]
          exact H.runPlan _ 0 h
      | rehydrateMessageBodyLocally m text newBodyState =>
          show I (settle (rehydrateMessageBodyLocally F db m text newBodyState) db)
          cases hok : rehydrateMessageBodyLocally F db m text newBodyState with
          | error e => exact h
          | ok db' => exact H.body db m text newBodyState db' h hrestores hok

/-- **Every writer keeps the index rows in order.** -/
theorem upheld_indexedRows (F : Platform) : Upheld F IndexedRows where
  ingest _ _ _ _ _ h hok := indexedRows_ingest h hok
  arrival _ _ _ _ _ h hok := indexedRows_arrival h hok
  outbox _ _ _ _ h hok := indexedRows_persistOutboxEntry h hok
  journal db m _ h := by
    unfold markSent
    cases db.getMessageSkeleton m with
    | none => exact h
    | some skel => exact h
  media _ _ _ _ _ h hok := indexedRows_sendMedia h hok
  edit _ _ _ _ h hskel hstate := indexedRows_edit h hskel hstate
  delete _ _ _ _ h hskel := indexedRows_delete h hskel
  stub _ _ _ _ h hlive hok := indexedRows_upsert h hlive hok
  body _ _ _ _ _ h hlive hok := indexedRows_rehydrateBody h hlive hok

/-- **In every history the index rows are in order.** -/
theorem indexedRows_history {conversations : Table Conversation.conversationId} {tr : List (LocalStoreDb × StoreCall)}
    (hrun : StoreHistory F (.fresh conversations) tr db) (hrestores : ∀ p ∈ tr, p.2.Restores) : IndexedRows db := by
  refine hrun.invariant_of_guarded (G := fun _ call => call.Restores) ?_ hrestores (indexedRows_fresh conversations)
  intro db call db' h hrestores hstep
  exact (upheld_indexedRows F).step (D := fun _ _ => True) (fun _ c h _ => indexedRows_deleteConversation h c) h hrestores
    (fun _ _ => trivial) hstep

/-- **In every history of the core**, too. -/
theorem indexedRows_coreHistory {conversations : Table Conversation.conversationId} {tr : List (LocalStoreDb × CoreCall)}
    (hrun : CoreHistory F (.fresh conversations) tr db) : IndexedRows db := by
  refine hrun.invariant ?_ (indexedRows_fresh conversations)
  intro db call db' h hstep
  refine (upheld_indexedRows F).coreCall (D := fun _ _ => True) (fun _ c h _ => indexedRows_deleteConversation h c) h hstep ?_
  cases call <;> exact trivial

end KChatCore.Search
