import KChatCore.Message.Calls

/-!
# `Message.Deletion` — what a delete for everyone erases

`delete_for_everyone` is guarded by the body's state diagram, which lists `deleted_for_everyone` after
`local_plain_available` only. Where the guard lets it through, the body and the index rows under the message's id are
gone and both journals have the event; where it does not, nothing is written.
-/

namespace KChatCore.Message

open Lib LocalStore

/-- No text of the message under its own id. -/
structure Erased (db : LocalStoreDb) (m : Uuid) : Prop where
  body : db.bodies.find? m = none
  unindexed : db.unindexed m

/-- Both journals have the deletion of the message. -/
structure DeletionJournaled (db : LocalStoreDb) (m : Uuid) : Prop where
  backup : ∃ e ∈ db.backupJournal.typedEvents, e.eventType = .messageDeleted ∧ e.messageId = some m
  archive : ∃ e ∈ db.archiveJournal, e.eventType = .messageDeleted ∧ e.messageId = some m

variable {db : LocalStoreDb} {m : Uuid}

/-- The view of a message that was deleted for everyone has no text in it. -/
theorem erased_deleteInnerTx {skel : MessageSkeleton} {ms : Int} (hskel : db.skeletons.find? skel.messageId = some skel) :
    Erased (deleteInnerTx db skel .forEveryone ms) skel.messageId := by
  have hview := view_deleteInnerTx .forEveryone ms hskel
  constructor
  · exact congrArg MessageView.body hview
  · apply LocalStoreDb.unindexed_iff_view.mpr
    rw [hview]
    exact ⟨rfl, rfl, rfl⟩

theorem deletionJournaled_deleteInnerTx {skel : MessageSkeleton} {scope : DeleteScope} {ms : Int} :
    DeletionJournaled (deleteInnerTx db skel scope ms) skel.messageId where
  backup := by
    rw [deleteInnerTx_journals.backup]
    exact ⟨_, List.mem_append_right _ List.mem_cons_self, rfl, rfl⟩
  archive := by
    rw [deleteInnerTx_journals.archive]
    exact ⟨_, List.mem_append_right _ List.mem_cons_self, rfl, rfl⟩

/-- **A message that is there is deleted for everyone exactly when its body is there in plain text**; then it is
erased and journaled, and otherwise the store is as it was. -/
theorem deleteForEveryone_complete (F : Platform) {skel : MessageSkeleton} (deletedAtMs : Int)
    (hskel : db.skeletons.find? m = some skel) :
    ((∃ db', deleteForEveryone db m deletedAtMs = .ok db') ↔ skel.bodyState = .localPlainAvailable) ∧
    (∀ db', deleteForEveryone db m deletedAtMs = .ok db' → Erased db' m ∧ DeletionJournaled db' m) ∧
    (∀ e, deleteForEveryone db m deletedAtMs = .error e → (Call.deleteForEveryone m deletedAtMs).apply F db = db) := by
  refine ⟨⟨?_, ?_⟩, ?_, ?_⟩
  · rintro ⟨db', hok⟩
    obtain ⟨skel', hskel', hstate, -⟩ := deleteInner_eq_ok.mp hok
    obtain rfl := Option.some.inj (hskel.symm.trans hskel')
    exact hstate
  · intro hstate
    exact ⟨_, deleteInner_eq_ok.mpr ⟨skel, hskel, hstate, rfl⟩⟩
  · intro db' hok
    obtain ⟨skel', hskel', -, rfl⟩ := deleteInner_eq_ok.mp hok
    obtain rfl := Table.key_of_find? hskel'
    exact ⟨erased_deleteInnerTx hskel', deletionJournaled_deleteInnerTx⟩
  · intro e herror
    show settle (deleteForEveryone db m deletedAtMs) db = db
    rw [herror]
    rfl

/-! "hi" arrives, and is deleted. -/

theorem deleteForEveryone_hi : ∃ db skel, db.skeletons.find? ⟨2⟩ = some skel ∧
    (((∃ db', deleteForEveryone db ⟨2⟩ 2000 = .ok db') ↔ skel.bodyState = .localPlainAvailable) ∧
    (∀ db', deleteForEveryone db ⟨2⟩ 2000 = .ok db' → Erased db' ⟨2⟩ ∧ DeletionJournaled db' ⟨2⟩) ∧
    (∀ e, deleteForEveryone db ⟨2⟩ 2000 = .error e → (Call.deleteForEveryone ⟨2⟩ 2000).apply .bare db = db)) := by
  have htext : "hi".isEmpty = false := by decide
  obtain ⟨db, -, hcreate, -⟩ := aliceSays_ingested htext
  exact ⟨db, aliceSkeleton, hcreate.skeleton, deleteForEveryone_complete .bare 2000 hcreate.skeleton⟩

/-- **A message deleted for me can no longer be deleted for everyone**, and its text is still there. -/
theorem deleted_for_me_keeps_text : ∃ tr db, History .bare (.fresh oneConversation) tr db ∧
    db.deletedAs ⟨2⟩ .deletedForMe ∧ db.bodies.find? ⟨2⟩ = some ⟨⟨2⟩, some "hi", none, none⟩ ∧
    ∃ e, deleteForEveryone db ⟨2⟩ 3000 = .error e := by
  have htext : "hi".isEmpty = false := by decide
  obtain ⟨db, hok, hcreate, -⟩ := aliceSays_ingested htext
  have hskel : db.skeletons.find? aliceSkeleton.messageId = some aliceSkeleton := hcreate.skeleton
  have hdelete : deleteForMe db ⟨2⟩ 2000 = .ok (deleteInnerTx db aliceSkeleton .forMe 2000) :=
    deleteInner_eq_ok.mpr ⟨aliceSkeleton, hskel, rfl, rfl⟩
  have hview := view_deleteInnerTx .forMe 2000 hskel
  have htombstone := congrArg MessageView.skeleton hview
  refine ⟨_, _, (Run.single (step_persistIngestedMessage hok)).trans (Run.single (step_deleteForMe .bare hdelete)),
    ⟨rfl, _, htombstone, rfl⟩, ?_, ?_⟩
  · exact (congrArg MessageView.body hview).trans hcreate.body
  · -- a message that is deleted for me is past the only state that the call takes
    cases hresult : deleteForEveryone (deleteInnerTx db aliceSkeleton .forMe 2000) ⟨2⟩ 3000 with
    | error e => exact ⟨e, rfl⟩
    | ok db' =>
        obtain ⟨skel, hskel', hstate, -⟩ := deleteInner_eq_ok.mp hresult
        obtain rfl := Option.some.inj (htombstone.symm.trans hskel')
        exact absurd hstate (by decide)

end KChatCore.Message
