import KChatCore.Archive.Compaction
import KChatCore.Backup.Compaction
import KChatCore.Message.Core

/-!
# `Message.ConversationDeletion` — what the journals know of a deleted conversation

`delete_conversation` erases the rows of a conversation and journals nothing: both tombstone filters have a case for
`conversation_deleted`, and no call ever writes one. What the filters drop of a deleted conversation is what the
deletions of its single messages cover.

`Recorded` ties the journals to the messages of the registered conversations.
-/

namespace KChatCore.Message

open Lib LocalStore Backup Archive

/-! ## One message and its events -/

/-- Neither a message nor a journal changed. -/
structure SameRecords (db db' : LocalStoreDb) : Prop where
  conversations : ∀ c, db'.conversations.has c = db.conversations.has c
  skeletons : ∀ m, db'.skeletons.find? m = db.skeletons.find? m
  archive : db'.archiveJournal = db.archiveJournal
  backup : db'.backupJournal.typedEvents = db.backupJournal.typedEvents

/-- **One message changed**: it is created, edited or deleted, and both journals grow by events that name it. -/
structure Touches (db db' : LocalStoreDb) (skel : MessageSkeleton) (archived : List ArchiveEvent) (typed : List BackupEvent) :
    Prop where
  registered : db.conversations.has skel.conversationId = true
  conversations : ∀ c, db'.conversations.has c = db.conversations.has c
  others : ∀ m, m ≠ skel.messageId → db'.skeletons.find? m = db.skeletons.find? m
  skeleton : db'.skeletons.find? skel.messageId = some skel
  before : ∀ old, db.skeletons.find? skel.messageId = some old →
    old.conversationId = skel.conversationId ∧ old.bodyState.deleted = false
  archive : db'.archiveJournal = db.archiveJournal ++ archived
  backup : db'.backupJournal.typedEvents = db.backupJournal.typedEvents ++ typed
  archivedOf : ∀ e ∈ archived, e.conversationId = skel.conversationId ∧ e.messageId = some skel.messageId
  typedOf : ∀ e ∈ typed, e.conversationId = some skel.conversationId ∧ e.messageId = some skel.messageId
  content : skel.bodyState.deleted = false → archived ≠ [] ∧ (∀ e ∈ archived, e.eventType.isTombstone = false) ∧
    ∀ e ∈ typed, e.eventType.isMessageContent = true
  tombstones : skel.bodyState.deleted = true → db.skeletons.has skel.messageId = true ∧
    (∃ e ∈ archived, e.eventType = .messageDeleted) ∧ (∀ e ∈ archived, e.eventType = .messageDeleted) ∧
    (∃ e ∈ typed, e.eventType = .messageDeleted) ∧ ∀ e ∈ typed, e.eventType = .messageDeleted ∨ e.eventType = .mediaDeleted

section Step

variable {F : Platform} {db db' : LocalStoreDb} {call : Call}

/-- A message that is created touches nothing else. -/
theorem Creates.touches {skel : MessageSkeleton} {text : Option String} {archived : ArchiveEvent} {typed : List BackupEvent}
    (hcreate : Creates db db' skel text) (hjournals : Journals db db' typed [archived])
    (hlive : skel.bodyState.deleted = false)
    (harchived : archived.conversationId = skel.conversationId ∧ archived.messageId = some skel.messageId ∧
      archived.eventType.isTombstone = false)
    (htyped : ∀ e ∈ typed, e.conversationId = some skel.conversationId ∧ e.messageId = some skel.messageId ∧
      e.eventType.isMessageContent = true) :
    Touches db db' skel [archived] typed where
  registered := hcreate.registered
  conversations := hcreate.conversations
  others m hm := congrArg MessageView.skeleton (hcreate.others m hm)
  skeleton := hcreate.skeleton
  before old hold := by
    have hfresh := hcreate.fresh
    rw [Table.has, hold] at hfresh
    exact absurd hfresh (by simp)
  archive := hjournals.archive
  backup := hjournals.backup
  archivedOf e he := by
    rw [List.mem_singleton.mp he]
    exact ⟨harchived.1, harchived.2.1⟩
  typedOf e he := ⟨(htyped e he).1, (htyped e he).2.1⟩
  content _ := by
    refine ⟨by simp, ?_, fun e he => (htyped e he).2.2⟩
    intro e he
    rw [List.mem_singleton.mp he]
    exact harchived.2.2
  tombstones hdeleted := by
    rw [hlive] at hdeleted
    exact absurd hdeleted (by decide)

/-- The conversation of a message is registered. -/
theorem registered_of_skeleton {m : Uuid} {skel : MessageSkeleton} (hskel : db.skeletons.find? m = some skel) :
    db.conversations.has skel.conversationId = true :=
  Table.has_iff.mpr (db.skeletonRefers skel (Table.mem_of_find? hskel))

/-- A delete touches the message it deletes. -/
theorem touches_deleteInnerTx {skel : MessageSkeleton} (scope : DeleteScope) (ms : Int)
    (hskel : db.skeletons.find? skel.messageId = some skel) (hstate : skel.bodyState = .localPlainAvailable) :
    ∃ archived typed, Touches db (deleteInnerTx db skel scope ms)
      { skel with bodyState := scope.target, deletedAtMs := some ms } archived typed := by
  have htarget : scope.target.deleted = true := by cases scope <;> rfl
  have hregistered := registered_of_skeleton hskel
  refine ⟨_, _, hregistered, ?_, ?_, ?_, ?_, deleteInnerTx_journals.archive,
    deleteInnerTx_journals.backup, ?_, ?_, ?_, ?_⟩
  · intro c
    obtain ⟨journal, archive, heq⟩ := deleteInnerTx_eq db skel scope ms
    rw [heq]
    cases scope <;> rfl
  · intro m hm
    exact congrArg MessageView.skeleton (view_deleteInnerTx_of_ne hm)
  · exact congrArg MessageView.skeleton (view_deleteInnerTx scope ms hskel)
  · intro old hold
    obtain rfl := Option.some.inj (hskel.symm.trans hold)
    exact ⟨rfl, by rw [hstate]; rfl⟩
  · intro e he
    rw [List.mem_singleton.mp he]
    exact ⟨rfl, rfl⟩
  · intro e he
    rcases List.mem_cons.mp he with rfl | he
    · exact ⟨rfl, rfl⟩
    · -- a delete journals one event for each asset, too
      obtain ⟨asset, -, rfl⟩ := List.mem_map.mp he
      exact ⟨rfl, rfl⟩
  · intro hlive
    exact absurd (hlive.symm.trans htarget) (by decide)
  · intro _
    refine ⟨Table.has_iff.mpr ⟨skel, Table.mem_of_find? hskel, rfl⟩, ⟨_, List.mem_cons_self, rfl⟩, ?_,
      ⟨_, List.mem_cons_self, rfl⟩, ?_⟩
    · intro e he
      rw [List.mem_singleton.mp he]
    · intro e he
      rcases List.mem_cons.mp he with rfl | he
      · exact .inl rfl
      · obtain ⟨asset, -, rfl⟩ := List.mem_map.mp he
        exact .inr rfl

/-- **A call touches one message, or nothing the journals are about.** -/
theorem Call.touches (h : Call.Step F db call db') :
    SameRecords db db' ∨ ∃ skel archived typed, Touches db db' skel archived typed := by
  cases Call.did h with
  | nothing _ => exact .inl ⟨fun _ => rfl, fun _ => rfl, rfl, rfl⟩
  | @ingested msg _ _ _ kind _ hcreate hjournals =>
      refine .inr ⟨_, _, _, hcreate.touches hjournals rfl ⟨rfl, rfl, rfl⟩ ?_⟩
      intro e he
      rw [List.mem_singleton.mp he]
      exact ⟨rfl, rfl, rfl⟩
  | sent _ hcreate hjournals => exact .inr ⟨_, _, _, hcreate.touches hjournals rfl ⟨rfl, rfl, rfl⟩ (by simp)⟩
  | @marked m ms skel hskel =>
      refine .inl ⟨fun _ => rfl, fun _ => rfl, rfl, ?_⟩
      -- the row that marks a send has no typed tag
      rw [typedEvents_insertBackupEvent]
      exact List.append_nil _
  | sentMedia _ hcreate hjournals => exact .inr ⟨_, _, _, hcreate.touches hjournals rfl ⟨rfl, rfl, rfl⟩ (by simp)⟩
  | @edited m newText ms skel _ hskel hstate =>
      obtain rfl := Table.key_of_find? hskel
      have hlive : skel.bodyState.deleted = false := by
        rw [hstate]
        rfl
      have hregistered := registered_of_skeleton hskel
      refine .inr ⟨{ skel with editedAtMs := some ms }, _, _, hregistered, fun _ => rfl, ?_,
        editMessageInner_skeleton hskel, ?_, editMessageInner_journals.archive, editMessageInner_journals.backup, ?_, ?_,
        ?_, ?_⟩
      · intro m hm
        exact congrArg MessageView.skeleton (view_editMessageInner_of_ne hm)
      · intro old hold
        obtain rfl := Option.some.inj (hskel.symm.trans hold)
        exact ⟨rfl, hlive⟩
      · intro e he
        rw [List.mem_singleton.mp he]
        exact ⟨rfl, rfl⟩
      · intro e he
        rw [List.mem_singleton.mp he]
        exact ⟨rfl, rfl⟩
      · intro _
        refine ⟨by simp, ?_, ?_⟩
        · intro e he
          rw [List.mem_singleton.mp he]
          rfl
        · intro e he
          rw [List.mem_singleton.mp he]
          rfl
      · intro hdeleted
        exact absurd (hlive.symm.trans hdeleted) (by decide)
  | @deletedForMe m ms skel hskel hstate =>
      obtain rfl := Table.key_of_find? hskel
      obtain ⟨archived, typed, htouches⟩ := touches_deleteInnerTx .forMe ms hskel hstate
      exact .inr ⟨_, archived, typed, htouches⟩
  | @deletedForEveryone m ms skel hskel hstate =>
      obtain rfl := Table.key_of_find? hskel
      obtain ⟨archived, typed, htouches⟩ := touches_deleteInnerTx .forEveryone ms hskel hstate
      exact .inr ⟨_, archived, typed, htouches⟩

end Step

/-! ## The journals and the messages -/

/-- **What the journals record of the registered conversations.** -/
structure Recorded (db : LocalStoreDb) : Prop where
  archived : ∀ m skel, db.skeletons.find? m = some skel → ∃ e ∈ db.archiveJournal,
    e.eventType.isTombstone = false ∧ e.conversationId = skel.conversationId ∧ e.messageId = some m
  archiveOwner : ∀ e ∈ db.archiveJournal, db.conversations.has e.conversationId = true → ∃ m skel,
    e.messageId = some m ∧ db.skeletons.find? m = some skel ∧ skel.conversationId = e.conversationId ∧
      (e.eventType = .messageDeleted → skel.bodyState.deleted = true)
  backupOwner : ∀ e ∈ db.backupJournal.typedEvents, ∃ c m, e.conversationId = some c ∧ e.messageId = some m ∧
    (db.conversations.has c = true → ∃ skel, db.skeletons.find? m = some skel ∧ skel.conversationId = c)
  archiveKinds : ∀ e ∈ db.archiveJournal, e.eventType ≠ .conversationDeleted
  backupKinds : ∀ e ∈ db.backupJournal.typedEvents,
    e.eventType.isMessageContent = true ∨ e.eventType.isTombstone = true
  archiveTombstone : ∀ m skel, db.skeletons.find? m = some skel → skel.bodyState.deleted = true →
    ∃ e ∈ db.archiveJournal, e.eventType = .messageDeleted ∧ e.conversationId = skel.conversationId ∧ e.messageId = some m
  backupTombstone : ∀ m skel, db.skeletons.find? m = some skel → skel.bodyState.deleted = true →
    ∃ e ∈ db.backupJournal.typedEvents, e.eventType = .messageDeleted ∧ e.conversationId = some skel.conversationId ∧
      e.messageId = some m

section Recorded

variable {F : Platform} {db db' : LocalStoreDb}

theorem Recorded.same (h : Recorded db) (hsame : SameRecords db db') : Recorded db' where
  archived m skel hskel := by
    rw [hsame.skeletons] at hskel
    rw [hsame.archive]
    exact h.archived m skel hskel
  archiveOwner e he hconv := by
    rw [hsame.archive] at he
    rw [hsame.conversations] at hconv
    obtain ⟨m, skel, hid, hskel, hrest⟩ := h.archiveOwner e he hconv
    exact ⟨m, skel, hid, by rw [hsame.skeletons, hskel], hrest⟩
  backupOwner e he := by
    rw [hsame.backup] at he
    obtain ⟨c, m, hc, hm, howner⟩ := h.backupOwner e he
    refine ⟨c, m, hc, hm, ?_⟩
    rw [hsame.conversations, hsame.skeletons]
    exact howner
  archiveKinds e he := by
    rw [hsame.archive] at he
    exact h.archiveKinds e he
  backupKinds e he := by
    rw [hsame.backup] at he
    exact h.backupKinds e he
  archiveTombstone m skel hskel hdeleted := by
    rw [hsame.skeletons] at hskel
    rw [hsame.archive]
    exact h.archiveTombstone m skel hskel hdeleted
  backupTombstone m skel hskel hdeleted := by
    rw [hsame.skeletons] at hskel
    rw [hsame.backup]
    exact h.backupTombstone m skel hskel hdeleted

/-- **One changed message keeps the records.** -/
theorem Recorded.touch {skel : MessageSkeleton} {archived : List ArchiveEvent} {typed : List BackupEvent}
    (h : Recorded db) (ht : Touches db db' skel archived typed) : Recorded db' where
  archived m skel' hskel' := by
    rw [ht.archive]
    by_cases hm : m = skel.messageId
    · subst hm
      obtain rfl := Option.some.inj (ht.skeleton.symm.trans hskel')
      by_cases hdeleted : skel.bodyState.deleted = true
      · -- it was there before: its first event stays
        obtain ⟨old, hold⟩ := Option.isSome_iff_exists.mp (ht.tombstones hdeleted).1
        obtain ⟨e, he, htype, hconv, hid⟩ := h.archived _ old hold
        exact ⟨e, List.mem_append_left _ he, htype, hconv.trans (ht.before old hold).1, hid⟩
      · obtain ⟨hne, htypes, -⟩ := ht.content (Bool.eq_false_iff.mpr hdeleted)
        obtain ⟨e, he⟩ := List.exists_mem_of_ne_nil _ hne
        exact ⟨e, List.mem_append_right _ he, htypes e he, ht.archivedOf e he⟩
    · rw [ht.others m hm] at hskel'
      obtain ⟨e, he, hrest⟩ := h.archived m skel' hskel'
      exact ⟨e, List.mem_append_left _ he, hrest⟩
  archiveOwner e he hconv := by
    rw [ht.archive] at he
    rw [ht.conversations] at hconv
    rcases List.mem_append.mp he with he | he
    · obtain ⟨m, old, hid, hold, hc, hdeleted⟩ := h.archiveOwner e he hconv
      by_cases hm : m = skel.messageId
      · subst hm
        obtain ⟨hsame, hlive⟩ := ht.before old hold
        refine ⟨_, skel, hid, ht.skeleton, hsame.symm.trans hc, ?_⟩
        intro htype
        exact absurd (hlive.symm.trans (hdeleted htype)) (by decide)
      · exact ⟨m, old, hid, by rw [ht.others m hm, hold], hc, hdeleted⟩
    · obtain ⟨hc, hid⟩ := ht.archivedOf e he
      refine ⟨_, skel, hid, ht.skeleton, hc.symm, ?_⟩
      intro htype
      by_contra hlive
      have htomb := (ht.content (Bool.eq_false_iff.mpr hlive)).2.1 e he
      rw [htype] at htomb
      exact absurd htomb (by decide)
  backupOwner e he := by
    rw [ht.backup] at he
    rcases List.mem_append.mp he with he | he
    · obtain ⟨c, m, hc, hid, howner⟩ := h.backupOwner e he
      refine ⟨c, m, hc, hid, ?_⟩
      intro hconv
      rw [ht.conversations] at hconv
      obtain ⟨old, hold, hsame⟩ := howner hconv
      by_cases hm : m = skel.messageId
      · subst hm
        exact ⟨skel, ht.skeleton, (ht.before old hold).1.symm.trans hsame⟩
      · exact ⟨old, by rw [ht.others m hm, hold], hsame⟩
    · obtain ⟨hc, hid⟩ := ht.typedOf e he
      exact ⟨_, _, hc, hid, fun _ => ⟨skel, ht.skeleton, rfl⟩⟩
  archiveKinds e he := by
    rw [ht.archive] at he
    rcases List.mem_append.mp he with he | he
    · exact h.archiveKinds e he
    · by_cases hdeleted : skel.bodyState.deleted = true
      · rw [(ht.tombstones hdeleted).2.2.1 e he]
        decide
      · intro htype
        have htomb := (ht.content (Bool.eq_false_iff.mpr hdeleted)).2.1 e he
        rw [htype] at htomb
        exact absurd htomb (by decide)
  backupKinds e he := by
    rw [ht.backup] at he
    rcases List.mem_append.mp he with he | he
    · exact h.backupKinds e he
    · by_cases hdeleted : skel.bodyState.deleted = true
      · rcases (ht.tombstones hdeleted).2.2.2.2 e he with htype | htype
        · exact .inr (by rw [htype]; rfl)
        · exact .inr (by rw [htype]; rfl)
      · exact .inl ((ht.content (Bool.eq_false_iff.mpr hdeleted)).2.2 e he)
  archiveTombstone m skel' hskel' hdeleted := by
    rw [ht.archive]
    by_cases hm : m = skel.messageId
    · subst hm
      obtain rfl := Option.some.inj (ht.skeleton.symm.trans hskel')
      obtain ⟨e, he, htype⟩ := (ht.tombstones hdeleted).2.1
      exact ⟨e, List.mem_append_right _ he, htype, ht.archivedOf e he⟩
    · rw [ht.others m hm] at hskel'
      obtain ⟨e, he, hrest⟩ := h.archiveTombstone m skel' hskel' hdeleted
      exact ⟨e, List.mem_append_left _ he, hrest⟩
  backupTombstone m skel' hskel' hdeleted := by
    rw [ht.backup]
    by_cases hm : m = skel.messageId
    · subst hm
      obtain rfl := Option.some.inj (ht.skeleton.symm.trans hskel')
      obtain ⟨e, he, htype⟩ := (ht.tombstones hdeleted).2.2.2.1
      exact ⟨e, List.mem_append_right _ he, htype, ht.typedOf e he⟩
    · rw [ht.others m hm] at hskel'
      obtain ⟨e, he, hrest⟩ := h.backupTombstone m skel' hskel' hdeleted
      exact ⟨e, List.mem_append_left _ he, hrest⟩

/-- The skeletons a deleted conversation leaves. -/
theorem find?_deleteConversation {c m : Uuid} {skel : MessageSkeleton} :
    (db.deleteConversation c).1.skeletons.find? m = some skel ↔ db.skeletons.find? m = some skel ∧ skel.conversationId ≠ c := by
  show (db.skeletons.delete _).find? m = some skel ↔ _
  rw [Table.find?_delete, Option.filter_eq_some_iff]
  simp

/-- The conversations a deleted conversation leaves. -/
theorem has_deleteConversation {c c' : Uuid} :
    (db.deleteConversation c).1.conversations.has c' = true ↔ db.conversations.has c' = true ∧ c' ≠ c := by
  show (db.conversations.delete _).has c' = true ↔ _
  simp only [Table.has_iff, Table.mem_delete, decide_eq_false_iff_not]
  constructor
  · rintro ⟨r, ⟨hr, hne⟩, rfl⟩
    exact ⟨⟨r, hr, rfl⟩, hne⟩
  · rintro ⟨⟨r, hr, rfl⟩, hne⟩
    exact ⟨r, ⟨hr, hne⟩, rfl⟩

/-- A deleted conversation is no longer registered, and nothing else is forgotten. -/
theorem Recorded.deleteConversation (h : Recorded db) (c : Uuid) : Recorded (db.deleteConversation c).1 where
  archived m skel hskel := h.archived m skel (find?_deleteConversation.mp hskel).1
  archiveOwner e he hconv := by
    obtain ⟨hconv, hne⟩ := has_deleteConversation.mp hconv
    obtain ⟨m, skel, hid, hskel, hc, hdeleted⟩ := h.archiveOwner e he hconv
    exact ⟨m, skel, hid, find?_deleteConversation.mpr ⟨hskel, hc ▸ hne⟩, hc, hdeleted⟩
  backupOwner e he := by
    obtain ⟨c', m, hc, hid, howner⟩ := h.backupOwner e he
    refine ⟨c', m, hc, hid, ?_⟩
    intro hconv
    obtain ⟨hconv, hne⟩ := has_deleteConversation.mp hconv
    obtain ⟨skel, hskel, hsame⟩ := howner hconv
    exact ⟨skel, find?_deleteConversation.mpr ⟨hskel, hsame ▸ hne⟩, hsame⟩
  archiveKinds := h.archiveKinds
  backupKinds := h.backupKinds
  archiveTombstone m skel hskel := h.archiveTombstone m skel (find?_deleteConversation.mp hskel).1
  backupTombstone m skel hskel := h.backupTombstone m skel (find?_deleteConversation.mp hskel).1

/-- An embedding is no record. -/
theorem sameRecords_maybeEmbedTextMessage (db : LocalStoreDb) (msg : IngestedMessage) :
    SameRecords db (maybeEmbedTextMessage F db msg) := by
  have hhang : HangsOff msg.messageId db (maybeEmbedTextMessage F db msg) := HangsOff.maybeEmbedTextMessage rfl
  exact ⟨fun c => by rw [hhang.conversations], fun m => by rw [hhang.skeletons], hhang.archiveJournal,
    by rw [hhang.backupJournal]⟩

theorem recorded_step {call : Call} (h : Recorded db) (hstep : Call.Step F db call db') : Recorded db' := by
  rcases Call.touches hstep with hsame | ⟨skel, archived, typed, ht⟩
  · exact h.same hsame
  · exact h.touch ht

theorem recorded_fresh (conversations : Table Conversation.conversationId) : Recorded (.fresh conversations) where
  archived _ _ hskel := absurd hskel (by simp [LocalStoreDb.fresh])
  archiveOwner _ he := absurd he (by simp [LocalStoreDb.fresh])
  backupOwner _ he := absurd he (by simp [LocalStoreDb.fresh, JournalTable.empty, JournalTable.typedEvents])
  archiveKinds _ he := absurd he (by simp [LocalStoreDb.fresh])
  backupKinds _ he := absurd he (by simp [LocalStoreDb.fresh, JournalTable.empty, JournalTable.typedEvents])
  archiveTombstone _ _ hskel := absurd hskel (by simp [LocalStoreDb.fresh])
  backupTombstone _ _ hskel := absurd hskel (by simp [LocalStoreDb.fresh])

/-- **Every history records its messages.** -/
theorem recorded_history {conversations : Table Conversation.conversationId} {tr : List (LocalStoreDb × CoreCall)}
    (hrun : CoreHistory F (.fresh conversations) tr db) : Recorded db := by
  apply hrun.invariant (I := Recorded)
  · intro db call db' h hstep
    apply CoreCall.step_preserves (G := fun _ _ => True) (D := fun _ _ => True) _ _ _ h hstep
    · cases call <;> trivial
    · intro db call db' h hstep _
      exact recorded_step h hstep
    · intro db msg receivedAtMs journaledAtMs db' h hok
      exact (recorded_step h (step_persistIngestedMessage hok)).same (sameRecords_maybeEmbedTextMessage db' msg)
    · intro db c h _
      exact h.deleteConversation c
  · exact recorded_fresh conversations

end Recorded

/-! ## After the deletion -/

/-- The store of a deleted conversation: it is not registered, and the journals have grown by events of others. -/
structure GrewWithout (c : Uuid) (archived₀ : List ArchiveEvent) (typed₀ : List BackupEvent) (db : LocalStoreDb) : Prop where
  unregistered : db.conversations.has c = false
  archive : ∃ rest, db.archiveJournal = archived₀ ++ rest ∧ ∀ e ∈ rest, e.conversationId ≠ c
  backup : ∃ rest, db.backupJournal.typedEvents = typed₀ ++ rest ∧ ∀ e ∈ rest, e.conversationId ≠ some c

section GrewWithout

variable {F : Platform} {db db' : LocalStoreDb} {c : Uuid} {archived₀ : List ArchiveEvent} {typed₀ : List BackupEvent}

theorem GrewWithout.same (h : GrewWithout c archived₀ typed₀ db) (hsame : SameRecords db db') :
    GrewWithout c archived₀ typed₀ db' where
  unregistered := by rw [hsame.conversations, h.unregistered]
  archive := by
    rw [hsame.archive]
    exact h.archive
  backup := by
    rw [hsame.backup]
    exact h.backup

theorem growsWithout_step {call : Call} (h : GrewWithout c archived₀ typed₀ db) (hstep : Call.Step F db call db') :
    GrewWithout c archived₀ typed₀ db' := by
  rcases Call.touches hstep with hsame | ⟨skel, archived, typed, ht⟩
  · exact h.same hsame
  · -- the message is of a registered conversation, so not of this one
    have hother : skel.conversationId ≠ c := by
      rintro rfl
      exact absurd (h.unregistered.symm.trans ht.registered) (by decide)
    obtain ⟨rest, harchive, hrest⟩ := h.archive
    obtain ⟨rest', hbackup, hrest'⟩ := h.backup
    refine ⟨by rw [ht.conversations, h.unregistered], ⟨rest ++ archived, ?_, ?_⟩, rest' ++ typed, ?_, ?_⟩
    · rw [ht.archive, harchive, List.append_assoc]
    · intro e he
      rcases List.mem_append.mp he with he | he
      · exact hrest e he
      · rw [(ht.archivedOf e he).1]
        exact hother
    · rw [ht.backup, hbackup, List.append_assoc]
    · intro e he
      rcases List.mem_append.mp he with he | he
      · exact hrest' e he
      · rw [(ht.typedOf e he).1]
        intro heq
        exact hother (Option.some.inj heq)

theorem growsWithout_history {tr : List (LocalStoreDb × CoreCall)} (hrun : CoreHistory F db tr db')
    (h : GrewWithout c archived₀ typed₀ db) : GrewWithout c archived₀ typed₀ db' := by
  apply hrun.invariant (I := GrewWithout c archived₀ typed₀) _ h
  intro db call db' h hstep
  apply CoreCall.step_preserves (G := fun _ _ => True) (D := fun _ _ => True) _ _ _ h hstep
  · cases call <;> trivial
  · intro db call db' h hstep _
    exact growsWithout_step h hstep
  · intro db msg receivedAtMs journaledAtMs db' h hok
    exact (growsWithout_step h (step_persistIngestedMessage hok)).same (sameRecords_maybeEmbedTextMessage db' msg)
  · intro db c' h _
    refine ⟨?_, h.archive, h.backup⟩
    rw [← Bool.not_eq_true, has_deleteConversation]
    intro hboth
    exact absurd (h.unregistered.symm.trans hboth.1) (by decide)

/-- The events of the conversation in a sealed part of the journal are those from before. -/
theorem of_prefix {α : Type} {l₀ sealed now : List α} {p : α → Prop} (hfrom : l₀ <+: sealed) (hto : sealed <+: now)
    (hgrew : ∃ rest, now = l₀ ++ rest ∧ ∀ e ∈ rest, ¬ p e) : ∃ rest, sealed = l₀ ++ rest ∧ ∀ e ∈ rest, ¬ p e := by
  obtain ⟨mid, rfl⟩ := hfrom
  obtain ⟨late, hlate⟩ := hto
  obtain ⟨rest, hnow, hrest⟩ := hgrew
  rw [hnow, List.append_assoc] at hlate
  refine ⟨mid, rfl, ?_⟩
  intro e he
  apply hrest e
  rw [← List.append_cancel_left hlate]
  exact List.mem_append_left _ he

end GrewWithout

/-! ## The tombstoned history -/

/-- Every message of the conversation is deleted. -/
def AllDeleted (db : LocalStoreDb) (c : Uuid) : Prop :=
  ∀ m skel, db.skeletons.find? m = some skel → skel.conversationId = c → skel.bodyState.deleted = true

section Tombstoned

variable {db : LocalStoreDb} {c : Uuid}

/-- The backup filter drops what the deletions of single messages cover. -/
theorem backup_dropped (h : Recorded db) (hconv : db.conversations.has c = true) (hall : AllDeleted db c)
    {rest : List BackupEvent} (hrest : ∀ e ∈ rest, ¬ e.conversationId = some c) {e : BackupEvent}
    (he : e ∈ applyTombstones (db.backupJournal.typedEvents ++ rest)) : e.conversationId ≠ some c := by
  intro hc
  rw [applyTombstones_eq_resolve, Tombstoning.mem_resolve] at he
  obtain ⟨hmem, hlive, huncovered⟩ := he
  rcases List.mem_append.mp hmem with hmem | hmem
  · obtain ⟨c', m, hc', hid, howner⟩ := h.backupOwner e hmem
    obtain rfl := Option.some.inj (hc.symm.trans hc')
    obtain ⟨skel, hskel, hsame⟩ := howner hconv
    obtain ⟨t, ht, htype, htconv, htid⟩ := h.backupTombstone m skel hskel (hall m skel hskel hsame)
    have hcontent : e.eventType.isMessageContent = true :=
      (h.backupKinds e hmem).resolve_right fun htomb => absurd (hlive.symm.trans htomb) (by decide)
    have hcovers : tombstoneCovers t e = true := by
      simp [tombstoneCovers, htype, hcontent, BackupEvent.ids, hc, hid, htconv, htid, hsame]
    have hcovered := (Tombstoning.covered_eq_true (T := backupTombstones)).mpr ⟨t, List.mem_append_left rest ht, hcovers⟩
    exact absurd (huncovered.symm.trans hcovered) (by decide)
  · exact hrest e hmem hc

/-- So does the archive filter. -/
theorem archive_dropped (h : Recorded db) (hconv : db.conversations.has c = true) (hall : AllDeleted db c)
    {rest : List ArchiveEvent} (hrest : ∀ e ∈ rest, ¬ e.conversationId = c) {e : ArchiveEvent}
    (he : e ∈ applyArchiveTombstones (db.archiveJournal ++ rest)) : e.conversationId ≠ c := by
  rintro rfl
  rw [applyArchiveTombstones_eq_resolve, Tombstoning.mem_resolve] at he
  obtain ⟨hmem, -, huncovered⟩ := he
  rcases List.mem_append.mp hmem with hmem | hmem
  · obtain ⟨m, skel, hid, hskel, hsame, -⟩ := h.archiveOwner e hmem hconv
    obtain ⟨t, ht, htype, htconv, htid⟩ := h.archiveTombstone m skel hskel (hall m skel hskel hsame)
    have hcovers : archiveTombstoneCovers t e = true := by
      simp [archiveTombstoneCovers, htype, ArchiveEvent.ids, hid, htconv, htid, hsame]
    have hcovered := (Tombstoning.covered_eq_true (T := archiveTombstones)).mpr ⟨t, List.mem_append_left rest ht, hcovers⟩
    exact absurd (huncovered.symm.trans hcovered) (by decide)
  · exact hrest e hmem rfl

/-- **A message that is not deleted survives in the archive.** -/
theorem archive_survives (h : Recorded db) (hconv : db.conversations.has c = true) {m : Uuid} {skel : MessageSkeleton}
    (hskel : db.skeletons.find? m = some skel) (hc : skel.conversationId = c) (hlive : skel.bodyState.deleted = false)
    {rest : List ArchiveEvent} (hrest : ∀ e ∈ rest, ¬ e.conversationId = c) :
    ∃ e ∈ applyArchiveTombstones (db.archiveJournal ++ rest), e.conversationId = c := by
  obtain ⟨e, he, htype, heconv, heid⟩ := h.archived m skel hskel
  refine ⟨e, ?_, heconv.trans hc⟩
  rw [applyArchiveTombstones_eq_resolve, Tombstoning.mem_resolve]
  refine ⟨List.mem_append_left rest he, htype, ?_⟩
  rw [Bool.eq_false_iff, ne_eq, Tombstoning.covered_eq_true]
  rintro ⟨t, ht, hcovers⟩
  -- a tombstone that covers it names its conversation, so it is from before, and then the message is deleted
  have hcovers' : t.eventType = .messageDeleted ∧ t.ids = some (c, m) ∨ t.eventType = .conversationDeleted := by
    simp only [archiveTombstones, archiveTombstoneCovers] at hcovers
    cases hkind : t.eventType with
    | messageDeleted =>
        rw [hkind] at hcovers
        exact .inl ⟨rfl, by simpa [ArchiveEvent.ids, heconv, heid, hc] using hcovers⟩
    | conversationDeleted => exact .inr rfl
    | _ =>
        rw [hkind] at hcovers
        exact absurd hcovers Bool.false_ne_true
  rcases hcovers' with ⟨hdeleted, hids⟩ | hdropped
  · obtain ⟨m', hm', hpair⟩ := Option.map_eq_some_iff.mp hids
    obtain ⟨htconv, rfl⟩ := Prod.mk.inj hpair
    rcases List.mem_append.mp ht with ht | ht
    · obtain ⟨m'', skel', hid, hskel', -, htomb⟩ := h.archiveOwner t ht (htconv ▸ hconv)
      obtain rfl := Option.some.inj (hm'.symm.trans hid)
      obtain rfl := Option.some.inj (hskel.symm.trans hskel')
      exact absurd (hlive.symm.trans (htomb hdeleted)) (by decide)
    · exact hrest t ht htconv
  · rcases List.mem_append.mp ht with ht | ht
    · exact h.archiveKinds t ht hdropped
    · simp only [archiveTombstones, archiveTombstoneCovers, hdropped, decide_eq_true_eq] at hcovers
      exact hrest t ht (hcovers.trans (heconv.trans hc))

end Tombstoned

end KChatCore.Message
