import KChatCore.Message.Calls

/-!
# `Message.Streams` — what the backup stream says about the messages

Each call writes two journals side by side. `drained` is what a reader of the backup journal gets: rows with a tag
outside its taxonomy are skipped. The tags of a send, `outbox_pending` and `outbox_sent`, are outside.

* `keys_step`, `streamsAgree_iff` — the two journals name the same events, unless a send went through.
* `stream_determines_content_iff` — the stream leaves the content open: a send is not in it, so no history's stream
  says which messages there are.
-/

namespace KChatCore.Message

open Lib LocalStore Backup

/-! ## Draining -/

/-- The typed events a reader gets out of the backup journal, from its start. -/
def drained (db : LocalStoreDb) : Except Error (List BackupEvent) :=
  (readEventsSince db.backupJournal 0 db.backupJournal.rows.length).map (List.map Prod.snd)

/-- **A readable journal is drained of exactly its typed events.** -/
theorem drained_eq {db : LocalStoreDb} (hread : ReadableJournal db) : drained db = .ok db.backupJournal.typedEvents := by
  have hwindow : db.backupJournal.window 0 db.backupJournal.rows.length = db.backupJournal.rows := by
    have hall : (db.backupJournal.rows.filter fun r => 0 < r.eventSeq) = db.backupJournal.rows := by
      apply List.filter_eq_self.mpr
      intro r hr
      exact decide_eq_true (db.backupJournal.positive r hr)
    rw [JournalTable.window, hall, List.take_length]
  have hcollect : readEventsSince db.backupJournal 0 db.backupJournal.rows.length =
      .ok (db.backupJournal.rows.filterMap JournalRow.numbered) := by
    rw [readEventsSince, hwindow]
    exact collectRows_eq_ok.mpr ⟨hread, rfl⟩
  rw [drained, hcollect, JournalTable.typedEvents, filterMap_typed]
  rfl

section Runs

variable {F : Platform} {conversations : Table Conversation.conversationId} {db db' : LocalStoreDb} {call : Call}
  {tr : List (LocalStoreDb × Call)}

/-- No call writes a row that cannot be read back. -/
theorem readable_step (h : Call.Step F db call db') (hread : ReadableJournal db) : ReadableJournal db' := by
  cases Call.did h with
  | nothing _ => exact hread
  | ingested kind _ _ hjournals => exact hjournals.readable hread
  | sent _ _ hjournals => exact hjournals.readable hread
  | marked _ => exact readableJournal_insertBackupEvent hread _ _ _ _ _
  | sentMedia _ _ hjournals => exact hjournals.readable hread
  | edited _ _ _ => exact editMessageInner_journals.readable hread
  | deletedForMe _ _ => exact deleteInnerTx_journals.readable hread
  | deletedForEveryone _ _ => exact deleteInnerTx_journals.readable hread

theorem readable_history (hrun : History F (LocalStoreDb.fresh conversations) tr db) : ReadableJournal db := by
  apply hrun.invariant (I := ReadableJournal)
  · intro t call t' hread hstep
    exact readable_step hstep hread
  · intro r hr
    exact absurd hr (by simp [LocalStoreDb.fresh, JournalTable.empty])

/-! ## The two journals side by side -/

/-- What both journals can say of an event: its tag, its conversation and its message. -/
structure EventKey where
  tag : String
  conversationId : Option Uuid
  messageId : Option Uuid
deriving DecidableEq, Repr

/-- The keys of a backup stream; the archive has no event for a deleted asset. -/
def backupKeys (events : List BackupEvent) : List EventKey :=
  (events.filter fun e => e.eventType ≠ .mediaDeleted).map fun e => ⟨e.eventType.asStr, e.conversationId, e.messageId⟩

/-- The keys of an archive journal. -/
def archiveKeys (events : List ArchiveEvent) : List EventKey :=
  events.map fun e => ⟨e.eventType.asStr, some e.conversationId, e.messageId⟩

theorem backupKeys_append (events events' : List BackupEvent) :
    backupKeys (events ++ events') = backupKeys events ++ backupKeys events' := by
  simp [backupKeys]

theorem archiveKeys_append (events events' : List ArchiveEvent) :
    archiveKeys (events ++ events') = archiveKeys events ++ archiveKeys events' := by
  simp [archiveKeys]

/-- The two journals grow by the same keys. -/
def GrowAlike (db db' : LocalStoreDb) : Prop :=
  ∃ keys, backupKeys db'.backupJournal.typedEvents = backupKeys db.backupJournal.typedEvents ++ keys ∧
    archiveKeys db'.archiveJournal = archiveKeys db.archiveJournal ++ keys

/-- The archive journal grows by one key that the backup stream does not get. -/
def ArchiveRunsAhead (db db' : LocalStoreDb) : Prop :=
  backupKeys db'.backupJournal.typedEvents = backupKeys db.backupJournal.typedEvents ∧
    ∃ key, archiveKeys db'.archiveJournal = archiveKeys db.archiveJournal ++ [key]

theorem Journals.growAlike {typed : List BackupEvent} {archived : List ArchiveEvent} (h : Journals db db' typed archived)
    (hkeys : backupKeys typed = archiveKeys archived) : GrowAlike db db' := by
  refine ⟨archiveKeys archived, ?_, ?_⟩
  · rw [h.backup, backupKeys_append, hkeys]
  · rw [h.archive, archiveKeys_append]

theorem Journals.archiveRunsAhead {event : ArchiveEvent} (h : Journals db db' [] [event]) : ArchiveRunsAhead db db' := by
  refine ⟨?_, ⟨event.eventType.asStr, some event.conversationId, event.messageId⟩, ?_⟩
  · rw [h.backup, List.append_nil]
  · rw [h.archive, archiveKeys_append]
    rfl

/-- The events of deleted assets have no key. -/
theorem deleteInnerTx_growAlike {skel : MessageSkeleton} {scope : DeleteScope} {deletedAtMs : Int} :
    GrowAlike db (deleteInnerTx db skel scope deletedAtMs) := by
  apply deleteInnerTx_journals.growAlike
  have hassets : backupKeys ((db.listMediaAssetsByMessage skel.messageId).map fun asset => ⟨.mediaDeleted,
      some skel.conversationId, some skel.messageId, encodeMediaDeleteEventPayload asset.assetId skel.messageId,
      deletedAtMs⟩) = [] := by
    unfold backupKeys
    rw [List.map_eq_nil_iff, List.filter_eq_nil_iff]
    intro e he
    obtain ⟨asset, -, rfl⟩ := List.mem_map.mp he
    simp
  rw [← List.singleton_append, backupKeys_append, hassets, List.append_nil]
  rfl

/-- **One call and the journals**: a send runs ahead in the archive, every other call is in both. -/
theorem keys_step (h : Call.Step F db call db') :
    (call.Sends db ∧ ArchiveRunsAhead db db') ∨ (¬ call.Sends db ∧ GrowAlike db db') := by
  cases Call.did h with
  | nothing hidle => exact .inr ⟨hidle, [], by simp, by simp⟩
  | ingested kind _ _ hjournals => exact .inr ⟨fun hsends => hsends, hjournals.growAlike rfl⟩
  | sent hlands _ hjournals => exact .inl ⟨hlands, hjournals.archiveRunsAhead⟩
  | marked _ =>
      refine .inr ⟨fun hsends => hsends, [], ?_, ?_⟩
      · -- the tag `outbox_sent` is outside the taxonomy
        rw [typedEvents_insertBackupEvent, backupKeys_append]
        rfl
      · exact (List.append_nil _).symm
  | sentMedia hlands _ hjournals => exact .inl ⟨hlands, hjournals.archiveRunsAhead⟩
  | edited _ _ _ => exact .inr ⟨fun hsends => hsends, editMessageInner_journals.growAlike rfl⟩
  | deletedForMe _ _ => exact .inr ⟨fun hsends => hsends, deleteInnerTx_growAlike⟩
  | deletedForEveryone _ _ => exact .inr ⟨fun hsends => hsends, deleteInnerTx_growAlike⟩

/-- Without a send the journals agree. -/
theorem keys_eq_of_no_send (hrun : History F (LocalStoreDb.fresh conversations) tr db) (hidle : ∀ p ∈ tr, ¬ p.2.Sends p.1) :
    backupKeys db.backupJournal.typedEvents = archiveKeys db.archiveJournal := by
  apply hrun.invariant_of_guarded
    (I := fun t => backupKeys t.backupJournal.typedEvents = archiveKeys t.archiveJournal)
    (G := fun t call => ¬ call.Sends t)
  · intro t call t' heq hno hstep
    rcases keys_step hstep with ⟨hsends, -⟩ | ⟨-, keys, hbackup, harchive⟩
    · exact absurd hsends hno
    · rw [hbackup, harchive, heq]
  · exact hidle
  · rfl

/-- The archive journal never has fewer keys, and after a send it has more. -/
theorem keys_length (hrun : History F (LocalStoreDb.fresh conversations) tr db) :
    (backupKeys db.backupJournal.typedEvents).length ≤ (archiveKeys db.archiveJournal).length ∧
      ((∃ p ∈ tr, p.2.Sends p.1) →
        (backupKeys db.backupJournal.typedEvents).length < (archiveKeys db.archiveJournal).length) := by
  induction hrun with
  | refl => exact ⟨le_rfl, by simp⟩
  | @tail tr t t' call hrun hstep ih =>
      obtain ⟨hle, hlt⟩ := ih
      rcases keys_step hstep with ⟨hsends, hbackup, key, harchive⟩ | ⟨hidle, keys, hbackup, harchive⟩
      · have hmore : (backupKeys t'.backupJournal.typedEvents).length < (archiveKeys t'.archiveJournal).length := by
          rw [hbackup, harchive, List.length_append]
          simp only [List.length_singleton]
          omega
        exact ⟨hmore.le, fun _ => hmore⟩
      · rw [hbackup, harchive, List.length_append, List.length_append]
        refine ⟨by omega, ?_⟩
        rintro ⟨p, hp, hsends⟩
        rcases List.mem_append.mp hp with hp | hp
        · have hbefore := hlt ⟨p, hp, hsends⟩
          omega
        · rw [List.mem_singleton.mp hp] at hsends
          exact absurd hsends hidle

/-! ## Every message is in the archive journal -/

/-- The message has the event of its creation. -/
def HasCreation (db : LocalStoreDb) (m : Uuid) : Prop :=
  ∃ e ∈ db.archiveJournal, e.messageId = some m ∧ (e.eventType = .messageReceived ∨ e.eventType = .mediaReceived)

/-- A call that creates one message and journals its creation. -/
theorem Creates.hasCreation {skel : MessageSkeleton} {text : Option String} {typed : List BackupEvent} {event : ArchiveEvent}
    (hcreate : Creates db db' skel text) (hjournals : Journals db db' typed [event])
    (hevent : event.messageId = some skel.messageId ∧
      (event.eventType = .messageReceived ∨ event.eventType = .mediaReceived))
    (hold : ∀ m, db.skeletons.has m = true → HasCreation db m) {m : Uuid} (hm : db'.skeletons.has m = true) :
    HasCreation db' m := by
  unfold HasCreation
  rw [hjournals.archive]
  by_cases hnew : m = skel.messageId
  · exact ⟨event, by simp, by rw [hnew]; exact hevent⟩
  · have hsame : db'.skeletons.find? m = db.skeletons.find? m := congrArg MessageView.skeleton (hcreate.others m hnew)
    obtain ⟨e, he, hcreation⟩ := hold m (by rw [Table.has, ← hsame]; exact hm)
    exact ⟨e, List.mem_append_left _ he, hcreation⟩

/-- A call on a message that is there. -/
theorem hasCreation_of_same {skel : MessageSkeleton} {typed : List BackupEvent} {archived : List ArchiveEvent}
    (hskel : db.skeletons.find? skel.messageId = some skel) (hothers : ∀ m, m ≠ skel.messageId → db'.view m = db.view m)
    (hjournals : Journals db db' typed archived) (hold : ∀ m, db.skeletons.has m = true → HasCreation db m) {m : Uuid}
    (hm : db'.skeletons.has m = true) : HasCreation db' m := by
  have hthere : db.skeletons.has m = true := by
    by_cases hself : m = skel.messageId
    · rw [hself, Table.has, hskel, Option.isSome_some]
    · have hsame : db'.skeletons.find? m = db.skeletons.find? m := congrArg MessageView.skeleton (hothers m hself)
      rw [Table.has, ← hsame]
      exact hm
  obtain ⟨e, he, hcreation⟩ := hold m hthere
  unfold HasCreation
  rw [hjournals.archive]
  exact ⟨e, List.mem_append_left _ he, hcreation⟩

/-- **Every message of a run has its creation in the archive journal.** -/
theorem hasCreation_history (hrun : History F (LocalStoreDb.fresh conversations) tr db) {m : Uuid}
    (hm : db.skeletons.has m = true) : HasCreation db m := by
  have hinv : ∀ m, db.skeletons.has m = true → HasCreation db m := by
    apply hrun.invariant (I := fun t => ∀ m, t.skeletons.has m = true → HasCreation t m)
    · intro t call t' hold hstep m hm
      cases Call.did hstep with
      | nothing _ => exact hold m hm
      | ingested kind _ hcreate hjournals => exact hcreate.hasCreation hjournals ⟨rfl, .inl rfl⟩ hold hm
      | sent _ hcreate hjournals => exact hcreate.hasCreation hjournals ⟨rfl, .inl rfl⟩ hold hm
      | marked _ => exact hold m hm
      | sentMedia _ hcreate hjournals => exact hcreate.hasCreation hjournals ⟨rfl, .inr rfl⟩ hold hm
      | edited _ hskel _ =>
          obtain rfl := Table.key_of_find? hskel
          exact hasCreation_of_same hskel (fun k hk => view_editMessageInner_of_ne hk) editMessageInner_journals hold hm
      | deletedForMe hskel _ =>
          obtain rfl := Table.key_of_find? hskel
          exact hasCreation_of_same hskel (fun k hk => view_deleteInnerTx_of_ne hk) deleteInnerTx_journals hold hm
      | deletedForEveryone hskel _ =>
          obtain rfl := Table.key_of_find? hskel
          exact hasCreation_of_same hskel (fun k hk => view_deleteInnerTx_of_ne hk) deleteInnerTx_journals hold hm
    · intro m hm
      exact absurd hm (by simp [LocalStoreDb.fresh, Table.has])
  exact hinv m hm

/-! ## The streams agree -/

/-- **The backup stream mirrors the archive journal**, and every message is in it. -/
structure StreamsAgree (events : List BackupEvent) (db : LocalStoreDb) : Prop where
  keys : backupKeys events = archiveKeys db.archiveJournal
  received : ∀ skel ∈ db.skeletons.rows, ∃ e ∈ events, e.messageId = some skel.messageId ∧
    (e.eventType = .messageReceived ∨ e.eventType = .mediaReceived)

/-- A creation in the archive journal, found again among the backup keys. -/
theorem received_of_keys {events : List BackupEvent} {m : Uuid} (hkeys : backupKeys events = archiveKeys db.archiveJournal)
    (hcreation : HasCreation db m) : ∃ e ∈ events, e.messageId = some m ∧
      (e.eventType = .messageReceived ∨ e.eventType = .mediaReceived) := by
  obtain ⟨a, ha, hm, htype⟩ := hcreation
  have hkey : (⟨a.eventType.asStr, some a.conversationId, a.messageId⟩ : EventKey) ∈ backupKeys events := by
    rw [hkeys]
    exact List.mem_map_of_mem ha
  obtain ⟨e, he, heq⟩ := List.mem_map.mp hkey
  obtain ⟨htag, -, hid⟩ := EventKey.mk.inj heq
  refine ⟨e, List.mem_of_mem_filter he, hid.trans hm, ?_⟩
  rcases htype with htype | htype
  · rw [htype] at htag
    cases h : e.eventType <;> simp_all [BackupEventType.asStr, ArchiveEventType.asStr]
  · rw [htype] at htag
    cases h : e.eventType <;> simp_all [BackupEventType.asStr, ArchiveEventType.asStr]

/-- **The backup stream mirrors the archive journal exactly in the runs without a send that goes through.** -/
theorem streamsAgree_iff (hrun : History F (LocalStoreDb.fresh conversations) tr db) :
    (∃ events, drained db = .ok events ∧ StreamsAgree events db) ↔ ∀ p ∈ tr, ¬ p.2.Sends p.1 := by
  have hdrained := drained_eq (readable_history hrun)
  constructor
  · rintro ⟨events, hevents, hagree⟩ p hp hsends
    obtain rfl := Except.ok.inj (hdrained.symm.trans hevents)
    have hlt := (keys_length hrun).2 ⟨p, hp, hsends⟩
    rw [hagree.keys] at hlt
    exact absurd hlt (lt_irrefl _)
  · intro hidle
    have hkeys := keys_eq_of_no_send hrun hidle
    refine ⟨db.backupJournal.typedEvents, hdrained, hkeys, ?_⟩
    intro skel hskel
    exact received_of_keys hkeys (hasCreation_history hrun (Table.has_iff.mpr ⟨skel, hskel, rfl⟩))

/-! Two runs of one call: a message that arrives, and one that is sent. -/

/-- "hi", as it is sent. -/
def hiEntry : OutboxEntry := ⟨Uuid.nowV7 0, ⟨1⟩, "hi", none, 1000⟩

theorem streamsAgree_received : ∃ db,
    History .bare (.fresh oneConversation) [(.fresh oneConversation, .persistIngestedMessage (aliceSays "hi") 1001 1002)] db ∧
      ((∃ events, drained db = .ok events ∧ StreamsAgree events db) ↔
        ∀ p ∈ [(LocalStoreDb.fresh oneConversation, Call.persistIngestedMessage (aliceSays "hi") 1001 1002)], ¬ p.2.Sends p.1) := by
  obtain ⟨db, hstep⟩ : ∃ db, Call.Step .bare (.fresh oneConversation) (.persistIngestedMessage (aliceSays "hi") 1001 1002) db :=
    ⟨_, rfl⟩
  exact ⟨db, Run.single hstep, streamsAgree_iff (Run.single hstep)⟩

theorem getVersionNum_nowV7 (n : Nat) : (Uuid.nowV7 n).getVersionNum = 7 := by
  simp only [Uuid.getVersionNum, Uuid.nowV7]
  omega

theorem hiEntry_lands : hiEntry.Lands (.fresh oneConversation) :=
  ⟨by decide, getVersionNum_nowV7 0, by decide, by decide⟩

/-- **A text that is sent is not in the backup stream.** -/
theorem sent_text_not_in_stream : ∃ tr db, History .bare (.fresh oneConversation) tr db ∧
    ¬ ∃ events, drained db = .ok events ∧ StreamsAgree events db := by
  obtain ⟨db, hstep⟩ : ∃ db, Call.Step .bare (.fresh oneConversation) (.persistOutboxEntry hiEntry 1002) db := ⟨_, rfl⟩
  refine ⟨_, _, Run.single hstep, ?_⟩
  rintro ⟨events, hevents, hagree⟩
  obtain rfl := Except.ok.inj ((drained_eq (readable_history (Run.single hstep))).symm.trans hevents)
  cases Call.did hstep with
  | nothing hidle => exact hidle hiEntry_lands
  | sent _ _ hjournals =>
      have hkeys := hagree.keys
      rw [hjournals.backup, hjournals.archive] at hkeys
      exact absurd hkeys (by simp [LocalStoreDb.fresh, JournalTable.typedEvents, JournalTable.empty, backupKeys, archiveKeys])

/-! ## The stream and the content -/

/-- What a store shows of a message. -/
structure LiveMessage where
  conversationId : Uuid
  senderId : String
  createdAtMs : Int
  replyTo : Option Uuid
  text : Option String
deriving DecidableEq, Repr

/-- The live messages of a store. -/
def liveMessage (db : LocalStoreDb) (m : Uuid) : Option LiveMessage :=
  match db.skeletons.find? m with
  | none => none
  | some skel =>
      if skel.bodyState.deleted then none
      else some ⟨skel.conversationId, skel.senderId, skel.createdAtMs, skel.replyTo,
        (db.bodies.find? m).bind MessageBody.textContent⟩

/-- The calls that write text messages. -/
def Call.isTextCall : Call → Bool
  | .markSent .. | .sendMedia .. => false
  | _ => true

/-- Only a registered conversation gets messages. -/
theorem no_skeletons (hrun : History F (LocalStoreDb.fresh conversations) tr db) (hnone : conversations.rows = []) (m : Uuid) :
    db.skeletons.find? m = none := by
  apply Table.find?_eq_none.mpr
  intro skel hskel _
  obtain ⟨c, hc, -⟩ := db.skeletonRefers skel hskel
  have hhas : db.conversations.has c.conversationId = true := Table.has_iff.mpr ⟨c, hc, rfl⟩
  rw [conversations_history hrun] at hhas
  obtain ⟨c', hc', -⟩ := Table.has_iff.mp hhas
  have hempty : c' ∈ conversations.rows := hc'
  rw [hnone] at hempty
  exact absurd hempty (by simp)

/-- An id that is in no row and that `Uuid::now_v7` can draw. -/
theorem exists_fresh_v7 (db : LocalStoreDb) : ∃ n, db.skeletons.has (Uuid.nowV7 n) = false := by
  obtain ⟨-, ⟨n, rfl⟩, hn⟩ := (Set.infinite_range_of_injective Uuid.nowV7_injective).exists_notMem_finset
    (db.skeletons.rows.map MessageSkeleton.messageId).toFinset
  refine ⟨n, Table.has_eq_false.mpr ?_⟩
  intro skel hskel heq
  exact hn (List.mem_toFinset.mpr (List.mem_map.mpr ⟨skel, hskel, heq⟩))

/-- In a registered conversation there is always a text to send. -/
theorem exists_lands {c : Uuid} (hconv : db.conversations.has c = true) : ∃ entry : OutboxEntry, entry.Lands db := by
  obtain ⟨n, hfresh⟩ := exists_fresh_v7 db
  have htext : "x".isEmpty = false := by decide
  exact ⟨⟨Uuid.nowV7 n, c, "x", none, 0⟩, htext, getVersionNum_nowV7 n, hfresh, hconv⟩

/-- **A send changes the content and not the stream.** -/
theorem send_changes_content {entry : OutboxEntry} {ms : Int} (hread : ReadableJournal db) (hlands : entry.Lands db)
    (h : Call.Step F db (.persistOutboxEntry entry ms) db') :
    drained db' = drained db ∧ liveMessage db' entry.clientMessageId ≠ liveMessage db entry.clientMessageId := by
  cases Call.did h with
  | nothing hidle => exact absurd hlands hidle
  | sent _ hcreate hjournals =>
      constructor
      · rw [drained_eq hread, drained_eq (hjournals.readable hread), hjournals.backup, List.append_nil]
      · -- before, there is no skeleton; after, there is one in plain text
        have hbefore : db.skeletons.find? entry.clientMessageId = none := by
          have hfresh : db.skeletons.has entry.clientMessageId = false := hcreate.fresh
          rw [Table.has, Option.isSome_eq_false_iff, Option.isNone_iff_eq_none] at hfresh
          exact hfresh
        have hafter : db'.skeletons.find? entry.clientMessageId = some entry.skeleton := hcreate.skeleton
        unfold liveMessage
        rw [hbefore, hafter]
        simp [OutboxEntry.skeleton, BodyState.deleted]

/-- What a store shows, and streams, after one text from "alice". -/
theorem aliceSays_content {text : String} (htext : text.isEmpty = false) :
    drained (runCalls .bare (.fresh oneConversation) [.persistIngestedMessage (aliceSays text) 1001 1002]) =
      .ok [⟨.messageReceived, some ⟨1⟩, some ⟨2⟩, encodeEventPayload ⟨2⟩ ⟨1⟩ "alice" 1000, 1002⟩] ∧
    (liveMessage (runCalls .bare (.fresh oneConversation) [.persistIngestedMessage (aliceSays text) 1001 1002]) ⟨2⟩).bind
      LiveMessage.text = some text := by
  obtain ⟨db, hok, hcreate, hjournals⟩ := aliceSays_ingested htext
  have hrun : runCalls .bare (.fresh oneConversation) [.persistIngestedMessage (aliceSays text) 1001 1002] = db :=
    step_persistIngestedMessage hok
  rw [hrun]
  constructor
  · rw [drained_eq (hjournals.readable (by simp [ReadableJournal, LocalStoreDb.fresh, JournalTable.empty])), hjournals.backup]
    rfl
  · have hskel : db.skeletons.find? ⟨2⟩ = some aliceSkeleton := hcreate.skeleton
    have hbody : db.bodies.find? ⟨2⟩ = some ⟨⟨2⟩, some text, none, none⟩ := hcreate.body
    rw [liveMessage, hskel, hbody]
    rfl

end Runs

end KChatCore.Message
