import KChatCore.Message.Indexing

/-!
# `Message.Effects` — what each call of the message layer leaves

One description for each kind of call; later modules cite these and do not unfold the calls:

* `Creates` — ingest, outbox and media sends: a new skeleton with its text, other messages as they were;
* `editMessage_eq_ok`, `deleteInner_eq_ok` — when an edit or a delete succeeds, and the view it leaves;
* `Journals` — the events a call adds to the two journals, as a reader of the journal sees them.
-/

namespace KChatCore.Message

open Lib LocalStore

/-! ## The journals, as their readers see them -/

/-- The typed event of a backup row with well-formed ids. -/
def typedEvent (tag : String) (conversationId messageId : Uuid) (payload : Bytes) (createdAtMs : Int) : List BackupEvent :=
  match BackupEventType.parseSnakeCase tag with
  | .ok eventType => [⟨eventType, some conversationId, some messageId, payload, createdAtMs⟩]
  | .error _ => []

theorem typedEvents_insertBackupEvent (db : LocalStoreDb) (tag : String) (c m : Uuid) (payload : Bytes) (ms : Int) :
    (db.insertBackupEvent tag c m payload ms).backupJournal.typedEvents =
      db.backupJournal.typedEvents ++ typedEvent tag c m payload ms := by
  unfold Backup.JournalTable.typedEvents typedEvent
  simp only [LocalStoreDb.insertBackupEvent, Backup.JournalTable.insert, List.filterMap_append]
  congr 1
  cases h : BackupEventType.parseSnakeCase tag with
  | ok eventType =>
      simp [Backup.JournalRow.typed, Backup.JournalRow.numbered, Backup.JournalRow.parse, h, Backup.parseId, Except.bind]
  | error e =>
      simp [Backup.JournalRow.typed, Backup.JournalRow.numbered, Backup.JournalRow.parse, h]

/-- Every row of the backup journal can be read back. -/
def ReadableJournal (db : LocalStoreDb) : Prop := ∀ r ∈ db.backupJournal.rows, r.readable = true

/-- A row with typed ids can be read back, whatever its tag. -/
theorem readableJournal_insertBackupEvent {db : LocalStoreDb} (h : ReadableJournal db) (tag : String) (c m : Uuid)
    (payload : Bytes) (ms : Int) : ReadableJournal (db.insertBackupEvent tag c m payload ms) := by
  intro r hr
  rcases List.mem_append.mp hr with hr | hr
  · exact h r hr
  · rw [List.mem_singleton.mp hr]
    cases htag : BackupEventType.parseSnakeCase tag with
    | ok eventType => simp [Backup.JournalRow.readable, Backup.JournalRow.parse, htag, Backup.parseId, Except.bind]
    | error e => simp [Backup.JournalRow.readable, Backup.JournalRow.parse, htag]

/-- **The typed backup events and the archive events a call adds.** -/
structure Journals (db db' : LocalStoreDb) (typed : List BackupEvent) (archived : List ArchiveEvent) : Prop where
  backup : db'.backupJournal.typedEvents = db.backupJournal.typedEvents ++ typed
  archive : db'.archiveJournal = db.archiveJournal ++ archived
  readable : ReadableJournal db → ReadableJournal db'

/-! ## New messages -/

/-- **A call that creates a message**: its skeleton and its text are there, everything else is as it was. -/
structure Creates (db db' : LocalStoreDb) (skel : MessageSkeleton) (text : Option String) : Prop where
  fresh : db.skeletons.has skel.messageId = false
  registered : db.conversations.has skel.conversationId = true
  skeleton : db'.skeletons.find? skel.messageId = some skel
  body : db'.bodies.find? skel.messageId = text.map fun t => ⟨skel.messageId, some t, none, none⟩
  others : ∀ m, m ≠ skel.messageId → db'.view m = db.view m
  conversations : ∀ c, db'.conversations.has c = db.conversations.has c

/-- What stands between the new skeleton and the journals: rows that hang off the message, and its body. -/
def Filled (skel : MessageSkeleton) (text : Option String) (db db' : LocalStoreDb) : Prop :=
  match text with
  | none => HangsOff skel.messageId db db'
  | some t => ∃ db₁ hfree hskel, HangsOff skel.messageId db db₁ ∧
      HangsOff skel.messageId (db₁.addBody ⟨skel.messageId, some t, none, none⟩ hfree hskel) db'

/-- The statements every creating call ends with. -/
def publish (db : LocalStoreDb) (skel : MessageSkeleton) (tag : String) (payload : Bytes) (ms : Int) (event : ArchiveEvent) :
    LocalStoreDb :=
  ((db.updateConversationLastMessage skel.conversationId skel.messageId skel.createdAtMs).insertBackupEvent tag
    skel.conversationId skel.messageId payload ms).writeArchiveEvent event

section Publish

variable {skel : MessageSkeleton} {text : Option String} {db db₁ : LocalStoreDb} {tag : String} {payload : Bytes} {ms : Int}
  {event : ArchiveEvent}

/-- A message without a skeleton has no body. -/
theorem body_of_fresh {k : Uuid} (h : db.skeletons.has k = false) : db.bodies.find? k = none := by
  apply Table.find?_eq_none.mpr
  intro body hbody hid
  obtain ⟨s, hs, hkey⟩ := db.bodyRefers body hbody
  exact Table.has_eq_false.mp h s hs (hkey.trans hid)

/-- A piece that writes hanging rows, then the text. -/
theorem filled_of_text {F : Platform} {db₂ : LocalStoreDb} (hhang : HangsOff skel.messageId db db₁)
    (htext : insertTextIfAny F db₁ skel text = .ok db₂) : Filled skel text db db₂ := by
  cases text with
  | none =>
      rw [← Except.ok.inj htext]
      exact hhang
  | some t =>
      obtain ⟨hfree, hskel, hrest⟩ := HangsOff.insertText htext
      exact ⟨db₁, hfree, hskel, hhang, hrest⟩

/-- Hanging rows may follow. -/
theorem Filled.trans {db₂ : LocalStoreDb} (h : Filled skel text db db₁) (hhang : HangsOff skel.messageId db₁ db₂) :
    Filled skel text db db₂ := by
  cases text with
  | none => exact HangsOff.trans h hhang
  | some t =>
      obtain ⟨db₃, hfree, hskel, hbefore, hrest⟩ := h
      exact ⟨db₃, hfree, hskel, hbefore, hrest.trans hhang⟩

theorem filled_skeletons (h : Filled skel text db db₁) : db₁.skeletons = db.skeletons := by
  cases text with
  | none => exact HangsOff.skeletons h
  | some t =>
      obtain ⟨db₂, hfree, hskel, h₁, h₂⟩ := h
      exact h₂.skeletons.trans h₁.skeletons

theorem filled_conversations (h : Filled skel text db db₁) : db₁.conversations = db.conversations := by
  cases text with
  | none => exact HangsOff.conversations h
  | some t =>
      obtain ⟨db₂, hfree, hskel, h₁, h₂⟩ := h
      exact h₂.conversations.trans h₁.conversations

theorem filled_journals (h : Filled skel text db db₁) :
    db₁.backupJournal = db.backupJournal ∧ db₁.archiveJournal = db.archiveJournal := by
  cases text with
  | none => exact ⟨HangsOff.backupJournal h, HangsOff.archiveJournal h⟩
  | some t =>
      obtain ⟨db₂, hfree, hskel, h₁, h₂⟩ := h
      exact ⟨h₂.backupJournal.trans h₁.backupJournal, h₂.archiveJournal.trans h₁.archiveJournal⟩

theorem filled_view (h : Filled skel text db db₁) {m : Uuid} (hm : m ≠ skel.messageId) : db₁.view m = db.view m := by
  cases text with
  | none => exact HangsOff.view h m hm
  | some t =>
      obtain ⟨db₂, hfree, hskel, h₁, h₂⟩ := h
      rw [h₂.view m hm, LocalStoreDb.view_addBody, if_neg (Ne.symm hm), h₁.view m hm]

theorem filled_body (h : Filled skel text db db₁) (hnone : db.bodies.find? skel.messageId = none) :
    db₁.bodies.find? skel.messageId = text.map fun t => ⟨skel.messageId, some t, none, none⟩ := by
  cases text with
  | none =>
      rw [HangsOff.bodies h]
      exact hnone
  | some t =>
      obtain ⟨db₂, hfree, hskel, h₁, h₂⟩ := h
      rw [h₂.bodies]
      exact Table.find?_append_self db₂.bodies _ hfree

/-- **Skeleton, filling, journals**: together they create the message. -/
theorem creates_publish (hfree : db.skeletons.has skel.messageId = false)
    (hconv : db.conversations.has skel.conversationId = true) (h : Filled skel text (db.addSkeleton skel hfree hconv) db₁) :
    Creates db (publish db₁ skel tag payload ms event) skel text where
  fresh := hfree
  registered := hconv
  skeleton := by
    show db₁.skeletons.find? skel.messageId = some skel
    rw [filled_skeletons h]
    exact Table.find?_append_self db.skeletons skel hfree
  body := by
    have hnone := body_of_fresh hfree
    show db₁.bodies.find? skel.messageId = _
    exact filled_body h hnone
  others m hm := by
    show db₁.view m = db.view m
    rw [filled_view h hm, LocalStoreDb.view_addSkeleton, if_neg (Ne.symm hm)]
  conversations c := by
    show (db₁.updateConversationLastMessage _ _ _).conversations.has c = _
    unfold LocalStoreDb.updateConversationLastMessage
    rw [Table.has_update, filled_conversations h]
    rfl

theorem journals_publish (hfree : db.skeletons.has skel.messageId = false)
    (hconv : db.conversations.has skel.conversationId = true) (h : Filled skel text (db.addSkeleton skel hfree hconv) db₁) :
    Journals db (publish db₁ skel tag payload ms event)
      (typedEvent tag skel.conversationId skel.messageId payload ms) [event] where
  backup := by
    show ((db₁.updateConversationLastMessage _ _ _).insertBackupEvent tag _ _ payload ms).backupJournal.typedEvents = _
    rw [typedEvents_insertBackupEvent]
    show db₁.backupJournal.typedEvents ++ _ = _
    rw [(filled_journals h).1]
    rfl
  archive := by
    show db₁.archiveJournal ++ [event] = _
    rw [(filled_journals h).2]
    rfl
  readable hread := by
    have hfilled : ReadableJournal db₁ := by
      unfold ReadableJournal
      rw [(filled_journals h).1]
      exact hread
    have hbumped : ReadableJournal (db₁.updateConversationLastMessage skel.conversationId skel.messageId skel.createdAtMs) :=
      hfilled
    exact readableJournal_insertBackupEvent hbumped tag _ _ payload ms

end Publish

/-! ## Ingest, outbox, media -/

section Calls

variable {F : Platform} {db db' : LocalStoreDb}

/-- The archive event of a message that arrived, or was sent as text. -/
def receivedEvent (F : Platform) (skel : MessageSkeleton) (text : Option String) : ArchiveEvent :=
  ⟨.messageReceived, skel.conversationId, some skel.messageId, encodeBodyPayload F.primitives text, skel.createdAtMs⟩

/-- The payload that names a message. -/
def skeletonPayload (skel : MessageSkeleton) : Bytes :=
  encodeEventPayload skel.messageId skel.conversationId skel.senderId skel.createdAtMs

/-- The savepoint of an ingest, statement by statement. -/
theorem persistIngestedMessage_parts {msg : IngestedMessage} {receivedAtMs journaledAtMs : Int} :
    persistIngestedMessage F db msg receivedAtMs journaledAtMs = .ok db' ↔
      validateIngest msg = .ok () ∧ ∃ kind hfree hconv db₂ db₃, msg.kind = .ok kind ∧
        insertAssets (db.addSkeleton (msg.skeleton kind receivedAtMs) hfree hconv) msg.messageId msg.mediaDescriptors =
          .ok db₂ ∧
        insertTextIfAny F db₂ (msg.skeleton kind receivedAtMs) msg.textContent = .ok db₃ ∧
        db' = publish db₃ (msg.skeleton kind receivedAtMs) "message_received" (skeletonPayload (msg.skeleton kind receivedAtMs))
          journaledAtMs (receivedEvent F (msg.skeleton kind receivedAtMs) msg.textContent) := by
  constructor
  · intro h
    obtain ⟨⟨⟩, hvalid, h⟩ := except_bind_eq_ok.mp h
    refine ⟨hvalid, ?_⟩
    by_cases hdup : db.skeletons.has msg.messageId = true
    · rw [if_pos hdup] at h
      exact absurd h (by simp)
    · rw [if_neg hdup] at h
      unfold persistIngestedMessageInner at h
      obtain ⟨kind, hkind, h⟩ := except_bind_eq_ok.mp h
      obtain ⟨db₁, hskel, h⟩ := except_bind_eq_ok.mp h
      obtain ⟨hfree, hconv, rfl⟩ := LocalStoreDb.insertMessageSkeleton_eq_ok.mp (liftDb_eq_ok.mp hskel)
      obtain ⟨db₂, hassets, h⟩ := except_bind_eq_ok.mp h
      obtain ⟨db₃, htext, h⟩ := except_bind_eq_ok.mp h
      exact ⟨kind, hfree, hconv, db₂, db₃, hkind, liftDb_eq_ok.mp hassets, liftDb_eq_ok.mp htext, (Except.ok.inj h).symm⟩
  · rintro ⟨hvalid, kind, hfree, hconv, db₂, db₃, hkind, hassets, htext, rfl⟩
    have hskel := LocalStoreDb.insertMessageSkeleton_eq_ok.mpr
      ⟨hfree, hconv, (rfl : db.addSkeleton (msg.skeleton kind receivedAtMs) hfree hconv = _)⟩
    have hnew : db.skeletons.has msg.messageId = false := hfree
    unfold persistIngestedMessage persistIngestedMessageInner
    rw [hnew]
    exact except_bind_eq_ok.mpr ⟨(), hvalid, except_bind_eq_ok.mpr ⟨kind, hkind, except_bind_eq_ok.mpr
      ⟨_, liftDb_eq_ok.mpr hskel, except_bind_eq_ok.mpr ⟨db₂, liftDb_eq_ok.mpr hassets, except_bind_eq_ok.mpr
        ⟨db₃, liftDb_eq_ok.mpr htext, rfl⟩⟩⟩⟩⟩

/-- **A message that is ingested is created, and both journals get it.** -/
theorem persistIngestedMessage_eq_ok {msg : IngestedMessage} {receivedAtMs journaledAtMs : Int}
    (h : persistIngestedMessage F db msg receivedAtMs journaledAtMs = .ok db') :
    validateIngest msg = .ok () ∧ ∃ kind, msg.kind = .ok kind ∧
      Creates db db' (msg.skeleton kind receivedAtMs) msg.textContent ∧
      Journals db db'
        [⟨.messageReceived, some msg.conversationId, some msg.messageId, skeletonPayload (msg.skeleton kind receivedAtMs),
          journaledAtMs⟩]
        [receivedEvent F (msg.skeleton kind receivedAtMs) msg.textContent] := by
  obtain ⟨hvalid, kind, hfree, hconv, db₂, db₃, hkind, hassets, htext, rfl⟩ := persistIngestedMessage_parts.mp h
  have hhang : HangsOff (msg.skeleton kind receivedAtMs).messageId _ db₂ := HangsOff.insertAssets hassets
  have hfill := filled_of_text hhang htext
  exact ⟨hvalid, kind, hkind, creates_publish hfree hconv hfill, journals_publish hfree hconv hfill⟩

/-- The savepoint of a text send, statement by statement. -/
theorem persistOutboxEntry_parts {entry : OutboxEntry} {journaledAtMs : Int}
    (h : persistOutboxEntry F db entry journaledAtMs = .ok db') :
    ∃ hfree hconv db₂, insertTextIfAny F (db.addSkeleton entry.skeleton hfree hconv) entry.skeleton
        (some entry.textContent) = .ok db₂ ∧
      db' = publish db₂ entry.skeleton "outbox_pending" (skeletonPayload entry.skeleton) journaledAtMs
        (receivedEvent F entry.skeleton (some entry.textContent)) := by
  unfold persistOutboxEntry at h
  by_cases hempty : entry.textContent.isEmpty = true
  · rw [if_pos hempty] at h
    exact absurd h (by simp)
  rw [if_neg hempty] at h
  by_cases hversion : entry.clientMessageId.getVersionNum ≠ 7
  · rw [if_pos hversion] at h
    exact absurd h (by simp)
  rw [if_neg hversion] at h
  by_cases hdup : db.skeletons.has entry.clientMessageId = true
  · rw [if_pos hdup] at h
    exact absurd h (by simp)
  rw [if_neg hdup] at h
  unfold persistOutboxEntryInner at h
  obtain ⟨db₁, hskel, h⟩ := except_bind_eq_ok.mp h
  obtain ⟨hfree, hconv, rfl⟩ := LocalStoreDb.insertMessageSkeleton_eq_ok.mp (liftDb_eq_ok.mp hskel)
  obtain ⟨db₂, htext, h⟩ := except_bind_eq_ok.mp h
  exact ⟨hfree, hconv, db₂, liftDb_eq_ok.mp htext, (Except.ok.inj h).symm⟩

/-- **A text that is sent is created; only the archive's journal gets a typed event.** -/
theorem persistOutboxEntry_eq_ok {entry : OutboxEntry} {journaledAtMs : Int}
    (h : persistOutboxEntry F db entry journaledAtMs = .ok db') :
    Creates db db' entry.skeleton (some entry.textContent) ∧
      Journals db db' [] [receivedEvent F entry.skeleton (some entry.textContent)] := by
  obtain ⟨hfree, hconv, db₂, htext, rfl⟩ := persistOutboxEntry_parts h
  have hfill := filled_of_text HangsOff.refl htext
  exact ⟨creates_publish hfree hconv hfill, journals_publish hfree hconv hfill⟩

/-- The asset row of media that is sent. -/
def MediaSend.asset (send : MediaSend) (descriptor : MediaDescriptor) : MediaAsset :=
  { descriptor.asset send.messageId (wrapI64 descriptor.bytesTotal) with mimeType := send.mimeType }

/-- The archive event of media that is sent. -/
def MediaSend.event (send : MediaSend) (now : Int) : ArchiveEvent :=
  ⟨.mediaReceived, send.conversationId, some send.messageId, skeletonPayload (send.skeleton now), now⟩

/-- The savepoint of a media send, statement by statement. -/
theorem sendMedia_parts {send : MediaSend} {processed : Except Error MediaDescriptor} {now : Int}
    (h : sendMedia F db send processed now = .ok db') :
    ∃ descriptor hfree hconv db₂ db₃, processed = .ok descriptor ∧
      insertTextIfAny F (db.addSkeleton (send.skeleton now) hfree hconv) (send.skeleton now) send.caption = .ok db₂ ∧
      db₂.insertMediaAsset (send.asset descriptor) = .ok db₃ ∧
      db' = publish (extractMedia F db₃ (send.skeleton now) descriptor.assetId send.mimeType send.plaintext)
        (send.skeleton now) "outbox_pending" (skeletonPayload (send.skeleton now)) now (send.event now) := by
  unfold sendMedia at h
  by_cases hempty : send.plaintext.isEmpty = true
  · rw [if_pos hempty] at h
    exact absurd h (by simp)
  rw [if_neg hempty] at h
  by_cases hmime : send.mimeType.isEmpty = true
  · rw [if_pos hmime] at h
    exact absurd h (by simp)
  rw [if_neg hmime] at h
  obtain ⟨descriptor, hprocessed, h⟩ := except_bind_eq_ok.mp h
  unfold sendMediaInner at h
  obtain ⟨db₁, hskel, h⟩ := except_bind_eq_ok.mp h
  obtain ⟨hfree, hconv, rfl⟩ := LocalStoreDb.insertMessageSkeleton_eq_ok.mp (toStorage_eq_ok.mp hskel)
  obtain ⟨db₂, htext, h⟩ := except_bind_eq_ok.mp h
  obtain ⟨db₃, hasset, h⟩ := except_bind_eq_ok.mp h
  exact ⟨descriptor, hfree, hconv, db₂, db₃, hprocessed, toStorage_eq_ok.mp htext, toStorage_eq_ok.mp hasset,
    (Except.ok.inj h).symm⟩

/-- **Media that is sent is created; only the archive's journal gets a typed event.** -/
theorem sendMedia_eq_ok {send : MediaSend} {processed : Except Error MediaDescriptor} {now : Int}
    (h : sendMedia F db send processed now = .ok db') :
    Creates db db' (send.skeleton now) send.caption ∧
      Journals db db' [] [⟨.mediaReceived, send.conversationId, some send.messageId, skeletonPayload (send.skeleton now),
        now⟩] := by
  obtain ⟨descriptor, hfree, hconv, db₂, db₃, -, htext, hasset, rfl⟩ := sendMedia_parts h
  have hfill := filled_of_text HangsOff.refl htext
  have hextract : HangsOff send.messageId db₃
      (extractMedia F db₃ (send.skeleton now) descriptor.assetId send.mimeType send.plaintext) := HangsOff.extractMedia rfl
  have hrest := hfill.trans ((HangsOff.insertMediaAsset hasset).trans hextract)
  exact ⟨creates_publish hfree hconv hrest, journals_publish hfree hconv hrest⟩

/-! ## When a send lands -/

/-- The text of a message that has a skeleton and no body can be inserted. -/
theorem insertTextIfAny_isOk {skel : MessageSkeleton} (hbody : db.bodies.find? skel.messageId = none)
    (hskel : db.skeletons.has skel.messageId = true) (text : Option String) :
    ∃ db', insertTextIfAny F db skel text = .ok db' := by
  cases text with
  | none => exact ⟨db, rfl⟩
  | some t =>
      have hfree : db.bodies.has skel.messageId = false := by rw [Table.has, hbody, Option.isSome_none]
      have hinsert := LocalStoreDb.insertMessageBody_eq_ok.mpr
        ⟨hfree, hskel, (rfl : db.addBody ⟨skel.messageId, some t, none, none⟩ hfree hskel = _)⟩
      exact ⟨_, except_bind_eq_ok.mpr ⟨_, hinsert, rfl⟩⟩

/-- Inserting a text leaves the assets alone. -/
theorem insertTextIfAny_assets {skel : MessageSkeleton} {text : Option String}
    (h : insertTextIfAny F db skel text = .ok db') : db'.assets = db.assets := by
  cases text with
  | none => rw [← Except.ok.inj h]
  | some t =>
      obtain ⟨db₁, hbody, hrest⟩ := except_bind_eq_ok.mp h
      obtain ⟨_, _, rfl⟩ := LocalStoreDb.insertMessageBody_eq_ok.mp hbody
      rw [← Except.ok.inj hrest]
      rfl

/-- A skeleton that was just added is there. -/
theorem has_addSkeleton (skel : MessageSkeleton) (hfree : db.skeletons.has skel.messageId = false)
    (hconv : db.conversations.has skel.conversationId = true) :
    (db.addSkeleton skel hfree hconv).skeletons.has skel.messageId = true := by
  have hfound : (db.addSkeleton skel hfree hconv).skeletons.find? skel.messageId = some skel :=
    Table.find?_append_self db.skeletons skel hfree
  rw [Table.has, hfound, Option.isSome_some]

/-- The text of a message that was just added can be inserted. -/
theorem insertTextIfAny_addSkeleton (F : Platform) (skel : MessageSkeleton)
    (hfree : db.skeletons.has skel.messageId = false) (hconv : db.conversations.has skel.conversationId = true)
    (text : Option String) : ∃ db', insertTextIfAny F (db.addSkeleton skel hfree hconv) skel text = .ok db' := by
  have hnone : (db.addSkeleton skel hfree hconv).bodies.find? skel.messageId = none := by
    show db.bodies.find? skel.messageId = none
    exact body_of_fresh hfree
  exact insertTextIfAny_isOk hnone (has_addSkeleton skel hfree hconv) text

/-- After an asset is inserted its id is taken as well. -/
theorem has_addAsset (asset : MediaAsset) (hfree : db.assets.has asset.assetId = false)
    (hskel : db.skeletons.has asset.messageId = true) (id : Uuid) :
    (db.addAsset asset hfree hskel).assets.has id = false ↔ asset.assetId ≠ id ∧ db.assets.has id = false := by
  rw [← Bool.not_eq_true, LocalStoreDb.addAsset, Table.has_append, not_or, Bool.not_eq_true]

/-- Assets are inserted exactly under free ids, each once. -/
theorem insertAssets_isOk_iff {k : Uuid} {descs : List MediaDescriptor} (hskel : db.skeletons.has k = true) :
    (∃ db', insertAssets db k descs = .ok db') ↔
      (descs.map MediaDescriptor.assetId).Nodup ∧ ∀ desc ∈ descs, db.assets.has desc.assetId = false := by
  induction descs generalizing db with
  | nil => simp [insertAssets]
  | cons desc descs ih =>
      have ih' := fun hfree => @ih (db.addAsset (desc.asset k 0) hfree hskel) hskel
      constructor
      · rintro ⟨db', h⟩
        obtain ⟨db₁, hasset, hrest⟩ := except_bind_eq_ok.mp h
        obtain ⟨hfree, hskel', rfl⟩ := LocalStoreDb.insertMediaAsset_eq_ok.mp hasset
        obtain ⟨hnodup, hfrees⟩ := (ih' hfree).mp ⟨db', hrest⟩
        have hsplit := fun desc' hdesc' => (has_addAsset _ hfree hskel _).mp (hfrees desc' hdesc')
        refine ⟨?_, ?_⟩
        · rw [List.map_cons, List.nodup_cons]
          refine ⟨?_, hnodup⟩
          intro hmem
          obtain ⟨desc', hdesc', hid⟩ := List.mem_map.mp hmem
          exact (hsplit desc' hdesc').1 hid.symm
        · intro desc' hdesc'
          rcases List.mem_cons.mp hdesc' with rfl | hdesc'
          · exact hfree
          · exact (hsplit desc' hdesc').2
      · rintro ⟨hnodup, hfrees⟩
        rw [List.map_cons, List.nodup_cons] at hnodup
        have hfree : db.assets.has (desc.asset k 0).assetId = false := hfrees desc List.mem_cons_self
        have hrest : ∀ desc' ∈ descs, (db.addAsset (desc.asset k 0) hfree hskel).assets.has desc'.assetId = false := by
          intro desc' hdesc'
          refine (has_addAsset _ hfree hskel _).mpr ⟨?_, hfrees desc' (List.mem_cons_of_mem _ hdesc')⟩
          intro hid
          exact hnodup.1 (List.mem_map.mpr ⟨desc', hdesc', hid.symm⟩)
        obtain ⟨db', h⟩ := (ih' hfree).mpr ⟨hnodup.2, hrest⟩
        exact ⟨db', except_bind_eq_ok.mpr ⟨_, LocalStoreDb.insertMediaAsset_eq_ok.mpr ⟨hfree, hskel, rfl⟩, h⟩⟩

/-- The asset ids that are taken afterwards. -/
theorem insertAssets_assets {k : Uuid} {descs : List MediaDescriptor} (h : insertAssets db k descs = .ok db') (id : Uuid) :
    db'.assets.has id = false ↔ db.assets.has id = false ∧ id ∉ descs.map MediaDescriptor.assetId := by
  induction descs generalizing db with
  | nil =>
      rw [← Except.ok.inj h]
      simp
  | cons desc descs ih =>
      obtain ⟨db₁, hasset, hrest⟩ := except_bind_eq_ok.mp h
      obtain ⟨hfree, hskel, rfl⟩ := LocalStoreDb.insertMediaAsset_eq_ok.mp hasset
      rw [ih hrest, has_addAsset, List.map_cons, List.mem_cons, not_or]
      have hid : (desc.asset k 0).assetId = desc.assetId := rfl
      rw [hid]
      constructor
      · rintro ⟨⟨hne, hold⟩, hnot⟩
        exact ⟨hold, Ne.symm hne, hnot⟩
      · rintro ⟨hold, hne, hnot⟩
        exact ⟨⟨Ne.symm hne, hold⟩, hnot⟩

/-- What a message that arrives has to meet to be stored. -/
structure IngestedMessage.Lands (msg : IngestedMessage) (db : LocalStoreDb) : Prop where
  valid : validateIngest msg = .ok ()
  fresh : db.skeletons.has msg.messageId = false
  registered : db.conversations.has msg.conversationId = true
  distinct : (msg.mediaDescriptors.map MediaDescriptor.assetId).Nodup
  assets : ∀ desc ∈ msg.mediaDescriptors, db.assets.has desc.assetId = false

/-- A valid message has a kind. -/
theorem kind_of_valid {msg : IngestedMessage} (hvalid : validateIngest msg = .ok ()) : ∃ kind, msg.kind = .ok kind := by
  unfold IngestedMessage.kind
  by_cases hmedia : (!msg.mediaDescriptors.isEmpty) = true
  · exact ⟨.media, if_pos hmedia⟩
  · rw [if_neg hmedia]
    by_cases htext : msg.textContent.isSome = true
    · exact ⟨.text, if_pos htext⟩
    · -- neither text nor media is not valid
      have hneither : (msg.textContent.isNone && msg.mediaDescriptors.isEmpty) = true := by
        rw [Bool.and_eq_true]
        exact ⟨by simpa using htext, by simpa using hmedia⟩
      unfold validateIngest at hvalid
      rw [if_pos hneither] at hvalid
      split_ifs at hvalid

/-- **A message that arrives is stored exactly when it lands.** -/
theorem persistIngestedMessage_isOk_iff (F : Platform) {msg : IngestedMessage} (receivedAtMs journaledAtMs : Int) :
    (∃ db', persistIngestedMessage F db msg receivedAtMs journaledAtMs = .ok db') ↔ msg.Lands db := by
  constructor
  · rintro ⟨db', h⟩
    obtain ⟨hvalid, kind, hfree, hconv, db₂, db₃, hkind, hassets, -, -⟩ := persistIngestedMessage_parts.mp h
    obtain ⟨hnodup, hfrees⟩ := (insertAssets_isOk_iff (has_addSkeleton _ hfree hconv)).mp ⟨db₂, hassets⟩
    exact ⟨hvalid, hfree, hconv, hnodup, hfrees⟩
  · rintro ⟨hvalid, hfree, hconv, hnodup, hfrees⟩
    obtain ⟨kind, hkind⟩ := kind_of_valid hvalid
    have hthere := has_addSkeleton (msg.skeleton kind receivedAtMs) hfree hconv
    obtain ⟨db₂, hassets⟩ := (insertAssets_isOk_iff hthere).mpr ⟨hnodup, hfrees⟩
    have hhang : HangsOff (msg.skeleton kind receivedAtMs).messageId _ db₂ := HangsOff.insertAssets hassets
    have hbody : db₂.bodies.find? (msg.skeleton kind receivedAtMs).messageId = none := by
      rw [hhang.bodies]
      show db.bodies.find? msg.messageId = none
      exact body_of_fresh hfree
    obtain ⟨db₃, htext⟩ := insertTextIfAny_isOk (F := F) hbody
      (show db₂.skeletons.has _ = true by rw [hhang.skeletons]; exact hthere) msg.textContent
    exact ⟨_, persistIngestedMessage_parts.mpr ⟨hvalid, kind, hfree, hconv, db₂, db₃, hkind, hassets, htext, rfl⟩⟩

/-- The asset ids that are taken after an ingest. -/
theorem persistIngestedMessage_assets {msg : IngestedMessage} {receivedAtMs journaledAtMs : Int}
    (h : persistIngestedMessage F db msg receivedAtMs journaledAtMs = .ok db') (id : Uuid) :
    db'.assets.has id = false ↔ db.assets.has id = false ∧ id ∉ msg.mediaDescriptors.map MediaDescriptor.assetId := by
  obtain ⟨-, kind, hfree, hconv, db₂, db₃, -, hassets, htext, rfl⟩ := persistIngestedMessage_parts.mp h
  show db₃.assets.has id = false ↔ _
  rw [insertTextIfAny_assets htext, insertAssets_assets hassets]
  rfl

theorem maybeEmbedTextMessage_assets (F : Platform) (db : LocalStoreDb) (msg : IngestedMessage) :
    (maybeEmbedTextMessage F db msg).assets = db.assets := by
  unfold maybeEmbedTextMessage embedOnce
  split <;> try rfl
  split_ifs
  · rfl
  · split <;> rfl

/-- Inside the savepoint no error is a duplicate. -/
theorem persistIngestedMessageInner_ne_duplicate {msg : IngestedMessage} {receivedAtMs journaledAtMs : Int} :
    persistIngestedMessageInner F db msg receivedAtMs journaledAtMs ≠ .error .duplicateMessage := by
  have hlift : ∀ r : Except DbError LocalStoreDb, liftDb r ≠ .error .duplicateMessage := by
    intro r
    cases r <;> simp [liftDb, Except.mapError]
  have hkind : msg.kind ≠ .error .duplicateMessage := by
    unfold IngestedMessage.kind
    split_ifs <;> simp
  intro h
  unfold persistIngestedMessageInner at h
  rcases except_bind_eq_error.mp h with h | ⟨kind, -, h⟩
  · exact hkind h
  rcases except_bind_eq_error.mp h with h | ⟨db₁, -, h⟩
  · exact hlift _ h
  rcases except_bind_eq_error.mp h with h | ⟨db₂, -, h⟩
  · exact hlift _ h
  rcases except_bind_eq_error.mp h with h | ⟨db₃, -, h⟩
  · exact hlift _ h
  exact absurd h (by simp [pure, Except.pure])

/-- **A message is a duplicate exactly when it is valid and there.** -/
theorem persistIngestedMessage_duplicate {msg : IngestedMessage} {receivedAtMs journaledAtMs : Int} :
    persistIngestedMessage F db msg receivedAtMs journaledAtMs = .error .duplicateMessage ↔
      validateIngest msg = .ok () ∧ db.skeletons.has msg.messageId = true := by
  have hvalidate : validateIngest msg ≠ .error .duplicateMessage := by
    unfold validateIngest
    split_ifs <;> simp
  unfold persistIngestedMessage
  rw [except_bind_eq_error]
  constructor
  · rintro (h | ⟨⟨⟩, hvalid, h⟩)
    · exact absurd h hvalidate
    · by_cases hdup : db.skeletons.has msg.messageId = true
      · exact ⟨hvalid, hdup⟩
      · rw [if_neg hdup] at h
        exact absurd h persistIngestedMessageInner_ne_duplicate
  · rintro ⟨hvalid, hdup⟩
    exact .inr ⟨(), hvalid, if_pos hdup⟩

/-- What a text send has to meet to be stored. -/
structure OutboxEntry.Lands (entry : OutboxEntry) (db : LocalStoreDb) : Prop where
  text : entry.textContent.isEmpty = false
  version : entry.clientMessageId.getVersionNum = 7
  fresh : db.skeletons.has entry.clientMessageId = false
  registered : db.conversations.has entry.conversationId = true

/-- **A text send succeeds exactly when it lands.** -/
theorem persistOutboxEntry_isOk_iff (F : Platform) {entry : OutboxEntry} (journaledAtMs : Int) :
    (∃ db', persistOutboxEntry F db entry journaledAtMs = .ok db') ↔ entry.Lands db := by
  constructor
  · rintro ⟨db', h⟩
    obtain ⟨hcreate, -⟩ := persistOutboxEntry_eq_ok h
    unfold persistOutboxEntry at h
    by_cases hempty : entry.textContent.isEmpty = true
    · rw [if_pos hempty] at h
      exact absurd h (by simp)
    rw [if_neg hempty] at h
    by_cases hversion : entry.clientMessageId.getVersionNum ≠ 7
    · rw [if_pos hversion] at h
      exact absurd h (by simp)
    exact ⟨Bool.eq_false_iff.mpr hempty, not_not.mp hversion, hcreate.fresh, hcreate.registered⟩
  · rintro ⟨htext, hversion, hfresh, hconv⟩
    have hskel := LocalStoreDb.insertMessageSkeleton_eq_ok.mpr
      ⟨hfresh, hconv, (rfl : db.addSkeleton entry.skeleton hfresh hconv = _)⟩
    obtain ⟨db₂, htext'⟩ := insertTextIfAny_addSkeleton F entry.skeleton hfresh hconv (some entry.textContent)
    unfold persistOutboxEntry
    rw [if_neg (by rw [htext]; exact Bool.false_ne_true), if_neg (not_not.mpr hversion),
      if_neg (by rw [hfresh]; exact Bool.false_ne_true)]
    exact ⟨_, except_bind_eq_ok.mpr ⟨_, liftDb_eq_ok.mpr hskel, except_bind_eq_ok.mpr
      ⟨db₂, liftDb_eq_ok.mpr htext', rfl⟩⟩⟩

/-- What a media send has to meet to be stored. -/
structure MediaSend.Lands (send : MediaSend) (processed : Except Error MediaDescriptor) (db : LocalStoreDb) : Prop where
  plaintext : send.plaintext.isEmpty = false
  mimeType : send.mimeType.isEmpty = false
  fresh : db.skeletons.has send.messageId = false
  registered : db.conversations.has send.conversationId = true
  asset : ∃ descriptor, processed = .ok descriptor ∧ db.assets.has descriptor.assetId = false

/-- **A media send succeeds exactly when it lands.** -/
theorem sendMedia_isOk_iff (F : Platform) {send : MediaSend} {processed : Except Error MediaDescriptor} (now : Int) :
    (∃ db', sendMedia F db send processed now = .ok db') ↔ send.Lands processed db := by
  constructor
  · rintro ⟨db', h⟩
    obtain ⟨hcreate, -⟩ := sendMedia_eq_ok h
    unfold sendMedia at h
    by_cases hempty : send.plaintext.isEmpty = true
    · rw [if_pos hempty] at h
      exact absurd h (by simp)
    rw [if_neg hempty] at h
    by_cases hmime : send.mimeType.isEmpty = true
    · rw [if_pos hmime] at h
      exact absurd h (by simp)
    rw [if_neg hmime] at h
    obtain ⟨descriptor, hprocessed, h⟩ := except_bind_eq_ok.mp h
    unfold sendMediaInner at h
    -- one `?` after the other
    obtain ⟨db₁, hskel, h⟩ := except_bind_eq_ok.mp h
    obtain ⟨hfree, hconv, rfl⟩ := LocalStoreDb.insertMessageSkeleton_eq_ok.mp (toStorage_eq_ok.mp hskel)
    obtain ⟨db₂, htext, h⟩ := except_bind_eq_ok.mp h
    obtain ⟨db₃, hasset, -⟩ := except_bind_eq_ok.mp h
    obtain ⟨hassetFree, -, -⟩ := LocalStoreDb.insertMediaAsset_eq_ok.mp (toStorage_eq_ok.mp hasset)
    have hassets := insertTextIfAny_assets (toStorage_eq_ok.mp htext)
    refine ⟨Bool.eq_false_iff.mpr hempty, Bool.eq_false_iff.mpr hmime, hcreate.fresh, hcreate.registered, descriptor,
      hprocessed, ?_⟩
    rw [hassets] at hassetFree
    exact hassetFree
  · rintro ⟨hplain, hmime, hfresh, hconv, descriptor, rfl, hasset⟩
    have hskel := LocalStoreDb.insertMessageSkeleton_eq_ok.mpr
      ⟨hfresh, hconv, (rfl : db.addSkeleton (send.skeleton now) hfresh hconv = _)⟩
    -- the new skeleton is what the text and the asset refer to
    have hthere := has_addSkeleton (send.skeleton now) hfresh hconv
    obtain ⟨db₂, htext⟩ := insertTextIfAny_addSkeleton F (send.skeleton now) hfresh hconv send.caption
    have hassets := insertTextIfAny_assets htext
    have hskeletons := filled_skeletons (filled_of_text HangsOff.refl htext)
    have hinsert : ∃ db₃, db₂.insertMediaAsset { descriptor.asset (send.skeleton now).messageId
        (wrapI64 descriptor.bytesTotal) with mimeType := send.mimeType } = .ok db₃ :=
      ⟨_, LocalStoreDb.insertMediaAsset_eq_ok.mpr ⟨by rw [hassets]; exact hasset, by rw [hskeletons]; exact hthere, rfl⟩⟩
    obtain ⟨db₃, hinsert⟩ := hinsert
    unfold sendMedia
    rw [if_neg (by rw [hplain]; exact Bool.false_ne_true), if_neg (by rw [hmime]; exact Bool.false_ne_true)]
    exact ⟨_, except_bind_eq_ok.mpr ⟨descriptor, rfl, except_bind_eq_ok.mpr ⟨_, toStorage_eq_ok.mpr hskel,
      except_bind_eq_ok.mpr ⟨db₂, toStorage_eq_ok.mpr htext, except_bind_eq_ok.mpr
        ⟨db₃, toStorage_eq_ok.mpr hinsert, rfl⟩⟩⟩⟩⟩

/-! ## Edit and delete -/

variable {m : Uuid}

/-- **When an edit succeeds**: the text is not empty, the message is there in plain text. -/
theorem editMessage_eq_ok {newText : String} {editedAtMs : Int} :
    editMessage F db m newText editedAtMs = .ok db' ↔
      newText.isEmpty = false ∧ ∃ skel, db.skeletons.find? m = some skel ∧ skel.bodyState = .localPlainAvailable ∧
        db' = editMessageInner F db skel newText editedAtMs := by
  unfold editMessage LocalStoreDb.getMessageSkeleton
  by_cases hempty : newText.isEmpty = true
  · simp [hempty]
  · rw [if_neg hempty]
    cases hskel : db.skeletons.find? m with
    | none => simp
    | some skel =>
        by_cases hstate : skel.bodyState = .localPlainAvailable
        · simp [hstate, hempty, eq_comm]
        · simp [hstate]

/-- **When a delete succeeds**: the message is there, and its state may go to the target. -/
theorem deleteInner_eq_ok {scope : DeleteScope} {deletedAtMs : Int} :
    deleteInner db m scope deletedAtMs = .ok db' ↔
      ∃ skel, db.skeletons.find? m = some skel ∧ skel.bodyState = .localPlainAvailable ∧
        db' = deleteInnerTx db skel scope deletedAtMs := by
  have htarget : scope.target.deleted = true := by cases scope <;> rfl
  unfold deleteInner LocalStoreDb.getMessageSkeleton
  cases hskel : db.skeletons.find? m with
  | none => simp
  | some skel =>
      have hlegal : BodyState.legal skel.bodyState scope.target = true ↔ skel.bodyState = .localPlainAvailable :=
        BodyState.legal_deleted htarget
      by_cases hstate : skel.bodyState = .localPlainAvailable
      · simp only [BodyState.tryTransition, hlegal.mpr hstate, if_true]
        simp [hstate, eq_comm]
      · have hillegal : BodyState.legal skel.bodyState scope.target = false :=
          Bool.eq_false_iff.mpr fun h => hstate (hlegal.mp h)
        simp only [BodyState.tryTransition, hillegal, Bool.false_eq_true, if_false]
        simp [hstate]

/-! What they leave. -/

theorem view_editMessageInner_of_ne {skel : MessageSkeleton} {newText : String} {editedAtMs : Int}
    (hm : m ≠ skel.messageId) : (editMessageInner F db skel newText editedAtMs).view m = db.view m := by
  have hrow : skel.messageId.toText ≠ m.toText := fun h => hm (Uuid.toText_inj.mp h).symm
  unfold editMessageInner insertFtsRow LocalStoreDb.updateSkeletonEdited
  simp only [LocalStoreDb.view_writeArchiveEvent, LocalStoreDb.view_insertBackupEvent, LocalStoreDb.view_deleteVectorRow,
    LocalStoreDb.view_indexMessage_of_ne hrow, LocalStoreDb.view_removeMessage, LocalStoreDb.view_insertFtsRow,
    LocalStoreDb.view_deleteFtsRow, LocalStoreDb.view_updateSkeleton, LocalStoreDb.view_updateMessageBodyText, if_neg hrow,
    if_neg (Ne.symm hm)]

theorem editMessageInner_skeleton {skel : MessageSkeleton} {newText : String} {editedAtMs : Int}
    (hskel : db.skeletons.find? skel.messageId = some skel) :
    (editMessageInner F db skel newText editedAtMs).skeletons.find? skel.messageId =
      some { skel with editedAtMs := some editedAtMs } := by
  have hview := db.view_updateSkeleton skel.messageId
    (fun r => { r with editedAtMs := some editedAtMs }) (fun _ => rfl) (fun _ => rfl) skel.messageId
  rw [if_pos rfl, hskel] at hview
  exact congrArg MessageView.skeleton hview

theorem editMessageInner_body {skel : MessageSkeleton} {newText : String} {editedAtMs : Int} :
    (editMessageInner F db skel newText editedAtMs).bodies.find? skel.messageId =
      (db.bodies.find? skel.messageId).map fun r => { r with textContent := some newText } := by
  have hview := db.view_updateMessageBodyText skel.messageId newText skel.messageId
  rw [if_pos rfl] at hview
  exact congrArg MessageView.body hview

theorem editMessageInner_journals {skel : MessageSkeleton} {newText : String} {editedAtMs : Int} :
    Journals db (editMessageInner F db skel newText editedAtMs)
      [⟨.messageEdited, some skel.conversationId, some skel.messageId, encodeEditEventPayload skel.messageId editedAtMs,
        editedAtMs⟩]
      [⟨.messageEdited, skel.conversationId, some skel.messageId, encodeBodyPayload F.primitives (some newText),
        editedAtMs⟩] where
  backup := typedEvents_insertBackupEvent _ "message_edited" _ _ _ _
  archive := rfl
  readable hread := by
    have hsame := readableJournal_insertBackupEvent hread "message_edited" skel.conversationId skel.messageId
      (encodeEditEventPayload skel.messageId editedAtMs) editedAtMs
    exact hsame

/-- Asset by asset, only the backup journal grows. -/
theorem insertMediaDeleted_typedEvents {skel : MessageSkeleton} {deletedAtMs : Int} (assets : List MediaAsset) :
    (insertMediaDeleted db skel deletedAtMs assets).backupJournal.typedEvents =
      db.backupJournal.typedEvents ++ assets.map fun asset => ⟨.mediaDeleted, some skel.conversationId,
        some skel.messageId, encodeMediaDeleteEventPayload asset.assetId skel.messageId, deletedAtMs⟩ := by
  unfold insertMediaDeleted
  induction assets generalizing db with
  | nil => simp
  | cons asset assets ih =>
      rw [List.foldl_cons, ih, typedEvents_insertBackupEvent, List.append_assoc]
      rfl

theorem insertMediaDeleted_readable {skel : MessageSkeleton} {deletedAtMs : Int} (assets : List MediaAsset)
    (hread : ReadableJournal db) : ReadableJournal (insertMediaDeleted db skel deletedAtMs assets) := by
  unfold insertMediaDeleted
  induction assets generalizing db with
  | nil => exact hread
  | cons asset assets ih => exact ih (readableJournal_insertBackupEvent hread _ _ _ _ _)

/-- Everything that is not the backup journal. -/
theorem insertMediaDeleted_eq (db : LocalStoreDb) (skel : MessageSkeleton) (deletedAtMs : Int) (assets : List MediaAsset) :
    ∃ journal, insertMediaDeleted db skel deletedAtMs assets = { db with backupJournal := journal } := by
  unfold insertMediaDeleted
  induction assets generalizing db with
  | nil => exact ⟨db.backupJournal, rfl⟩
  | cons asset assets ih =>
      obtain ⟨journal, h⟩ := ih (db.insertBackupEvent "media_deleted" skel.conversationId skel.messageId
        (encodeMediaDeleteEventPayload asset.assetId skel.messageId) deletedAtMs)
      exact ⟨journal, by rw [List.foldl_cons, h]; rfl⟩

/-- **A delete is its erased rows and its journal entries.** -/
theorem deleteInnerTx_eq (db : LocalStoreDb) (skel : MessageSkeleton) (scope : DeleteScope) (deletedAtMs : Int) :
    ∃ journal archive, deleteInnerTx db skel scope deletedAtMs =
      { eraseRows db skel.messageId scope deletedAtMs with backupJournal := journal, archiveJournal := archive } := by
  obtain ⟨journal, h⟩ := insertMediaDeleted_eq
    ((eraseRows db skel.messageId scope deletedAtMs).insertBackupEvent "message_deleted" skel.conversationId
      skel.messageId (encodeDeleteEventPayload skel.messageId scope.label) deletedAtMs)
    skel deletedAtMs (db.listMediaAssetsByMessage skel.messageId)
  refine ⟨journal, db.archiveJournal ++ [⟨.messageDeleted, skel.conversationId, some skel.messageId,
    encodeDeleteEventPayload skel.messageId scope.label, deletedAtMs⟩], ?_⟩
  have hwrite := congrArg (fun d => LocalStoreDb.writeArchiveEvent d ⟨.messageDeleted, skel.conversationId,
    some skel.messageId, encodeDeleteEventPayload skel.messageId scope.label, deletedAtMs⟩) h
  cases scope <;> exact hwrite

theorem deleteInnerTx_journals {skel : MessageSkeleton} {scope : DeleteScope} {deletedAtMs : Int} :
    Journals db (deleteInnerTx db skel scope deletedAtMs)
      (⟨.messageDeleted, some skel.conversationId, some skel.messageId,
          encodeDeleteEventPayload skel.messageId scope.label, deletedAtMs⟩ ::
        (db.listMediaAssetsByMessage skel.messageId).map fun asset => ⟨.mediaDeleted, some skel.conversationId,
          some skel.messageId, encodeMediaDeleteEventPayload asset.assetId skel.messageId, deletedAtMs⟩)
      [⟨.messageDeleted, skel.conversationId, some skel.messageId,
        encodeDeleteEventPayload skel.messageId scope.label, deletedAtMs⟩] where
  backup := by
    show (insertMediaDeleted _ skel deletedAtMs _).backupJournal.typedEvents = _
    rw [insertMediaDeleted_typedEvents, typedEvents_insertBackupEvent, List.append_assoc]
    cases scope <;> rfl
  archive := by
    obtain ⟨journal, h⟩ := insertMediaDeleted_eq
      ((eraseRows db skel.messageId scope deletedAtMs).insertBackupEvent "message_deleted" skel.conversationId
        skel.messageId (encodeDeleteEventPayload skel.messageId scope.label) deletedAtMs)
      skel deletedAtMs (db.listMediaAssetsByMessage skel.messageId)
    have hwrite := congrArg (fun d => d.archiveJournal ++ [(⟨.messageDeleted, skel.conversationId,
      some skel.messageId, encodeDeleteEventPayload skel.messageId scope.label, deletedAtMs⟩ : ArchiveEvent)]) h
    cases scope <;> exact hwrite
  readable hread := by
    have herased : ReadableJournal (eraseRows db skel.messageId scope deletedAtMs) := by
      cases scope <;> exact hread
    exact insertMediaDeleted_readable _ (readableJournal_insertBackupEvent herased _ _ _ _ _)

/-- **The view a delete leaves**: the tombstone, no index row, and a body only if the delete was local. -/
theorem view_deleteInnerTx {skel : MessageSkeleton} (scope : DeleteScope) (deletedAtMs : Int)
    (hskel : db.skeletons.find? skel.messageId = some skel) :
    (deleteInnerTx db skel scope deletedAtMs).view skel.messageId =
      ⟨some { skel with bodyState := scope.target, deletedAtMs := some deletedAtMs },
        match scope with
        | .forMe => db.bodies.find? skel.messageId
        | .forEveryone => none, [], [], []⟩ := by
  obtain ⟨journal, archive, h⟩ := deleteInnerTx_eq db skel scope deletedAtMs
  rw [h]
  show (eraseRows db skel.messageId scope deletedAtMs).view skel.messageId = _
  cases scope with
  | forMe =>
      simp only [eraseRows, LocalStoreDb.updateSkeletonDeleted, LocalStoreDb.view_removeMessage,
        LocalStoreDb.view_deleteVectorRow, LocalStoreDb.view_deleteFtsRow, LocalStoreDb.view_updateSkeleton, if_true, hskel,
        Option.map_some]
      rfl
  | forEveryone =>
      simp only [eraseRows, LocalStoreDb.updateSkeletonDeleted, LocalStoreDb.view_removeMessage,
        LocalStoreDb.view_deleteVectorRow, LocalStoreDb.view_deleteFtsRow, LocalStoreDb.view_updateSkeleton,
        LocalStoreDb.view_deleteMessageBody, if_true, hskel, Option.map_some]

theorem view_deleteInnerTx_of_ne {skel : MessageSkeleton} {scope : DeleteScope} {deletedAtMs : Int}
    (hm : m ≠ skel.messageId) : (deleteInnerTx db skel scope deletedAtMs).view m = db.view m := by
  have hrow : skel.messageId.toText ≠ m.toText := fun h => hm (Uuid.toText_inj.mp h).symm
  obtain ⟨journal, archive, h⟩ := deleteInnerTx_eq db skel scope deletedAtMs
  rw [h]
  show (eraseRows db skel.messageId scope deletedAtMs).view m = _
  cases scope with
  | forMe =>
      simp only [eraseRows, LocalStoreDb.updateSkeletonDeleted, LocalStoreDb.view_removeMessage,
        LocalStoreDb.view_deleteVectorRow, LocalStoreDb.view_deleteFtsRow, LocalStoreDb.view_updateSkeleton, if_neg hrow,
        if_neg (Ne.symm hm)]
  | forEveryone =>
      simp only [eraseRows, LocalStoreDb.updateSkeletonDeleted, LocalStoreDb.view_removeMessage,
        LocalStoreDb.view_deleteVectorRow, LocalStoreDb.view_deleteFtsRow, LocalStoreDb.view_updateSkeleton,
        LocalStoreDb.view_deleteMessageBody, if_neg hrow, if_neg (Ne.symm hm)]

/-! The texts they leave. -/

/-- The texts after a message is created. -/
theorem Creates.liveText {skel : MessageSkeleton} {text : Option String} (h : Creates db db' skel text)
    (hlive : skel.bodyState.deleted = false) (m : Uuid) :
    db'.liveText m = if m = skel.messageId then text else db.liveText m := by
  by_cases hm : m = skel.messageId
  · rw [if_pos hm, hm, LocalStoreDb.liveText, h.skeleton, h.body, Option.bind_some, hlive]
    cases text <;> rfl
  · rw [if_neg hm]
    exact LocalStoreDb.liveText_of_view (h.others m hm)

/-- Rows that hang off a message do not change a text. -/
theorem HangsOff.liveText {k : Uuid} (h : HangsOff k db db') (m : Uuid) : db'.liveText m = db.liveText m := by
  rw [LocalStoreDb.liveText, LocalStoreDb.liveText, h.skeletons, h.bodies]

/-- The texts after a delete. -/
theorem liveText_deleteInnerTx {skel : MessageSkeleton} {scope : DeleteScope} {ms : Int}
    (hskel : db.skeletons.find? skel.messageId = some skel) (m : Uuid) :
    (deleteInnerTx db skel scope ms).liveText m = if m = skel.messageId then none else db.liveText m := by
  by_cases hm : m = skel.messageId
  · have htombstone : (deleteInnerTx db skel scope ms).skeletons.find? skel.messageId =
        some { skel with bodyState := scope.target, deletedAtMs := some ms } :=
      congrArg MessageView.skeleton (view_deleteInnerTx scope ms hskel)
    rw [if_pos hm, hm, LocalStoreDb.liveText, htombstone]
    cases scope <;> rfl
  · rw [if_neg hm]
    exact LocalStoreDb.liveText_of_view (view_deleteInnerTx_of_ne hm)

/-- The texts after an edit. -/
theorem liveText_editMessageInner {skel : MessageSkeleton} {newText : String} {ms : Int}
    (hskel : db.skeletons.find? skel.messageId = some skel) (hstate : skel.bodyState = .localPlainAvailable) (m : Uuid) :
    (editMessageInner F db skel newText ms).liveText m =
      if m = skel.messageId then (db.bodies.find? m).map fun _ => newText else db.liveText m := by
  by_cases hm : m = skel.messageId
  · have hlive : ({ skel with editedAtMs := some ms } : MessageSkeleton).bodyState.deleted = false := by
      show skel.bodyState.deleted = false
      rw [hstate]
      rfl
    rw [if_pos hm, hm, LocalStoreDb.liveText, editMessageInner_skeleton hskel, editMessageInner_body, Option.bind_some,
      hlive]
    cases db.bodies.find? skel.messageId <;> rfl
  · rw [if_neg hm]
    exact LocalStoreDb.liveText_of_view (view_editMessageInner_of_ne hm)

end Calls

end KChatCore.Message
