import KChatCore.LocalStore.Db
import KChatCore.Message.Payload
import KChatCore.Message.Platform

/-!
# `Message.Processor` — ingest, outbox, edit and delete

Each call of the persister runs in one savepoint: it returns the store it leaves, or an error, and then the store is
the one it found (`settle`). Clock readings are arguments.

A message that arrives is journaled twice, `message_received` for the backup and `MessageReceived` for the archive. A
message that is sent gets the backup tag `outbox_pending`.
-/

namespace KChatCore.Message

open Lib LocalStore

/-! ## Errors -/

/-- `ProcessorError`. -/
inductive ProcessorError
  | invalidMessage (msg : String)
  | duplicateMessage
  | storageError (msg : String)
  | db (e : DbError)
  | illegalTransition (e : StateTransitionError)
deriving DecidableEq, Repr

/-- The `Display` form. -/
def ProcessorError.display : ProcessorError → String
  | invalidMessage msg => "invalid message: " ++ msg
  | duplicateMessage => "duplicate message"
  | storageError msg => "storage: " ++ msg
  | db e => "db: " ++ e.display
  | illegalTransition e => "illegal state transition: " ++ e.display

/-- `?` on a `DbResult`. -/
def liftDb {α : Type} (r : Except DbError α) : Except ProcessorError α := r.mapError .db

theorem liftDb_eq_ok {α : Type} {r : Except DbError α} {a : α} : liftDb r = .ok a ↔ r = .ok a := by
  cases r <;> simp [liftDb, Except.mapError]

/-- What a savepoint leaves: the new store, or the old one after a rollback. -/
def settle {ε : Type} (r : Except ε LocalStoreDb) (db : LocalStoreDb) : LocalStoreDb :=
  match r with
  | .ok db' => db'
  | .error _ => db

@[simp] theorem settle_ok {ε : Type} (db' db : LocalStoreDb) : settle (.ok db' : Except ε LocalStoreDb) db = db' := rfl

@[simp] theorem settle_error {ε : Type} (e : ε) (db : LocalStoreDb) : settle (.error e) db = db := rfl

/-! ## Messages -/

/-- `MediaDescriptor`. -/
structure MediaDescriptor where
  assetId : Uuid
  mimeType : String
  bytesTotal : Nat
  chunkCount : Nat
  merkleRoot : ByteArr 32
  blobId : Uuid
  wrappedKAsset : Bytes
  storageSink : Option String
deriving DecidableEq

/-- `IngestedMessage`. -/
structure IngestedMessage where
  messageId : Uuid
  conversationId : Uuid
  senderId : String
  createdAtMs : Int
  textContent : Option String
  mediaDescriptors : List MediaDescriptor
  replyTo : Option Uuid
deriving DecidableEq

/-- `OutboxEntry`. -/
structure OutboxEntry where
  clientMessageId : Uuid
  conversationId : Uuid
  textContent : String
  replyTo : Option Uuid
  createdAtMs : Int
deriving DecidableEq

/-- `validate_ingest`. -/
def validateIngest (msg : IngestedMessage) : Except ProcessorError Unit :=
  if msg.messageId.isNil then .error (.invalidMessage "message_id must not be nil")
  else if msg.conversationId.isNil then .error (.invalidMessage "conversation_id must not be nil")
  else if msg.senderId.isEmpty then .error (.invalidMessage "sender_id must not be empty")
  else if msg.createdAtMs ≤ 0 then
    .error (.invalidMessage ("created_at_ms must be positive (got " ++ toString msg.createdAtMs ++ ")"))
  else if msg.textContent.isNone && msg.mediaDescriptors.isEmpty then
    .error (.invalidMessage "message has neither text nor media")
  else if (msg.textContent.map String.isEmpty).getD false then
    .error (.invalidMessage "text_content must not be empty when present")
  else .ok ()

/-! ## Rows -/

/-- The skeleton of a message that arrived. -/
def IngestedMessage.skeleton (msg : IngestedMessage) (kind : MessageKind) (receivedAtMs : Int) : MessageSkeleton where
  messageId := msg.messageId
  conversationId := msg.conversationId
  senderId := msg.senderId
  createdAtMs := msg.createdAtMs
  receivedAtMs := receivedAtMs
  kind := kind
  bodyState := .localPlainAvailable
  mediaState := if msg.mediaDescriptors.isEmpty then none else some .thumbnailOnly
  archiveState := .notArchived
  backupState := .notBackedUp
  replyTo := msg.replyTo
  editedAtMs := none
  deletedAtMs := none

/-- The asset row of a descriptor; the counts go through `as i64` and `as i32`. -/
def MediaDescriptor.asset (desc : MediaDescriptor) (messageId : Uuid) (bytesLocal : Int) : MediaAsset where
  assetId := desc.assetId
  messageId := messageId
  mimeType := desc.mimeType
  bytesTotal := wrapI64 desc.bytesTotal
  bytesLocal := bytesLocal
  mediaState := .thumbnailOnly
  wrappedKAsset := desc.wrappedKAsset
  chunkCount := Int.bmod desc.chunkCount (2 ^ 32)
  merkleRoot := desc.merkleRoot.toList
  blobId := desc.blobId
  storageSink := desc.storageSink.getD "kchat_backend"

/-- The skeleton of a message that is sent as text. -/
def OutboxEntry.skeleton (entry : OutboxEntry) : MessageSkeleton where
  messageId := entry.clientMessageId
  conversationId := entry.conversationId
  senderId := "self"
  createdAtMs := entry.createdAtMs
  receivedAtMs := entry.createdAtMs
  kind := .text
  bodyState := .localPlainAvailable
  mediaState := none
  archiveState := .notArchived
  backupState := .notBackedUp
  replyTo := entry.replyTo
  editedAtMs := none
  deletedAtMs := none

/-- `insert_fts_row`. -/
def insertFtsRow (db : LocalStoreDb) (skel : MessageSkeleton) (text : String) : LocalStoreDb :=
  db.insertFtsRow ⟨skel.messageId.toText, skel.conversationId, skel.senderId, skel.createdAtMs, text⟩

/-- The body of a new message and its rows in the two text indexes. -/
def insertText (F : Platform) (db : LocalStoreDb) (skel : MessageSkeleton) (text : String) :
    Except DbError LocalStoreDb := do
  let db ← db.insertMessageBody ⟨skel.messageId, some text, none, none⟩
  return (insertFtsRow db skel text).indexMessage F.toLowercase skel.messageId.toText text

/-- The text of a message that may have none. -/
def insertTextIfAny (F : Platform) (db : LocalStoreDb) (skel : MessageSkeleton) : Option String → Except DbError LocalStoreDb
  | some text => insertText F db skel text
  | none => .ok db

/-- The asset rows of a message, one after the other. -/
def insertAssets (db : LocalStoreDb) (messageId : Uuid) : List MediaDescriptor → Except DbError LocalStoreDb
  | [] => .ok db
  | desc :: descs => do
      let db ← db.insertMediaAsset (desc.asset messageId 0)
      insertAssets db messageId descs

/-! ## Ingest and outbox -/

/-- The kind of a message that arrived: media goes first. -/
def IngestedMessage.kind (msg : IngestedMessage) : Except ProcessorError MessageKind :=
  if !msg.mediaDescriptors.isEmpty then .ok .media
  else if msg.textContent.isSome then .ok .text
  else .error (.invalidMessage "message has neither text nor media")

/-- `persist_ingested_message_inner`. -/
def persistIngestedMessageInner (F : Platform) (db : LocalStoreDb) (msg : IngestedMessage)
    (receivedAtMs journaledAtMs : Int) : Except ProcessorError LocalStoreDb := do
  let kind ← msg.kind
  let skel := msg.skeleton kind receivedAtMs
  let db ← liftDb (db.insertMessageSkeleton skel)
  let db ← liftDb (insertAssets db skel.messageId msg.mediaDescriptors)
  let db ← liftDb (insertTextIfAny F db skel msg.textContent)
  let db := db.updateConversationLastMessage skel.conversationId skel.messageId skel.createdAtMs
  let payload := encodeEventPayload skel.messageId skel.conversationId skel.senderId skel.createdAtMs
  let db := db.insertBackupEvent "message_received" skel.conversationId skel.messageId payload journaledAtMs
  return db.writeArchiveEvent ⟨.messageReceived, msg.conversationId, some msg.messageId,
    encodeBodyPayload F.primitives msg.textContent, skel.createdAtMs⟩

/-- `persist_ingested_message`. -/
def persistIngestedMessage (F : Platform) (db : LocalStoreDb) (msg : IngestedMessage) (receivedAtMs journaledAtMs : Int) :
    Except ProcessorError LocalStoreDb := do
  validateIngest msg
  if db.skeletons.has msg.messageId then .error .duplicateMessage
  else persistIngestedMessageInner F db msg receivedAtMs journaledAtMs

/-- `persist_outbox_entry_inner`. -/
def persistOutboxEntryInner (F : Platform) (db : LocalStoreDb) (entry : OutboxEntry) (journaledAtMs : Int) :
    Except ProcessorError LocalStoreDb := do
  let skel := entry.skeleton
  let db ← liftDb (db.insertMessageSkeleton skel)
  let db ← liftDb (insertText F db skel entry.textContent)
  let db := db.updateConversationLastMessage skel.conversationId skel.messageId entry.createdAtMs
  let payload := encodeEventPayload skel.messageId skel.conversationId "self" entry.createdAtMs
  let db := db.insertBackupEvent "outbox_pending" skel.conversationId skel.messageId payload journaledAtMs
  return db.writeArchiveEvent ⟨.messageReceived, entry.conversationId, some entry.clientMessageId,
    encodeBodyPayload F.primitives (some entry.textContent), entry.createdAtMs⟩

/-- `persist_outbox_entry`. -/
def persistOutboxEntry (F : Platform) (db : LocalStoreDb) (entry : OutboxEntry) (journaledAtMs : Int) :
    Except ProcessorError LocalStoreDb :=
  if entry.textContent.isEmpty then .error (.invalidMessage "outbox text_content must not be empty")
  else if entry.clientMessageId.getVersionNum ≠ 7 then .error (.invalidMessage "client_message_id must be a UUID v7")
  else if db.skeletons.has entry.clientMessageId then .error .duplicateMessage
  else persistOutboxEntryInner F db entry journaledAtMs

/-- `mark_sent`. -/
def markSent (db : LocalStoreDb) (clientMessageId : Uuid) (journaledAtMs : Int) : Except ProcessorError LocalStoreDb :=
  match db.getMessageSkeleton clientMessageId with
  | none => .error (.invalidMessage ("no outbox entry with client_message_id=" ++ clientMessageId.hyphenated))
  | some skel =>
      let payload := encodeEventPayload clientMessageId skel.conversationId skel.senderId skel.createdAtMs
      .ok (db.insertBackupEvent "outbox_sent" skel.conversationId clientMessageId payload journaledAtMs)

/-! ## Edit -/

/-- `edit_message_inner`. -/
def editMessageInner (F : Platform) (db : LocalStoreDb) (skel : MessageSkeleton) (newText : String) (editedAtMs : Int) :
    LocalStoreDb :=
  let m := skel.messageId
  let db := db.updateMessageBodyText m newText
  let db := db.updateSkeletonEdited m editedAtMs
  let db := db.deleteFtsRow m.toText
  let db := insertFtsRow db skel newText
  let db := db.removeMessage m.toText
  let db := db.indexMessage F.toLowercase m.toText newText
  let db := db.deleteVectorRow m.toText
  let db := db.insertBackupEvent "message_edited" skel.conversationId m (encodeEditEventPayload m editedAtMs) editedAtMs
  db.writeArchiveEvent ⟨.messageEdited, skel.conversationId, some m, encodeBodyPayload F.primitives (some newText),
    editedAtMs⟩

/-- `edit_message`. -/
def editMessage (F : Platform) (db : LocalStoreDb) (m : Uuid) (newText : String) (editedAtMs : Int) :
    Except ProcessorError LocalStoreDb :=
  if newText.isEmpty then .error (.invalidMessage "edit text_content must not be empty")
  else
    match db.getMessageSkeleton m with
    | none => .error (.invalidMessage ("no message with id=" ++ m.hyphenated))
    | some skel =>
        if skel.bodyState ≠ .localPlainAvailable then
          .error (.invalidMessage ("edit requires body_state=local_plain_available, found " ++ skel.bodyState.display))
        else .ok (editMessageInner F db skel newText editedAtMs)

/-! ## Delete -/

/-- `DeleteScope`. -/
inductive DeleteScope
  | forMe
  | forEveryone
deriving DecidableEq, Repr

/-- `DeleteScope::label`. -/
def DeleteScope.label : DeleteScope → String
  | forMe => "for_me"
  | forEveryone => "for_everyone"

/-- The state a delete asks for. -/
def DeleteScope.target : DeleteScope → BodyState
  | forMe => .deletedForMe
  | forEveryone => .deletedForEveryone

/-- One `media_deleted` event for each asset. -/
def insertMediaDeleted (db : LocalStoreDb) (skel : MessageSkeleton) (deletedAtMs : Int) (assets : List MediaAsset) :
    LocalStoreDb :=
  assets.foldl (fun db asset => db.insertBackupEvent "media_deleted" skel.conversationId skel.messageId
    (encodeMediaDeleteEventPayload asset.assetId skel.messageId) deletedAtMs) db

/-- The tables of `delete_inner_tx`, before its journal entries. -/
def eraseRows (db : LocalStoreDb) (m : Uuid) (scope : DeleteScope) (deletedAtMs : Int) : LocalStoreDb :=
  let db := db.updateSkeletonDeleted m deletedAtMs scope.target
  let db := db.deleteFtsRow m.toText
  let db := db.deleteVectorRow m.toText
  let db := db.removeMessage m.toText
  match scope with
  | .forMe => db
  | .forEveryone => db.deleteMessageBody m

/-- `delete_inner_tx`. -/
def deleteInnerTx (db : LocalStoreDb) (skel : MessageSkeleton) (scope : DeleteScope) (deletedAtMs : Int) : LocalStoreDb :=
  let m := skel.messageId
  let db := eraseRows db m scope deletedAtMs
  let payload := encodeDeleteEventPayload m scope.label
  let db := db.insertBackupEvent "message_deleted" skel.conversationId m payload deletedAtMs
  let db := insertMediaDeleted db skel deletedAtMs (db.listMediaAssetsByMessage m)
  db.writeArchiveEvent ⟨.messageDeleted, skel.conversationId, some m, payload, deletedAtMs⟩

/-- `delete_inner`. -/
def deleteInner (db : LocalStoreDb) (m : Uuid) (scope : DeleteScope) (deletedAtMs : Int) :
    Except ProcessorError LocalStoreDb :=
  match db.getMessageSkeleton m with
  | none => .error (.invalidMessage ("no message with id=" ++ m.hyphenated))
  | some skel =>
      match BodyState.tryTransition skel.bodyState scope.target with
      | .error e => .error (.illegalTransition e)
      | .ok _ => .ok (deleteInnerTx db skel scope deletedAtMs)

/-- `delete_for_me`. -/
def deleteForMe (db : LocalStoreDb) (m : Uuid) (deletedAtMs : Int) : Except ProcessorError LocalStoreDb :=
  deleteInner db m .forMe deletedAtMs

/-- `delete_for_everyone`. -/
def deleteForEveryone (db : LocalStoreDb) (m : Uuid) (deletedAtMs : Int) : Except ProcessorError LocalStoreDb :=
  deleteInner db m .forEveryone deletedAtMs

end KChatCore.Message
