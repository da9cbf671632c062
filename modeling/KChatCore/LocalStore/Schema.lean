import KChatCore.Backup.EventJournal
import KChatCore.Lib.Table
import KChatCore.LocalStore.StateMachines
import KChatCore.Search.Tokenizer

/-!
# `LocalStore.Schema` — the tables of the local store

Rows follow the schema's columns. Ids that are only ever written from a typed id are `Uuid`s; the index tables hold
an `IdText`, since a page of a document is indexed under `{message_id}#page{n}`, which parses as no id.

`LocalStoreDb` holds the tables. Primary keys are part of a table's type and the foreign keys (`PRAGMA foreign_keys`
is on) are fields, so a store that breaks one cannot be built.
-/

namespace KChatCore.LocalStore

open Lib

/-- `MessageKind`. -/
inductive MessageKind
  | text
  | media
  | system
deriving DecidableEq, Repr

/-- `MessageKind::as_str`. -/
def MessageKind.asStr : MessageKind → String
  | text => "text"
  | media => "media"
  | system => "system"

/-- A `conversation` row, with the columns a message or a search touches. -/
structure Conversation where
  conversationId : Uuid
  lastMessageId : Option Uuid
  lastActivityMs : Int
  scope : String
  tenantId : String
  communityId : String
  domainId : String
deriving DecidableEq, Repr

/-- A `message_skeleton` row. -/
structure MessageSkeleton where
  messageId : Uuid
  conversationId : Uuid
  senderId : String
  createdAtMs : Int
  receivedAtMs : Int
  kind : MessageKind
  bodyState : BodyState
  mediaState : Option MediaState
  archiveState : ArchiveState
  backupState : BackupState
  replyTo : Option Uuid
  editedAtMs : Option Int
  deletedAtMs : Option Int
deriving DecidableEq, Repr

/-- A `message_body` row. -/
structure MessageBody where
  messageId : Uuid
  textContent : Option String
  detectedLanguage : Option String
  richMeta : Option Bytes
deriving DecidableEq, Repr

/-- A `media_asset` row. -/
structure MediaAsset where
  assetId : Uuid
  messageId : Uuid
  mimeType : String
  bytesTotal : Int
  bytesLocal : Int
  mediaState : MediaState
  wrappedKAsset : Bytes
  chunkCount : Int
  merkleRoot : Bytes
  blobId : Uuid
  storageSink : String
deriving DecidableEq, Repr

/-- A `search_fts` row; the table has no key. -/
structure FtsRow where
  messageId : IdText
  conversationId : Uuid
  senderId : String
  createdAtMs : Int
  textContent : String
deriving DecidableEq, Repr

/-- A `search_fuzzy` row; all of it is the key. -/
structure FuzzyRow where
  token : String
  script : String
  messageId : IdText
deriving DecidableEq, Repr

/-- The key of a `search_fuzzy` row. -/
def FuzzyRow.key (r : FuzzyRow) : String × String × IdText := (r.token, r.script, r.messageId)

/-- A `search_vector` row. -/
structure VectorRow where
  messageId : IdText
  embedding : Bytes
  modelVersion : String
deriving DecidableEq, Repr

/-- The key of a `search_vector` row. -/
def VectorRow.key (r : VectorRow) : IdText × String := (r.messageId, r.modelVersion)

/-- A `media_search_index` row. -/
structure MediaSearchRow where
  assetId : Uuid
  kind : String
  text : String
  language : Option String
deriving DecidableEq, Repr

/-- The key of a `media_search_index` row. -/
def MediaSearchRow.key (r : MediaSearchRow) : Uuid × String × String := (r.assetId, r.kind, r.text)

/-- **The local store.** -/
structure LocalStoreDb where
  conversations : Table Conversation.conversationId
  skeletons : Table MessageSkeleton.messageId
  bodies : Table MessageBody.messageId
  assets : Table MediaAsset.assetId
  fts : List FtsRow
  fuzzy : Table FuzzyRow.key
  vectors : Table VectorRow.key
  mediaSearch : Table MediaSearchRow.key
  backupJournal : Backup.JournalTable
  archiveJournal : List ArchiveEvent
  skeletonRefers : Table.Refers MessageSkeleton.conversationId skeletons conversations
  bodyRefers : Table.Refers MessageBody.messageId bodies skeletons
  assetRefers : Table.Refers MediaAsset.messageId assets skeletons
  mediaSearchRefers : Table.Refers MediaSearchRow.assetId mediaSearch assets

namespace LocalStoreDb

/-- A fresh store in which only conversations are registered. -/
def fresh (conversations : Table Conversation.conversationId) : LocalStoreDb where
  conversations := conversations
  skeletons := Table.empty
  bodies := Table.empty
  assets := Table.empty
  fts := []
  fuzzy := Table.empty
  vectors := Table.empty
  mediaSearch := Table.empty
  backupJournal := Backup.JournalTable.empty
  archiveJournal := []
  skeletonRefers := Table.refers_empty
  bodyRefers := Table.refers_empty
  assetRefers := Table.refers_empty
  mediaSearchRefers := Table.refers_empty

/-- Whether a message is there and deleted, and how. -/
def deletedAs (db : LocalStoreDb) (m : Uuid) (state : BodyState) : Prop :=
  state.deleted = true ∧ ∃ skel, db.skeletons.find? m = some skel ∧ skel.bodyState = state

/-- Whether a message is there and deleted. -/
def isDeleted (db : LocalStoreDb) (m : Uuid) : Bool := ((db.skeletons.find? m).map (·.bodyState.deleted)).getD false

theorem isDeleted_iff {db : LocalStoreDb} {m : Uuid} : db.isDeleted m = true ↔ ∃ state, db.deletedAs m state := by
  unfold isDeleted deletedAs
  cases db.skeletons.find? m with
  | none => simp
  | some skel => simp

/-- A message without a row under its own id in any of the three index tables. -/
def unindexed (db : LocalStoreDb) (m : Uuid) : Prop :=
  (∀ r ∈ db.fts, r.messageId ≠ m.toText) ∧ (∀ r ∈ db.fuzzy.rows, r.messageId ≠ m.toText) ∧
    ∀ r ∈ db.vectors.rows, r.messageId ≠ m.toText

end LocalStoreDb

end KChatCore.LocalStore
