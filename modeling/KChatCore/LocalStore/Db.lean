import KChatCore.LocalStore.Schema

/-!
# `LocalStore.Db` — the statements of the local store

Every write is a function of the store. The ones a key or a reference can reject return an error and are described by
an `_eq_ok` lemma: when they succeed, and what they leave.

`view` is all the store holds under one message id. Each write changes the view of the message it names and no
other: the `view_*` lemmas say how.
-/

namespace KChatCore.LocalStore

open Lib

/-- `DbError`, as the modelled statements return it. -/
inductive DbError
  | rusqlite (msg : String)
  | invalidState (msg : String)
deriving DecidableEq, Repr

/-- The `Display` form. -/
def DbError.display : DbError → String
  | rusqlite msg => "rusqlite: " ++ msg
  | invalidState msg => "invalid state value: " ++ msg

namespace LocalStoreDb

/-! ## Statements a constraint can reject -/

/-- A skeleton under a free id, of a registered conversation. -/
def addSkeleton (db : LocalStoreDb) (skel : MessageSkeleton) (hfree : db.skeletons.has skel.messageId = false)
    (hconv : db.conversations.has skel.conversationId = true) : LocalStoreDb :=
  { db with
    skeletons := db.skeletons.append skel hfree
    skeletonRefers := db.skeletonRefers.append_child hfree (Table.has_iff.mp hconv)
    bodyRefers := db.bodyRefers.append_parent hfree
    assetRefers := db.assetRefers.append_parent hfree }

/-- `insert_message_skeleton`. -/
def insertMessageSkeleton (db : LocalStoreDb) (skel : MessageSkeleton) : Except DbError LocalStoreDb :=
  if hfree : db.skeletons.has skel.messageId = false then
    if hconv : db.conversations.has skel.conversationId = true then .ok (db.addSkeleton skel hfree hconv)
    else .error (.rusqlite "FOREIGN KEY constraint failed")
  else .error (.rusqlite "UNIQUE constraint failed: message_skeleton.message_id")

/-- `upsert_skeleton_from_archive`: a row that is there wins; the flag says whether the row is new. -/
def upsertSkeletonFromArchive (db : LocalStoreDb) (skel : MessageSkeleton) : Except DbError (LocalStoreDb × Bool) :=
  if hfree : db.skeletons.has skel.messageId = false then
    if hconv : db.conversations.has skel.conversationId = true then .ok (db.addSkeleton skel hfree hconv, true)
    else .error (.rusqlite "FOREIGN KEY constraint failed")
  else .ok (db, false)

/-- A body under a free id, of a message that is there. -/
def addBody (db : LocalStoreDb) (body : MessageBody) (hfree : db.bodies.has body.messageId = false)
    (hskel : db.skeletons.has body.messageId = true) : LocalStoreDb :=
  { db with
    bodies := db.bodies.append body hfree
    bodyRefers := db.bodyRefers.append_child hfree (Table.has_iff.mp hskel) }

/-- `insert_message_body`. -/
def insertMessageBody (db : LocalStoreDb) (body : MessageBody) : Except DbError LocalStoreDb :=
  if hfree : db.bodies.has body.messageId = false then
    if hskel : db.skeletons.has body.messageId = true then .ok (db.addBody body hfree hskel)
    else .error (.rusqlite "FOREIGN KEY constraint failed")
  else .error (.rusqlite "UNIQUE constraint failed: message_body.message_id")

/-- An asset under a free id, of a message that is there. -/
def addAsset (db : LocalStoreDb) (asset : MediaAsset) (hfree : db.assets.has asset.assetId = false)
    (hskel : db.skeletons.has asset.messageId = true) : LocalStoreDb :=
  { db with
    assets := db.assets.append asset hfree
    assetRefers := db.assetRefers.append_child hfree (Table.has_iff.mp hskel)
    mediaSearchRefers := db.mediaSearchRefers.append_parent hfree }

/-- `insert_media_asset`. -/
def insertMediaAsset (db : LocalStoreDb) (asset : MediaAsset) : Except DbError LocalStoreDb :=
  if hfree : db.assets.has asset.assetId = false then
    if hskel : db.skeletons.has asset.messageId = true then .ok (db.addAsset asset hfree hskel)
    else .error (.rusqlite "FOREIGN KEY constraint failed")
  else .error (.rusqlite "UNIQUE constraint failed: media_asset.asset_id")

/-- `insert_media_search_index`: the same text of the same asset is ignored. -/
def insertMediaSearchIndex (db : LocalStoreDb) (row : MediaSearchRow) : Except DbError LocalStoreDb :=
  if hasset : db.assets.has row.assetId = true then
    .ok { db with
      mediaSearch := db.mediaSearch.insertOrIgnore row
      mediaSearchRefers := db.mediaSearchRefers.insertOrIgnore_child (Table.has_iff.mp hasset) }
  else if db.mediaSearch.has row.key then .ok db
  else .error (.rusqlite "FOREIGN KEY constraint failed")

/-! ## Statements that always succeed -/

/-- `INSERT INTO search_fts`. -/
def insertFtsRow (db : LocalStoreDb) (row : FtsRow) : LocalStoreDb := { db with fts := db.fts ++ [row] }

/-- `delete_fts_row`. -/
def deleteFtsRow (db : LocalStoreDb) (messageId : IdText) : LocalStoreDb :=
  { db with fts := db.fts.filter fun r => r.messageId ≠ messageId }

/-- `FuzzyIndexWriter::index_message`. -/
def indexMessage (toLowercase : Char → List Char) (db : LocalStoreDb) (messageId : IdText) (text : String) : LocalStoreDb :=
  { db with
    fuzzy := (Search.generateTokens toLowercase text).foldl
      (fun t token => t.insertOrIgnore ⟨token.token, token.script.toIso15924, messageId⟩) db.fuzzy }

/-- `FuzzyIndexWriter::remove_message`. -/
def removeMessage (db : LocalStoreDb) (messageId : IdText) : LocalStoreDb :=
  { db with fuzzy := db.fuzzy.delete fun r => r.messageId = messageId }

/-- `LocalStoreEmbeddingCache::get`, as whether there is a vector. -/
def hasVector (db : LocalStoreDb) (messageId : IdText) (modelVersion : String) : Bool :=
  db.vectors.has (messageId, modelVersion)

/-- `LocalStoreEmbeddingCache::put`: the vector of a key is replaced. -/
def putVector (db : LocalStoreDb) (messageId : IdText) (modelVersion : String) (embedding : Bytes) : LocalStoreDb :=
  { db with
    vectors := (db.vectors.update (fun r => r.key = (messageId, modelVersion)) (fun r => { r with embedding := embedding })
      fun _ => rfl).insertOrIgnore ⟨messageId, embedding, modelVersion⟩ }

/-- `delete_vector_row`. -/
def deleteVectorRow (db : LocalStoreDb) (messageId : IdText) : LocalStoreDb :=
  { db with vectors := db.vectors.delete fun r => r.messageId = messageId }

/-- `UPDATE message_skeleton SET f WHERE message_id = m`; `f` does not touch the ids. -/
def updateSkeleton (db : LocalStoreDb) (m : Uuid) (f : MessageSkeleton → MessageSkeleton)
    (hid : ∀ r, (f r).messageId = r.messageId) (hconv : ∀ r, (f r).conversationId = r.conversationId) : LocalStoreDb :=
  { db with
    skeletons := db.skeletons.update (fun r => r.messageId = m) f hid
    skeletonRefers := db.skeletonRefers.update_child hconv
    bodyRefers := db.bodyRefers.update_parent
    assetRefers := db.assetRefers.update_parent }

/-- `update_body_state`, and the same statement inside `rehydrate_message_body`. -/
def updateBodyState (db : LocalStoreDb) (m : Uuid) (newState : BodyState) : LocalStoreDb :=
  db.updateSkeleton m (fun r => { r with bodyState := newState }) (fun _ => rfl) fun _ => rfl

/-- `update_skeleton_edited`. -/
def updateSkeletonEdited (db : LocalStoreDb) (m : Uuid) (editedAtMs : Int) : LocalStoreDb :=
  db.updateSkeleton m (fun r => { r with editedAtMs := some editedAtMs }) (fun _ => rfl) fun _ => rfl

/-- `update_skeleton_deleted`. -/
def updateSkeletonDeleted (db : LocalStoreDb) (m : Uuid) (deletedAtMs : Int) (newBodyState : BodyState) : LocalStoreDb :=
  db.updateSkeleton m (fun r => { r with bodyState := newBodyState, deletedAtMs := some deletedAtMs }) (fun _ => rfl)
    fun _ => rfl

/-- `update_message_body_text`. -/
def updateMessageBodyText (db : LocalStoreDb) (m : Uuid) (newText : String) : LocalStoreDb :=
  { db with
    bodies := db.bodies.update (fun r => r.messageId = m) (fun r => { r with textContent := some newText }) fun _ => rfl
    bodyRefers := db.bodyRefers.update_child fun _ => rfl }

/-- `delete_message_body`. -/
def deleteMessageBody (db : LocalStoreDb) (m : Uuid) : LocalStoreDb :=
  { db with
    bodies := db.bodies.delete fun r => r.messageId = m
    bodyRefers := db.bodyRefers.delete_child }

/-- `UPDATE media_asset SET f WHERE asset_id = assetId`; `f` does not touch the ids. -/
def updateAsset (db : LocalStoreDb) (assetId : Uuid) (f : MediaAsset → MediaAsset)
    (hid : ∀ r, (f r).assetId = r.assetId) (hmessage : ∀ r, (f r).messageId = r.messageId) : LocalStoreDb :=
  { db with
    assets := db.assets.update (fun r => r.assetId = assetId) f hid
    assetRefers := db.assetRefers.update_child hmessage
    mediaSearchRefers := db.mediaSearchRefers.update_parent }

/-- `update_media_state`. -/
def updateMediaState (db : LocalStoreDb) (assetId : Uuid) (newState : MediaState) : LocalStoreDb :=
  db.updateAsset assetId (fun r => { r with mediaState := newState }) (fun _ => rfl) fun _ => rfl

/-- `UPDATE media_asset SET bytes_local`. -/
def updateBytesLocal (db : LocalStoreDb) (assetId : Uuid) (bytesLocal : Int) : LocalStoreDb :=
  db.updateAsset assetId (fun r => { r with bytesLocal := bytesLocal }) (fun _ => rfl) fun _ => rfl

/-- `update_media_storage_sink`. -/
def updateMediaStorageSink (db : LocalStoreDb) (assetId : Uuid) (newSink : String) (newBlobId : Uuid) : LocalStoreDb :=
  db.updateAsset assetId (fun r => { r with storageSink := newSink, blobId := newBlobId }) (fun _ => rfl) fun _ => rfl

/-- `update_conversation_last_message`: an older activity does not win. -/
def updateConversationLastMessage (db : LocalStoreDb) (conversationId messageId : Uuid) (activityMs : Int) : LocalStoreDb :=
  { db with
    conversations := db.conversations.update
      (fun r => r.conversationId = conversationId ∧ r.lastActivityMs ≤ activityMs)
      (fun r => { r with lastMessageId := some messageId, lastActivityMs := activityMs }) fun _ => rfl
    skeletonRefers := db.skeletonRefers.update_parent }

/-- `insert_backup_event`. -/
def insertBackupEvent (db : LocalStoreDb) (eventType : String) (conversationId messageId : Uuid) (payload : Bytes)
    (createdAtMs : Int) : LocalStoreDb :=
  { db with
    backupJournal := db.backupJournal.insert eventType (some conversationId.toText) (some messageId.toText) payload
      createdAtMs }

/-- `ArchiveEventJournal::write_event`. -/
def writeArchiveEvent (db : LocalStoreDb) (event : ArchiveEvent) : LocalStoreDb :=
  { db with archiveJournal := db.archiveJournal ++ [event] }

/-! ## Deleting a conversation -/

/-- `message_id IN (SELECT message_id FROM message_skeleton WHERE conversation_id = c)`. -/
def inConversation (db : LocalStoreDb) (c : Uuid) (messageId : IdText) : Bool :=
  db.skeletons.rows.any fun s => s.conversationId = c && s.messageId.toText = messageId

/-- `asset_id IN (SELECT asset_id FROM media_asset WHERE message_id IN (..))`. -/
def assetInConversation (db : LocalStoreDb) (c assetId : Uuid) : Bool :=
  db.assets.rows.any fun a => db.inConversation c a.messageId.toText && a.assetId = assetId

theorem inConversation_toText {db : LocalStoreDb} {c m : Uuid} :
    db.inConversation c m.toText = true ↔ ∃ skel, db.skeletons.find? m = some skel ∧ skel.conversationId = c := by
  simp only [inConversation, List.any_eq_true, Bool.and_eq_true, decide_eq_true_eq, Uuid.toText_inj, Table.find?_eq_some]
  constructor
  · rintro ⟨skel, hmem, hconv, hid⟩
    exact ⟨skel, ⟨hmem, hid⟩, hconv⟩
  · rintro ⟨skel, ⟨hmem, hid⟩, hconv⟩
    exact ⟨skel, hmem, hconv, hid⟩

/-- A message outside the conversation keeps its skeleton. -/
theorem outside_conversation {db : LocalStoreDb} {c m : Uuid} (h : db.inConversation c m.toText = false)
    {skel : MessageSkeleton} (hskel : skel ∈ db.skeletons.rows) (hid : skel.messageId = m) :
    decide (skel.conversationId = c) = false := by
  rw [decide_eq_false_iff_not]
  intro hconv
  have hin : db.inConversation c m.toText = true :=
    inConversation_toText.mpr ⟨skel, Table.find?_eq_some.mpr ⟨hskel, hid⟩, hconv⟩
  rw [h] at hin
  exact Bool.false_ne_true hin

/-- `delete_conversation_inner`: the rows of its messages, bottom up, and then the conversation; the count is that of
the last statement. -/
def deleteConversation (db : LocalStoreDb) (c : Uuid) : LocalStoreDb × Nat :=
  ({ db with
      mediaSearch := db.mediaSearch.delete fun r => db.assetInConversation c r.assetId
      fuzzy := db.fuzzy.delete fun r => db.inConversation c r.messageId
      fts := db.fts.filter fun r => !db.inConversation c r.messageId
      vectors := db.vectors.delete fun r => db.inConversation c r.messageId
      assets := db.assets.delete fun a => db.inConversation c a.messageId.toText
      bodies := db.bodies.delete fun b => db.inConversation c b.messageId.toText
      skeletons := db.skeletons.delete fun s => s.conversationId = c
      conversations := db.conversations.delete fun r => r.conversationId = c
      skeletonRefers := db.skeletonRefers.delete_child.delete_parent (by
        intro s hs conv _ hid
        have houtside := (Table.mem_delete.mp hs).2
        rwa [← hid] at houtside)
      bodyRefers := db.bodyRefers.delete_child.delete_parent (by
        intro b hb s hs hid
        exact outside_conversation (Table.mem_delete.mp hb).2 hs hid)
      assetRefers := db.assetRefers.delete_child.delete_parent (by
        intro a ha s hs hid
        exact outside_conversation (Table.mem_delete.mp ha).2 hs hid)
      mediaSearchRefers := db.mediaSearchRefers.delete_child.delete_parent (by
        intro r hr a ha hid
        have houtside := List.any_eq_false.mp (Table.mem_delete.mp hr).2 a ha
        simpa [hid] using houtside) },
    (db.conversations.rows.filter fun r => r.conversationId = c).length)

/-! ## Reads -/

/-- `get_message_skeleton`. -/
def getMessageSkeleton (db : LocalStoreDb) (m : Uuid) : Option MessageSkeleton := db.skeletons.find? m

/-- `get_message_body`. -/
def getMessageBody (db : LocalStoreDb) (m : Uuid) : Option MessageBody := db.bodies.find? m

/-- `get_media_asset`. -/
def getMediaAsset (db : LocalStoreDb) (assetId : Uuid) : Option MediaAsset := db.assets.find? assetId

/-- `get_media_asset_by_message`: the first one. -/
def getMediaAssetByMessage (db : LocalStoreDb) (m : Uuid) : Option MediaAsset :=
  db.assets.rows.find? fun a => a.messageId = m

/-- `list_media_assets_by_message`. -/
def listMediaAssetsByMessage (db : LocalStoreDb) (m : Uuid) : List MediaAsset :=
  db.assets.rows.filter fun a => a.messageId = m

end LocalStoreDb

/-! ## The view of one message -/

/-- **All the store holds under one message id.** -/
structure MessageView where
  skeleton : Option MessageSkeleton
  body : Option MessageBody
  fts : List FtsRow
  fuzzy : List FuzzyRow
  vectors : List VectorRow

namespace LocalStoreDb

/-- The view of a message. -/
def view (db : LocalStoreDb) (m : Uuid) : MessageView where
  skeleton := db.skeletons.find? m
  body := db.bodies.find? m
  fts := db.fts.filter fun r => r.messageId = m.toText
  fuzzy := db.fuzzy.rows.filter fun r => r.messageId = m.toText
  vectors := db.vectors.rows.filter fun r => r.messageId = m.toText

variable {db db' : LocalStoreDb}

@[simp] theorem view_skeleton (m : Uuid) : (db.view m).skeleton = db.skeletons.find? m := rfl

@[simp] theorem view_body (m : Uuid) : (db.view m).body = db.bodies.find? m := rfl

theorem unindexed_iff_view {m : Uuid} :
    db.unindexed m ↔ (db.view m).fts = [] ∧ (db.view m).fuzzy = [] ∧ (db.view m).vectors = [] := by
  simp [unindexed, view, List.filter_eq_nil_iff]

/-- The text of a message that is not deleted. -/
def liveText (db : LocalStoreDb) (m : Uuid) : Option String :=
  (db.skeletons.find? m).bind fun skel =>
    if skel.bodyState.deleted then none else (db.bodies.find? m).bind MessageBody.textContent

theorem liveText_of_view {m : Uuid} (h : db'.view m = db.view m) : db'.liveText m = db.liveText m := by
  have hskel : db'.skeletons.find? m = db.skeletons.find? m := congrArg MessageView.skeleton h
  have hbody : db'.bodies.find? m = db.bodies.find? m := congrArg MessageView.body h
  rw [liveText, liveText, hskel, hbody]

theorem liveText_eq_some {m : Uuid} {text : String} :
    db.liveText m = some text ↔ ∃ skel body, db.skeletons.find? m = some skel ∧ skel.bodyState.deleted = false ∧
      db.bodies.find? m = some body ∧ body.textContent = some text := by
  unfold liveText
  constructor
  · intro h
    obtain ⟨skel, hskel, h⟩ := Option.bind_eq_some_iff.mp h
    by_cases hdeleted : skel.bodyState.deleted = true
    · rw [if_pos hdeleted] at h
      exact absurd h (by simp)
    · rw [if_neg hdeleted] at h
      obtain ⟨body, hbody, htext⟩ := Option.bind_eq_some_iff.mp h
      exact ⟨skel, body, hskel, Bool.eq_false_iff.mpr hdeleted, hbody, htext⟩
  · rintro ⟨skel, body, hskel, hdeleted, hbody, htext⟩
    rw [hskel, Option.bind_some, hdeleted, hbody, Option.bind_some, htext]
    rfl

/-- A message that is not there has no text. -/
theorem liveText_of_free {m : Uuid} (h : db.skeletons.has m = false) : db.liveText m = none := by
  rw [Table.has, Option.isSome_eq_false_iff, Option.isNone_iff_eq_none] at h
  rw [liveText, h, Option.bind_none]

/-! What the statements do to it. -/

theorem view_addSkeleton (skel : MessageSkeleton) (hfree : db.skeletons.has skel.messageId = false)
    (hconv : db.conversations.has skel.conversationId = true) (m : Uuid) :
    (db.addSkeleton skel hfree hconv).view m =
      if skel.messageId = m then { db.view m with skeleton := some skel } else db.view m := by
  simp only [view, addSkeleton, Table.find?_append]
  by_cases h : skel.messageId = m <;> simp [h]

theorem view_addBody (body : MessageBody) (hfree : db.bodies.has body.messageId = false)
    (hskel : db.skeletons.has body.messageId = true) (m : Uuid) :
    (db.addBody body hfree hskel).view m =
      if body.messageId = m then { db.view m with body := some body } else db.view m := by
  simp only [view, addBody, Table.find?_append]
  by_cases h : body.messageId = m <;> simp [h]

@[simp] theorem view_addAsset (asset : MediaAsset) (hfree : db.assets.has asset.assetId = false)
    (hskel : db.skeletons.has asset.messageId = true) (m : Uuid) : (db.addAsset asset hfree hskel).view m = db.view m :=
  rfl

theorem view_insertFtsRow (row : FtsRow) (m : Uuid) :
    (db.insertFtsRow row).view m =
      if row.messageId = m.toText then { db.view m with fts := (db.view m).fts ++ [row] } else db.view m := by
  simp only [view, insertFtsRow, List.filter_append]
  by_cases h : row.messageId = m.toText <;> simp [h]

theorem view_deleteFtsRow (rowId : IdText) (m : Uuid) :
    (db.deleteFtsRow rowId).view m = if rowId = m.toText then { db.view m with fts := [] } else db.view m := by
  simp only [view, deleteFtsRow, List.filter_filter]
  by_cases h : rowId = m.toText
  · rw [if_pos h, h]
    simp
  · rw [if_neg h]
    congr 1
    apply List.filter_congr
    intro r _
    by_cases hr : r.messageId = m.toText <;> simp [hr, Ne.symm h]

/-- The n-grams of another row. -/
theorem filter_indexRows {tokens : List Search.FuzzyToken} {rowId : IdText} {m : Uuid} (h : rowId ≠ m.toText)
    (t : Table FuzzyRow.key) :
    (tokens.foldl (fun t token => t.insertOrIgnore ⟨token.token, token.script.toIso15924, rowId⟩) t).rows.filter
      (fun r => r.messageId = m.toText) = t.rows.filter fun r => r.messageId = m.toText := by
  induction tokens generalizing t with
  | nil => rfl
  | cons token tokens ih =>
      rw [List.foldl_cons, ih]
      exact t.filter_insertOrIgnore (by simp [h])

theorem view_indexMessage_of_ne {toLowercase : Char → List Char} {rowId : IdText} {m : Uuid} (h : rowId ≠ m.toText)
    (text : String) : (db.indexMessage toLowercase rowId text).view m = db.view m := by
  simp only [view, indexMessage, filter_indexRows h]

theorem view_removeMessage (rowId : IdText) (m : Uuid) :
    (db.removeMessage rowId).view m = if rowId = m.toText then { db.view m with fuzzy := [] } else db.view m := by
  simp only [view, removeMessage, Table.delete, List.filter_filter]
  by_cases h : rowId = m.toText
  · rw [if_pos h, h]
    simp
  · rw [if_neg h]
    congr 1
    apply List.filter_congr
    intro r _
    by_cases hr : r.messageId = m.toText <;> simp [hr, Ne.symm h]

theorem view_deleteVectorRow (rowId : IdText) (m : Uuid) :
    (db.deleteVectorRow rowId).view m = if rowId = m.toText then { db.view m with vectors := [] } else db.view m := by
  simp only [view, deleteVectorRow, Table.delete, List.filter_filter]
  by_cases h : rowId = m.toText
  · rw [if_pos h, h]
    simp
  · rw [if_neg h]
    congr 1
    apply List.filter_congr
    intro r _
    by_cases hr : r.messageId = m.toText <;> simp [hr, Ne.symm h]

theorem view_putVector_of_ne {rowId : IdText} {m : Uuid} (h : rowId ≠ m.toText) (modelVersion : String) (embedding : Bytes) :
    (db.putVector rowId modelVersion embedding).view m = db.view m := by
  simp only [view, putVector]
  congr 1
  rw [Table.filter_insertOrIgnore _ (by simp [h])]
  apply Table.filter_update
  intro r hr
  have hid : r.messageId = rowId := (Prod.mk.inj (of_decide_eq_true hr)).1
  simp [hid, h]

theorem view_updateSkeleton (db : LocalStoreDb) (k : Uuid) (f : MessageSkeleton → MessageSkeleton) (hid : ∀ r, (f r).messageId = r.messageId)
    (hconv : ∀ r, (f r).conversationId = r.conversationId) (m : Uuid) :
    (db.updateSkeleton k f hid hconv).view m =
      if k = m then { db.view m with skeleton := (db.skeletons.find? m).map f } else db.view m := by
  simp only [view, updateSkeleton, Table.find?_update]
  by_cases h : k = m
  · rw [if_pos h]
    congr 1
    apply Option.map_congr
    intro r hr
    simp [Table.key_of_find? hr, h]
  · rw [if_neg h]
    congr 1
    cases hr : db.skeletons.find? m with
    | none => rfl
    | some r => simp [Table.key_of_find? hr, Ne.symm h]

@[simp] theorem view_updateAsset (assetId : Uuid) (f : MediaAsset → MediaAsset) (hid : ∀ r, (f r).assetId = r.assetId)
    (hmessage : ∀ r, (f r).messageId = r.messageId) (m : Uuid) :
    (db.updateAsset assetId f hid hmessage).view m = db.view m := rfl

theorem find?_updateAsset (assetId : Uuid) (f : MediaAsset → MediaAsset) (hid : ∀ r, (f r).assetId = r.assetId)
    (hmessage : ∀ r, (f r).messageId = r.messageId) (k : Uuid) :
    (db.updateAsset assetId f hid hmessage).assets.find? k =
      if k = assetId then (db.assets.find? k).map f else db.assets.find? k := by
  show (db.assets.update _ f hid).find? k = _
  rw [Table.find?_update]
  cases hr : db.assets.find? k with
  | none => simp
  | some r =>
      have hkey : r.assetId = k := Table.key_of_find? hr
      by_cases h : k = assetId <;> simp [hkey, h]

theorem view_updateMessageBodyText (db : LocalStoreDb) (k : Uuid) (text : String) (m : Uuid) :
    (db.updateMessageBodyText k text).view m =
      if k = m then { db.view m with body := (db.bodies.find? m).map fun r => { r with textContent := some text } }
      else db.view m := by
  simp only [view, updateMessageBodyText, Table.find?_update]
  by_cases h : k = m
  · rw [if_pos h]
    congr 1
    apply Option.map_congr
    intro r hr
    simp [Table.key_of_find? hr, h]
  · rw [if_neg h]
    congr 1
    cases hr : db.bodies.find? m with
    | none => rfl
    | some r => simp [Table.key_of_find? hr, Ne.symm h]

theorem view_deleteMessageBody (k m : Uuid) :
    (db.deleteMessageBody k).view m = if k = m then { db.view m with body := none } else db.view m := by
  simp only [view, deleteMessageBody, Table.find?_delete]
  by_cases h : k = m
  · rw [if_pos h]
    congr 1
    cases hr : db.bodies.find? m with
    | none => rfl
    | some r => simp [Table.key_of_find? hr, h]
  · rw [if_neg h]
    congr 1
    cases hr : db.bodies.find? m with
    | none => rfl
    | some r => simp [Table.key_of_find? hr, Ne.symm h]

/-- Rows picked by a column after a delete by the same column. -/
theorem filter_column {ρ : Type} (column : ρ → IdText) (gone : IdText → Bool) (rowId : IdText) (rows : List ρ) :
    (rows.filter fun r => !gone (column r)).filter (fun r => column r = rowId) =
      if gone rowId = true then [] else rows.filter fun r => column r = rowId := by
  rw [List.filter_filter]
  by_cases hgone : gone rowId = true
  · rw [if_pos hgone, List.filter_eq_nil_iff]
    intro r _ hr
    obtain ⟨hid, hstays⟩ := Bool.and_eq_true_iff.mp hr
    rw [of_decide_eq_true hid, hgone] at hstays
    exact Bool.false_ne_true hstays
  · rw [if_neg hgone]
    apply List.filter_congr
    intro r _
    by_cases hid : column r = rowId <;> simp [hid, hgone]

/-- **Deleting a conversation empties the views of its messages** and leaves the others. -/
theorem view_deleteConversation (db : LocalStoreDb) (c m : Uuid) :
    (db.deleteConversation c).1.view m =
      if db.inConversation c m.toText = true then ⟨none, none, [], [], []⟩ else db.view m := by
  have hskeletons := db.skeletons.find?_delete (fun s => s.conversationId = c) m
  have hbodies := db.bodies.find?_delete (fun b => db.inConversation c b.messageId.toText) m
  have hfts := filter_column FtsRow.messageId (db.inConversation c) m.toText db.fts
  have hfuzzy := filter_column FuzzyRow.messageId (db.inConversation c) m.toText db.fuzzy.rows
  have hvectors := filter_column VectorRow.messageId (db.inConversation c) m.toText db.vectors.rows
  unfold view deleteConversation
  by_cases hin : db.inConversation c m.toText = true
  · rw [if_pos hin] at hfts hfuzzy hvectors ⊢
    -- a message of the conversation loses its rows in all five tables
    obtain ⟨skel, hskel, hconv⟩ := inConversation_toText.mp hin
    rw [hskel] at hskeletons
    have hbody : (db.bodies.find? m).filter (fun b => !db.inConversation c b.messageId.toText) = none := by
      rw [Option.filter_eq_none_iff]
      intro b hb
      simp [Table.key_of_find? hb, hin]
    simp only [Table.delete] at hskeletons hbodies ⊢
    rw [hfts, hfuzzy, hvectors, hskeletons, hbodies, hbody]
    simp [hconv]
  · rw [if_neg hin] at hfts hfuzzy hvectors ⊢
    -- and another message none
    have hout : db.inConversation c m.toText = false := Bool.eq_false_iff.mpr hin
    have hskel : (db.skeletons.find? m).filter (fun s => !decide (s.conversationId = c)) = db.skeletons.find? m := by
      cases hfound : db.skeletons.find? m with
      | none => rfl
      | some skel =>
          obtain ⟨hmem, hid⟩ := Table.find?_eq_some.mp hfound
          rw [Option.filter_some, outside_conversation hout hmem hid]
          rfl
    have hbody : (db.bodies.find? m).filter (fun b => !db.inConversation c b.messageId.toText) = db.bodies.find? m := by
      cases hfound : db.bodies.find? m with
      | none => rfl
      | some b =>
          rw [Option.filter_some, Table.key_of_find? hfound, hout]
          rfl
    simp only [Table.delete] at hskeletons hbodies ⊢
    rw [hfts, hfuzzy, hvectors, hskeletons, hbodies, hskel, hbody]

@[simp] theorem view_updateConversationLastMessage (c k : Uuid) (ms : Int) (m : Uuid) :
    (db.updateConversationLastMessage c k ms).view m = db.view m := rfl

@[simp] theorem view_insertBackupEvent (tag : String) (c k : Uuid) (payload : Bytes) (ms : Int) (m : Uuid) :
    (db.insertBackupEvent tag c k payload ms).view m = db.view m := rfl

@[simp] theorem view_writeArchiveEvent (event : ArchiveEvent) (m : Uuid) :
    (db.writeArchiveEvent event).view m = db.view m := rfl

/-! ## When a constrained statement succeeds -/

theorem insertMessageSkeleton_eq_ok {skel : MessageSkeleton} :
    db.insertMessageSkeleton skel = .ok db' ↔
      ∃ hfree hconv, db' = db.addSkeleton skel hfree hconv := by
  unfold insertMessageSkeleton
  by_cases hfree : db.skeletons.has skel.messageId = false
  · by_cases hconv : db.conversations.has skel.conversationId = true
    · simp [hfree, hconv, eq_comm]
    · simp [hfree, hconv]
  · simp [hfree]

theorem upsertSkeletonFromArchive_free {skel : MessageSkeleton} (hfree : db.skeletons.has skel.messageId = false)
    (hconv : db.conversations.has skel.conversationId = true) :
    db.upsertSkeletonFromArchive skel = .ok (db.addSkeleton skel hfree hconv, true) := by
  rw [upsertSkeletonFromArchive, dif_pos hfree, dif_pos hconv]

theorem upsertSkeletonFromArchive_there {skel : MessageSkeleton} (h : db.skeletons.has skel.messageId = true) :
    db.upsertSkeletonFromArchive skel = .ok (db, false) := by
  rw [upsertSkeletonFromArchive, dif_neg (by rw [h]; decide)]

theorem upsertSkeletonFromArchive_unregistered {skel : MessageSkeleton} (hfree : db.skeletons.has skel.messageId = false)
    (hconv : db.conversations.has skel.conversationId = false) :
    db.upsertSkeletonFromArchive skel = .error (.rusqlite "FOREIGN KEY constraint failed") := by
  rw [upsertSkeletonFromArchive, dif_pos hfree, dif_neg (by rw [hconv]; decide)]

theorem insertMessageBody_eq_ok {body : MessageBody} :
    db.insertMessageBody body = .ok db' ↔ ∃ hfree hskel, db' = db.addBody body hfree hskel := by
  unfold insertMessageBody
  by_cases hfree : db.bodies.has body.messageId = false
  · by_cases hskel : db.skeletons.has body.messageId = true
    · simp [hfree, hskel, eq_comm]
    · simp [hfree, hskel]
  · simp [hfree]

theorem insertMediaAsset_eq_ok {asset : MediaAsset} :
    db.insertMediaAsset asset = .ok db' ↔ ∃ hfree hskel, db' = db.addAsset asset hfree hskel := by
  unfold insertMediaAsset
  by_cases hfree : db.assets.has asset.assetId = false
  · by_cases hskel : db.skeletons.has asset.messageId = true
    · simp [hfree, hskel, eq_comm]
    · simp [hfree, hskel]
  · simp [hfree]

end LocalStoreDb

end KChatCore.LocalStore
