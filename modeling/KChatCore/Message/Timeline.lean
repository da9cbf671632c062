import KChatCore.Lib.Pagination
import KChatCore.LocalStore.Db

/-!
# `Message.Timeline` — reading a conversation page by page

`readConversationMessages` and `readTimeline` return a page of a conversation, newest first; a caller turns the page with the
`created_at_ms` of its last row. The statements compare with `<` and order by the timestamp alone, so the messages that share
the timestamp of the last row but did not fit are below no later cursor.

* `readConversationMessages_eq_page`, `readTimeline_eq_page` — both are pages by a cursor, seen through a view.
* `timeline_visited_once_iff` — when turning the pages lists every message once.
-/

namespace KChatCore.Message

open Lib LocalStore Lib.Pagination

/-- `ORDER BY created_at_ms DESC`; the order of equal timestamps is SQLite's. -/
abbrev ByCreatedAt := NewestFirst MessageSkeleton.createdAtMs

/-- `LIMIT`, of a `limit as i64`: a negative one is none. -/
def limitClause {α : Type} (limit : Nat) (rows : List α) : List α := if limit < 2 ^ 63 then rows.take limit else rows

/-- The messages of a conversation. -/
def messagesOf (db : LocalStoreDb) (conversationId : Uuid) : List MessageSkeleton :=
  db.skeletons.rows.filter fun s => s.conversationId = conversationId

/-- `read_conversation_messages`. -/
def readConversationMessages (newest : ByCreatedAt) (db : LocalStoreDb) (conversationId : Uuid) (beforeMs : Option Int)
    (limit : Nat) : List MessageSkeleton :=
  match beforeMs with
  | some before => limitClause limit (newest.order
      (db.skeletons.rows.filter fun s => s.conversationId = conversationId ∧ s.createdAtMs < before))
  | none => limitClause limit (newest.order (db.skeletons.rows.filter fun s => s.conversationId = conversationId))

/-- `TimelineRow`. -/
structure TimelineRow where
  messageId : Uuid
  conversationId : Uuid
  senderId : String
  createdAtMs : Int
  kind : MessageKind
  bodyState : BodyState
  textContent : Option String
  replyTo : Option Uuid
  editedAtMs : Option Int
  deletedAtMs : Option Int
deriving DecidableEq, Repr

/-- A skeleton and, where there is one, its body's text. -/
def timelineRow (db : LocalStoreDb) (s : MessageSkeleton) : TimelineRow where
  messageId := s.messageId
  conversationId := s.conversationId
  senderId := s.senderId
  createdAtMs := s.createdAtMs
  kind := s.kind
  bodyState := s.bodyState
  textContent := (db.bodies.find? s.messageId).bind MessageBody.textContent
  replyTo := s.replyTo
  editedAtMs := s.editedAtMs
  deletedAtMs := s.deletedAtMs

/-- `read_timeline`; a message has at most one body, so the join keeps the rows. -/
def readTimeline (newest : ByCreatedAt) (db : LocalStoreDb) (conversationId : Uuid) (beforeMs : Option Int) (limit : Nat) :
    List TimelineRow :=
  (limitClause limit (newest.order (db.skeletons.rows.filter fun s =>
    s.conversationId = conversationId ∧ (beforeMs.all fun before => s.createdAtMs < before) = true))).map (timelineRow db)

/-- `MessageView`, as the core returns it. -/
structure CoreMessageView where
  messageId : Uuid
  conversationId : Uuid
  senderId : String
  createdAtMs : Int
  receivedAtMs : Int
  replyTo : Option Uuid
  editedAtMs : Option Int
  deletedAtMs : Option Int
  textContent : Option String
deriving DecidableEq, Repr

/-- `skeleton_and_body_to_view`. -/
def skeletonAndBodyToView (skel : MessageSkeleton) (body : Option MessageBody) : CoreMessageView where
  messageId := skel.messageId
  conversationId := skel.conversationId
  senderId := skel.senderId
  createdAtMs := skel.createdAtMs
  receivedAtMs := skel.receivedAtMs
  replyTo := skel.replyTo
  editedAtMs := skel.editedAtMs
  deletedAtMs := skel.deletedAtMs
  textContent := body.bind MessageBody.textContent

/-- `CoreImpl::get_conversation_messages`: the skeletons and then their bodies, from one snapshot. -/
def getConversationMessages (newest : ByCreatedAt) (db : LocalStoreDb) (conversationId : Uuid) (beforeMs : Option Int)
    (limit : Nat) : List CoreMessageView :=
  (readConversationMessages newest db conversationId beforeMs limit).map fun skel =>
    skeletonAndBodyToView skel (db.getMessageBody skel.messageId)

/-! ## Both are pages by a cursor -/

section Pages

variable {newest : ByCreatedAt} {db : LocalStoreDb} {c : Uuid} {limit : Nat}

/-- How many rows a page of a conversation takes at most. -/
def pageSize (limit : Nat) (rows : List MessageSkeleton) : Nat := if limit < 2 ^ 63 then limit else max limit rows.length

theorem pageSize_pos (hlimit : 1 ≤ limit) (rows : List MessageSkeleton) : 0 < pageSize limit rows := by
  unfold pageSize
  split
  · exact hlimit
  · exact lt_of_lt_of_le hlimit (Nat.le_max_left _ _)

/-- No key is cut by a page that has no limit. -/
theorem whole_pageSize {rows : List MessageSkeleton} :
    Whole MessageSkeleton.createdAtMs rows (pageSize limit rows) ↔
      (limit < 2 ^ 63 → Whole MessageSkeleton.createdAtMs rows limit) := by
  unfold pageSize
  by_cases hsmall : limit < 2 ^ 63
  · rw [if_pos hsmall]
    exact ⟨fun h _ => h, fun h => h hsmall⟩
  · rw [if_neg hsmall]
    exact ⟨fun _ h => absurd h hsmall, fun _ => whole_of_length_le (Nat.le_max_right _ _)⟩

/-- The clause cuts a part of the rows as a page of their size does. -/
theorem limitClause_order {rows part : List MessageSkeleton} (hpart : part.length ≤ rows.length) :
    limitClause limit (newest.order part) = (newest.order part).take (pageSize limit rows) := by
  unfold limitClause pageSize
  by_cases hsmall : limit < 2 ^ 63
  · rw [if_pos hsmall, if_pos hsmall]
  · rw [if_neg hsmall, if_neg hsmall]
    have hlen := (newest.perm part).length_eq
    exact (List.take_of_length_le (by omega)).symm

theorem readConversationMessages_eq_page (newest : ByCreatedAt) (db : LocalStoreDb) (c : Uuid) (limit : Nat)
    (beforeMs : Option Int) :
    readConversationMessages newest db c beforeMs limit =
      page newest (messagesOf db c) (pageSize limit (messagesOf db c)) beforeMs := by
  cases beforeMs with
  | none => exact limitClause_order le_rfl
  | some before =>
      have hbelow : (db.skeletons.rows.filter fun s => s.conversationId = c ∧ s.createdAtMs < before) =
          rowsBelow MessageSkeleton.createdAtMs (some before) (messagesOf db c) := by
        show _ = (db.skeletons.rows.filter fun s => s.conversationId = c).filter fun s => s.createdAtMs < before
        rw [List.filter_filter]
        exact List.filter_congr fun s _ => by rw [Bool.decide_and, Bool.and_comm]
      show limitClause limit (newest.order (db.skeletons.rows.filter _)) = _
      rw [hbelow]
      exact limitClause_order (List.length_filter_le _ _)

/-- The timeline's statement selects the same rows: a cursor that is `NULL` does not restrict them. -/
theorem readTimeline_eq_page (newest : ByCreatedAt) (db : LocalStoreDb) (c : Uuid) (limit : Nat) (beforeMs : Option Int) :
    readTimeline newest db c beforeMs limit =
      (page newest (messagesOf db c) (pageSize limit (messagesOf db c)) beforeMs).map (timelineRow db) := by
  rw [← readConversationMessages_eq_page]
  unfold readTimeline readConversationMessages
  cases beforeMs <;> simp

/-- The ids of a conversation's messages. -/
def messageIdsOf (db : LocalStoreDb) (c : Uuid) : List Uuid := (messagesOf db c).map MessageSkeleton.messageId

theorem getConversationMessages_visitsOnce_iff (hlimit : 1 ≤ limit) :
    VisitsOnce (fun beforeMs => getConversationMessages newest db c beforeMs limit) CoreMessageView.createdAtMs
        CoreMessageView.messageId (messageIdsOf db c) ↔
      (limit < 2 ^ 63 → Whole MessageSkeleton.createdAtMs (messagesOf db c) limit) := by
  rw [← whole_pageSize]
  have hpage : ∀ beforeMs, getConversationMessages newest db c beforeMs limit =
      (page newest (messagesOf db c) (pageSize limit (messagesOf db c)) beforeMs).map fun skel =>
        skeletonAndBodyToView skel (db.getMessageBody skel.messageId) := by
    intro beforeMs
    rw [← readConversationMessages_eq_page]
    rfl
  exact visitsOnce_iff (pageSize_pos hlimit _) hpage (fun _ => rfl) fun _ => rfl

theorem readTimeline_visitsOnce_iff (hlimit : 1 ≤ limit) :
    VisitsOnce (fun beforeMs => readTimeline newest db c beforeMs limit) TimelineRow.createdAtMs TimelineRow.messageId
        (messageIdsOf db c) ↔
      (limit < 2 ^ 63 → Whole MessageSkeleton.createdAtMs (messagesOf db c) limit) := by
  rw [← whole_pageSize]
  exact visitsOnce_iff (pageSize_pos hlimit _) (readTimeline_eq_page newest db c limit) (fun _ => rfl) fun _ => rfl

end Pages

/-- **When turning the pages lists every message once**: no timestamp has messages on both sides of the end of a page. -/
theorem timeline_visited_once_iff (newest newest' : ByCreatedAt) (db : LocalStoreDb) (c : Uuid) (limit : Nat)
    (hlimit : 1 ≤ limit) :
    (VisitsOnce (fun beforeMs => getConversationMessages newest db c beforeMs limit) CoreMessageView.createdAtMs
        CoreMessageView.messageId (messageIdsOf db c) ↔
      (limit < 2 ^ 63 → Whole MessageSkeleton.createdAtMs (messagesOf db c) limit)) ∧
    (VisitsOnce (fun beforeMs => readTimeline newest' db c beforeMs limit) TimelineRow.createdAtMs TimelineRow.messageId
        (messageIdsOf db c) ↔
      (limit < 2 ^ 63 → Whole MessageSkeleton.createdAtMs (messagesOf db c) limit)) :=
  ⟨getConversationMessages_visitsOnce_iff hlimit, readTimeline_visitsOnce_iff hlimit⟩

/-- A message of the first conversation. -/
def textAt (messageId : Uuid) (createdAtMs : Int) : MessageSkeleton where
  messageId := messageId
  conversationId := ⟨1⟩
  senderId := "alice"
  createdAtMs := createdAtMs
  receivedAtMs := createdAtMs
  kind := .text
  bodyState := .localPlainAvailable
  mediaState := none
  archiveState := .notArchived
  backupState := .notBackedUp
  replyTo := none
  editedAtMs := none
  deletedAtMs := none

/-- A store with one conversation and two messages. -/
def twoMessages (firstMs secondMs : Int) : LocalStoreDb :=
  ((LocalStoreDb.fresh (Table.empty.append ⟨⟨1⟩, none, 0, "", "", "", ""⟩ rfl)).addSkeleton (textAt ⟨10⟩ firstMs)
    rfl rfl).addSkeleton (textAt ⟨11⟩ secondMs) rfl rfl

/-- Two messages a millisecond apart, one to a page. -/
theorem timeline_visited_once_apart :
    VisitsOnce (fun beforeMs => getConversationMessages (.stable _) (twoMessages 5 6) ⟨1⟩ beforeMs 1)
      CoreMessageView.createdAtMs CoreMessageView.messageId (messageIdsOf (twoMessages 5 6) ⟨1⟩) :=
  (timeline_visited_once_iff (.stable _) (.stable _) (twoMessages 5 6) ⟨1⟩ 1 le_rfl).1.mpr fun _ => by decide

/-- **Two messages of one millisecond, one to a page**: the second is never listed, by either read. -/
theorem timeline_skips_equal_timestamp :
    ¬ VisitsOnce (fun beforeMs => getConversationMessages (.stable _) (twoMessages 5 5) ⟨1⟩ beforeMs 1)
      CoreMessageView.createdAtMs CoreMessageView.messageId (messageIdsOf (twoMessages 5 5) ⟨1⟩) ∧
    ¬ VisitsOnce (fun beforeMs => readTimeline (.stable _) (twoMessages 5 5) ⟨1⟩ beforeMs 1) TimelineRow.createdAtMs
      TimelineRow.messageId (messageIdsOf (twoMessages 5 5) ⟨1⟩) := by
  have hcut : ¬ (1 < 2 ^ 63 → Whole MessageSkeleton.createdAtMs (messagesOf (twoMessages 5 5) ⟨1⟩) 1) := by decide
  exact ⟨fun h => hcut ((getConversationMessages_visitsOnce_iff le_rfl).mp h),
    fun h => hcut ((readTimeline_visitsOnce_iff le_rfl).mp h)⟩

end KChatCore.Message
