import KChatCore.Lib.Run
import KChatCore.Message.Effects

/-!
# `Message.Calls` — histories of calls

A history is a list of `Call`s, each with the clock readings it takes; a call that fails leaves the store as it was.
`Call.did` is the inversion of a call: it did nothing, or it created, edited or deleted one message, or it marked one
as sent, and in each case what it added to the two journals. Whatever holds over histories is proved from it.
-/

namespace KChatCore.Message

open Lib LocalStore

/-- The calls of the message layer, with the clock readings they take. -/
inductive Call
  | persistIngestedMessage (msg : IngestedMessage) (receivedAtMs journaledAtMs : Int)
  | persistOutboxEntry (entry : OutboxEntry) (journaledAtMs : Int)
  | markSent (m : Uuid) (journaledAtMs : Int)
  | sendMedia (send : MediaSend) (processed : Except Error MediaDescriptor) (now : Int)
  | editMessage (m : Uuid) (newText : String) (editedAtMs : Int)
  | deleteForMe (m : Uuid) (deletedAtMs : Int)
  | deleteForEveryone (m : Uuid) (deletedAtMs : Int)

namespace Call

/-- The store a call leaves. -/
def apply (F : Platform) (db : LocalStoreDb) : Call → LocalStoreDb
  | persistIngestedMessage msg receivedAtMs journaledAtMs =>
      settle (Message.persistIngestedMessage F db msg receivedAtMs journaledAtMs) db
  | persistOutboxEntry entry journaledAtMs => settle (Message.persistOutboxEntry F db entry journaledAtMs) db
  | markSent m journaledAtMs => settle (Message.markSent db m journaledAtMs) db
  | sendMedia send processed now => settle (Message.sendMedia F db send processed now) db
  | editMessage m newText editedAtMs => settle (Message.editMessage F db m newText editedAtMs) db
  | deleteForMe m deletedAtMs => settle (Message.deleteForMe db m deletedAtMs) db
  | deleteForEveryone m deletedAtMs => settle (Message.deleteForEveryone db m deletedAtMs) db

/-- One call as a step. -/
def Step (F : Platform) (db : LocalStoreDb) (call : Call) (db' : LocalStoreDb) : Prop := call.apply F db = db'

/-- A send that goes through: the message is new, of a registered conversation, and well formed. -/
def Sends (db : LocalStoreDb) : Call → Prop
  | persistOutboxEntry entry _ => entry.Lands db
  | sendMedia send processed _ => send.Lands processed db
  | _ => False

/-- **What a call did.** -/
inductive Did (F : Platform) (db : LocalStoreDb) : Call → LocalStoreDb → Prop
  | nothing {call : Call} (hidle : ¬ call.Sends db) : Did F db call db
  | ingested {msg : IngestedMessage} {receivedAtMs journaledAtMs : Int} {db' : LocalStoreDb} (kind : MessageKind)
      (hvalid : validateIngest msg = .ok ()) (hcreate : Creates db db' (msg.skeleton kind receivedAtMs) msg.textContent)
      (hjournals : Journals db db'
        [⟨.messageReceived, some msg.conversationId, some msg.messageId, skeletonPayload (msg.skeleton kind receivedAtMs),
          journaledAtMs⟩]
        [receivedEvent F (msg.skeleton kind receivedAtMs) msg.textContent]) :
      Did F db (persistIngestedMessage msg receivedAtMs journaledAtMs) db'
  | sent {entry : OutboxEntry} {journaledAtMs : Int} {db' : LocalStoreDb} (hlands : entry.Lands db)
      (hcreate : Creates db db' entry.skeleton (some entry.textContent))
      (hjournals : Journals db db' [] [receivedEvent F entry.skeleton (some entry.textContent)]) :
      Did F db (persistOutboxEntry entry journaledAtMs) db'
  | marked {m : Uuid} {journaledAtMs : Int} {skel : MessageSkeleton} (hskel : db.skeletons.find? m = some skel) :
      Did F db (markSent m journaledAtMs)
        (db.insertBackupEvent "outbox_sent" skel.conversationId m (encodeEventPayload m skel.conversationId skel.senderId
          skel.createdAtMs) journaledAtMs)
  | sentMedia {send : MediaSend} {processed : Except Error MediaDescriptor} {now : Int} {db' : LocalStoreDb}
      (hlands : send.Lands processed db) (hcreate : Creates db db' (send.skeleton now) send.caption)
      (hjournals : Journals db db' [] [⟨.mediaReceived, send.conversationId, some send.messageId,
        skeletonPayload (send.skeleton now), now⟩]) :
      Did F db (sendMedia send processed now) db'
  | edited {m : Uuid} {newText : String} {editedAtMs : Int} {skel : MessageSkeleton} (htext : newText.isEmpty = false)
      (hskel : db.skeletons.find? m = some skel) (hstate : skel.bodyState = .localPlainAvailable) :
      Did F db (editMessage m newText editedAtMs) (editMessageInner F db skel newText editedAtMs)
  | deletedForMe {m : Uuid} {deletedAtMs : Int} {skel : MessageSkeleton} (hskel : db.skeletons.find? m = some skel)
      (hstate : skel.bodyState = .localPlainAvailable) :
      Did F db (deleteForMe m deletedAtMs) (deleteInnerTx db skel .forMe deletedAtMs)
  | deletedForEveryone {m : Uuid} {deletedAtMs : Int} {skel : MessageSkeleton} (hskel : db.skeletons.find? m = some skel)
      (hstate : skel.bodyState = .localPlainAvailable) :
      Did F db (deleteForEveryone m deletedAtMs) (deleteInnerTx db skel .forEveryone deletedAtMs)

variable {F : Platform} {db db' : LocalStoreDb} {call : Call}

/-- **Inversion of a call.** -/
theorem did (h : Step F db call db') : Did F db call db' := by
  unfold Step at h
  subst h
  cases call with
  | persistIngestedMessage msg receivedAtMs journaledAtMs =>
      show Did F db _ (settle (Message.persistIngestedMessage F db msg receivedAtMs journaledAtMs) db)
      cases hok : Message.persistIngestedMessage F db msg receivedAtMs journaledAtMs with
      | error e => exact Did.nothing (fun hsends => hsends)
      | ok db' =>
          obtain ⟨hvalid, kind, -, hcreate, hjournals⟩ := persistIngestedMessage_eq_ok hok
          exact Did.ingested kind hvalid hcreate hjournals
  | persistOutboxEntry entry journaledAtMs =>
      show Did F db _ (settle (Message.persistOutboxEntry F db entry journaledAtMs) db)
      cases hok : Message.persistOutboxEntry F db entry journaledAtMs with
      | error e =>
          apply Did.nothing
          -- a send that is refused is one that cannot land
          intro hlands
          obtain ⟨db', hok'⟩ := (persistOutboxEntry_isOk_iff F journaledAtMs).mpr hlands
          exact absurd (hok.symm.trans hok') (by simp)
      | ok db' =>
          obtain ⟨hcreate, hjournals⟩ := persistOutboxEntry_eq_ok hok
          exact Did.sent ((persistOutboxEntry_isOk_iff F journaledAtMs).mp ⟨db', hok⟩) hcreate hjournals
  | markSent m journaledAtMs =>
      show Did F db _ (settle (Message.markSent db m journaledAtMs) db)
      unfold Message.markSent LocalStoreDb.getMessageSkeleton
      cases hskel : db.skeletons.find? m with
      | none => exact Did.nothing (fun hsends => hsends)
      | some skel => exact Did.marked hskel
  | sendMedia send processed now =>
      show Did F db _ (settle (Message.sendMedia F db send processed now) db)
      cases hok : Message.sendMedia F db send processed now with
      | error e =>
          apply Did.nothing
          intro hlands
          obtain ⟨db', hok'⟩ := (sendMedia_isOk_iff F now).mpr hlands
          exact absurd (hok.symm.trans hok') (by simp)
      | ok db' =>
          obtain ⟨hcreate, hjournals⟩ := sendMedia_eq_ok hok
          exact Did.sentMedia ((sendMedia_isOk_iff F now).mp ⟨db', hok⟩) hcreate hjournals
  | editMessage m newText editedAtMs =>
      show Did F db _ (settle (Message.editMessage F db m newText editedAtMs) db)
      cases hok : Message.editMessage F db m newText editedAtMs with
      | error e => exact Did.nothing (fun hsends => hsends)
      | ok db' =>
          obtain ⟨htext, skel, hskel, hstate, rfl⟩ := editMessage_eq_ok.mp hok
          exact Did.edited htext hskel hstate
  | deleteForMe m deletedAtMs =>
      show Did F db _ (settle (deleteInner db m .forMe deletedAtMs) db)
      cases hok : deleteInner db m .forMe deletedAtMs with
      | error e => exact Did.nothing (fun hsends => hsends)
      | ok db' =>
          obtain ⟨skel, hskel, hstate, rfl⟩ := deleteInner_eq_ok.mp hok
          exact Did.deletedForMe hskel hstate
  | deleteForEveryone m deletedAtMs =>
      show Did F db _ (settle (deleteInner db m .forEveryone deletedAtMs) db)
      cases hok : deleteInner db m .forEveryone deletedAtMs with
      | error e => exact Did.nothing (fun hsends => hsends)
      | ok db' =>
          obtain ⟨skel, hskel, hstate, rfl⟩ := deleteInner_eq_ok.mp hok
          exact Did.deletedForEveryone hskel hstate

end Call

/-! ## Histories -/

/-- The store a history leaves. -/
def runCalls (F : Platform) (db : LocalStoreDb) (history : List Call) : LocalStoreDb :=
  history.foldl (fun db call => call.apply F db) db

theorem runCalls_concat (F : Platform) (db : LocalStoreDb) (history : List Call) (call : Call) :
    runCalls F db (history ++ [call]) = call.apply F (runCalls F db history) := by
  rw [runCalls, List.foldl_append]
  rfl

theorem step_persistIngestedMessage {F : Platform} {db db' : LocalStoreDb} {msg : IngestedMessage}
    {receivedAtMs journaledAtMs : Int} (h : persistIngestedMessage F db msg receivedAtMs journaledAtMs = .ok db') :
    Call.Step F db (.persistIngestedMessage msg receivedAtMs journaledAtMs) db' := by
  show settle (persistIngestedMessage F db msg receivedAtMs journaledAtMs) db = db'
  rw [h, settle_ok]

theorem step_deleteForMe (F : Platform) {db db' : LocalStoreDb} {m : Uuid} {deletedAtMs : Int}
    (h : deleteForMe db m deletedAtMs = .ok db') : Call.Step F db (.deleteForMe m deletedAtMs) db' := by
  show settle (deleteForMe db m deletedAtMs) db = db'
  rw [h, settle_ok]

/-- **A history of calls**, with the stores before its calls. -/
abbrev History (F : Platform) (db : LocalStoreDb) (tr : List (LocalStoreDb × Call)) (db' : LocalStoreDb) : Prop :=
  Run (Call.Step F) db tr db'

theorem history_runCalls (F : Platform) (db : LocalStoreDb) (history : List Call) :
    ∃ tr, tr.map Prod.snd = history ∧ History F db tr (runCalls F db history) :=
  Run.exists_of_foldl (fun (call : Call) (db : LocalStoreDb) => call.apply F db) db history

/-! ## What every call keeps -/

section Keeps

variable {F : Platform} {db db' : LocalStoreDb} {call : Call} {tr : List (LocalStoreDb × Call)}

/-- No call registers or drops a conversation. -/
theorem conversations_step (h : Call.Step F db call db') (c : Uuid) : db'.conversations.has c = db.conversations.has c := by
  cases Call.did h with
  | nothing _ => rfl
  | ingested kind _ hcreate _ => exact hcreate.conversations c
  | sent _ hcreate _ => exact hcreate.conversations c
  | marked _ => rfl
  | sentMedia _ hcreate _ => exact hcreate.conversations c
  | edited _ _ _ => rfl
  | @deletedForMe m ms skel hskel _ =>
      obtain ⟨journal, archive, heq⟩ := deleteInnerTx_eq db skel .forMe ms
      rw [heq]
      rfl
  | @deletedForEveryone m ms skel hskel _ =>
      obtain ⟨journal, archive, heq⟩ := deleteInnerTx_eq db skel .forEveryone ms
      rw [heq]
      rfl

theorem conversations_history (h : History F db tr db') (c : Uuid) :
    db'.conversations.has c = db.conversations.has c := by
  apply h.invariant (I := fun t => t.conversations.has c = db.conversations.has c)
  · intro t call t' hI hstep
    rw [conversations_step hstep c, hI]
  · rfl

end Keeps

/-! ## A store to start from -/

/-- One registered conversation. -/
def oneConversation : Table Conversation.conversationId :=
  Table.empty.insertOrIgnore ⟨⟨1⟩, none, 0, "direct", "", "", ""⟩

/-- A text from "alice", as it arrives. -/
def aliceSays (text : String) : IngestedMessage := ⟨⟨2⟩, ⟨1⟩, "alice", 1000, some text, [], none⟩

/-- The skeleton it gets. -/
def aliceSkeleton : MessageSkeleton := (aliceSays "").skeleton .text 1001

/-- What becomes of the bytes of a picture. -/
def pictureDescriptor : MediaDescriptor := ⟨⟨3⟩, "image/png", 1, 1, ByteArr.zeros 32, ⟨4⟩, [], none⟩

/-- **Whatever "alice" says arrives.** -/
theorem aliceSays_ingested {text : String} (htext : text.isEmpty = false) : ∃ db,
    persistIngestedMessage .bare (.fresh oneConversation) (aliceSays text) 1001 1002 = .ok db ∧
      Creates (.fresh oneConversation) db aliceSkeleton (some text) ∧
      Journals (.fresh oneConversation) db
        [⟨.messageReceived, some ⟨1⟩, some ⟨2⟩, encodeEventPayload ⟨2⟩ ⟨1⟩ "alice" 1000, 1002⟩]
        [receivedEvent .bare aliceSkeleton (some text)] := by
  have hvalid : validateIngest (aliceSays text) = .ok () := by simp [validateIngest, aliceSays, Uuid.isNil, htext]
  have hfresh : (LocalStoreDb.fresh oneConversation).skeletons.has ⟨2⟩ = false := by decide
  have hconv : (LocalStoreDb.fresh oneConversation).conversations.has ⟨1⟩ = true := by decide
  have hlands : (aliceSays text).Lands (.fresh oneConversation) :=
    ⟨hvalid, hfresh, hconv, List.nodup_nil, by simp [aliceSays]⟩
  obtain ⟨db, hok⟩ := (persistIngestedMessage_isOk_iff .bare 1001 1002).mpr hlands
  obtain ⟨-, kind, hkind, hcreate, hjournals⟩ := persistIngestedMessage_eq_ok hok
  obtain rfl := Except.ok.inj hkind
  exact ⟨db, hok, hcreate, hjournals⟩

end KChatCore.Message
