import KChatCore.Lib.LastWriter
import KChatCore.Message.Calls

/-!
# `Message.Activity` — the last activity of a conversation

Every call that persists a message ends its savepoint with `update_conversation_last_message`, whose guard lets a message
through that is at least as new as the last activity. The conversation's two columns are a last-writer register: the
activity is the greatest timestamp, and of several messages with that timestamp the one persisted last is the last message, as
the statement's own test has it.

* `Persist.conversations_apply` — what a persisting call does to the conversations.
* `register_persistAll` — the columns after a run of calls.
* `conversation_activity_last_writer` — the activity for every order, and the last message.
-/

namespace KChatCore.Message

open Lib LocalStore

/-- A call that persists a message, with the clock readings it takes. -/
inductive Persist
  | ingestedMessage (msg : IngestedMessage) (receivedAtMs journaledAtMs : Int)
  | outboxEntry (entry : OutboxEntry) (journaledAtMs : Int)
  | media (send : MediaSend) (processed : Except Error MediaDescriptor) (now : Int)

namespace Persist

/-- The conversation the message goes to. -/
def conversationId : Persist → Uuid
  | ingestedMessage msg _ _ => msg.conversationId
  | outboxEntry entry _ => entry.conversationId
  | media send _ _ => send.conversationId

/-- The message. -/
def messageId : Persist → Uuid
  | ingestedMessage msg _ _ => msg.messageId
  | outboxEntry entry _ => entry.clientMessageId
  | media send _ _ => send.messageId

/-- Its timestamp. -/
def createdAtMs : Persist → Int
  | ingestedMessage msg _ _ => msg.createdAtMs
  | outboxEntry entry _ => entry.createdAtMs
  | media _ _ now => now

/-- The store a call leaves, where it goes through. -/
def apply (F : Platform) (db : LocalStoreDb) : Persist → Option LocalStoreDb
  | ingestedMessage msg receivedAtMs journaledAtMs =>
      (persistIngestedMessage F db msg receivedAtMs journaledAtMs).toOption
  | outboxEntry entry journaledAtMs => (persistOutboxEntry F db entry journaledAtMs).toOption
  | media send processed now => (sendMedia F db send processed now).toOption

end Persist

/-- Messages persisted one after the other. -/
def persistAll (F : Platform) (db : LocalStoreDb) : List Persist → Option LocalStoreDb
  | [] => some db
  | call :: calls => (call.apply F db).bind fun db' => persistAll F db' calls

/-! ## One call -/

section Calls

variable {F : Platform} {db db' : LocalStoreDb}

theorem toOption_eq_some {ε α : Type} {r : Except ε α} {a : α} : r.toOption = some a ↔ r = .ok a := by
  cases r <;> simp [Except.toOption]

/-- What publishing a message does to the conversations; the rows filled in before do not touch them. -/
theorem conversations_publish {skel : MessageSkeleton} {text : Option String} {db₁ : LocalStoreDb} {tag : String}
    {payload : Bytes} {ms : Int} {event : ArchiveEvent} (hfree : db.skeletons.has skel.messageId = false)
    (hconv : db.conversations.has skel.conversationId = true) (h : Filled skel text (db.addSkeleton skel hfree hconv) db₁) :
    (publish db₁ skel tag payload ms event).conversations =
      (db.updateConversationLastMessage skel.conversationId skel.messageId skel.createdAtMs).conversations := by
  have hfilled : db₁.conversations = (db.addSkeleton skel hfree hconv).conversations := filled_conversations h
  have hsame : db₁.conversations = db.conversations := hfilled
  simp only [publish, LocalStoreDb.updateConversationLastMessage, LocalStoreDb.insertBackupEvent,
    LocalStoreDb.writeArchiveEvent, hsame]

/-- **What a persisting call does to the conversations**: `update_conversation_last_message`, and no more. -/
theorem Persist.conversations_apply {call : Persist} (h : call.apply F db = some db') :
    db'.conversations =
      (db.updateConversationLastMessage call.conversationId call.messageId call.createdAtMs).conversations := by
  cases call with
  | ingestedMessage msg receivedAtMs journaledAtMs =>
      obtain ⟨-, kind, hfree, hconv, db₂, db₃, -, hassets, htext, rfl⟩ :=
        persistIngestedMessage_parts.mp (toOption_eq_some.mp h)
      have hhang : HangsOff (msg.skeleton kind receivedAtMs).messageId _ db₂ := HangsOff.insertAssets hassets
      exact conversations_publish hfree hconv (filled_of_text hhang htext)
  | outboxEntry entry journaledAtMs =>
      obtain ⟨hfree, hconv, db₂, htext, rfl⟩ := persistOutboxEntry_parts (toOption_eq_some.mp h)
      exact conversations_publish hfree hconv (filled_of_text HangsOff.refl htext)
  | media send processed now =>
      obtain ⟨descriptor, hfree, hconv, db₂, db₃, -, htext, hasset, rfl⟩ := sendMedia_parts (toOption_eq_some.mp h)
      have hextract : HangsOff send.messageId db₃
          (extractMedia F db₃ (send.skeleton now) descriptor.assetId send.mimeType send.plaintext) :=
        HangsOff.extractMedia rfl
      have hfill := (filled_of_text HangsOff.refl htext).trans ((HangsOff.insertMediaAsset hasset).trans hextract)
      exact conversations_publish hfree hconv hfill

end Calls

/-! ## The columns as a register -/

/-- The two columns that follow the messages of a conversation. -/
def activityOf (conv : Conversation) : Register Uuid Int := ⟨conv.lastMessageId, conv.lastActivityMs⟩

/-- The write of a message. -/
def Persist.activity (call : Persist) : Uuid × Int := (call.messageId, call.createdAtMs)

section Runs

variable {F : Platform} {db db' : LocalStoreDb} {c : Uuid} {conv : Conversation}

/-- The row of a conversation after `update_conversation_last_message`. -/
theorem find?_updateConversationLastMessage (db : LocalStoreDb) (c' m : Uuid) (ms : Int) :
    (db.updateConversationLastMessage c' m ms).conversations.find? c = (db.conversations.find? c).map fun r =>
      if r.conversationId = c' ∧ r.lastActivityMs ≤ ms then { r with lastMessageId := some m, lastActivityMs := ms } else r := by
  simp only [LocalStoreDb.updateConversationLastMessage, Table.find?_update, decide_eq_true_eq]

/-- **One call writes the register of its conversation.** -/
theorem register_apply {call : Persist} (hconv : db.conversations.find? c = some conv) (hc : call.conversationId = c)
    (h : call.apply F db = some db') :
    ∃ conv', db'.conversations.find? c = some conv' ∧ activityOf conv' = (activityOf conv).write call.activity := by
  have hid : conv.conversationId = c := Table.key_of_find? hconv
  rw [Persist.conversations_apply h, find?_updateConversationLastMessage, hconv]
  refine ⟨_, rfl, ?_⟩
  unfold Register.write
  by_cases hnewer : conv.lastActivityMs ≤ call.createdAtMs
  · have hlands : conv.conversationId = call.conversationId ∧ conv.lastActivityMs ≤ call.createdAtMs :=
      ⟨hid.trans hc.symm, hnewer⟩
    have hwrites : (activityOf conv).stamp ≤ call.activity.2 := hnewer
    simp only [if_pos hlands, if_pos hwrites]
    rfl
  · have hkept : ¬ (conv.conversationId = call.conversationId ∧ conv.lastActivityMs ≤ call.createdAtMs) :=
      fun hlands => hnewer hlands.2
    have hkeeps : ¬ (activityOf conv).stamp ≤ call.activity.2 := hnewer
    simp only [if_neg hkept, if_neg hkeeps]

/-- **A run of calls writes it once for each message**, in their order. -/
theorem register_persistAll {calls : List Persist} (hconv : db.conversations.find? c = some conv)
    (hall : ∀ call ∈ calls, call.conversationId = c) (h : persistAll F db calls = some db') :
    ∃ conv', db'.conversations.find? c = some conv' ∧
      activityOf conv' = (activityOf conv).writeAll (calls.map Persist.activity) := by
  induction calls generalizing db conv with
  | nil =>
      obtain rfl := Option.some.inj h
      exact ⟨conv, hconv, rfl⟩
  | cons call calls ih =>
      obtain ⟨db₁, hcall, hrest⟩ := Option.bind_eq_some_iff.mp h
      obtain ⟨conv₁, hconv₁, hwrite⟩ := register_apply hconv (hall call List.mem_cons_self) hcall
      obtain ⟨conv', hconv', hwrites⟩ := ih hconv₁ (fun d hd => hall d (List.mem_cons_of_mem call hd)) hrest
      refine ⟨conv', hconv', ?_⟩
      rw [hwrites, hwrite]
      rfl

/-- The messages with a timestamp, in the order of their calls. -/
def messagesAt (ms : Int) (calls : List Persist) : List Uuid :=
  (calls.filter fun call => call.createdAtMs = ms).map Persist.messageId

theorem stamped_activity (ms : Int) (calls : List Persist) :
    Register.stamped ms (calls.map Persist.activity) = messagesAt ms calls := by
  unfold Register.stamped messagesAt
  rw [List.filter_map, List.map_map]
  rfl

/-- **The activity of a conversation, for every order of its messages.** It is the greatest timestamp, and the last message is
the one with that timestamp that was persisted last: the same one for all orders where no two messages share it. -/
theorem conversation_activity_last_writer (F : Platform) (db db' : LocalStoreDb) (calls : List Persist) (c : Uuid)
    (conv : Conversation) (hconv : db.conversations.find? c = some conv) (hall : ∀ call ∈ calls, call.conversationId = c)
    (hrun : persistAll F db calls = some db') :
    ∃ conv', db'.conversations.find? c = some conv' ∧
      conv'.lastActivityMs = (calls.map Persist.createdAtMs).foldl max conv.lastActivityMs ∧
      conv'.lastMessageId = (messagesAt conv'.lastActivityMs calls).getLast?.or conv.lastMessageId ∧
      ∀ order db'', order.Perm calls → persistAll F db order = some db'' →
        ∃ conv'', db''.conversations.find? c = some conv'' ∧ conv''.lastActivityMs = conv'.lastActivityMs ∧
          ((messagesAt conv'.lastActivityMs calls).length ≤ 1 → conv''.lastMessageId = conv'.lastMessageId) := by
  obtain ⟨conv', hconv', hreg⟩ := register_persistAll hconv hall hrun
  have hstamp : conv'.lastActivityMs = ((activityOf conv).writeAll (calls.map Persist.activity)).stamp :=
    congrArg Register.stamp hreg
  have hmax : conv'.lastActivityMs = (calls.map Persist.createdAtMs).foldl max conv.lastActivityMs := by
    rw [hstamp, Register.stamp_writeAll, List.map_map]
    rfl
  refine ⟨conv', hconv', hmax, ?_, fun order db'' hperm horder => ?_⟩
  · have hvalue := congrArg Register.value hreg
    rw [Register.value_writeAll, ← hstamp, stamped_activity] at hvalue
    exact hvalue
  · obtain ⟨conv'', hconv'', hreg'⟩ := register_persistAll hconv
      (fun call hcall => hall call (hperm.mem_iff.mp hcall)) horder
    have hwrites : (order.map Persist.activity).Perm (calls.map Persist.activity) := hperm.map _
    refine ⟨conv'', hconv'', ?_, fun hone => ?_⟩
    · have hstamp' : conv''.lastActivityMs = ((activityOf conv).writeAll (order.map Persist.activity)).stamp :=
        congrArg Register.stamp hreg'
      rw [hstamp', hstamp, Register.stamp_writeAll, Register.stamp_writeAll]
      exact (hwrites.map Prod.snd).foldl_eq _
    · -- at most one message has the last stamp, so the order decides nothing
      rw [hstamp, ← stamped_activity] at hone
      have hsame := Register.writeAll_eq_of_perm hwrites (Register.stamped_eq_of_perm hwrites hone)
      rw [← hreg, ← hreg'] at hsame
      exact congrArg Register.value hsame

end Runs

/-- A text of the first conversation. -/
def textFrom (messageId : Uuid) (createdAtMs : Int) : IngestedMessage :=
  ⟨messageId, ⟨1⟩, "alice", createdAtMs, some "hi", [], none⟩

/-- Such a text is persisted where its id is free, and takes no other id. -/
theorem textFrom_persisted {db : LocalStoreDb} {m : Uuid} {ms : Int} (hnil : m.isNil = false) (hms : 0 < ms)
    (hfree : db.skeletons.has m = false) (hconv : db.conversations.has ⟨1⟩ = true) :
    ∃ db', (Persist.ingestedMessage (textFrom m ms) ms ms).apply .bare db = some db' ∧
      db'.conversations.has ⟨1⟩ = true ∧ ∀ m', m' ≠ m → db'.skeletons.has m' = db.skeletons.has m' := by
  have hvalid : validateIngest (textFrom m ms) = .ok () := by
    have hpos : ¬ ms ≤ 0 := not_le.mpr hms
    have hconvId : (⟨1⟩ : Uuid).isNil = false := rfl
    simp [validateIngest, textFrom, hnil, hconvId, hpos]
  have hlands : (textFrom m ms).Lands db := ⟨hvalid, hfree, hconv, List.nodup_nil, by simp [textFrom]⟩
  obtain ⟨db', hok⟩ := (persistIngestedMessage_isOk_iff .bare ms ms).mpr hlands
  obtain ⟨-, kind, -, hcreate, -⟩ := persistIngestedMessage_eq_ok hok
  refine ⟨db', toOption_eq_some.mpr hok, (hcreate.conversations ⟨1⟩).trans hconv, fun m' hm' => ?_⟩
  have hview := congrArg MessageView.skeleton (hcreate.others m' hm')
  exact congrArg Option.isSome hview

/-- Two texts are persisted one after the other. -/
theorem textFrom_persistAll {m m' : Uuid} {ms ms' : Int} (hm : m.isNil = false) (hm' : m'.isNil = false) (hms : 0 < ms)
    (hms' : 0 < ms') (hne : m' ≠ m) : ∃ db', persistAll .bare (.fresh oneConversation)
      [.ingestedMessage (textFrom m ms) ms ms, .ingestedMessage (textFrom m' ms') ms' ms'] = some db' := by
  have hconv : (LocalStoreDb.fresh oneConversation).conversations.has ⟨1⟩ = true := by decide
  obtain ⟨db₁, hfirst, hconv₁, hothers⟩ := @textFrom_persisted (.fresh oneConversation) m ms hm hms rfl hconv
  obtain ⟨db₂, hsecond, -, -⟩ := textFrom_persisted hm' hms' (hothers m' hne) hconv₁
  exact ⟨db₂, Option.bind_eq_some_iff.mpr ⟨db₁, hfirst, Option.bind_eq_some_iff.mpr ⟨db₂, hsecond, rfl⟩⟩⟩

/-- Two texts a second apart: the later one is the last message. -/
theorem conversation_activity_two_texts : ∃ db' conv', persistAll .bare (.fresh oneConversation)
      [.ingestedMessage (textFrom ⟨2⟩ 1000) 1000 1000, .ingestedMessage (textFrom ⟨3⟩ 2000) 2000 2000] = some db' ∧
    db'.conversations.find? ⟨1⟩ = some conv' ∧ conv'.lastActivityMs = 2000 ∧ conv'.lastMessageId = some ⟨3⟩ := by
  obtain ⟨db', hrun⟩ := @textFrom_persistAll ⟨2⟩ ⟨3⟩ 1000 2000 rfl rfl (by norm_num) (by norm_num) (by decide)
  obtain ⟨conv', hconv', hmax, hlast, -⟩ := conversation_activity_last_writer .bare _ db' _ ⟨1⟩
    ⟨⟨1⟩, none, 0, "direct", "", "", ""⟩ (by decide) (by simp [Persist.conversationId, textFrom]) hrun
  have hms : conv'.lastActivityMs = 2000 := hmax
  rw [hms] at hlast
  exact ⟨db', conv', hrun, hconv', hms, hlast⟩

/-- **Two texts of one millisecond**: the last message is the one that was persisted last, so it depends on the order. -/
theorem last_message_depends_on_order : ∃ db₁ db₂ conv₁ conv₂,
    persistAll .bare (.fresh oneConversation)
      [.ingestedMessage (textFrom ⟨2⟩ 1000) 1000 1000, .ingestedMessage (textFrom ⟨3⟩ 1000) 1000 1000] = some db₁ ∧
    persistAll .bare (.fresh oneConversation)
      [.ingestedMessage (textFrom ⟨3⟩ 1000) 1000 1000, .ingestedMessage (textFrom ⟨2⟩ 1000) 1000 1000] = some db₂ ∧
    db₁.conversations.find? ⟨1⟩ = some conv₁ ∧ db₂.conversations.find? ⟨1⟩ = some conv₂ ∧
    conv₁.lastMessageId = some ⟨3⟩ ∧ conv₂.lastMessageId = some ⟨2⟩ := by
  have hstart : (LocalStoreDb.fresh oneConversation).conversations.find? ⟨1⟩ =
      some ⟨⟨1⟩, none, 0, "direct", "", "", ""⟩ := by decide
  obtain ⟨db₁, hrun₁⟩ := @textFrom_persistAll ⟨2⟩ ⟨3⟩ 1000 1000 rfl rfl (by norm_num) (by norm_num) (by decide)
  obtain ⟨db₂, hrun₂⟩ := @textFrom_persistAll ⟨3⟩ ⟨2⟩ 1000 1000 rfl rfl (by norm_num) (by norm_num) (by decide)
  obtain ⟨conv₁, hconv₁, hreg₁⟩ := register_persistAll hstart (by simp [Persist.conversationId, textFrom]) hrun₁
  obtain ⟨conv₂, hconv₂, hreg₂⟩ := register_persistAll hstart (by simp [Persist.conversationId, textFrom]) hrun₂
  exact ⟨db₁, db₂, conv₁, conv₂, hrun₁, hrun₂, hconv₁, hconv₂, congrArg Register.value hreg₁,
    congrArg Register.value hreg₂⟩

end KChatCore.Message
