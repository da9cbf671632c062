import KChatCore.Message.Core

/-!
# `Message.ArchivedText` — what the archive journal keeps of a text

An offloaded body comes back from the last event of its message that can carry one. Ingest, text sends and edits write
the body-bearing payload; `send_media` writes the four-element one, which names the message and has no text in it.
-/

namespace KChatCore.Message

open Lib LocalStore

/-- An event of the message that can carry its text. -/
def isTextEvent (m : Uuid) (e : ArchiveEvent) : Bool :=
  e.messageId = some m && (e.eventType = .messageReceived || e.eventType = .mediaReceived || e.eventType = .messageEdited)

/-- The text the archive journal has for a message: that of the last event that can carry one. -/
def archivedText (F : Platform) (journal : List ArchiveEvent) (m : Uuid) : Option String :=
  (journal.filter (isTextEvent m)).getLast?.bind fun e => tryDecodeText F.primitives e.payload

/-- **The archive journal keeps every text.** -/
def KeepsText (F : Platform) (db : LocalStoreDb) : Prop :=
  ∀ m text, db.liveText m = some text → archivedText F db.archiveJournal m = some text

/-- A media send that goes through has no caption. -/
def Call.Captionless (db : LocalStoreDb) : Call → Prop
  | sendMedia send processed _ => send.Lands processed db → send.caption = none
  | _ => True

/-- What the decoder makes of the payload that names a message: nothing. -/
def RejectsLegacy (F : Platform) : Prop :=
  ∀ m c sender ms, tryDecodeText F.primitives (encodeEventPayload m c sender ms) = none

variable {F : Platform} {db db' : LocalStoreDb} {call : Call}

theorem archivedText_append (journal : List ArchiveEvent) (e : ArchiveEvent) (m : Uuid) :
    archivedText F (journal ++ [e]) m =
      if isTextEvent m e = true then tryDecodeText F.primitives e.payload else archivedText F journal m := by
  unfold archivedText
  rw [List.filter_append]
  by_cases h : isTextEvent m e = true <;> simp [h]

/-- An event of one message, and texts that change for this message only. -/
theorem KeepsText.append (h : KeepsText F db) {m : Uuid} {e : ArchiveEvent} (hid : e.messageId = some m)
    (hjournal : db'.archiveJournal = db.archiveJournal ++ [e]) (hothers : ∀ k, k ≠ m → db'.liveText k = db.liveText k)
    (hm : ∀ text, db'.liveText m = some text → isTextEvent m e = true ∧ tryDecodeText F.primitives e.payload = some text) :
    KeepsText F db' := by
  intro k text htext
  rw [hjournal, archivedText_append]
  by_cases hk : k = m
  · subst hk
    obtain ⟨hcarries, hdecodes⟩ := hm text htext
    rw [if_pos hcarries, hdecodes]
  · have hother : isTextEvent k e = false := by simp [isTextEvent, hid, Ne.symm hk]
    rw [hother, if_neg Bool.false_ne_true]
    apply h
    rw [← hothers k hk, htext]

/-- A received text is in its event. -/
theorem decode_receivedEvent {skel : MessageSkeleton} {text : String} (htext : text.isEmpty = false) :
    tryDecodeText F.primitives (receivedEvent F skel (some text)).payload = some text := by
  show tryDecodeText F.primitives (encodeBodyPayload F.primitives (some text)) = some text
  rw [tryDecodeText_encodeBodyPayload]
  simp [htext]

/-- A delete changes no text but the one it takes. -/
theorem keepsText_deleteInnerTx {skel : MessageSkeleton} {scope : DeleteScope} {ms : Int} (h : KeepsText F db)
    (hskel : db.skeletons.find? skel.messageId = some skel) : KeepsText F (deleteInnerTx db skel scope ms) := by
  apply h.append rfl deleteInnerTx_journals.archive
  · intro k hk
    rw [liveText_deleteInnerTx hskel, if_neg hk]
  · intro text htext
    rw [liveText_deleteInnerTx hskel, if_pos rfl] at htext
    exact absurd htext (by simp)

/-- A valid message has no empty text. -/
theorem text_of_valid {msg : IngestedMessage} (hvalid : validateIngest msg = .ok ()) {text : String}
    (htext : msg.textContent = some text) : text.isEmpty = false := by
  rw [← Bool.not_eq_true]
  intro hempty
  unfold validateIngest at hvalid
  rw [htext] at hvalid
  simp only [Option.map_some, hempty, Option.getD_some, if_true] at hvalid
  split_ifs at hvalid

/-- **One call keeps every text** unless it is a media send with a caption. -/
theorem keepsText_step (h : KeepsText F db) (hstep : Call.Step F db call db') (hsound : call.Captionless db) :
    KeepsText F db' := by
  cases Call.did hstep with
  | nothing _ => exact h
  | @ingested msg receivedAtMs _ _ kind hvalid hcreate hjournals =>
      have htexts : ∀ k, db'.liveText k = if k = msg.messageId then msg.textContent else db.liveText k :=
        hcreate.liveText rfl
      apply h.append (m := msg.messageId) rfl hjournals.archive
      · intro k hk
        rw [htexts k, if_neg hk]
      · intro text htext
        rw [htexts, if_pos rfl] at htext
        refine ⟨by simp [isTextEvent, receivedEvent, IngestedMessage.skeleton], ?_⟩
        rw [htext]
        exact decode_receivedEvent (text_of_valid hvalid htext)
  | @sent entry _ _ hlands hcreate hjournals =>
      have htexts : ∀ k, db'.liveText k =
          if k = entry.clientMessageId then some entry.textContent else db.liveText k := hcreate.liveText rfl
      apply h.append (m := entry.clientMessageId) rfl hjournals.archive
      · intro k hk
        rw [htexts k, if_neg hk]
      · intro text htext
        rw [htexts, if_pos rfl] at htext
        obtain rfl := Option.some.inj htext
        exact ⟨by simp [isTextEvent, receivedEvent, OutboxEntry.skeleton], decode_receivedEvent hlands.text⟩
  | marked _ => exact h
  | @sentMedia send _ now _ hlands hcreate hjournals =>
      have htexts : ∀ k, db'.liveText k = if k = send.messageId then send.caption else db.liveText k :=
        hcreate.liveText rfl
      apply h.append (m := send.messageId) rfl hjournals.archive
      · intro k hk
        rw [htexts k, if_neg hk]
      · intro text htext
        -- a caption has no event of its own: here there is none
        rw [htexts, if_pos rfl, hsound hlands] at htext
        exact absurd htext (by simp)
  | @edited m newText ms skel htext hskel hstate =>
      obtain rfl := Table.key_of_find? hskel
      apply h.append (m := skel.messageId) rfl editMessageInner_journals.archive
      · intro k hk
        rw [liveText_editMessageInner hskel hstate, if_neg hk]
      · intro text hlive
        rw [liveText_editMessageInner hskel hstate, if_pos rfl] at hlive
        obtain ⟨body, -, rfl⟩ := Option.map_eq_some_iff.mp hlive
        refine ⟨by simp [isTextEvent], ?_⟩
        show tryDecodeText F.primitives (encodeBodyPayload F.primitives (some newText)) = some newText
        rw [tryDecodeText_encodeBodyPayload]
        simp [htext]
  | @deletedForMe m ms skel hskel _ =>
      obtain rfl := Table.key_of_find? hskel
      exact keepsText_deleteInnerTx h hskel
  | @deletedForEveryone m ms skel hskel _ =>
      obtain rfl := Table.key_of_find? hskel
      exact keepsText_deleteInnerTx h hskel

/-- **A media send with a caption loses it.** -/
theorem loses_caption (hlegacy : RejectsLegacy F) (hstep : Call.Step F db call db') (h : KeepsText F db') :
    call.Captionless db := by
  cases Call.did hstep with
  | nothing hidle =>
      cases call with
      | sendMedia send processed now => exact fun hlands => absurd hlands hidle
      | _ => exact trivial
  | @sentMedia send _ now _ hlands hcreate hjournals =>
      intro _
      by_contra hcaption
      obtain ⟨caption, hcaption⟩ := Option.ne_none_iff_exists'.mp hcaption
      have hlive : db'.liveText send.messageId = some caption := by
        rw [hcreate.liveText rfl, hcaption]
        exact if_pos rfl
      have hkept := h send.messageId caption hlive
      rw [hjournals.archive, archivedText_append, if_pos (by simp [isTextEvent])] at hkept
      have hnothing : tryDecodeText F.primitives (skeletonPayload (send.skeleton now)) = none := hlegacy _ _ _ _
      rw [hnothing] at hkept
      exact absurd hkept (by simp)
  | _ => exact trivial

/-- A conversation that is deleted takes texts and leaves the journal. -/
theorem keepsText_deleteConversation (h : KeepsText F db) (c : Uuid) : KeepsText F (db.deleteConversation c).1 := by
  intro m text htext
  show archivedText F db.archiveJournal m = some text
  apply h
  rw [← deleteConversation_snd, liveText_deleteConversation] at htext
  by_cases hin : db.inConversation c m.toText = true
  · rw [if_pos hin] at htext
    exact absurd htext (by simp)
  · rwa [if_neg hin] at htext

/-! ## Histories -/

/-- A call of the core that is no media send with a caption. -/
def CoreCall.Captionless (db : LocalStoreDb) (call : CoreCall) : Prop := call.Meets Call.Captionless (fun _ _ => True) db

theorem keepsText_coreStep {call : CoreCall} (h : KeepsText F db) (hstep : CoreCall.Step F db call db')
    (hsound : call.Captionless db) : KeepsText F db' := by
  apply CoreCall.step_preserves _ _ _ h hstep hsound
  · intro db call db' h hstep hsound
    exact keepsText_step h hstep hsound
  · intro db msg receivedAtMs journaledAtMs db' h hok m text htext
    have hhang : HangsOff msg.messageId db' (maybeEmbedTextMessage F db' msg) := HangsOff.maybeEmbedTextMessage rfl
    rw [hhang.archiveJournal]
    rw [hhang.liveText] at htext
    exact keepsText_step h (step_persistIngestedMessage hok) trivial m text htext
  · intro db c h _
    exact keepsText_deleteConversation h c

/-- **A history keeps every text in the archive journal exactly when no media send of it has a caption**; that it does
without captions needs nothing of the decoder. -/
theorem keepsText_iff {conversations : Table Conversation.conversationId} {tr : List (LocalStoreDb × CoreCall)}
    (hrun : CoreHistory F (.fresh conversations) tr db) :
    ((∀ p ∈ tr, p.2.Captionless p.1) → (∀ p ∈ tr, KeepsText F p.1) ∧ KeepsText F db) ∧
      (RejectsLegacy F → (∀ p ∈ tr, KeepsText F p.1) ∧ KeepsText F db → ∀ p ∈ tr, p.2.Captionless p.1) := by
  have hstart : KeepsText F (.fresh conversations) := by
    intro m text htext
    exact absurd htext (by simp [LocalStoreDb.liveText, LocalStoreDb.fresh])
  refine ⟨?_, ?_⟩
  · intro hsound
    apply hrun.invariant_throughout (I := KeepsText F) (G := fun db call => call.Captionless db) _ hsound hstart
    intro db call db' h hsound hstep
    exact keepsText_coreStep h hstep hsound
  · -- conversely, a caption that is stored is read back nowhere
    intro hlegacy hkeeps
    refine (hrun.throughout_iff (I := KeepsText F) (J := fun _ => True) (G := fun db call => call.Captionless db)
      (fun _ _ _ _ _ _ => trivial) ?_ trivial hstart).mp hkeeps
    intro db call db' _ h hstep
    refine ⟨?_, keepsText_coreStep h hstep⟩
    intro h'
    apply CoreCall.meets_of_step _ _ h hstep h'
    · intro db call db' _ hstep h'
      exact loses_caption hlegacy hstep h'
    · intro db c _ _
      exact trivial

/-! "hi" arrives as a text, or is the caption of a picture. -/

theorem keepsText_hi : ∃ db tr, CoreHistory .bare (.fresh oneConversation) tr db ∧
    ((∀ p ∈ tr, p.2.Captionless p.1) → (∀ p ∈ tr, KeepsText .bare p.1) ∧ KeepsText .bare db) ∧
      (RejectsLegacy .bare → (∀ p ∈ tr, KeepsText .bare p.1) ∧ KeepsText .bare db → ∀ p ∈ tr, p.2.Captionless p.1) := by
  obtain ⟨db, hstep⟩ : ∃ db, CoreCall.Step .bare (.fresh oneConversation)
      (.ingestMessages [⟨aliceSays "hi", 1001, 1002⟩]) db := ⟨_, rfl⟩
  exact ⟨db, _, Run.single hstep, keepsText_iff (Run.single hstep)⟩

/-- A picture with a caption. -/
def captionedPicture : MediaSend := ⟨⟨1⟩, ⟨2⟩, [0], "image/png", some "hi"⟩

/-- The picture can be sent on a store with its conversation. -/
theorem captionedPicture_lands : captionedPicture.Lands (.ok pictureDescriptor) (.fresh oneConversation) where
  plaintext := rfl
  mimeType := by decide
  fresh := rfl
  registered := by decide
  asset := ⟨pictureDescriptor, rfl, rfl⟩

/-- **The caption of a picture is in no archived event.** -/
theorem caption_not_in_archive : ∃ tr db, CoreHistory .bare (.fresh oneConversation) tr db ∧
    db.liveText ⟨2⟩ = some "hi" ∧ archivedText .bare db.archiveJournal ⟨2⟩ = none := by
  obtain ⟨db, hok⟩ := (sendMedia_isOk_iff .bare 2000).mpr captionedPicture_lands
  obtain ⟨hcreate, hjournals⟩ := sendMedia_eq_ok hok
  have hstep : CoreCall.Step .bare (.fresh oneConversation)
      (.message (.sendMedia captionedPicture (.ok pictureDescriptor) 2000)) db := by
    show settle (sendMedia .bare (.fresh oneConversation) captionedPicture (.ok pictureDescriptor) 2000)
      (.fresh oneConversation) = db
    rw [hok, settle_ok]
  have hnothing : tryDecodeText Primitives.reference (encodeEventPayload ⟨2⟩ ⟨1⟩ "self" 2000) = none := by decide +kernel
  refine ⟨_, db, Run.single hstep, hcreate.liveText rfl _, ?_⟩
  rw [hjournals.archive, archivedText_append]
  exact hnothing

end KChatCore.Message
