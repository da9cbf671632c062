import KChatCore.Message.Calls

/-!
# `Message.Core` — ingesting a batch

`ingestMessages` persists message after message, each in its own savepoint. A duplicate is counted and skipped; any
other error ends the batch, and what was persisted before it stays.
-/

namespace KChatCore.Message

open Lib LocalStore

/-- A message on its way in, with the clock readings its ingest takes. -/
structure Arrival where
  msg : IngestedMessage
  receivedAtMs : Int
  journaledAtMs : Int
deriving DecidableEq

/-- `IngestResult`. -/
structure IngestResult where
  newMessages : Nat
  updatedMessages : Nat
  duplicateCount : Nat
  nextCursor : Option String
deriving DecidableEq, Repr

/-- The loop of `ingest_messages`. -/
def ingestLoop (F : Platform) : List Arrival → IngestResult → LocalStoreDb → Except Error IngestResult × LocalStoreDb
  | [], result, db => (.ok result, db)
  | a :: batch, result, db =>
      match persistIngestedMessage F db a.msg a.receivedAtMs a.journaledAtMs with
      | .ok db' =>
          ingestLoop F batch { result with newMessages := result.newMessages + 1 } (maybeEmbedTextMessage F db' a.msg)
      | .error .duplicateMessage => ingestLoop F batch { result with duplicateCount := result.duplicateCount + 1 } db
      | .error e => (.error (.message (.custom e.display)), db)

/-- `ingest_messages`, up to the desktop index. -/
def ingestMessages (F : Platform) (batch : List Arrival) (db : LocalStoreDb) : Except Error IngestResult × LocalStoreDb :=
  ingestLoop F batch ⟨0, 0, 0, none⟩ db

/-- **Induction over a batch**: what one persisted message keeps, the batch keeps. -/
theorem ingestLoop_invariant {F : Platform} {I : LocalStoreDb → Prop} {batch : List Arrival}
    (hstep : ∀ db a db', a ∈ batch → I db → persistIngestedMessage F db a.msg a.receivedAtMs a.journaledAtMs = .ok db' →
      I (maybeEmbedTextMessage F db' a.msg)) {result : IngestResult} {db : LocalStoreDb} (h : I db) :
    I (ingestLoop F batch result db).2 := by
  induction batch generalizing result db with
  | nil => exact h
  | cons a batch ih =>
      have hrest : ∀ db a db', a ∈ batch → I db →
          persistIngestedMessage F db a.msg a.receivedAtMs a.journaledAtMs = .ok db' →
          I (maybeEmbedTextMessage F db' a.msg) := by
        intro db a db' ha
        exact hstep db a db' (List.mem_cons_of_mem _ ha)
      unfold ingestLoop
      cases hpersist : persistIngestedMessage F db a.msg a.receivedAtMs a.journaledAtMs with
      | ok db' => exact ih hrest (hstep db a db' List.mem_cons_self h hpersist)
      | error e =>
          cases e with
          | duplicateMessage => exact ih hrest h
          | invalidMessage msg => exact h
          | storageError msg => exact h
          | db e => exact h
          | illegalTransition e => exact h

/-- **A batch leaves the messages that were there alone.** -/
theorem view_ingestMessages {F : Platform} {batch : List Arrival} {db : LocalStoreDb} {m : Uuid}
    (hm : db.skeletons.has m = true) : (ingestMessages F batch db).2.view m = db.view m := by
  apply ingestLoop_invariant (I := fun db' => db'.view m = db.view m)
  · intro db₁ a db₂ _ hview hpersist
    obtain ⟨-, kind, -, hcreate, -⟩ := persistIngestedMessage_eq_ok hpersist
    -- the id of the new message is free, so it is not this one
    have hthere : db₁.skeletons.has m = true := by
      have hskel : db₁.skeletons.find? m = db.skeletons.find? m := congrArg MessageView.skeleton hview
      rw [Table.has, hskel]
      exact hm
    have hne : m ≠ a.msg.messageId := by
      intro heq
      have hfresh : db₁.skeletons.has a.msg.messageId = false := hcreate.fresh
      rw [← heq, hthere] at hfresh
      exact absurd hfresh (by decide)
    rw [(HangsOff.maybeEmbedTextMessage rfl).view m hne, hcreate.others m hne, hview]
  · rfl

/-! ## How far a batch gets -/

/-- The asset ids of a message. -/
def IngestedMessage.assetIds (msg : IngestedMessage) : List Uuid := msg.mediaDescriptors.map MediaDescriptor.assetId

/-- A message whose id the store has, or one that landed before it. -/
def Arrival.isDuplicate (db : LocalStoreDb) (landed : List Arrival) (a : Arrival) : Bool :=
  db.skeletons.has a.msg.messageId || landed.any fun l => l.msg.messageId = a.msg.messageId

/-- A message of a registered conversation whose asset ids are distinct and free. -/
def Arrival.isAdmissible (db : LocalStoreDb) (landed : List Arrival) (a : Arrival) : Bool :=
  db.conversations.has a.msg.conversationId && decide a.msg.assetIds.Nodup &&
    a.msg.assetIds.all fun id => !db.assets.has id && landed.all fun l => id ∉ l.msg.assetIds

/-- **The messages before the first one the store rejects**, where `landed` are in already. -/
def accepted (db : LocalStoreDb) : List Arrival → List Arrival → List Arrival
  | _, [] => []
  | landed, a :: batch =>
      match validateIngest a.msg with
      | .error _ => []
      | .ok () =>
          if a.isDuplicate db landed then a :: accepted db landed batch
          else if a.isAdmissible db landed then a :: accepted db (landed ++ [a]) batch
          else []

/-- The text a message has after the batch `batch` got through: the one it had, or that of its first arrival. -/
def textAfter (db : LocalStoreDb) (batch : List Arrival) (m : Uuid) : Option String :=
  if db.skeletons.has m then db.liveText m
  else (batch.find? fun a => a.msg.messageId = m).bind fun a => a.msg.textContent

/-- **The store after the messages `landed` are in.** -/
structure Follows (db₀ : LocalStoreDb) (landed : List Arrival) (db : LocalStoreDb) : Prop where
  skeletons : ∀ m, db.skeletons.has m = (db₀.skeletons.has m || landed.any fun l => l.msg.messageId = m)
  conversations : ∀ c, db.conversations.has c = db₀.conversations.has c
  assets : ∀ id, db.assets.has id = false ↔ db₀.assets.has id = false ∧ ∀ l ∈ landed, id ∉ l.msg.assetIds
  text : ∀ m, db.liveText m = textAfter db₀ landed m

section Follows

variable {F : Platform} {db₀ db db' : LocalStoreDb} {landed : List Arrival} {a : Arrival}

theorem Follows.refl (db : LocalStoreDb) : Follows db [] db where
  skeletons m := by simp
  conversations c := rfl
  assets id := by simp
  text m := by
    unfold textAfter
    by_cases h : db.skeletons.has m = true
    · rw [if_pos h]
    · rw [if_neg h]
      exact LocalStoreDb.liveText_of_free (Bool.eq_false_iff.mpr h)

theorem Follows.duplicate_iff (h : Follows db₀ landed db) :
    persistIngestedMessage F db a.msg a.receivedAtMs a.journaledAtMs = .error .duplicateMessage ↔
      validateIngest a.msg = .ok () ∧ a.isDuplicate db₀ landed = true := by
  rw [persistIngestedMessage_duplicate, h.skeletons]
  rfl

theorem Follows.lands_iff (h : Follows db₀ landed db) :
    a.msg.Lands db ↔
      validateIngest a.msg = .ok () ∧ a.isDuplicate db₀ landed = false ∧ a.isAdmissible db₀ landed = true := by
  have hfresh : db.skeletons.has a.msg.messageId = a.isDuplicate db₀ landed := h.skeletons _
  have hassets : (∀ desc ∈ a.msg.mediaDescriptors, db.assets.has desc.assetId = false) ↔
      (a.msg.assetIds.all fun id => !db₀.assets.has id && landed.all fun l => id ∉ l.msg.assetIds) = true := by
    rw [List.all_eq_true]
    constructor
    · intro hfrees id hid
      obtain ⟨desc, hdesc, rfl⟩ := List.mem_map.mp hid
      obtain ⟨hfree, hothers⟩ := (h.assets _).mp (hfrees desc hdesc)
      rw [hfree]
      simpa using hothers
    · intro hall desc hdesc
      have hboth := hall desc.assetId (List.mem_map_of_mem hdesc)
      rw [Bool.and_eq_true, Bool.not_eq_true', List.all_eq_true] at hboth
      exact (h.assets _).mpr ⟨hboth.1, fun l hl => of_decide_eq_true (hboth.2 l hl)⟩
  constructor
  · rintro ⟨hvalid, hfree, hconv, hdistinct, hfrees⟩
    refine ⟨hvalid, hfresh ▸ hfree, ?_⟩
    unfold Arrival.isAdmissible
    rw [← h.conversations, hconv, hassets.mp hfrees, Bool.true_and, Bool.and_true]
    exact decide_eq_true hdistinct
  · rintro ⟨hvalid, hfree, hadmissible⟩
    unfold Arrival.isAdmissible at hadmissible
    rw [Bool.and_eq_true, Bool.and_eq_true, ← h.conversations] at hadmissible
    obtain ⟨⟨hconv, hdistinct⟩, hfrees⟩ := hadmissible
    exact ⟨hvalid, hfresh ▸ hfree, hconv, of_decide_eq_true hdistinct, hassets.mpr hfrees⟩

/-- The text of the messages that are in, with one more. -/
theorem textAfter_concat (m : Uuid) :
    textAfter db₀ (landed ++ [a]) m =
      if db₀.skeletons.has m || landed.any fun l => l.msg.messageId = m then textAfter db₀ landed m
      else if a.msg.messageId = m then a.msg.textContent else none := by
  unfold textAfter
  by_cases hold : db₀.skeletons.has m = true
  · simp [hold]
  · rw [if_neg hold, if_neg hold, Bool.eq_false_iff.mpr hold, Bool.false_or, List.find?_append]
    cases hfound : landed.find? fun l => decide (l.msg.messageId = m) with
    | some l =>
        have hany : (landed.any fun l => decide (l.msg.messageId = m)) = true :=
          List.any_eq_true.mpr ⟨l, List.mem_of_find?_eq_some hfound, by simpa using List.find?_some hfound⟩
        rw [if_pos hany]
        rfl
    | none =>
        have hany : (landed.any fun l => decide (l.msg.messageId = m)) = false :=
          List.any_eq_false.mpr (List.find?_eq_none.mp hfound)
        rw [hany, if_neg Bool.false_ne_true]
        by_cases hid : a.msg.messageId = m <;> simp [hid]

/-- **One more message is in.** -/
theorem Follows.concat (h : Follows db₀ landed db)
    (hok : persistIngestedMessage F db a.msg a.receivedAtMs a.journaledAtMs = .ok db') :
    Follows db₀ (landed ++ [a]) (maybeEmbedTextMessage F db' a.msg) := by
  obtain ⟨-, kind, -, hcreate, -⟩ := persistIngestedMessage_eq_ok hok
  -- the vector hangs off the new message, and touches no other
  have hembed : HangsOff a.msg.messageId db' (maybeEmbedTextMessage F db' a.msg) := HangsOff.maybeEmbedTextMessage rfl
  have hview : ∀ m, m ≠ a.msg.messageId → (maybeEmbedTextMessage F db' a.msg).view m = db.view m := by
    intro m hm
    rw [hembed.view m hm, hcreate.others m hm]
  have hskel : (maybeEmbedTextMessage F db' a.msg).skeletons.find? a.msg.messageId =
      some (a.msg.skeleton kind a.receivedAtMs) := by
    rw [hembed.skeletons]
    exact hcreate.skeleton
  have hbody : (maybeEmbedTextMessage F db' a.msg).bodies.find? a.msg.messageId =
      a.msg.textContent.map fun t => ⟨a.msg.messageId, some t, none, none⟩ := by
    rw [hembed.bodies]
    exact hcreate.body
  have hfresh : db.skeletons.has a.msg.messageId = false := hcreate.fresh
  rw [h.skeletons] at hfresh
  constructor
  · intro m
    by_cases hm : m = a.msg.messageId
    · subst hm
      rw [Table.has, hskel]
      simp
    · have hfind : (maybeEmbedTextMessage F db' a.msg).skeletons.find? m = db.skeletons.find? m :=
        congrArg MessageView.skeleton (hview m hm)
      rw [Table.has, hfind, ← Table.has, h.skeletons, List.any_append]
      simp [Ne.symm hm]
  · intro c
    rw [hembed.conversations, hcreate.conversations, h.conversations]
  · intro id
    rw [maybeEmbedTextMessage_assets, persistIngestedMessage_assets hok, h.assets]
    simp only [List.mem_append, List.mem_singleton, or_imp, forall_and, forall_eq]
    exact and_assoc
  · intro m
    rw [textAfter_concat]
    by_cases hm : m = a.msg.messageId
    · subst hm
      rw [if_neg (by rw [hfresh]; exact Bool.false_ne_true), if_pos rfl, LocalStoreDb.liveText, hskel, hbody]
      show (a.msg.textContent.map _).bind MessageBody.textContent = _
      cases a.msg.textContent <;> rfl
    · rw [LocalStoreDb.liveText_of_view (hview m hm), h.text]
      -- the first arrival of an id decides its text
      by_cases hin : (db₀.skeletons.has m || landed.any fun l => decide (l.msg.messageId = m)) = true
      · rw [if_pos hin]
      · rw [if_neg hin, if_neg (Ne.symm hm), ← h.text]
        apply LocalStoreDb.liveText_of_free
        rw [h.skeletons]
        exact Bool.eq_false_iff.mpr hin

end Follows

/-- The text after a duplicate is the text before it. -/
theorem textAfter_duplicate {db : LocalStoreDb} {landed batch : List Arrival} {a : Arrival}
    (hdup : a.isDuplicate db landed = true) :
    textAfter db (landed ++ a :: batch) = textAfter db (landed ++ batch) := by
  funext m
  unfold textAfter
  by_cases hold : db.skeletons.has m = true
  · rw [if_pos hold, if_pos hold]
  · rw [if_neg hold, if_neg hold, List.find?_append, List.find?_append]
    cases hfound : landed.find? fun l => decide (l.msg.messageId = m) with
    | some l => rfl
    | none =>
        -- the message has another id: the store and the landed ones do not have this one
        have hne : a.msg.messageId ≠ m := by
          rintro rfl
          unfold Arrival.isDuplicate at hdup
          rw [Bool.eq_false_iff.mpr hold, Bool.false_or, List.any_eq_true] at hdup
          obtain ⟨l, hl, hid⟩ := hdup
          exact List.find?_eq_none.mp hfound l hl hid
        rw [List.find?_cons_of_neg (by simpa using hne)]

/-- **What the loop leaves**: the texts of the accepted messages; it succeeds when they are the whole batch. -/
theorem ingestLoop_accepted {F : Platform} {db₀ db : LocalStoreDb} {landed batch : List Arrival} (h : Follows db₀ landed db)
    (result : IngestResult) :
    (∀ m, (ingestLoop F batch result db).2.liveText m = textAfter db₀ (landed ++ accepted db₀ landed batch) m) ∧
      ((ingestLoop F batch result db).1.isOk = true ↔ accepted db₀ landed batch = batch) := by
  induction batch generalizing landed db result with
  | nil => exact ⟨by simpa [ingestLoop, accepted] using h.text, by simp [ingestLoop, accepted, Except.isOk, Except.toBool]⟩
  | cons a batch ih =>
      unfold ingestLoop
      cases hpersist : persistIngestedMessage F db a.msg a.receivedAtMs a.journaledAtMs with
      | ok db' =>
          obtain ⟨hvalid, hnew, hadmissible⟩ :=
            h.lands_iff.mp ((persistIngestedMessage_isOk_iff F a.receivedAtMs a.journaledAtMs).mp ⟨db', hpersist⟩)
          have haccepted : accepted db₀ landed (a :: batch) = a :: accepted db₀ (landed ++ [a]) batch := by
            rw [accepted, hvalid]
            simp [hnew, hadmissible]
          obtain ⟨htext, hok⟩ := ih (h.concat hpersist) { result with newMessages := result.newMessages + 1 }
          rw [haccepted]
          refine ⟨?_, ?_⟩
          · intro m
            rw [htext m, List.append_assoc]
            rfl
          · rw [List.cons.injEq]
            exact hok.trans (by simp)
      | error e =>
          by_cases hdup : e = .duplicateMessage
          · subst hdup
            obtain ⟨hvalid, hknown⟩ := h.duplicate_iff.mp hpersist
            have haccepted : accepted db₀ landed (a :: batch) = a :: accepted db₀ landed batch := by
              rw [accepted, hvalid]
              simp [hknown]
            obtain ⟨htext, hok⟩ := ih h { result with duplicateCount := result.duplicateCount + 1 }
            rw [haccepted, textAfter_duplicate hknown]
            refine ⟨htext, ?_⟩
            rw [List.cons.injEq]
            exact hok.trans (by simp)
          · -- neither new nor a duplicate: the batch ends here
            have haccepted : accepted db₀ landed (a :: batch) = [] := by
              rw [accepted]
              cases hvalid : validateIngest a.msg with
              | error _ => rfl
              | ok u =>
                  have hnew : a.isDuplicate db₀ landed = false := by
                    rw [← Bool.not_eq_true]
                    intro hknown
                    have hdup' := (h.duplicate_iff (F := F)).mpr ⟨hvalid, hknown⟩
                    exact hdup (Except.error.inj (hpersist.symm.trans hdup'))
                  have hrejected : a.isAdmissible db₀ landed = false := by
                    rw [← Bool.not_eq_true]
                    intro hadmissible
                    obtain ⟨db', hok⟩ := (persistIngestedMessage_isOk_iff F a.receivedAtMs a.journaledAtMs).mpr
                      (h.lands_iff.mpr ⟨hvalid, hnew, hadmissible⟩)
                    exact absurd (hpersist.symm.trans hok) (by simp)
                  simp [hnew, hrejected]
            rw [haccepted, List.append_nil]
            cases e with
            | duplicateMessage => exact absurd rfl hdup
            | invalidMessage msg => exact ⟨h.text, by simp [Except.isOk, Except.toBool]⟩
            | storageError msg => exact ⟨h.text, by simp [Except.isOk, Except.toBool]⟩
            | db e => exact ⟨h.text, by simp [Except.isOk, Except.toBool]⟩
            | illegalTransition e => exact ⟨h.text, by simp [Except.isOk, Except.toBool]⟩

/-! ## The other calls of the core -/

/-- `delete_conversation`. -/
def deleteConversation (db : LocalStoreDb) (c : Uuid) : Except Error Unit × LocalStoreDb :=
  let (db', n) := db.deleteConversation c
  if n = 0 then (.error (.storageMsg ("no conversation with id=" ++ c.hyphenated)), db') else (.ok (), db')

theorem deleteConversation_snd (db : LocalStoreDb) (c : Uuid) :
    (deleteConversation db c).2 = (db.deleteConversation c).1 := by
  show (if _ = 0 then _ else _ : Except Error Unit × LocalStoreDb).2 = _
  split_ifs <;> rfl

/-- A conversation can be deleted exactly when it is registered. -/
theorem deleteConversation_isOk_iff {db : LocalStoreDb} {c : Uuid} :
    deleteConversation db c = (.ok (), (db.deleteConversation c).1) ↔ db.conversations.has c = true := by
  have hcount : (db.deleteConversation c).2 = 0 ↔ ¬ db.conversations.has c = true := by
    rw [Bool.not_eq_true, Table.has_eq_false]
    show (List.filter _ _).length = 0 ↔ _
    rw [List.length_eq_zero_iff, List.filter_eq_nil_iff]
    simp only [decide_eq_true_eq]
  unfold deleteConversation
  by_cases h : (db.deleteConversation c).2 = 0
  · simp only [h, if_true]
    exact iff_of_false (by simp) (hcount.mp h)
  · simp only [h, if_false]
    exact iff_of_true trivial (not_not.mp (mt hcount.mpr h))

/-- The texts after a conversation is deleted. -/
theorem liveText_deleteConversation (db : LocalStoreDb) (c m : Uuid) :
    (deleteConversation db c).2.liveText m = if db.inConversation c m.toText = true then none else db.liveText m := by
  have hview := db.view_deleteConversation c m
  rw [deleteConversation_snd]
  by_cases hin : db.inConversation c m.toText = true
  · have hskel : (db.deleteConversation c).1.skeletons.find? m = none := by
      rw [if_pos hin] at hview
      exact congrArg MessageView.skeleton hview
    rw [if_pos hin, LocalStoreDb.liveText, hskel, Option.bind_none]
  · rw [if_neg hin] at hview ⊢
    exact LocalStoreDb.liveText_of_view hview

/-! ## Histories of the core -/

/-- The calls of the core: a batch, a call of the message layer, the deletion of a conversation. -/
inductive CoreCall
  | ingestMessages (batch : List Arrival)
  | message (call : Call)
  | deleteConversation (c : Uuid)

namespace CoreCall

/-- The store a call leaves. -/
def apply (F : Platform) (db : LocalStoreDb) : CoreCall → LocalStoreDb
  | ingestMessages batch => (Message.ingestMessages F batch db).2
  | message call => call.apply F db
  | deleteConversation c => (Message.deleteConversation db c).2

/-- One call as a step. -/
def Step (F : Platform) (db : LocalStoreDb) (call : CoreCall) (db' : LocalStoreDb) : Prop := call.apply F db = db'

/-- A condition on the calls of the message layer and one on deleted conversations; a batch always meets it. -/
def Meets (G : LocalStoreDb → Call → Prop) (D : LocalStoreDb → Uuid → Prop) (db : LocalStoreDb) : CoreCall → Prop
  | ingestMessages _ => True
  | message call => G db call
  | deleteConversation c => D db c

section Invariant

variable {F : Platform} {I : LocalStoreDb → Prop} {G : LocalStoreDb → Call → Prop} {D : LocalStoreDb → Uuid → Prop}

/-- **One call of the core and an invariant**: a batch keeps it when each ingest does, the rest is case by case. -/
theorem step_preserves (hcall : ∀ db call db', I db → Call.Step F db call db' → G db call → I db')
    (hingest : ∀ db msg receivedAtMs journaledAtMs db', I db →
      persistIngestedMessage F db msg receivedAtMs journaledAtMs = .ok db' → I (maybeEmbedTextMessage F db' msg))
    (hdelete : ∀ db c, I db → D db c → I (db.deleteConversation c).1) {db db' : LocalStoreDb} {call : CoreCall} (h : I db)
    (hstep : Step F db call db') (hmeets : call.Meets G D db) : I db' := by
  unfold Step at hstep
  subst hstep
  cases call with
  | ingestMessages batch =>
      apply ingestLoop_invariant _ h
      intro db a db' _ hdb hok
      exact hingest db a.msg _ _ db' hdb hok
  | message call => exact hcall db call _ h rfl hmeets
  | deleteConversation c =>
      show I (Message.deleteConversation db c).2
      rw [deleteConversation_snd]
      exact hdelete db c h hmeets

/-- What breaks an invariant is a call of the message layer or a deleted conversation. -/
theorem meets_of_step (hcall : ∀ db call db', I db → Call.Step F db call db' → I db' → G db call)
    (hdelete : ∀ db c, I db → I (db.deleteConversation c).1 → D db c) {db db' : LocalStoreDb} {call : CoreCall} (h : I db)
    (hstep : Step F db call db') (h' : I db') : call.Meets G D db := by
  unfold Step at hstep
  subst hstep
  cases call with
  | ingestMessages batch => exact trivial
  | message call => exact hcall db call _ h rfl h'
  | deleteConversation c =>
      apply hdelete db c h
      rw [← deleteConversation_snd]
      exact h'

end Invariant

end CoreCall

/-- **A history of the core**, with the stores before its calls. -/
abbrev CoreHistory (F : Platform) (db : LocalStoreDb) (tr : List (LocalStoreDb × CoreCall)) (db' : LocalStoreDb) : Prop :=
  Run (CoreCall.Step F) db tr db'

end KChatCore.Message
