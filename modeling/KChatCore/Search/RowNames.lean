import KChatCore.Message.RowOwners
import KChatCore.Search.IndexedRows

/-!
# `Search.RowNames` — a text row says what the skeleton of its message says

`IndexedRows` is silent on the rows of document pages, which are under ids of their own. As long as no conversation is
dropped, every text row belongs to a message that is there, and has its conversation, its sender and its time
(`OwnedRows`). So rows under one id say the same of it.
-/

namespace KChatCore.Search

open Lib LocalStore Message Archive

/-- **Every text row is of a message** that is there, under its id or that of a page. -/
def OwnedRows (db : LocalStoreDb) : Prop :=
  ∀ r ∈ db.fts, ∃ m skel, OwnRow m r.messageId ∧ db.skeletons.find? m = some skel ∧
    r = textRow skel r.messageId r.textContent

/-- Messages stay, with their conversation, sender and time. -/
def HeadsStay (db db' : LocalStoreDb) : Prop :=
  ∀ m skel, db.skeletons.find? m = some skel → ∃ skel', db'.skeletons.find? m = some skel' ∧ textRow skel' = textRow skel

variable {F : Platform} {db db' : LocalStoreDb}

theorem ownedRows_fresh (conversations : Table Conversation.conversationId) : OwnedRows (.fresh conversations) :=
  fun r hr => absurd hr (by simp [LocalStoreDb.fresh])

/-! ## One changed message -/

theorem HeadsStay.change {k : Uuid} (hothers : ∀ m, m ≠ k → db'.view m = db.view m)
    (hk : ∀ skel, db.skeletons.find? k = some skel → ∃ skel', db'.skeletons.find? k = some skel' ∧
      textRow skel' = textRow skel) : HeadsStay db db' := by
  intro m skel hskel
  by_cases hm : m = k
  · subst hm
    exact hk skel hskel
  · have hsame : db'.skeletons.find? m = db.skeletons.find? m := congrArg MessageView.skeleton (hothers m hm)
    exact ⟨skel, hsame.trans hskel, rfl⟩

/-- **What a call has to show**: messages stay, and a new row is of one of them. -/
theorem OwnedRows.step (h : OwnedRows db) (hstay : HeadsStay db db')
    (hrows : ∀ r ∈ db'.fts, r ∈ db.fts ∨ ∃ m skel, OwnRow m r.messageId ∧ db'.skeletons.find? m = some skel ∧
      r = textRow skel r.messageId r.textContent) : OwnedRows db' := by
  intro r hr
  rcases hrows r hr with hold | hnew
  · obtain ⟨m, skel, hown, hskel, hrow⟩ := h r hold
    obtain ⟨skel', hskel', hsame⟩ := hstay m skel hskel
    exact ⟨m, skel', hown, hskel', by rw [hsame]; exact hrow⟩
  · exact hnew

/-- **A new message**, with the text rows it brings. -/
theorem OwnedRows.create (h : OwnedRows db) {skel : MessageSkeleton} {text : Option String}
    (hcreate : Creates db db' skel text) {rows : List FtsRow} (hfts : db'.fts = db.fts ++ rows)
    (hrows : ∀ r ∈ rows, OwnRow skel.messageId r.messageId ∧ r = textRow skel r.messageId r.textContent) :
    OwnedRows db' := by
  have hstay : HeadsStay db db' := by
    apply HeadsStay.change hcreate.others
    intro old hold
    have hfresh := hcreate.fresh
    rw [Table.has, hold] at hfresh
    exact absurd hfresh (by simp)
  apply h.step hstay
  intro r hr
  rw [hfts] at hr
  rcases List.mem_append.mp hr with hold | hnew
  · exact .inl hold
  · obtain ⟨hown, hrow⟩ := hrows r hnew
    exact .inr ⟨_, skel, hown, hcreate.skeleton, hrow⟩

/-- The row of the text of a message that changes. -/
theorem OwnedRows.replace (h : OwnedRows db) {k : Uuid} {skel skel' : MessageSkeleton} {text : String}
    (hothers : ∀ m, m ≠ k → db'.view m = db.view m) (hskel : db.skeletons.find? k = some skel)
    (hskel' : db'.skeletons.find? k = some skel') (hsame : textRow skel' = textRow skel)
    (hfts : db'.fts = db.fts.filter (fun r => r.messageId ≠ k.toText) ++ [textRow skel k.toText text]) : OwnedRows db' := by
  have hstay : HeadsStay db db' := by
    apply HeadsStay.change hothers
    intro old hold
    obtain rfl := Option.some.inj (hskel.symm.trans hold)
    exact ⟨skel', hskel', hsame⟩
  apply h.step hstay
  intro r hr
  rw [hfts] at hr
  rcases List.mem_append.mp hr with hold | hnew
  · exact .inl (List.mem_filter.mp hold).1
  · rw [List.mem_singleton.mp hnew, ← hsame]
    exact .inr ⟨k, skel', .inl rfl, hskel', rfl⟩

/-! ## The calls of the message layer -/

theorem ownedRows_ingest {msg : IngestedMessage} {receivedAtMs journaledAtMs : Int} (h : OwnedRows db)
    (hok : persistIngestedMessage F db msg receivedAtMs journaledAtMs = .ok db') : OwnedRows db' := by
  obtain ⟨-, kind, hkind, hcreate, -⟩ := persistIngestedMessage_eq_ok hok
  obtain ⟨-, kind', hfree, hconv, db₂, db₃, hkind', hassets, htext, rfl⟩ := persistIngestedMessage_parts.mp hok
  obtain rfl := Except.ok.inj (hkind.symm.trans hkind')
  obtain ⟨-, hfts⟩ := rowsOf_insertTextIfAny htext
  apply h.create hcreate
  · show db₃.fts = _
    rw [hfts, (insertAssets_indexes hassets).1]
    rfl
  · intro r hr
    obtain ⟨text, -, rfl⟩ := List.mem_map.mp hr
    exact ⟨.inl rfl, rfl⟩

theorem ownedRows_persistOutboxEntry {entry : OutboxEntry} {journaledAtMs : Int} (h : OwnedRows db)
    (hok : persistOutboxEntry F db entry journaledAtMs = .ok db') : OwnedRows db' := by
  obtain ⟨hcreate, -⟩ := persistOutboxEntry_eq_ok hok
  obtain ⟨hfree, hconv, db₂, htext, rfl⟩ := persistOutboxEntry_parts hok
  obtain ⟨-, hfts⟩ := rowsOf_insertTextIfAny htext
  apply h.create hcreate hfts
  intro r hr
  obtain ⟨text, -, rfl⟩ := List.mem_map.mp hr
  exact ⟨.inl rfl, rfl⟩

theorem ownedRows_sendMedia {send : MediaSend} {processed : Except Error MediaDescriptor} {now : Int} (h : OwnedRows db)
    (hok : sendMedia F db send processed now = .ok db') : OwnedRows db' := by
  obtain ⟨hcreate, -⟩ := sendMedia_eq_ok hok
  obtain ⟨rows, hfrom, hall⟩ := fts_sendMedia hok
  apply h.create hcreate hall
  intro r hr
  rcases List.mem_append.mp hr with hr | hr
  · obtain ⟨text, -, rfl⟩ := List.mem_map.mp hr
    exact ⟨.inl rfl, rfl⟩
  · exact ⟨ownRow_of_mem_extractedRows (hfrom r hr), eq_textRow_of_mem_extractedRows (hfrom r hr)⟩

theorem ownedRows_edit {skel : MessageSkeleton} {newText : String} {ms : Int} (h : OwnedRows db)
    (hskel : db.skeletons.find? skel.messageId = some skel) : OwnedRows (editMessageInner F db skel newText ms) :=
  h.replace (fun _ hm => view_editMessageInner_of_ne hm) hskel (editMessageInner_skeleton hskel) rfl rfl

theorem ownedRows_delete {skel : MessageSkeleton} {scope : DeleteScope} {ms : Int} (h : OwnedRows db)
    (hskel : db.skeletons.find? skel.messageId = some skel) : OwnedRows (deleteInnerTx db skel scope ms) := by
  have htombstone := congrArg MessageView.skeleton (view_deleteInnerTx scope ms hskel)
  have hstay : HeadsStay db (deleteInnerTx db skel scope ms) := by
    apply HeadsStay.change (k := skel.messageId) fun _ hm => view_deleteInnerTx_of_ne hm
    intro old hold
    obtain rfl := Option.some.inj (hskel.symm.trans hold)
    exact ⟨_, htombstone, rfl⟩
  apply h.step hstay
  intro r hr
  have hfts : (deleteInnerTx db skel scope ms).fts = db.fts.filter fun r => r.messageId ≠ skel.messageId.toText := by
    obtain ⟨journal, archive, heq⟩ := deleteInnerTx_eq db skel scope ms
    rw [heq]
    cases scope <;> rfl
  rw [hfts] at hr
  exact .inl (List.mem_filter.mp hr).1

/-- A message that arrives, with its vector. -/
theorem ownedRows_arrival {msg : IngestedMessage} {receivedAtMs journaledAtMs : Int} (h : OwnedRows db)
    (hok : persistIngestedMessage F db msg receivedAtMs journaledAtMs = .ok db') :
    OwnedRows (maybeEmbedTextMessage F db' msg) := by
  have hhang : HangsOff msg.messageId db' (maybeEmbedTextMessage F db' msg) := HangsOff.maybeEmbedTextMessage rfl
  have hrows : RowsOf msg.messageId (fun _ => False) db' (maybeEmbedTextMessage F db' msg) :=
    (RowsOf.closure fun _ h => h.elim).maybeEmbedTextMessage rfl
  obtain ⟨rows, hfts, hnone⟩ := hrows.fts
  rw [List.eq_nil_iff_forall_not_mem.mpr hnone, List.append_nil] at hfts
  apply (ownedRows_ingest h hok).step
  · intro m skel hskel
    exact ⟨skel, hhang.skeletons ▸ hskel, rfl⟩
  · intro r hr
    exact .inl (hfts ▸ hr)

/-! ## Rehydration -/

theorem ownedRows_upsert {stub : MessageSkeleton} {landed : Bool} (h : OwnedRows db)
    (hok : toStorage (db.upsertSkeletonFromArchive stub) = .ok (db', landed)) : OwnedRows db' := by
  have hok := toStorage_eq_ok.mp hok
  unfold LocalStoreDb.upsertSkeletonFromArchive at hok
  split_ifs at hok with hfree hconv
  · obtain ⟨rfl, -⟩ := Prod.mk.inj (Except.ok.inj hok)
    have hstay : HeadsStay db (db.addSkeleton stub hfree hconv) := by
      apply HeadsStay.change (k := stub.messageId)
      · intro m hm
        rw [LocalStoreDb.view_addSkeleton, if_neg (Ne.symm hm)]
      · intro old hold
        rw [Table.has, hold] at hfree
        exact absurd hfree (by simp)
    exact h.step hstay fun r hr => .inl hr
  · obtain ⟨rfl, -⟩ := Prod.mk.inj (Except.ok.inj hok)
    exact h

theorem ownedRows_rehydrateBody {k : Uuid} {text : String} {newBodyState : BodyState} (h : OwnedRows db)
    (hok : rehydrateMessageBodyLocally F db k text newBodyState = .ok db') : OwnedRows db' := by
  obtain ⟨skel, hthere, hskel, hdb⟩ := rehydrateMessageBodyLocally_eq_ok hok
  have hbody : (db.upsertMessageBody k text hthere).fts = db.fts := by
    unfold LocalStoreDb.upsertMessageBody
    split <;> rfl
  have hfts : db'.fts = db.fts.filter (fun r => r.messageId ≠ k.toText) ++ [textRow skel k.toText text] := by
    rw [hdb, ← hbody]
    rfl
  exact h.replace (fun _ hm => view_rehydrateMessageBodyLocally hok hm) hskel
    (skeleton_rehydrateMessageBodyLocally hok hskel) rfl hfts

/-- **Every writer keeps the text rows.** -/
theorem upheld_ownedRows (F : Platform) : Upheld F OwnedRows where
  ingest _ _ _ _ _ h hok := ownedRows_ingest h hok
  arrival _ _ _ _ _ h hok := ownedRows_arrival h hok
  outbox _ _ _ _ h hok := ownedRows_persistOutboxEntry h hok
  journal db m _ h := by
    unfold markSent
    cases db.getMessageSkeleton m with
    | none => exact h
    | some skel => exact h
  media _ _ _ _ _ h hok := ownedRows_sendMedia h hok
  edit _ _ _ _ h hskel _ := ownedRows_edit h hskel
  delete _ _ _ _ h hskel := ownedRows_delete h hskel
  stub _ _ _ _ h _ hok := ownedRows_upsert h hok
  body _ _ _ _ _ h _ hok := ownedRows_rehydrateBody h hok

/-- A call that drops no conversation. -/
def KeepsConversations (call : StoreCall) : Prop := ∀ c, call ≠ .core (.deleteConversation c)

/-- **In every history that drops no conversation**, a text row is of a message that is there. -/
theorem ownedRows_history {conversations : Table Conversation.conversationId} {tr : List (LocalStoreDb × StoreCall)}
    (hrun : StoreHistory F (.fresh conversations) tr db) (hrestores : ∀ p ∈ tr, p.2.Restores)
    (hkeeps : ∀ p ∈ tr, KeepsConversations p.2) : OwnedRows db := by
  refine hrun.invariant_of_guarded (G := fun _ call => call.Restores ∧ KeepsConversations call) ?_
    (fun p hp => ⟨hrestores p hp, hkeeps p hp⟩) (ownedRows_fresh conversations)
  rintro db call db' h ⟨hrestores, hkeeps⟩ hstep
  exact (upheld_ownedRows F).step (D := fun _ _ => False) (fun _ _ _ hdrop => hdrop.elim) h hrestores
    (fun c hc => hkeeps c hc) hstep

/-! ## What rows of one id say -/

/-- **Rows under one id say the same of it.** -/
theorem OwnedRows.agree (h : OwnedRows db) (h128 : ∀ m, db.skeletons.has m = true → Is128 m) {r r' : FtsRow}
    (hr : r ∈ db.fts) (hr' : r' ∈ db.fts) (hid : r.messageId = r'.messageId) :
    r.conversationId = r'.conversationId ∧ r.senderId = r'.senderId ∧ r.createdAtMs = r'.createdAtMs := by
  have hthere : ∀ {m : Uuid} {skel : MessageSkeleton}, db.skeletons.find? m = some skel → Is128 m := by
    intro m skel hskel
    apply h128 m
    rw [Table.has, hskel]
    rfl
  obtain ⟨m, skel, hown, hskel, hrow⟩ := h r hr
  obtain ⟨m', skel', hown', hskel', hrow'⟩ := h r' hr'
  rw [← hid] at hown'
  obtain rfl := hown.unique (hthere hskel) (hthere hskel') hown'
  obtain rfl := Option.some.inj (hskel.symm.trans hskel')
  rw [hrow, hrow']
  exact ⟨rfl, rfl, rfl⟩

end KChatCore.Search
