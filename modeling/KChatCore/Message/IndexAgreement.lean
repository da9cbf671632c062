import KChatCore.Message.Core

/-!
# `Message.IndexAgreement` — the search indexes and the messages

The index tables have no foreign keys. A delete drops the rows under the id of the message, in each of the three
tables, and so does the deletion of a conversation; the rows of the pages of a document, which are under ids of their
own, stay. `Agrees` is what the writers keep up as long as no document with indexed pages is deleted and no text
extracted from media repeats its caption.
-/

namespace KChatCore.LocalStore.LocalStoreDb

/-- Some index table has a row under this id. -/
def indexes (db : LocalStoreDb) (rowId : IdText) : Prop :=
  (∃ r ∈ db.fts, r.messageId = rowId) ∨ (∃ r ∈ db.fuzzy.rows, r.messageId = rowId) ∨
    ∃ r ∈ db.vectors.rows, r.messageId = rowId

end KChatCore.LocalStore.LocalStoreDb

namespace KChatCore.Message

open Lib LocalStore

/-- **The indexes agree with the messages**: every row is of a message that is there and not deleted, a page's row
counting as its message's; and every message in plain text has one row of its own that has its text. -/
structure Agrees (db : LocalStoreDb) : Prop where
  owned : ∀ rowId, db.indexes rowId → ∃ m skel, OwnRow m rowId ∧ db.skeletons.find? m = some skel ∧
    skel.bodyState.deleted = false
  text : ∀ m skel body text, db.skeletons.find? m = some skel → skel.bodyState = .localPlainAvailable →
    db.bodies.find? m = some body → body.textContent = some text →
    (db.fts.countP fun r => r.messageId = m.toText && r.textContent = text) = 1

variable {F : Platform} {db db' : LocalStoreDb}

/-! ## What is written under which id -/

theorem mem_indexMessage {toLowercase : Char → List Char} {rowId : IdText} {text : String} {r : FuzzyRow} :
    r ∈ (db.indexMessage toLowercase rowId text).fuzzy.rows ↔ r ∈ db.fuzzy.rows ∨
      ∃ token ∈ Search.generateTokens toLowercase text, r = ⟨token.token, token.script.toIso15924, rowId⟩ := by
  show r ∈ ((Search.generateTokens toLowercase text).foldl _ db.fuzzy).rows ↔ _
  generalize Search.generateTokens toLowercase text = tokens
  generalize db.fuzzy = t
  induction tokens generalizing t with
  | nil => simp
  | cons token tokens ih =>
      rw [List.foldl_cons, ih, Table.mem_insertOrIgnore, List.exists_mem_cons_iff]
      constructor
      · rintro ((hold | ⟨rfl, -⟩) | hrest)
        · exact .inl hold
        · exact .inr (.inl rfl)
        · exact .inr (.inr hrest)
      · rintro (hold | rfl | hrest)
        · exact .inl (.inl hold)
        · -- the whole row is its key, so a row that is ignored is there already
          by_cases hfree : t.has (FuzzyRow.key ⟨token.token, token.script.toIso15924, rowId⟩) = false
          · exact .inl (.inr ⟨rfl, hfree⟩)
          · obtain ⟨r', hr', hkey⟩ := Table.has_iff.mp (Bool.not_eq_false _ ▸ hfree)
            obtain ⟨token', script', id'⟩ := r'
            simp only [FuzzyRow.key, Prod.mk.injEq] at hkey
            obtain ⟨rfl, rfl, rfl⟩ := hkey
            exact .inl (.inl hr')
        · exact .inr hrest

/-- **Text rows that meet `P` are appended, and nothing else is indexed but under row ids of message `k`.** -/
structure RowsOf (k : Uuid) (P : FtsRow → Prop) (db db' : LocalStoreDb) : Prop where
  indexes : ∀ rowId, db'.indexes rowId → db.indexes rowId ∨ OwnRow k rowId
  fts : ∃ rows, db'.fts = db.fts ++ rows ∧ ∀ r ∈ rows, P r

namespace RowsOf

variable {k : Uuid} {P : FtsRow → Prop} {db'' : LocalStoreDb}

/-- A step that leaves the three index tables alone. -/
theorem same (hfts : db'.fts = db.fts) (hfuzzy : db'.fuzzy = db.fuzzy) (hvectors : db'.vectors = db.vectors) :
    RowsOf k P db db' where
  indexes rowId h := by
    unfold LocalStoreDb.indexes at h ⊢
    rw [hfts, hfuzzy, hvectors] at h
    exact .inl h
  fts := ⟨[], by rw [hfts, List.append_nil], by simp⟩

theorem refl (db : LocalStoreDb) : RowsOf k P db db := same rfl rfl rfl

theorem trans (h : RowsOf k P db db') (h' : RowsOf k P db' db'') : RowsOf k P db db'' where
  indexes rowId hrow := by
    rcases h'.indexes rowId hrow with hrow | hown
    · exact h.indexes rowId hrow
    · exact .inr hown
  fts := by
    obtain ⟨rows, hrows, hP⟩ := h.fts
    obtain ⟨rows', hrows', hP'⟩ := h'.fts
    refine ⟨rows ++ rows', by rw [hrows', hrows, List.append_assoc], ?_⟩
    intro r hr
    exact (List.mem_append.mp hr).elim (hP r) (hP' r)

theorem insertFtsRow {row : FtsRow} (hP : P row) (hown : OwnRow k row.messageId) : RowsOf k P db (db.insertFtsRow row) where
  indexes rowId h := by
    rcases h with ⟨r, hr, rfl⟩ | h
    · rcases List.mem_append.mp hr with hr | hr
      · exact .inl (.inl ⟨r, hr, rfl⟩)
      · rw [List.mem_singleton.mp hr]
        exact .inr hown
    · exact .inl (.inr h)
  fts := ⟨[row], rfl, by simpa using hP⟩

theorem indexMessage {toLowercase : Char → List Char} {rowId : IdText} (hown : OwnRow k rowId) (text : String) :
    RowsOf k P db (db.indexMessage toLowercase rowId text) where
  indexes rowId' h := by
    rcases h with h | ⟨r, hr, rfl⟩ | h
    · exact .inl (.inl h)
    · rcases mem_indexMessage.mp hr with hr | ⟨token, -, rfl⟩
      · exact .inl (.inr (.inl ⟨r, hr, rfl⟩))
      · exact .inr hown
    · exact .inl (.inr (.inr h))
  fts := ⟨[], (List.append_nil _).symm, by simp⟩

theorem putVector {rowId : IdText} (hown : OwnRow k rowId) (modelVersion : String) (embedding : Bytes) :
    RowsOf k P db (db.putVector rowId modelVersion embedding) where
  indexes rowId' h := by
    rcases h with h | h | ⟨r, hr, rfl⟩
    · exact .inl (.inl h)
    · exact .inl (.inr (.inl h))
    · rcases Table.mem_insertOrIgnore.mp hr with hr | ⟨rfl, -⟩
      · obtain ⟨r', hr', rfl⟩ := Table.mem_update.mp hr
        refine .inl (.inr (.inr ⟨r', hr', ?_⟩))
        split <;> rfl
      · exact .inr hown
  fts := ⟨[], (List.append_nil _).symm, by simp⟩

theorem insertMediaSearchIndex (row : MediaSearchRow) : RowsOf k P db (settle (db.insertMediaSearchIndex row) db) := by
  unfold LocalStoreDb.insertMediaSearchIndex
  by_cases hasset : db.assets.has row.assetId = true
  · rw [dif_pos hasset]
    exact same rfl rfl rfl
  · rw [dif_neg hasset]
    by_cases hkey : db.mediaSearch.has row.key = true
    · rw [if_pos hkey]
      exact refl db
    · rw [if_neg hkey]
      exact refl db

theorem closure (hown : ∀ row, P row → OwnRow k row.messageId) : RowClosure k P (RowsOf k P) where
  refl := refl
  trans h h' := h.trans h'
  insertFtsRow _ row h := insertFtsRow h (hown row h)
  indexMessage _ _ row h := indexMessage (hown row h) _
  putVector _ _ _ _ h := putVector h _ _
  insertMediaSearchIndex _ row := insertMediaSearchIndex row

end RowsOf

/-- The text of a new message is one row under its id. -/
theorem rowsOf_insertTextIfAny {skel : MessageSkeleton} {text : Option String}
    (h : insertTextIfAny F db skel text = .ok db') :
    (∀ rowId, db'.indexes rowId → db.indexes rowId ∨ OwnRow skel.messageId rowId) ∧
      db'.fts = db.fts ++ text.toList.map (textRow skel skel.messageId.toText) := by
  cases text with
  | none =>
      rw [← Except.ok.inj h]
      exact ⟨fun _ h => .inl h, (List.append_nil _).symm⟩
  | some t =>
      obtain ⟨db₁, hbody, hrest⟩ := except_bind_eq_ok.mp h
      obtain ⟨hfree, hskel, rfl⟩ := LocalStoreDb.insertMessageBody_eq_ok.mp hbody
      rw [← Except.ok.inj hrest]
      have hown : OwnRow skel.messageId skel.messageId.toText := .inl rfl
      have hadd : RowsOf skel.messageId (fun row => OwnRow skel.messageId row.messageId) db
          (db.addBody ⟨skel.messageId, some t, none, none⟩ hfree hskel) := RowsOf.same rfl rfl rfl
      have hlist : RowsOf skel.messageId (fun row => OwnRow skel.messageId row.messageId) _
          (insertFtsRow (db.addBody ⟨skel.messageId, some t, none, none⟩ hfree hskel) skel t) :=
        RowsOf.insertFtsRow hown hown
      exact ⟨(hadd.trans (hlist.trans (RowsOf.indexMessage hown t))).indexes, rfl⟩

/-- Assets are not indexed. -/
theorem insertAssets_indexes {m : Uuid} {descs : List MediaDescriptor} (h : insertAssets db m descs = .ok db') :
    db'.fts = db.fts ∧ db'.fuzzy = db.fuzzy ∧ db'.vectors = db.vectors := by
  induction descs generalizing db with
  | nil =>
      rw [← Except.ok.inj h]
      exact ⟨rfl, rfl, rfl⟩
  | cons desc descs ih =>
      obtain ⟨db₁, hasset, hrest⟩ := except_bind_eq_ok.mp h
      obtain ⟨_, _, rfl⟩ := LocalStoreDb.insertMediaAsset_eq_ok.mp hasset
      obtain ⟨hfts, hfuzzy, hvectors⟩ := ih hrest
      exact ⟨hfts, hfuzzy, hvectors⟩

/-! ## One call -/

/-- The number of rows with the id and the text of a message, from its view. -/
theorem countP_text (db : LocalStoreDb) (m : Uuid) (text : String) :
    (db.fts.countP fun r => r.messageId = m.toText && r.textContent = text) =
      (db.view m).fts.countP fun r => r.textContent = text := by
  show _ = (db.fts.filter fun r => decide (r.messageId = m.toText)).countP _
  rw [List.countP_filter]
  apply List.countP_congr
  intro r _
  simp [and_comm]

/-- A message that is not there has no row under its id. -/
theorem Agrees.unindexed (h : Agrees db) {k : Uuid} (hfree : db.skeletons.has k = false) : ¬ db.indexes k.toText := by
  intro hrow
  obtain ⟨m, skel, hown, hskel, -⟩ := h.owned _ hrow
  rcases hown with hid | ⟨n, hid⟩
  · obtain rfl := Uuid.toText_inj.mp hid
    rw [Table.has, hskel] at hfree
    exact absurd hfree (by simp)
  · exact pageRowId_ne_toText m k n hid.symm

/-- What a change of one message has to say of the others. -/
theorem Agrees.change (h : Agrees db) {k : Uuid} (hothers : ∀ m, m ≠ k → db'.view m = db.view m)
    (howned : ∀ rowId, db'.indexes rowId → (∃ m skel, m ≠ k ∧ OwnRow m rowId ∧ db.skeletons.find? m = some skel ∧
      skel.bodyState.deleted = false) ∨ (OwnRow k rowId ∧ ∃ skel, db'.skeletons.find? k = some skel ∧
        skel.bodyState.deleted = false))
    (htext : ∀ skel body text, db'.skeletons.find? k = some skel → skel.bodyState = .localPlainAvailable →
      db'.bodies.find? k = some body → body.textContent = some text →
      (db'.fts.countP fun r => r.messageId = k.toText && r.textContent = text) = 1) : Agrees db' where
  owned rowId hrow := by
    rcases howned rowId hrow with ⟨m, skel, hm, hown, hskel, hlive⟩ | ⟨hown, skel, hskel, hlive⟩
    · have hsame : db'.skeletons.find? m = db.skeletons.find? m := congrArg MessageView.skeleton (hothers m hm)
      exact ⟨m, skel, hown, hsame.trans hskel, hlive⟩
    · exact ⟨k, skel, hown, hskel, hlive⟩
  text m skel body text hskel hstate hbody hcontent := by
    by_cases hm : m = k
    · subst hm
      exact htext skel body text hskel hstate hbody hcontent
    · have hsame : db'.skeletons.find? m = db.skeletons.find? m := congrArg MessageView.skeleton (hothers m hm)
      have hsame' : db'.bodies.find? m = db.bodies.find? m := congrArg MessageView.body (hothers m hm)
      rw [countP_text, hothers m hm, ← countP_text]
      exact h.text m skel body text (hsame ▸ hskel) hstate (hsame' ▸ hbody) hcontent

/-- **A new message agrees** when no row that is extracted repeats its text. -/
theorem Agrees.create {skel : MessageSkeleton} {text : Option String} (h : Agrees db) (rows : List FtsRow)
    (hcreate : Creates db db' skel text) (hlive : skel.bodyState.deleted = false)
    (hids : ∀ rowId, db'.indexes rowId → db.indexes rowId ∨ OwnRow skel.messageId rowId)
    (hfts : db'.fts = db.fts ++ text.toList.map (textRow skel skel.messageId.toText) ++ rows)
    (hrows : ∀ r ∈ rows, r.messageId = skel.messageId.toText → some r.textContent ≠ text) : Agrees db' := by
  apply h.change hcreate.others
  · intro rowId hrow
    rcases hids rowId hrow with hrow | hown
    · obtain ⟨m, old, hown, hold, hlive⟩ := h.owned rowId hrow
      refine .inl ⟨m, old, ?_, hown, hold, hlive⟩
      rintro rfl
      have hfresh := hcreate.fresh
      rw [Table.has, hold] at hfresh
      exact absurd hfresh (by simp)
    · exact .inr ⟨hown, skel, hcreate.skeleton, hlive⟩
  · intro skel' body t hskel' _ hbody hcontent
    rw [hcreate.body] at hbody
    obtain ⟨t', rfl, rfl⟩ := Option.map_eq_some_iff.mp hbody
    obtain rfl := Option.some.inj hcontent
    have hold : (db.fts.countP fun r => decide (r.messageId = skel.messageId.toText) && decide (r.textContent = t')) = 0 := by
      rw [List.countP_eq_zero]
      intro r hr hboth
      have hid := of_decide_eq_true (Bool.and_eq_true_iff.mp hboth).1
      exact h.unindexed hcreate.fresh (.inl ⟨r, hr, hid⟩)
    have hextra : (rows.countP fun r => decide (r.messageId = skel.messageId.toText) && decide (r.textContent = t')) = 0 := by
      rw [List.countP_eq_zero]
      intro r hr hboth
      obtain ⟨hid, hsame⟩ := Bool.and_eq_true_iff.mp hboth
      exact hrows r hr (of_decide_eq_true hid) (congrArg some (of_decide_eq_true hsame))
    rw [hfts, List.countP_append, List.countP_append, hold, hextra]
    simp [textRow]

/-- No row of the page of a message is indexed. -/
def NoPages (db : LocalStoreDb) (m : Uuid) : Prop := ∀ n, ¬ db.indexes (pageRowId m n)

/-- The rows a delete leaves. -/
theorem indexes_deleteInnerTx {skel : MessageSkeleton} {scope : DeleteScope} {ms : Int} {rowId : IdText} :
    (deleteInnerTx db skel scope ms).indexes rowId ↔ db.indexes rowId ∧ rowId ≠ skel.messageId.toText := by
  obtain ⟨journal, archive, heq⟩ := deleteInnerTx_eq db skel scope ms
  have hrows : (deleteInnerTx db skel scope ms).indexes rowId ↔
      (∃ r ∈ db.fts.filter fun r => r.messageId ≠ skel.messageId.toText, r.messageId = rowId) ∨
        (∃ r ∈ (db.fuzzy.delete fun r => r.messageId = skel.messageId.toText).rows, r.messageId = rowId) ∨
        ∃ r ∈ (db.vectors.delete fun r => r.messageId = skel.messageId.toText).rows, r.messageId = rowId := by
    rw [heq]
    cases scope <;> exact Iff.rfl
  rw [hrows]
  constructor
  · rintro (⟨r, hr, rfl⟩ | ⟨r, hr, rfl⟩ | ⟨r, hr, rfl⟩)
    · obtain ⟨hr, hne⟩ := List.mem_filter.mp hr
      exact ⟨.inl ⟨r, hr, rfl⟩, of_decide_eq_true hne⟩
    · obtain ⟨hr, hne⟩ := Table.mem_delete.mp hr
      exact ⟨.inr (.inl ⟨r, hr, rfl⟩), of_decide_eq_false hne⟩
    · obtain ⟨hr, hne⟩ := Table.mem_delete.mp hr
      exact ⟨.inr (.inr ⟨r, hr, rfl⟩), of_decide_eq_false hne⟩
  · rintro ⟨⟨r, hr, rfl⟩ | ⟨r, hr, rfl⟩ | ⟨r, hr, rfl⟩, hne⟩
    · exact .inl ⟨r, List.mem_filter.mpr ⟨hr, decide_eq_true hne⟩, rfl⟩
    · exact .inr (.inl ⟨r, Table.mem_delete.mpr ⟨hr, decide_eq_false hne⟩, rfl⟩)
    · exact .inr (.inr ⟨r, Table.mem_delete.mpr ⟨hr, decide_eq_false hne⟩, rfl⟩)

/-- **A deleted message without pages leaves no row.** -/
theorem Agrees.delete (h : Agrees db) {skel : MessageSkeleton} {scope : DeleteScope} {ms : Int}
    (hskel : db.skeletons.find? skel.messageId = some skel) (hpages : NoPages db skel.messageId) :
    Agrees (deleteInnerTx db skel scope ms) := by
  apply h.change (k := skel.messageId) (fun m hm => view_deleteInnerTx_of_ne hm)
  · intro rowId hrow
    obtain ⟨hrow, hne⟩ := indexes_deleteInnerTx.mp hrow
    obtain ⟨m, old, hown, hold, hlive⟩ := h.owned rowId hrow
    refine .inl ⟨m, old, ?_, hown, hold, hlive⟩
    rintro rfl
    rcases hown with rfl | ⟨n, rfl⟩
    · exact hne rfl
    · exact hpages n hrow
  · intro skel' body text hskel' hstate _ _
    have htombstone := congrArg MessageView.skeleton (view_deleteInnerTx scope ms hskel)
    obtain rfl := Option.some.inj (htombstone.symm.trans hskel')
    have htarget : scope.target = .localPlainAvailable := hstate
    cases scope <;> exact absurd htarget (by decide)

/-- The rows an edit leaves. -/
theorem indexes_editMessageInner {skel : MessageSkeleton} {newText : String} {ms : Int} {rowId : IdText}
    (h : (editMessageInner F db skel newText ms).indexes rowId) : db.indexes rowId ∨ rowId = skel.messageId.toText := by
  have h' : (∃ r ∈ (db.fts.filter fun r => r.messageId ≠ skel.messageId.toText) ++
        [textRow skel skel.messageId.toText newText], r.messageId = rowId) ∨
      (∃ r ∈ ((db.removeMessage skel.messageId.toText).indexMessage F.toLowercase skel.messageId.toText newText).fuzzy.rows,
        r.messageId = rowId) ∨
      ∃ r ∈ (db.vectors.delete fun r => r.messageId = skel.messageId.toText).rows, r.messageId = rowId := h
  rcases h' with ⟨r, hr, rfl⟩ | ⟨r, hr, rfl⟩ | ⟨r, hr, rfl⟩
  · rcases List.mem_append.mp hr with hr | hr
    · exact .inl (.inl ⟨r, (List.mem_filter.mp hr).1, rfl⟩)
    · rw [List.mem_singleton.mp hr]
      exact .inr rfl
  · rcases mem_indexMessage.mp hr with hr | ⟨token, -, rfl⟩
    · exact .inl (.inr (.inl ⟨r, (Table.mem_delete.mp hr).1, rfl⟩))
    · exact .inr rfl
  · exact .inl (.inr (.inr ⟨r, (Table.mem_delete.mp hr).1, rfl⟩))

/-- **An edit leaves one row, with the new text.** -/
theorem Agrees.edit (h : Agrees db) {skel : MessageSkeleton} {newText : String} {ms : Int}
    (hskel : db.skeletons.find? skel.messageId = some skel) (hstate : skel.bodyState = .localPlainAvailable) :
    Agrees (editMessageInner F db skel newText ms) := by
  have hlive : skel.bodyState.deleted = false := by
    rw [hstate]
    rfl
  apply h.change (k := skel.messageId) (fun m hm => view_editMessageInner_of_ne hm)
  · intro rowId hrow
    have hself : ∃ skel', (editMessageInner F db skel newText ms).skeletons.find? skel.messageId = some skel' ∧
        skel'.bodyState.deleted = false := ⟨_, editMessageInner_skeleton hskel, hlive⟩
    rcases indexes_editMessageInner hrow with hrow | rfl
    · obtain ⟨m, old, hown, hold, hlive⟩ := h.owned rowId hrow
      by_cases hm : m = skel.messageId
      · exact .inr ⟨hm ▸ hown, hself⟩
      · exact .inl ⟨m, old, hm, hown, hold, hlive⟩
    · exact .inr ⟨.inl rfl, hself⟩
  · intro skel' body text _ _ hbody hcontent
    rw [editMessageInner_body] at hbody
    obtain ⟨old, -, rfl⟩ := Option.map_eq_some_iff.mp hbody
    obtain rfl := Option.some.inj hcontent
    show ((db.fts.filter fun r => decide (r.messageId ≠ skel.messageId.toText)) ++
      [textRow skel skel.messageId.toText newText]).countP _ = 1
    have hgone : ((db.fts.filter fun r => decide (r.messageId ≠ skel.messageId.toText)).countP fun r =>
        decide (r.messageId = skel.messageId.toText) && decide (r.textContent = newText)) = 0 := by
      rw [List.countP_eq_zero]
      intro r hr hboth
      exact of_decide_eq_true (List.mem_filter.mp hr).2 (of_decide_eq_true (Bool.and_eq_true_iff.mp hboth).1)
    rw [List.countP_append, hgone]
    simp [textRow]

/-- **A deleted conversation without pages leaves no row of its messages.** -/
theorem Agrees.deleteConversation (h : Agrees db) {c : Uuid}
    (hpages : ∀ m, db.inConversation c m.toText = true → NoPages db m) : Agrees (db.deleteConversation c).1 where
  owned rowId hrow := by
    have hkept : db.indexes rowId ∧ db.inConversation c rowId = false := by
      rcases hrow with ⟨r, hr, rfl⟩ | ⟨r, hr, rfl⟩ | ⟨r, hr, rfl⟩
      · obtain ⟨hr, hout⟩ := List.mem_filter.mp hr
        exact ⟨.inl ⟨r, hr, rfl⟩, by simpa using hout⟩
      · obtain ⟨hr, hout⟩ := Table.mem_delete.mp hr
        exact ⟨.inr (.inl ⟨r, hr, rfl⟩), hout⟩
      · obtain ⟨hr, hout⟩ := Table.mem_delete.mp hr
        exact ⟨.inr (.inr ⟨r, hr, rfl⟩), hout⟩
    obtain ⟨hrow, hout⟩ := hkept
    obtain ⟨m, skel, hown, hskel, hlive⟩ := h.owned rowId hrow
    -- a row that stays is of a message outside: its own id is not in the conversation, and pages there are none
    have houtside : db.inConversation c m.toText = false := by
      rw [← Bool.not_eq_true]
      intro hin
      rcases hown with rfl | ⟨n, rfl⟩
      · exact absurd (hout.symm.trans hin) (by decide)
      · exact hpages m hin n hrow
    have hview := db.view_deleteConversation c m
    rw [houtside, if_neg Bool.false_ne_true] at hview
    have hsame : (db.deleteConversation c).1.skeletons.find? m = db.skeletons.find? m := congrArg MessageView.skeleton hview
    exact ⟨m, skel, hown, hsame.trans hskel, hlive⟩
  text m skel body text hskel hstate hbody hcontent := by
    have hview := db.view_deleteConversation c m
    by_cases hin : db.inConversation c m.toText = true
    · rw [if_pos hin] at hview
      have hnone : (db.deleteConversation c).1.skeletons.find? m = none := congrArg MessageView.skeleton hview
      rw [hnone] at hskel
      exact absurd hskel (by simp)
    · rw [if_neg hin] at hview
      have hsame : (db.deleteConversation c).1.skeletons.find? m = db.skeletons.find? m := congrArg MessageView.skeleton hview
      have hsame' : (db.deleteConversation c).1.bodies.find? m = db.bodies.find? m := congrArg MessageView.body hview
      rw [countP_text, hview, ← countP_text]
      exact h.text m skel body text (hsame ▸ hskel) hstate (hsame' ▸ hbody) hcontent

/-- Indexes that grow by vectors of a message that is not deleted. -/
theorem Agrees.embed (h : Agrees db) {msg : IngestedMessage} {skel : MessageSkeleton}
    (hskel : db.skeletons.find? msg.messageId = some skel) (hlive : skel.bodyState.deleted = false) :
    Agrees (maybeEmbedTextMessage F db msg) := by
  have hhang : HangsOff msg.messageId db (maybeEmbedTextMessage F db msg) := HangsOff.maybeEmbedTextMessage rfl
  have hrows : RowsOf msg.messageId (fun _ => False) db (maybeEmbedTextMessage F db msg) :=
    (RowsOf.closure fun _ h => h.elim).maybeEmbedTextMessage rfl
  have hfts : (maybeEmbedTextMessage F db msg).fts = db.fts := by
    obtain ⟨rows, hfts, hnone⟩ := hrows.fts
    rw [hfts, List.eq_nil_iff_forall_not_mem.mpr hnone, List.append_nil]
  constructor
  · intro rowId hrow
    rw [hhang.skeletons]
    rcases hrows.indexes rowId hrow with hrow | hown
    · exact h.owned rowId hrow
    · exact ⟨msg.messageId, skel, hown, hskel, hlive⟩
  · rw [hhang.skeletons, hhang.bodies, hfts]
    exact h.text

/-- When a call keeps the indexes and the messages in agreement: media whose extracted text does not repeat its
caption, and no deleted document with indexed pages. -/
def Call.Indexable (F : Platform) (db : LocalStoreDb) : Call → Prop
  | sendMedia send processed now => send.Lands processed db →
      ∀ row ∈ extractedRows F (send.skeleton now) send.mimeType send.plaintext,
        row.messageId = send.messageId.toText → some row.textContent ≠ send.caption
  | deleteForMe m _ | deleteForEveryone m _ =>
      ∀ skel, db.skeletons.find? m = some skel → skel.bodyState = .localPlainAvailable → NoPages db m
  | _ => True

theorem agrees_ingest {msg : IngestedMessage} {receivedAtMs journaledAtMs : Int} (h : Agrees db)
    (hok : persistIngestedMessage F db msg receivedAtMs journaledAtMs = .ok db') : Agrees db' := by
  obtain ⟨-, kind, hkind, hcreate, -⟩ := persistIngestedMessage_eq_ok hok
  obtain ⟨-, kind', hfree, hconv, db₂, db₃, hkind', hassets, htext, rfl⟩ := persistIngestedMessage_parts.mp hok
  obtain rfl := Except.ok.inj (hkind.symm.trans hkind')
  obtain ⟨hids, hfts⟩ := rowsOf_insertTextIfAny htext
  obtain ⟨hfts₂, hfuzzy₂, hvectors₂⟩ := insertAssets_indexes hassets
  have hadd : RowsOf msg.messageId (fun _ => False) db db₂ := RowsOf.same hfts₂ hfuzzy₂ hvectors₂
  apply h.create [] hcreate rfl
  · intro rowId hrow
    rcases hids rowId hrow with hrow | hown
    · exact hadd.indexes rowId hrow
    · exact .inr hown
  · rw [List.append_nil]
    show db₃.fts = _
    rw [hfts, hfts₂]
    rfl
  · simp

theorem agrees_sendMedia {send : MediaSend} {processed : Except Error MediaDescriptor} {now : Int} (h : Agrees db)
    (hok : sendMedia F db send processed now = .ok db')
    (hsound : ∀ row ∈ extractedRows F (send.skeleton now) send.mimeType send.plaintext,
      row.messageId = send.messageId.toText → some row.textContent ≠ send.caption) : Agrees db' := by
  obtain ⟨hcreate, -⟩ := sendMedia_eq_ok hok
  obtain ⟨descriptor, hfree, hconv, db₂, db₃, -, htext, hasset, rfl⟩ := sendMedia_parts hok
  obtain ⟨hids, hfts⟩ := rowsOf_insertTextIfAny htext
  have hadd : RowsOf send.messageId (fun _ => False) db (db.addSkeleton (send.skeleton now) hfree hconv) :=
    RowsOf.same rfl rfl rfl
  obtain ⟨hfree', hskel', rfl⟩ := LocalStoreDb.insertMediaAsset_eq_ok.mp hasset
  let stored := db₂.addAsset (send.asset descriptor) hfree' hskel'
  -- the text rows that extraction may add
  let P : FtsRow → Prop := fun row => row ∈ extractedRows F (send.skeleton now) send.mimeType send.plaintext
  have hput : RowsOf send.messageId P db₂ stored := RowsOf.same rfl rfl rfl
  have hclosure : RowClosure send.messageId P (RowsOf send.messageId P) :=
    RowsOf.closure fun row hrow => ownRow_of_mem_extractedRows hrow
  have hextract : RowsOf send.messageId P stored
      (extractMedia F stored (send.skeleton now) descriptor.assetId send.mimeType send.plaintext) :=
    hclosure.extractMedia rfl fun row hrow => hrow
  obtain ⟨rows, hrows, hfrom⟩ := hextract.fts
  apply h.create rows hcreate rfl
  · intro rowId hrow
    rcases hextract.indexes rowId hrow with hrow | hown
    · rcases hput.indexes rowId hrow with hrow | hown
      · rcases hids rowId hrow with hrow | hown
        · exact hadd.indexes rowId hrow
        · exact .inr hown
      · exact .inr hown
    · exact .inr hown
  · show (extractMedia F stored (send.skeleton now) descriptor.assetId send.mimeType send.plaintext).fts = _
    rw [hrows]
    show db₂.fts ++ rows = _
    rw [hfts]
    rfl
  · intro r hr
    exact hsound r (hfrom r hr)

theorem agrees_persistOutboxEntry {entry : OutboxEntry} {journaledAtMs : Int} (h : Agrees db)
    (hok : persistOutboxEntry F db entry journaledAtMs = .ok db') : Agrees db' := by
  obtain ⟨hcreate, -⟩ := persistOutboxEntry_eq_ok hok
  obtain ⟨hfree, hconv, db₂, htext, rfl⟩ := persistOutboxEntry_parts hok
  obtain ⟨hids, hfts⟩ := rowsOf_insertTextIfAny htext
  have hadd : RowsOf entry.clientMessageId (fun _ => False) db (db.addSkeleton entry.skeleton hfree hconv) :=
    RowsOf.same rfl rfl rfl
  apply h.create [] hcreate rfl
  · intro rowId hrow
    rcases hids rowId hrow with hrow | hown
    · exact hadd.indexes rowId hrow
    · exact .inr hown
  · rw [List.append_nil]
    show db₂.fts = _
    rw [hfts]
    rfl
  · simp

theorem agrees_delete {m : Uuid} {scope : DeleteScope} {ms : Int} (h : Agrees db)
    (hpages : ∀ skel, db.skeletons.find? m = some skel → skel.bodyState = .localPlainAvailable → NoPages db m) :
    Agrees (settle (deleteInner db m scope ms) db) := by
  cases hok : deleteInner db m scope ms with
  | error e => exact h
  | ok db' =>
      obtain ⟨skel, hskel, hstate, rfl⟩ := deleteInner_eq_ok.mp hok
      obtain rfl := Table.key_of_find? hskel
      exact h.delete hskel (hpages skel hskel hstate)

/-- **One call keeps the agreement.** -/
theorem agrees_step {call : Call} (h : Agrees db) (hstep : Call.Step F db call db') (hsound : call.Indexable F db) :
    Agrees db' := by
  unfold Call.Step at hstep
  subst hstep
  cases call with
  | persistIngestedMessage msg receivedAtMs journaledAtMs =>
      show Agrees (settle (persistIngestedMessage F db msg receivedAtMs journaledAtMs) db)
      cases hok : persistIngestedMessage F db msg receivedAtMs journaledAtMs with
      | error e => exact h
      | ok db' => exact agrees_ingest h hok
  | persistOutboxEntry entry journaledAtMs =>
      show Agrees (settle (persistOutboxEntry F db entry journaledAtMs) db)
      cases hok : persistOutboxEntry F db entry journaledAtMs with
      | error e => exact h
      | ok db' => exact agrees_persistOutboxEntry h hok
  | markSent m journaledAtMs =>
      show Agrees (settle (markSent db m journaledAtMs) db)
      unfold markSent
      cases db.getMessageSkeleton m with
      | none => exact h
      | some skel => exact ⟨h.owned, h.text⟩
  | sendMedia send processed now =>
      -- only a send brings extracted rows, and asks that none repeats its caption
      show Agrees (settle (sendMedia F db send processed now) db)
      cases hok : sendMedia F db send processed now with
      | error e => exact h
      | ok db' => exact agrees_sendMedia h hok (hsound ((sendMedia_isOk_iff F now).mp ⟨db', hok⟩))
  | editMessage m newText editedAtMs =>
      show Agrees (settle (editMessage F db m newText editedAtMs) db)
      cases hok : editMessage F db m newText editedAtMs with
      | error e => exact h
      | ok db' =>
          obtain ⟨-, skel, hskel, hstate, rfl⟩ := editMessage_eq_ok.mp hok
          obtain rfl := Table.key_of_find? hskel
          exact h.edit hskel hstate
  | deleteForMe m deletedAtMs => exact agrees_delete h hsound
  | deleteForEveryone m deletedAtMs => exact agrees_delete h hsound

/-! ## Histories -/

/-- The same for the calls of the core: no document with indexed pages is deleted with its conversation either. -/
def CoreCall.Indexable (F : Platform) (db : LocalStoreDb) (call : CoreCall) : Prop :=
  call.Meets (fun db call => call.Indexable F db)
    (fun db c => ∀ m, db.inConversation c m.toText = true → NoPages db m) db

/-- **In every history whose calls are `Indexable` the indexes agree with the messages**, in every state. -/
theorem agrees_history {conversations : Table Conversation.conversationId} {tr : List (LocalStoreDb × CoreCall)}
    (hrun : CoreHistory F (.fresh conversations) tr db) (hsound : ∀ p ∈ tr, p.2.Indexable F p.1) :
    (∀ p ∈ tr, Agrees p.1) ∧ Agrees db := by
  apply hrun.invariant_throughout (I := Agrees) (G := fun db call => call.Indexable F db) _ hsound
  · constructor
    · intro rowId hrow
      exact absurd hrow (by simp [LocalStoreDb.indexes, LocalStoreDb.fresh])
    · intro m skel body text hskel
      exact absurd hskel (by simp [LocalStoreDb.fresh])
  · intro db call db' h hsound hstep
    -- a batch is ingested message by message, each with its vector
    apply CoreCall.step_preserves _ _ _ h hstep hsound
    · intro db call db' h hstep hsound
      exact agrees_step h hstep hsound
    · intro db msg receivedAtMs journaledAtMs db' h hok
      obtain ⟨-, kind, -, hcreate, -⟩ := persistIngestedMessage_eq_ok hok
      exact (agrees_ingest h hok).embed hcreate.skeleton rfl
    · intro db c h hpages
      exact h.deleteConversation hpages

/-! "hi" arrives; a document with a page is sent and deleted. -/

theorem agrees_hi : ∃ db tr, CoreHistory .bare (.fresh oneConversation) tr db ∧ (∀ p ∈ tr, Agrees p.1) ∧ Agrees db := by
  obtain ⟨db, hstep⟩ : ∃ db, CoreCall.Step .bare (.fresh oneConversation)
      (.ingestMessages [⟨aliceSays "hi", 1001, 1002⟩]) db := ⟨_, rfl⟩
  refine ⟨db, _, Run.single hstep, agrees_history (Run.single hstep) ?_⟩
  intro p hp
  rw [List.mem_singleton.mp hp]
  exact trivial

/-- A platform that finds one page in every document. -/
def onePagePlatform : Platform := { Platform.bare with documentExtractor := some fun _ _ => some [⟨1, "page", none⟩] }

/-- A document. -/
def oneDocument : MediaSend := ⟨⟨1⟩, ⟨2⟩, [0], "application/pdf", none⟩

theorem oneDocument_lands : oneDocument.Lands (.ok pictureDescriptor) (.fresh oneConversation) where
  plaintext := rfl
  mimeType := by decide
  fresh := rfl
  registered := by decide
  asset := ⟨pictureDescriptor, rfl, rfl⟩

/-- All that is extracted from it is the page. -/
theorem extractMedia_oneDocument (db : LocalStoreDb) (skel : MessageSkeleton) (assetId : Uuid) (plaintext : Bytes) :
    extractMedia onePagePlatform db skel assetId "application/pdf" plaintext =
      indexPage onePagePlatform skel assetId db ⟨1, "page", none⟩ := by
  have himage : "application/pdf".startsWith "image/" = false := by decide +kernel
  have haudio : "application/pdf".startsWith "audio/" = false := by decide +kernel
  have hvideo : "application/pdf".startsWith "video/" = false := by decide +kernel
  simp [extractMedia, maybeEmbedImageMessage, maybeRunOcrOnImageMessage, maybeTranscribeAudioMessage,
    maybeEmbedVideoKeyframes, himage, haudio, hvideo, maybeExtractDocumentPages, isSupportedDocumentMime, onePagePlatform]

/-- What a fan-out adds to the text index. -/
theorem fanOutText_fts (F : Platform) (db : LocalStoreDb) (skel : MessageSkeleton) (row : MediaSearchRow) (rowId : IdText)
    (text : String) : (fanOutText F db skel row rowId text).fts = db.fts ++ [textRow skel rowId text] := by
  have hstored : (settle (db.insertMediaSearchIndex row) db).fts = db.fts := by
    unfold LocalStoreDb.insertMediaSearchIndex
    split_ifs <;> rfl
  rw [← hstored]
  unfold fanOutText
  cases F.textEmbedder with
  | none => rfl
  | some embed =>
      show (embedOnce _ rowId xlmrModelVersion _).fts = _
      unfold embedOnce
      split_ifs
      · rfl
      · split <;> rfl

/-- **The document is sent**, and its page has a text row. -/
theorem oneDocument_sent : ∃ db, sendMedia onePagePlatform (.fresh oneConversation) oneDocument (.ok pictureDescriptor) 2000 =
    .ok db ∧ ∃ rows, db.fts = rows ++ [textRow (oneDocument.skeleton 2000) (pageRowId ⟨2⟩ 1) "page"] := by
  obtain ⟨db, hok⟩ := (sendMedia_isOk_iff onePagePlatform 2000).mpr oneDocument_lands
  obtain ⟨descriptor, hfree, hconv, db₂, db₃, -, -, -, hdb⟩ := sendMedia_parts hok
  refine ⟨db, hok, db₃.fts, ?_⟩
  have htrim : trim "page" = "page" := by decide +kernel
  have hpage : ("page".isEmpty = true) = False := by decide +kernel
  have hindex : indexPage onePagePlatform (oneDocument.skeleton 2000) descriptor.assetId db₃ ⟨1, "page", none⟩ =
      fanOutText onePagePlatform db₃ (oneDocument.skeleton 2000)
        ⟨descriptor.assetId, "caption", "[page " ++ toString 1 ++ "] " ++ "page", none⟩ (pageRowId ⟨2⟩ 1) "page" := by
    simp only [indexPage, htrim, hpage, if_false]
    rfl
  rw [hdb]
  show (extractMedia onePagePlatform db₃ (oneDocument.skeleton 2000) descriptor.assetId "application/pdf"
    oneDocument.plaintext).fts = _
  rw [extractMedia_oneDocument, hindex, fanOutText_fts]

/-- **A message deleted for me no longer owns a row.** -/
theorem not_agrees_of_deleted {skel : MessageSkeleton} {ms : Int} {n : Nat} (hskel : db.skeletons.find? skel.messageId = some skel)
    (hothers : ∀ m, m ≠ skel.messageId → db.skeletons.find? m = none)
    (hrow : (deleteInnerTx db skel .forMe ms).indexes (pageRowId skel.messageId n)) :
    ¬ Agrees (deleteInnerTx db skel .forMe ms) := by
  intro hagrees
  obtain ⟨m, skel', -, hfound, hlive⟩ := hagrees.owned _ hrow
  -- the only message there is the deleted one
  by_cases hm : m = skel.messageId
  · have htombstone := congrArg MessageView.skeleton (view_deleteInnerTx .forMe ms hskel)
    rw [hm] at hfound
    obtain rfl := Option.some.inj (htombstone.symm.trans hfound)
    exact absurd hlive Bool.noConfusion
  · have hview : (deleteInnerTx db skel .forMe ms).view m = db.view m := view_deleteInnerTx_of_ne hm
    have hnone := congrArg MessageView.skeleton hview
    rw [LocalStoreDb.view_skeleton, LocalStoreDb.view_skeleton, hfound, hothers m hm] at hnone
    exact absurd hnone (by simp)

/-- **The page of a deleted document is still indexed.** -/
theorem page_of_deleted_document_indexed : ∃ tr db, CoreHistory onePagePlatform (.fresh oneConversation) tr db ∧
    db.deletedAs ⟨2⟩ .deletedForMe ∧ (∃ r ∈ db.fts, r.messageId = pageRowId ⟨2⟩ 1 ∧ r.textContent = "page") ∧
    ¬ Agrees db := by
  obtain ⟨db, hok, rows, hfts⟩ := oneDocument_sent
  obtain ⟨hcreate, -⟩ := sendMedia_eq_ok hok
  let skel := oneDocument.skeleton 2000
  have hskel : db.skeletons.find? skel.messageId = some skel := hcreate.skeleton
  have hsend : CoreCall.Step onePagePlatform (.fresh oneConversation)
      (.message (.sendMedia oneDocument (.ok pictureDescriptor) 2000)) db := by
    show settle (sendMedia onePagePlatform (.fresh oneConversation) oneDocument (.ok pictureDescriptor) 2000)
      (.fresh oneConversation) = db
    rw [hok, settle_ok]
  have hdelete : deleteForMe db ⟨2⟩ 3000 = .ok (deleteInnerTx db skel .forMe 3000) :=
    deleteInner_eq_ok.mpr ⟨skel, hskel, rfl, rfl⟩
  have hgone : CoreCall.Step onePagePlatform db (.message (.deleteForMe ⟨2⟩ 3000)) (deleteInnerTx db skel .forMe 3000) :=
    step_deleteForMe onePagePlatform hdelete
  have hrow : ∃ r ∈ (deleteInnerTx db skel .forMe 3000).fts, r.messageId = pageRowId ⟨2⟩ 1 ∧ r.textContent = "page" := by
    -- the delete drops what stands under the id of the message
    have hstays : (deleteInnerTx db skel .forMe 3000).fts = db.fts.filter fun r => r.messageId ≠ skel.messageId.toText := by
      obtain ⟨journal, archive, heq⟩ := deleteInnerTx_eq db skel .forMe 3000
      rw [heq]
      rfl
    rw [hstays, hfts]
    refine ⟨textRow skel (pageRowId ⟨2⟩ 1) "page", ?_, rfl, rfl⟩
    exact List.mem_filter.mpr ⟨List.mem_append_right _ List.mem_cons_self, decide_eq_true (pageRowId_ne_toText _ _ _)⟩
  refine ⟨_, _, (Run.single hsend).trans (Run.single hgone),
    ⟨rfl, _, congrArg MessageView.skeleton (view_deleteInnerTx .forMe 3000 hskel), rfl⟩, hrow, ?_⟩
  obtain ⟨r, hr, hid, -⟩ := hrow
  apply not_agrees_of_deleted hskel _ (.inl ⟨r, hr, hid⟩)
  intro m hm
  exact congrArg MessageView.skeleton (hcreate.others m hm)

end KChatCore.Message
