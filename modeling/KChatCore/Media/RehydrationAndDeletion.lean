import KChatCore.Media.RehydrationPhases
import KChatCore.Media.RoundTrip
import KChatCore.Message.IndexAgreement
import KChatCore.Message.RowOwners

/-!
# `Media.RehydrationAndDeletion` — deletes that come between the phases

The commit of what the bridges read out writes index rows under the id that the first phase read; it does not look at the
skeleton again. And a delete removes the rows under the id of the message, not those of its pages or in
`media_search_index`.

* `clean_commitMl_iff`, `clean_delete_iff` — when a step leaves no index row of a deleted message.
* `rehydrations_respect_deletes_iff` — the same of every state of a run.
-/

namespace KChatCore.Media

open Lib LocalStore Message

/-- The message an asset belongs to. -/
def ownerOf (db : LocalStoreDb) (assetId : Uuid) : Option Uuid := (db.assets.find? assetId).map MediaAsset.messageId

/-- **Some index table has a row of the message**: under its id or that of a page, or of one of its assets. -/
def HasRow (db : LocalStoreDb) (m : Uuid) : Prop :=
  (∃ rowId, OwnRow m rowId ∧ db.indexes rowId) ∨ ∃ row ∈ db.mediaSearch.rows, ownerOf db row.assetId = some m

/-- **No index row of a deleted message.** -/
def Clean (db : LocalStoreDb) : Prop := ∀ m, db.isDeleted m = true → ¬ HasRow db m

/-- What is left where a delete does not look: rows of pages, and of assets. -/
def HasPageOrMediaRow (db : LocalStoreDb) (m : Uuid) : Prop :=
  (∃ n, db.indexes (pageRowId m n)) ∨ ∃ row ∈ db.mediaSearch.rows, ownerOf db row.assetId = some m

/-- The skeletons have ids of 128 bits. -/
def Ids128 (db : LocalStoreDb) : Prop := ∀ m, db.skeletons.has m = true → Is128 m

section Steps

variable {db db' : LocalStoreDb} {F : Platform} {ml : RehydrationMlMeta} {bundle : PostRehydrationMlBundle}

theorem has_of_isDeleted {m : Uuid} (h : db.isDeleted m = true) : db.skeletons.has m = true := by
  unfold LocalStoreDb.isDeleted at h
  unfold Table.has
  cases hskel : db.skeletons.find? m with
  | none =>
      rw [hskel] at h
      exact absurd h (by simp)
  | some skel => rfl

/-! ### The commit of what the bridges read out -/

theorem mediaSearch_putIfAbsent (db : LocalStoreDb) (rowId : IdText) (modelVersion : String) (write : Option Bytes) :
    (putIfAbsent db rowId modelVersion write).mediaSearch = db.mediaSearch := by
  unfold putIfAbsent
  cases write with
  | none => rfl
  | some v =>
      simp only
      split <;> rfl

/-- **What the last phase leaves alone**, and where its media rows belong. -/
structure MlWrites (ml : RehydrationMlMeta) (db db' : LocalStoreDb) : Prop where
  skeletons : db'.skeletons = db.skeletons
  assets : db'.assets = db.assets
  indexes : ∀ rowId, db'.indexes rowId → db.indexes rowId ∨ OwnRow ml.messageId rowId
  media : ∀ row ∈ db'.mediaSearch.rows, row ∈ db.mediaSearch.rows ∨ row.assetId = ml.assetId

theorem mlWrites_commit : MlWrites ml db (commitPostRehydrationMl F db bundle ml) := by
  have hhang : HangsOff ml.messageId db (commitPostRehydrationMl F db bundle ml) :=
    commitPostRehydrationMl_related (HangsOff.closure ml.messageId) (fun _ h => h) rfl
  have hassets : (commitPostRehydrationMl F db bundle ml).assets = db.assets :=
    commitPostRehydrationMl_related (assets_closure ml.messageId) (fun _ _ => trivial) rfl
  have hrows : RowsOf ml.messageId (fun row => OwnRow ml.messageId row.messageId) db
      (commitPostRehydrationMl F db bundle ml) :=
    commitPostRehydrationMl_related (RowsOf.closure fun _ h => h) (fun _ h => h) rfl
  -- the media rows are not in the closure of the text rows: each write names its asset
  have hmedia : MlClosure F ml fun db db' =>
      ∀ row ∈ db'.mediaSearch.rows, row ∈ db.mediaSearch.rows ∨ row.assetId = ml.assetId := by
    refine ⟨fun _ _ h => .inl h, ?_, ?_, ?_⟩
    · intro db db' db'' h h' row hrow
      rcases h' row hrow with hrow | hasset
      · exact h row hrow
      · exact .inr hasset
    · intro db kind stored rowId write _ row hrow
      have hrow' : row ∈ (settle (db.insertMediaSearchIndex ⟨ml.assetId, kind, stored, write.language⟩) db).mediaSearch.rows := by
        unfold commitText at hrow
        simp only [mediaSearch_putIfAbsent] at hrow
        exact hrow
      unfold LocalStoreDb.insertMediaSearchIndex at hrow'
      by_cases hasset : db.assets.has ml.assetId = true
      · rw [dif_pos hasset] at hrow'
        rcases Table.mem_insertOrIgnore.mp hrow' with hold | ⟨rfl, -⟩
        · exact .inl hold
        · exact .inr rfl
      · rw [dif_neg hasset] at hrow'
        split at hrow' <;> exact .inl hrow'
    · intro db rowId modelVersion write _ row hrow
      rw [mediaSearch_putIfAbsent] at hrow
      exact .inl hrow
  exact ⟨hhang.skeletons, hassets, hrows.indexes, hmedia.commit bundle⟩

/-- What a commit of something read out leaves: a row of the message. -/
def Listed (ml : RehydrationMlMeta) (db : LocalStoreDb) : Prop := ∃ rowId, OwnRow ml.messageId rowId ∧ db.indexes rowId

theorem indexes_commitText (db : LocalStoreDb) (kind stored : String) (rowId : IdText) (write : TextMlWrite) :
    (commitText F db ml kind stored rowId write).indexes rowId := by
  have hwritten : (⟨rowId, ml.conversationId, ml.senderId, ml.createdAtMs, write.text⟩ : FtsRow) ∈
      (commitText F db ml kind stored rowId write).fts := by
    unfold commitText putIfAbsent
    cases write.xlmrEmbedding with
    | none => exact List.mem_append_right _ (List.mem_singleton_self _)
    | some v =>
        simp only
        split <;> exact List.mem_append_right _ (List.mem_singleton_self _)
  exact .inl ⟨_, hwritten, rfl⟩

theorem indexes_putIfAbsent (db : LocalStoreDb) (rowId : IdText) (modelVersion : String) (v : Bytes) :
    (putIfAbsent db rowId modelVersion (some v)).indexes rowId := by
  unfold putIfAbsent
  by_cases hhit : db.hasVector rowId modelVersion = true
  · simp only [hhit, if_true]
    obtain ⟨row, hrow, hkey⟩ := Table.has_iff.mp hhit
    exact .inr (.inr ⟨row, hrow, (Prod.mk.inj hkey).1⟩)
  · simp only [hhit, if_false, Bool.false_eq_true]
    obtain ⟨row, hrow, hkey⟩ := Table.has_iff.mp (Table.has_insertOrIgnore
      (db.vectors.update (fun r => r.key = (rowId, modelVersion)) (fun r => { r with embedding := v }) fun _ => rfl)
      ⟨rowId, v, modelVersion⟩)
    exact .inr (.inr ⟨row, hrow, (Prod.mk.inj hkey).1⟩)

/-- A message that is listed stays listed. -/
theorem listed_closure : MlClosure F ml fun db db' => Listed ml db → Listed ml db' where
  refl _ h := h
  trans h h' hlisted := h' (h hlisted)
  text db kind stored rowId write hown _ := ⟨rowId, hown, indexes_commitText db kind stored rowId write⟩
  vector db rowId modelVersion write hown h := by
    cases write with
    | none => exact h
    | some v => exact ⟨rowId, hown, indexes_putIfAbsent db rowId modelVersion v⟩

/-- What the bridges hand over has a page wherever it has a document, and a vector wherever it has frames. -/
structure Productive (bundle : PostRehydrationMlBundle) : Prop where
  any : bundle.hasAnyWrites = true
  document : ∀ pages, bundle.document = some pages → pages ≠ []
  keyframes : ∀ kf, bundle.keyframes = some kf → kf.frames ≠ [] ∨ kf.canonicalFirstEmbedding.isSome = true

theorem productive_run {mimeType : String} {plaintext : Bytes}
    (h : (runPostRehydrationMl F mimeType plaintext).hasAnyWrites = true) :
    Productive (runPostRehydrationMl F mimeType plaintext) := by
  refine ⟨h, ?_, ?_⟩
  · intro pages hpages
    have hpages' : computePostRehydrationDocument F mimeType plaintext = some pages := hpages
    unfold computePostRehydrationDocument at hpages'
    split at hpages'
    · exact absurd hpages' (by simp)
    · split at hpages'
      · exact absurd hpages' (by simp)
      · simp only at hpages'
        split at hpages'
        · exact absurd hpages' (by simp)
        · -- a bridge that found nothing returns none
          rename_i hnonempty
          rw [← Option.some.inj hpages']
          intro hnil
          exact hnonempty (by rw [hnil]; rfl)
  · intro kf hkf
    have hkf' : computePostRehydrationKeyframes F mimeType plaintext = some kf := hkf
    unfold computePostRehydrationKeyframes at hkf'
    split at hkf'
    · exact absurd hkf' (by simp)
    · split at hkf'
      · split at hkf'
        · exact absurd hkf' (by simp)
        · simp only at hkf'
          split at hkf'
          · exact absurd hkf' (by simp)
          · rename_i hsome
            obtain rfl := Option.some.inj hkf'
            rw [Bool.and_eq_true, not_and_or, List.isEmpty_iff, Option.isNone_iff_eq_none] at hsome
            -- a frame, or the canonical one
            rcases hsome with hframes | hcanonical
            · exact .inl hframes
            · exact .inr (Option.isSome_iff_ne_none.mpr hcanonical)
      · exact absurd hkf' (by simp)

/-- **A commit of something that was read out lists the message.** -/
theorem listed_commit (h : Productive bundle) : Listed ml (commitPostRehydrationMl F db bundle ml) := by
  have C : MlClosure F ml fun db db' => Listed ml db → Listed ml db' := listed_closure
  have hown : OwnRow ml.messageId ml.messageId.toText := .inl rfl
  have himage : ∀ db, Listed ml db → Listed ml (putIfAbsent db ml.messageId.toText mobileclipS2ModelVersion bundle.imageEmbed) :=
    fun db => C.vector db _ _ _ hown
  have htranscribe : ∀ db, Listed ml db → Listed ml (commitIfAny bundle.transcribe
      (fun db w => commitText F db ml "transcript" w.text ml.messageId.toText w) db) :=
    fun db => C.ifAny bundle.transcribe fun db w => C.text db _ _ _ w hown
  have hdocument : ∀ db, Listed ml db →
      Listed ml (commitIfAny bundle.document (fun db pages => pages.foldl (commitPage F ml) db) db) :=
    fun db => C.ifAny bundle.document fun db pages => C.foldl pages fun db page => C.page page
  have hkeyframes : ∀ db, Listed ml db → Listed ml (commitIfAny bundle.keyframes
      (fun db kf => putIfAbsent (kf.frames.foldl (commitFrame ml) db) ml.messageId.toText mobileclipS2ModelVersion
        kf.canonicalFirstEmbedding) db) := fun db => C.ifAny bundle.keyframes fun db kf => C.keyframes kf
  unfold commitPostRehydrationMl
  -- the first part that is there lists the message, and the parts after it keep it listed
  cases hocr : bundle.ocr with
  | some w =>
      exact hkeyframes _ (hdocument _ (htranscribe _ (himage _ ⟨_, hown, indexes_commitText _ "ocr" w.text _ w⟩)))
  | none =>
      cases hembed : bundle.imageEmbed with
      | some v =>
          rw [hembed] at himage
          exact hkeyframes _ (hdocument _ (htranscribe _ ⟨_, hown, indexes_putIfAbsent _ _ _ v⟩))
      | none =>
          cases htranscript : bundle.transcribe with
          | some w => exact hkeyframes _ (hdocument _ ⟨_, hown, indexes_commitText _ "transcript" w.text _ w⟩)
          | none =>
              cases hpages : bundle.document with
              | some pages =>
                  cases pages with
                  | nil => exact absurd rfl (h.document [] hpages)
                  | cons page pages =>
                      apply hkeyframes
                      have hfirst : Listed ml (commitPage F ml db page) :=
                        ⟨_, .inr ⟨page.pageNumber, rfl⟩, indexes_commitText _ _ _ _ _⟩
                      exact C.foldl pages (fun db page => C.page page) hfirst
              | none =>
                  cases hframes : bundle.keyframes with
                  | none =>
                      have hany := h.any
                      unfold PostRehydrationMlBundle.hasAnyWrites at hany
                      rw [hocr, hembed, htranscript, hpages, hframes] at hany
                      exact absurd hany (by decide)
                  | some kf =>
                      rcases h.keyframes kf hframes with hsome | hcanonical
                      · obtain ⟨frame, frames, hcons⟩ := List.exists_cons_of_ne_nil hsome
                        have hfirst : Listed ml (commitFrame ml db frame) := ⟨_, hown, indexes_putIfAbsent _ _ _ _⟩
                        have hall : Listed ml (kf.frames.foldl (commitFrame ml) db) := by
                          rw [hcons, List.foldl_cons]
                          exact C.foldl frames (fun db frame => C.frame frame) hfirst
                        exact C.vector _ _ _ _ hown hall
                      · obtain ⟨v, hv⟩ := Option.isSome_iff_exists.mp hcanonical
                        refine ⟨_, hown, ?_⟩
                        show (putIfAbsent _ _ _ kf.canonicalFirstEmbedding).indexes _
                        rw [hv]
                        exact indexes_putIfAbsent _ _ _ v

theorem ownerOf_of_assets {db db' : LocalStoreDb} (h : db'.assets = db.assets) (id : Uuid) : ownerOf db' id = ownerOf db id := by
  unfold ownerOf
  rw [h]

theorem isDeleted_of_skeletons {db db' : LocalStoreDb} (h : db'.skeletons = db.skeletons) (m : Uuid) :
    db'.isDeleted m = db.isDeleted m := by
  unfold LocalStoreDb.isDeleted
  rw [h]

/-- **The last phase leaves no row of a deleted message exactly when its own message is not deleted.** -/
theorem clean_commitMl_iff (hids : Ids128 db) (hclean : Clean db) (hprod : Productive bundle)
    (hskel : db.skeletons.has ml.messageId = true) (howner : ownerOf db ml.assetId = some ml.messageId) :
    Clean (commitPostRehydrationMl F db bundle ml) ↔ db.isDeleted ml.messageId = false := by
  have hwrites : MlWrites ml db (commitPostRehydrationMl F db bundle ml) := mlWrites_commit
  constructor
  · intro h
    rw [← Bool.not_eq_true]
    intro hdeleted
    rw [← isDeleted_of_skeletons hwrites.skeletons] at hdeleted
    exact h ml.messageId hdeleted (.inl (listed_commit hprod))
  · intro hlive m hdeleted hrow
    rw [isDeleted_of_skeletons hwrites.skeletons] at hdeleted
    have hne : m ≠ ml.messageId := by
      rintro rfl
      rw [hlive] at hdeleted
      exact absurd hdeleted (by decide)
    apply hclean m hdeleted
    rcases hrow with ⟨rowId, hown, hindexed⟩ | ⟨row, hrow, howns⟩
    · rcases hwrites.indexes rowId hindexed with hold | hown'
      · exact .inl ⟨rowId, hown, hold⟩
      · exact absurd (OwnRow.unique (hids m (has_of_isDeleted hdeleted)) (hids _ hskel) hown hown') hne
    · rw [ownerOf_of_assets hwrites.assets] at howns
      rcases hwrites.media row hrow with hold | hasset
      · exact .inr ⟨row, hold, howns⟩
      · rw [hasset, howner] at howns
        exact absurd (Option.some.inj howns).symm hne

/-! ### The other calls -/

/-- A step that indexes nothing and deletes no message. -/
theorem clean_of_less (hdeleted : ∀ m, db'.isDeleted m = true → db.isDeleted m = true)
    (hindexes : ∀ rowId, db'.indexes rowId → db.indexes rowId) (hmedia : db'.mediaSearch = db.mediaSearch)
    (howner : ∀ id, ownerOf db' id = ownerOf db id) (hclean : Clean db) : Clean db' := by
  intro m hm hrow
  apply hclean m (hdeleted m hm)
  rcases hrow with ⟨rowId, hown, hindexed⟩ | ⟨row, hrow, howns⟩
  · exact .inl ⟨rowId, hown, hindexes rowId hindexed⟩
  · rw [howner] at howns
    exact .inr ⟨row, hmedia ▸ hrow, howns⟩

/-- What deletes and edits leave of assets and their rows. -/
theorem deleteInnerTx_media {skel : MessageSkeleton} {scope : DeleteScope} {ms : Int} :
    (deleteInnerTx db skel scope ms).mediaSearch = db.mediaSearch ∧ (deleteInnerTx db skel scope ms).assets = db.assets := by
  obtain ⟨journal, archive, heq⟩ := deleteInnerTx_eq db skel scope ms
  rw [heq]
  cases scope <;> exact ⟨rfl, rfl⟩

/-- Another message is deleted after a step as it was before. -/
theorem isDeleted_of_view {m : Uuid} (h : db'.view m = db.view m) : db'.isDeleted m = db.isDeleted m := by
  have hskel : db'.skeletons.find? m = db.skeletons.find? m := congrArg MessageView.skeleton h
  unfold LocalStoreDb.isDeleted
  rw [hskel]

/-- **A delete leaves no row of a deleted message exactly when its message has none where it does not look.** -/
theorem clean_deleteInnerTx_iff {skel : MessageSkeleton} {scope : DeleteScope} {ms : Int} (hclean : Clean db)
    (hskel : db.skeletons.find? skel.messageId = some skel) :
    Clean (deleteInnerTx db skel scope ms) ↔ ¬ HasPageOrMediaRow db skel.messageId := by
  obtain ⟨hmedia, hassets⟩ := @deleteInnerTx_media db skel scope ms
  have htombstone := congrArg MessageView.skeleton (view_deleteInnerTx scope ms hskel)
  have hdeleted : (deleteInnerTx db skel scope ms).isDeleted skel.messageId = true := by
    have hfind : (deleteInnerTx db skel scope ms).skeletons.find? skel.messageId = some _ := htombstone
    unfold LocalStoreDb.isDeleted
    rw [hfind]
    cases scope <;> rfl
  constructor
  · rintro h (⟨n, hpage⟩ | ⟨row, hrow, howns⟩)
    · -- the delete drops rows by the id of the message, which a page row has not
      have hkept : (deleteInnerTx db skel scope ms).indexes (pageRowId skel.messageId n) :=
        indexes_deleteInnerTx.mpr ⟨hpage, pageRowId_ne_toText skel.messageId skel.messageId n⟩
      exact h _ hdeleted (.inl ⟨_, .inr ⟨n, rfl⟩, hkept⟩)
    · refine h _ hdeleted (.inr ⟨row, hmedia ▸ hrow, ?_⟩)
      rw [ownerOf_of_assets hassets]
      exact howns
  · intro hnone m hm hrow
    by_cases hsame : m = skel.messageId
    · subst hsame
      apply hnone
      rcases hrow with ⟨rowId, hown, hindexed⟩ | ⟨row, hrow, howns⟩
      · obtain ⟨hold, hne⟩ := indexes_deleteInnerTx.mp hindexed
        -- what is left of the message is a page row or a media row
        rcases hown with rfl | ⟨n, rfl⟩
        · exact absurd rfl hne
        · exact .inl ⟨n, hold⟩
      · rw [ownerOf_of_assets hassets] at howns
        exact .inr ⟨row, hmedia ▸ hrow, howns⟩
    · rw [isDeleted_of_view (view_deleteInnerTx_of_ne hsame)] at hm
      apply hclean m hm
      rcases hrow with ⟨rowId, hown, hindexed⟩ | ⟨row, hrow, howns⟩
      · exact .inl ⟨rowId, hown, (indexes_deleteInnerTx.mp hindexed).1⟩
      · rw [ownerOf_of_assets hassets] at howns
        exact .inr ⟨row, hmedia ▸ hrow, howns⟩

/-- An edit writes rows of a message that is not deleted. -/
theorem clean_editMessageInner {skel : MessageSkeleton} {newText : String} {ms : Int} (hclean : Clean db)
    (hskel : db.skeletons.find? skel.messageId = some skel) (hstate : skel.bodyState = .localPlainAvailable) :
    Clean (editMessageInner F db skel newText ms) := by
  intro m hm hrow
  have hne : m ≠ skel.messageId := by
    rintro rfl
    unfold LocalStoreDb.isDeleted at hm
    rw [editMessageInner_skeleton hskel] at hm
    have hplain : skel.bodyState.deleted = true := hm
    rw [hstate] at hplain
    exact absurd hplain (by decide)
  rw [isDeleted_of_view (view_editMessageInner_of_ne hne)] at hm
  apply hclean m hm
  rcases hrow with ⟨rowId, hown, hindexed⟩ | hmedia
  · rcases indexes_editMessageInner hindexed with hold | rfl
    · exact .inl ⟨rowId, hown, hold⟩
    · rcases hown with hid | ⟨n, hid⟩
      · exact absurd (Uuid.toText_inj.mp hid).symm hne
      · exact absurd hid.symm (pageRowId_ne_toText m skel.messageId n)
  · exact .inr hmedia

/-- **What a committed rehydration leaves**: everything but the state and the local bytes of an asset. -/
theorem commitRehydration_rest {assetId : Uuid} {fromState : MediaState} {n : Nat}
    (h : commitRehydration db assetId fromState n = .ok db') :
    db'.skeletons = db.skeletons ∧ (∀ rowId, db'.indexes rowId ↔ db.indexes rowId) ∧ db'.mediaSearch = db.mediaSearch ∧
      ∀ id, ownerOf db' id = ownerOf db id := by
  have hupdate : ∀ (db : LocalStoreDb) f (hid : ∀ r, (f r).assetId = r.assetId) (hmessage : ∀ r, (f r).messageId = r.messageId)
      (id : Uuid), ownerOf (db.updateAsset assetId f hid hmessage) id = ownerOf db id := by
    intro db f hid hmessage id
    unfold ownerOf
    rw [LocalStoreDb.find?_updateAsset]
    by_cases hsame : id = assetId
    · rw [if_pos hsame, Option.map_map]
      congr 1
      exact funext hmessage
    · rw [if_neg hsame]
  unfold commitRehydration at h
  obtain ⟨db₁, h₁, h⟩ := except_bind_eq_ok.mp h
  obtain ⟨db₂, h₂, h⟩ := except_bind_eq_ok.mp h
  obtain ⟨-, -, rfl⟩ := transitionMediaState_eq_ok.mp h₁
  obtain ⟨-, -, rfl⟩ := transitionMediaState_eq_ok.mp h₂
  split at h
  · exact absurd h (by simp)
  · obtain rfl := Except.ok.inj h
    refine ⟨rfl, fun _ => Iff.rfl, rfl, fun id => ?_⟩
    unfold LocalStoreDb.updateBytesLocal LocalStoreDb.updateMediaState
    rw [hupdate, hupdate, hupdate]

/-! ## Runs -/

/-- What the first phase read is still what the store says. -/
structure Linked (db : LocalStoreDb) (ml : RehydrationMlMeta) : Prop where
  skeleton : db.skeletons.has ml.messageId = true
  owner : ownerOf db ml.assetId = some ml.messageId

/-- What holds of a call between two phases. -/
def RehydrationCall.Consistent (db : LocalStoreDb) (r : RehydrationCall) : Prop :=
  match r.phase with
  | .download _ mlMeta => ∀ ml, mlMeta = some ml → Linked db ml
  | .commit _ mlMeta _ => ∀ ml, mlMeta = some ml → Linked db ml
  | .bridges ml _ => Linked db ml
  | .commitMl ml bundle _ => Linked db ml ∧ Productive bundle
  | .read => True
  | .returned _ => True

/-- **What every step keeps**: which messages and whose assets there are. -/
structure KeepsOwners (db db' : LocalStoreDb) : Prop where
  skeletons : ∀ m, db'.skeletons.has m = db.skeletons.has m
  owners : ∀ id, ownerOf db' id = ownerOf db id

theorem KeepsOwners.refl (db : LocalStoreDb) : KeepsOwners db db := ⟨fun _ => rfl, fun _ => rfl⟩

theorem Linked.keep (h : Linked db ml) (hkeep : KeepsOwners db db') : Linked db' ml :=
  ⟨(hkeep.skeletons _).trans h.skeleton, (hkeep.owners _).trans h.owner⟩

theorem RehydrationCall.Consistent.keep {r : RehydrationCall} (h : r.Consistent db) (hkeep : KeepsOwners db db') :
    r.Consistent db' := by
  unfold RehydrationCall.Consistent at h ⊢
  cases hphase : r.phase with
  | read => trivial
  | returned result => trivial
  | download plan mlMeta =>
      rw [hphase] at h
      exact fun ml hml => (h ml hml).keep hkeep
  | commit plan mlMeta plaintext =>
      rw [hphase] at h
      exact fun ml hml => (h ml hml).keep hkeep
  | bridges ml plaintext =>
      rw [hphase] at h
      exact Linked.keep h hkeep
  | commitMl ml bundle plaintext =>
      rw [hphase] at h
      exact ⟨h.1.keep hkeep, h.2⟩

/-- What the first phase reads. -/
theorem linked_readAsset {m : Uuid} {plan : RehydrationPlan} {mlMeta : Option RehydrationMlMeta}
    (h : readAsset db m = .ok (some (plan, mlMeta))) : ∀ ml, mlMeta = some ml → Linked db ml := by
  unfold readAsset at h
  cases hasset : db.getMediaAssetByMessage m with
  | none =>
      rw [hasset] at h
      exact absurd h (by simp)
  | some asset =>
      rw [hasset] at h
      obtain ⟨plan', -, hret⟩ := except_bind_eq_ok.mp h
      obtain ⟨-, rfl⟩ := Prod.mk.inj (Option.some.inj (Except.ok.inj hret))
      rintro ml hml
      obtain ⟨skel, hskel, rfl⟩ := Option.map_eq_some_iff.mp hml
      have hmem : asset ∈ db.assets.rows := List.mem_of_find?_eq_some hasset
      have hfind : db.assets.rows.find? (fun asset => decide (asset.messageId = m)) = some asset := hasset
      have hmessage : asset.messageId = m := by simpa using List.find?_some hfind
      have hid := Table.key_of_find? hskel
      refine ⟨Table.has_iff.mpr ⟨skel, Table.mem_of_find? hskel, rfl⟩, ?_⟩
      show (db.assets.find? asset.assetId).map _ = some skel.messageId
      rw [Table.find?_of_mem hmem]
      exact congrArg some (hmessage.trans hid.symm)

/-- **What one phase does to the store**: nothing, or it commits the state of an asset, or what the bridges read out. -/
theorem move_db {fetch : FetchBlobRange} {r : RehydrationCall} :
    ((r.move F fetch db).1 = db ∧ ∀ ml bundle plaintext, r.phase ≠ .commitMl ml bundle plaintext) ∨
      (∃ plan mlMeta plaintext, r.phase = .commit plan mlMeta plaintext ∧
        commitRehydration db plan.assetId plan.fromState plaintext.length = .ok (r.move F fetch db).1) ∨
      ∃ ml bundle plaintext, r.phase = .commitMl ml bundle plaintext ∧
        (r.move F fetch db).1 = commitPostRehydrationMl F db bundle ml := by
  unfold RehydrationCall.move
  cases hphase : r.phase with
  | read =>
      refine .inl ⟨?_, by simp⟩
      simp only
      split <;> rfl
  | returned result => exact .inl ⟨rfl, by simp⟩
  | download plan mlMeta =>
      refine .inl ⟨?_, by simp⟩
      simp only
      split <;> rfl
  | bridges ml plaintext =>
      refine .inl ⟨?_, by simp⟩
      simp only
      split <;> rfl
  | commitMl ml bundle plaintext => exact .inr (.inr ⟨ml, bundle, plaintext, rfl, rfl⟩)
  | commit plan mlMeta plaintext =>
      simp only
      cases hcommit : commitRehydration db plan.assetId plan.fromState plaintext.length with
      | error e => exact .inl ⟨rfl, by simp⟩
      | ok db' =>
          refine .inr (.inl ⟨plan, mlMeta, plaintext, rfl, ?_⟩)
          rw [hcommit]
          cases mlMeta <;> rfl

theorem keepsOwners_move {fetch : FetchBlobRange} {r : RehydrationCall} : KeepsOwners db (r.move F fetch db).1 := by
  have hmove : ((r.move F fetch db).1 = db ∧ _) ∨ _ := move_db
  obtain ⟨hsame, -⟩ | ⟨plan, mlMeta, plaintext, -, hcommit⟩ | ⟨ml, bundle, plaintext, -, hml⟩ := hmove
  · rw [hsame]
    exact .refl db
  · obtain ⟨hskel, -, -, howner⟩ := commitRehydration_rest hcommit
    exact ⟨fun m => by rw [hskel], howner⟩
  · rw [hml]
    have hwrites : MlWrites ml db (commitPostRehydrationMl F db bundle ml) := mlWrites_commit
    exact ⟨fun m => by rw [hwrites.skeletons], ownerOf_of_assets hwrites.assets⟩

/-- A call is consistent after its own phase. -/
theorem consistent_move {fetch : FetchBlobRange} {r : RehydrationCall} (h : r.Consistent db) :
    (r.move F fetch db).2.Consistent (r.move F fetch db).1 := by
  have hkeep : KeepsOwners db (r.move F fetch db).1 := keepsOwners_move
  unfold RehydrationCall.Consistent at h
  unfold RehydrationCall.move at hkeep ⊢
  cases hphase : r.phase with
  | read =>
      simp only
      split
      · trivial
      · trivial
      · rename_i plan mlMeta hread
        -- the asset that was read links the message it was read for
        exact linked_readAsset hread
  | returned result =>
      simp only
      unfold RehydrationCall.Consistent
      rw [hphase]
      trivial
  | download plan mlMeta =>
      rw [hphase] at h
      simp only
      split
      · trivial
      · exact h
  | commit plan mlMeta plaintext =>
      rw [hphase] at h hkeep
      simp only at hkeep ⊢
      split
      · trivial
      · rename_i db' hcommit
        -- a commit keeps the owners, and so the link
        simp only [hcommit] at hkeep
        cases mlMeta with
        | none => trivial
        | some ml => exact (h ml rfl).keep hkeep
  | bridges ml plaintext =>
      rw [hphase] at h
      simp only
      split
      · rename_i hany
        exact ⟨h, productive_run hany⟩
      · trivial
  | commitMl ml bundle plaintext => trivial

/-- What holds all along: ids of 128 bits, and calls that carry what the store says. -/
def CallsConsistent (t : Threads LocalStoreDb RehydrationCall) : Prop :=
  Ids128 t.shared ∧ ∀ r ∈ t.locals, r.Consistent t.shared

/-- **A step that leaves no row of a deleted message**: the commit of what was read out finds its message not deleted,
and a delete that goes through finds no row where it does not look. -/
def SafeLabel (t : Threads LocalStoreDb RehydrationCall) : RehydrationLabel → Prop
  | .move i _ _ => ∀ r, t.locals[i]? = some r → ∀ ml bundle plaintext, r.phase = .commitMl ml bundle plaintext →
      t.shared.isDeleted ml.messageId = false
  | .deleteForMe m _ => ∀ skel, t.shared.skeletons.find? m = some skel → skel.bodyState = .localPlainAvailable →
      ¬ HasPageOrMediaRow t.shared m
  | .deleteForEveryone m _ => ∀ skel, t.shared.skeletons.find? m = some skel → skel.bodyState = .localPlainAvailable →
      ¬ HasPageOrMediaRow t.shared m
  | .editMessage _ _ _ _ => True

/-- A delete, as a call: it goes through, or nothing changes. -/
theorem clean_delete_iff {m : Uuid} {scope : DeleteScope} {ms : Int} (hclean : Clean db) :
    Clean (settle (deleteInner db m scope ms) db) ↔
      ∀ skel, db.skeletons.find? m = some skel → skel.bodyState = .localPlainAvailable → ¬ HasPageOrMediaRow db m := by
  cases hdelete : deleteInner db m scope ms with
  | error e =>
      refine ⟨fun _ skel hskel hstate => ?_, fun _ => hclean⟩
      have hok : deleteInner db m scope ms = .ok _ := deleteInner_eq_ok.mpr ⟨skel, hskel, hstate, rfl⟩
      rw [hdelete] at hok
      exact absurd hok (by simp)
  | ok db' =>
      obtain ⟨skel, hskel, hstate, rfl⟩ := deleteInner_eq_ok.mp hdelete
      obtain rfl := Table.key_of_find? hskel
      show Clean (deleteInnerTx db skel scope ms) ↔ _
      rw [clean_deleteInnerTx_iff hclean hskel]
      constructor
      · intro hnone skel' _ _
        exact hnone
      · intro h
        exact h skel hskel hstate

theorem keepsOwners_delete {m : Uuid} {scope : DeleteScope} {ms : Int} :
    KeepsOwners db (settle (deleteInner db m scope ms) db) := by
  cases hdelete : deleteInner db m scope ms with
  | error e => exact .refl db
  | ok db' =>
      obtain ⟨skel, hskel, -, rfl⟩ := deleteInner_eq_ok.mp hdelete
      obtain rfl := Table.key_of_find? hskel
      refine ⟨fun m => ?_, ownerOf_of_assets deleteInnerTx_media.2⟩
      show (deleteInnerTx db skel scope ms).skeletons.has m = _
      unfold Table.has
      by_cases hsame : m = skel.messageId
      · have htombstone : (deleteInnerTx db skel scope ms).skeletons.find? skel.messageId = some _ :=
          congrArg MessageView.skeleton (view_deleteInnerTx scope ms hskel)
        rw [hsame, htombstone, hskel]
        rfl
      · have hfind : (deleteInnerTx db skel scope ms).skeletons.find? m = db.skeletons.find? m :=
          congrArg MessageView.skeleton (view_deleteInnerTx_of_ne hsame)
        rw [hfind]

/-- An edit, as a call. -/
theorem clean_edit {m : Uuid} {newText : String} {ms : Int} (hclean : Clean db) :
    Clean (settle (editMessage F db m newText ms) db) ∧ KeepsOwners db (settle (editMessage F db m newText ms) db) := by
  cases hedit : editMessage F db m newText ms with
  | error e => exact ⟨hclean, .refl db⟩
  | ok db' =>
      obtain ⟨-, skel, hskel, hstate, rfl⟩ := editMessage_eq_ok.mp hedit
      obtain rfl := Table.key_of_find? hskel
      refine ⟨clean_editMessageInner hclean hskel hstate, fun m => ?_, ownerOf_of_assets rfl⟩
      show (editMessageInner F db skel newText ms).skeletons.has m = _
      unfold Table.has
      by_cases hsame : m = skel.messageId
      · rw [hsame, editMessageInner_skeleton hskel, hskel]
        rfl
      · have hfind : (editMessageInner F db skel newText ms).skeletons.find? m = db.skeletons.find? m :=
          congrArg MessageView.skeleton (view_editMessageInner_of_ne hsame)
        rw [hfind]

variable {t t' : Threads LocalStoreDb RehydrationCall} {label : RehydrationLabel}

/-- A step of another call keeps what the rehydrations carry. -/
theorem CallsConsistent.shared (h : CallsConsistent t) (hkeep : KeepsOwners t.shared db') :
    CallsConsistent { t with shared := db' } :=
  ⟨fun m hm => h.1 m ((hkeep.skeletons m).symm.trans hm), fun r hr => (h.2 r hr).keep hkeep⟩

theorem callsConsistent_step (h : CallsConsistent t) (hclean : Clean t.shared) (hstep : rehydrationStep t label t') :
    CallsConsistent t' := by
  unfold rehydrationStep at hstep
  subst hstep
  cases label with
  | deleteForMe m ms => exact h.shared keepsOwners_delete
  | deleteForEveryone m ms => exact h.shared keepsOwners_delete
  | editMessage F m newText ms => exact h.shared (clean_edit hclean).2
  | move i F fetch =>
      show CallsConsistent (Threads.stepAt (RehydrationCall.move F fetch) t i)
      cases hr : t.locals[i]? with
      | none =>
          unfold Threads.stepAt
          rw [hr]
          exact h
      | some r =>
          have hmem : r ∈ t.locals := List.mem_of_getElem? hr
          have hkeep : KeepsOwners t.shared (r.move F fetch t.shared).1 := keepsOwners_move
          have hshared : (Threads.stepAt (RehydrationCall.move F fetch) t i).shared = (r.move F fetch t.shared).1 := by
            unfold Threads.stepAt
            rw [hr]
          unfold CallsConsistent
          rw [hshared]
          refine ⟨(h.shared hkeep).1, fun r' hr' => ?_⟩
          rcases Threads.mem_stepAt hr hr' with rfl | hold
          · exact consistent_move (h.2 r hmem)
          · exact (h.2 r' hold).keep hkeep

/-- **A step leaves no row of a deleted message exactly when it is safe.** -/
theorem clean_step_iff (h : CallsConsistent t) (hclean : Clean t.shared) (hstep : rehydrationStep t label t') :
    Clean t'.shared ↔ SafeLabel t label := by
  unfold rehydrationStep at hstep
  subst hstep
  cases label with
  | deleteForMe m ms => exact clean_delete_iff hclean
  | deleteForEveryone m ms => exact clean_delete_iff hclean
  | editMessage F m newText ms => exact ⟨fun _ => trivial, fun _ => (clean_edit hclean).1⟩
  | move i F fetch =>
      show Clean (Threads.stepAt (RehydrationCall.move F fetch) t i).shared ↔ _
      unfold Threads.stepAt
      cases hr : t.locals[i]? with
      | none =>
          refine ⟨fun _ r hr' => ?_, fun _ => hclean⟩
          rw [hr] at hr'
          exact absurd hr' (by simp)
      | some r =>
          have hconsistent := h.2 r (List.mem_of_getElem? hr)
          unfold SafeLabel
          simp only [hr, Option.some.injEq, forall_eq']
          have hmove : ((r.move F fetch t.shared).1 = t.shared ∧ _) ∨ _ := move_db
          -- of all moves two write: the commit of the asset, which touches no index, and that of the bridges
          obtain ⟨hsame, hother⟩ | ⟨plan, mlMeta, plaintext, hphase, hcommit⟩ | ⟨ml, bundle, plaintext, hphase, hml⟩ := hmove
          · rw [hsame]
            exact ⟨fun _ ml bundle plaintext hml => absurd hml (hother ml bundle plaintext), fun _ => hclean⟩
          · obtain ⟨hskel, hindexes, hmedia, howner⟩ := commitRehydration_rest hcommit
            have hdeleted : ∀ m, (r.move F fetch t.shared).1.isDeleted m = true → t.shared.isDeleted m = true := by
              intro m hm
              rw [isDeleted_of_skeletons hskel] at hm
              exact hm
            have hclean' := clean_of_less hdeleted (fun rowId => (hindexes rowId).mp) hmedia howner hclean
            exact ⟨fun _ ml bundle plaintext' hml => absurd (hphase.symm.trans hml) (by simp), fun _ => hclean'⟩
          · unfold RehydrationCall.Consistent at hconsistent
            rw [hphase] at hconsistent
            obtain ⟨hlinked, hprod⟩ := hconsistent
            rw [hml, clean_commitMl_iff h.1 hclean hprod hlinked.skeleton hlinked.owner, hphase]
            constructor
            · intro hlive ml' bundle' plaintext' hsame
              obtain ⟨rfl, -, -⟩ := RehydrationPhase.commitMl.inj hsame
              exact hlive
            · intro hall
              exact hall ml bundle plaintext rfl

/-! ### What the commit adds -/

/-- No index row of the message that was not there. -/
structure NoNewRow (db db' : LocalStoreDb) (m : Uuid) : Prop where
  fts : ∀ row ∈ db'.fts, OwnRow m row.messageId → row ∈ db.fts
  fuzzy : ∀ row ∈ db'.fuzzy.rows, OwnRow m row.messageId → row ∈ db.fuzzy.rows
  vectors : ∀ row ∈ db'.vectors.rows, OwnRow m row.messageId → row ∈ db.vectors.rows
  media : ∀ row ∈ db'.mediaSearch.rows, ownerOf db' row.assetId = some m → row ∈ db.mediaSearch.rows

theorem noNewRow_of_no_row {m : Uuid} (h : ¬ HasRow db' m) : NoNewRow db db' m where
  fts row hrow hown := absurd (.inl ⟨_, hown, .inl ⟨row, hrow, rfl⟩⟩) h
  fuzzy row hrow hown := absurd (.inl ⟨_, hown, .inr (.inl ⟨row, hrow, rfl⟩)⟩) h
  vectors row hrow hown := absurd (.inl ⟨_, hown, .inr (.inr ⟨row, hrow, rfl⟩)⟩) h
  media row hrow howns := absurd (.inr ⟨row, hrow, howns⟩) h

/-- **The commit of what the bridges read out adds no row of a message that is deleted at that step.** -/
def CommitAddsNone (t : Threads LocalStoreDb RehydrationCall) (label : RehydrationLabel) : Prop :=
  ∀ i F fetch, label = .move i F fetch → ∀ r, t.locals[i]? = some r →
    ∀ ml bundle plaintext, r.phase = .commitMl ml bundle plaintext →
      ∀ m, t.shared.isDeleted m = true → NoNewRow t.shared (commitPostRehydrationMl F t.shared bundle ml) m

theorem commitAddsNone_of_clean (hclean : Clean (rehydrationNext t label).shared) : CommitAddsNone t label := by
  rintro i F fetch rfl r hr ml bundle plaintext hphase m hdeleted
  have hnext : (rehydrationNext t (.move i F fetch)).shared = commitPostRehydrationMl F t.shared bundle ml := by
    show (Threads.stepAt (RehydrationCall.move F fetch) t i).shared = _
    unfold Threads.stepAt RehydrationCall.move
    simp only [hr, hphase]
  have hwrites : MlWrites ml t.shared (commitPostRehydrationMl F t.shared bundle ml) := mlWrites_commit
  rw [hnext] at hclean
  apply noNewRow_of_no_row
  apply hclean
  rw [isDeleted_of_skeletons hwrites.skeletons]
  exact hdeleted

/-- **Where a system starts**: a store without an index row of a deleted message, and calls that are about to read. -/
structure RehydrationStart (t : Threads LocalStoreDb RehydrationCall) : Prop where
  ids : Ids128 t.shared
  clean : Clean t.shared
  calls : ∀ r ∈ t.locals, ∃ m wrappingKey, r = .start m wrappingKey

/-- **Rehydrations respect deletes exactly when every step is safe**: then no commit adds a row of a deleted message, and
no state that is reached has one. -/
theorem rehydrations_respect_deletes_iff {tr : List (Threads LocalStoreDb RehydrationCall × RehydrationLabel)}
    (hstart : RehydrationStart t) (hrun : Run rehydrationStep t tr t') :
    ((∀ p ∈ tr, Clean p.1.shared ∧ CommitAddsNone p.1 p.2) ∧ Clean t'.shared) ↔ ∀ p ∈ tr, SafeLabel p.1 p.2 := by
  have hcalls : CallsConsistent t := by
    refine ⟨hstart.ids, fun r hr => ?_⟩
    obtain ⟨m, wrappingKey, rfl⟩ := hstart.calls r hr
    exact trivial
  have hiff : ((∀ p ∈ tr, Clean p.1.shared) ∧ Clean t'.shared) ↔ ∀ p ∈ tr, SafeLabel p.1 p.2 := by
    apply hrun.throughout_iff (I := fun t => Clean t.shared) (J := CallsConsistent) (G := SafeLabel) _ _ hcalls hstart.clean
    · intro t₁ label t₂ h hclean hstep
      exact callsConsistent_step h hclean hstep
    · intro t₁ label t₂ h hclean hstep
      exact clean_step_iff h hclean hstep
  constructor
  · rintro ⟨hall, hlast⟩
    exact hiff.mp ⟨fun p hp => (hall p hp).1, hlast⟩
  · intro hsafe
    obtain ⟨hclean, hlast⟩ := hiff.mpr hsafe
    -- a safe step from a clean state leads to a clean one, so the commit in it added nothing
    have hkept : (∀ p ∈ tr, CallsConsistent p.1 ∧ Clean p.1.shared) ∧ CallsConsistent t' ∧ Clean t'.shared := by
      apply hrun.invariant_throughout (I := fun t => CallsConsistent t ∧ Clean t.shared) (G := SafeLabel) _ hsafe
        ⟨hcalls, hstart.clean⟩
      intro t₁ label t₂ h hsafe hstep
      exact ⟨callsConsistent_step h.1 h.2 hstep, (clean_step_iff h.1 h.2 hstep).mpr hsafe⟩
    refine ⟨fun p hp => ⟨hclean p hp, ?_⟩, hlast⟩
    obtain ⟨hcalls', hclean'⟩ := hkept.1 p hp
    exact commitAddsNone_of_clean ((clean_step_iff hcalls' hclean' rfl).mpr (hsafe p hp))

end Steps

/-! ## A picture that is deleted while it is looked at -/

/-- A device with an image embedder. -/
def embeddingPlatform : Platform := { taggingPlatform with imageEmbedder := some fun _ _ => some [1] }

/-- The image was sent to a store with nothing else. -/
theorem hiImage_alone : ∃ fetch processed stored,
    SentAway taggingPlatform hiImage (ByteArr.zeros 32) fetch ⟨3⟩ processed stored ∧
      processed.descriptor.chunkCount < 2 ^ 31 ∧ (∀ m, stored.skeletons.has m = true → m = ⟨2⟩) ∧
      ∃ skel, stored.skeletons.find? ⟨2⟩ = some skel ∧ skel.bodyState = .localPlainAvailable := by
  obtain ⟨fetch, processed, stored, sentDb, haway, hcount, hsend, hskeletons⟩ := hiImage_stored
  have hcreate := (sendMedia_eq_ok hsend).1
  refine ⟨fetch, processed, stored, haway, hcount, ?_, ?_⟩
  · intro m hm
    by_contra hne
    have hother : sentDb.skeletons.find? m = none := congrArg MessageView.skeleton (hcreate.others m hne)
    rw [hskeletons, Table.has, hother] at hm
    exact absurd hm (by decide)
  · rw [hskeletons]
    exact ⟨_, hcreate.skeleton, rfl⟩

theorem hiImage_start {stored : LocalStoreDb} (hone : ∀ m, stored.skeletons.has m = true → m = ⟨2⟩)
    (hskel : ∃ skel, stored.skeletons.find? ⟨2⟩ = some skel ∧ skel.bodyState = .localPlainAvailable) :
    RehydrationStart ⟨stored, [.start ⟨2⟩ (ByteArr.zeros 32)]⟩ where
  ids m hm := by
    rw [hone m hm]
    unfold Is128
    decide
  clean m hm := by
    obtain ⟨skel, hfind, hstate⟩ := hskel
    rw [hone m (has_of_isDeleted hm)] at hm
    unfold LocalStoreDb.isDeleted at hm
    rw [hfind] at hm
    have hplain : skel.bodyState.deleted = true := hm
    rw [hstate] at hplain
    exact absurd hplain (by decide)
  calls r hr := by
    obtain rfl := List.mem_singleton.mp hr
    exact ⟨_, _, rfl⟩

/-- What the device reads out of an image is a vector. -/
theorem hasAnyWrites_embedding (plaintext : Bytes) :
    (runPostRehydrationMl embeddingPlatform "image/png" plaintext).hasAnyWrites = true := by
  have himage : (!"image/png".startsWith "image/") = false := by decide +kernel
  have hembed : (runPostRehydrationMl embeddingPlatform "image/png" plaintext).imageEmbed = some [1] := by
    show computePostRehydrationImageEmbed embeddingPlatform "image/png" plaintext = some [1]
    unfold computePostRehydrationImageEmbed
    rw [himage]
    rfl
  unfold PostRehydrationMlBundle.hasAnyWrites
  rw [hembed]
  simp

/-- The image is downloaded and read out; then it is deleted, and then what was read out is committed. -/
theorem run_hiImage : ∃ (t t' : Threads LocalStoreDb RehydrationCall) (tr : List _), RehydrationStart t ∧
    Run rehydrationStep t tr t' ∧ t'.shared.isDeleted ⟨2⟩ = true ∧ HasRow t'.shared ⟨2⟩ := by
  obtain ⟨fetch, processed, stored, haway, hcount, hone, skel, hskel, hstate⟩ := hiImage_alone
  obtain ⟨state, now, hphases⟩ := haway.phases tagging_appendsTag
  obtain ⟨committed, hcommit, hskeletons, -⟩ := commitRehydration_attached hphases.attached hphases.away hphases.countable
  have hcount' : processed.chunked.chunkCount < 2 ^ 31 := hcount
  have hdownload := hphases.download
  rw [if_pos hcount'] at hdownload
  let plan := planOf (hiImage.asset processed.descriptor) processed.chunked.merkleRoot state
  let ml := mlMetaOf (hiImage.asset processed.descriptor) (hiImage.skeleton now)
  let padded := padToSizeClass hiImage.plaintext
  let bundle := runPostRehydrationMl embeddingPlatform ml.mimeType padded
  let call : RehydrationPhase → RehydrationCall := RehydrationCall.mk ⟨2⟩ (ByteArr.zeros 32)
  have hread : (call .read).move embeddingPlatform fetch stored = (stored, call (.download plan (some ml))) := by
    have hread' : readAsset stored ⟨2⟩ = .ok (some (plan, some ml)) := hphases.read
    simp only [RehydrationCall.move, call, hread']
  have hdown : (call (.download plan (some ml))).move embeddingPlatform fetch stored =
      (stored, call (.commit plan (some ml) padded)) := by
    have hdownload' : executeRehydrationDownload embeddingPlatform.primitives plan fetch (ByteArr.zeros 32) = .ok padded :=
      hdownload
    simp only [RehydrationCall.move, call, hdownload']
  have hcommitting : (call (.commit plan (some ml) padded)).move embeddingPlatform fetch stored =
      (committed, call (.bridges ml padded)) := by
    have hcommit' : commitRehydration stored plan.assetId plan.fromState padded.length = .ok committed := hcommit
    simp only [RehydrationCall.move, call, hcommit']
  have hbridging : (call (.bridges ml padded)).move embeddingPlatform fetch committed =
      (committed, call (.commitMl ml bundle padded)) := by
    have hany : (runPostRehydrationMl embeddingPlatform ml.mimeType padded).hasAnyWrites = true :=
      hasAnyWrites_embedding padded
    simp only [RehydrationCall.move, call, hany, if_true, bundle]
  obtain ⟨tr, hrun⟩ : ∃ tr, Run rehydrationStep ⟨stored, [call .read]⟩ tr
      ⟨committed, [call (.commitMl ml bundle padded)]⟩ :=
    Threads.Moves.run (a := .move 0 embeddingPlatform fetch) (i := 0) (fun _ => rfl) rfl
      (.cons hread (.cons hdown (.cons hcommitting (.single hbridging))))
  -- the delete goes through: the skeleton is as it was sent
  have hskel' : committed.skeletons.find? skel.messageId = some skel := by
    rw [Table.key_of_find? hskel, hskeletons]
    exact hskel
  have hid : skel.messageId = ⟨2⟩ := Table.key_of_find? hskel
  have hdelete : deleteInner committed ⟨2⟩ .forMe 2000 = .ok (deleteInnerTx committed skel .forMe 2000) :=
    deleteInner_eq_ok.mpr ⟨skel, hid ▸ hskel', hstate, rfl⟩
  have hdeleting : rehydrationStep ⟨committed, [call (.commitMl ml bundle padded)]⟩ (.deleteForMe ⟨2⟩ 2000)
      ⟨deleteInnerTx committed skel .forMe 2000, [call (.commitMl ml bundle padded)]⟩ := by
    show Threads.mk (settle (deleteInner committed ⟨2⟩ .forMe 2000) committed) _ = _
    rw [hdelete]
    rfl
  have hindexing : rehydrationStep ⟨deleteInnerTx committed skel .forMe 2000, [call (.commitMl ml bundle padded)]⟩
      (.move 0 embeddingPlatform fetch)
      ⟨commitPostRehydrationMl embeddingPlatform (deleteInnerTx committed skel .forMe 2000) bundle ml,
        [(call (.commitMl ml bundle padded)).finish (.ok (some padded))]⟩ := rfl
  refine ⟨_, _, _, hiImage_start hone ⟨skel, hskel, hstate⟩, hrun.trans (.tail (.single hdeleting) hindexing), ?_, ?_⟩
  · have hwrites : MlWrites ml (deleteInnerTx committed skel .forMe 2000)
        (commitPostRehydrationMl embeddingPlatform (deleteInnerTx committed skel .forMe 2000) bundle ml) := mlWrites_commit
    have htombstone : (deleteInnerTx committed skel .forMe 2000).skeletons.find? skel.messageId = some _ :=
      congrArg MessageView.skeleton (view_deleteInnerTx .forMe 2000 hskel')
    rw [isDeleted_of_skeletons hwrites.skeletons]
    unfold LocalStoreDb.isDeleted
    rw [← hid, htombstone]
    rfl
  · have hlisted : Listed ml (commitPostRehydrationMl embeddingPlatform (deleteInnerTx committed skel .forMe 2000) bundle ml) :=
      listed_commit (productive_run (hasAnyWrites_embedding padded))
    exact .inl hlisted

theorem hiImage_respects_deletes_iff : ∃ (t t' : Threads LocalStoreDb RehydrationCall) (tr : List _),
    Run rehydrationStep t tr t' ∧
      (((∀ p ∈ tr, Clean p.1.shared ∧ CommitAddsNone p.1 p.2) ∧ Clean t'.shared) ↔ ∀ p ∈ tr, SafeLabel p.1 p.2) := by
  obtain ⟨t, t', tr, hstart, hrun, -, -⟩ := run_hiImage
  exact ⟨t, t', tr, hrun, rehydrations_respect_deletes_iff hstart hrun⟩

/-- **The image is deleted while its bridges run, and is in the index again.** -/
theorem hiImage_indexed_after_delete : ∃ (t t' : Threads LocalStoreDb RehydrationCall) (tr : List _),
    RehydrationStart t ∧ Run rehydrationStep t tr t' ∧
      ¬ ((∀ p ∈ tr, Clean p.1.shared ∧ CommitAddsNone p.1 p.2) ∧ Clean t'.shared) := by
  obtain ⟨t, t', tr, hstart, hrun, hdeleted, hrow⟩ := run_hiImage
  refine ⟨t, t', tr, hstart, hrun, ?_⟩
  rintro ⟨-, hclean⟩
  exact hclean ⟨2⟩ hdeleted hrow

end KChatCore.Media
