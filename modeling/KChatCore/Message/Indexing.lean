import KChatCore.Message.Media

/-!
# `Message.Indexing` — rows that hang off a message

An asset, an index row and a vector all belong to one message, a page's rows included (`RowOf`). `HangsOff k` says
that a piece of a call writes only such rows of message `k`: no skeleton, no body, no conversation, no journal, and
nothing in the view of another message.

What a fan-out of the pipelines writes is said once, for any relation the single writes satisfy and that composes
(`RowClosure`): the index rows of the texts it extracts (`extractedRows`), and vectors under row ids of the message.
-/

namespace KChatCore.Message

open Lib LocalStore

/-! ## Rows that hang off a message -/

/-- A row id that is not the id of another message. -/
def RowOf (k : Uuid) (rowId : IdText) : Prop := ∀ m, m ≠ k → rowId ≠ m.toText

theorem rowOf_toText (k : Uuid) : RowOf k k.toText := by
  intro m hm h
  exact hm (Uuid.toText_inj.mp h).symm

theorem rowOf_pageRowId (k : Uuid) (n : Nat) : RowOf k (pageRowId k n) := by
  intro m _
  exact pageRowId_ne_toText k m n

/-- A row id of the message: its own id, or that of one of its pages. -/
def OwnRow (k : Uuid) (rowId : IdText) : Prop := rowId = k.toText ∨ ∃ n, rowId = pageRowId k n

theorem OwnRow.rowOf {k : Uuid} {rowId : IdText} (h : OwnRow k rowId) : RowOf k rowId := by
  rcases h with rfl | ⟨n, rfl⟩
  · exact rowOf_toText k
  · exact rowOf_pageRowId k n

/-- **Only rows that hang off message `k` are written**: its assets and its index rows. -/
structure HangsOff (k : Uuid) (db db' : LocalStoreDb) : Prop where
  view : ∀ m, m ≠ k → db'.view m = db.view m
  skeletons : db'.skeletons = db.skeletons
  bodies : db'.bodies = db.bodies
  conversations : db'.conversations = db.conversations
  backupJournal : db'.backupJournal = db.backupJournal
  archiveJournal : db'.archiveJournal = db.archiveJournal

namespace HangsOff

variable {k : Uuid} {db db' db'' : LocalStoreDb}

theorem refl : HangsOff k db db := ⟨fun _ _ => rfl, rfl, rfl, rfl, rfl, rfl⟩

theorem trans (h : HangsOff k db db') (h' : HangsOff k db' db'') : HangsOff k db db'' where
  view m hm := (h'.view m hm).trans (h.view m hm)
  skeletons := h'.skeletons.trans h.skeletons
  bodies := h'.bodies.trans h.bodies
  conversations := h'.conversations.trans h.conversations
  backupJournal := h'.backupJournal.trans h.backupJournal
  archiveJournal := h'.archiveJournal.trans h.archiveJournal

theorem insertFtsRow {row : FtsRow} (h : RowOf k row.messageId) : HangsOff k db (db.insertFtsRow row) where
  view m hm := by rw [LocalStoreDb.view_insertFtsRow, if_neg (h m hm)]
  skeletons := rfl
  bodies := rfl
  conversations := rfl
  backupJournal := rfl
  archiveJournal := rfl

theorem indexMessage {toLowercase : Char → List Char} {rowId : IdText} (h : RowOf k rowId) (text : String) :
    HangsOff k db (db.indexMessage toLowercase rowId text) where
  view m hm := LocalStoreDb.view_indexMessage_of_ne (h m hm) text
  skeletons := rfl
  bodies := rfl
  conversations := rfl
  backupJournal := rfl
  archiveJournal := rfl

theorem putVector {rowId : IdText} (h : RowOf k rowId) (modelVersion : String) (embedding : Bytes) :
    HangsOff k db (db.putVector rowId modelVersion embedding) where
  view m hm := LocalStoreDb.view_putVector_of_ne (h m hm) modelVersion embedding
  skeletons := rfl
  bodies := rfl
  conversations := rfl
  backupJournal := rfl
  archiveJournal := rfl

theorem insertMediaSearchIndex (row : MediaSearchRow) : HangsOff k db (settle (db.insertMediaSearchIndex row) db) := by
  unfold LocalStoreDb.insertMediaSearchIndex
  by_cases hasset : db.assets.has row.assetId = true
  · rw [dif_pos hasset]
    exact ⟨fun _ _ => rfl, rfl, rfl, rfl, rfl, rfl⟩
  · rw [dif_neg hasset]
    by_cases hkey : db.mediaSearch.has row.key = true
    · rw [if_pos hkey]
      exact refl
    · rw [if_neg hkey]
      exact refl

theorem insertMediaAsset {asset : MediaAsset} (h : db.insertMediaAsset asset = .ok db') : HangsOff k db db' := by
  obtain ⟨hfree, hskel, rfl⟩ := LocalStoreDb.insertMediaAsset_eq_ok.mp h
  exact ⟨fun _ _ => rfl, rfl, rfl, rfl, rfl, rfl⟩

theorem insertAssets {m : Uuid} {descs : List MediaDescriptor} (h : insertAssets db m descs = .ok db') :
    HangsOff k db db' := by
  induction descs generalizing db with
  | nil =>
      rw [Except.ok.inj h]
      exact refl
  | cons desc descs ih =>
      obtain ⟨db₁, hasset, hrest⟩ := except_bind_eq_ok.mp h
      exact (insertMediaAsset hasset).trans (ih hrest)

/-- The text of a message: its body, and then only index rows. -/
theorem insertText {F : Platform} {skel : MessageSkeleton} {text : String} (h : insertText F db skel text = .ok db') :
    ∃ hfree hskel, HangsOff skel.messageId (db.addBody ⟨skel.messageId, some text, none, none⟩ hfree hskel) db' := by
  obtain ⟨db₁, hbody, h⟩ := except_bind_eq_ok.mp h
  obtain ⟨hfree, hskel, rfl⟩ := LocalStoreDb.insertMessageBody_eq_ok.mp hbody
  obtain rfl := Except.ok.inj h
  have hrow := rowOf_toText skel.messageId
  exact ⟨hfree, hskel, (insertFtsRow hrow).trans (indexMessage hrow text)⟩

end HangsOff

/-! ## What is extracted -/

/-- The index row of a text of the message. -/
def textRow (skel : MessageSkeleton) (rowId : IdText) (text : String) : FtsRow :=
  ⟨rowId, skel.conversationId, skel.senderId, skel.createdAtMs, text⟩

/-- The text of an image. -/
def ocrText (F : Platform) (mimeType : String) (plaintext : Bytes) : Option String :=
  if !mimeType.startsWith "image/" || !F.shouldRunOcr then none
  else (F.ocrBridge.bind fun recognizeText => recognizeText plaintext mimeType).bind fun regions =>
    let combined := trim ("\n".intercalate ((ocrLines regions).map Prod.fst))
    if combined.isEmpty then none else some combined

/-- The text of a recording. -/
def transcriptText (F : Platform) (mimeType : String) (plaintext : Bytes) : Option String :=
  if !mimeType.startsWith "audio/" || !F.shouldRunTranscription then none
  else (F.whisperTranscriber.bind fun transcribe => transcribe plaintext mimeType).bind fun result =>
    if (trim result.text).isEmpty then none else some (trim result.text)

/-- The pages of a document that have text. -/
def documentPages (F : Platform) (mimeType : String) (plaintext : Bytes) : List DocumentPage :=
  if !isSupportedDocumentMime mimeType then []
  else ((F.documentExtractor.bind fun extractText => extractText plaintext mimeType).getD []).filter fun page =>
    !(trim page.text).isEmpty

/-- **The index rows of the texts that are extracted from media.** -/
def extractedRows (F : Platform) (skel : MessageSkeleton) (mimeType : String) (plaintext : Bytes) : List FtsRow :=
  (ocrText F mimeType plaintext).toList.map (textRow skel skel.messageId.toText) ++
    (transcriptText F mimeType plaintext).toList.map (textRow skel skel.messageId.toText) ++
    (documentPages F mimeType plaintext).map fun page =>
      textRow skel (pageRowId skel.messageId page.pageNumber) (trim page.text)

theorem ownRow_of_mem_extractedRows {F : Platform} {skel : MessageSkeleton} {mimeType : String} {plaintext : Bytes}
    {row : FtsRow} (h : row ∈ extractedRows F skel mimeType plaintext) : OwnRow skel.messageId row.messageId := by
  unfold extractedRows at h
  rcases List.mem_append.mp h with h | h
  · rcases List.mem_append.mp h with h | h
    · obtain ⟨text, -, rfl⟩ := List.mem_map.mp h
      exact .inl rfl
    · obtain ⟨text, -, rfl⟩ := List.mem_map.mp h
      exact .inl rfl
  · obtain ⟨page, -, rfl⟩ := List.mem_map.mp h
    exact .inr ⟨page.pageNumber, rfl⟩

/-! ## What a fan-out writes -/

/-- **A relation between stores that every single write of a fan-out satisfies**: text rows that meet `P`, with their
n-grams, and vectors under row ids of message `k`. -/
structure RowClosure (k : Uuid) (P : FtsRow → Prop) (R : LocalStoreDb → LocalStoreDb → Prop) : Prop where
  refl : ∀ db, R db db
  trans : ∀ {db db' db''}, R db db' → R db' db'' → R db db''
  insertFtsRow : ∀ db row, P row → R db (db.insertFtsRow row)
  indexMessage : ∀ db toLowercase row, P row → R db (db.indexMessage toLowercase row.messageId row.textContent)
  putVector : ∀ db rowId modelVersion embedding, OwnRow k rowId → R db (db.putVector rowId modelVersion embedding)
  insertMediaSearchIndex : ∀ db row, R db (settle (db.insertMediaSearchIndex row) db)

namespace RowClosure

variable {k : Uuid} {P : FtsRow → Prop} {R : LocalStoreDb → LocalStoreDb → Prop} (C : RowClosure k P R) {F : Platform}
  {db : LocalStoreDb} {skel : MessageSkeleton} {assetId : Uuid} {mimeType : String} {plaintext : Bytes}

include C

theorem embedOnce {rowId : IdText} (h : OwnRow k rowId) (modelVersion : String) (infer : Unit → Option Bytes) :
    R db (embedOnce db rowId modelVersion infer) := by
  unfold Message.embedOnce
  by_cases hhit : db.hasVector rowId modelVersion = true
  · rw [if_pos hhit]
    exact C.refl db
  · rw [if_neg hhit]
    cases infer () with
    | none => exact C.refl db
    | some embedding => exact C.putVector db rowId modelVersion embedding h

theorem fanOutText {row : MediaSearchRow} {rowId : IdText} {text : String} (hrow : OwnRow k rowId)
    (hP : P (textRow skel rowId text)) : R db (fanOutText F db skel row rowId text) := by
  let stored := settle (db.insertMediaSearchIndex row) db
  let listed := stored.insertFtsRow (textRow skel rowId text)
  have hstored : R db stored := C.insertMediaSearchIndex db row
  have hlisted : R stored listed := C.insertFtsRow stored _ hP
  have hfuzzy : R listed (listed.indexMessage F.toLowercase rowId text) := C.indexMessage listed F.toLowercase _ hP
  have hindexed := C.trans (C.trans hstored hlisted) hfuzzy
  unfold Message.fanOutText
  cases F.textEmbedder with
  | none => exact hindexed
  | some embed => exact C.trans hindexed (C.embedOnce hrow _ _)

theorem maybeEmbedTextMessage {msg : IngestedMessage} (hk : msg.messageId = k) : R db (maybeEmbedTextMessage F db msg) := by
  unfold Message.maybeEmbedTextMessage
  cases msg.textContent with
  | none => exact C.refl db
  | some text =>
      cases F.textEmbedder with
      | none => exact C.refl db
      | some embed => exact C.embedOnce (.inl (congrArg Uuid.toText hk)) _ _

theorem maybeEmbedImageMessage : R db (maybeEmbedImageMessage F db k mimeType plaintext) := by
  unfold Message.maybeEmbedImageMessage
  by_cases hmime : (!mimeType.startsWith "image/") = true
  · rw [if_pos hmime]
    exact C.refl db
  · rw [if_neg hmime]
    cases F.imageEmbedder with
    | none => exact C.refl db
    | some embedImage => exact C.embedOnce (.inl rfl) _ _

theorem maybeRunOcrOnImageMessage (hk : skel.messageId = k)
    (hP : ∀ text, ocrText F mimeType plaintext = some text → P (textRow skel skel.messageId.toText text)) :
    R db (maybeRunOcrOnImageMessage F db skel assetId mimeType plaintext) := by
  unfold Message.maybeRunOcrOnImageMessage
  unfold ocrText at hP
  by_cases hskip : (!mimeType.startsWith "image/" || !F.shouldRunOcr) = true
  · rw [if_pos hskip]
    exact C.refl db
  · rw [if_neg hskip] at hP ⊢
    cases hregions : F.ocrBridge.bind fun recognizeText => recognizeText plaintext mimeType with
    | none => exact C.refl db
    | some regions =>
        rw [hregions, Option.bind_some] at hP
        show R db (if (trim _).isEmpty = true then db else _)
        by_cases hempty : (trim ("\n".intercalate ((ocrLines regions).map Prod.fst))).isEmpty = true
        · rw [if_pos hempty]
          exact C.refl db
        · rw [if_neg hempty]
          exact C.fanOutText (.inl (congrArg Uuid.toText hk)) (hP _ (if_neg hempty))

theorem maybeTranscribeAudioMessage (hk : skel.messageId = k)
    (hP : ∀ text, transcriptText F mimeType plaintext = some text → P (textRow skel skel.messageId.toText text)) :
    R db (maybeTranscribeAudioMessage F db skel assetId mimeType plaintext) := by
  unfold Message.maybeTranscribeAudioMessage
  unfold transcriptText at hP
  by_cases hskip : (!mimeType.startsWith "audio/" || !F.shouldRunTranscription) = true
  · rw [if_pos hskip]
    exact C.refl db
  · rw [if_neg hskip] at hP ⊢
    cases hresult : F.whisperTranscriber.bind fun transcribe => transcribe plaintext mimeType with
    | none => exact C.refl db
    | some result =>
        rw [hresult, Option.bind_some] at hP
        show R db (if (trim result.text).isEmpty = true then db else _)
        by_cases hempty : (trim result.text).isEmpty = true
        · rw [if_pos hempty]
          exact C.refl db
        · rw [if_neg hempty]
          exact C.fanOutText (.inl (congrArg Uuid.toText hk)) (hP _ (if_neg hempty))

theorem indexPage {page : DocumentPage} (hk : skel.messageId = k)
    (hP : (trim page.text).isEmpty = false → P (textRow skel (pageRowId skel.messageId page.pageNumber) (trim page.text))) :
    R db (indexPage F skel assetId db page) := by
  show R db (if (trim page.text).isEmpty = true then db else _)
  by_cases hempty : (trim page.text).isEmpty = true
  · rw [if_pos hempty]
    exact C.refl db
  · rw [if_neg hempty]
    exact C.fanOutText (.inr ⟨page.pageNumber, by rw [hk]⟩) (hP (Bool.eq_false_iff.mpr hempty))

/-- A loop whose turns are all related. -/
theorem foldl {α : Type} {f : LocalStoreDb → α → LocalStoreDb} (as : List α) (hf : ∀ db, ∀ a ∈ as, R db (f db a)) :
    R db (as.foldl f db) := by
  induction as generalizing db with
  | nil => exact C.refl db
  | cons a as ih =>
      exact C.trans (hf db a List.mem_cons_self) (ih fun db a ha => hf db a (List.mem_cons_of_mem _ ha))

theorem maybeExtractDocumentPages (hk : skel.messageId = k)
    (hP : ∀ page ∈ documentPages F mimeType plaintext,
      P (textRow skel (pageRowId skel.messageId page.pageNumber) (trim page.text))) :
    R db (maybeExtractDocumentPages F db skel assetId mimeType plaintext) := by
  unfold Message.maybeExtractDocumentPages
  unfold documentPages at hP
  by_cases hmime : (!isSupportedDocumentMime mimeType) = true
  · rw [if_pos hmime]
    exact C.refl db
  · rw [if_neg hmime] at hP ⊢
    cases hpages : F.documentExtractor.bind fun extractText => extractText plaintext mimeType with
    | none => exact C.refl db
    | some pages =>
        rw [hpages, Option.getD_some] at hP
        apply C.foldl
        intro db page hpage
        apply C.indexPage hk
        intro hempty
        exact hP page (List.mem_filter.mpr ⟨hpage, by rw [hempty]; rfl⟩)

theorem embedFrame {embedImage : Bytes → String → Option Bytes} {frame : Keyframe × Nat} :
    R db (embedFrame embedImage k db frame) := by
  unfold Message.embedFrame
  by_cases hhit : db.hasVector k.toText (mobileclipS2ModelVersion ++ "_frame_" ++ toString frame.1.frameIndex) = true
  · simp only [hhit, if_true]
    exact C.refl db
  · simp only [hhit, if_false, Bool.false_eq_true]
    cases embedImage frame.1.imageData frame.1.mimeType with
    | none => exact C.refl db
    | some embedding =>
        have hput : R db (db.putVector k.toText _ embedding) :=
          C.putVector db k.toText (mobileclipS2ModelVersion ++ "_frame_" ++ toString frame.1.frameIndex) embedding (.inl rfl)
        by_cases hfirst : frame.2 = 0
        · simp only [hfirst, if_true]
          exact C.trans hput (C.embedOnce (.inl rfl) _ _)
        · simp only [hfirst, if_false]
          exact hput

theorem maybeEmbedVideoKeyframes : R db (maybeEmbedVideoKeyframes F db k mimeType plaintext) := by
  unfold Message.maybeEmbedVideoKeyframes
  by_cases hmime : (!mimeType.startsWith "video/") = true
  · rw [if_pos hmime]
    exact C.refl db
  · rw [if_neg hmime]
    cases F.videoKeyframeSampler with
    | none => exact C.refl db
    | some extractKeyframes =>
        cases F.imageEmbedder with
        | none => exact C.refl db
        | some embedImage =>
            cases hframes : extractKeyframes plaintext mimeType 5 with
            | none => simpa only [hframes] using C.refl db
            | some frames => simpa only [hframes] using C.foldl frames.zipIdx fun _ _ _ => C.embedFrame

/-- **Extraction writes the extracted rows, and vectors under row ids of the message.** -/
theorem extractMedia (hk : skel.messageId = k) (hP : ∀ row ∈ extractedRows F skel mimeType plaintext, P row) :
    R db (extractMedia F db skel assetId mimeType plaintext) := by
  subst hk
  unfold extractedRows at hP
  simp only [List.mem_append, or_imp, forall_and, List.forall_mem_map, Option.mem_toList] at hP
  obtain ⟨⟨hocr, htranscript⟩, hpages⟩ := hP
  have hembed : R db (Message.maybeEmbedImageMessage F db skel.messageId mimeType plaintext) := C.maybeEmbedImageMessage
  exact C.trans hembed (C.trans (C.maybeRunOcrOnImageMessage rfl hocr) (C.trans
    (C.maybeTranscribeAudioMessage rfl htranscript) (C.trans (C.maybeExtractDocumentPages rfl hpages)
      C.maybeEmbedVideoKeyframes)))

end RowClosure

namespace HangsOff

variable {k : Uuid} {db : LocalStoreDb} {F : Platform} {skel : MessageSkeleton} {assetId : Uuid} {mimeType : String}
  {plaintext : Bytes}

theorem closure (k : Uuid) : RowClosure k (fun row => OwnRow k row.messageId) (HangsOff k) where
  refl _ := refl
  trans h h' := h.trans h'
  insertFtsRow _ _ h := insertFtsRow h.rowOf
  indexMessage _ _ _ h := indexMessage h.rowOf _
  putVector _ _ _ _ h := putVector h.rowOf _ _
  insertMediaSearchIndex _ row := insertMediaSearchIndex row

theorem maybeEmbedTextMessage {msg : IngestedMessage} (hk : msg.messageId = k) :
    HangsOff k db (maybeEmbedTextMessage F db msg) := (closure k).maybeEmbedTextMessage hk

/-- **Extraction writes only rows that hang off the message.** -/
theorem extractMedia (hk : skel.messageId = k) : HangsOff k db (extractMedia F db skel assetId mimeType plaintext) := by
  apply (closure k).extractMedia hk
  intro row hrow
  rw [← hk]
  exact ownRow_of_mem_extractedRows hrow

end HangsOff

end KChatCore.Message
