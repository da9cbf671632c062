import KChatCore.Media.Download
import KChatCore.Message.Indexing

/-!
# `Media.Rehydration` — a message's media on tap

`rehydrateMediaForMessage` reads the asset, downloads it, commits the new state, runs the bridges over what it downloaded
and stores what they read out of it. The store is touched in the first, the third and the last phase, and the last works
from the values the first one read. All failures of the last two phases are absorbed.

* `MlClosure.commit` — what the single writes of the last phase satisfy, the phase does.
* `commitPostRehydrationMl_related` — so it writes index rows of the message, and vectors.
* `commitPostRehydrationMl_nothing` — and without a write, nothing.
-/

namespace KChatCore.Media

open Lib LocalStore Message

/-- `RehydrationMlMeta`. -/
structure RehydrationMlMeta where
  messageId : Uuid
  assetId : Uuid
  senderId : String
  conversationId : Uuid
  createdAtMs : Int
  mimeType : String
deriving DecidableEq

/-- `OcrMlWrite`, `TranscribeMlWrite`: a text that was read, and its vector. -/
structure TextMlWrite where
  text : String
  language : Option String
  xlmrEmbedding : Option Bytes
deriving DecidableEq

/-- `DocumentPageMlWrite`. -/
structure DocumentPageMlWrite extends TextMlWrite where
  pageNumber : Nat
deriving DecidableEq

/-- `KeyframesMlWrite`: the frames that were embedded, and the vector of the first one of all. -/
structure KeyframesMlWrite where
  frames : List (Nat × Bytes)
  canonicalFirstEmbedding : Option Bytes
deriving DecidableEq

/-- `PostRehydrationMlBundle`. -/
structure PostRehydrationMlBundle where
  ocr : Option TextMlWrite
  imageEmbed : Option Bytes
  transcribe : Option TextMlWrite
  document : Option (List DocumentPageMlWrite)
  keyframes : Option KeyframesMlWrite
deriving DecidableEq

/-- `has_any_writes`. -/
def PostRehydrationMlBundle.hasAnyWrites (bundle : PostRehydrationMlBundle) : Bool :=
  bundle.ocr.isSome || bundle.imageEmbed.isSome || bundle.transcribe.isSome || bundle.document.isSome ||
    bundle.keyframes.isSome

/-! ## Phase 4a: the bridges -/

section Compute

variable (F : Platform) (mimeType : String) (plaintext : Bytes)

/-- The vector of a text, if there is an embedder and it succeeds. -/
def xlmrEmbedding (text : String) : Option Bytes := F.textEmbedder.bind fun embed => embed text

/-- `compute_post_rehydration_ocr`. -/
def computePostRehydrationOcr : Option TextMlWrite :=
  if !mimeType.startsWith "image/" || !F.shouldRunOcr then none
  else
    match F.ocrBridge.bind fun recognizeText => recognizeText plaintext mimeType with
    | none => none
    | some regions =>
        let lines := ocrLines regions
        let combined := trim ("\n".intercalate (lines.map Prod.fst))
        if combined.isEmpty then none else some ⟨combined, lines.findSome? Prod.snd, xlmrEmbedding F combined⟩

/-- `compute_post_rehydration_image_embed`. -/
def computePostRehydrationImageEmbed : Option Bytes :=
  if !mimeType.startsWith "image/" then none
  else F.imageEmbedder.bind fun embedImage => embedImage plaintext mimeType

/-- `compute_post_rehydration_transcribe`. -/
def computePostRehydrationTranscribe : Option TextMlWrite :=
  if !mimeType.startsWith "audio/" || !F.shouldRunTranscription then none
  else
    match F.whisperTranscriber.bind fun transcribe => transcribe plaintext mimeType with
    | none => none
    | some result =>
        let transcript := trim result.text
        if transcript.isEmpty then none else some ⟨transcript, result.language, xlmrEmbedding F transcript⟩

/-- `compute_post_rehydration_document`. -/
def computePostRehydrationDocument : Option (List DocumentPageMlWrite) :=
  if !isSupportedDocumentMime mimeType then none
  else
    match F.documentExtractor.bind fun extractText => extractText plaintext mimeType with
    | none => none
    | some pages =>
        let out := (pages.filter fun page => !(trim page.text).isEmpty).map fun page =>
          ⟨⟨trim page.text, page.language, xlmrEmbedding F (trim page.text)⟩, page.pageNumber⟩
        if out.isEmpty then none else some out

/-- `compute_post_rehydration_keyframes`. -/
def computePostRehydrationKeyframes : Option KeyframesMlWrite :=
  if !mimeType.startsWith "video/" then none
  else
    match F.videoKeyframeSampler, F.imageEmbedder with
    | some extractKeyframes, some embedImage =>
        match extractKeyframes plaintext mimeType 5 with
        | none => none
        | some frames =>
            let embed := fun frame : Keyframe => embedImage frame.imageData frame.mimeType
            let out := frames.filterMap fun frame => (embed frame).map fun v => (frame.frameIndex, v)
            let canonical := frames.head?.bind embed
            if out.isEmpty && canonical.isNone then none else some ⟨out, canonical⟩
    | _, _ => none

/-- `run_post_rehydration_ml`. -/
def runPostRehydrationMl : PostRehydrationMlBundle where
  ocr := computePostRehydrationOcr F mimeType plaintext
  imageEmbed := computePostRehydrationImageEmbed F mimeType plaintext
  transcribe := computePostRehydrationTranscribe F mimeType plaintext
  document := computePostRehydrationDocument F mimeType plaintext
  keyframes := computePostRehydrationKeyframes F mimeType plaintext

end Compute

/-! ## Phase 4b: what they read goes into the indexes -/

/-- `cache.get`, and `cache.put` if there was nothing. -/
def putIfAbsent (db : LocalStoreDb) (rowId : IdText) (modelVersion : String) : Option Bytes → LocalStoreDb
  | some v => if db.hasVector rowId modelVersion then db else db.putVector rowId modelVersion v
  | none => db

/-- What is stored for one text. -/
def commitText (F : Platform) (db : LocalStoreDb) (ml : RehydrationMlMeta) (kind stored : String) (rowId : IdText)
    (write : TextMlWrite) : LocalStoreDb :=
  let db := settle (db.insertMediaSearchIndex ⟨ml.assetId, kind, stored, write.language⟩) db
  let db := db.insertFtsRow ⟨rowId, ml.conversationId, ml.senderId, ml.createdAtMs, write.text⟩
  let db := db.indexMessage F.toLowercase rowId write.text
  putIfAbsent db rowId xlmrModelVersion write.xlmrEmbedding

/-- One page of the document. -/
def commitPage (F : Platform) (ml : RehydrationMlMeta) (db : LocalStoreDb) (page : DocumentPageMlWrite) : LocalStoreDb :=
  let formatted := "[page " ++ toString page.pageNumber ++ "] " ++ page.text
  commitText F db ml "caption" formatted (pageRowId ml.messageId page.pageNumber) page.toTextMlWrite

/-- One frame of the video. -/
def commitFrame (ml : RehydrationMlMeta) (db : LocalStoreDb) (frame : Nat × Bytes) : LocalStoreDb :=
  putIfAbsent db ml.messageId.toText (mobileclipS2ModelVersion ++ "_frame_" ++ toString frame.1) (some frame.2)

/-- A part of the bundle that is there. -/
def commitIfAny {α : Type} (write : Option α) (commit : LocalStoreDb → α → LocalStoreDb) (db : LocalStoreDb) :
    LocalStoreDb :=
  match write with
  | some a => commit db a
  | none => db

/-- `commit_post_rehydration_ml`. -/
def commitPostRehydrationMl (F : Platform) (db : LocalStoreDb) (bundle : PostRehydrationMlBundle)
    (ml : RehydrationMlMeta) : LocalStoreDb :=
  let rowId := ml.messageId.toText
  let db := commitIfAny bundle.ocr (fun db w => commitText F db ml "ocr" w.text rowId w) db
  let db := putIfAbsent db rowId mobileclipS2ModelVersion bundle.imageEmbed
  let db := commitIfAny bundle.transcribe (fun db w => commitText F db ml "transcript" w.text rowId w) db
  let db := commitIfAny bundle.document (fun db pages => pages.foldl (commitPage F ml) db) db
  commitIfAny bundle.keyframes (fun db kf => putIfAbsent (kf.frames.foldl (commitFrame ml) db) rowId
    mobileclipS2ModelVersion kf.canonicalFirstEmbedding) db

/-- Without a write the last phase changes nothing. -/
theorem commitPostRehydrationMl_nothing {F : Platform} {db : LocalStoreDb} {bundle : PostRehydrationMlBundle}
    {ml : RehydrationMlMeta} (h : bundle.hasAnyWrites = false) : commitPostRehydrationMl F db bundle ml = db := by
  simp only [PostRehydrationMlBundle.hasAnyWrites, Bool.or_eq_false_iff, Option.isSome_eq_false_iff,
    Option.isNone_iff_eq_none] at h
  obtain ⟨⟨⟨⟨hocr, himage⟩, htranscribe⟩, hdocument⟩, hkeyframes⟩ := h
  unfold commitPostRehydrationMl
  rw [hocr, himage, htranscribe, hdocument, hkeyframes]
  rfl

/-! ### What holds of the last phase -/

/-- **A relation between stores that the single writes of the last phase satisfy**: one text, and one vector, under a row
id of the message. -/
structure MlClosure (F : Platform) (ml : RehydrationMlMeta) (R : LocalStoreDb → LocalStoreDb → Prop) : Prop where
  refl : ∀ db, R db db
  trans : ∀ {db db' db''}, R db db' → R db' db'' → R db db''
  text : ∀ db kind stored rowId write, OwnRow ml.messageId rowId → R db (commitText F db ml kind stored rowId write)
  vector : ∀ db rowId modelVersion write, OwnRow ml.messageId rowId → R db (putIfAbsent db rowId modelVersion write)

namespace MlClosure

variable {F : Platform} {ml : RehydrationMlMeta} {R : LocalStoreDb → LocalStoreDb → Prop} (C : MlClosure F ml R)
  {db : LocalStoreDb}

include C

theorem ifAny {α : Type} {commit : LocalStoreDb → α → LocalStoreDb} (write : Option α) (h : ∀ db a, R db (commit db a)) :
    R db (commitIfAny write commit db) := by
  unfold commitIfAny
  cases write with
  | none => exact C.refl db
  | some a => exact h db a

theorem foldl {α : Type} {commit : LocalStoreDb → α → LocalStoreDb} (as : List α) (h : ∀ db a, R db (commit db a)) :
    R db (as.foldl commit db) := by
  induction as generalizing db with
  | nil => exact C.refl db
  | cons a as ih => exact C.trans (h db a) ih

theorem page (page : DocumentPageMlWrite) : R db (commitPage F ml db page) := by
  apply C.text
  exact .inr ⟨page.pageNumber, rfl⟩

theorem frame (frame : Nat × Bytes) : R db (commitFrame ml db frame) := C.vector db _ _ _ (.inl rfl)

theorem keyframes (kf : KeyframesMlWrite) :
    R db (putIfAbsent (kf.frames.foldl (commitFrame ml) db) ml.messageId.toText mobileclipS2ModelVersion
      kf.canonicalFirstEmbedding) := by
  have hframes : R db (kf.frames.foldl (commitFrame ml) db) := C.foldl kf.frames fun db frame => C.frame frame
  exact C.trans hframes (C.vector _ _ _ _ (.inl rfl))

/-- **The whole phase satisfies it.** -/
theorem commit (bundle : PostRehydrationMlBundle) : R db (commitPostRehydrationMl F db bundle ml) := by
  have hown : OwnRow ml.messageId ml.messageId.toText := .inl rfl
  unfold commitPostRehydrationMl
  have hocr : R db _ := C.ifAny bundle.ocr fun db w => C.text db "ocr" w.text _ w hown
  have himage := C.trans hocr (C.vector _ _ mobileclipS2ModelVersion bundle.imageEmbed hown)
  have htranscribe := C.trans himage (C.ifAny bundle.transcribe fun db w => C.text db "transcript" w.text _ w hown)
  have hdocument := C.trans htranscribe
    (C.ifAny bundle.document fun db pages => C.foldl pages fun db page => C.page page)
  exact C.trans hdocument (C.ifAny bundle.keyframes fun db kf => C.keyframes kf)

end MlClosure

/-- What the single writes of a fan-out satisfy, the last phase does. -/
theorem mlClosure_of_rowClosure {F : Platform} {ml : RehydrationMlMeta} {P : FtsRow → Prop}
    {R : LocalStoreDb → LocalStoreDb → Prop} (C : RowClosure ml.messageId P R)
    (hP : ∀ row, OwnRow ml.messageId row.messageId → P row) : MlClosure F ml R := by
  have hvector : ∀ db rowId modelVersion write, OwnRow ml.messageId rowId → R db (putIfAbsent db rowId modelVersion write) := by
    intro db rowId modelVersion write hown
    unfold putIfAbsent
    cases write with
    | none => exact C.refl db
    | some v =>
        by_cases hhit : db.hasVector rowId modelVersion = true
        · simp only [hhit, if_true]
          exact C.refl db
        · simp only [hhit, if_false, Bool.false_eq_true]
          exact C.putVector db rowId modelVersion v hown
  refine ⟨C.refl, C.trans, ?_, hvector⟩
  intro db kind stored rowId write hown
  let row : FtsRow := ⟨rowId, ml.conversationId, ml.senderId, ml.createdAtMs, write.text⟩
  let media := settle (db.insertMediaSearchIndex ⟨ml.assetId, kind, stored, write.language⟩) db
  have hmedia : R db media := C.insertMediaSearchIndex db _
  have hfts : R media (media.insertFtsRow row) := C.insertFtsRow media row (hP row hown)
  have hfuzzy : R (media.insertFtsRow row) ((media.insertFtsRow row).indexMessage F.toLowercase rowId write.text) :=
    C.indexMessage (media.insertFtsRow row) F.toLowercase row (hP row hown)
  exact C.trans (C.trans hmedia hfts) (C.trans hfuzzy (hvector _ _ _ _ hown))

/-- **The last phase writes index rows of the message, and vectors under its row ids.** -/
theorem commitPostRehydrationMl_related {k : Uuid} {P : FtsRow → Prop} {R : LocalStoreDb → LocalStoreDb → Prop}
    (C : RowClosure k P R) (hP : ∀ row, OwnRow k row.messageId → P row) {F : Platform} {db : LocalStoreDb}
    {ml : RehydrationMlMeta} {bundle : PostRehydrationMlBundle} (hk : ml.messageId = k) :
    R db (commitPostRehydrationMl F db bundle ml) := by
  subst hk
  exact (mlClosure_of_rowClosure C hP).commit bundle

/-! ## The whole call -/

/-- Phase 1: the plan, and what the message's skeleton says; `none` without an asset. -/
def readAsset (db : LocalStoreDb) (m : Uuid) : Except Error (Option (RehydrationPlan × Option RehydrationMlMeta)) :=
  match db.getMediaAssetByMessage m with
  | none => .ok none
  | some asset => do
      let plan ← prepareRehydration db asset.assetId
      let mlMeta := (db.skeletons.find? m).map fun skel =>
        ⟨skel.messageId, asset.assetId, skel.senderId, skel.conversationId, skel.createdAtMs, asset.mimeType⟩
      return some (plan, mlMeta)

/-- Phase 4: the bridges, and what they read out. -/
def indexRehydrated (F : Platform) (db : LocalStoreDb) (plaintext : Bytes) (ml : RehydrationMlMeta) : LocalStoreDb :=
  let bundle := runPostRehydrationMl F ml.mimeType plaintext
  if bundle.hasAnyWrites then commitPostRehydrationMl F db bundle ml else db

/-- What a rehydration returns, leaves, and hands to the bridges. -/
structure Rehydrated where
  result : Except Error (Option Bytes)
  db : LocalStoreDb
  bridged : Option Bytes

/-- `rehydrate_media_for_message`. -/
def rehydrateMediaForMessage (F : Platform) (db : LocalStoreDb) (fetch : FetchBlobRange) (m : Uuid)
    (wrappingKey : KeyMaterial) : Rehydrated :=
  match readAsset db m with
  | .error e => ⟨.error e, db, none⟩
  | .ok none => ⟨.ok none, db, none⟩
  | .ok (some (plan, mlMeta)) =>
      match executeRehydrationDownload F.primitives plan fetch wrappingKey with
      | .error e => ⟨.error e, db, none⟩
      | .ok plaintext =>
          match commitRehydration db plan.assetId plan.fromState plaintext.length with
          | .error e => ⟨.error e, db, none⟩
          | .ok db =>
              match mlMeta with
              | none => ⟨.ok (some plaintext), db, none⟩
              | some ml => ⟨.ok (some plaintext), indexRehydrated F db plaintext ml, some plaintext⟩

end KChatCore.Media
