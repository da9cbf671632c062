import KChatCore.Message.Processor

/-!
# `Message.Media` — sending media, and what the bridges read out of it

`sendMedia` stores a message with one asset. Whatever OCR, transcription or document extraction reads out of the bytes
goes into `media_search_index` under the asset, and into the text, fuzzy and vector indexes: under the message id, or,
for a document, under one row id for each page (`pageRowId`). Their failures are absorbed.
-/

namespace KChatCore.Message

open Lib LocalStore

/-- `XLMR_MODEL_VERSION`. -/
def xlmrModelVersion : String := "xlmr@v1"

/-- `MOBILECLIP_S2_MODEL_VERSION`. -/
def mobileclipS2ModelVersion : String := "mobileclip_s2@v1"

/-- `?` on a `DbResult` inside the core: the error as text. -/
def toStorage {α : Type} (r : Except DbError α) : Except Error α := r.mapError fun e => .storageMsg e.display

theorem toStorage_eq_ok {α : Type} {r : Except DbError α} {a : α} : toStorage r = .ok a ↔ r = .ok a := by
  cases r <;> simp [toStorage, Except.mapError]

/-! ## Embeddings -/

/-- Put a vector under a key that has none, if the inference succeeds. -/
def embedOnce (db : LocalStoreDb) (rowId : IdText) (modelVersion : String) (infer : Unit → Option Bytes) : LocalStoreDb :=
  if db.hasVector rowId modelVersion then db
  else
    match infer () with
    | some embedding => db.putVector rowId modelVersion embedding
    | none => db

/-- `maybe_embed_text_message`. -/
def maybeEmbedTextMessage (F : Platform) (db : LocalStoreDb) (msg : IngestedMessage) : LocalStoreDb :=
  match msg.textContent, F.textEmbedder with
  | some text, some embed => embedOnce db msg.messageId.toText xlmrModelVersion fun _ => embed text
  | _, _ => db

/-- `maybe_embed_image_message`. -/
def maybeEmbedImageMessage (F : Platform) (db : LocalStoreDb) (m : Uuid) (mimeType : String) (plaintext : Bytes) :
    LocalStoreDb :=
  if !mimeType.startsWith "image/" then db
  else
    match F.imageEmbedder with
    | some embedImage => embedOnce db m.toText mobileclipS2ModelVersion fun _ => embedImage plaintext mimeType
    | none => db

/-! ## Extracted text -/

/-- The row id of a page: `{message_id}#page{n}`. -/
def pageRowId (m : Uuid) (pageNumber : Nat) : IdText := .malformed (m.hyphenated ++ "#page" ++ toString pageNumber)

@[simp] theorem pageRowId_ne_toText (m m' : Uuid) (n : Nat) : pageRowId m n ≠ m'.toText := by
  simp [pageRowId, Uuid.toText]

/-- What every extractor does with a text: the media index under the asset, then the three indexes under a row id. -/
def fanOutText (F : Platform) (db : LocalStoreDb) (skel : MessageSkeleton) (row : MediaSearchRow) (rowId : IdText)
    (text : String) : LocalStoreDb :=
  let db := settle (db.insertMediaSearchIndex row) db
  let db := db.insertFtsRow ⟨rowId, skel.conversationId, skel.senderId, skel.createdAtMs, text⟩
  let db := db.indexMessage F.toLowercase rowId text
  match F.textEmbedder with
  | some embed => embedOnce db rowId xlmrModelVersion fun _ => embed text
  | none => db

/-- The regions of an image that hold text, trimmed. -/
def ocrLines (regions : List OcrResult) : List (String × Option String) :=
  (regions.map fun r => (trim r.text, r.language)).filter fun r => !r.1.isEmpty

/-- `maybe_run_ocr_on_image_message`. -/
def maybeRunOcrOnImageMessage (F : Platform) (db : LocalStoreDb) (skel : MessageSkeleton) (assetId : Uuid)
    (mimeType : String) (plaintext : Bytes) : LocalStoreDb :=
  if !mimeType.startsWith "image/" || !F.shouldRunOcr then db
  else
    match F.ocrBridge.bind fun recognizeText => recognizeText plaintext mimeType with
    | none => db
    | some regions =>
        let lines := ocrLines regions
        let combined := trim ("\n".intercalate (lines.map Prod.fst))
        if combined.isEmpty then db
        else fanOutText F db skel ⟨assetId, "ocr", combined, lines.findSome? Prod.snd⟩ skel.messageId.toText combined

/-- `maybe_transcribe_audio_message`. -/
def maybeTranscribeAudioMessage (F : Platform) (db : LocalStoreDb) (skel : MessageSkeleton) (assetId : Uuid)
    (mimeType : String) (plaintext : Bytes) : LocalStoreDb :=
  if !mimeType.startsWith "audio/" || !F.shouldRunTranscription then db
  else
    match F.whisperTranscriber.bind fun transcribe => transcribe plaintext mimeType with
    | none => db
    | some result =>
        let transcript := trim result.text
        if transcript.isEmpty then db
        else fanOutText F db skel ⟨assetId, "transcript", transcript, result.language⟩ skel.messageId.toText transcript

/-- `is_supported_document_mime`. -/
def isSupportedDocumentMime (mimeType : String) : Bool :=
  mimeType = "application/pdf" ||
    mimeType = "application/vnd.openxmlformats-officedocument.wordprocessingml.document"

/-- One page of `maybe_extract_document_pages`. -/
def indexPage (F : Platform) (skel : MessageSkeleton) (assetId : Uuid) (db : LocalStoreDb) (page : DocumentPage) :
    LocalStoreDb :=
  let trimmed := trim page.text
  if trimmed.isEmpty then db
  else
    let formatted := "[page " ++ toString page.pageNumber ++ "] " ++ trimmed
    fanOutText F db skel ⟨assetId, "caption", formatted, page.language⟩ (pageRowId skel.messageId page.pageNumber) trimmed

/-- `maybe_extract_document_pages`. -/
def maybeExtractDocumentPages (F : Platform) (db : LocalStoreDb) (skel : MessageSkeleton) (assetId : Uuid)
    (mimeType : String) (plaintext : Bytes) : LocalStoreDb :=
  if !isSupportedDocumentMime mimeType then db
  else
    match F.documentExtractor.bind fun extractText => extractText plaintext mimeType with
    | none => db
    | some pages => pages.foldl (indexPage F skel assetId) db

/-- One frame of `maybe_embed_video_keyframes`; the first one is also put under the plain model version. -/
def embedFrame (embedImage : Bytes → String → Option Bytes) (m : Uuid) (db : LocalStoreDb) (frame : Keyframe × Nat) :
    LocalStoreDb :=
  let suffixKey := mobileclipS2ModelVersion ++ "_frame_" ++ toString frame.1.frameIndex
  if db.hasVector m.toText suffixKey then db
  else
    match embedImage frame.1.imageData frame.1.mimeType with
    | none => db
    | some embedding =>
        let db := db.putVector m.toText suffixKey embedding
        if frame.2 = 0 then embedOnce db m.toText mobileclipS2ModelVersion fun _ => some embedding else db

/-- `maybe_embed_video_keyframes`. -/
def maybeEmbedVideoKeyframes (F : Platform) (db : LocalStoreDb) (m : Uuid) (mimeType : String) (plaintext : Bytes) :
    LocalStoreDb :=
  if !mimeType.startsWith "video/" then db
  else
    match F.videoKeyframeSampler, F.imageEmbedder with
    | some extractKeyframes, some embedImage =>
        match extractKeyframes plaintext mimeType 5 with
        | some frames => frames.zipIdx.foldl (embedFrame embedImage m) db
        | none => db
    | _, _ => db

/-- The five fan-outs of `send_media`, in its order. -/
def extractMedia (F : Platform) (db : LocalStoreDb) (skel : MessageSkeleton) (assetId : Uuid) (mimeType : String)
    (plaintext : Bytes) : LocalStoreDb :=
  let db := maybeEmbedImageMessage F db skel.messageId mimeType plaintext
  let db := maybeRunOcrOnImageMessage F db skel assetId mimeType plaintext
  let db := maybeTranscribeAudioMessage F db skel assetId mimeType plaintext
  let db := maybeExtractDocumentPages F db skel assetId mimeType plaintext
  maybeEmbedVideoKeyframes F db skel.messageId mimeType plaintext

/-! ## Sending -/

/-- What a caller hands to `send_media`. -/
structure MediaSend where
  conversationId : Uuid
  messageId : Uuid
  plaintext : Bytes
  mimeType : String
  caption : Option String
deriving DecidableEq

/-- The skeleton of a message that is sent as media. -/
def MediaSend.skeleton (send : MediaSend) (now : Int) : MessageSkeleton where
  messageId := send.messageId
  conversationId := send.conversationId
  senderId := "self"
  createdAtMs := now
  receivedAtMs := now
  kind := .media
  bodyState := .localPlainAvailable
  mediaState := some .thumbnailOnly
  archiveState := .notArchived
  backupState := .notBackedUp
  replyTo := none
  editedAtMs := none
  deletedAtMs := none

/-- The savepoint of `send_media`. -/
def sendMediaInner (F : Platform) (db : LocalStoreDb) (send : MediaSend) (descriptor : MediaDescriptor) (now : Int) :
    Except Error LocalStoreDb := do
  let skel := send.skeleton now
  let db ← toStorage (db.insertMessageSkeleton skel)
  let db ← toStorage (insertTextIfAny F db skel send.caption)
  let asset := { descriptor.asset skel.messageId (wrapI64 descriptor.bytesTotal) with mimeType := send.mimeType }
  let db ← toStorage (db.insertMediaAsset asset)
  let db := extractMedia F db skel asset.assetId send.mimeType send.plaintext
  let db := db.updateConversationLastMessage skel.conversationId skel.messageId skel.createdAtMs
  let payload := encodeEventPayload skel.messageId skel.conversationId skel.senderId skel.createdAtMs
  let db := db.insertBackupEvent "outbox_pending" skel.conversationId skel.messageId payload skel.createdAtMs
  return db.writeArchiveEvent ⟨.mediaReceived, send.conversationId, some send.messageId, payload, skel.createdAtMs⟩

/-- `send_media`; `processed` is what `process_media` makes of the bytes: chunks sealed under a fresh key. -/
def sendMedia (F : Platform) (db : LocalStoreDb) (send : MediaSend) (processed : Except Error MediaDescriptor) (now : Int) :
    Except Error LocalStoreDb :=
  if send.plaintext.isEmpty then .error (.message (.custom "send_media: plaintext must not be empty"))
  else if send.mimeType.isEmpty then .error (.message (.custom "send_media: mime_type must not be empty"))
  else do
    let descriptor ← processed
    sendMediaInner F db send descriptor now

end KChatCore.Message
