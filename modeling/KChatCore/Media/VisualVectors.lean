import KChatCore.Media.Rehydration
import KChatCore.Message.Effects

/-!
# `Media.VisualVectors` — the vectors of images and frames

A send and a rehydration both embed an image under the plain model version, and the frames of a video each under a key of
its own, the first one of all under the plain version too. Neither replaces a vector that is there. A send passes over the
first frame altogether where its own key is taken; a rehydration does not.

* `hasVector_sendMedia` — which vectors of this kind a message has after its send.
* `hasVector_commit` — and which ones a rehydration sees to.
-/

namespace KChatCore.Media

open Lib LocalStore Message

/-! ## Keys that have a vector -/

section HasVector

variable {db : LocalStoreDb} {rowId rowId' : IdText} {version version' : String}

theorem hasVector_putVector (embedding : Bytes) :
    (db.putVector rowId version embedding).hasVector rowId' version' = true ↔
      db.hasVector rowId' version' = true ∨ (rowId' = rowId ∧ version' = version) := by
  unfold LocalStoreDb.hasVector LocalStoreDb.putVector
  simp only
  rw [Table.has, Table.find?_insertOrIgnore, ← Table.has_update db.vectors (fun r => r.key = (rowId, version))
    (fun r => { r with embedding := embedding }) (fun _ => rfl), Table.has]
  by_cases hkey : VectorRow.key ⟨rowId, embedding, version⟩ = (rowId', version')
  · obtain ⟨rfl, rfl⟩ := Prod.mk.inj hkey
    simp [VectorRow.key]
  · have hother : ¬ (rowId' = rowId ∧ version' = version) := by
      rintro ⟨rfl, rfl⟩
      exact hkey rfl
    rw [if_neg hkey]
    simp [hother]

theorem hasVector_embedOnce (infer : Unit → Option Bytes) :
    (embedOnce db rowId version infer).hasVector rowId' version' = true ↔
      db.hasVector rowId' version' = true ∨ (rowId' = rowId ∧ version' = version ∧ (infer ()).isSome = true) := by
  unfold embedOnce
  by_cases hhit : db.hasVector rowId version = true
  · rw [if_pos hhit]
    constructor
    · exact .inl
    · rintro (h | ⟨rfl, rfl, -⟩)
      · exact h
      · exact hhit
  · rw [if_neg hhit]
    cases infer () with
    | none => simp
    | some embedding => simp [hasVector_putVector]

theorem hasVector_putIfAbsent (write : Option Bytes) :
    (putIfAbsent db rowId version write).hasVector rowId' version' = true ↔
      db.hasVector rowId' version' = true ∨ (rowId' = rowId ∧ version' = version ∧ write.isSome = true) := by
  cases write with
  | none => simp [putIfAbsent]
  | some v => exact hasVector_embedOnce fun _ => some v

/-- Nothing is put under a key that is taken. -/
theorem putIfAbsent_of_has {write : Option Bytes} (h : write.isSome = true → db.hasVector rowId version = true) :
    putIfAbsent db rowId version write = db := by
  cases write with
  | none => rfl
  | some v => exact if_pos (h rfl)

theorem vectors_insertMediaSearchIndex (row : MediaSearchRow) :
    (settle (db.insertMediaSearchIndex row) db).vectors = db.vectors := by
  unfold LocalStoreDb.insertMediaSearchIndex
  by_cases hasset : db.assets.has row.assetId = true
  · rw [dif_pos hasset]
    rfl
  · rw [dif_neg hasset]
    by_cases hkey : db.mediaSearch.has row.key = true
    · rw [if_pos hkey]
      rfl
    · rw [if_neg hkey]
      rfl

end HasVector

/-! ## The keys -/

/-- `{MOBILECLIP_S2_MODEL_VERSION}_frame_{frame_index}`. -/
def frameKey (frameIndex : Nat) : String := mobileclipS2ModelVersion ++ "_frame_" ++ toString frameIndex

theorem frameKey_ne (n : Nat) : frameKey n ≠ mobileclipS2ModelVersion := by
  intro h
  have hlength := congrArg String.length h
  have hmark : "_frame_".length = 7 := by decide
  simp only [frameKey, String.length_append] at hlength
  omega

theorem frameKey_ne_xlmr (n : Nat) : frameKey n ≠ xlmrModelVersion := by
  intro h
  have hlength := congrArg String.length h
  have hlong : mobileclipS2ModelVersion.length = 16 := by decide
  have hshort : xlmrModelVersion.length = 7 := by decide
  simp only [frameKey, String.length_append] at hlength
  omega

section Keys

variable (F : Platform) (mimeType : String) (plaintext : Bytes)

/-- Whether the bytes are an image that the embedder makes a vector of. -/
def imageEmbeds : Bool :=
  mimeType.startsWith "image/" && (F.imageEmbedder.bind fun embedImage => embedImage plaintext mimeType).isSome

/-- Whether the embedder makes a vector of a frame. -/
def frameEmbeds (frame : Keyframe) : Bool :=
  (F.imageEmbedder.bind fun embedImage => embedImage frame.imageData frame.mimeType).isSome

/-- The frames that are sampled from a video. -/
def sampledFrames : List Keyframe :=
  if !mimeType.startsWith "video/" then []
  else (F.videoKeyframeSampler.bind fun extractKeyframes => extractKeyframes plaintext mimeType 5).getD []

/-- **The keys under which the pixels of a media leave a vector**; `seen` are the keys for which the first frame is
passed over. -/
def visualKeys (seen : String → Bool) : List String :=
  (if imageEmbeds F mimeType plaintext then [mobileclipS2ModelVersion] else []) ++
    ((sampledFrames F mimeType plaintext).filter (frameEmbeds F)).map (fun frame => frameKey frame.frameIndex) ++
    if (sampledFrames F mimeType plaintext).head?.any fun frame => frameEmbeds F frame && !seen (frameKey frame.frameIndex)
    then [mobileclipS2ModelVersion] else []

variable {F mimeType plaintext} {seen : String → Bool} {key : String}

theorem mem_visualKeys : key ∈ visualKeys F mimeType plaintext seen ↔
    (key = mobileclipS2ModelVersion ∧ imageEmbeds F mimeType plaintext = true) ∨
      (∃ frame ∈ sampledFrames F mimeType plaintext, frameEmbeds F frame = true ∧ key = frameKey frame.frameIndex) ∨
      (key = mobileclipS2ModelVersion ∧ ∃ frame, (sampledFrames F mimeType plaintext).head? = some frame ∧
        frameEmbeds F frame = true ∧ seen (frameKey frame.frameIndex) = false) := by
  unfold visualKeys
  simp only [List.mem_append, List.mem_ite_nil_right, List.mem_singleton, List.mem_map, List.mem_filter,
    Option.any_eq_true, Bool.and_eq_true, Bool.not_eq_true', or_assoc]
  constructor
  · rintro (⟨himage, rfl⟩ | ⟨frame, ⟨hframe, hembeds⟩, rfl⟩ | ⟨⟨frame, hfirst, hembeds⟩, rfl⟩)
    · exact .inl ⟨rfl, himage⟩
    · exact .inr (.inl ⟨frame, hframe, hembeds, rfl⟩)
    · exact .inr (.inr ⟨rfl, frame, hfirst, hembeds⟩)
  · rintro (⟨rfl, himage⟩ | ⟨frame, hframe, hembeds, rfl⟩ | ⟨rfl, frame, hfirst, hembeds⟩)
    · exact .inl ⟨himage, rfl⟩
    · exact .inr (.inl ⟨frame, ⟨hframe, hembeds⟩, rfl⟩)
    · exact .inr (.inr ⟨⟨frame, hfirst, hembeds⟩, rfl⟩)

/-- No text is embedded under such a key. -/
theorem ne_xlmr_of_mem_visualKeys (h : key ∈ visualKeys F mimeType plaintext seen) : key ≠ xlmrModelVersion := by
  have hplain : mobileclipS2ModelVersion ≠ xlmrModelVersion := by decide
  rcases mem_visualKeys.mp h with ⟨rfl, -⟩ | ⟨frame, -, -, rfl⟩ | ⟨rfl, -⟩
  · exact hplain
  · exact frameKey_ne_xlmr frame.frameIndex
  · exact hplain

end Keys

/-! ## What a send leaves -/

section Send

variable {F : Platform} {db db' : LocalStoreDb} {skel : MessageSkeleton} {assetId m : Uuid} {mimeType : String}
  {plaintext : Bytes} {rowId : IdText} {version : String}

/-! ### Texts are embedded under a version of their own -/

theorem hasVector_fanOutText (h : version ≠ xlmrModelVersion) {row : MediaSearchRow} {rowId' : IdText} {text : String} :
    (fanOutText F db skel row rowId' text).hasVector rowId version = db.hasVector rowId version := by
  have hstored : (settle (db.insertMediaSearchIndex row) db).hasVector rowId version = db.hasVector rowId version := by
    unfold LocalStoreDb.hasVector
    rw [vectors_insertMediaSearchIndex]
  unfold fanOutText
  cases F.textEmbedder with
  | none => exact hstored
  | some embed =>
      rw [Bool.eq_iff_iff]
      simp only [hasVector_embedOnce, h, false_and, and_false, or_false]
      rw [← hstored]
      rfl

theorem hasVector_maybeRunOcr (h : version ≠ xlmrModelVersion) :
    (maybeRunOcrOnImageMessage F db skel assetId mimeType plaintext).hasVector rowId version = db.hasVector rowId version := by
  unfold maybeRunOcrOnImageMessage
  by_cases hskip : (!mimeType.startsWith "image/" || !F.shouldRunOcr) = true
  · rw [if_pos hskip]
  · rw [if_neg hskip]
    cases F.ocrBridge.bind fun recognizeText => recognizeText plaintext mimeType with
    | none => rfl
    | some regions =>
        simp only
        split_ifs
        · rfl
        · exact hasVector_fanOutText h

theorem hasVector_maybeTranscribe (h : version ≠ xlmrModelVersion) :
    (maybeTranscribeAudioMessage F db skel assetId mimeType plaintext).hasVector rowId version =
      db.hasVector rowId version := by
  unfold maybeTranscribeAudioMessage
  by_cases hskip : (!mimeType.startsWith "audio/" || !F.shouldRunTranscription) = true
  · rw [if_pos hskip]
  · rw [if_neg hskip]
    cases F.whisperTranscriber.bind fun transcribe => transcribe plaintext mimeType with
    | none => rfl
    | some result =>
        simp only
        split_ifs
        · rfl
        · exact hasVector_fanOutText h

theorem hasVector_indexPages (h : version ≠ xlmrModelVersion) (pages : List DocumentPage) :
    (pages.foldl (indexPage F skel assetId) db).hasVector rowId version = db.hasVector rowId version := by
  induction pages generalizing db with
  | nil => rfl
  | cons page pages ih =>
      rw [List.foldl_cons, ih]
      unfold indexPage
      simp only
      split_ifs
      · rfl
      · exact hasVector_fanOutText h

theorem hasVector_maybeExtractPages (h : version ≠ xlmrModelVersion) :
    (maybeExtractDocumentPages F db skel assetId mimeType plaintext).hasVector rowId version =
      db.hasVector rowId version := by
  unfold maybeExtractDocumentPages
  by_cases hmime : (!isSupportedDocumentMime mimeType) = true
  · rw [if_pos hmime]
  · rw [if_neg hmime]
    cases F.documentExtractor.bind fun extractText => extractText plaintext mimeType with
    | none => rfl
    | some pages => exact hasVector_indexPages h pages

/-! ### The image, and the frames -/

theorem hasVector_maybeEmbedImage : (maybeEmbedImageMessage F db m mimeType plaintext).hasVector m.toText version = true ↔
    db.hasVector m.toText version = true ∨
      (version = mobileclipS2ModelVersion ∧ imageEmbeds F mimeType plaintext = true) := by
  unfold maybeEmbedImageMessage imageEmbeds
  by_cases hmime : mimeType.startsWith "image/" = true
  · rw [hmime]
    cases F.imageEmbedder with
    | none => simp
    | some embedImage => simp [hasVector_embedOnce]
  · simp [hmime]

/-- One frame; the first one is passed over altogether where its key is taken. -/
theorem hasVector_embedFrame {embedImage : Bytes → String → Option Bytes} {frame : Keyframe} {i : Nat} :
    (embedFrame embedImage m db (frame, i)).hasVector m.toText version = true ↔
      db.hasVector m.toText version = true ∨
        ((embedImage frame.imageData frame.mimeType).isSome = true ∧ version = frameKey frame.frameIndex) ∨
        (i = 0 ∧ version = mobileclipS2ModelVersion ∧ (embedImage frame.imageData frame.mimeType).isSome = true ∧
          db.hasVector m.toText (frameKey frame.frameIndex) = false) := by
  unfold embedFrame
  by_cases hhit : db.hasVector m.toText (frameKey frame.frameIndex) = true
  · have hskip : db.hasVector m.toText (mobileclipS2ModelVersion ++ "_frame_" ++ toString frame.frameIndex) = true := hhit
    simp only [hskip, if_true]
    constructor
    · exact .inl
    · rintro (h | ⟨-, rfl⟩ | ⟨-, -, -, hfree⟩)
      · exact h
      · exact hhit
      · exact absurd (hhit.symm.trans hfree) (by decide)
  · have hfree : db.hasVector m.toText (mobileclipS2ModelVersion ++ "_frame_" ++ toString frame.frameIndex) = false :=
      Bool.eq_false_iff.mpr hhit
    have hfree' : db.hasVector m.toText (frameKey frame.frameIndex) = false := hfree
    simp only [hfree, hfree', Bool.false_eq_true, if_false]
    cases embedImage frame.imageData frame.mimeType with
    | none => simp
    | some embedding =>
        by_cases hfirst : i = 0
        · simp [hfirst, hasVector_embedOnce, hasVector_putVector, frameKey, or_assoc]
        · simp [hfirst, hasVector_putVector, frameKey]

/-- The frames after the first one. -/
theorem hasVector_embedLaterFrames {embedImage : Bytes → String → Option Bytes} (frames : List Keyframe) (n : Nat) :
    ((frames.zipIdx (n + 1)).foldl (embedFrame embedImage m) db).hasVector m.toText version = true ↔
      db.hasVector m.toText version = true ∨
        ∃ frame ∈ frames, (embedImage frame.imageData frame.mimeType).isSome = true ∧ version = frameKey frame.frameIndex := by
  induction frames generalizing db n with
  | nil => simp
  | cons frame frames ih =>
      rw [List.zipIdx_cons, List.foldl_cons, ih (n + 1), hasVector_embedFrame]
      simp only [Nat.succ_ne_zero, false_and, or_false, List.mem_cons, exists_eq_or_imp, or_assoc]

/-- **All frames of a video**: the plain version comes with the first one. -/
theorem hasVector_embedFrames {embedImage : Bytes → String → Option Bytes} (frames : List Keyframe) :
    (frames.zipIdx.foldl (embedFrame embedImage m) db).hasVector m.toText version = true ↔
      db.hasVector m.toText version = true ∨
        (∃ frame ∈ frames, (embedImage frame.imageData frame.mimeType).isSome = true ∧
          version = frameKey frame.frameIndex) ∨
        (version = mobileclipS2ModelVersion ∧ ∃ frame, frames.head? = some frame ∧
          (embedImage frame.imageData frame.mimeType).isSome = true ∧
          db.hasVector m.toText (frameKey frame.frameIndex) = false) := by
  cases frames with
  | nil => simp
  | cons frame frames =>
      rw [List.zipIdx_cons, List.foldl_cons, hasVector_embedLaterFrames frames 0, hasVector_embedFrame]
      simp only [true_and, List.mem_cons, exists_eq_or_imp, List.head?_cons, Option.some.injEq, exists_eq_left']
      rw [or_assoc]
      exact or_congr_right or_right_comm

theorem hasVector_maybeEmbedFrames : (maybeEmbedVideoKeyframes F db m mimeType plaintext).hasVector m.toText version = true ↔
    db.hasVector m.toText version = true ∨
      (∃ frame ∈ sampledFrames F mimeType plaintext, frameEmbeds F frame = true ∧ version = frameKey frame.frameIndex) ∨
      (version = mobileclipS2ModelVersion ∧ ∃ frame, (sampledFrames F mimeType plaintext).head? = some frame ∧
        frameEmbeds F frame = true ∧ db.hasVector m.toText (frameKey frame.frameIndex) = false) := by
  unfold maybeEmbedVideoKeyframes sampledFrames frameEmbeds
  by_cases hmime : mimeType.startsWith "video/" = true
  · rw [hmime]
    cases F.imageEmbedder with
    | none =>
        cases F.videoKeyframeSampler with
        | none => simp
        | some extractKeyframes => simp
    | some embedImage =>
        cases F.videoKeyframeSampler with
        | none => simp
        | some extractKeyframes =>
            cases hframes : extractKeyframes plaintext mimeType 5 with
            | none => simp [hframes]
            | some frames => simpa [hframes] using hasVector_embedFrames frames
  · simp [hmime]

/-- **The vectors of images and frames after an extraction.** -/
theorem hasVector_extractMedia (h : version ≠ xlmrModelVersion) :
    (extractMedia F db skel assetId mimeType plaintext).hasVector skel.messageId.toText version = true ↔
      db.hasVector skel.messageId.toText version = true ∨
        version ∈ visualKeys F mimeType plaintext (db.hasVector skel.messageId.toText) := by
  -- what is there when the frames come: the image's key is none of theirs
  have hseen : ∀ n, (maybeEmbedImageMessage F db skel.messageId mimeType plaintext).hasVector skel.messageId.toText
      (frameKey n) = db.hasVector skel.messageId.toText (frameKey n) := by
    intro n
    rw [Bool.eq_iff_iff, hasVector_maybeEmbedImage]
    simp only [frameKey_ne, false_and, or_false]
  unfold extractMedia
  simp only [hasVector_maybeEmbedFrames, hasVector_maybeExtractPages h, hasVector_maybeTranscribe h,
    hasVector_maybeRunOcr h, hasVector_maybeExtractPages (frameKey_ne_xlmr _), hasVector_maybeTranscribe (frameKey_ne_xlmr _),
    hasVector_maybeRunOcr (frameKey_ne_xlmr _), hseen, hasVector_maybeEmbedImage, mem_visualKeys, or_assoc]

theorem insertTextIfAny_vectors {text : Option String} (h : insertTextIfAny F db skel text = .ok db') :
    db'.vectors = db.vectors := by
  cases text with
  | none => rw [← Except.ok.inj h]
  | some t =>
      obtain ⟨db₁, hbody, hrest⟩ := except_bind_eq_ok.mp h
      obtain ⟨_, _, rfl⟩ := LocalStoreDb.insertMessageBody_eq_ok.mp hbody
      rw [← Except.ok.inj hrest]
      rfl

/-- **The vectors of images and frames after a send.** -/
theorem hasVector_sendMedia {send : MediaSend} {processed : Except Error MediaDescriptor} {now : Int}
    (h : sendMedia F db send processed now = .ok db') (hversion : version ≠ xlmrModelVersion) :
    db'.hasVector send.messageId.toText version = true ↔
      db.hasVector send.messageId.toText version = true ∨
        version ∈ visualKeys F send.mimeType send.plaintext (db.hasVector send.messageId.toText) := by
  obtain ⟨descriptor, hfree, hconv, db₂, db₃, -, htext, hasset, rfl⟩ := sendMedia_parts h
  obtain ⟨hassetFree, hskel, rfl⟩ := LocalStoreDb.insertMediaAsset_eq_ok.mp hasset
  have hvectors : db₂.vectors = (db.addSkeleton (send.skeleton now) hfree hconv).vectors := insertTextIfAny_vectors htext
  have hbefore : (db₂.addAsset (send.asset descriptor) hassetFree hskel).hasVector = db.hasVector := by
    funext rowId version
    show Table.has db₂.vectors _ = _
    rw [hvectors]
    rfl
  have hspec : (extractMedia F (db₂.addAsset (send.asset descriptor) hassetFree hskel) (send.skeleton now) descriptor.assetId
      send.mimeType send.plaintext).hasVector (send.skeleton now).messageId.toText version = true ↔ _ :=
    hasVector_extractMedia hversion
  rw [← hbefore]
  exact hspec

end Send

/-! ## What a rehydration sees to -/

section Commit

variable {F : Platform} {db : LocalStoreDb} {ml : RehydrationMlMeta} {mimeType : String} {plaintext : Bytes}
  {rowId : IdText} {version : String}

theorem imageEmbed_isSome : (computePostRehydrationImageEmbed F mimeType plaintext).isSome = imageEmbeds F mimeType plaintext := by
  unfold computePostRehydrationImageEmbed imageEmbeds
  by_cases hmime : mimeType.startsWith "image/" = true
  · simp [hmime]
  · simp [hmime]

/-- What a rehydration makes of the frames. -/
def FramesOf (F : Platform) (frames : List Keyframe) (kf : KeyframesMlWrite) : Prop :=
  kf.frames.map Prod.fst = (frames.filter (frameEmbeds F)).map Keyframe.frameIndex ∧
    kf.canonicalFirstEmbedding.isSome = frames.head?.any (frameEmbeds F)

theorem framesOf_filterMap {embedImage : Bytes → String → Option Bytes} (hembed : F.imageEmbedder = some embedImage)
    (frames : List Keyframe) :
    FramesOf F frames ⟨frames.filterMap fun frame =>
        (embedImage frame.imageData frame.mimeType).map fun v => (frame.frameIndex, v),
      frames.head?.bind fun frame => embedImage frame.imageData frame.mimeType⟩ := by
  have hembeds : ∀ frame, frameEmbeds F frame = (embedImage frame.imageData frame.mimeType).isSome := by
    intro frame
    unfold frameEmbeds
    rw [hembed, Option.bind_some]
  constructor
  · simp only
    induction frames with
    | nil => rfl
    | cons frame frames ih =>
        cases hframe : embedImage frame.imageData frame.mimeType with
        | none => simp [hframe, hembeds, ih]
        | some v => simp [hframe, hembeds, ih]
  · cases frames with
    | nil => rfl
    | cons frame frames => simp [hembeds]

/-- **The frames that a rehydration embeds**; there is nothing to write where none of them is. -/
theorem keyframes_spec (F : Platform) (mimeType : String) (plaintext : Bytes) :
    (computePostRehydrationKeyframes F mimeType plaintext = none ∧
      ∀ frame ∈ sampledFrames F mimeType plaintext, frameEmbeds F frame = false) ∨
    ∃ kf, computePostRehydrationKeyframes F mimeType plaintext = some kf ∧ FramesOf F (sampledFrames F mimeType plaintext) kf := by
  unfold computePostRehydrationKeyframes sampledFrames
  by_cases hmime : mimeType.startsWith "video/" = true
  · rw [hmime]
    cases hembed : F.imageEmbedder with
    | none =>
        refine .inl ⟨by cases F.videoKeyframeSampler <;> simp, fun frame _ => ?_⟩
        unfold frameEmbeds
        rw [hembed]
        rfl
    | some embedImage =>
        cases F.videoKeyframeSampler with
        | none => exact .inl ⟨by simp, by simp⟩
        | some extractKeyframes =>
            cases hframes : extractKeyframes plaintext mimeType 5 with
            | none => exact .inl ⟨by simp [hframes], by simp [hframes]⟩
            | some frames =>
                simp only [Bool.not_true, Bool.false_eq_true, if_false, Option.bind_some, hframes, Option.getD_some]
                have hof := framesOf_filterMap hembed frames
                split_ifs with hempty
                · refine .inl ⟨rfl, fun frame hframe => ?_⟩
                  rw [Bool.and_eq_true, List.isEmpty_iff] at hempty
                  have hnil := hof.1
                  simp only [hempty.1, List.map_nil] at hnil
                  have hnone := List.map_eq_nil_iff.mp hnil.symm
                  exact Bool.eq_false_iff.mpr (List.filter_eq_nil_iff.mp hnone frame hframe)
                · exact .inr ⟨_, rfl, hof⟩
  · simp [hmime]

theorem hasVector_commitText (h : version ≠ xlmrModelVersion) {kind stored : String} {rowId' : IdText} {write : TextMlWrite} :
    (commitText F db ml kind stored rowId' write).hasVector rowId version = db.hasVector rowId version := by
  have hstored : (settle (db.insertMediaSearchIndex ⟨ml.assetId, kind, stored, write.language⟩) db).hasVector rowId version =
      db.hasVector rowId version := by
    unfold LocalStoreDb.hasVector
    rw [vectors_insertMediaSearchIndex]
  unfold commitText
  rw [Bool.eq_iff_iff]
  simp only [hasVector_putIfAbsent, h, false_and, and_false, or_false]
  rw [← hstored]
  rfl

theorem hasVector_commitPages (h : version ≠ xlmrModelVersion) (pages : List DocumentPageMlWrite) :
    (pages.foldl (commitPage F ml) db).hasVector rowId version = db.hasVector rowId version := by
  induction pages generalizing db with
  | nil => rfl
  | cons page pages ih =>
      rw [List.foldl_cons, ih]
      exact hasVector_commitText h

theorem hasVector_commitFrames (frames : List (Nat × Bytes)) :
    (frames.foldl (commitFrame ml) db).hasVector ml.messageId.toText version = true ↔
      db.hasVector ml.messageId.toText version = true ∨ ∃ n ∈ frames.map Prod.fst, version = frameKey n := by
  induction frames generalizing db with
  | nil => simp
  | cons frame frames ih =>
      rw [List.foldl_cons, ih]
      unfold commitFrame
      rw [hasVector_putIfAbsent]
      simp only [true_and, Option.isSome_some, and_true, List.map_cons, List.mem_cons, exists_eq_or_imp, frameKey, or_assoc]

theorem hasVector_commitKeyframes :
    (commitIfAny (computePostRehydrationKeyframes F mimeType plaintext) (fun db kf => putIfAbsent
      (kf.frames.foldl (commitFrame ml) db) ml.messageId.toText mobileclipS2ModelVersion kf.canonicalFirstEmbedding)
      db).hasVector ml.messageId.toText version = true ↔
    db.hasVector ml.messageId.toText version = true ∨
      (∃ frame ∈ sampledFrames F mimeType plaintext, frameEmbeds F frame = true ∧ version = frameKey frame.frameIndex) ∨
      (version = mobileclipS2ModelVersion ∧ ∃ frame, (sampledFrames F mimeType plaintext).head? = some frame ∧
        frameEmbeds F frame = true) := by
  rcases keyframes_spec F mimeType plaintext with ⟨hnone, hunread⟩ | ⟨kf, hsome, hof⟩
  · rw [hnone]
    constructor
    · exact .inl
    · rintro (h | ⟨frame, hframe, hembeds, -⟩ | ⟨-, frame, hfirst, hembeds⟩)
      · exact h
      · exact absurd (hembeds.symm.trans (hunread frame hframe)) (by decide)
      · exact absurd (hembeds.symm.trans (hunread frame (List.mem_of_mem_head? hfirst))) (by decide)
  · rw [hsome]
    unfold commitIfAny
    simp only [hasVector_putIfAbsent, hasVector_commitFrames, hof.1, hof.2, true_and, List.mem_map, List.mem_filter,
      Option.any_eq_true, or_assoc]
    refine or_congr_right (or_congr ?_ Iff.rfl)
    constructor
    · rintro ⟨n, ⟨frame, ⟨hframe, hembeds⟩, rfl⟩, rfl⟩
      exact ⟨frame, hframe, hembeds, rfl⟩
    · rintro ⟨frame, hframe, hembeds, rfl⟩
      exact ⟨_, ⟨frame, ⟨hframe, hembeds⟩, rfl⟩, rfl⟩

/-- **The vectors of images and frames after a rehydration**: it passes over no first frame. -/
theorem hasVector_commit (h : version ≠ xlmrModelVersion) :
    (commitPostRehydrationMl F db (runPostRehydrationMl F mimeType plaintext) ml).hasVector ml.messageId.toText version =
        true ↔
      db.hasVector ml.messageId.toText version = true ∨ version ∈ visualKeys F mimeType plaintext fun _ => false := by
  have htext : ∀ (write : Option TextMlWrite) (stored : LocalStoreDb) (kind : String),
      (commitIfAny write (fun db w => commitText F db ml kind w.text ml.messageId.toText w) stored).hasVector
        ml.messageId.toText version = stored.hasVector ml.messageId.toText version := by
    intro write stored kind
    cases write with
    | none => rfl
    | some w => exact hasVector_commitText h
  have hpages : ∀ (write : Option (List DocumentPageMlWrite)) (stored : LocalStoreDb),
      (commitIfAny write (fun db pages => pages.foldl (commitPage F ml) db) stored).hasVector ml.messageId.toText version =
        stored.hasVector ml.messageId.toText version := by
    intro write stored
    cases write with
    | none => rfl
    | some pages => exact hasVector_commitPages h pages
  unfold commitPostRehydrationMl runPostRehydrationMl
  simp only [hasVector_commitKeyframes, hpages, htext, hasVector_putIfAbsent, imageEmbed_isSome, true_and, mem_visualKeys,
    and_true, or_assoc]

/-- Frames whose keys are taken are passed over. -/
theorem commitFrames_of_has {frames : List (Nat × Bytes)}
    (h : ∀ n ∈ frames.map Prod.fst, db.hasVector ml.messageId.toText (frameKey n) = true) :
    frames.foldl (commitFrame ml) db = db := by
  induction frames with
  | nil => rfl
  | cons frame frames ih =>
      rw [List.map_cons, List.forall_mem_cons] at h
      have hfirst : commitFrame ml db frame = db := putIfAbsent_of_has fun _ => h.1
      rw [List.foldl_cons, hfirst]
      exact ih h.2

end Commit

end KChatCore.Media
