import KChatCore.Lib.Run
import KChatCore.Media.RoundTrip
import KChatCore.Media.VisualVectors
import KChatCore.Offload.Enforcement

/-!
# `Media.IndexingCycles` — evicted and rehydrated, again and again

A send indexes what the bridges read out of a media, and so does every rehydration. `search_fuzzy` and
`media_search_index` ignore a row that is there, and vectors are put where there is none. `search_fts` has no key: each
rehydration appends the rows of all texts once more. And a rehydration reads the padded bytes, out of which the bridges
may read something else than out of the bytes that were sent.

* `fts_commit` — the text rows a rehydration appends.
* `rehydrate_held` — what a rehydration does to the store.
* `rehydration_idempotent_iff` — when the index of a message stays as its send left it.
-/

namespace KChatCore.Media

open Lib LocalStore Message

/-! ## The texts that a rehydration appends -/

section Texts

variable {F : Platform} {db : LocalStoreDb} {ml : RehydrationMlMeta} {mimeType : String} {plaintext : Bytes}

theorem commitIfAny_none {α : Type} (commit : LocalStoreDb → α → LocalStoreDb) : commitIfAny none commit db = db := rfl

theorem fts_putIfAbsent (rowId : IdText) (version : String) (write : Option Bytes) :
    (putIfAbsent db rowId version write).fts = db.fts := by
  unfold putIfAbsent
  cases write with
  | none => rfl
  | some v =>
      simp only
      split_ifs
      · rfl
      · rfl

theorem fts_commitText (kind stored : String) (rowId : IdText) (write : TextMlWrite) :
    (commitText F db ml kind stored rowId write).fts =
      db.fts ++ [⟨rowId, ml.conversationId, ml.senderId, ml.createdAtMs, write.text⟩] := by
  have hstored : (settle (db.insertMediaSearchIndex ⟨ml.assetId, kind, stored, write.language⟩) db).fts = db.fts := by
    unfold LocalStoreDb.insertMediaSearchIndex
    split_ifs
    · rfl
    · rfl
    · rfl
  unfold commitText
  rw [fts_putIfAbsent, ← hstored]
  rfl

theorem fts_commitPages (pages : List DocumentPageMlWrite) :
    (pages.foldl (commitPage F ml) db).fts = db.fts ++ pages.map fun page =>
      ⟨pageRowId ml.messageId page.pageNumber, ml.conversationId, ml.senderId, ml.createdAtMs, page.text⟩ := by
  induction pages generalizing db with
  | nil => simp
  | cons page pages ih =>
      rw [List.foldl_cons, ih]
      unfold commitPage
      rw [fts_commitText, List.map_cons, List.append_assoc]
      rfl

theorem fts_commitFrames (frames : List (Nat × Bytes)) : (frames.foldl (commitFrame ml) db).fts = db.fts := by
  induction frames generalizing db with
  | nil => rfl
  | cons frame frames ih =>
      rw [List.foldl_cons, ih]
      exact fts_putIfAbsent _ _ _

/-- The text of the image is the one a send extracts. -/
theorem ocr_text : (computePostRehydrationOcr F mimeType plaintext).map TextMlWrite.text = ocrText F mimeType plaintext := by
  unfold computePostRehydrationOcr ocrText
  by_cases hskip : (!mimeType.startsWith "image/" || !F.shouldRunOcr) = true
  · rw [if_pos hskip, if_pos hskip]
    rfl
  · rw [if_neg hskip, if_neg hskip]
    cases F.ocrBridge.bind fun recognizeText => recognizeText plaintext mimeType with
    | none => rfl
    | some regions =>
        simp only [Option.bind_some]
        split_ifs
        · rfl
        · rfl

theorem transcribe_text :
    (computePostRehydrationTranscribe F mimeType plaintext).map TextMlWrite.text = transcriptText F mimeType plaintext := by
  unfold computePostRehydrationTranscribe transcriptText
  by_cases hskip : (!mimeType.startsWith "audio/" || !F.shouldRunTranscription) = true
  · rw [if_pos hskip, if_pos hskip]
    rfl
  · rw [if_neg hskip, if_neg hskip]
    cases F.whisperTranscriber.bind fun transcribe => transcribe plaintext mimeType with
    | none => rfl
    | some result =>
        simp only [Option.bind_some]
        split_ifs
        · rfl
        · rfl

theorem document_pages (F : Platform) (mimeType : String) (plaintext : Bytes) :
    ((computePostRehydrationDocument F mimeType plaintext).getD []).map (fun page => (page.pageNumber, page.text)) =
      (documentPages F mimeType plaintext).map fun page => (page.pageNumber, trim page.text) := by
  unfold computePostRehydrationDocument documentPages
  by_cases hmime : (!isSupportedDocumentMime mimeType) = true
  · rw [if_pos hmime, if_pos hmime]
    rfl
  · rw [if_neg hmime, if_neg hmime]
    cases F.documentExtractor.bind fun extractText => extractText plaintext mimeType with
    | none => rfl
    | some pages =>
        simp only [Option.getD_some]
        split_ifs with hempty
        · rw [List.isEmpty_iff, List.map_eq_nil_iff] at hempty
          rw [hempty]
          rfl
        · rw [Option.getD_some, List.map_map]
          rfl

/-- **The text rows that a rehydration appends** are those of all texts it reads. -/
theorem fts_commit (asset : MediaAsset) (skel : MessageSkeleton) :
    (commitPostRehydrationMl F db (runPostRehydrationMl F mimeType plaintext) (mlMetaOf asset skel)).fts =
      db.fts ++ extractedRows F skel mimeType plaintext := by
  have hpages : ∀ pages : Option (List DocumentPageMlWrite), ∀ stored : LocalStoreDb,
      (commitIfAny pages (fun db pages => pages.foldl (commitPage F (mlMetaOf asset skel)) db) stored).fts =
        stored.fts ++ ((pages.getD []).map fun page => (page.pageNumber, page.text)).map fun page =>
          textRow skel (pageRowId skel.messageId page.1) page.2 := by
    intro pages stored
    cases pages with
    | none => simp [commitIfAny_none]
    | some pages =>
        rw [Option.getD_some, List.map_map]
        exact fts_commitPages pages
  have htext : ∀ (write : Option TextMlWrite) (stored : LocalStoreDb) (kind : String),
      (commitIfAny write (fun db w => commitText F db (mlMetaOf asset skel) kind w.text
        (mlMetaOf asset skel).messageId.toText w) stored).fts =
        stored.fts ++ (write.map TextMlWrite.text).toList.map (textRow skel skel.messageId.toText) := by
    intro write stored kind
    cases write with
    | none => simp [commitIfAny_none]
    | some w => exact fts_commitText _ _ _ _
  have hframes : ∀ (kf : Option KeyframesMlWrite) (stored : LocalStoreDb), (commitIfAny kf (fun db kf => putIfAbsent
      (kf.frames.foldl (commitFrame (mlMetaOf asset skel)) db) (mlMetaOf asset skel).messageId.toText mobileclipS2ModelVersion
      kf.canonicalFirstEmbedding) stored).fts = stored.fts := by
    intro kf stored
    cases kf with
    | none => rfl
    | some kf => exact (fts_putIfAbsent _ _ _).trans (fts_commitFrames kf.frames)
  unfold commitPostRehydrationMl runPostRehydrationMl
  simp only [hframes, hpages, htext, fts_putIfAbsent, ocr_text, transcribe_text, document_pages, List.map_map]
  unfold extractedRows
  simp only [List.append_assoc]
  rfl

/-- **A rehydration that reads no text, and no pixels whose key is free, indexes nothing.** -/
theorem indexRehydrated_eq_self (hocr : ocrText F ml.mimeType plaintext = none)
    (htranscript : transcriptText F ml.mimeType plaintext = none) (hpages : documentPages F ml.mimeType plaintext = [])
    (hvectors : ∀ key ∈ visualKeys F ml.mimeType plaintext fun _ => false, db.hasVector ml.messageId.toText key = true) :
    indexRehydrated F db plaintext ml = db := by
  have hnoOcr : computePostRehydrationOcr F ml.mimeType plaintext = none :=
    Option.map_eq_none_iff.mp (ocr_text.trans hocr)
  have hnoTranscript : computePostRehydrationTranscribe F ml.mimeType plaintext = none :=
    Option.map_eq_none_iff.mp (transcribe_text.trans htranscript)
  -- the three vectors are there already, and no text or page is read
  have himage : putIfAbsent db ml.messageId.toText mobileclipS2ModelVersion
      (computePostRehydrationImageEmbed F ml.mimeType plaintext) = db := by
    apply putIfAbsent_of_has
    intro hsome
    rw [imageEmbed_isSome] at hsome
    exact hvectors _ (mem_visualKeys.mpr (.inl ⟨rfl, hsome⟩))
  have hdocument : commitIfAny (computePostRehydrationDocument F ml.mimeType plaintext)
      (fun db pages => pages.foldl (commitPage F ml) db) db = db := by
    have hread := document_pages F ml.mimeType plaintext
    rw [hpages, List.map_nil, List.map_eq_nil_iff] at hread
    cases hwrite : computePostRehydrationDocument F ml.mimeType plaintext with
    | none => rfl
    | some pages =>
        rw [hwrite, Option.getD_some] at hread
        rw [hread]
        rfl
  have hframes : commitIfAny (computePostRehydrationKeyframes F ml.mimeType plaintext) (fun db kf => putIfAbsent
      (kf.frames.foldl (commitFrame ml) db) ml.messageId.toText mobileclipS2ModelVersion kf.canonicalFirstEmbedding) db =
      db := by
    rcases keyframes_spec F ml.mimeType plaintext with ⟨hnone, -⟩ | ⟨kf, hsome, hof⟩
    · rw [hnone]
      rfl
    · have htaken : kf.frames.foldl (commitFrame ml) db = db := by
        apply commitFrames_of_has
        intro n hn
        rw [hof.1] at hn
        obtain ⟨frame, hframe, rfl⟩ := List.mem_map.mp hn
        obtain ⟨hsampled, hembeds⟩ := List.mem_filter.mp hframe
        exact hvectors _ (mem_visualKeys.mpr (.inr (.inl ⟨frame, hsampled, hembeds, rfl⟩)))
      rw [hsome]
      show putIfAbsent (kf.frames.foldl (commitFrame ml) db) _ _ _ = db
      rw [htaken]
      apply putIfAbsent_of_has
      intro hcanonical
      rw [hof.2, Option.any_eq_true] at hcanonical
      obtain ⟨frame, hfirst, hembeds⟩ := hcanonical
      exact hvectors _ (mem_visualKeys.mpr (.inr (.inr ⟨rfl, frame, hfirst, hembeds, rfl⟩)))
  -- so the commit writes nothing
  have hcommit : commitPostRehydrationMl F db (runPostRehydrationMl F ml.mimeType plaintext) ml = db := by
    unfold commitPostRehydrationMl runPostRehydrationMl
    simp only [hnoOcr, hnoTranscript, commitIfAny_none, himage, hdocument, hframes]
  unfold indexRehydrated
  simp only [hcommit, ite_self]

end Texts

/-! ## Moving the media away and back -/

/-- **What happens to the media of a message** between a send and the last cycle. -/
inductive MediaEvent
  | transition (source target : MediaState)
  | evict (fault : Option Nat) (plan : Offload.EvictionPlan)
  | rehydrate (fetch : FetchBlobRange)

section System

variable (F : Platform) (m assetId : Uuid) (wrappingKey : KeyMaterial)

/-- The store after an event. -/
def MediaEvent.next (db : LocalStoreDb) : MediaEvent → LocalStoreDb
  | .transition source target => settle (transitionMediaState db assetId source target) db
  | .evict fault plan => (Offload.executeEviction fault db plan).2
  | .rehydrate fetch => (rehydrateMediaForMessage F db fetch m wrappingKey).db

/-- The transport returns what was stored. -/
def MediaEvent.Honest (processed : MediaProcessResult) : MediaEvent → Prop
  | .rehydrate fetch => Serves fetch processed.descriptor.blobId.toText (blobOf processed.sealedChunks)
  | _ => True

/-- **A step of the media**: transitions and evictions as they come, rehydrations from an honest transport. -/
def MediaEvent.Step (processed : MediaProcessResult) (db : LocalStoreDb) (event : MediaEvent) (db' : LocalStoreDb) : Prop :=
  event.Honest processed ∧ db' = event.next F m processed.descriptor.assetId wrappingKey db

end System

/-- **The four index tables hold the same of a message.** -/
structure SameIndex (m assetId : Uuid) (db db' : LocalStoreDb) : Prop where
  fts : ∀ row, OwnRow m row.messageId → db'.fts.count row = db.fts.count row
  fuzzy : ∀ row, OwnRow m row.messageId → (row ∈ db'.fuzzy.rows ↔ row ∈ db.fuzzy.rows)
  mediaSearch : ∀ row, row.assetId = assetId → (row ∈ db'.mediaSearch.rows ↔ row ∈ db.mediaSearch.rows)
  vectors : ∀ row, OwnRow m row.messageId → (row ∈ db'.vectors.rows ↔ row ∈ db.vectors.rows)

/-- The four index tables are the same altogether. -/
structure SameTables (db db' : LocalStoreDb) : Prop where
  fts : db'.fts = db.fts
  fuzzy : db'.fuzzy = db.fuzzy
  mediaSearch : db'.mediaSearch = db.mediaSearch
  vectors : db'.vectors = db.vectors

namespace SameTables

variable {db db' db'' : LocalStoreDb}

theorem refl (db : LocalStoreDb) : SameTables db db := ⟨rfl, rfl, rfl, rfl⟩

theorem trans (h : SameTables db db') (h' : SameTables db' db'') : SameTables db db'' :=
  ⟨h'.fts.trans h.fts, h'.fuzzy.trans h.fuzzy, h'.mediaSearch.trans h.mediaSearch, h'.vectors.trans h.vectors⟩

theorem sameIndex (h : SameTables db db') (m assetId : Uuid) : SameIndex m assetId db db' := by
  refine ⟨fun _ _ => ?_, fun _ _ => ?_, fun _ _ => ?_, fun _ _ => ?_⟩
  · rw [h.fts]
  · rw [h.fuzzy]
  · rw [h.mediaSearch]
  · rw [h.vectors]

theorem hasVector (h : SameTables db db') (rowId : IdText) (version : String) :
    db'.hasVector rowId version = db.hasVector rowId version := by
  unfold LocalStoreDb.hasVector
  rw [h.vectors]

end SameTables

/-! ### Steps that only move assets -/

/-- The asset with other bytes counted as local. -/
def countedAs (asset : MediaAsset) (bytes : Int) : MediaAsset := { asset with bytesLocal := bytes }

theorem countedAs_self (asset : MediaAsset) : countedAs asset asset.bytesLocal = asset := rfl

/-- **The asset of a message is there**, in whatever state, and with whatever bytes counted as local. -/
def Held (db : LocalStoreDb) (asset : MediaAsset) : Prop := ∃ state bytes, Attached db (countedAs asset bytes) state

theorem Attached.held {db : LocalStoreDb} {asset : MediaAsset} {state : MediaState} (h : Attached db asset state) :
    Held db asset := ⟨state, asset.bytesLocal, (countedAs_self asset).symm ▸ h⟩

/-- **Only the states of assets and their local bytes change.** -/
structure AssetsMoved (asset : MediaAsset) (db db' : LocalStoreDb) : Prop where
  tables : SameTables db db'
  skeletons : db'.skeletons = db.skeletons
  held : Held db asset → Held db' asset

namespace AssetsMoved

variable {db db' db'' : LocalStoreDb} {asset : MediaAsset}

theorem refl (db : LocalStoreDb) : AssetsMoved asset db db := ⟨.refl db, rfl, fun h => h⟩

theorem trans (h : AssetsMoved asset db db') (h' : AssetsMoved asset db' db'') : AssetsMoved asset db db'' :=
  ⟨h.tables.trans h'.tables, h'.skeletons.trans h.skeletons, fun hheld => h'.held (h.held hheld)⟩

theorem updateAsset (id : Uuid) {f : MediaAsset → MediaAsset} (hid : ∀ r, (f r).assetId = r.assetId)
    (hmessage : ∀ r, (f r).messageId = r.messageId)
    (hf : ∀ r, ∃ state bytes, f r = { r with mediaState := state, bytesLocal := bytes }) :
    AssetsMoved asset db (db.updateAsset id f hid hmessage) := by
  refine ⟨⟨rfl, rfl, rfl, rfl⟩, rfl, ?_⟩
  rintro ⟨state, bytes, hattached⟩
  by_cases hsame : (countedAs asset bytes).assetId = id
  · subst hsame
    have hrow := hattached.updateAsset f hid hmessage
    obtain ⟨state', bytes', hupdated⟩ := hf { countedAs asset bytes with mediaState := state }
    simp only [hupdated] at hrow
    exact ⟨state', bytes', hrow⟩
  · refine ⟨state, bytes, ?_, ?_⟩
    · unfold LocalStoreDb.getMediaAsset
      rw [LocalStoreDb.find?_updateAsset, if_neg hsame]
      exact hattached.1
    · rw [getMediaAssetByMessage_updateAsset, hattached.2, Option.map_some, if_neg hsame]

theorem updateMediaState (id : Uuid) (state : MediaState) : AssetsMoved asset db (db.updateMediaState id state) :=
  updateAsset (f := fun r => { r with mediaState := state }) id (fun _ => rfl) (fun _ => rfl) fun r =>
    ⟨state, r.bytesLocal, rfl⟩

theorem transition {id : Uuid} {source target : MediaState} (h : transitionMediaState db id source target = .ok db') :
    AssetsMoved asset db db' := by
  obtain ⟨-, -, rfl⟩ := transitionMediaState_eq_ok.mp h
  exact updateMediaState id target

theorem settledTransition (id : Uuid) (source target : MediaState) :
    AssetsMoved asset db (settle (transitionMediaState db id source target) db) := by
  cases h : transitionMediaState db id source target with
  | error e => exact refl db
  | ok db' => exact transition h

theorem executeEviction (fault : Option Nat) (plan : Offload.EvictionPlan) :
    AssetsMoved asset db (Offload.executeEviction fault db plan).2 := by
  rw [Offload.executeEviction_store]
  unfold Offload.evictAll
  generalize Offload.reached fault plan.selected = cands
  induction cands generalizing db with
  | nil => exact refl db
  | cons cand cands ih =>
      rw [List.foldl_cons]
      have hfirst : AssetsMoved asset db (Offload.evictAsset db cand.assetId) :=
        updateAsset (f := fun r => { r with mediaState := .evicted, bytesLocal := 0 }) cand.assetId (fun _ => rfl)
          (fun _ => rfl) fun r => ⟨.evicted, 0, rfl⟩
      exact hfirst.trans ih

theorem commitRehydration {id : Uuid} {source : MediaState} {n : Nat} (h : commitRehydration db id source n = .ok db') :
    AssetsMoved asset db db' := by
  obtain ⟨db₁, hstart, h⟩ := except_bind_eq_ok.mp h
  obtain ⟨db₂, hend, h⟩ := except_bind_eq_ok.mp h
  by_cases hlong : 2 ^ 63 ≤ n
  · rw [if_pos hlong] at h
    exact absurd h (by simp)
  · rw [if_neg hlong] at h
    obtain rfl := Except.ok.inj h
    have hcounted : AssetsMoved asset db₂ (db₂.updateBytesLocal id n) :=
      updateAsset (f := fun r => { r with bytesLocal := n }) id (fun _ => rfl) (fun _ => rfl) fun r =>
        ⟨r.mediaState, n, rfl⟩
    exact (transition hstart).trans ((transition hend).trans hcounted)

end AssetsMoved

/-! ### What a rehydration does -/

section Cycles

variable {F : Platform} {send : MediaSend} {wrappingKey : KeyMaterial} {assetId : Uuid} {processed : MediaProcessResult}
  {db db' sentDb : LocalStoreDb} {now : Int}

/-- **A media that was sent**: it was processed with padding, and `send_media` stored it. -/
structure SentAs (F : Platform) (send : MediaSend) (wrappingKey : KeyMaterial) (processed : MediaProcessResult)
    (db : LocalStoreDb) (now : Int) (sentDb : LocalStoreDb) : Prop where
  chunks : ∃ kAsset assetId blobId, processMedia F.primitives send.plaintext send.mimeType wrappingKey .media true kAsset
    assetId blobId = .ok processed
  stored : sendMedia F db send (.ok processed.descriptor) now = .ok sentDb

/-- The chunks that were counted are those of the padded bytes. -/
theorem SentAs.chunkCount (h : SentAs F send wrappingKey processed db now sentDb) :
    processed.descriptor.chunkCount = totalChunks defaultChunkSize (padToSizeClass send.plaintext) := by
  obtain ⟨kAsset, assetId, blobId, hprocess⟩ := h.chunks
  have hsize : defaultChunkSize ≠ 0 := by decide
  obtain ⟨chunked, hchunked, hresult⟩ := except_bind_eq_ok.mp hprocess
  unfold chunkAndEncrypt at hchunked
  rw [if_neg hsize] at hchunked
  simp only [if_true] at hchunked
  by_cases hlong : u32Max < totalChunks defaultChunkSize (padToSizeClass send.plaintext)
  · rw [if_pos hlong] at hchunked
    exact absurd hchunked (by simp)
  · rw [if_neg hlong] at hchunked
    obtain rfl := Except.ok.inj hchunked
    rw [← Except.ok.inj hresult]

/-- The message and its asset, as long as nobody deletes them. -/
structure Stands (send : MediaSend) (descriptor : MediaDescriptor) (now : Int) (db : LocalStoreDb) : Prop where
  skeleton : db.skeletons.find? send.messageId = some (send.skeleton now)
  held : Held db (send.asset descriptor)

theorem SentAs.stands (h : SentAs F send wrappingKey processed db now sentDb) :
    Stands send processed.descriptor now sentDb := by
  obtain ⟨descriptor, hdescriptor, hattached, hskel⟩ := sendMedia_attached h.stored
  obtain rfl := Except.ok.inj hdescriptor
  exact ⟨hskel, hattached.held⟩

theorem Stands.moved (h : Stands send processed.descriptor now db)
    (hmoved : AssetsMoved (send.asset processed.descriptor) db db') : Stands send processed.descriptor now db' :=
  ⟨by rw [hmoved.skeletons, h.skeleton], hmoved.held h.held⟩

/-- Phase 1 stops where the original is not away. -/
theorem readAsset_of_not_away {asset : MediaAsset} {state : MediaState} (h : Attached db asset state)
    (haway : ¬ (state = .evicted ∨ state = .remoteOriginal)) : ∃ e, readAsset db asset.messageId = .error e := by
  unfold readAsset
  rw [h.2]
  show ∃ e, prepareRehydration db asset.assetId >>= _ = _
  cases hplan : prepareRehydration db asset.assetId with
  | error e => exact ⟨e, rfl⟩
  | ok plan =>
      obtain ⟨row, hrow, hstate, -⟩ := prepareRehydration_eq_ok hplan
      obtain rfl := Option.some.inj (h.1.symm.trans hrow)
      exact absurd hstate haway

/-- A rehydration of an asset whose chunks are served: the padded bytes come back, and what is read out of them is
indexed. Nothing happens where the asset is not away, or has more chunks than its column can count. -/
theorem rehydrate_attached {asset : MediaAsset} {state : MediaState} {skel : MessageSkeleton} {chunked : ChunkedMedia}
    {kAsset : KeyMaterial} {padded : Bytes} {fetch : FetchBlobRange} {bytes : Int}
    (hattached : Attached db (countedAs asset bytes) state) (hskel : db.skeletons.find? asset.messageId = some skel)
    (hseals : chunked.Seals F.primitives kAsset asset.blobId.asBytes .media defaultChunkSize padded)
    (htag : AppendsTag F.primitives) (hcount : asset.chunkCount = Int.bmod chunked.chunkCount (2 ^ 32))
    (hsink : asset.storageSink = "kchat_backend") (hkey : asset.wrappedKAsset = wrapKAsset F.primitives kAsset wrappingKey)
    (hroot : asset.merkleRoot = chunked.merkleRoot.toList)
    (hserves : Serves fetch asset.blobId.toText (blobOf chunked.sealedChunks)) :
    if (state = .evicted ∨ state = .remoteOriginal) ∧ chunked.chunkCount < 2 ^ 31 then
      ∃ committed, AssetsMoved asset db committed ∧
        (rehydrateMediaForMessage F db fetch asset.messageId wrappingKey).db =
          indexRehydrated F committed padded (mlMetaOf asset skel)
    else (rehydrateMediaForMessage F db fetch asset.messageId wrappingKey).db = db := by
  have hmessage : asset.messageId = (countedAs asset bytes).messageId := rfl
  rw [hmessage] at hskel ⊢
  unfold rehydrateMediaForMessage
  by_cases haway : state = .evicted ∨ state = .remoteOriginal
  · have hdownload : executeRehydrationDownload F.primitives (planOf (countedAs asset bytes) chunked.merkleRoot state) fetch
        wrappingKey = _ := executeRehydrationDownload_sent hseals htag hcount hsink hkey hserves
    rw [readAsset_attached chunked.merkleRoot hattached hskel haway hroot]
    simp only [hdownload]
    by_cases hlt : chunked.chunkCount < 2 ^ 31
    · obtain ⟨committed, hcommit, -, -⟩ := commitRehydration_attached hattached haway (length_sealed_lt hseals)
      have hcommit' : commitRehydration db (planOf (countedAs asset bytes) chunked.merkleRoot state).assetId
          (planOf (countedAs asset bytes) chunked.merkleRoot state).fromState padded.length = .ok committed := hcommit
      rw [if_pos ⟨haway, hlt⟩, if_pos hlt]
      simp only [hcommit']
      exact ⟨committed, .commitRehydration hcommit, rfl⟩
    · rw [if_neg fun hboth => hlt hboth.2, if_neg hlt]
  · obtain ⟨e, hread⟩ := readAsset_of_not_away hattached haway
    rw [if_neg fun hboth => haway hboth.1, hread]

/-- **What a rehydration of a sent media does.** -/
theorem rehydrate_held (h : SentAs F send wrappingKey processed db now sentDb) (htag : AppendsTag F.primitives)
    {fetch : FetchBlobRange} (hserves : Serves fetch processed.descriptor.blobId.toText (blobOf processed.sealedChunks))
    (bytes : Int) {state : MediaState}
    (hattached : Attached db' (countedAs (send.asset processed.descriptor) bytes) state)
    (hskel : db'.skeletons.find? send.messageId = some (send.skeleton now)) :
    if (state = .evicted ∨ state = .remoteOriginal) ∧ processed.descriptor.chunkCount < 2 ^ 31 then
      ∃ committed, AssetsMoved (send.asset processed.descriptor) db' committed ∧
        (rehydrateMediaForMessage F db' fetch send.messageId wrappingKey).db =
          indexRehydrated F committed (padToSizeClass send.plaintext)
            (mlMetaOf (send.asset processed.descriptor) (send.skeleton now))
    else (rehydrateMediaForMessage F db' fetch send.messageId wrappingKey).db = db' := by
  obtain ⟨kAsset, assetId, blobId, hprocess⟩ := h.chunks
  obtain ⟨hseals, -, rfl, -, hkey, hsink⟩ := processMedia_eq_ok hprocess
  rw [if_pos rfl] at hseals
  have hbackend : (send.asset processed.descriptor).storageSink = "kchat_backend" := by
    show processed.descriptor.storageSink.getD "kchat_backend" = _
    rw [hsink]
    rfl
  have hcount : (send.asset processed.descriptor).chunkCount = Int.bmod processed.chunked.chunkCount (2 ^ 32) := by
    unfold MediaSend.asset MediaDescriptor.asset
    dsimp only [MediaProcessResult.chunked]
  exact rehydrate_attached hattached hskel hseals htag hcount hbackend hkey rfl hserves

/-! ### Any number of cycles -/

/-- **Nothing new comes back**: the bridges read no text out of the padded bytes, and whatever pixels of theirs the
embedder takes, the message has a vector under that key when it was sent. -/
structure ReadsNothingNew (F : Platform) (db : LocalStoreDb) (send : MediaSend) : Prop where
  ocr : ocrText F send.mimeType (padToSizeClass send.plaintext) = none
  transcript : transcriptText F send.mimeType (padToSizeClass send.plaintext) = none
  pages : documentPages F send.mimeType (padToSizeClass send.plaintext) = []
  vectors : ∀ key ∈ visualKeys F send.mimeType (padToSizeClass send.plaintext) fun _ => false,
    db.hasVector send.messageId.toText key = true ∨
      key ∈ visualKeys F send.mimeType send.plaintext (db.hasVector send.messageId.toText)

/-- Where nothing new comes back, a rehydration indexes nothing. -/
theorem ReadsNothingNew.indexRehydrated (hnew : ReadsNothingNew F db send)
    (hstored : sendMedia F db send (.ok processed.descriptor) now = .ok sentDb) (htables : SameTables sentDb db')
    {ml : RehydrationMlMeta} (hid : ml.messageId = send.messageId) (hmime : ml.mimeType = send.mimeType) :
    indexRehydrated F db' (padToSizeClass send.plaintext) ml = db' := by
  apply indexRehydrated_eq_self
  · rw [hmime]
    exact hnew.ocr
  · rw [hmime]
    exact hnew.transcript
  · rw [hmime]
    exact hnew.pages
  · intro key hkey
    rw [hmime] at hkey
    rw [hid, htables.hasVector]
    exact (hasVector_sendMedia hstored (ne_xlmr_of_mem_visualKeys hkey)).mpr (hnew.vectors key hkey)

/-- **A step changes no index table** where nothing new comes back. -/
theorem step_unchanged (h : SentAs F send wrappingKey processed db now sentDb) (htag : AppendsTag F.primitives)
    (hquiet : 2 ^ 31 ≤ processed.descriptor.chunkCount ∨ ReadsNothingNew F db send) {db₁ db₂ : LocalStoreDb}
    {event : MediaEvent} (hstands : Stands send processed.descriptor now db₁) (htables : SameTables sentDb db₁)
    (hstep : event.Step F send.messageId wrappingKey processed db₁ db₂) :
    Stands send processed.descriptor now db₂ ∧ SameTables sentDb db₂ := by
  obtain ⟨hhonest, rfl⟩ := hstep
  cases event with
  | transition source target =>
      have hmoved : AssetsMoved (send.asset processed.descriptor) db₁ _ :=
        .settledTransition processed.descriptor.assetId source target
      exact ⟨hstands.moved hmoved, htables.trans hmoved.tables⟩
  | evict fault plan =>
      have hmoved : AssetsMoved (send.asset processed.descriptor) db₁ _ := .executeEviction fault plan
      exact ⟨hstands.moved hmoved, htables.trans hmoved.tables⟩
  | rehydrate fetch =>
      obtain ⟨state, bytes, hattached⟩ := hstands.held
      have hout := rehydrate_held h htag hhonest bytes hattached hstands.skeleton
      show Stands send processed.descriptor now (rehydrateMediaForMessage F db₁ fetch send.messageId wrappingKey).db ∧
        SameTables sentDb (rehydrateMediaForMessage F db₁ fetch send.messageId wrappingKey).db
      split_ifs at hout with hruns
      · obtain ⟨committed, hmoved, hdb⟩ := hout
        have hnew : ReadsNothingNew F db send := hquiet.resolve_left (not_le.mpr hruns.2)
        have hsame := htables.trans hmoved.tables
        rw [hdb, hnew.indexRehydrated h.stored hsame rfl rfl]
        exact ⟨hstands.moved hmoved, hsame⟩
      · rw [hout]
        exact ⟨hstands, htables⟩

theorem indexRehydrated_eq_commit (plaintext : Bytes) (ml : RehydrationMlMeta) :
    indexRehydrated F db plaintext ml = commitPostRehydrationMl F db (runPostRehydrationMl F ml.mimeType plaintext) ml := by
  unfold indexRehydrated
  by_cases hany : (runPostRehydrationMl F ml.mimeType plaintext).hasAnyWrites = true
  · simp only [hany, if_true]
  · simp only [hany, if_false, Bool.false_eq_true]
    exact (commitPostRehydrationMl_nothing (Bool.eq_false_iff.mpr hany)).symm

/-- A lawful transition of the asset is a step. -/
theorem Attached.step_transition {asset : MediaAsset} {source : MediaState} (F : Platform) (wrappingKey : KeyMaterial)
    (hattached : Attached db asset source) (target : MediaState) (hlegal : source.legal target = true)
    (hid : asset.assetId = processed.descriptor.assetId) {m : Uuid} :
    ∃ db', Attached db' asset target ∧
      MediaEvent.Step F m wrappingKey processed db (.transition source target) db' ∧ AssetsMoved asset db db' := by
  have hmove : transitionMediaState db asset.assetId source target = .ok (db.updateMediaState asset.assetId target) :=
    transitionMediaState_eq_ok.mpr ⟨hlegal, ⟨_, hattached.1, rfl⟩, rfl⟩
  refine ⟨_, hattached.updateMediaState, ⟨trivial, ?_⟩, .transition hmove⟩
  show _ = settle (transitionMediaState db processed.descriptor.assetId source target) db
  rw [← hid, hmove, settle_ok]

/-- **One cycle**: what it appends to `search_fts`, and which vectors there are then. -/
theorem one_cycle (h : SentAs F send wrappingKey processed db now sentDb) (htag : AppendsTag F.primitives)
    (hcount : processed.descriptor.chunkCount < 2 ^ 31) :
    ∃ tr db', Run (MediaEvent.Step F send.messageId wrappingKey processed) sentDb tr db' ∧
      db'.fts = sentDb.fts ++ extractedRows F (send.skeleton now) send.mimeType (padToSizeClass send.plaintext) ∧
      ∀ version ∈ visualKeys F send.mimeType (padToSizeClass send.plaintext) fun _ => false,
        db'.hasVector send.messageId.toText version = true := by
  obtain ⟨descriptor, hdescriptor, hattached, hskel⟩ := sendMedia_attached h.stored
  obtain rfl := Except.ok.inj hdescriptor
  let fetch := holding processed.descriptor.blobId.toText (blobOf processed.sealedChunks)
  have hserves : Serves fetch processed.descriptor.blobId.toText (blobOf processed.sealedChunks) := holding_serves _ _
  obtain ⟨local₁, hlocal, hfirst, hmoved₁⟩ := hattached.step_transition F wrappingKey .originalLocal rfl rfl
  obtain ⟨away, haway, hsecond, hmoved₂⟩ := hlocal.step_transition F wrappingKey .evicted rfl rfl
  have hskel' : away.skeletons.find? send.messageId = some (send.skeleton now) := by
    rw [hmoved₂.skeletons, hmoved₁.skeletons, hskel]
  have hthird : MediaEvent.Step F send.messageId wrappingKey processed away (.rehydrate fetch)
      (rehydrateMediaForMessage F away fetch send.messageId wrappingKey).db := ⟨hserves, rfl⟩
  rw [← countedAs_self (send.asset processed.descriptor)] at haway
  have hout := rehydrate_held h htag hserves _ haway hskel'
  rw [if_pos ⟨.inl rfl, hcount⟩] at hout
  obtain ⟨committed, hmoved₃, hdb⟩ := hout
  have htables : SameTables sentDb committed := (hmoved₁.tables.trans hmoved₂.tables).trans hmoved₃.tables
  rw [indexRehydrated_eq_commit] at hdb
  refine ⟨_, _, ((Run.single hfirst).trans (Run.single hsecond)).trans (Run.single hthird), ?_, ?_⟩
  · rw [hdb, ← htables.fts]
    exact fts_commit _ _
  · intro version hversion
    rw [hdb]
    exact (hasVector_commit (ne_xlmr_of_mem_visualKeys hversion)).mpr (.inr hversion)

theorem extractedRows_eq_nil {skel : MessageSkeleton} {mimeType : String} {plaintext : Bytes}
    (h : extractedRows F skel mimeType plaintext = []) : ocrText F mimeType plaintext = none ∧
      transcriptText F mimeType plaintext = none ∧ documentPages F mimeType plaintext = [] := by
  unfold extractedRows at h
  obtain ⟨htexts, hpages⟩ := List.append_eq_nil_iff.mp h
  obtain ⟨hocr, htranscript⟩ := List.append_eq_nil_iff.mp htexts
  simp only [List.map_eq_nil_iff, Option.toList_eq_nil_iff] at hocr htranscript hpages
  exact ⟨hocr, htranscript, hpages⟩

/-- A cycle after which the index is the same brings nothing new. -/
theorem readsNothingNew_of_sameIndex (h : SentAs F send wrappingKey processed db now sentDb)
    (hfts : db'.fts = sentDb.fts ++ extractedRows F (send.skeleton now) send.mimeType (padToSizeClass send.plaintext))
    (hvectors : ∀ version ∈ visualKeys F send.mimeType (padToSizeClass send.plaintext) fun _ => false,
      db'.hasVector send.messageId.toText version = true)
    (hsame : SameIndex send.messageId assetId sentDb db') : ReadsNothingNew F db send := by
  have hnil : extractedRows F (send.skeleton now) send.mimeType (padToSizeClass send.plaintext) = [] := by
    apply List.eq_nil_iff_forall_not_mem.mpr
    intro row hrow
    have hcount := hsame.fts row (ownRow_of_mem_extractedRows hrow)
    rw [hfts, List.count_append] at hcount
    have hpos := List.count_pos_iff.mpr hrow
    omega
  obtain ⟨hocr, htranscript, hpages⟩ := extractedRows_eq_nil hnil
  refine ⟨hocr, htranscript, hpages, fun key hkey => ?_⟩
  -- the vector the cycle saw to was there before it, so the send or the store it met put it there
  obtain ⟨row, hrow, hrowKey⟩ := Table.has_iff.mp (hvectors key hkey)
  have hid : row.messageId = send.messageId.toText := (Prod.mk.inj hrowKey).1
  have hbefore := (hsame.vectors row (.inl hid)).mp hrow
  exact (hasVector_sendMedia h.stored (ne_xlmr_of_mem_visualKeys hkey)).mp (Table.has_iff.mpr ⟨row, hbefore, hrowKey⟩)

/-- **The index of a sent message outlives any number of cycles exactly when nothing new comes back**, or when nothing
comes back at all: too many chunks for their column. -/
theorem rehydrations_keep_index_iff (h : SentAs F send wrappingKey processed db now sentDb)
    (htag : AppendsTag F.primitives) :
    (∀ tr db', Run (MediaEvent.Step F send.messageId wrappingKey processed) sentDb tr db' →
        SameIndex send.messageId processed.descriptor.assetId sentDb db') ↔
      (2 ^ 31 ≤ totalChunks defaultChunkSize (padToSizeClass send.plaintext) ∨ ReadsNothingNew F db send) := by
  rw [← h.chunkCount]
  constructor
  · intro hkeeps
    by_cases hcount : 2 ^ 31 ≤ processed.descriptor.chunkCount
    · exact .inl hcount
    · -- one cycle shows what a rehydration reads that the send did not
      obtain ⟨tr, db', hrun, hfts, hvectors⟩ := one_cycle h htag (not_le.mp hcount)
      exact .inr (readsNothingNew_of_sameIndex h hfts hvectors (hkeeps tr db' hrun))
  · intro hquiet tr db' hrun
    have hinvariant := hrun.invariant (I := fun db₁ => Stands send processed.descriptor now db₁ ∧ SameTables sentDb db₁)
      (fun _ _ _ hI hstep => step_unchanged h htag hquiet hI.1 hI.2 hstep) ⟨h.stands, .refl sentDb⟩
    exact hinvariant.2.sameIndex _ _

end Cycles

/-- Two bytes that any bridge reads as it likes can be sent as an image. -/
theorem hiImage_sentAs (F : Platform) : ∃ processed sentDb,
    SentAs F hiImage (ByteArr.zeros 32) processed (.fresh oneConversation) 0 sentDb ∧
      processed.descriptor.chunkCount < 2 ^ 31 := by
  have hone : totalChunks defaultChunkSize (if true then padToSizeClass hiImage.plaintext else hiImage.plaintext) = 1 := by
    decide +kernel
  obtain ⟨processed, hprocess, hcount⟩ := processMedia_of_countable (ByteArr.zeros 32) ⟨3⟩ ⟨4⟩ (hone.trans_le (by decide))
  have hlands : hiImage.Lands (.ok processed.descriptor) (.fresh oneConversation) :=
    ⟨by decide +kernel, by decide +kernel, by decide, by decide, _, rfl, rfl⟩
  obtain ⟨sentDb, hsend⟩ := (sendMedia_isOk_iff F 0).mpr hlands
  exact ⟨processed, sentDb, ⟨⟨_, _, _, hprocess⟩, hsend⟩, by rw [hcount, hone]; decide⟩

/-- A platform that embeds any image, and reads nothing. -/
def pixelPlatform : Platform := { taggingPlatform with imageEmbedder := some fun _ _ => some [1] }

theorem hiImage_index_kept : ∃ processed sentDb,
    SentAs pixelPlatform hiImage (ByteArr.zeros 32) processed (.fresh oneConversation) 0 sentDb ∧
      ∀ tr db', Run (MediaEvent.Step pixelPlatform hiImage.messageId (ByteArr.zeros 32) processed) sentDb tr db' →
        SameIndex hiImage.messageId processed.descriptor.assetId sentDb db' := by
  have hquiet : ReadsNothingNew pixelPlatform (.fresh oneConversation) hiImage := by
    refine ⟨by decide +kernel, by decide +kernel, by decide +kernel, fun key hkey => .inr ?_⟩
    have hone : visualKeys pixelPlatform hiImage.mimeType (padToSizeClass hiImage.plaintext) (fun _ => false) =
        [mobileclipS2ModelVersion] := by decide +kernel
    rw [hone, List.mem_singleton] at hkey
    exact mem_visualKeys.mpr (.inl ⟨hkey, by decide +kernel⟩)
  obtain ⟨processed, sentDb, hsent, -⟩ := hiImage_sentAs pixelPlatform
  exact ⟨processed, sentDb, hsent, (rehydrations_keep_index_iff hsent tagging_appendsTag).mpr (.inr hquiet)⟩

/-- A platform whose OCR reads "hi" out of any image. -/
def readingPlatform : Platform := { taggingPlatform with ocrBridge := some fun _ _ => some [⟨"hi", none⟩] }

theorem hiImage_indexed_again : ∃ processed sentDb,
    SentAs readingPlatform hiImage (ByteArr.zeros 32) processed (.fresh oneConversation) 0 sentDb ∧
      ∃ tr db', Run (MediaEvent.Step readingPlatform hiImage.messageId (ByteArr.zeros 32) processed) sentDb tr db' ∧
        ¬ SameIndex hiImage.messageId processed.descriptor.assetId sentDb db' := by
  obtain ⟨processed, sentDb, hsent, hcount⟩ := hiImage_sentAs readingPlatform
  obtain ⟨tr, db', hrun, hfts, hvectors⟩ := one_cycle hsent tagging_appendsTag hcount
  refine ⟨processed, sentDb, hsent, tr, db', hrun, fun hsame => ?_⟩
  have hread : ocrText readingPlatform hiImage.mimeType (padToSizeClass hiImage.plaintext) = some "hi" := by
    decide +kernel
  have hnew := (readsNothingNew_of_sameIndex hsent hfts hvectors hsame).ocr
  exact absurd (hread.symm.trans hnew) (by decide)

end KChatCore.Media
