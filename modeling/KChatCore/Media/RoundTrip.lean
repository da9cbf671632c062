import KChatCore.Media.Rehydration
import KChatCore.Message.Calls

/-!
# `Media.RoundTrip` — what comes back of a media that was sent

A send hands the plaintext to the bridges, and seals it padded. Whatever is sealed comes back, the padding included: the
caller, the bridges and `bytes_local` get the padded bytes.

* `sendMedia_attached` — the one asset of a message that was sent.
* `rehydrate_returns_padded` — a rehydration returns the padded bytes.
* `rehydration_never_round_trips` — it never returns, counts or hands on the bytes that were sent.
-/

namespace KChatCore.Media

open Lib LocalStore Message

/-! ## The asset of a message that was sent -/

section Sent

variable {F : Platform} {db db' : LocalStoreDb}

/-- Extraction leaves the assets alone. -/
theorem assets_closure (k : Uuid) : RowClosure k (fun _ => True) fun db db' => db'.assets = db.assets where
  refl _ := rfl
  trans h h' := h'.trans h
  insertFtsRow _ _ _ := rfl
  indexMessage _ _ _ _ := rfl
  putVector _ _ _ _ _ := rfl
  insertMediaSearchIndex db row := by
    unfold LocalStoreDb.insertMediaSearchIndex
    by_cases hasset : db.assets.has row.assetId = true
    · rw [dif_pos hasset]
      rfl
    · rw [dif_neg hasset]
      by_cases hkey : db.mediaSearch.has row.key = true
      · rw [if_pos hkey]
        rfl
      · rw [if_neg hkey]
        rfl

/-- A message that is not there has no asset. -/
theorem getMediaAssetByMessage_of_free {m : Uuid} (h : db.skeletons.has m = false) : db.getMediaAssetByMessage m = none := by
  refine List.find?_eq_none.mpr fun asset hasset hmessage => ?_
  obtain ⟨skel, hskel, hkey⟩ := db.assetRefers asset hasset
  have hthere : db.skeletons.has m = true := by
    refine Table.has_iff.mpr ⟨skel, hskel, ?_⟩
    rw [hkey]
    exact of_decide_eq_true hmessage
  rw [h] at hthere
  exact absurd hthere (by decide)

/-- The first asset of a message. -/
theorem attached_addAsset {asset : MediaAsset} (hfree : db.assets.has asset.assetId = false)
    (hskel : db.skeletons.has asset.messageId = true) (hnone : db.getMediaAssetByMessage asset.messageId = none) :
    Attached (db.addAsset asset hfree hskel) asset asset.mediaState := by
  constructor
  · show (db.assets.append asset hfree).find? asset.assetId = _
    rw [Table.find?_append, if_pos rfl]
  · show (db.assets.rows ++ [asset]).find? _ = _
    have hold : db.assets.rows.find? (fun a => decide (a.messageId = asset.messageId)) = none := hnone
    rw [List.find?_append, hold]
    simp

/-- **The one asset of a message that was sent.** -/
theorem sendMedia_attached {send : MediaSend} {processed : Except Error MediaDescriptor} {now : Int}
    (h : sendMedia F db send processed now = .ok db') :
    ∃ descriptor, processed = .ok descriptor ∧ Attached db' (send.asset descriptor) .thumbnailOnly ∧
      db'.skeletons.find? send.messageId = some (send.skeleton now) := by
  have hcreate := (sendMedia_eq_ok h).1
  obtain ⟨descriptor, hfree, hconv, db₂, db₃, hprocessed, htext, hasset, rfl⟩ := sendMedia_parts h
  obtain ⟨hassetFree, hskel, rfl⟩ := LocalStoreDb.insertMediaAsset_eq_ok.mp hasset
  have hassets₂ : db₂.assets = (db.addSkeleton (send.skeleton now) hfree hconv).assets := insertTextIfAny_assets htext
  have hnone : db₂.getMediaAssetByMessage send.messageId = none := by
    unfold LocalStoreDb.getMediaAssetByMessage
    rw [hassets₂]
    show db.getMediaAssetByMessage send.messageId = none
    exact getMediaAssetByMessage_of_free hfree
  have hadded := attached_addAsset hassetFree hskel hnone
  have hextract : (extractMedia F (db₂.addAsset (send.asset descriptor) hassetFree hskel) (send.skeleton now)
      descriptor.assetId send.mimeType send.plaintext).assets = _ :=
    (assets_closure send.messageId).extractMedia rfl fun _ _ => trivial
  refine ⟨descriptor, hprocessed, ?_, hcreate.skeleton⟩
  unfold Attached LocalStoreDb.getMediaAsset LocalStoreDb.getMediaAssetByMessage at hadded ⊢
  rw [← hextract] at hadded
  exact hadded

end Sent

/-- Phase 4 leaves the assets alone. -/
theorem indexRehydrated_assets (F : Platform) (db : LocalStoreDb) (plaintext : Bytes) (ml : RehydrationMlMeta) :
    (indexRehydrated F db plaintext ml).assets = db.assets := by
  unfold indexRehydrated
  by_cases h : (runPostRehydrationMl F ml.mimeType plaintext).hasAnyWrites = true
  · simp only [h, if_true]
    exact commitPostRehydrationMl_related (assets_closure ml.messageId) (fun _ _ => trivial) rfl
  · simp only [h, if_false, Bool.false_eq_true]

/-! ## The rehydration of a message that was sent -/

/-- **A media that was sent, and moved away**: its chunks are served, and its asset is evicted or remote. -/
structure SentAway (F : Platform) (send : MediaSend) (wrappingKey : KeyMaterial) (fetch : FetchBlobRange) (assetId : Uuid)
    (processed : MediaProcessResult) (stored : LocalStoreDb) : Prop where
  chunks : ∃ kAsset blobId, processMedia F.primitives send.plaintext send.mimeType wrappingKey .media true kAsset assetId
    blobId = .ok processed
  served : Serves fetch processed.descriptor.blobId.toText (blobOf processed.sealedChunks)
  sent : ∃ db now sentDb moves, sendMedia F db send (.ok processed.descriptor) now = .ok sentDb ∧
    moveMedia assetId moves sentDb = .ok stored
  away : ∃ asset, stored.getMediaAsset assetId = some asset ∧
    (asset.mediaState = .evicted ∨ asset.mediaState = .remoteOriginal)

/-- The original is there, and counted in full. -/
def LocalInFull (db : LocalStoreDb) (assetId : Uuid) : Prop :=
  ∃ asset, db.getMediaAsset assetId = some asset ∧ asset.mediaState = .originalLocal ∧ asset.bytesLocal = asset.bytesTotal

section Rehydration

variable {F : Platform} {send : MediaSend} {wrappingKey : KeyMaterial} {fetch : FetchBlobRange} {assetId : Uuid}
  {processed : MediaProcessResult} {stored : LocalStoreDb}

/-- The plan that the row of an asset leads to. -/
def planOf (asset : MediaAsset) (merkleRoot : ByteArr 32) (state : MediaState) : RehydrationPlan :=
  ⟨asset.assetId, asset.blobId, asset.storageSink, asset.chunkCount.toNat, merkleRoot, asset.wrappedKAsset, state⟩

/-- What phase 1 reads off the skeleton. -/
def mlMetaOf (asset : MediaAsset) (skel : MessageSkeleton) : RehydrationMlMeta :=
  ⟨skel.messageId, asset.assetId, skel.senderId, skel.conversationId, skel.createdAtMs, asset.mimeType⟩

/-- Phase 1 of the rehydration of a message with one asset. -/
theorem readAsset_attached (merkleRoot : ByteArr 32) {asset : MediaAsset} {state : MediaState} {skel : MessageSkeleton}
    (hattached : Attached stored asset state) (hskel : stored.skeletons.find? asset.messageId = some skel)
    (haway : state = .evicted ∨ state = .remoteOriginal) (hroot : asset.merkleRoot = merkleRoot.toList) :
    readAsset stored asset.messageId = .ok (some (planOf asset merkleRoot state, some (mlMetaOf asset skel))) := by
  have hlen : asset.merkleRoot.length = 32 := hroot ▸ merkleRoot.length_val
  have hsame : (⟨asset.merkleRoot, hlen⟩ : ByteArr 32) = merkleRoot := Subtype.ext hroot
  have hplan : prepareRehydration stored asset.assetId = .ok (planOf asset merkleRoot state) := by
    rw [prepareRehydration_of_away hattached.1 haway hlen]
    simp only [hsame]
    rfl
  unfold readAsset
  rw [hattached.2]
  show prepareRehydration stored asset.assetId >>= _ = _
  rw [hplan, hskel]
  rfl

/-- What is left of a chunk count in its 32-bit column. -/
theorem toNat_bmod_chunkCount {n : Nat} (hmax : n ≤ u32Max) :
    (Int.bmod n (2 ^ 32)).toNat = if n < 2 ^ 31 then n else 0 := by
  unfold u32Max at hmax
  rw [Int.bmod_def]
  push_cast
  split_ifs <;> omega

/-- Phase 2: the padded bytes, unless the chunk count does not fit. -/
theorem executeRehydrationDownload_sent {P : Primitives} {chunked : ChunkedMedia} {asset : MediaAsset}
    {kAsset : KeyMaterial} {padded : Bytes} {state : MediaState}
    (hseals : chunked.Seals P kAsset asset.blobId.asBytes .media defaultChunkSize padded) (htag : AppendsTag P)
    (hcount : asset.chunkCount = Int.bmod chunked.chunkCount (2 ^ 32)) (hsink : asset.storageSink = "kchat_backend")
    (hkey : asset.wrappedKAsset = wrapKAsset P kAsset wrappingKey)
    (hserves : Serves fetch asset.blobId.toText (blobOf chunked.sealedChunks)) :
    executeRehydrationDownload P (planOf asset chunked.merkleRoot state) fetch wrappingKey =
      if chunked.chunkCount < 2 ^ 31 then .ok padded
      else .error (.storageMsg "download_chunked_media: chunk_count must be at least 1") := by
  have hplan : (planOf asset chunked.merkleRoot state).chunkCount =
      if chunked.chunkCount < 2 ^ 31 then chunked.chunkCount else 0 := by
    rw [← toNat_bmod_chunkCount hseals.count_le, ← hcount]
    rfl
  have hunwrap : unwrapKAsset P (planOf asset chunked.merkleRoot state).wrappedKAsset wrappingKey = .ok kAsset := by
    show unwrapKAsset P asset.wrappedKAsset wrappingKey = _
    rw [hkey, unwrapKAsset_wrapKAsset]
  rw [executeRehydrationDownload_backend hunwrap hsink, hplan]
  by_cases hlt : chunked.chunkCount < 2 ^ 31
  · rw [if_pos hlt, if_pos hlt]
    exact download_sealed hseals htag hserves
  · rw [if_neg hlt, if_neg hlt]
    unfold downloadChunkedMedia
    rw [if_neg (by simp [Uuid.toText]), if_pos rfl]

/-- The padded bytes of an asset can be counted. -/
theorem length_sealed_lt {P : Primitives} {chunked : ChunkedMedia} {kAsset : KeyMaterial} {blobId padded : Bytes}
    {blobClass : BlobClass} (hseals : chunked.Seals P kAsset blobId blobClass defaultChunkSize padded) :
    padded.length < 2 ^ 63 := by
  have hlen := length_le_pieces_mul hseals.size_pos padded
  have hcount : pieces defaultChunkSize padded ≤ 2 ^ 32 - 1 := hseals.covers.trans hseals.count_le
  have hmul : pieces defaultChunkSize padded * defaultChunkSize ≤ (2 ^ 32 - 1) * (16 * 1024 * 1024) :=
    Nat.mul_le_mul_right _ hcount
  norm_num at hmul
  omega

/-- **What the phases read and download** of a media that was sent, and moved away. -/
structure PhasesOf (F : Platform) (send : MediaSend) (wrappingKey : KeyMaterial) (fetch : FetchBlobRange)
    (processed : MediaProcessResult) (stored : LocalStoreDb) (state : MediaState) (now : Int) : Prop where
  away : state = .evicted ∨ state = .remoteOriginal
  attached : Attached stored (send.asset processed.descriptor) state
  read : readAsset stored send.messageId =
    .ok (some (planOf (send.asset processed.descriptor) processed.chunked.merkleRoot state,
      some (mlMetaOf (send.asset processed.descriptor) (send.skeleton now))))
  download : executeRehydrationDownload F.primitives
    (planOf (send.asset processed.descriptor) processed.chunked.merkleRoot state) fetch wrappingKey =
      if processed.chunked.chunkCount < 2 ^ 31 then .ok (padToSizeClass send.plaintext)
      else .error (.storageMsg "download_chunked_media: chunk_count must be at least 1")
  countable : (padToSizeClass send.plaintext).length < 2 ^ 63

theorem SentAway.phases (h : SentAway F send wrappingKey fetch assetId processed stored) (htag : AppendsTag F.primitives) :
    ∃ state now, PhasesOf F send wrappingKey fetch processed stored state now := by
  obtain ⟨kAsset, blobId, hprocess⟩ := h.chunks
  obtain ⟨db, now, sentDb, moves, hsend, hmoves⟩ := h.sent
  obtain ⟨row, hrow, haway⟩ := h.away
  obtain ⟨hseals, rfl, rfl, -, hkey, hsink⟩ := processMedia_eq_ok hprocess
  rw [if_pos rfl] at hseals
  obtain ⟨descriptor, hdescriptor, hattached, hskel⟩ := sendMedia_attached hsend
  obtain rfl := Except.ok.inj hdescriptor
  obtain ⟨⟨state, hstored⟩, hskeletons⟩ := moveMedia_spec hattached hmoves
  have hstate : row = { send.asset processed.descriptor with mediaState := state } := Option.some.inj (hrow.symm.trans hstored.1)
  have haway' : state = .evicted ∨ state = .remoteOriginal := by
    rw [hstate] at haway
    exact haway
  rw [← hskeletons] at hskel
  have hbackend : (send.asset processed.descriptor).storageSink = "kchat_backend" := by
    show processed.descriptor.storageSink.getD "kchat_backend" = _
    rw [hsink]
    rfl
  have hcount : (send.asset processed.descriptor).chunkCount = Int.bmod processed.chunked.chunkCount (2 ^ 32) := by
    unfold MediaSend.asset MediaDescriptor.asset
    dsimp only [MediaProcessResult.chunked]
  exact ⟨state, now, haway', hstored, readAsset_attached processed.chunked.merkleRoot hstored hskel haway' rfl,
    executeRehydrationDownload_sent hseals htag hcount hbackend hkey h.served, length_sealed_lt hseals⟩

/-- **A rehydration returns the padded bytes**, counts them and hands them to the bridges. -/
theorem rehydrate_returns_padded (h : SentAway F send wrappingKey fetch assetId processed stored)
    (htag : AppendsTag F.primitives) :
    let out := rehydrateMediaForMessage F stored fetch send.messageId wrappingKey
    let padded := padToSizeClass send.plaintext
    if processed.descriptor.chunkCount < 2 ^ 31 then
      out.result = .ok (some padded) ∧ out.bridged = some padded ∧
        ∃ asset, out.db.getMediaAsset assetId = some asset ∧ asset.mediaState = .originalLocal ∧
          asset.bytesLocal = padded.length ∧ asset.bytesTotal = wrapI64 send.plaintext.length
    else
      out.result = .error (.storageMsg "download_chunked_media: chunk_count must be at least 1") ∧ out.bridged = none ∧
        out.db = stored := by
  obtain ⟨kAsset, blobId, hprocess⟩ := h.chunks
  obtain ⟨state, now, hphases⟩ := h.phases htag
  obtain ⟨-, rfl, -, hbytes, -⟩ := processMedia_eq_ok hprocess
  intro out padded
  change if processed.chunked.chunkCount < 2 ^ 31 then _ else _
  have hout : out = rehydrateMediaForMessage F stored fetch send.messageId wrappingKey := rfl
  unfold rehydrateMediaForMessage at hout
  rw [hphases.read] at hout
  simp only at hout
  rw [hphases.download] at hout
  -- the count is read back as a signed 32-bit number
  by_cases hlt : processed.chunked.chunkCount < 2 ^ 31
  · rw [if_pos hlt]
    obtain ⟨committed, hcommit, -, hasset⟩ := commitRehydration_attached hphases.attached hphases.away hphases.countable
    rw [if_pos hlt] at hout
    simp only at hout
    have hcommit' : commitRehydration stored (planOf (send.asset processed.descriptor) processed.chunked.merkleRoot
        state).assetId state (padToSizeClass send.plaintext).length = .ok committed := hcommit
    have hfrom : (planOf (send.asset processed.descriptor) processed.chunked.merkleRoot state).fromState = state := rfl
    rw [hfrom, hcommit'] at hout
    rw [hout]
    refine ⟨rfl, rfl, { send.asset processed.descriptor with
      mediaState := .originalLocal, bytesLocal := (padToSizeClass send.plaintext).length }, ?_, rfl, rfl, ?_⟩
    · show (indexRehydrated F committed _ _).getMediaAsset _ = _
      unfold LocalStoreDb.getMediaAsset
      rw [indexRehydrated_assets]
      exact hasset
    · unfold MediaSend.asset MediaDescriptor.asset
      dsimp only
      rw [hbytes]
  · rw [if_neg hlt]
    rw [if_neg hlt] at hout
    rw [hout]
    exact ⟨rfl, rfl, rfl⟩

/-- **A rehydration never returns, counts or hands on the bytes that were sent.** -/
theorem rehydration_never_round_trips (h : SentAway F send wrappingKey fetch assetId processed stored)
    (htag : AppendsTag F.primitives) :
    let out := rehydrateMediaForMessage F stored fetch send.messageId wrappingKey
    out.result ≠ .ok (some send.plaintext) ∧ ¬ LocalInFull out.db assetId ∧ out.bridged ≠ some send.plaintext := by
  have hout := rehydrate_returns_padded h htag
  -- padding always adds a byte at least
  have hlonger := lt_length_padToSizeClass send.plaintext
  have hne : padToSizeClass send.plaintext ≠ send.plaintext := by
    intro heq
    rw [heq] at hlonger
    omega
  intro out
  by_cases hlt : processed.descriptor.chunkCount < 2 ^ 31
  · simp only [if_pos hlt] at hout
    obtain ⟨hresult, hbridged, asset, hasset, -, hlocal, htotal⟩ := hout
    refine ⟨?_, ?_, ?_⟩
    · intro hok
      exact hne (Option.some.inj (Except.ok.inj (hresult.symm.trans hok)))
    · rintro ⟨row, hrow, -, hfull⟩
      obtain rfl : asset = row := Option.some.inj (hasset.symm.trans hrow)
      -- a size that was sealed fits, so the row counts it rightly
      have hcounted : (padToSizeClass send.plaintext).length < 2 ^ 63 := by
        obtain ⟨kAsset, blobId, hprocess⟩ := h.chunks
        exact length_sealed_lt (processMedia_eq_ok hprocess).1
      rw [hlocal, htotal] at hfull
      unfold wrapI64 at hfull
      rw [Int.bmod_eq_of_le (by omega) (by omega)] at hfull
      omega
    · intro hsame
      exact hne (Option.some.inj (hbridged.symm.trans hsame))
  · simp only [if_neg hlt] at hout
    obtain ⟨hresult, hbridged, hdb⟩ := hout
    obtain ⟨asset, hasset, haway⟩ := h.away
    refine ⟨?_, ?_, ?_⟩
    · intro hok
      exact absurd (hresult.symm.trans hok) (by simp)
    · rintro ⟨row, hrow, hlocal, -⟩
      rw [hdb, hasset] at hrow
      obtain rfl := Option.some.inj hrow
      rw [hlocal] at haway
      exact absurd haway (by simp)
    · intro hsome
      exact absurd (hbridged.symm.trans hsome) (by simp)

/-- A transport that holds one blob. -/
def holding (blobId : IdText) (blob : Bytes) : FetchBlobRange := fun id start stop =>
  if id = blobId then .ok ((blob.drop start).take (stop - start)) else .error (.transport (.network "blob not found"))

theorem holding_serves (blobId : IdText) (blob : Bytes) : Serves (holding blobId blob) blobId blob := by
  intro start stop
  exact if_pos rfl

/-- Whatever is sent can be evicted. -/
theorem sentAway_of_lands {db : LocalStoreDb} {kAsset : KeyMaterial} {blobId : Uuid}
    (hprocess : processMedia F.primitives send.plaintext send.mimeType wrappingKey .media true kAsset assetId blobId =
      .ok processed) (hlands : send.Lands (.ok processed.descriptor) db) :
    ∃ stored sentDb, SentAway F send wrappingKey (holding processed.descriptor.blobId.toText (blobOf processed.sealedChunks))
      assetId processed stored ∧ sendMedia F db send (.ok processed.descriptor) 0 = .ok sentDb ∧
        stored.skeletons = sentDb.skeletons := by
  obtain ⟨-, rfl, -⟩ := processMedia_eq_ok hprocess
  obtain ⟨sentDb, hsend⟩ := (sendMedia_isOk_iff F 0).mpr hlands
  obtain ⟨descriptor, hdescriptor, hattached, -⟩ := sendMedia_attached hsend
  obtain rfl := Except.ok.inj hdescriptor
  have hlocal : Attached (sentDb.updateMediaState processed.descriptor.assetId .originalLocal)
      (send.asset processed.descriptor) .originalLocal := hattached.updateMediaState
  have hevicted : Attached ((sentDb.updateMediaState processed.descriptor.assetId .originalLocal).updateMediaState
      processed.descriptor.assetId .evicted) (send.asset processed.descriptor) .evicted := hlocal.updateMediaState
  refine ⟨_, sentDb, ⟨⟨kAsset, blobId, hprocess⟩, holding_serves _ _, ⟨db, 0, sentDb,
    [(.thumbnailOnly, .originalLocal), (.originalLocal, .evicted)], hsend, ?_⟩, ⟨_, hevicted.1, .inl rfl⟩⟩, hsend, rfl⟩
  exact except_bind_eq_ok.mpr ⟨_, transitionMediaState_eq_ok.mpr ⟨rfl, ⟨_, hattached.1, rfl⟩, rfl⟩,
    except_bind_eq_ok.mpr ⟨_, transitionMediaState_eq_ok.mpr ⟨rfl, ⟨_, hlocal.1, rfl⟩, rfl⟩, rfl⟩⟩

end Rehydration

/-- A platform whose AEAD appends a tag. -/
def taggingPlatform : Platform := { Platform.bare with primitives := tagging }

/-- Two bytes, sent as an image. -/
def hiImage : MediaSend := ⟨⟨1⟩, ⟨2⟩, utf8 "hi", "image/png", none⟩

theorem hiImage_stored : ∃ fetch processed stored sentDb,
    SentAway taggingPlatform hiImage (ByteArr.zeros 32) fetch ⟨3⟩ processed stored ∧
      processed.descriptor.chunkCount < 2 ^ 31 ∧
      sendMedia taggingPlatform (.fresh oneConversation) hiImage (.ok processed.descriptor) 0 = .ok sentDb ∧
      stored.skeletons = sentDb.skeletons := by
  have hone : totalChunks defaultChunkSize (if true then padToSizeClass hiImage.plaintext else hiImage.plaintext) = 1 := by
    decide +kernel
  obtain ⟨processed, hprocess, hcount⟩ := processMedia_of_countable (ByteArr.zeros 32) ⟨3⟩ ⟨4⟩ (hone.trans_le (by decide))
  have hlands : hiImage.Lands (.ok processed.descriptor) (.fresh oneConversation) :=
    ⟨by decide +kernel, by decide +kernel, by decide, by decide, _, rfl, rfl⟩
  obtain ⟨stored, sentDb, haway, hsend, hskeletons⟩ : ∃ stored sentDb,
      SentAway taggingPlatform hiImage _ _ ⟨3⟩ processed stored ∧ _ := sentAway_of_lands hprocess hlands
  exact ⟨_, processed, stored, sentDb, haway, by rw [hcount, hone]; decide, hsend, hskeletons⟩

theorem hiImage_sentAway : ∃ fetch processed stored,
    SentAway taggingPlatform hiImage (ByteArr.zeros 32) fetch ⟨3⟩ processed stored ∧
      processed.descriptor.chunkCount < 2 ^ 31 := by
  obtain ⟨fetch, processed, stored, sentDb, haway, hcount, -⟩ := hiImage_stored
  exact ⟨fetch, processed, stored, haway, hcount⟩

theorem hiImage_never_round_trips : ∃ fetch processed stored,
    SentAway taggingPlatform hiImage (ByteArr.zeros 32) fetch ⟨3⟩ processed stored ∧
      (rehydrateMediaForMessage taggingPlatform stored fetch hiImage.messageId (ByteArr.zeros 32)).result ≠
        .ok (some hiImage.plaintext) := by
  obtain ⟨fetch, processed, stored, haway, -⟩ := hiImage_sentAway
  exact ⟨fetch, processed, stored, haway, (rehydration_never_round_trips haway tagging_appendsTag).1⟩

/-- Two bytes were sent, a kilobyte comes back. -/
theorem hiImage_comes_back_padded : ∃ fetch processed stored,
    SentAway taggingPlatform hiImage (ByteArr.zeros 32) fetch ⟨3⟩ processed stored ∧
      ∃ bytes, (rehydrateMediaForMessage taggingPlatform stored fetch hiImage.messageId (ByteArr.zeros 32)).result =
        .ok (some bytes) ∧ bytes.length = 1024 ∧ bytes ≠ hiImage.plaintext := by
  obtain ⟨fetch, processed, stored, haway, hcount⟩ := hiImage_sentAway
  have hout := rehydrate_returns_padded haway tagging_appendsTag
  simp only [if_pos hcount] at hout
  exact ⟨fetch, processed, stored, haway, _, hout.1, by decide +kernel, by decide +kernel⟩

end KChatCore.Media
