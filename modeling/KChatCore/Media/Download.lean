import KChatCore.Media.Processor

/-!
# `Media.Download` — fetching an asset back, chunk by chunk

`downloadChunkedMedia` reads one range of the blob for each chunk, opens it under the AAD rebuilt from the row, and checks
the root of the whole. What it returns is what was sealed: nothing takes a padding off. A rehydration is three phases,
only the first and the last of which touch the store.

* `download_sealed` — what was sealed under the blob id is what comes back.
* `commitRehydration_attached` — what the last phase leaves of the asset.
-/

namespace KChatCore.Media

open Lib LocalStore Message

/-- `TransportClient::fetch_blob_range`: a blob, from where, up to where. -/
abbrev FetchBlobRange := IdText → Nat → Nat → Except Error Bytes

/-- `chunk_range`. -/
def chunkRange (chunkIdx : Nat) : Nat × Nat :=
  let start := chunkIdx * defaultChunkCiphertextSize
  (start, start + defaultChunkCiphertextSize)

/-- `{blob_id:?}`. -/
def quoted : IdText → String
  | .uuid u => "\"" ++ u.hyphenated ++ "\""
  | .malformed s => "\"" ++ s ++ "\""

/-- `blob_id_to_aad_bytes`. -/
def blobIdToAadBytes (blobId : IdText) : Except Error Bytes :=
  match Uuid.parseStr blobId with
  | some u => .ok u.asBytes
  | none => .error (.storageMsg ("download: blob_id " ++ quoted blobId ++ " is not a valid UUID"))

/-- The AAD, the nonce and the open of a chunk. -/
def openChunk (P : Primitives) (blobIdBytes : Bytes) (chunkCount : Nat) (merkleRoot : ByteArr 32) (kAsset : KeyMaterial)
    (blobClass : BlobClass) (chunkIdx : Nat) (ciphertext : Bytes) : Except Error Bytes :=
  let aad := buildKchatChunkAad blobIdBytes blobClass chunkIdx chunkCount merkleRoot
  match P.aeadOpen kAsset (chunkNonce chunkIdx) ciphertext aad with
  | some pt => .ok pt
  | none => .error (.crypto (.aead "xchacha20-poly1305 open failed"))

/-- One turn of the loop of `download_chunked_media`. -/
def downloadChunk (P : Primitives) (fetch : FetchBlobRange) (blobId : IdText) (blobIdBytes : Bytes) (chunkCount : Nat)
    (merkleRoot : ByteArr 32) (kAsset : KeyMaterial) (blobClass : BlobClass) (chunkIdx : Nat) : Except Error Bytes := do
  let ciphertext ← fetch blobId (chunkRange chunkIdx).1 (chunkRange chunkIdx).2
  if ciphertext.isEmpty then
    .error (.storageMsg ("download_chunked_media: chunk " ++ toString chunkIdx ++ " returned an empty range"))
  else openChunk P blobIdBytes chunkCount merkleRoot kAsset blobClass chunkIdx ciphertext

/-- The loop of `download_chunked_media` and of `verify_and_decrypt`, over the chunks that are left. -/
def downloadLoop {α : Type} (download : α → Except Error Bytes) : List α → Bytes → Except Error Bytes
  | [], plaintext => .ok plaintext
  | a :: rest, plaintext => do
      let pt ← download a
      downloadLoop download rest (plaintext ++ pt)

/-- `download_chunked_media`. -/
def downloadChunkedMedia (P : Primitives) (fetch : FetchBlobRange) (blobId : IdText) (chunkCount : Nat)
    (expectedMerkleRoot : ByteArr 32) (kAsset : KeyMaterial) (blobClass : BlobClass) : Except Error Bytes :=
  if blobId = .malformed "" then .error (.storageMsg "download_chunked_media: blob_id must be non-empty")
  else if chunkCount = 0 then .error (.storageMsg "download_chunked_media: chunk_count must be at least 1")
  else do
    let blobIdBytes ← blobIdToAadBytes blobId
    let plaintext ← downloadLoop
      (downloadChunk P fetch blobId blobIdBytes chunkCount expectedMerkleRoot kAsset blobClass) (List.range chunkCount) []
    if P.contentHash plaintext ≠ expectedMerkleRoot then
      .error (.storageMsg "download_chunked_media: whole-object BLAKE3 root mismatch")
    else .ok plaintext

/-- `verify_and_decrypt`. -/
def verifyAndDecrypt (P : Primitives) (sealedChunks : List SealedChunk) (expectedMerkleRoot : ByteArr 32)
    (kAsset : KeyMaterial) (blobId : Bytes) (blobClass : BlobClass) : Except Error Bytes :=
  if sealedChunks.isEmpty then
    .error (.storageMsg "verify_and_decrypt: sealed_chunks must contain at least one chunk")
  else if u32Max < sealedChunks.length then
    .error (.storageMsg "verify_and_decrypt: chunk_count exceeds u32::MAX")
  else
    match sealedChunks.zipIdx.find? fun c => P.sha256 c.1.ciphertext ≠ c.1.chunkSha256 with
    | some c => .error (.storageMsg ("verify_and_decrypt: chunk " ++ toString c.2 ++ " ciphertext SHA-256 mismatch"))
    | none => do
        let plaintext ← downloadLoop (fun c => openChunk P blobId sealedChunks.length expectedMerkleRoot kAsset blobClass
          c.2 c.1.ciphertext) sealedChunks.zipIdx []
        if P.contentHash plaintext ≠ expectedMerkleRoot then
          .error (.storageMsg "verify_and_decrypt: whole-object BLAKE3 root mismatch")
        else .ok plaintext

section Download

variable {P : Primitives} {fetch : FetchBlobRange} {kAsset : KeyMaterial} {blobClass : BlobClass} {plaintext padded : Bytes}

/-- The loop puts the pieces together in order. -/
theorem downloadLoop_of_ok {α : Type} {download : α → Except Error Bytes} {piece : α → Bytes} {as : List α} {acc : Bytes}
    (h : ∀ a ∈ as, download a = .ok (piece a)) : downloadLoop download as acc = .ok (acc ++ as.flatMap piece) := by
  induction as generalizing acc with
  | nil => simp [downloadLoop]
  | cons a as ih =>
      have hrest : ∀ b ∈ as, download b = .ok (piece b) := fun b hb => h b (List.mem_cons_of_mem a hb)
      unfold downloadLoop
      rw [h a List.mem_cons_self]
      show downloadLoop download as (acc ++ piece a) = _
      rw [ih hrest, List.flatMap_cons, List.append_assoc]

/-- A loop that gets through has downloaded every chunk. -/
theorem downloadLoop_eq_ok {α : Type} {download : α → Except Error Bytes} {as : List α} {acc result : Bytes}
    (h : downloadLoop download as acc = .ok result) : ∀ a ∈ as, ∃ pt, download a = .ok pt := by
  induction as generalizing acc with
  | nil => intro a ha; exact absurd ha List.not_mem_nil
  | cons b as ih =>
      obtain ⟨pt, hpt, hrest⟩ := except_bind_eq_ok.mp h
      intro a ha
      obtain rfl | ha := List.mem_cons.mp ha
      · exact ⟨pt, hpt⟩
      · exact ih hrest a ha

/-- A sealed chunk opens to its piece. -/
theorem openChunk_sealed (chunked : ChunkedMedia) {blobId : Bytes} {n : Nat} (i : Nat) :
    openChunk P blobId chunked.chunkCount chunked.merkleRoot kAsset blobClass i
      (chunked.ciphertext P kAsset blobId blobClass n padded i) = .ok (chunk n padded i) := by
  unfold openChunk
  rw [← ChunkedMedia.aad]
  simp only [ChunkedMedia.opens]

/-- **A transport that serves a blob**: the bytes of a range, cut off at the end. -/
def Serves (fetch : FetchBlobRange) (blobId : IdText) (blob : Bytes) : Prop :=
  ∀ start stop, fetch blobId start stop = .ok ((blob.drop start).take (stop - start))

/-- The range of a chunk holds the chunk. -/
theorem Serves.chunkRange {blobId : IdText} {blob : Bytes} (h : Serves fetch blobId blob) (i : Nat) :
    fetch blobId (chunkRange i).1 (chunkRange i).2 = .ok (chunk defaultChunkCiphertextSize blob i) := by
  have hlen : (Media.chunkRange i).2 - (Media.chunkRange i).1 = defaultChunkCiphertextSize := by
    simp only [Media.chunkRange]
    omega
  rw [h, hlen]
  rfl

/-- A sealed chunk is not empty. -/
theorem ciphertext_nonempty (htag : AppendsTag P) (chunked : ChunkedMedia) (blobId : Bytes) (n i : Nat) :
    (chunked.ciphertext P kAsset blobId blobClass n padded i).isEmpty = false := by
  have hlen : (chunked.ciphertext P kAsset blobId blobClass n padded i).length = _ := htag _ _ _ _
  rw [List.isEmpty_eq_false_iff, ← List.length_pos_iff, hlen]
  unfold tagLen
  omega

/-- **What was sealed under a blob id comes back from it**, as it was sealed. -/
theorem download_sealed {blobId : Uuid} {chunked : ChunkedMedia}
    (hseals : chunked.Seals P kAsset blobId.asBytes blobClass defaultChunkSize padded) (htag : AppendsTag P)
    (hserves : Serves fetch blobId.toText (blobOf chunked.sealedChunks)) :
    downloadChunkedMedia P fetch blobId.toText chunked.chunkCount chunked.merkleRoot kAsset blobClass = .ok padded := by
  have hchunk : ∀ i ∈ List.range chunked.chunkCount,
      downloadChunk P fetch blobId.toText blobId.asBytes chunked.chunkCount chunked.merkleRoot kAsset blobClass i =
        .ok (chunk defaultChunkSize padded i) := by
    intro i hi
    unfold downloadChunk
    rw [hserves.chunkRange, defaultChunkCiphertextSize, hseals.at_offset htag (List.mem_range.mp hi)]
    show (if _ = true then _ else _) = _
    rw [if_neg (by rw [ciphertext_nonempty htag]; exact Bool.false_ne_true)]
    exact openChunk_sealed chunked i
  have hpos := hseals.count_pos
  unfold downloadChunkedMedia
  rw [if_neg (by simp [Uuid.toText]), if_neg (by omega)]
  show downloadLoop _ _ _ >>= _ = _
  rw [downloadLoop_of_ok hchunk, List.nil_append, hseals.pieces_eq]
  show (if _ then _ else _) = _
  rw [if_neg (by simp [hseals.root])]

/-- The chunks with their positions. -/
theorem ChunkedMedia.Seals.zipIdx {chunked : ChunkedMedia} {blobId : Bytes} {n : Nat}
    (h : chunked.Seals P kAsset blobId blobClass n padded) :
    chunked.sealedChunks.zipIdx = (List.range chunked.chunkCount).map fun i =>
      (⟨chunked.ciphertext P kAsset blobId blobClass n padded i,
        P.sha256 (chunked.ciphertext P kAsset blobId blobClass n padded i)⟩, i) := by
  rw [h.chunks]
  apply List.ext_getElem
  · simp
  · intro i _ _
    simp only [List.getElem_zipIdx, List.getElem_map, List.getElem_range, Nat.zero_add]
    rfl

/-- **What was sealed is verified and decrypted.** -/
theorem verifyAndDecrypt_sealed {chunked : ChunkedMedia} {blobId : Bytes} {n : Nat}
    (h : chunked.Seals P kAsset blobId blobClass n padded) :
    verifyAndDecrypt P chunked.sealedChunks chunked.merkleRoot kAsset blobId blobClass = .ok padded := by
  have hpos := h.count_pos
  have hcount := h.count_le
  have hlen := h.length_sealedChunks
  have hne : chunked.sealedChunks.isEmpty = false := by
    rw [List.isEmpty_eq_false_iff, ← List.length_pos_iff, hlen]
    exact hpos
  have hsha : (chunked.sealedChunks.zipIdx.find? fun c => P.sha256 c.1.ciphertext ≠ c.1.chunkSha256) = none := by
    rw [h.zipIdx, List.find?_eq_none]
    intro c hc
    obtain ⟨i, -, rfl⟩ := List.mem_map.mp hc
    simp
  have hopen : ∀ c ∈ chunked.sealedChunks.zipIdx, openChunk P blobId chunked.sealedChunks.length chunked.merkleRoot kAsset
      blobClass c.2 c.1.ciphertext = .ok (chunk n padded c.2) := by
    rw [h.zipIdx, hlen]
    intro c hc
    obtain ⟨i, -, rfl⟩ := List.mem_map.mp hc
    exact openChunk_sealed chunked i
  have hpieces : chunked.sealedChunks.zipIdx.flatMap (fun c => chunk n padded c.2) = padded := by
    rw [h.zipIdx, List.flatMap_map]
    exact h.pieces_eq
  unfold verifyAndDecrypt
  rw [hne, if_neg Bool.false_ne_true, if_neg (by omega), hsha]
  show downloadLoop _ _ _ >>= _ = _
  rw [downloadLoop_of_ok hopen, List.nil_append, hpieces]
  show (if _ then _ else _) = _
  rw [if_neg (by simp [h.root])]

/-- What is decrypted was opened chunk by chunk. -/
theorem openChunk_of_verifyAndDecrypt {chunked : ChunkedMedia} {blobId id : Bytes} {n : Nat} {result : Bytes}
    (hseals : chunked.Seals P kAsset blobId blobClass n padded)
    (h : verifyAndDecrypt P chunked.sealedChunks chunked.merkleRoot kAsset id blobClass = .ok result) :
    ∃ pt, openChunk P id chunked.chunkCount chunked.merkleRoot kAsset blobClass 0
      (chunked.ciphertext P kAsset blobId blobClass n padded 0) = .ok pt := by
  unfold verifyAndDecrypt at h
  by_cases hempty : chunked.sealedChunks.isEmpty = true
  · rw [if_pos hempty] at h
    exact absurd h (by simp)
  rw [if_neg hempty] at h
  by_cases hlong : u32Max < chunked.sealedChunks.length
  · rw [if_pos hlong] at h
    exact absurd h (by simp)
  rw [if_neg hlong] at h
  cases hsha : chunked.sealedChunks.zipIdx.find? fun c => P.sha256 c.1.ciphertext ≠ c.1.chunkSha256 with
  | some c =>
      rw [hsha] at h
      exact absurd h (by simp)
  | none =>
      rw [hsha] at h
      obtain ⟨plaintext, hloop, -⟩ := except_bind_eq_ok.mp h
      have hfirst := downloadLoop_eq_ok hloop (⟨chunked.ciphertext P kAsset blobId blobClass n padded 0, _⟩, 0) (by
        rw [hseals.zipIdx]
        exact List.mem_map.mpr ⟨0, List.mem_range.mpr hseals.count_pos, rfl⟩)
      rw [hseals.length_sealedChunks] at hfirst
      exact hfirst

end Download

/-! ## The three phases -/

/-- `RehydrationPlan`. -/
structure RehydrationPlan where
  assetId : Uuid
  blobId : Uuid
  storageSink : String
  chunkCount : Nat
  merkleRoot : ByteArr 32
  wrappedKAsset : Bytes
  fromState : MediaState
deriving DecidableEq

/-- The variant's name: the derived `Debug`. -/
def debugMediaState : MediaState → String
  | .thumbnailOnly => "ThumbnailOnly"
  | .originalLocal => "OriginalLocal"
  | .remoteOriginal => "RemoteOriginal"
  | .downloadInProgress => "DownloadInProgress"
  | .evicted => "Evicted"
  | .deleted => "Deleted"

/-- `prepare_rehydration`. -/
def prepareRehydration (db : LocalStoreDb) (assetId : Uuid) : Except Error RehydrationPlan :=
  match db.getMediaAsset assetId with
  | none => .error (.storageMsg ("rehydrate_media_asset: no media_asset row for " ++ assetId.hyphenated))
  | some row =>
      if row.mediaState = .originalLocal then
        .error (.storageMsg ("rehydrate_media_asset: asset " ++ assetId.hyphenated ++ " is already original_local"))
      else if row.mediaState ≠ .evicted ∧ row.mediaState ≠ .remoteOriginal then
        .error (.storageMsg ("rehydrate_media_asset: asset " ++ assetId.hyphenated ++ " in state " ++
          debugMediaState row.mediaState ++ " cannot rehydrate"))
      else if hroot : row.merkleRoot.length = 32 then
        .ok ⟨row.assetId, row.blobId, row.storageSink, row.chunkCount.toNat, ⟨row.merkleRoot, hroot⟩, row.wrappedKAsset,
          row.mediaState⟩
      else
        .error (.storageMsg ("rehydrate_media_asset: merkle_root for " ++ assetId.hyphenated ++ " is " ++
          toString row.merkleRoot.length ++ " bytes (expected 32)"))

/-- `execute_rehydration_download`. -/
def executeRehydrationDownload (P : Primitives) (plan : RehydrationPlan) (fetch : FetchBlobRange)
    (wrappingKey : KeyMaterial) : Except Error Bytes := do
  let kAsset ← (unwrapKAsset P plan.wrappedKAsset wrappingKey).mapError Error.crypto
  if plan.storageSink = "kchat_backend" then
    downloadChunkedMedia P fetch plan.blobId.toText plan.chunkCount plan.merkleRoot kAsset .media
  else if plan.storageSink ∈ ["icloud", "google_drive", "zk_object_fabric"] then
    .error (.notImplemented "rehydrate_media_asset: MediaBlobSink rehydration")
  else .error (.storageMsg ("rehydrate_media_asset: unknown storage_sink \"" ++ plan.storageSink ++ "\""))

/-- `commit_rehydration`: one savepoint, so a failure leaves the store as it was. -/
def commitRehydration (db : LocalStoreDb) (assetId : Uuid) (fromState : MediaState) (plaintextLen : Nat) :
    Except Error LocalStoreDb := do
  let db ← transitionMediaState db assetId fromState .downloadInProgress
  let db ← transitionMediaState db assetId .downloadInProgress .originalLocal
  if 2 ^ 63 ≤ plaintextLen then
    .error (.storageMsg ("rehydrate_media_asset: plaintext_len " ++ toString plaintextLen ++ " does not fit in i64"))
  else return db.updateBytesLocal assetId plaintextLen

/-! ## What the phases do -/

section Phases

variable {db db' : LocalStoreDb} {assetId : Uuid}

/-- **When a plan is made**: the original is away, and the root is a root. -/
theorem prepareRehydration_eq_ok {plan : RehydrationPlan} (h : prepareRehydration db assetId = .ok plan) :
    ∃ row, db.getMediaAsset assetId = some row ∧ (row.mediaState = .evicted ∨ row.mediaState = .remoteOriginal) ∧
      plan.assetId = row.assetId ∧ plan.fromState = row.mediaState := by
  unfold prepareRehydration at h
  cases hget : db.getMediaAsset assetId with
  | none =>
      rw [hget] at h
      exact absurd h (by simp)
  | some row =>
      rw [hget] at h
      simp only at h
      by_cases hlocal : row.mediaState = .originalLocal
      · rw [if_pos hlocal] at h
        exact absurd h (by simp)
      · rw [if_neg hlocal] at h
        by_cases haway : row.mediaState ≠ .evicted ∧ row.mediaState ≠ .remoteOriginal
        · rw [if_pos haway] at h
          exact absurd h (by simp)
        · rw [if_neg haway] at h
          by_cases hroot : row.merkleRoot.length = 32
          · rw [dif_pos hroot] at h
            obtain rfl := Except.ok.inj h
            exact ⟨row, rfl, by tauto, rfl, rfl⟩
          · rw [dif_neg hroot] at h
            exact absurd h (by simp)

/-- **The plan of a row** whose original is away. -/
theorem prepareRehydration_of_away {row : MediaAsset} (hget : db.getMediaAsset assetId = some row)
    (haway : row.mediaState = .evicted ∨ row.mediaState = .remoteOriginal) (hroot : row.merkleRoot.length = 32) :
    prepareRehydration db assetId = .ok ⟨row.assetId, row.blobId, row.storageSink, row.chunkCount.toNat,
      ⟨row.merkleRoot, hroot⟩, row.wrappedKAsset, row.mediaState⟩ := by
  have hlocal : row.mediaState ≠ .originalLocal := by obtain h | h := haway <;> simp [h]
  have hleft : ¬ (row.mediaState ≠ .evicted ∧ row.mediaState ≠ .remoteOriginal) := by tauto
  unfold prepareRehydration
  rw [hget]
  simp only [hlocal, hleft, if_false, dif_pos hroot]

/-- A download from the backend, under the key that was unwrapped. -/
theorem executeRehydrationDownload_backend {P : Primitives} {plan : RehydrationPlan} {fetch : FetchBlobRange}
    {wrappingKey kAsset : KeyMaterial} (hkey : unwrapKAsset P plan.wrappedKAsset wrappingKey = .ok kAsset)
    (hsink : plan.storageSink = "kchat_backend") :
    executeRehydrationDownload P plan fetch wrappingKey =
      downloadChunkedMedia P fetch plan.blobId.toText plan.chunkCount plan.merkleRoot kAsset .media := by
  unfold executeRehydrationDownload
  rw [hkey]
  show (if _ then _ else _) = _
  rw [if_pos hsink]

/-- **What a committed rehydration leaves of the asset.** -/
theorem commitRehydration_attached {asset : MediaAsset} {state : MediaState} {n : Nat} (h : Attached db asset state)
    (haway : state = .evicted ∨ state = .remoteOriginal) (hn : n < 2 ^ 63) :
    ∃ db', commitRehydration db asset.assetId state n = .ok db' ∧ db'.skeletons = db.skeletons ∧
      db'.getMediaAsset asset.assetId = some { asset with mediaState := .originalLocal, bytesLocal := n } := by
  have hstart : state.legal .downloadInProgress = true := by obtain rfl | rfl := haway <;> rfl
  have h₁ : transitionMediaState db asset.assetId state .downloadInProgress =
      .ok (db.updateMediaState asset.assetId .downloadInProgress) :=
    transitionMediaState_eq_ok.mpr ⟨hstart, ⟨_, h.1, rfl⟩, rfl⟩
  have hprogress : Attached (db.updateMediaState asset.assetId .downloadInProgress) asset .downloadInProgress :=
    h.updateMediaState
  have h₂ : transitionMediaState (db.updateMediaState asset.assetId .downloadInProgress) asset.assetId
      .downloadInProgress .originalLocal =
      .ok ((db.updateMediaState asset.assetId .downloadInProgress).updateMediaState asset.assetId .originalLocal) :=
    transitionMediaState_eq_ok.mpr ⟨rfl, ⟨_, hprogress.1, rfl⟩, rfl⟩
  have hlocal : Attached ((db.updateMediaState asset.assetId .downloadInProgress).updateMediaState asset.assetId .originalLocal)
      asset .originalLocal := hprogress.updateMediaState
  refine ⟨_, ?_, ?_, (hlocal.updateAsset (fun r => { r with bytesLocal := n }) (fun _ => rfl) fun _ => rfl).1⟩
  · unfold commitRehydration
    rw [h₁]
    show transitionMediaState _ _ _ _ >>= _ = _
    rw [h₂]
    show (if _ then _ else _) = _
    rw [if_neg (by omega)]
    rfl
  · rfl

end Phases

end KChatCore.Media
