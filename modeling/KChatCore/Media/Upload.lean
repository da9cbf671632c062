import KChatCore.Media.Download

/-!
# `Media.Upload` — putting an asset on the server, and what the server makes of it

`uploadChunkedMedia` opens a session, pushes the chunks, commits, and compares the root the server answers with the one
the asset was sealed under. A `ConformingServer` mints the blob id, and answers the root over the ciphertext chunks it
received; the asset's root is over its plaintext, and its chunks are bound to the id the client drew.

* `uploadChunkedMedia_ok_iff` — when an upload succeeds.
* `download_under_other_id` — a blob under another id does not open.
* `upload_round_trips_iff` — when an uploaded asset can be downloaded again.
-/

namespace KChatCore.Media

open Lib LocalStore Message

/-- `ChunkReceipt`. -/
structure ChunkReceipt where
  chunkIdx : Nat
  sha256 : ByteArr 32
deriving DecidableEq

/-- `UploadResult`. -/
structure UploadResult where
  blobId : IdText
  merkleRoot : ByteArr 32
  serverMerkleRoot : ByteArr 32
deriving DecidableEq

/-- `TransportClient`, the part for blobs; a call returns what the client sees, and leaves the server in a state. -/
structure TransportClient (σ : Type) where
  initBlobUpload : σ → Nat → BlobClass → ByteArr 32 → Except Error IdText × σ
  uploadChunk : σ → IdText → Nat → Bytes → ByteArr 32 → Except Error ChunkReceipt × σ
  commitBlob : σ → IdText → Except Error (ByteArr 32) × σ
  fetchBlobRange : σ → FetchBlobRange

variable {σ : Type}

/-- The loop of `upload_chunked_media`, over the chunks from `idx` on. -/
def uploadChunks (T : TransportClient σ) (blobId : IdText) : List SealedChunk → Nat → σ → Except Error Unit × σ
  | [], _, s => (.ok (), s)
  | chunk :: rest, idx, s =>
      if u32Max < idx then (.error (.storageMsg "upload_chunked_media: chunk_idx exceeds u32::MAX"), s)
      else
        match T.uploadChunk s blobId idx chunk.ciphertext chunk.chunkSha256 with
        | (.error e, s) => (.error e, s)
        | (.ok receipt, s) =>
            if receipt.chunkIdx ≠ idx then
              (.error (.storageMsg ("upload_chunked_media: server echoed chunk_idx " ++ toString receipt.chunkIdx ++
                " for upload " ++ toString idx)), s)
            else if receipt.sha256 ≠ chunk.chunkSha256 then
              (.error (.storageMsg ("upload_chunked_media: server echoed mismatched SHA-256 for chunk " ++ toString idx)), s)
            else uploadChunks T blobId rest (idx + 1) s

/-- `total_size`. -/
def totalSize (sealedChunks : List SealedChunk) : Nat := (sealedChunks.map fun c => c.ciphertext.length).sum

/-- `upload_chunked_media`. -/
def uploadChunkedMedia (T : TransportClient σ) (sealedChunks : List SealedChunk) (merkleRoot : ByteArr 32)
    (blobClass : BlobClass) (s : σ) : Except Error UploadResult × σ :=
  if sealedChunks.isEmpty then
    (.error (.storageMsg "upload_chunked_media: sealed_chunks must contain at least one chunk"), s)
  else
    match T.initBlobUpload s (totalSize sealedChunks) blobClass merkleRoot with
    | (.error e, s) => (.error e, s)
    | (.ok blobId, s) =>
        match uploadChunks T blobId sealedChunks 0 s with
        | (.error e, s) => (.error e, s)
        | (.ok (), s) =>
            match T.commitBlob s blobId with
            | (.error e, s) => (.error e, s)
            | (.ok serverMerkleRoot, s) =>
                if serverMerkleRoot ≠ merkleRoot then
                  (.error (.storageMsg "upload_chunked_media: server-side BLAKE3 root mismatch on commit"), s)
                else (.ok ⟨blobId, merkleRoot, serverMerkleRoot⟩, s)

/-! ## The contract of the server -/

/-- An upload session: the chunks received so far, and the root that was announced. -/
structure UploadSession where
  chunks : List Bytes
  expectedMerkleRoot : ByteArr 32

/-- **A server that keeps the contract of `TransportClient`.** It mints the id, acknowledges each chunk, answers the root
over the ciphertext chunks (or rejects a commit that diverges from the announced root), and serves what it committed. -/
structure ConformingServer (P : Primitives) (rootOf : List Bytes → ByteArr 32) (σ : Type) extends TransportClient σ where
  session : σ → IdText → Option UploadSession
  init_ok : ∀ s size blobClass root, ∃ id s', initBlobUpload s size blobClass root = (.ok id, s') ∧
    session s' id = some ⟨[], root⟩
  upload_ok : ∀ s id up c, session s id = some up → ∃ s',
    uploadChunk s id up.chunks.length c (P.sha256 c) = (.ok ⟨up.chunks.length, P.sha256 c⟩, s') ∧
      session s' id = some ⟨up.chunks ++ [c], up.expectedMerkleRoot⟩
  commit_ok : ∀ s id up, session s id = some up → rootOf up.chunks = up.expectedMerkleRoot → ∃ s',
    commitBlob s id = (.ok (rootOf up.chunks), s') ∧ Serves (fetchBlobRange s') id up.chunks.flatten
  commit_root : ∀ s id up root s', session s id = some up → commitBlob s id = (.ok root, s') → root = rootOf up.chunks

section Upload

variable {P : Primitives} {rootOf : List Bytes → ByteArr 32} (T : ConformingServer P rootOf σ)

/-- **The chunks arrive in order.** -/
theorem uploadChunks_ok {id : IdText} {chunks : List SealedChunk} {s : σ} {up : UploadSession}
    (hsha : ∀ c ∈ chunks, c.chunkSha256 = P.sha256 c.ciphertext) (hsession : T.session s id = some up)
    (hcount : up.chunks.length + chunks.length ≤ u32Max) :
    ∃ s', uploadChunks T.toTransportClient id chunks up.chunks.length s = (.ok (), s') ∧
      T.session s' id = some ⟨up.chunks ++ chunks.map SealedChunk.ciphertext, up.expectedMerkleRoot⟩ := by
  induction chunks generalizing s up with
  | nil => exact ⟨s, rfl, by simpa using hsession⟩
  | cons c chunks ih =>
      have hc := hsha c List.mem_cons_self
      have hrest : ∀ c' ∈ chunks, c'.chunkSha256 = P.sha256 c'.ciphertext :=
        fun c' hc' => hsha c' (List.mem_cons_of_mem c hc')
      rw [List.length_cons] at hcount
      obtain ⟨s₁, hupload, hsession₁⟩ := T.upload_ok s id up c.ciphertext hsession
      have hlen : (up.chunks ++ [c.ciphertext]).length = up.chunks.length + 1 := by simp
      obtain ⟨s₂, hloop, hsession₂⟩ := ih hrest hsession₁ (by simp only [hlen]; omega)
      refine ⟨s₂, ?_, ?_⟩
      · unfold uploadChunks
        rw [if_neg (by omega), hc, hupload]
        simp only [ne_eq, not_true_eq_false, if_false]
        simp only [hlen] at hloop
        exact hloop
      · rw [hsession₂]
        simp

/-- The end of `upload_chunked_media`: the commit. -/
def commitUpload (T : TransportClient σ) (blobId : IdText) (merkleRoot : ByteArr 32) (s : σ) :
    Except Error UploadResult × σ :=
  match T.commitBlob s blobId with
  | (.error e, s) => (.error e, s)
  | (.ok serverMerkleRoot, s) =>
      if serverMerkleRoot ≠ merkleRoot then
        (.error (.storageMsg "upload_chunked_media: server-side BLAKE3 root mismatch on commit"), s)
      else (.ok ⟨blobId, merkleRoot, serverMerkleRoot⟩, s)

variable {chunks : List SealedChunk} {merkleRoot : ByteArr 32} {blobClass : BlobClass} {s s₁ s' : σ} {id : IdText}

/-- **Every upload gets to the commit**, with all chunks received. -/
theorem uploadChunkedMedia_commits (hsha : ∀ c ∈ chunks, c.chunkSha256 = P.sha256 c.ciphertext) (hne : chunks ≠ [])
    (hcount : chunks.length ≤ u32Max)
    (hinit : T.initBlobUpload s (totalSize chunks) blobClass merkleRoot = (.ok id, s₁)) :
    ∃ s₂, T.session s₂ id = some ⟨chunks.map SealedChunk.ciphertext, merkleRoot⟩ ∧
      uploadChunkedMedia T.toTransportClient chunks merkleRoot blobClass s =
        commitUpload T.toTransportClient id merkleRoot s₂ := by
  have hsession : T.session s₁ id = some ⟨[], merkleRoot⟩ := by
    obtain ⟨id', s₁', hinit', hsession⟩ := T.init_ok s (totalSize chunks) blobClass merkleRoot
    rw [hinit] at hinit'
    obtain ⟨rfl, rfl⟩ : id = id' ∧ s₁ = s₁' := by simpa using hinit'
    exact hsession
  obtain ⟨s₂, hloop, hsession₂⟩ := uploadChunks_ok T hsha hsession (by simpa using hcount)
  refine ⟨s₂, by simpa using hsession₂, ?_⟩
  have hempty : chunks.isEmpty = false := by simpa using hne
  have hloop' : uploadChunks T.toTransportClient id chunks 0 s₁ = (.ok (), s₂) := hloop
  unfold uploadChunkedMedia commitUpload
  rw [hempty, if_neg Bool.false_ne_true, hinit]
  simp only [hloop']

/-- An upload succeeds if the server's root is the one the asset was sealed under, and then the blob is there. -/
theorem uploadChunkedMedia_ok (hsha : ∀ c ∈ chunks, c.chunkSha256 = P.sha256 c.ciphertext) (hne : chunks ≠ [])
    (hcount : chunks.length ≤ u32Max)
    (hinit : T.initBlobUpload s (totalSize chunks) blobClass merkleRoot = (.ok id, s₁))
    (hroot : rootOf (chunks.map SealedChunk.ciphertext) = merkleRoot) :
    ∃ s', uploadChunkedMedia T.toTransportClient chunks merkleRoot blobClass s = (.ok ⟨id, merkleRoot, merkleRoot⟩, s') ∧
      Serves (T.fetchBlobRange s') id (blobOf chunks) := by
  obtain ⟨s₂, hsession, hupload⟩ := uploadChunkedMedia_commits T hsha hne hcount hinit
  obtain ⟨s', hcommit, hserves⟩ := T.commit_ok s₂ id _ hsession hroot
  rw [hroot] at hcommit
  refine ⟨s', ?_, ?_⟩
  · rw [hupload]
    unfold commitUpload
    rw [hcommit]
    simp
  · unfold blobOf
    rw [List.flatMap_def]
    exact hserves

/-- **An upload succeeds only if the server's root is the one the asset was sealed under.** -/
theorem root_of_uploadChunkedMedia_ok {up : UploadResult}
    (hsha : ∀ c ∈ chunks, c.chunkSha256 = P.sha256 c.ciphertext) (hne : chunks ≠ []) (hcount : chunks.length ≤ u32Max)
    (hinit : T.initBlobUpload s (totalSize chunks) blobClass merkleRoot = (.ok id, s₁))
    (h : uploadChunkedMedia T.toTransportClient chunks merkleRoot blobClass s = (.ok up, s')) :
    rootOf (chunks.map SealedChunk.ciphertext) = merkleRoot ∧ up.blobId = id := by
  obtain ⟨s₂, hsession, hupload⟩ := uploadChunkedMedia_commits T hsha hne hcount hinit
  rw [hupload] at h
  unfold commitUpload at h
  cases hcommit : T.commitBlob s₂ id with
  | mk result s₃ =>
      rw [hcommit] at h
      cases result with
      | error e => exact absurd h (by simp)
      | ok root =>
          simp only at h
          by_cases hroot : root = merkleRoot
          · rw [if_neg (not_not.mpr hroot)] at h
            obtain ⟨rfl, -⟩ : (⟨id, merkleRoot, root⟩ : UploadResult) = up ∧ s₃ = s' := by simpa using h
            exact ⟨(T.commit_root s₂ id _ root s₃ hsession hcommit).symm.trans hroot, rfl⟩
          · rw [if_pos hroot] at h
            exact absurd h (by simp)

end Upload

/-! ## What comes down again -/

section Down

variable {P : Primitives} {rootOf : List Bytes → ByteArr 32} {kAsset : KeyMaterial} {blobId : Uuid} {blobClass : BlobClass}
  {padded : Bytes} {chunked : ChunkedMedia}

/-- **The AEAD tells the blob ids apart**: the first chunk does not open under the AAD of another one. -/
def TellsBlobIdsApart (P : Primitives) (kAsset : KeyMaterial) (blobId : Uuid) (blobClass : BlobClass) (padded : Bytes)
    (chunked : ChunkedMedia) : Prop :=
  ∀ u : Uuid, u.asBytes ≠ blobId.asBytes →
    P.aeadOpen kAsset (chunkNonce 0)
      (chunked.ciphertext P kAsset blobId.asBytes blobClass defaultChunkSize padded 0)
      (chunked.aad u.asBytes blobClass 0) = none

/-- The id of a blob, as the AAD of its chunks has it. -/
def NamesBlob (id : IdText) (blobId : Uuid) : Prop := ∃ u, Uuid.parseStr id = some u ∧ u.asBytes = blobId.asBytes

/-- The chunks of an asset are there, have their digests, and can be counted. -/
theorem ChunkedMedia.Seals.uploadable {id : Bytes} (h : chunked.Seals P kAsset id blobClass defaultChunkSize padded) :
    (∀ c ∈ chunked.sealedChunks, c.chunkSha256 = P.sha256 c.ciphertext) ∧ chunked.sealedChunks ≠ [] ∧
      chunked.sealedChunks.length ≤ u32Max := by
  have hpos := h.count_pos
  refine ⟨fun c hc => ?_, ?_, h.length_sealedChunks ▸ h.count_le⟩
  · rw [h.chunks] at hc
    obtain ⟨i, -, rfl⟩ := List.mem_map.mp hc
    rfl
  · rw [← List.length_pos_iff, h.length_sealedChunks]
    exact hpos

/-- Sealed under the same bytes. -/
theorem ChunkedMedia.Seals.of_names {u : Uuid} (hsame : u.asBytes = blobId.asBytes)
    (h : chunked.Seals P kAsset blobId.asBytes blobClass defaultChunkSize padded) :
    chunked.Seals P kAsset u.asBytes blobClass defaultChunkSize padded := by
  rw [hsame]
  exact h

/-- **A blob opens only under the id it was sealed under.** -/
theorem names_of_download_ok {fetch : FetchBlobRange} {id : IdText} {result : Bytes}
    (hseals : chunked.Seals P kAsset blobId.asBytes blobClass defaultChunkSize padded) (htag : AppendsTag P)
    (hapart : TellsBlobIdsApart P kAsset blobId blobClass padded chunked)
    (hserves : Serves fetch id (blobOf chunked.sealedChunks))
    (h : downloadChunkedMedia P fetch id chunked.chunkCount chunked.merkleRoot kAsset blobClass = .ok result) :
    NamesBlob id blobId := by
  have hpos := hseals.count_pos
  unfold downloadChunkedMedia at h
  by_cases hblank : id = .malformed ""
  · rw [if_pos hblank] at h
    exact absurd h (by simp)
  rw [if_neg hblank, if_neg (by omega)] at h
  obtain ⟨bytes, hbytes, h⟩ := except_bind_eq_ok.mp h
  obtain ⟨plaintext, hloop, -⟩ := except_bind_eq_ok.mp h
  obtain ⟨pt, hfirst⟩ := downloadLoop_eq_ok hloop 0 (List.mem_range.mpr hpos)
  unfold blobIdToAadBytes at hbytes
  cases hparse : Uuid.parseStr id with
  | none =>
      rw [hparse] at hbytes
      exact absurd hbytes (by simp)
  | some u =>
      rw [hparse] at hbytes
      obtain rfl := Except.ok.inj hbytes
      refine ⟨u, hparse, ?_⟩
      by_contra hother
      unfold downloadChunk at hfirst
      rw [hserves.chunkRange, defaultChunkCiphertextSize, hseals.at_offset htag hpos] at hfirst
      obtain ⟨ciphertext, hciphertext, hfirst⟩ := except_bind_eq_ok.mp hfirst
      obtain rfl := Except.ok.inj hciphertext
      rw [if_neg (by rw [ciphertext_nonempty htag]; exact Bool.false_ne_true)] at hfirst
      have hclosed := hapart u hother
      unfold ChunkedMedia.aad at hclosed
      simp only [openChunk, hclosed] at hfirst
      exact absurd hfirst (by simp)

variable {σ : Type} (T : ConformingServer P rootOf σ) {plaintext : Bytes} {mimeType : String} {wrappingKey : KeyMaterial}
  {pad : Bool} {assetId : Uuid} {asset : MediaProcessResult} {s s₁ : σ} {id : IdText}

/-- What `process_media` sealed: the plaintext, padded or not. -/
def processedPlaintext (pad : Bool) (plaintext : Bytes) : Bytes := if pad then padToSizeClass plaintext else plaintext

/-- **The asset goes up, and comes down again** under the id the upload returned. -/
def UpAndDown (T : ConformingServer P rootOf σ) (kAsset : KeyMaterial) (blobClass : BlobClass) (asset : MediaProcessResult)
    (processed : Bytes) (s : σ) : Prop :=
  ∃ up s', uploadChunkedMedia T.toTransportClient asset.sealedChunks asset.descriptor.merkleRoot blobClass s = (.ok up, s') ∧
    downloadChunkedMedia P (T.fetchBlobRange s') up.blobId asset.descriptor.chunkCount asset.descriptor.merkleRoot kAsset
      blobClass = .ok processed

/-- **When a processed asset goes up and comes down again**: the server's root over the ciphertext is the asset's root
over its plaintext, and the server minted the id that the client drew. -/
theorem upload_round_trips_iff (htag : AppendsTag P)
    (hprocess : processMedia P plaintext mimeType wrappingKey blobClass pad kAsset assetId blobId = .ok asset)
    (hapart : TellsBlobIdsApart P kAsset blobId blobClass (processedPlaintext pad plaintext) asset.chunked)
    (hinit : T.initBlobUpload s (totalSize asset.sealedChunks) blobClass asset.descriptor.merkleRoot = (.ok id, s₁)) :
    UpAndDown T kAsset blobClass asset (processedPlaintext pad plaintext) s ↔
      rootOf (asset.sealedChunks.map SealedChunk.ciphertext) = asset.descriptor.merkleRoot ∧ NamesBlob id blobId := by
  have hseals : asset.chunked.Seals P kAsset blobId.asBytes blobClass defaultChunkSize (processedPlaintext pad plaintext) :=
    (processMedia_eq_ok hprocess).1
  obtain ⟨hsha, hne, hcount⟩ := hseals.uploadable
  constructor
  · rintro ⟨up, s', hup, hdown⟩
    obtain ⟨hroot, rfl⟩ := root_of_uploadChunkedMedia_ok T hsha hne hcount hinit hup
    -- an upload that returned has the root that was announced, so it is the one that serves the chunks
    obtain ⟨s'', hup', hserves⟩ := uploadChunkedMedia_ok T hsha hne hcount hinit hroot
    obtain ⟨-, rfl⟩ : _ = up ∧ s'' = s' := by simpa using hup'.symm.trans hup
    exact ⟨hroot, names_of_download_ok hseals htag hapart hserves hdown⟩
  · rintro ⟨hroot, u, hparse, hsame⟩
    obtain ⟨s', hup, hserves⟩ := uploadChunkedMedia_ok T hsha hne hcount hinit hroot
    refine ⟨_, s', hup, ?_⟩
    -- the id of the server reads as an id
    obtain rfl : id = u.toText := by
      cases id with
      | uuid v => exact congrArg IdText.uuid (Option.some.inj hparse)
      | malformed text => exact absurd hparse (by simp [Uuid.parseStr])
    exact download_sealed (hseals.of_names hsame) htag hserves

end Down

/-! ## A server in memory -/

/-- Its sessions and blobs, and how many ids it minted. -/
structure MemoryServer where
  minted : Nat
  sessions : IdText → Option UploadSession
  blobs : IdText → Bytes

/-- **A server in memory**, which mints the ids `mint 0`, `mint 1`, … -/
def memoryServer (P : Primitives) (rootOf : List Bytes → ByteArr 32) (mint : Nat → Uuid) :
    ConformingServer P rootOf MemoryServer where
  initBlobUpload s _ _ root :=
    let id := (mint s.minted).toText
    (.ok id, { s with minted := s.minted + 1, sessions := Function.update s.sessions id (some ⟨[], root⟩) })
  uploadChunk s id idx c sha :=
    match s.sessions id with
    | none => (.error (.transport (.custom "no such upload session")), s)
    | some up => (.ok ⟨idx, sha⟩,
        { s with sessions := Function.update s.sessions id (some ⟨up.chunks ++ [c], up.expectedMerkleRoot⟩) })
  commitBlob s id :=
    match s.sessions id with
    | none => (.error (.transport (.custom "no such upload session")), s)
    | some up => (.ok (rootOf up.chunks), { s with blobs := Function.update s.blobs id up.chunks.flatten })
  fetchBlobRange s id start stop := .ok (((s.blobs id).drop start).take (stop - start))
  session s id := s.sessions id
  init_ok s size blobClass root := by exact ⟨_, _, rfl, by simp⟩
  upload_ok s id up c h := by
    rw [h]
    exact ⟨_, rfl, by simp⟩
  commit_ok s id up h _ := by
    rw [h]
    exact ⟨_, rfl, fun start stop => by simp⟩
  commit_root s id up root s' h hcommit := by
    rw [h] at hcommit
    simp only [Prod.mk.injEq, Except.ok.injEq] at hcommit
    exact hcommit.1.symm

/-- The state it starts in. -/
def MemoryServer.empty : MemoryServer := ⟨0, fun _ => none, fun _ => []⟩

/-- A tag that shows the blob id of the AAD. -/
def blobTag (_ : KeyMaterial) (_ : ByteArr 24) (_ a : Bytes) : ByteArr tagLen :=
  let id := (a.drop 19).take tagLen
  ⟨id ++ List.replicate (tagLen - id.length) 0, by
    rw [List.length_append, List.length_replicate, List.length_take]
    omega⟩

theorem blobTag_aad (chunked : ChunkedMedia) (u : Uuid) (blobClass : BlobClass) (i : Nat) (k : KeyMaterial)
    (n : ByteArr 24) (p : Bytes) : (blobTag k n p (chunked.aad u.asBytes blobClass i)).toList = u.asBytes := by
  have hid : u.asBytes.length = tagLen := by simp [Uuid.asBytes, tagLen]
  have haad : ((chunked.aad u.asBytes blobClass i).drop 19).take tagLen = u.asBytes := by
    unfold ChunkedMedia.aad buildKchatChunkAad
    simp only [List.append_assoc]
    have hdomain : (utf8 "KCHAT_BLOB_CHUNK_V1").length = 19 := by decide +kernel
    rw [← hdomain, List.drop_left, ← hid, List.take_left]
  show (chunked.aad u.asBytes blobClass i |>.drop 19 |>.take tagLen) ++ List.replicate _ 0 = _
  rw [haad, hid]
  simp

/-- With it, the AEAD tells the blob ids apart. -/
theorem blobTag_tellsApart (kAsset : KeyMaterial) (blobId : Uuid) (blobClass : BlobClass) (padded : Bytes)
    (chunked : ChunkedMedia) : TellsBlobIdsApart (taggingWith blobTag) kAsset blobId blobClass padded chunked := by
  intro u hother
  have htag := blobTag_aad chunked
  show (if ((_ : Bytes) ++ (blobTag _ _ _ _).toList).drop _ = (blobTag _ _ _ _).toList then _ else none) = none
  rw [htag, htag]
  refine if_neg fun hsame => hother ?_
  rw [← hsame]
  have hlen : (chunked.ciphertext (taggingWith blobTag) kAsset blobId.asBytes blobClass defaultChunkSize padded 0).length =
      (chunk defaultChunkSize padded 0).length + tagLen := taggingWith_appendsTag blobTag _ _ _ _
  rw [hlen, Nat.add_sub_cancel, List.drop_left]

/-- A server whose root is the hash of the ciphertext, and which mints ids of its own. -/
def hashingServer : ConformingServer (taggingWith blobTag) (fun chunks => (taggingWith blobTag).contentHash chunks.flatten)
    MemoryServer :=
  memoryServer _ _ fun n => ⟨100 + n⟩

/-- Two bytes, sealed as an image, in one chunk. -/
theorem hi_sealed : ∃ asset, processMedia (taggingWith blobTag) (utf8 "hi") "image/png" (ByteArr.zeros 32) .media true
    (ByteArr.zeros 32) ⟨3⟩ ⟨4⟩ = .ok asset ∧ asset.chunked.chunkCount = 1 := by
  have hone : totalChunks defaultChunkSize (if true then padToSizeClass (utf8 "hi") else utf8 "hi") = 1 := by
    decide +kernel
  obtain ⟨asset, hprocess, hcount⟩ := processMedia_of_countable (ByteArr.zeros 32) ⟨3⟩ ⟨4⟩ (hone.trans_le (by decide))
  exact ⟨asset, hprocess, hcount.trans hone⟩

theorem hi_round_trips_iff : ∃ asset, processMedia (taggingWith blobTag) (utf8 "hi") "image/png" (ByteArr.zeros 32) .media
      true (ByteArr.zeros 32) ⟨3⟩ ⟨4⟩ = .ok asset ∧
    (UpAndDown hashingServer (ByteArr.zeros 32) .media asset (processedPlaintext true (utf8 "hi")) .empty ↔
      (taggingWith blobTag).contentHash (asset.sealedChunks.map SealedChunk.ciphertext).flatten =
          asset.descriptor.merkleRoot ∧ NamesBlob (Uuid.mk 100).toText ⟨4⟩) := by
  obtain ⟨asset, hprocess, -⟩ := hi_sealed
  exact ⟨asset, hprocess, upload_round_trips_iff hashingServer (taggingWith_appendsTag blobTag) hprocess
    (blobTag_tellsApart _ _ _ _ _) rfl⟩

/-- **An upload that a conforming server turns down**: its root is over the ciphertext. -/
theorem hi_does_not_go_up : ∃ asset, processMedia (taggingWith blobTag) (utf8 "hi") "image/png" (ByteArr.zeros 32) .media
      true (ByteArr.zeros 32) ⟨3⟩ ⟨4⟩ = .ok asset ∧
    ¬ UpAndDown hashingServer (ByteArr.zeros 32) .media asset (processedPlaintext true (utf8 "hi")) .empty := by
  obtain ⟨asset, hprocess, hone⟩ := hi_sealed
  refine ⟨asset, hprocess, ?_⟩
  rintro ⟨up, s', hup, -⟩
  have hseals : asset.chunked.Seals (taggingWith blobTag) (ByteArr.zeros 32) (Uuid.mk 4).asBytes .media defaultChunkSize
      (processedPlaintext true (utf8 "hi")) := (processMedia_eq_ok hprocess).1
  obtain ⟨hsha, hne, hcount⟩ := hseals.uploadable
  have hroot := (root_of_uploadChunkedMedia_ok hashingServer hsha hne hcount rfl hup).1
  have hciphertext : asset.chunked.ciphertext (taggingWith blobTag) (ByteArr.zeros 32) (Uuid.mk 4).asBytes .media
      defaultChunkSize (processedPlaintext true (utf8 "hi")) 0 =
        chunk defaultChunkSize (processedPlaintext true (utf8 "hi")) 0 ++ (Uuid.mk 4).asBytes :=
    congrArg (chunk defaultChunkSize _ 0 ++ ·) (blobTag_aad asset.chunked ⟨4⟩ .media 0 _ _ _)
  have hsealed : asset.descriptor.merkleRoot = _ := hseals.root
  -- the server hashes the ciphertext, the descriptor its leaf
  rw [hseals.ciphertexts, hone, hsealed] at hroot
  simp only [List.range_one, List.map_cons, List.map_nil, hciphertext] at hroot
  exact absurd hroot (by decide +kernel)

end KChatCore.Media
