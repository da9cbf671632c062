import KChatCore.Archive.SegmentMap

/-!
# `Archive.Upload` — uploading a segment and fetching it back

Two backends. The KChat upload hands the transport the bare ciphertext; the S3 adapter hands the store the framed
blob, sealed once more (Pattern C). The router returns what the backend holds, and the readers decrypt that as if
it were the framed blob.

* `uploaded_not_framed` — past the length of a header, what is uploaded is never the segment's ciphertext.
* `fetched_segment_unreadable` — so a fetched segment does not decrypt, on either backend.
-/

namespace KChatCore.Archive

/-! ## Pattern C -/

/-- `DEFAULT_CHUNK_SIZE`: 16 MiB. -/
def defaultChunkSize : Nat := 16 * 1024 * 1024

/-- Consecutive chunks of a plaintext, all but the last of the given size. -/
def chunksOf (chunkSize : Nat) (plaintext : Bytes) : List Bytes := (List.toChunksAux (chunkSize - 1) plaintext 0).2

/-- One frame: nonce, big-endian length, sealed chunk. -/
def sealFrame (P : Primitives) (dek : KeyMaterial) (chunkIndex : Nat) (chunk : Bytes) : Except CryptoError Bytes :=
  let nonce := P.deriveConvergentNonce dek chunkIndex
  let body := P.aeadSeal dek nonce chunk []
  if u32Max < body.length then
    .error (.frame ("ciphertext length " ++ toString body.length ++ " exceeds u32"))
  else .ok (nonce.toList ++ (leBytes 4 body.length).toList.reverse ++ body)

/-- The frames of consecutive chunks, from an index on. -/
def sealFrames (P : Primitives) (dek : KeyMaterial) : Nat → List Bytes → Except CryptoError Bytes
  | _, [] => .ok []
  | chunkIndex, chunk :: chunks => do
      let frame ← sealFrame P dek chunkIndex chunk
      let rest ← sealFrames P dek (chunkIndex + 1) chunks
      return frame ++ rest

/-- `encrypt_object_pattern_c`, at the default chunk size. -/
def encryptObjectPatternC (P : Primitives) (plaintext : Bytes) (dek : KeyMaterial) : Except CryptoError Bytes :=
  sealFrames P dek 0 (chunksOf defaultChunkSize plaintext)

/-- The text of a `CryptoError`. -/
def displayCryptoError : CryptoError → String
  | .aead what => "aead: " ++ what
  | .kdf what => "kdf: " ++ what
  | .invalidInput what => "invalid input: " ++ what
  | .frame detail => "frame: " ++ detail

/-! ## The backends -/

/-- `TransportClient`, as far as archive segments use it, over the state of the server. -/
structure TransportClient (σ : Type) where
  /-- Size and declared Merkle root; the handle's blob id. -/
  initBlobUpload : Nat → ByteArr 32 → σ → Except Error String × σ
  /-- Blob id, chunk index, bytes and their SHA-256. -/
  uploadChunk : String → Nat → Bytes → ByteArr 32 → σ → Except Error Unit × σ
  /-- The Merkle root the server computed. -/
  commitBlob : String → σ → Except Error (ByteArr 32) × σ
  fetchArchiveSegment : IdText → σ → Except Error Bytes

/-- `S3Client`, as far as archive segments use it. -/
structure S3Client (σ : Type) where
  /-- Bucket, key, bytes. -/
  putObject : String → String → Bytes → σ → Except Error Unit × σ
  /-- Bucket, key; the range is always the whole object. -/
  getObject : String → String → σ → Except Error Bytes

/-- The lower-case hex digits of a digest. -/
def hexEncodeRoot (root : ByteArr 32) : String := String.ofList (root.toList.flatMap Uuid.hexByte)

/-- The text of a `segment_id` column. -/
def segmentIdText : IdText → String
  | .uuid id => id.hyphenated
  | .malformed text => text

/-- `upload_archive_segment`. -/
def uploadArchiveSegment {σ : Type} (P : Primitives) (transport : TransportClient σ) (segment : BuiltSegment) (s : σ) :
    Except Error String × σ :=
  let ciphertextRoot := P.contentHash segment.ciphertext
  match transport.initBlobUpload segment.ciphertext.length ciphertextRoot s with
  | (.error e, s) => (.error e, s)
  | (.ok blobId, s) =>
      match transport.uploadChunk blobId 0 segment.ciphertext (P.sha256 segment.ciphertext) s with
      | (.error e, s) => (.error e, s)
      | (.ok _, s) =>
          match transport.commitBlob blobId s with
          | (.error e, s) => (.error e, s)
          | (.ok merkleRoot, s) =>
              if merkleRoot ≠ ciphertextRoot then
                (.error (.storageMsg ("archive upload: server merkle_root mismatch (segment_id=" ++
                  segment.segmentId.hyphenated ++ "): declared " ++ hexEncodeRoot ciphertextRoot ++ " vs server " ++
                  hexEncodeRoot merkleRoot)), s)
              else (.ok blobId, s)

/-- `S3ZkofArchiveAdapter`; its constructor rejects an empty tenant id. -/
structure S3ZkofArchiveAdapter (σ : Type) where
  s3 : S3Client σ
  bucket : String
  tenantId : String
  tenantId_ne : tenantId ≠ ""

/-- `zkof_archive_segment_key`. -/
def zkofArchiveSegmentKey (segmentId : String) : String := "archive/segments/" ++ segmentId

/-- `S3ZkofArchiveAdapter::pattern_c_seal`; a non-empty tenant id and a hash always derive a key. -/
def S3ZkofArchiveAdapter.patternCSeal {σ : Type} (P : Primitives) (adapter : S3ZkofArchiveAdapter σ)
    (plaintext : Bytes) : Except Error Bytes :=
  let dek := P.deriveConvergentDek (P.contentHash plaintext).toList (utf8 adapter.tenantId)
  (encryptObjectPatternC P plaintext dek).mapError fun e =>
    .storageMsg ("S3ZkofArchiveAdapter: pattern C seal: " ++ displayCryptoError e)

/-- `S3ZkofArchiveAdapter::upload_segment`. -/
def S3ZkofArchiveAdapter.uploadSegment {σ : Type} (P : Primitives) (adapter : S3ZkofArchiveAdapter σ)
    (segment : BuiltSegment) (s : σ) : Except Error String × σ :=
  match adapter.patternCSeal P segment.blob with
  | .error e => (.error e, s)
  | .ok sealedBlob =>
      let key := zkofArchiveSegmentKey segment.segmentId.hyphenated
      match adapter.s3.putObject adapter.bucket key sealedBlob s with
      | (.error e, s) => (.error e, s)
      | (.ok _, s) => (.ok key, s)

/-- `route_archive_upload`, by the configured backend. -/
def routeArchiveUpload {σ : Type} (P : Primitives) (backend : StorageBackend) (transport : TransportClient σ)
    (adapter : S3ZkofArchiveAdapter σ) (segment : BuiltSegment) (s : σ) : Except Error String × σ :=
  match backend with
  | .kchatBackend => uploadArchiveSegment P transport segment s
  | .zkObjectFabric => adapter.uploadSegment P segment s

/-- `ArchiveSegmentRouter`. -/
structure ArchiveSegmentRouter (σ : Type) where
  transport : TransportClient σ
  s3 : Option (S3Client σ)
  /-- The bucket of the `ZkFabricSinkConfig`. -/
  zkofBucket : Option String

/-- `ArchiveSegmentRouter::fetch`. -/
def ArchiveSegmentRouter.fetch {σ : Type} (router : ArchiveSegmentRouter σ) (s : σ) (backend : StorageBackend)
    (segmentId : IdText) : Except Error Bytes :=
  match backend with
  | .kchatBackend => router.transport.fetchArchiveSegment segmentId s
  | .zkObjectFabric => do
      let s3 ← okOr router.s3 (.storageMsg "ArchiveSegmentRouter: zk_object_fabric segment without s3 client")
      let bucket ← okOr router.zkofBucket
        (.storageMsg "ArchiveSegmentRouter: zk_object_fabric segment without ZkFabricSinkConfig")
      s3.getObject bucket (zkofArchiveSegmentKey (segmentIdText segmentId)) s

/-! ## What is uploaded -/

section Frames

variable {P : Primitives} {dek : KeyMaterial}

theorem flatten_toChunksAux (n : Nat) (l : Bytes) (i : Nat) :
    (List.toChunksAux n l i).1 ++ (List.toChunksAux n l i).2.flatten = l := by
  induction l generalizing i with
  | nil => rfl
  | cons x xs ih =>
      cases i with
      | zero =>
          show [] ++ ((x :: (List.toChunksAux n xs n).1) :: (List.toChunksAux n xs n).2).flatten = x :: xs
          rw [List.nil_append, List.flatten_cons, List.cons_append, ih n]
      | succ i =>
          show (x :: (List.toChunksAux n xs i).1) ++ (List.toChunksAux n xs i).2.flatten = x :: xs
          rw [List.cons_append, ih i]

/-- The chunks are the plaintext. -/
theorem flatten_chunksOf (chunkSize : Nat) {plaintext : Bytes} (hne : plaintext ≠ []) :
    chunksOf chunkSize plaintext ≠ [] ∧ (chunksOf chunkSize plaintext).flatten = plaintext := by
  obtain ⟨x, xs, rfl⟩ := List.exists_cons_of_ne_nil hne
  constructor
  · exact List.cons_ne_nil _ _
  · have h := flatten_toChunksAux (chunkSize - 1) (x :: xs) 0
    exact h

/-- A frame is longer than its chunk by at least its header. -/
theorem length_sealFrame {chunkIndex : Nat} {chunk frame : Bytes}
    (h : sealFrame P dek chunkIndex chunk = .ok frame) : 28 + chunk.length ≤ frame.length := by
  unfold sealFrame at h
  simp only at h
  split at h
  · exact absurd h (by simp)
  · have hbody := P.length_le_aeadSeal dek (P.deriveConvergentNonce dek chunkIndex) chunk []
    obtain rfl := Except.ok.inj h
    simp only [List.length_append, List.Vector.toList_length, List.length_reverse]
    omega

theorem length_sealFrames {chunkIndex : Nat} {chunks : List Bytes} {out : Bytes}
    (h : sealFrames P dek chunkIndex chunks = .ok out) :
    28 * chunks.length + chunks.flatten.length ≤ out.length := by
  induction chunks generalizing chunkIndex out with
  | nil => simp
  | cons chunk chunks ih =>
      obtain ⟨frame, hframe, h⟩ := except_bind_eq_ok.mp h
      obtain ⟨rest, hrest, h⟩ := except_bind_eq_ok.mp h
      obtain rfl := Except.ok.inj h
      have hhead := length_sealFrame hframe
      have htail := ih hrest
      rw [List.length_cons, List.flatten_cons, List.length_append, List.length_append]
      omega

/-- **Pattern C lengthens** what it seals. -/
theorem length_encryptObjectPatternC {plaintext out : Bytes} (hne : plaintext ≠ [])
    (h : encryptObjectPatternC P plaintext dek = .ok out) : plaintext.length < out.length := by
  obtain ⟨hchunks, hflat⟩ := flatten_chunksOf defaultChunkSize hne
  have hlen := length_sealFrames h
  rw [hflat] at hlen
  have hpos := List.length_pos_iff.mpr hchunks
  omega

end Frames

section RoundTrip

variable {σ : Type} {P : Primitives} {transport : TransportClient σ} {adapter : S3ZkofArchiveAdapter σ}
  {request : SegmentBuildRequest} {k : KeyMaterial} {drawn : Nat} {built : BuiltSegment} {s s' : σ}
  {backend : StorageBackend} {name : String}

/-- **The bytes an upload commits**: the bare ciphertext, or the framed blob sealed with Pattern C. -/
def committedBytes (P : Primitives) (adapter : S3ZkofArchiveAdapter σ) (backend : StorageBackend)
    (segment : BuiltSegment) (bytes : Bytes) : Prop :=
  match backend with
  | .kchatBackend => bytes = segment.ciphertext
  | .zkObjectFabric => adapter.patternCSeal P segment.blob = .ok bytes

/-- **Past the length of a header, committed bytes are not the segment's ciphertext**: the KChat upload left the
header out, and the Pattern C frames come on top of it. -/
theorem uploaded_not_framed {bytes : Bytes} (hcommitted : committedBytes P adapter backend built bytes)
    (hlen : archiveSegmentBlobHeaderLen ≤ bytes.length) :
    bytes.drop archiveSegmentBlobHeaderLen ≠ built.ciphertext := by
  intro heq
  have hdrop := congrArg List.length heq
  rw [List.length_drop] at hdrop
  have hheader : archiveSegmentBlobHeaderLen = 72 := rfl
  cases backend with
  | kchatBackend =>
      obtain rfl : bytes = built.ciphertext := hcommitted
      omega
  | zkObjectFabric =>
      have hblob : built.blob.length = archiveSegmentBlobHeaderLen + built.ciphertext.length :=
        length_encodeArchiveSegmentBlob _ _ _ _
      have hne : built.blob ≠ [] := by
        intro hnil
        rw [hnil, List.length_nil] at hblob
        omega
      have hseal : adapter.patternCSeal P built.blob = .ok bytes := hcommitted
      have hcipher : encryptObjectPatternC P built.blob
          (P.deriveConvergentDek (P.contentHash built.blob).toList (utf8 adapter.tenantId)) = .ok bytes := by
        unfold S3ZkofArchiveAdapter.patternCSeal at hseal
        simp only at hseal
        cases hc : encryptObjectPatternC P built.blob
            (P.deriveConvergentDek (P.contentHash built.blob).toList (utf8 adapter.tenantId)) with
        | error e =>
            rw [hc] at hseal
            exact absurd hseal (by simp [Except.mapError])
        | ok out =>
            rw [hc] at hseal
            exact congrArg Except.ok (Except.ok.inj hseal)
      have hlonger := length_encryptObjectPatternC hne hcipher
      omega

/-- Bytes whose tail does not open do not decrypt. -/
theorem decryptArchiveSegment_of_forged {bytes : Bytes}
    (hforged : archiveSegmentBlobHeaderLen ≤ bytes.length →
      ∀ n a, P.aeadOpen k n (bytes.drop archiveSegmentBlobHeaderLen) a = none) :
    ∃ e, decryptArchiveSegment P bytes k = .error e := by
  by_cases hlen : bytes.length < archiveSegmentBlobHeaderLen
  · unfold decryptArchiveSegment decodeArchiveSegmentBlob
    rw [dif_pos hlen]
    exact ⟨_, rfl⟩
  · have hopen := hforged (not_lt.mp hlen)
    unfold decryptArchiveSegment decodeArchiveSegmentBlob
    rw [dif_neg hlen]
    simp only [bind, Except.bind, hopen, okOr_none]
    exact ⟨_, rfl⟩

/-- **A transport that keeps what it was given**: for the segment's id it returns the chunk last committed. -/
structure TransportKeeps (transport : TransportClient σ) (segmentId : IdText) : Prop where
  fetched : ∀ (size : Nat) (root root' digest : ByteArr 32) (chunk bytes : Bytes) (blobId : String) (s s₁ s₂ s₃ : σ),
    transport.initBlobUpload size root s = (.ok blobId, s₁) →
      transport.uploadChunk blobId 0 chunk digest s₁ = (.ok (), s₂) →
        transport.commitBlob blobId s₂ = (.ok root', s₃) →
          transport.fetchArchiveSegment segmentId s₃ = .ok bytes → bytes = chunk

/-- **An object store that keeps what it was given.** -/
structure S3Keeps (s3 : S3Client σ) : Prop where
  fetched : ∀ (bucket key : String) (object bytes : Bytes) (s s' : σ),
    s3.putObject bucket key object s = (.ok (), s') → s3.getObject bucket key s' = .ok bytes → bytes = object

/-- **What comes back is what was committed.** -/
theorem committedBytes_of_fetch {router : ArchiveSegmentRouter σ} {bytes : Bytes}
    (htransport : TransportKeeps router.transport built.segmentId.toText) (hs3 : S3Keeps adapter.s3)
    (hclient : router.s3 = some adapter.s3) (hbucket : router.zkofBucket = some adapter.bucket)
    (hupload : routeArchiveUpload P backend router.transport adapter built s = (.ok name, s'))
    (hfetch : router.fetch s' backend built.segmentId.toText = .ok bytes) :
    committedBytes P adapter backend built bytes := by
  cases backend with
  | kchatBackend =>
      simp only [routeArchiveUpload, uploadArchiveSegment] at hupload
      split at hupload
      · exact absurd hupload (by simp)
      · rename_i blobId s₁ hinit
        split at hupload
        · exact absurd hupload (by simp)
        · rename_i s₂ hchunk
          split at hupload
          · exact absurd hupload (by simp)
          · rename_i root s₃ hcommit
            split at hupload
            · exact absurd hupload (by simp)
            · obtain ⟨-, rfl⟩ := Prod.mk.inj hupload
              exact htransport.fetched _ _ _ _ _ _ _ _ _ _ _ hinit hchunk hcommit hfetch
  | zkObjectFabric =>
      simp only [routeArchiveUpload, S3ZkofArchiveAdapter.uploadSegment] at hupload
      split at hupload
      · exact absurd hupload (by simp)
      · rename_i sealedBlob hseal
        split at hupload
        · exact absurd hupload (by simp)
        · rename_i s₁ hput
          obtain ⟨-, rfl⟩ := Prod.mk.inj hupload
          simp only [ArchiveSegmentRouter.fetch, hclient, hbucket, okOr_some, bind, Except.bind] at hfetch
          rw [hs3.fetched _ _ _ _ _ _ hput hfetch]
          exact hseal

/-- **No uploaded segment is readable**, on either backend. The upload succeeds and its row is recorded, the framed
segment itself would open to the events, but what the router fetches for the row does not decrypt. The last
hypothesis is what an ideal AEAD gives: under the segment's key no bytes open but the segment's own ciphertext. -/
theorem fetched_segment_unreadable {router : ArchiveSegmentRouter σ} {rows rows' : List SegmentMapRow}
    {row : SegmentMapRow} {bytes : Bytes} (hbuilt : buildSegment P request k drawn = .ok built)
    (htransport : TransportKeeps router.transport built.segmentId.toText) (hs3 : S3Keeps adapter.s3)
    (hclient : router.s3 = some adapter.s3) (hbucket : router.zkofBucket = some adapter.bucket)
    (hupload : routeArchiveUpload P backend router.transport adapter built s = (.ok name, s'))
    (hpersist : persistSegmentMapRow built name backend rows = .ok rows') (hrow : row ∈ rows')
    (hid : row.segmentId = built.segmentId.toText)
    (hfetch : router.fetch s' (StorageBackend.fromStrOrDefault row.storageBackend) row.segmentId = .ok bytes)
    (hideal : ∀ n a, bytes.drop archiveSegmentBlobHeaderLen ≠ built.ciphertext →
      P.aeadOpen k n (bytes.drop archiveSegmentBlobHeaderLen) a = none) :
    openArchiveSegment P built.blob k = .ok request.events ∧ ∃ e, decryptArchiveSegment P bytes k = .error e := by
  refine ⟨openArchiveSegment_blob hbuilt, ?_⟩
  unfold persistSegmentMapRow at hpersist
  split at hpersist
  · exact absurd hpersist (by simp)
  · rename_i hnew
    obtain rfl := Except.ok.inj hpersist
    -- the id is new, so the row is the recorded one, and it names the backend of the upload
    have hbackend : StorageBackend.fromStrOrDefault row.storageBackend = backend := by
      rcases List.mem_append.mp hrow with hold | hlast
      · exact absurd (hid ▸ List.mem_map_of_mem hold) hnew
      · rw [List.mem_singleton.mp hlast]
        exact StorageBackend.fromStrOrDefault_asStr backend
    rw [hbackend, hid] at hfetch
    have hcommitted := committedBytes_of_fetch htransport hs3 hclient hbucket hupload hfetch
    refine decryptArchiveSegment_of_forged ?_
    intro hlen n a
    exact hideal n a (uploaded_not_framed hcommitted hlen)

end RoundTrip

/-! ## A store of one object -/

/-- The transport over one slot. -/
def slotTransport : TransportClient (Option Bytes) where
  initBlobUpload _ _ s := (.ok "blob-1", s)
  uploadChunk _ _ bytes _ _ := (.ok (), some bytes)
  commitBlob _ s := (.ok (Primitives.reference.contentHash (s.getD [])), s)
  fetchArchiveSegment _ s := okOr s (.transport (.custom "not found"))

/-- The object store over one slot. -/
def slotS3 : S3Client (Option Bytes) where
  putObject _ _ bytes _ := (.ok (), some bytes)
  getObject _ _ s := okOr s (.transport (.custom "not found"))

/-- An adapter and a router over the slot. -/
def slotAdapter : S3ZkofArchiveAdapter (Option Bytes) := ⟨slotS3, "tenant-bucket", "tenant-1", by decide⟩

def slotRouter : ArchiveSegmentRouter (Option Bytes) := ⟨slotTransport, some slotS3, some "tenant-bucket"⟩

/-- One received message of January. -/
def exampleDelta : SegmentBuildRequest :=
  .messageDelta ⟨1⟩ "1970-01" [⟨.messageReceived, ⟨1⟩, some ⟨1⟩, [], 1000⟩]

/-- The key it is sealed under. -/
def exampleDeltaKey : KeyMaterial := leBytes 32 11

theorem slotTransport_keeps (segmentId : IdText) : TransportKeeps slotTransport segmentId := by
  constructor
  intro size root root' digest chunk bytes blobId s s₁ s₂ s₃ hinit hchunk hcommit hfetch
  obtain ⟨-, rfl⟩ := Prod.mk.inj hchunk
  obtain ⟨-, rfl⟩ := Prod.mk.inj hcommit
  exact (Except.ok.inj hfetch).symm

theorem slotS3_keeps : S3Keeps slotS3 := by
  constructor
  intro bucket key object bytes s s' hput hfetch
  obtain ⟨-, rfl⟩ := Prod.mk.inj hput
  exact (Except.ok.inj hfetch).symm

/-- The reference AEAD opens nothing that does not start with the key. -/
theorem reference_aeadOpen_none {k : KeyMaterial} {c : Bytes} (h : c.take 32 ≠ k.toList) (n : ByteArr 24) (a : Bytes) :
    Primitives.reference.aeadOpen k n c a = none := by
  show Primitives.unframe (k.toList ++ n.toList ++ a) c = none
  unfold Primitives.unframe
  refine if_neg ?_
  intro heq
  refine h ?_
  have htake := congrArg (List.take 32) heq
  rw [List.take_take, List.append_assoc, List.take_left' k.toList_length] at htake
  rw [← htake]
  congr 1
  simp

/-- What the example uploads, per backend. -/
def exampleUpload (backend : StorageBackend) (built : BuiltSegment) : Except Error Bytes :=
  match backend with
  | .kchatBackend => .ok built.ciphertext
  | .zkObjectFabric => slotAdapter.patternCSeal Primitives.reference built.blob

theorem exampleUpload_fetched {backend : StorageBackend} {built : BuiltSegment} {bytes : Bytes}
    (h : exampleUpload backend built = .ok bytes) : ∃ name,
      routeArchiveUpload Primitives.reference backend slotTransport slotAdapter built none =
        (.ok name, some bytes) ∧
      slotRouter.fetch (some bytes) backend built.segmentId.toText = .ok bytes := by
  cases backend with
  | kchatBackend =>
      obtain rfl := Except.ok.inj h
      refine ⟨"blob-1", ?_, rfl⟩
      simp [routeArchiveUpload, uploadArchiveSegment, slotTransport]
  | zkObjectFabric =>
      refine ⟨zkofArchiveSegmentKey built.segmentId.hyphenated, ?_, rfl⟩
      have hseal : slotAdapter.patternCSeal Primitives.reference built.blob = .ok bytes := h
      simp only [routeArchiveUpload, S3ZkofArchiveAdapter.uploadSegment, hseal]
      rfl

set_option maxRecDepth 100000 in
/-- Past the length of a header, neither upload starts with the segment's key. -/
theorem exampleUpload_tail (backend : StorageBackend) :
    ∃ built bytes, buildSegment Primitives.reference exampleDelta exampleDeltaKey 0 = .ok built ∧
      exampleUpload backend built = .ok bytes ∧
      (bytes.drop archiveSegmentBlobHeaderLen).take 32 ≠ exampleDeltaKey.toList := by
  obtain ⟨built, hbuilt⟩ : ∃ built, buildSegment Primitives.reference exampleDelta exampleDeltaKey 0 = .ok built :=
    buildSegment_isOk (by decide) (by decide)
  have hcheck : ((buildSegment Primitives.reference exampleDelta exampleDeltaKey 0).bind
      (exampleUpload backend)).toOption.all (fun bytes =>
        (bytes.drop archiveSegmentBlobHeaderLen).take 32 != exampleDeltaKey.toList) = true ∧
      ((buildSegment Primitives.reference exampleDelta exampleDeltaKey 0).bind
        (exampleUpload backend)).toOption.isSome = true := by
    cases backend <;> decide +kernel
  simp only [hbuilt, Except.bind] at hcheck
  cases hupload : exampleUpload backend built with
  | error e =>
      rw [hupload] at hcheck
      exact absurd hcheck.2 (by simp [Except.toOption])
  | ok bytes =>
      rw [hupload] at hcheck
      refine ⟨built, bytes, hbuilt, hupload, ?_⟩
      simpa [Except.toOption] using hcheck.1

/-- **The example is lost by its upload**: everything succeeds, and what comes back does not decrypt, while the framed
segment would. -/
def LostByUpload (backend : StorageBackend) : Prop := ∃ built name s' bytes,
  buildSegment Primitives.reference exampleDelta exampleDeltaKey 0 = .ok built ∧
    routeArchiveUpload Primitives.reference backend slotTransport slotAdapter built none = (.ok name, s') ∧
    slotRouter.fetch s' backend built.segmentId.toText = .ok bytes ∧
    openArchiveSegment Primitives.reference built.blob exampleDeltaKey = .ok exampleDelta.events ∧
    ∃ e, decryptArchiveSegment Primitives.reference bytes exampleDeltaKey = .error e

theorem lostByUpload (backend : StorageBackend) : LostByUpload backend := by
  obtain ⟨built, bytes, hbuilt, hupload, htail⟩ := exampleUpload_tail backend
  obtain ⟨name, hroute, hfetch⟩ := exampleUpload_fetched hupload
  refine ⟨built, name, some bytes, bytes, hbuilt, hroute, hfetch, openArchiveSegment_blob hbuilt, ?_⟩
  refine decryptArchiveSegment_of_forged ?_
  intro _ n a
  exact reference_aeadOpen_none htail n a

theorem uploaded_segment_lost : LostByUpload .kchatBackend ∧ LostByUpload .zkObjectFabric :=
  ⟨lostByUpload _, lostByUpload _⟩

/-- The same through the recorded row, for the transport. -/
theorem slot_segment_unreadable : ∃ built bytes,
    buildSegment Primitives.reference exampleDelta exampleDeltaKey 0 = .ok built ∧
      openArchiveSegment Primitives.reference built.blob exampleDeltaKey = .ok exampleDelta.events ∧
      ∃ e, decryptArchiveSegment Primitives.reference bytes exampleDeltaKey = .error e := by
  obtain ⟨built, bytes, hbuilt, hupload, htail⟩ := exampleUpload_tail .kchatBackend
  obtain ⟨name, hroute, hfetch⟩ := exampleUpload_fetched hupload
  refine ⟨built, bytes, hbuilt, ?_⟩
  have hpersist : persistSegmentMapRow built name .kchatBackend [] = .ok [{
      segmentId := built.segmentId.toText
      conversationId := built.conversationId.toText
      timeBucket := built.timeBucket
      blobId := name
      storageBackend := StorageBackend.kchatBackend.asStr
      state := .archiveUploaded }] := rfl
  have hkeeps : TransportKeeps slotRouter.transport built.segmentId.toText := slotTransport_keeps _
  have hclient : slotRouter.s3 = some slotAdapter.s3 := rfl
  refine fetched_segment_unreadable hbuilt hkeeps slotS3_keeps hclient rfl hroute hpersist
    (List.mem_singleton.mpr rfl) rfl hfetch ?_
  intro n a _
  exact reference_aeadOpen_none htail n a

end KChatCore.Archive
