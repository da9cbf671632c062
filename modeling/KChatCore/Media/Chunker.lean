import KChatCore.Lib.Chunks
import KChatCore.Primitives

/-!
# `Media.Chunker` — padding a media plaintext and sealing it in chunks

`padToSizeClass` puts the length in front and zeros behind; `chunkAndEncrypt` cuts what it gets into chunks and seals
each under the asset's key, its AAD binding the blob, the class, the position and the root of the plaintext.

* `unpad_padToSizeClass` — the padding comes off again.
* `lt_length_padToSizeClass` — it always adds something.
* `ChunkedMedia.opens`, `ChunkedMedia.Seals.at_offset` — every sealed chunk opens to its piece, and is found at its offset in
  the blob the chunks make.
-/

namespace KChatCore.Media

open Lib

/-- `DEFAULT_CHUNK_SIZE`: 16 MiB. -/
def defaultChunkSize : Nat := 16 * 1024 * 1024

/-- `TAG_LEN` of XChaCha20-Poly1305. -/
def tagLen : Nat := 16

/-- `DEFAULT_CHUNK_CIPHERTEXT_SIZE`. -/
def defaultChunkCiphertextSize : Nat := defaultChunkSize + tagLen

/-- `SIZE_CLASS_PREFIX_LEN`. -/
def sizeClassPrefixLen : Nat := 8

/-- `to_be_bytes` of an `n`-byte number. -/
def beBytes (n v : Nat) : Bytes := (leBytes n v).toList.reverse

/-- `from_be_bytes`. -/
def ofBeBytes (bytes : Bytes) : Nat := bytes.foldl (fun v b => 256 * v + b.toNat) 0

/-! ## Size classes -/

/-- `SIZE_CLASSES`. -/
def sizeClasses : List Nat :=
  [1024, 4 * 1024, 16 * 1024, 64 * 1024, 256 * 1024, 1024 * 1024, 4 * 1024 * 1024, 16 * 1024 * 1024, 64 * 1024 * 1024,
    256 * 1024 * 1024, 1024 * 1024 * 1024]

/-- `next_size_class`; past the table, the next power of two. -/
def nextSizeClass (target : Nat) : Nat := (sizeClasses.find? fun c => target ≤ c).getD (2 ^ Nat.clog 2 target)

/-- `pad_to_size_class`. -/
def padToSizeClass (plaintext : Bytes) : Bytes :=
  let target := nextSizeClass (plaintext.length + sizeClassPrefixLen)
  let out := beBytes 8 plaintext.length ++ plaintext
  out.take target ++ List.replicate (target - out.length) 0

/-- `unpad_from_size_class`. -/
def unpadFromSizeClass (padded : Bytes) : Except Error Bytes :=
  if padded.length < sizeClassPrefixLen then
    .error (.storageMsg "unpad_from_size_class: padded buffer shorter than 8-byte length prefix")
  else
    let originalLen := ofBeBytes (padded.take sizeClassPrefixLen)
    let payload := padded.drop sizeClassPrefixLen
    if originalLen > payload.length then
      .error (.storageMsg "unpad_from_size_class: recorded length exceeds padded payload")
    else .ok (payload.take originalLen)

theorem le_nextSizeClass (target : Nat) : target ≤ nextSizeClass target := by
  unfold nextSizeClass
  cases h : sizeClasses.find? fun c => decide (target ≤ c) with
  | some c => simpa using List.find?_some h
  | none => exact Nat.le_pow_clog (by norm_num) target

@[simp] theorem length_beBytes (n v : Nat) : (beBytes n v).length = n := by simp [beBytes]

/-- The padded bytes: the length, the plaintext, zeros. -/
theorem padToSizeClass_eq (plaintext : Bytes) :
    padToSizeClass plaintext = beBytes 8 plaintext.length ++ (plaintext ++
      List.replicate (nextSizeClass (plaintext.length + sizeClassPrefixLen) - (8 + plaintext.length)) 0) := by
  have hle : plaintext.length + 8 ≤ nextSizeClass (plaintext.length + sizeClassPrefixLen) := le_nextSizeClass _
  have hlen : (beBytes 8 plaintext.length ++ plaintext).length = 8 + plaintext.length := by simp
  have htake : (beBytes 8 plaintext.length ++ plaintext).take (nextSizeClass (plaintext.length + sizeClassPrefixLen)) =
      beBytes 8 plaintext.length ++ plaintext := List.take_of_length_le (by omega)
  unfold padToSizeClass
  simp only
  rw [htake, hlen, List.append_assoc]

/-- **Padding lengthens.** -/
theorem lt_length_padToSizeClass (plaintext : Bytes) : plaintext.length < (padToSizeClass plaintext).length := by
  rw [padToSizeClass_eq]
  simp only [List.length_append, length_beBytes]
  omega

theorem ofBeBytes_append_singleton (bytes : Bytes) (b : UInt8) :
    ofBeBytes (bytes ++ [b]) = 256 * ofBeBytes bytes + b.toNat := by
  simp [ofBeBytes]

/-- Reading a number back. -/
theorem ofBeBytes_beBytes (n v : Nat) : ofBeBytes (beBytes n v) = v % 256 ^ n := by
  induction n generalizing v with
  | zero => simp [beBytes, ofBeBytes, Nat.mod_one]
  | succ n ih =>
      have hcons : (leBytes (n + 1) v).toList = UInt8.ofNat v :: (leBytes n (v / 256)).toList := by
        unfold leBytes
        rw [List.Vector.ofFn]
        simp only [List.Vector.toList_cons, Fin.val_zero, pow_zero, Nat.div_one, List.cons.injEq, true_and]
        refine congrArg List.Vector.toList (congrArg List.Vector.ofFn (funext fun i => ?_))
        rw [Fin.val_succ, pow_succ', Nat.div_div_eq_div_mul]
      have hbe : beBytes (n + 1) v = beBytes n (v / 256) ++ [UInt8.ofNat v] := by
        rw [beBytes, hcons, List.reverse_cons]
        rfl
      rw [hbe, ofBeBytes_append_singleton, ih]
      have hbyte : (UInt8.ofNat v).toNat = v % 256 := by simp
      rw [hbyte, pow_succ', Nat.mod_mul]
      omega

/-- **The padding comes off.** -/
theorem unpad_padToSizeClass {plaintext : Bytes} (h : plaintext.length < 2 ^ 64) :
    unpadFromSizeClass (padToSizeClass plaintext) = .ok plaintext := by
  have hfront : (padToSizeClass plaintext).take sizeClassPrefixLen = beBytes 8 plaintext.length := by
    rw [padToSizeClass_eq]
    exact List.take_left' (length_beBytes 8 _)
  have hrest : (padToSizeClass plaintext).drop sizeClassPrefixLen = plaintext ++
      List.replicate (nextSizeClass (plaintext.length + sizeClassPrefixLen) - (8 + plaintext.length)) 0 := by
    rw [padToSizeClass_eq]
    exact List.drop_left' (length_beBytes 8 _)
  have hvalue : ofBeBytes (beBytes 8 plaintext.length) = plaintext.length := by
    rw [ofBeBytes_beBytes]
    exact Nat.mod_eq_of_lt (by norm_num; omega)
  have hlong : ¬ (padToSizeClass plaintext).length < sizeClassPrefixLen := by
    rw [padToSizeClass_eq]
    simp only [List.length_append, length_beBytes, sizeClassPrefixLen]
    omega
  unfold unpadFromSizeClass
  rw [if_neg hlong]
  simp only [hfront, hrest, hvalue]
  rw [if_neg (by simp), List.take_left]

/-! ## The AAD of a chunk -/

/-- `BlobClass`. -/
inductive BlobClass
  | media
  | archiveSegment
  | searchIndexShard
  | backupSegment
  | manifest
deriving DecidableEq, Repr

/-- `BlobClass::as_u32`. -/
def BlobClass.asU32 : BlobClass → Nat
  | media => 1
  | archiveSegment => 2
  | searchIndexShard => 3
  | backupSegment => 4
  | manifest => 5

/-- `write_varint`: LEB128, in at most `fuel` bytes. -/
def writeVarint : Nat → Nat → Bytes
  | 0, _ => []
  | fuel + 1, value =>
      if value / 128 ≠ 0 then UInt8.ofNat (value % 128 + 128) :: writeVarint fuel (value / 128)
      else [UInt8.ofNat value]

/-- `build_kchat_chunk_aad`. -/
def buildKchatChunkAad (blobId : Bytes) (blobClass : BlobClass) (chunkNo chunkCount : Nat) (merkleRoot : ByteArr 32) :
    Bytes :=
  utf8 "KCHAT_BLOB_CHUNK_V1" ++ blobId ++ writeVarint 10 blobClass.asU32 ++ beBytes 4 chunkNo ++ beBytes 4 chunkCount ++
    merkleRoot.toList

/-- `chunk_nonce`. -/
def chunkNonce (chunkIdx : Nat) : ByteArr 24 :=
  ⟨List.replicate 16 0 ++ beBytes 8 chunkIdx, by simp⟩

/-! ## Sealing -/

/-- `SealedChunk`. -/
structure SealedChunk where
  ciphertext : Bytes
  chunkSha256 : ByteArr 32
deriving DecidableEq

/-- `ChunkedMedia`. -/
structure ChunkedMedia where
  sealedChunks : List SealedChunk
  merkleRoot : ByteArr 32
  chunkCount : Nat
deriving DecidableEq

/-- One turn of the loop of `chunk_and_encrypt`. -/
def sealChunk (P : Primitives) (kAsset : KeyMaterial) (blobId : Bytes) (blobClass : BlobClass) (chunkCount : Nat)
    (merkleRoot : ByteArr 32) (chunkIdx : Nat) (chunkPt : Bytes) : SealedChunk :=
  let aad := buildKchatChunkAad blobId blobClass chunkIdx chunkCount merkleRoot
  let ciphertext := P.aeadSeal kAsset (chunkNonce chunkIdx) chunkPt aad
  ⟨ciphertext, P.sha256 ciphertext⟩

/-- `total_chunks`: an empty plaintext still has one chunk. -/
def totalChunks (chunkSize : Nat) (padded : Bytes) : Nat := if padded.isEmpty then 1 else pieces chunkSize padded

/-- `chunk_and_encrypt`. -/
def chunkAndEncrypt (P : Primitives) (plaintext : Bytes) (kAsset : KeyMaterial) (blobId : Bytes) (blobClass : BlobClass)
    (chunkSize : Nat) (pad : Bool) : Except Error ChunkedMedia :=
  if chunkSize = 0 then .error (.storageMsg "chunk_and_encrypt: chunk_size must be non-zero")
  else
    let padded := if pad then padToSizeClass plaintext else plaintext
    let merkleRoot := P.contentHash padded
    let count := totalChunks chunkSize padded
    if u32Max < count then .error (.storageMsg "chunk_and_encrypt: chunk_count exceeds u32::MAX")
    else
      .ok ⟨(List.range count).map fun chunkIdx =>
          sealChunk P kAsset blobId blobClass count merkleRoot chunkIdx (chunk chunkSize padded chunkIdx),
        merkleRoot, count⟩

/-- **AEAD appends its tag**: the documented length of a sealed chunk. -/
def AppendsTag (P : Primitives) : Prop := ∀ k n p a, (P.aeadSeal k n p a).length = p.length + tagLen

/-- **Executable primitives whose AEAD appends a tag**, made of all that went in. -/
def taggingWith (tag : KeyMaterial → ByteArr 24 → Bytes → Bytes → ByteArr tagLen) : Primitives where
  __ := Primitives.reference
  aeadSeal k n p a := p ++ (tag k n p a).toList
  aeadOpen k n c a :=
    let p := c.take (c.length - tagLen)
    if c.drop (c.length - tagLen) = (tag k n p a).toList then some p else none
  aeadOpen_aeadSeal k n p a := by
    have hlen : (tag k n p a).toList.length = tagLen := (tag k n p a).length_val
    have hbody : (p ++ (tag k n p a).toList).length - tagLen = p.length := by
      rw [List.length_append, hlen]
      omega
    simp only [hbody, List.take_left, List.drop_left, if_true]
  length_le_aeadSeal k n p a := by
    rw [List.length_append]
    omega

theorem taggingWith_appendsTag (tag : KeyMaterial → ByteArr 24 → Bytes → Bytes → ByteArr tagLen) :
    AppendsTag (taggingWith tag) := by
  intro k n p a
  have hlen : (tag k n p a).toList.length = tagLen := (tag k n p a).length_val
  show (p ++ (tag k n p a).toList).length = _
  rw [List.length_append, hlen]

/-- The tag is a checksum. -/
def tagging : Primitives :=
  taggingWith fun k n p a => leBytes tagLen (Primitives.checksum (k.toList ++ n.toList ++ a ++ p))

theorem tagging_appendsTag : AppendsTag tagging := taggingWith_appendsTag _

/-- **The chunks of a padded plaintext.** -/
structure ChunkedMedia.Seals (P : Primitives) (kAsset : KeyMaterial) (blobId : Bytes) (blobClass : BlobClass)
    (chunkSize : Nat) (padded : Bytes) (chunked : ChunkedMedia) : Prop where
  size_pos : 0 < chunkSize
  root : chunked.merkleRoot = P.contentHash padded
  count_pos : 0 < chunked.chunkCount
  count_le : chunked.chunkCount ≤ u32Max
  covers : pieces chunkSize padded ≤ chunked.chunkCount
  full : ∀ i, i + 1 < chunked.chunkCount → (chunk chunkSize padded i).length = chunkSize
  chunks : chunked.sealedChunks = (List.range chunked.chunkCount).map fun i =>
    sealChunk P kAsset blobId blobClass chunked.chunkCount chunked.merkleRoot i (chunk chunkSize padded i)

section Sealed

variable {P : Primitives} {kAsset : KeyMaterial} {blobId : Bytes} {blobClass : BlobClass} {chunkSize : Nat}
  {plaintext padded : Bytes} {pad : Bool} {chunked : ChunkedMedia}

theorem totalChunks_spec (hsize : 0 < chunkSize) (padded : Bytes) :
    0 < totalChunks chunkSize padded ∧ pieces chunkSize padded ≤ totalChunks chunkSize padded ∧
      ∀ i, i + 1 < totalChunks chunkSize padded → (chunk chunkSize padded i).length = chunkSize := by
  unfold totalChunks
  by_cases hnil : padded = []
  · subst hnil
    have hpieces : pieces chunkSize ([] : Bytes) = 0 := by
      unfold pieces
      exact Nat.div_eq_of_lt (by simp; omega)
    refine ⟨by simp, by simp [hpieces], fun i hi => ?_⟩
    exact absurd hi (by simp)
  · have hempty : padded.isEmpty = false := by simpa using hnil
    have hlen := List.length_pos_iff.mpr hnil
    have hone : 0 < pieces chunkSize padded := Nat.div_pos (by omega) hsize
    rw [hempty]
    exact ⟨hone, le_rfl, fun i hi => length_chunk_of_lt hi⟩

theorem chunkAndEncrypt_eq_ok (h : chunkAndEncrypt P plaintext kAsset blobId blobClass chunkSize pad = .ok chunked) :
    chunked.Seals P kAsset blobId blobClass chunkSize (if pad then padToSizeClass plaintext else plaintext) := by
  unfold chunkAndEncrypt at h
  by_cases hsize : chunkSize = 0
  · rw [if_pos hsize] at h
    exact absurd h (by simp)
  · rw [if_neg hsize] at h
    simp only at h
    generalize (if pad = true then padToSizeClass plaintext else plaintext) = padded at h ⊢
    obtain ⟨hpos, hcovers, hfull⟩ := totalChunks_spec (Nat.pos_of_ne_zero hsize) padded
    by_cases hcount : u32Max < totalChunks chunkSize padded
    · rw [if_pos hcount] at h
      exact absurd h (by simp)
    · rw [if_neg hcount] at h
      obtain rfl := Except.ok.inj h
      exact ⟨Nat.pos_of_ne_zero hsize, rfl, hpos, not_lt.mp hcount, hcovers, hfull, rfl⟩

/-- The blob that the chunks make. -/
def blobOf (chunks : List SealedChunk) : Bytes := chunks.flatMap SealedChunk.ciphertext

/-- The AAD of a chunk. -/
def ChunkedMedia.aad (chunked : ChunkedMedia) (blobId : Bytes) (blobClass : BlobClass) (i : Nat) : Bytes :=
  buildKchatChunkAad blobId blobClass i chunked.chunkCount chunked.merkleRoot

/-- The ciphertext of a chunk. -/
def ChunkedMedia.ciphertext (P : Primitives) (chunked : ChunkedMedia) (kAsset : KeyMaterial) (blobId : Bytes)
    (blobClass : BlobClass) (chunkSize : Nat) (padded : Bytes) (i : Nat) : Bytes :=
  P.aeadSeal kAsset (chunkNonce i) (chunk chunkSize padded i) (chunked.aad blobId blobClass i)

theorem ChunkedMedia.Seals.ciphertexts (h : chunked.Seals P kAsset blobId blobClass chunkSize padded) :
    chunked.sealedChunks.map SealedChunk.ciphertext =
      (List.range chunked.chunkCount).map (chunked.ciphertext P kAsset blobId blobClass chunkSize padded) := by
  rw [h.chunks, List.map_map]
  rfl

theorem ChunkedMedia.Seals.length_sealedChunks (h : chunked.Seals P kAsset blobId blobClass chunkSize padded) :
    chunked.sealedChunks.length = chunked.chunkCount := by
  rw [h.chunks]
  simp

/-- **A sealed chunk opens to its piece.** -/
theorem ChunkedMedia.opens (chunked : ChunkedMedia) (i : Nat) :
    P.aeadOpen kAsset (chunkNonce i) (chunked.ciphertext P kAsset blobId blobClass chunkSize padded i)
      (chunked.aad blobId blobClass i) = some (chunk chunkSize padded i) :=
  P.aeadOpen_aeadSeal _ _ _ _

/-- **A sealed chunk is found at its offset in the blob.** -/
theorem ChunkedMedia.Seals.at_offset (h : chunked.Seals P kAsset blobId blobClass chunkSize padded)
    (htag : AppendsTag P) {i : Nat} (hi : i < chunked.chunkCount) :
    chunk (chunkSize + tagLen) (blobOf chunked.sealedChunks) i =
      chunked.ciphertext P kAsset blobId blobClass chunkSize padded i := by
  have hblob : blobOf chunked.sealedChunks =
      (List.range chunked.chunkCount).flatMap (chunked.ciphertext P kAsset blobId blobClass chunkSize padded) := by
    unfold blobOf
    rw [List.flatMap_def, h.ciphertexts, ← List.flatMap_def]
  rw [hblob]
  refine chunk_flatten (fun j hj => ?_) (fun j _ => ?_) hi
  · show (P.aeadSeal _ _ _ _).length = _
    rw [htag, h.full j hj]
  · show (P.aeadSeal _ _ _ _).length ≤ _
    rw [htag, length_chunk]
    omega

/-- The pieces of all chunks are the plaintext. -/
theorem ChunkedMedia.Seals.pieces_eq (h : chunked.Seals P kAsset blobId blobClass chunkSize padded) :
    (List.range chunked.chunkCount).flatMap (chunk chunkSize padded) = padded :=
  flatten_chunks h.size_pos h.covers

end Sealed

end KChatCore.Media
