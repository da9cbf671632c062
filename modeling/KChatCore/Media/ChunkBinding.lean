import KChatCore.Media.Download

/-!
# `Media.ChunkBinding` — the round trip of the chunker, and what its AAD rules out

A chunk is sealed under its position and under how many there are. Where the AEAD is ideal, a list of chunks is accepted
for an asset only as the list that was sealed: whatever has been dropped, repeated, moved or put in from elsewhere.

* `buildKchatChunkAad_inj` — the AAD tells positions and counts apart.
* `ChunkedMedia.Seals.eq_of_accepted` — what is accepted is what was sealed.
* `chunker_round_trip_and_order` — the round trip for every plaintext, chunk size and padding, and the order of the chunks.
-/

namespace KChatCore.Media

open Lib

/-! ## The AAD of a chunk -/

/-- Four bytes tell the numbers up to `u32::MAX` apart. -/
theorem beBytes_four_inj {i j : Nat} (hi : i ≤ u32Max) (hj : j ≤ u32Max) (h : beBytes 4 i = beBytes 4 j) : i = j := by
  have hval := congrArg ofBeBytes h
  rw [ofBeBytes_beBytes, ofBeBytes_beBytes] at hval
  unfold u32Max at hi hj
  omega

/-- **The AAD names the position of a chunk and how many there are.** -/
theorem buildKchatChunkAad_inj {blobId : Bytes} {blobClass : BlobClass} {root : ByteArr 32} {i j m n : Nat}
    (hi : i ≤ u32Max) (hj : j ≤ u32Max) (hm : m ≤ u32Max) (hn : n ≤ u32Max)
    (h : buildKchatChunkAad blobId blobClass i m root = buildKchatChunkAad blobId blobClass j n root) :
    i = j ∧ m = n := by
  unfold buildKchatChunkAad at h
  -- The root at the end is the same, and in front of it stand two fields of fixed length.
  have hfields := List.append_cancel_right h
  obtain ⟨hfront, hcount⟩ := List.append_inj' hfields (by simp)
  have hindex := List.append_cancel_left hfront
  exact ⟨beBytes_four_inj hi hj hindex, beBytes_four_inj hm hn hcount⟩

/-! ## An ideal AEAD -/

/-- **An ideal AEAD, under a key**: only what was sealed opens, and a ciphertext was sealed under one AAD. -/
structure IdealAead (P : Primitives) (key : KeyMaterial) : Prop where
  opens_sealed : ∀ nonce ciphertext aad plaintext, P.aeadOpen key nonce ciphertext aad = some plaintext →
    ciphertext = P.aeadSeal key nonce plaintext aad
  one_aad : ∀ nonce nonce' plaintext plaintext' aad aad',
    P.aeadSeal key nonce plaintext aad = P.aeadSeal key nonce' plaintext' aad' → aad = aad'

/-- Nobody has sealed this for the asset, at any position among any number of chunks. -/
def Foreign (P : Primitives) (kAsset : KeyMaterial) (blobId : Bytes) (blobClass : BlobClass) (root : ByteArr 32)
    (ciphertext : Bytes) : Prop :=
  ∀ nonce plaintext i n, ciphertext ≠ P.aeadSeal kAsset nonce plaintext (buildKchatChunkAad blobId blobClass i n root)

/-- **A rearrangement of an asset's chunks**: each is one of them, or was put in from elsewhere. -/
def Rearranges (P : Primitives) (kAsset : KeyMaterial) (blobId : Bytes) (blobClass : BlobClass) (chunked : ChunkedMedia)
    (chunks : List SealedChunk) : Prop :=
  ∀ c ∈ chunks, (∃ original ∈ chunked.sealedChunks, c.ciphertext = original.ciphertext) ∨
    Foreign P kAsset blobId blobClass chunked.merkleRoot c.ciphertext

/-! ## What is accepted -/

section Accepted

variable {P : Primitives} {kAsset : KeyMaterial} {blobId : Bytes} {blobClass : BlobClass} {root : ByteArr 32}
  {chunks : List SealedChunk} {result : Bytes}

/-- **What acceptance says of each chunk**: its hash is right and it opens at its position. -/
theorem verifyAndDecrypt_eq_ok (h : verifyAndDecrypt P chunks root kAsset blobId blobClass = .ok result) :
    chunks ≠ [] ∧ chunks.length ≤ u32Max ∧ ∀ i c, chunks[i]? = some c → P.sha256 c.ciphertext = c.chunkSha256 ∧
      ∃ pt, P.aeadOpen kAsset (chunkNonce i) c.ciphertext
        (buildKchatChunkAad blobId blobClass i chunks.length root) = some pt := by
  unfold verifyAndDecrypt at h
  by_cases hempty : chunks.isEmpty = true
  · rw [if_pos hempty] at h
    exact absurd h (by simp)
  rw [if_neg hempty] at h
  by_cases hlong : u32Max < chunks.length
  · rw [if_pos hlong] at h
    exact absurd h (by simp)
  rw [if_neg hlong] at h
  refine ⟨by simpa using hempty, not_lt.mp hlong, fun i c hc => ?_⟩
  have hmem : (c, i) ∈ chunks.zipIdx := List.mem_zipIdx_iff_getElem?.mpr hc
  -- every hash is checked before the first chunk is opened
  cases hsha : chunks.zipIdx.find? fun c => P.sha256 c.1.ciphertext ≠ c.1.chunkSha256 with
  | some bad =>
      rw [hsha] at h
      exact absurd h (by simp)
  | none =>
      rw [hsha] at h
      obtain ⟨plaintext, hloop, -⟩ := except_bind_eq_ok.mp h
      obtain ⟨pt, hopen⟩ := downloadLoop_eq_ok hloop (c, i) hmem
      have hhash : P.sha256 c.ciphertext = c.chunkSha256 := by simpa using List.find?_eq_none.mp hsha (c, i) hmem
      refine ⟨hhash, pt, ?_⟩
      unfold openChunk at hopen
      simp only at hopen
      cases haead : P.aeadOpen kAsset (chunkNonce i) c.ciphertext
          (buildKchatChunkAad blobId blobClass i chunks.length root) with
      | none =>
          rw [haead] at hopen
          exact absurd hopen (by simp)
      | some p =>
          rw [haead] at hopen
          rw [Except.ok.inj hopen]

variable {chunked : ChunkedMedia} {chunkSize : Nat} {padded : Bytes}

/-- The chunk that was sealed at a position. -/
theorem ChunkedMedia.Seals.getElem? (h : chunked.Seals P kAsset blobId blobClass chunkSize padded) {i : Nat}
    (hi : i < chunked.chunkCount) :
    chunked.sealedChunks[i]? = some ⟨chunked.ciphertext P kAsset blobId blobClass chunkSize padded i,
      P.sha256 (chunked.ciphertext P kAsset blobId blobClass chunkSize padded i)⟩ := by
  rw [h.chunks, List.getElem?_map, List.getElem?_range hi]
  rfl

/-- **A chunk that opens at a position was sealed at that position**, among as many chunks. -/
theorem ChunkedMedia.Seals.position (h : chunked.Seals P kAsset blobId blobClass chunkSize padded)
    (hideal : IdealAead P kAsset) (hmade : Rearranges P kAsset blobId blobClass chunked chunks)
    (hshort : chunks.length ≤ u32Max) {i : Nat} {c : SealedChunk} (hc : chunks[i]? = some c) {pt : Bytes}
    (hopen : P.aeadOpen kAsset (chunkNonce i) c.ciphertext
      (buildKchatChunkAad blobId blobClass i chunks.length chunked.merkleRoot) = some pt) :
    i < chunked.chunkCount ∧ chunks.length = chunked.chunkCount ∧
      c.ciphertext = chunked.ciphertext P kAsset blobId blobClass chunkSize padded i := by
  have hsealed := hideal.opens_sealed _ _ _ _ hopen
  have hi : i < chunks.length := (List.getElem?_eq_some_iff.mp hc).1
  obtain ⟨original, hmem, heq⟩ | hforeign := hmade c (List.mem_of_getElem? hc)
  · rw [h.chunks] at hmem
    obtain ⟨j, hj, rfl⟩ := List.mem_map.mp hmem
    have hj := List.mem_range.mp hj
    have hcount := h.count_le
    have hone : P.aeadSeal kAsset (chunkNonce i) pt
        (buildKchatChunkAad blobId blobClass i chunks.length chunked.merkleRoot) =
        chunked.ciphertext P kAsset blobId blobClass chunkSize padded j := hsealed.symm.trans heq
    have haad := hideal.one_aad _ _ _ _ _ _ hone
    obtain ⟨rfl, hlen⟩ := buildKchatChunkAad_inj (hi.le.trans hshort) (hj.le.trans hcount) hshort hcount haad
    exact ⟨hj, hlen, heq⟩
  · exact absurd hsealed (hforeign _ _ _ _)

/-- **What is accepted is what was sealed.** -/
theorem ChunkedMedia.Seals.eq_of_accepted (h : chunked.Seals P kAsset blobId blobClass chunkSize padded)
    (hideal : IdealAead P kAsset) (hmade : Rearranges P kAsset blobId blobClass chunked chunks)
    (hok : verifyAndDecrypt P chunks chunked.merkleRoot kAsset blobId blobClass = .ok result) :
    chunks = chunked.sealedChunks := by
  obtain ⟨hne, hshort, hall⟩ := verifyAndDecrypt_eq_ok hok
  have hat : ∀ (i : Nat) (c : SealedChunk), chunks[i]? = some c →
      chunks.length = chunked.chunkCount ∧ chunked.sealedChunks[i]? = some c := by
    intro i c hc
    obtain ⟨hhash, pt, hopen⟩ := hall i c hc
    obtain ⟨hi, hlen, hcipher⟩ := h.position hideal hmade hshort hc hopen
    refine ⟨hlen, ?_⟩
    rw [h.getElem? hi, ← hcipher, hhash]
  obtain ⟨c, hc⟩ : ∃ c, chunks[0]? = some c := ⟨_, List.getElem?_eq_getElem (List.length_pos_iff.mpr hne)⟩
  have hlen := (hat 0 c hc).1
  -- Position by position; behind the last one both lists have nothing.
  apply List.ext_getElem?
  intro i
  by_cases hi : i < chunks.length
  · rw [(hat i _ (List.getElem?_eq_getElem hi)).2, List.getElem?_eq_getElem hi]
  · rw [List.getElem?_eq_none (not_lt.mp hi), List.getElem?_eq_none]
    rw [h.length_sealedChunks, ← hlen]
    exact not_lt.mp hi

end Accepted

/-! ## The chunker -/

/-- **When a plaintext is chunked**: the count fits. -/
theorem chunkAndEncrypt_ok_iff {P : Primitives} {plaintext : Bytes} {kAsset : KeyMaterial} {blobId : Bytes}
    {blobClass : BlobClass} {chunkSize : Nat} {pad : Bool} (hsize : 0 < chunkSize) :
    (∃ chunked, chunkAndEncrypt P plaintext kAsset blobId blobClass chunkSize pad = .ok chunked) ↔
      totalChunks chunkSize (if pad then padToSizeClass plaintext else plaintext) ≤ u32Max := by
  unfold chunkAndEncrypt
  rw [if_neg (Nat.pos_iff_ne_zero.mp hsize)]
  simp only
  generalize (if pad = true then padToSizeClass plaintext else plaintext) = padded
  by_cases hcount : u32Max < totalChunks chunkSize padded
  · rw [if_pos hcount]
    simp [hcount]
  · rw [if_neg hcount]
    simp [not_lt.mp hcount]

/-- **The round trip of the chunker and the order of its chunks.** A slice has at most `isize::MAX` bytes. -/
theorem chunker_round_trip_and_order (P : Primitives) (plaintext : Bytes) (kAsset : KeyMaterial) (blobId : Bytes)
    (blobClass : BlobClass) (chunkSize : Nat) (pad : Bool) (hsize : 0 < chunkSize) (hslice : plaintext.length < 2 ^ 63) :
    ((∃ chunked, chunkAndEncrypt P plaintext kAsset blobId blobClass chunkSize pad = .ok chunked) ↔
      totalChunks chunkSize (if pad then padToSizeClass plaintext else plaintext) ≤ u32Max) ∧
    unpadFromSizeClass (padToSizeClass plaintext) = .ok plaintext ∧
    ∀ chunked, chunkAndEncrypt P plaintext kAsset blobId blobClass chunkSize pad = .ok chunked →
      verifyAndDecrypt P chunked.sealedChunks chunked.merkleRoot kAsset blobId blobClass =
        .ok (if pad then padToSizeClass plaintext else plaintext) ∧
      1 ≤ chunked.chunkCount ∧ chunked.chunkCount = chunked.sealedChunks.length ∧
      (IdealAead P kAsset → ∀ chunks, Rearranges P kAsset blobId blobClass chunked chunks →
        chunks ≠ chunked.sealedChunks →
        ∃ e, verifyAndDecrypt P chunks chunked.merkleRoot kAsset blobId blobClass = .error e) := by
  refine ⟨chunkAndEncrypt_ok_iff hsize, unpad_padToSizeClass (by omega), fun chunked h => ?_⟩
  have hseals := chunkAndEncrypt_eq_ok h
  refine ⟨verifyAndDecrypt_sealed hseals, hseals.count_pos, hseals.length_sealedChunks.symm, ?_⟩
  intro hideal chunks hmade hne
  -- an accepted list is the sealed one
  cases hres : verifyAndDecrypt P chunks chunked.merkleRoot kAsset blobId blobClass with
  | error e => exact ⟨e, rfl⟩
  | ok result => exact absurd (hseals.eq_of_accepted hideal hmade hres) hne

/-- **Executable primitives with an ideal AEAD**: the key, the nonce and the AAD, each told apart, in front of the body. -/
def idealPrimitives : Primitives where
  __ := Primitives.reference
  aeadSeal k n p a := Primitives.framed (PrefixCodec.bytes.enc a ++ k.toList ++ n.toList) p
  aeadOpen k n c a := Primitives.unframe (PrefixCodec.bytes.enc a ++ k.toList ++ n.toList) c
  aeadOpen_aeadSeal _ _ _ _ := Primitives.unframe_framed _ _
  length_le_aeadSeal k n p a := by
    rw [Primitives.framed, List.length_append]
    exact Nat.le_add_left _ _

/-- What is behind a header has the header in front. -/
theorem eq_framed_of_unframe {header b body : Bytes} (h : Primitives.unframe header b = some body) :
    b = Primitives.framed header body := by
  unfold Primitives.unframe at h
  by_cases hfront : b.take header.length = header
  · rw [if_pos hfront] at h
    obtain rfl := Option.some.inj h
    calc b = b.take header.length ++ b.drop header.length := (List.take_append_drop _ _).symm
      _ = header ++ b.drop header.length := by rw [hfront]
  · rw [if_neg hfront] at h
    exact absurd h (by simp)

theorem idealPrimitives_ideal (key : KeyMaterial) : IdealAead idealPrimitives key where
  opens_sealed _ _ _ _ h := eq_framed_of_unframe h
  one_aad nonce nonce' plaintext plaintext' aad aad' h := by
    have heq : PrefixCodec.bytes.enc aad ++ (key.toList ++ nonce.toList ++ plaintext) =
        PrefixCodec.bytes.enc aad' ++ (key.toList ++ nonce'.toList ++ plaintext') := by
      simpa [idealPrimitives, Primitives.framed] using h
    have hdec := congrArg PrefixCodec.bytes.dec heq
    rw [PrefixCodec.dec_enc, PrefixCodec.dec_enc] at hdec
    exact congrArg Prod.fst (Option.some.inj hdec)

/-- Three bytes in chunks of two: without the last chunk the first is rejected. -/
theorem chunker_rejects_missing_chunk : ∃ chunked e,
    chunkAndEncrypt idealPrimitives [1, 2, 3] (leBytes 32 7) (List.replicate 16 9) .media 2 false = .ok chunked ∧
      chunked.chunkCount = 2 ∧
      verifyAndDecrypt idealPrimitives chunked.sealedChunks.dropLast chunked.merkleRoot (leBytes 32 7)
        (List.replicate 16 9) .media = .error e := by
  obtain ⟨hok, -, hall⟩ := chunker_round_trip_and_order idealPrimitives [1, 2, 3] (leBytes 32 7)
    (List.replicate 16 9) .media 2 false (by norm_num) (by norm_num)
  have hfits : totalChunks 2 (if false = true then padToSizeClass [1, 2, 3] else [1, 2, 3]) ≤ u32Max := by decide
  obtain ⟨chunked, h⟩ := hok.mpr hfits
  obtain ⟨-, -, hlen, hreject⟩ := hall chunked h
  have hcount : chunked.chunkCount = 2 := (congrArg ChunkedMedia.chunkCount (Except.ok.inj h)).symm
  obtain ⟨e, he⟩ := hreject (idealPrimitives_ideal _) chunked.sealedChunks.dropLast
    (fun c hc => .inl ⟨c, List.mem_of_mem_dropLast hc, rfl⟩) (by
      intro heq
      have hshorter := congrArg List.length heq
      rw [List.length_dropLast] at hshorter
      omega)
  exact ⟨chunked, e, h, hcount, he⟩

end KChatCore.Media
