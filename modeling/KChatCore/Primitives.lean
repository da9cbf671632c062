import KChatCore.Formats
import KChatCore.Lib.Codec

/-!
# `Primitives` — the third-party functions the pipelines call

Hashing, compression, AEAD, key wrapping, key derivation, hybrid signatures and CBOR come from other crates.
The model takes them as one parameter, `Primitives`, whose laws are what those crates document: what is
sealed opens under the same key, nonce and AAD; what is wrapped unwraps; what is signed verifies; what is
encoded decodes.

`Primitives.reference` is a concrete, executable instance with these laws.
-/

namespace KChatCore

open Lib

/-- `KeyMaterial`, and every other 32-byte symmetric key. -/
abbrev KeyMaterial := ByteArr 32

/-- `ED25519 SIGNATURE_LENGTH`. -/
def signatureLength : Nat := 64

/-- `ML_DSA_65_SIGNATURE_LEN`. -/
def mlDsa65SignatureLen : Nat := 3309

/-- `WRAPPED_KEY_LEN`. -/
def wrappedKeyLen : Nat := 8 + 32

/-- `HybridSignatureFailure`: the leg that did not verify. -/
inductive HybridSignatureFailure
  | ed25519
  | mlDsa
deriving DecidableEq, Repr

/-- **The third-party functions**, with their documented laws. -/
structure Primitives where
  /-- BLAKE3. -/
  contentHash : Bytes → ByteArr 32
  /-- SHA-256. -/
  sha256 : Bytes → ByteArr 32
  /-- `zstd::stream::encode_all`. -/
  encodeAll : Bytes → Bytes
  /-- `zstd::stream::decode_all`. -/
  decodeAll : Bytes → Option Bytes
  decodeAll_encodeAll : ∀ b, decodeAll (encodeAll b) = some b
  /-- `xchacha20_poly1305::seal` (key, nonce, plaintext, aad). -/
  aeadSeal : KeyMaterial → ByteArr 24 → Bytes → Bytes → Bytes
  /-- `xchacha20_poly1305::open` (key, nonce, ciphertext, aad). -/
  aeadOpen : KeyMaterial → ByteArr 24 → Bytes → Bytes → Option Bytes
  aeadOpen_aeadSeal : ∀ k n p a, aeadOpen k n (aeadSeal k n p a) a = some p
  length_le_aeadSeal : ∀ k n p a, p.length ≤ (aeadSeal k n p a).length
  /-- RFC 3394 key wrap (wrapping key, key). -/
  kekWrap : KeyMaterial → KeyMaterial → ByteArr wrappedKeyLen
  kekUnwrap : KeyMaterial → Bytes → Option KeyMaterial
  kekUnwrap_kekWrap : ∀ kek k, kekUnwrap kek (kekWrap kek k).toList = some k
  /-- HKDF with the segment label. -/
  deriveBackupSegment : KeyMaterial → Bytes → KeyMaterial
  /-- HKDF with the manifest label. -/
  deriveBackupManifest : KeyMaterial → Bytes → KeyMaterial
  /-- HKDF with the archive epoch label. -/
  deriveArchiveEpoch : KeyMaterial → Bytes → KeyMaterial
  /-- HKDF of a content hash, salted with the tenant id. -/
  deriveConvergentDek : Bytes → Bytes → KeyMaterial
  /-- HKDF with the convergent nonce label and the chunk index. -/
  deriveConvergentNonce : KeyMaterial → Nat → ByteArr 24
  /-- `HybridSigningKey::verifying_key`. -/
  verifyingKey : Bytes → Bytes
  /-- `HybridSigningKey::sign_payload`. -/
  signPayload : Bytes → Bytes → ByteArr signatureLength × ByteArr mlDsa65SignatureLen
  /-- `HybridVerifyingKey::verify_payload`. -/
  verifyPayload : Bytes → Bytes → Bytes → Bytes → Except HybridSignatureFailure Unit
  verifyPayload_signPayload : ∀ sk m,
    verifyPayload (verifyingKey sk) m (signPayload sk m).1.toList (signPayload sk m).2.toList = .ok ()
  /-- CBOR of the payload a segment seals. -/
  cborSegmentPayload : Codec BackupSegmentPayload
  /-- CBOR of the payload an archive segment seals. -/
  cborArchivePayload : Codec ArchiveSegmentPayload
  /-- CBOR of the payload of an archive event that carries a body. -/
  cborBodyPayload : Codec ArchiveMessageBodyPayload
  /-- CBOR of a backup manifest. -/
  cborManifest : Codec BackupManifest
  /-- CBOR of a manifest bundle. -/
  cborManifestBundle : Codec SealedManifestBundle
  /-- CBOR of a segment bundle. -/
  cborSegmentBundle : Codec SealedSegmentBundle

attribute [simp] Primitives.decodeAll_encodeAll Primitives.aeadOpen_aeadSeal
  Primitives.kekUnwrap_kekWrap Primitives.verifyPayload_signPayload

/-! ## Key wrapping -/

/-- `wrap_k_asset`. -/
def wrapKAsset (P : Primitives) (kAsset wrappingRoot : KeyMaterial) : Bytes :=
  (P.kekWrap wrappingRoot kAsset).toList

/-- `unwrap_k_asset`: the length is checked before the unwrap. -/
def unwrapKAsset (P : Primitives) (wrapped : Bytes) (wrappingRoot : KeyMaterial) :
    Except CryptoError KeyMaterial :=
  if wrapped.length ≠ wrappedKeyLen then
    .error (.invalidInput "aes-kw unwrap: wrapped key must be 40 bytes")
  else
    match P.kekUnwrap wrappingRoot wrapped with
    | some k => .ok k
    | none => .error (.aead "aes-kw unwrap failed")

@[simp] theorem unwrapKAsset_wrapKAsset (P : Primitives) (k root : KeyMaterial) :
    unwrapKAsset P (wrapKAsset P k root) root = .ok k := by
  simp [unwrapKAsset, wrapKAsset]

/-! ## A reference instance -/

namespace Primitives

open PrefixCodec

/-- A byte checksum, standing for a hash. -/
def checksum (b : Bytes) : Nat := b.foldl (fun h x => 257 * h + x.toNat + 1) 0

/-- Bytes behind a header that says what they belong to. -/
def framed (header body : Bytes) : Bytes := header ++ body

/-- The body, if the header is the expected one. -/
def unframe (header b : Bytes) : Option Bytes :=
  if b.take header.length = header then some (b.drop header.length) else none

@[simp] theorem unframe_framed (header body : Bytes) : unframe header (framed header body) = some body := by
  simp [unframe, framed]

/-- A variant of an enumeration, as its position. -/
def enumCodec {α : Type} (toNat : α → Nat) (ofNat : Nat → α) (h : ∀ a, ofNat (toNat a) = a) :
    PrefixCodec α := nat.iso toNat ofNat h

def eventTypeCodec : PrefixCodec BackupEventType :=
  enumCodec BackupEventType.ctorIdx
    (fun n => ([.messageReceived, .messageEdited, .messageDeleted, .mediaReceived, .mediaDeleted,
      .conversationCreated, .conversationDeleted] : List BackupEventType).getD n .messageReceived)
    (by intro t; cases t <;> rfl)

def segmentTypeCodec : PrefixCodec SegmentType :=
  enumCodec SegmentType.ctorIdx
    (fun n => ([.events, .messageDelta, .timelineSkeleton, .mediaKeyDelta, .searchTextIndex,
      .searchVectorIndex, .mediaIndex, .checkpoint] : List SegmentType).getD n .events)
    (by intro t; cases t <;> rfl)

def indexTypeCodec : PrefixCodec IndexType :=
  enumCodec IndexType.ctorIdx
    (fun n => ([.bloom, .text, .fuzzy, .vector, .media] : List IndexType).getD n .bloom)
    (by intro t; cases t <;> rfl)

def uuidCodec : PrefixCodec Uuid := nat.iso Uuid.val Uuid.mk fun _ => rfl

def eventCodec : PrefixCodec BackupEvent :=
  (eventTypeCodec.prod <| (option uuidCodec).prod <| (option uuidCodec).prod <| bytes.prod int).iso
    (fun e => (e.eventType, e.conversationId, e.messageId, e.payload, e.createdAtMs))
    (fun t => ⟨t.1, t.2.1, t.2.2.1, t.2.2.2.1, t.2.2.2.2⟩) fun _ => rfl

def archiveEventTypeCodec : PrefixCodec ArchiveEventType :=
  enumCodec ArchiveEventType.ctorIdx
    (fun n => ([.messageReceived, .messageEdited, .messageDeleted, .mediaReceived, .conversationCreated,
      .conversationDeleted] : List ArchiveEventType).getD n .messageReceived)
    (by intro t; cases t <;> rfl)

def archiveEventCodec : PrefixCodec ArchiveEvent :=
  (archiveEventTypeCodec.prod <| uuidCodec.prod <| (option uuidCodec).prod <| bytes.prod int).iso
    (fun e => (e.eventType, e.conversationId, e.messageId, e.payload, e.createdAtMs))
    (fun t => ⟨t.1, t.2.1, t.2.2.1, t.2.2.2.1, t.2.2.2.2⟩) fun _ => rfl

def archivePayloadCodec : PrefixCodec ArchiveSegmentPayload :=
  (bytes.prod <| string.prod <| string.prod <| list archiveEventCodec).iso
    (fun p => (p.magic, p.conversationId, p.timeBucket, p.events)) (fun t => ⟨t.1, t.2.1, t.2.2.1, t.2.2.2⟩)
    fun _ => rfl

def bodyPayloadCodec : PrefixCodec ArchiveMessageBodyPayload :=
  (string.prod (option string)).iso (fun p => (p.magic, p.textContent)) (fun t => ⟨t.1, t.2⟩) fun _ => rfl

def segmentPayloadCodec : PrefixCodec BackupSegmentPayload :=
  (bytes.prod (list eventCodec)).iso (fun p => (p.magic, p.events)) (fun t => ⟨t.1, t.2⟩) fun _ => rfl

def segmentRefCodec : PrefixCodec ManifestSegmentRef :=
  (uuidCodec.prod <| segmentTypeCodec.prod <| (array 32).prod nat).iso
    (fun r => (r.segmentId, r.segmentType, r.ciphertextSha256, r.size))
    (fun t => ⟨t.1, t.2.1, t.2.2.1, t.2.2.2⟩) fun _ => rfl

def shardRefCodec : PrefixCodec ManifestShardRef :=
  (uuidCodec.prod <| indexTypeCodec.prod <| (array 32).prod string).iso
    (fun r => (r.shardId, r.indexType, r.ciphertextSha256, r.timeBucket))
    (fun t => ⟨t.1, t.2.1, t.2.2.1, t.2.2.2⟩) fun _ => rfl

def mediaRefCodec : PrefixCodec ManifestMediaRef :=
  (uuidCodec.prod <| uuidCodec.prod <| (array 32).prod bytes).iso
    (fun r => (r.assetId, r.blobId, r.merkleRoot, r.wrappedKAsset))
    (fun t => ⟨t.1, t.2.1, t.2.2.1, t.2.2.2⟩) fun _ => rfl

def tombstoneCodec : PrefixCodec Tombstone :=
  (string.prod <| string.prod int).iso (fun r => (r.kind, r.id, r.deletedAtMs))
    (fun t => ⟨t.1, t.2.1, t.2.2⟩) fun _ => rfl

def manifestCodec : PrefixCodec BackupManifest :=
  (string.prod <| nat.prod <| uuidCodec.prod <| nat.prod <| (array 32).prod <|
    (list segmentRefCodec).prod <| (list shardRefCodec).prod <| (list mediaRefCodec).prod <|
    (list tombstoneCodec).prod <| (array 32).prod <| bytes.prod bytes).iso
    (fun m => (m.magic, m.version, m.manifestId, m.generation, m.previousManifestHash, m.segments,
      m.searchIndexShards, m.mediaReferences, m.tombstones, m.merkleRoot, m.manifestSignature,
      m.pqcSignature))
    (fun (a, b, c, d, e, f, g, h, i, j, k, l) => ⟨a, b, c, d, e, f, g, h, i, j, k, l⟩) fun _ => rfl

def manifestBundleCodec : PrefixCodec SealedManifestBundle :=
  ((array 16).prod <| nat.prod <| manifestCodec.prod <| (array 24).prod <| bytes.prod string).iso
    (fun b => (b.magic, b.version, b.manifest, b.nonce, b.ciphertext, b.deviceId))
    (fun (a, b, c, d, e, f) => ⟨a, b, c, d, e, f⟩) fun _ => rfl

def segmentBundleCodec : PrefixCodec SealedSegmentBundle :=
  ((array 16).prod <| nat.prod <| uuidCodec.prod <| segmentTypeCodec.prod <| (array 24).prod <|
    bytes.prod <| (array 32).prod <| nat.prod bytes).iso
    (fun b => (b.magic, b.version, b.segmentId, b.segmentType, b.nonce, b.ciphertext, b.merkleRoot,
      b.eventCount, b.wrappedKSegment))
    (fun (a, b, c, d, e, f, g, h, i) => ⟨a, b, c, d, e, f, g, h, i⟩) fun _ => rfl

/-- **Executable primitives with every law.** Sealing and wrapping put the key, nonce and AAD in front of the
body and opening checks them, a signature is a checksum of key and message. -/
def reference : Primitives where
  contentHash b := leBytes 32 (checksum b)
  sha256 b := leBytes 32 (checksum b)
  encodeAll b := b
  decodeAll b := some b
  decodeAll_encodeAll _ := rfl
  aeadSeal k n p a := framed (k.toList ++ n.toList ++ a) p
  aeadOpen k n c a := unframe (k.toList ++ n.toList ++ a) c
  aeadOpen_aeadSeal k n p a := unframe_framed _ _
  length_le_aeadSeal k n p a := by
    rw [framed, List.length_append]
    exact Nat.le_add_left _ _
  kekWrap kek k := leBytes 8 (checksum kek.toList) ++ k
  kekUnwrap kek w :=
    (unframe (leBytes 8 (checksum kek.toList)).toList w).bind fun b =>
      if h : b.length = 32 then some ⟨b, h⟩ else none
  kekUnwrap_kekWrap kek k := by
    have happ := List.Vector.toList_append (leBytes 8 (checksum kek.toList)) k
    show (unframe _ (List.Vector.toList (leBytes 8 (checksum kek.toList) ++ k : ByteArr (8 + 32)))).bind _ = _
    rw [happ]
    show (unframe _ (framed _ _)).bind _ = _
    rw [unframe_framed]
    simp
  deriveBackupSegment root id := leBytes 32 (checksum (root.toList ++ utf8 "segment" ++ id))
  deriveBackupManifest root id := leBytes 32 (checksum (root.toList ++ utf8 "manifest" ++ id))
  deriveArchiveEpoch root id := leBytes 32 (checksum (root.toList ++ utf8 "archive-epoch" ++ id))
  deriveConvergentDek hash tenant := leBytes 32 (checksum (tenant ++ hash))
  deriveConvergentNonce dek index := leBytes 24 (checksum dek.toList + index)
  verifyingKey sk := sk
  signPayload sk m := (leBytes _ (checksum (sk ++ m)), leBytes _ (checksum (sk ++ m)))
  verifyPayload vk m ed ml :=
    if ed ≠ (leBytes signatureLength (checksum (vk ++ m))).toList then .error .ed25519
    else if ml ≠ (leBytes mlDsa65SignatureLen (checksum (vk ++ m))).toList then .error .mlDsa
    else .ok ()
  verifyPayload_signPayload sk m := by simp
  cborSegmentPayload := segmentPayloadCodec.toCodec
  cborArchivePayload := archivePayloadCodec.toCodec
  cborBodyPayload := bodyPayloadCodec.toCodec
  cborManifest := manifestCodec.toCodec
  cborManifestBundle := manifestBundleCodec.toCodec
  cborSegmentBundle := segmentBundleCodec.toCodec

end Primitives

end KChatCore
