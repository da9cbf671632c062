import KChatCore.Primitives

/-!
# `Archive.Segment` — sealing archive events into a segment and opening it again

`buildSegment` seals a bucket of events. What readers work on is a **framed blob**: id, Merkle root and nonce in
front of the ciphertext. `decryptArchiveSegment` takes the header off, opens, decompresses and checks the root.

* `decodeArchiveSegmentBlob_encode` — the header survives the framing.
* `openArchiveSegment_encode` — a framed segment opens to the events that were sealed.
-/

namespace KChatCore

/-- `Uuid::from_bytes`: sixteen bytes, most significant first. -/
def Uuid.fromBytes (bytes : Bytes) : Uuid := ⟨Nat.ofDigits 256 (bytes.reverse.map UInt8.toNat)⟩

/-- The little-endian bytes of a number written from bytes are these bytes. -/
theorem leBytes_ofDigits (l : Bytes) : (leBytes l.length (Nat.ofDigits 256 (l.map UInt8.toNat))).toList = l := by
  have hdigit : ∀ d ∈ l.map UInt8.toNat, d < 256 := by
    intro d hd
    obtain ⟨b, -, rfl⟩ := List.mem_map.mp hd
    exact b.toNat_lt
  apply List.ext_getElem
  · simp
  · intro i h₁ h₂
    have hdrop : (l.map UInt8.toNat).drop i = l[i].toNat :: (l.map UInt8.toNat).drop (i + 1) := by
      rw [List.drop_eq_getElem_cons (by simpa using h₂), List.getElem_map]
    simp only [leBytes, List.Vector.toList_ofFn, List.getElem_ofFn]
    rw [Nat.ofDigits_div_pow_eq_ofDigits_drop i (by decide) _ hdigit, hdrop, Nat.ofDigits_cons]
    apply UInt8.toNat_inj.mp
    rw [UInt8.toNat_ofNat']
    have hlt := l[i].toNat_lt
    omega

/-- **An id read from sixteen bytes has these bytes.** -/
theorem Uuid.asBytes_fromBytes {bytes : Bytes} (h : bytes.length = 16) : (Uuid.fromBytes bytes).asBytes = bytes := by
  have hlen : bytes.reverse.length = 16 := by rw [List.length_reverse, h]
  have hround := leBytes_ofDigits bytes.reverse
  rw [hlen] at hround
  rw [Uuid.asBytes, Uuid.fromBytes, hround, List.reverse_reverse]

@[simp] theorem Uuid.length_asBytes (id : Uuid) : id.asBytes.length = 16 := by simp [Uuid.asBytes]

namespace Archive

/-- `SegmentBuildRequest`. -/
structure SegmentBuildRequest where
  conversationId : Uuid
  timeBucket : String
  events : List ArchiveEvent
  segmentType : SegmentType

/-- `SegmentBuildRequest::message_delta`. -/
def SegmentBuildRequest.messageDelta (conversationId : Uuid) (timeBucket : String) (events : List ArchiveEvent) :
    SegmentBuildRequest :=
  ⟨conversationId, timeBucket, events, .messageDelta⟩

/-- `BuiltSegment`. -/
structure BuiltSegment where
  segmentId : Uuid
  conversationId : Uuid
  timeBucket : String
  segmentType : SegmentType
  nonce : ByteArr 24
  ciphertext : Bytes
  merkleRoot : ByteArr 32
  eventCount : Nat
deriving DecidableEq

/-- `build_segment_aad`: magic, then id, then root. -/
def buildSegmentAad (segmentId : Uuid) (merkleRoot : ByteArr 32) : Bytes :=
  utf8 "KCHAT_ARCHIVE_SEGMENT_V1" ++ segmentId.asBytes ++ merkleRoot.toList

/-- The payload a request seals. -/
def SegmentBuildRequest.payload (request : SegmentBuildRequest) : ArchiveSegmentPayload where
  magic := archiveSegmentPayloadMagic
  conversationId := request.conversationId.hyphenated
  timeBucket := request.timeBucket
  events := request.events

/-- `ArchiveSegmentBuilder::build_segment`; the fresh id and the nonce come from one draw of entropy. -/
def buildSegment (P : Primitives) (request : SegmentBuildRequest) (kArchiveSegment : KeyMaterial) (drawn : Nat) :
    Except Error BuiltSegment :=
  if request.events.isEmpty then
    .error (.storageMsg "ArchiveSegmentBuilder::build_segment: empty events list")
  else if !request.segmentType.isArchiveSegment then
    .error (.storageMsg ("ArchiveSegmentBuilder::build_segment: " ++ request.segmentType.debug ++
      " is not an archive segment type"))
  else
    let cbor := P.cborArchivePayload.encode request.payload
    let merkleRoot := P.contentHash cbor
    let compressed := P.encodeAll cbor
    let segmentId := Uuid.nowV7 drawn
    let nonce := fillNonce drawn
    let aad := buildSegmentAad segmentId merkleRoot
    .ok {
      segmentId := segmentId
      conversationId := request.conversationId
      timeBucket := request.timeBucket
      segmentType := request.segmentType
      nonce := nonce
      ciphertext := P.aeadSeal kArchiveSegment nonce compressed aad
      merkleRoot := merkleRoot
      eventCount := request.events.length }

/-! ## The framed blob -/

/-- `ARCHIVE_SEGMENT_BLOB_HEADER_LEN`. -/
def archiveSegmentBlobHeaderLen : Nat := 16 + 32 + 24

/-- `encode_archive_segment_blob`. -/
def encodeArchiveSegmentBlob (segmentId : Uuid) (merkleRoot : ByteArr 32) (nonce : ByteArr 24) (ciphertext : Bytes) :
    Bytes :=
  segmentId.asBytes ++ merkleRoot.toList ++ nonce.toList ++ ciphertext

/-- `DecodedArchiveSegmentBlob`. -/
structure DecodedArchiveSegmentBlob where
  segmentId : Uuid
  merkleRoot : ByteArr 32
  nonce : ByteArr 24
  ciphertext : Bytes
deriving DecidableEq

/-- The `n` bytes from position `i` on, of a slice that has them. -/
def sliceArr (n : Nat) (bytes : Bytes) (i : Nat) (h : i + n ≤ bytes.length) : ByteArr n :=
  ⟨(bytes.drop i).take n, by rw [List.length_take, List.length_drop]; omega⟩

/-- `decode_archive_segment_blob`. -/
def decodeArchiveSegmentBlob (bytes : Bytes) : Except Error DecodedArchiveSegmentBlob :=
  if h : bytes.length < archiveSegmentBlobHeaderLen then
    .error (.storageMsg ("archive segment blob is " ++ toString bytes.length ++ " bytes (expected at least " ++
      toString archiveSegmentBlobHeaderLen ++ ")"))
  else
    have hlen : 72 ≤ bytes.length := not_lt.mp h
    .ok {
      segmentId := Uuid.fromBytes (bytes.take 16)
      merkleRoot := sliceArr 32 bytes 16 (by omega)
      nonce := sliceArr 24 bytes 48 (by omega)
      ciphertext := bytes.drop archiveSegmentBlobHeaderLen }

/-- `decrypt_archive_segment`: the plaintext CBOR bytes. -/
def decryptArchiveSegment (P : Primitives) (bytes : Bytes) (kArchiveSegment : KeyMaterial) : Except Error Bytes := do
  let decoded ← decodeArchiveSegmentBlob bytes
  let aad := buildSegmentAad decoded.segmentId decoded.merkleRoot
  let compressed ← okOr (P.aeadOpen kArchiveSegment decoded.nonce decoded.ciphertext aad)
    (.crypto (.aead "xchacha20-poly1305 open failed"))
  let cbor ← okOr (P.decodeAll compressed) (.storage (.zstd "archive segment decode"))
  if P.contentHash cbor ≠ decoded.merkleRoot then
    .error (.storageMsg "archive segment plaintext merkle_root mismatch")
  else return cbor

/-- `decode_archive_segment_payload`. -/
def decodeArchiveSegmentPayload (P : Primitives) (plaintextCbor : Bytes) : Except Error ArchiveSegmentPayload := do
  let payload ← okOr (P.cborArchivePayload.decode plaintextCbor) (.storage (.cborDecode "archive segment"))
  if payload.magic ≠ archiveSegmentPayloadMagic then
    .error (.storageMsg "archive segment payload magic mismatch")
  else return payload

/-- Decrypt and decode, as every reader of a segment does. -/
def openArchiveSegment (P : Primitives) (bytes : Bytes) (kArchiveSegment : KeyMaterial) :
    Except Error (List ArchiveEvent) := do
  let plaintextCbor ← decryptArchiveSegment P bytes kArchiveSegment
  let payload ← decodeArchiveSegmentPayload P plaintextCbor
  return payload.events

/-- The blob of a built segment. -/
def BuiltSegment.blob (segment : BuiltSegment) : Bytes :=
  encodeArchiveSegmentBlob segment.segmentId segment.merkleRoot segment.nonce segment.ciphertext

/-! ## The round trip -/

section RoundTrip

variable {P : Primitives} {request : SegmentBuildRequest} {k : KeyMaterial} {drawn : Nat} {built : BuiltSegment}

/-- **What a build that succeeds gives.** -/
theorem buildSegment_eq_ok (h : buildSegment P request k drawn = .ok built) :
    request.events ≠ [] ∧ request.segmentType.isArchiveSegment = true ∧
      built.segmentId = Uuid.nowV7 drawn ∧ built.conversationId = request.conversationId ∧
      built.timeBucket = request.timeBucket ∧
      built.merkleRoot = P.contentHash (P.cborArchivePayload.encode request.payload) ∧
      built.ciphertext = P.aeadSeal k built.nonce (P.encodeAll (P.cborArchivePayload.encode request.payload))
        (buildSegmentAad built.segmentId built.merkleRoot) := by
  unfold buildSegment at h
  split at h
  · exact absurd h (by simp)
  · rename_i hne
    split at h
    · exact absurd h (by simp)
    · rename_i htype
      obtain rfl := Except.ok.inj h
      refine ⟨?_, ?_, rfl, rfl, rfl, rfl, rfl⟩
      · simpa using hne
      · simpa using htype

/-- A non-empty delta is built. -/
theorem buildSegment_isOk (hne : request.events ≠ []) (htype : request.segmentType.isArchiveSegment = true) :
    ∃ built, buildSegment P request k drawn = .ok built := by
  unfold buildSegment
  rw [if_neg (by simpa using hne), if_neg (by simp [htype])]
  exact ⟨_, rfl⟩

/-- The header is as long as it says. -/
theorem length_encodeArchiveSegmentBlob (segmentId : Uuid) (merkleRoot : ByteArr 32) (nonce : ByteArr 24)
    (ciphertext : Bytes) : (encodeArchiveSegmentBlob segmentId merkleRoot nonce ciphertext).length =
      archiveSegmentBlobHeaderLen + ciphertext.length := by
  simp only [encodeArchiveSegmentBlob, archiveSegmentBlobHeaderLen, List.length_append, Uuid.length_asBytes,
    List.Vector.toList_length]

/-- **The framing keeps the header.** The id comes back as the sixteen bytes it was written as. -/
theorem decodeArchiveSegmentBlob_encode (segmentId : Uuid) (merkleRoot : ByteArr 32) (nonce : ByteArr 24)
    (ciphertext : Bytes) :
    decodeArchiveSegmentBlob (encodeArchiveSegmentBlob segmentId merkleRoot nonce ciphertext) =
      .ok ⟨Uuid.fromBytes segmentId.asBytes, merkleRoot, nonce, ciphertext⟩ := by
  have hlen := length_encodeArchiveSegmentBlob segmentId merkleRoot nonce ciphertext
  have hid : (encodeArchiveSegmentBlob segmentId merkleRoot nonce ciphertext).take 16 = segmentId.asBytes := by
    rw [encodeArchiveSegmentBlob, List.append_assoc, List.append_assoc]
    exact List.take_left' segmentId.length_asBytes
  have hroot : ((encodeArchiveSegmentBlob segmentId merkleRoot nonce ciphertext).drop 16).take 32 =
      merkleRoot.toList := by
    rw [encodeArchiveSegmentBlob, List.append_assoc, List.append_assoc, List.drop_left' segmentId.length_asBytes]
    exact List.take_left' merkleRoot.toList_length
  have hnonce : ((encodeArchiveSegmentBlob segmentId merkleRoot nonce ciphertext).drop 48).take 24 =
      nonce.toList := by
    rw [encodeArchiveSegmentBlob, List.append_assoc, List.drop_left' (by simp)]
    exact List.take_left' nonce.toList_length
  have hrest : (encodeArchiveSegmentBlob segmentId merkleRoot nonce ciphertext).drop archiveSegmentBlobHeaderLen =
      ciphertext := by
    rw [encodeArchiveSegmentBlob]
    exact List.drop_left' (by simp [archiveSegmentBlobHeaderLen])
  unfold decodeArchiveSegmentBlob
  rw [dif_neg (by omega)]
  simp only [Except.ok.injEq, DecodedArchiveSegmentBlob.mk.injEq]
  exact ⟨by rw [hid], List.Vector.eq _ _ hroot, List.Vector.eq _ _ hnonce, hrest⟩

/-- The AAD does not change on the way through the header. -/
theorem buildSegmentAad_fromBytes (segmentId : Uuid) (merkleRoot : ByteArr 32) :
    buildSegmentAad (Uuid.fromBytes segmentId.asBytes) merkleRoot = buildSegmentAad segmentId merkleRoot := by
  rw [buildSegmentAad, Uuid.asBytes_fromBytes segmentId.length_asBytes, buildSegmentAad]

/-- **A framed segment decrypts to the CBOR that was sealed.** -/
theorem decryptArchiveSegment_blob (h : buildSegment P request k drawn = .ok built) :
    decryptArchiveSegment P built.blob k = .ok (P.cborArchivePayload.encode request.payload) := by
  obtain ⟨-, -, -, -, -, hroot, hcipher⟩ := buildSegment_eq_ok h
  have hopen : P.aeadOpen k built.nonce built.ciphertext
      (buildSegmentAad (Uuid.fromBytes built.segmentId.asBytes) built.merkleRoot) =
        some (P.encodeAll (P.cborArchivePayload.encode request.payload)) := by
    rw [buildSegmentAad_fromBytes, hcipher, P.aeadOpen_aeadSeal]
  unfold decryptArchiveSegment
  rw [BuiltSegment.blob, decodeArchiveSegmentBlob_encode]
  simp only [bind, Except.bind, hopen, okOr_some, P.decodeAll_encodeAll]
  rw [if_neg (not_not_intro hroot.symm)]
  rfl

/-- **A framed segment opens to the events that were sealed.** -/
theorem openArchiveSegment_blob (h : buildSegment P request k drawn = .ok built) :
    openArchiveSegment P built.blob k = .ok request.events := by
  have hdecode : decodeArchiveSegmentPayload P (P.cborArchivePayload.encode request.payload) =
      .ok request.payload := by
    simp [decodeArchiveSegmentPayload, bind, Except.bind, SegmentBuildRequest.payload, pure, Except.pure]
  unfold openArchiveSegment
  rw [decryptArchiveSegment_blob h]
  simp only [bind, Except.bind, hdecode]
  rfl

end RoundTrip

end Archive

end KChatCore
