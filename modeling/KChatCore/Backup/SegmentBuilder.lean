import KChatCore.Primitives

/-!
# `Backup.SegmentBuilder` — sealing a batch of events into a segment

CBOR of the payload, BLAKE3 of that CBOR as the segment's Merkle root, zstd, then an AEAD seal whose AAD
binds the segment id and the root. `decryptBackupSegment` undoes it and re-checks the magic and the root.

`decryptBackupSegment_of_buildSegmentWithId` is the round trip; `sealedEvents` is what a segment holds.
-/

namespace KChatCore.Backup

/-- `BACKUP_SEGMENT_AAD_MAGIC`. -/
def backupSegmentAadMagic : Bytes := utf8 "KCHAT_BACKUP_SEGMENT_V1"

/-- `BackupSegmentBuildRequest`. -/
structure BackupSegmentBuildRequest where
  events : List BackupEvent
  segmentType : SegmentType

/-- `BuiltBackupSegment`. -/
structure BuiltBackupSegment where
  segmentId : Uuid
  segmentType : SegmentType
  nonce : ByteArr 24
  ciphertext : Bytes
  merkleRoot : ByteArr 32
  eventCount : Nat
deriving DecidableEq

/-- `build_segment_aad`: magic, then id, then root. -/
def buildSegmentAad (segmentId : Uuid) (merkleRoot : ByteArr 32) : Bytes :=
  backupSegmentAadMagic ++ segmentId.asBytes ++ merkleRoot.toList

/-- `BackupSegmentBuilder::build_segment_with_id`; `nonce` is what `fill_bytes` put into the buffer. -/
def buildSegmentWithId (P : Primitives) (request : BackupSegmentBuildRequest) (segmentId : Uuid)
    (kBackupSegment : KeyMaterial) (nonce : ByteArr 24) : Except Error BuiltBackupSegment :=
  if request.events.isEmpty then
    .error (.storageMsg "BackupSegmentBuilder::build_segment: empty events list")
  else
    let payload : BackupSegmentPayload := ⟨backupSegmentPayloadMagic, request.events⟩
    let cbor := P.cborSegmentPayload.encode payload
    let merkleRoot := P.contentHash cbor
    let compressed := P.encodeAll cbor
    let aad := buildSegmentAad segmentId merkleRoot
    .ok {
      segmentId := segmentId
      segmentType := request.segmentType
      nonce := nonce
      ciphertext := P.aeadSeal kBackupSegment nonce compressed aad
      merkleRoot := merkleRoot
      eventCount := request.events.length }

/-- `BackupSegmentBuilder::build_segment`: the same under a fresh id. -/
def buildSegment (P : Primitives) (request : BackupSegmentBuildRequest) (kBackupSegment : KeyMaterial)
    (drawn : Nat) : Except Error BuiltBackupSegment :=
  buildSegmentWithId P request (Uuid.nowV7 drawn) kBackupSegment (fillNonce drawn)

/-- `decrypt_backup_segment`. -/
def decryptBackupSegment (P : Primitives) (segment : BuiltBackupSegment) (kBackupSegment : KeyMaterial) :
    Except Error BackupSegmentPayload :=
  let aad := buildSegmentAad segment.segmentId segment.merkleRoot
  match P.aeadOpen kBackupSegment segment.nonce segment.ciphertext aad with
  | none => .error (.crypto (.aead "xchacha20-poly1305 open failed"))
  | some compressed =>
      match P.decodeAll compressed with
      | none => .error (.storage (.zstd "backup segment decode"))
      | some cbor =>
          match P.cborSegmentPayload.decode cbor with
          | none => .error (.storage (.cborDecode "backup segment"))
          | some payload =>
              if payload.magic ≠ backupSegmentPayloadMagic then
                .error (.storageMsg "backup segment payload magic mismatch")
              else if P.contentHash cbor ≠ segment.merkleRoot then
                .error (.storageMsg "backup segment merkle root mismatch")
              else .ok payload

/-! ## What a build gives -/

section Build

variable {P : Primitives} {request : BackupSegmentBuildRequest} {segmentId : Uuid} {k : KeyMaterial}
  {nonce : ByteArr 24} {built : BuiltBackupSegment}

theorem buildSegmentWithId_isOk (h : request.events ≠ []) :
    ∃ built, buildSegmentWithId P request segmentId k nonce = .ok built := by
  unfold buildSegmentWithId
  rw [if_neg (by simpa using h)]
  exact ⟨_, rfl⟩

theorem events_ne_nil_of_buildSegmentWithId (h : buildSegmentWithId P request segmentId k nonce = .ok built) :
    request.events ≠ [] := by
  intro hnil
  simp [buildSegmentWithId, hnil] at h

/-- The fields of the segment that do not depend on the primitives. -/
theorem buildSegmentWithId_fields (h : buildSegmentWithId P request segmentId k nonce = .ok built) :
    built.segmentId = segmentId ∧ built.segmentType = request.segmentType ∧
      built.eventCount = request.events.length := by
  have hne := events_ne_nil_of_buildSegmentWithId h
  simp only [buildSegmentWithId, List.isEmpty_iff, hne, if_false, Except.ok.injEq] at h
  subst h
  exact ⟨rfl, rfl, rfl⟩

/-- **What is sealed opens to the events that were sealed.** -/
theorem decryptBackupSegment_of_buildSegmentWithId
    (h : buildSegmentWithId P request segmentId k nonce = .ok built) :
    decryptBackupSegment P built k = .ok ⟨backupSegmentPayloadMagic, request.events⟩ := by
  have hne := events_ne_nil_of_buildSegmentWithId h
  simp only [buildSegmentWithId, List.isEmpty_iff, hne, if_false, Except.ok.injEq] at h
  subst h
  simp [decryptBackupSegment]

end Build

/-- The events a segment holds under a key; none if it does not open. -/
def sealedEvents (P : Primitives) (segment : BuiltBackupSegment) (k : KeyMaterial) : List BackupEvent :=
  match decryptBackupSegment P segment k with
  | .ok payload => payload.events
  | .error _ => []

theorem sealedEvents_of_buildSegmentWithId {P : Primitives} {request : BackupSegmentBuildRequest}
    {segmentId : Uuid} {k : KeyMaterial} {nonce : ByteArr 24} {built : BuiltBackupSegment}
    (h : buildSegmentWithId P request segmentId k nonce = .ok built) :
    sealedEvents P built k = request.events := by
  rw [sealedEvents, decryptBackupSegment_of_buildSegmentWithId h]

end KChatCore.Backup
