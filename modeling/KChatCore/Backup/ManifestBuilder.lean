import KChatCore.Backup.SegmentBuilder

/-!
# `Backup.ManifestBuilder` — the signed, sealed manifest and its chain

A manifest lists the segments it is built over and names its predecessor: generation 0 and the all-zero hash
without one, the next generation and the predecessor's hash with one. It is signed over its CBOR with both
signature fields empty, and its signed CBOR is sealed with an AAD that binds id, generation, root and device.

* `chainLink` — the generation and predecessor hash of the next manifest.
* `verifyBackupManifest_of_build`, `aeadOpen_of_build` — what is built verifies and opens.
-/

namespace KChatCore.Backup

/-! ## Signing -/

/-- `canonical_signing_payload`. -/
def canonicalSigningPayload (P : Primitives) (manifest : BackupManifest) : Bytes :=
  P.cborManifest.encode { manifest with manifestSignature := [], pqcSignature := [] }

/-- `HybridManifestSignature`. -/
structure HybridManifestSignature where
  ed25519 : ByteArr signatureLength
  mlDsa : ByteArr mlDsa65SignatureLen

/-- `sign_backup_manifest`: the signed manifest, and the signature. -/
def signBackupManifest (P : Primitives) (manifest : BackupManifest) (signingKey : Bytes) :
    BackupManifest × HybridManifestSignature :=
  let payload := canonicalSigningPayload P manifest
  let sig := P.signPayload signingKey payload
  ({ manifest with manifestSignature := sig.1.toList, pqcSignature := sig.2.toList }, ⟨sig.1, sig.2⟩)

/-- `verify_backup_manifest`. -/
def verifyBackupManifest (P : Primitives) (manifest : BackupManifest) (verifyingKey : Bytes) :
    Except CryptoError Unit :=
  if manifest.manifestSignature.length ≠ signatureLength then
    .error (.frame ("manifest: ed25519 signature must be 64 bytes, got " ++
      toString manifest.manifestSignature.length))
  else if manifest.pqcSignature.length ≠ mlDsa65SignatureLen then
    .error (.frame ("manifest: ml-dsa-65 signature must be 3309 bytes, got " ++
      toString manifest.pqcSignature.length))
  else
    match P.verifyPayload verifyingKey (canonicalSigningPayload P manifest) manifest.manifestSignature
        manifest.pqcSignature with
    | .ok () => .ok ()
    | .error .ed25519 => .error (.aead "manifest: ed25519 verify failed")
    | .error .mlDsa => .error (.aead "manifest: ml-dsa-65 verify failed")

/-- **What is signed verifies.** -/
theorem verifyBackupManifest_signBackupManifest (P : Primitives) (manifest : BackupManifest)
    (signingKey : Bytes) :
    verifyBackupManifest P (signBackupManifest P manifest signingKey).1 (P.verifyingKey signingKey) = .ok () := by
  have hpayload : canonicalSigningPayload P (signBackupManifest P manifest signingKey).1 =
      canonicalSigningPayload P manifest := rfl
  unfold verifyBackupManifest
  rw [hpayload]
  simp [signBackupManifest]

/-! ## Building -/

/-- `compute_manifest_hash`: BLAKE3 of the manifest's CBOR, signatures included. -/
def computeManifestHash (P : Primitives) (manifest : BackupManifest) : ByteArr 32 :=
  P.contentHash (P.cborManifest.encode manifest)

/-- `BackupManifestBuildRequest`. -/
structure BackupManifestBuildRequest where
  segments : List BuiltBackupSegment
  searchIndexShards : List ManifestShardRef
  mediaReferences : List ManifestMediaRef
  tombstones : List Tombstone
  previous : Option BackupManifest
  deviceId : String
  manifestId : Option Uuid

/-- `SealedBackupManifest`. -/
structure SealedBackupManifest where
  manifest : BackupManifest
  signature : HybridManifestSignature
  nonce : ByteArr 24
  ciphertext : Bytes

/-- The `(generation, previous_manifest_hash)` of the manifest after `previous`. -/
def chainLink (P : Primitives) : Option BackupManifest → Except Error (Nat × ByteArr 32)
  | none => .ok (0, genesisPreviousHash)
  | some prev =>
      if prev.generation + 1 ≤ u64Max then .ok (prev.generation + 1, computeManifestHash P prev)
      else .error (.storageMsg "backup manifest generation overflow")

/-- The manifest's reference to a segment. -/
def segmentRef (P : Primitives) (s : BuiltBackupSegment) : ManifestSegmentRef where
  segmentId := s.segmentId
  segmentType := s.segmentType
  ciphertextSha256 := P.sha256 s.ciphertext
  size := s.ciphertext.length

/-- `compute_segment_merkle_root`. -/
def computeSegmentMerkleRoot (P : Primitives) (segments : List BuiltBackupSegment) : ByteArr 32 :=
  P.contentHash (segments.flatMap fun s => s.merkleRoot.toList)

/-- `build_manifest_aad`. -/
def buildManifestAad (manifestId : Uuid) (generation : Nat) (merkleRoot : ByteArr 32) (deviceId : String) :
    Bytes :=
  utf8 backupManifestMagic ++ manifestId.asBytes ++ (leBytes 8 generation).toList ++ merkleRoot.toList ++
    utf8 deviceId

/-- The manifest before it is signed. -/
def unsignedManifest (P : Primitives) (request : BackupManifestBuildRequest) (link : Nat × ByteArr 32)
    (freshId : Uuid) : BackupManifest where
  magic := backupManifestMagic
  version := manifestVersion
  manifestId := request.manifestId.getD freshId
  generation := link.1
  previousManifestHash := link.2
  segments := request.segments.map (segmentRef P)
  searchIndexShards := request.searchIndexShards
  mediaReferences := request.mediaReferences
  tombstones := request.tombstones
  merkleRoot := computeSegmentMerkleRoot P request.segments
  manifestSignature := []
  pqcSignature := []

/-- `build_backup_manifest`; `drawn` is the entropy for the fallback id and the nonce. -/
def buildBackupManifest (P : Primitives) (request : BackupManifestBuildRequest) (signingKey : Bytes)
    (kBackupManifest : KeyMaterial) (drawn : Nat) : Except Error SealedBackupManifest :=
  (chainLink P request.previous).map fun link =>
    let signed := signBackupManifest P (unsignedManifest P request link (Uuid.nowV7 drawn)) signingKey
    let nonce := fillNonce drawn
    let aad := buildManifestAad signed.1.manifestId signed.1.generation signed.1.merkleRoot request.deviceId
    { manifest := signed.1
      signature := signed.2
      nonce := nonce
      ciphertext := P.aeadSeal kBackupManifest nonce (P.cborManifest.encode signed.1) aad }

/-! ## What a build gives -/

section Build

variable {P : Primitives} {request : BackupManifestBuildRequest} {signingKey : Bytes} {k : KeyMaterial}
  {drawn : Nat} {sealed : SealedBackupManifest}

theorem buildBackupManifest_isOk {link : Nat × ByteArr 32} (h : chainLink P request.previous = .ok link) :
    ∃ sealed, buildBackupManifest P request signingKey k drawn = .ok sealed := by
  rw [buildBackupManifest, h]
  exact ⟨_, rfl⟩

/-- **The manifest's place in the chain, its id, and what it lists.** -/
theorem buildBackupManifest_fields (h : buildBackupManifest P request signingKey k drawn = .ok sealed) :
    chainLink P request.previous = .ok (sealed.manifest.generation, sealed.manifest.previousManifestHash) ∧
      sealed.manifest.manifestId = request.manifestId.getD (Uuid.nowV7 drawn) ∧
      sealed.manifest.segments = request.segments.map (segmentRef P) := by
  unfold buildBackupManifest at h
  cases hl : chainLink P request.previous with
  | error e => simp [hl, Except.map] at h
  | ok link =>
      simp only [hl, Except.map, Except.ok.injEq] at h
      subst h
      exact ⟨rfl, rfl, rfl⟩

/-- **What is built verifies under the signer's key.** -/
theorem verifyBackupManifest_of_build (h : buildBackupManifest P request signingKey k drawn = .ok sealed) :
    verifyBackupManifest P sealed.manifest (P.verifyingKey signingKey) = .ok () := by
  unfold buildBackupManifest at h
  cases hl : chainLink P request.previous with
  | error e => simp [hl, Except.map] at h
  | ok link =>
      simp only [hl, Except.map, Except.ok.injEq] at h
      subst h
      exact verifyBackupManifest_signBackupManifest P _ signingKey

/-- **What is built opens under the key and device it was sealed for.** -/
theorem aeadOpen_of_build (h : buildBackupManifest P request signingKey k drawn = .ok sealed) :
    P.aeadOpen k sealed.nonce sealed.ciphertext
        (buildManifestAad sealed.manifest.manifestId sealed.manifest.generation sealed.manifest.merkleRoot
          request.deviceId) = some (P.cborManifest.encode sealed.manifest) := by
  unfold buildBackupManifest at h
  cases hl : chainLink P request.previous with
  | error e => simp [hl, Except.map] at h
  | ok link =>
      simp only [hl, Except.map, Except.ok.injEq] at h
      subst h
      exact P.aeadOpen_aeadSeal _ _ _ _

/-- Every manifest that is built has a valid header. -/
theorem hasValidHeader_of_build (h : buildBackupManifest P request signingKey k drawn = .ok sealed) :
    sealed.manifest.hasValidHeader = true := by
  have hlink := (buildBackupManifest_fields h).1
  have hmagic : sealed.manifest.magic = backupManifestMagic ∧ sealed.manifest.version = manifestVersion := by
    unfold buildBackupManifest at h
    cases hl : chainLink P request.previous with
    | error e => simp [hl, Except.map] at h
    | ok link =>
        simp only [hl, Except.map, Except.ok.injEq] at h
        subst h
        exact ⟨rfl, rfl⟩
  have hgenesis : sealed.manifest.generation = 0 →
      sealed.manifest.previousManifestHash = genesisPreviousHash := by
    intro h0
    cases hp : request.previous with
    | none =>
        rw [hp, chainLink, Except.ok.injEq, Prod.mk.injEq] at hlink
        exact hlink.2.symm
    | some prev =>
        rw [hp, chainLink, h0] at hlink
        split at hlink
        · simp at hlink
        · exact absurd hlink (by simp)
  unfold BackupManifest.hasValidHeader
  rw [hmagic.1, hmagic.2]
  by_cases h0 : sealed.manifest.generation = 0
  · simp [h0, hgenesis h0]
  · simp [h0]

end Build

end KChatCore.Backup
