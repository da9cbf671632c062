import KChatCore.Backup.ManifestBuilder

/-!
# `Backup.Wire` — the bundles handed to a backup sink

A bundle is the CBOR of a sealed manifest or segment behind a magic and a version; a segment bundle carries
the segment's key wrapped under the backup root. Decoding refuses input past a byte cap before it looks at
the CBOR; encoding has no such cap.

`decode_encode` round trips are conditional on the cap alone.
-/

namespace KChatCore.Backup

/-- `MAX_MANIFEST_BUNDLE_BYTES`. -/
def maxManifestBundleBytes : Nat := 2 ^ 20

/-- `MAX_SEGMENT_BUNDLE_BYTES`. -/
def maxSegmentBundleBytes : Nat := 64 * 2 ^ 20

/-! ## Manifest bundles -/

namespace ManifestBundle

/-- `SealedManifestBundle::from_sealed`. -/
def fromSealed (sealed : SealedBackupManifest) (deviceId : String) : SealedManifestBundle where
  magic := manifestBundleMagic
  version := bundleVersion
  manifest := sealed.manifest
  nonce := sealed.nonce
  ciphertext := sealed.ciphertext
  deviceId := deviceId

/-- `SealedManifestBundle::encode`. -/
def encode (P : Primitives) (bundle : SealedManifestBundle) : Bytes := P.cborManifestBundle.encode bundle

/-- `SealedManifestBundle::decode`. -/
def decode (P : Primitives) (bytes : Bytes) : Except Error SealedManifestBundle :=
  if bytes.length > maxManifestBundleBytes then
    .error (.storageMsg ("manifest bundle: input " ++ toString bytes.length ++ " bytes exceeds " ++
      toString maxManifestBundleBytes ++ "-byte cap"))
  else
    match P.cborManifestBundle.decode bytes with
    | none => .error (.storageMsg "manifest bundle CBOR decode")
    | some bundle =>
        if bundle.magic ≠ manifestBundleMagic then
          .error (.storageMsg "manifest bundle: magic mismatch — refusing to decode misrouted bytes")
        else if bundle.version ≠ bundleVersion then
          .error (.storageMsg ("manifest bundle: unsupported on-wire version " ++ toString bundle.version ++
            " (this build expects " ++ toString bundleVersion ++ ")"))
        else .ok bundle

/-- **A manifest bundle decodes exactly when it is within the cap.** -/
theorem decode_encode (P : Primitives) (sealed : SealedBackupManifest) (deviceId : String) :
    decode P (encode P (fromSealed sealed deviceId)) = .ok (fromSealed sealed deviceId) ↔
      (encode P (fromSealed sealed deviceId)).length ≤ maxManifestBundleBytes := by
  unfold decode
  by_cases h : (encode P (fromSealed sealed deviceId)).length ≤ maxManifestBundleBytes
  · rw [if_neg (not_lt.mpr h), encode, P.cborManifestBundle.decode_encode]
    refine ⟨fun _ => h, fun _ => ?_⟩
    simp [fromSealed]
  · rw [if_pos (not_le.mp h)]
    exact ⟨fun hok => absurd hok (by simp), fun hle => absurd hle h⟩

end ManifestBundle

/-! ## Segment bundles -/

namespace SegmentBundle

/-- `SealedSegmentBundle::from_built`. -/
def fromBuilt (P : Primitives) (built : BuiltBackupSegment) (kSegment kBackupRoot : KeyMaterial) :
    Except Error SealedSegmentBundle :=
  let wrapped := wrapKAsset P kSegment kBackupRoot
  if built.eventCount > u32Max then
    .error (.storageMsg ("segment bundle: event_count " ++ toString built.eventCount ++ " exceeds u32::MAX"))
  else
    .ok {
      magic := segmentBundleMagic
      version := bundleVersion
      segmentId := built.segmentId
      segmentType := built.segmentType
      nonce := built.nonce
      ciphertext := built.ciphertext
      merkleRoot := built.merkleRoot
      eventCount := built.eventCount
      wrappedKSegment := wrapped }

/-- `SealedSegmentBundle::encode`. -/
def encode (P : Primitives) (bundle : SealedSegmentBundle) : Bytes := P.cborSegmentBundle.encode bundle

/-- `SealedSegmentBundle::decode`. -/
def decode (P : Primitives) (bytes : Bytes) : Except Error SealedSegmentBundle :=
  if bytes.length > maxSegmentBundleBytes then
    .error (.storageMsg ("segment bundle: input " ++ toString bytes.length ++ " bytes exceeds " ++
      toString maxSegmentBundleBytes ++ "-byte cap"))
  else
    match P.cborSegmentBundle.decode bytes with
    | none => .error (.storageMsg "segment bundle CBOR decode")
    | some bundle =>
        if bundle.magic ≠ segmentBundleMagic then
          .error (.storageMsg "segment bundle: magic mismatch — refusing to decode misrouted bytes")
        else if bundle.version ≠ bundleVersion then
          .error (.storageMsg ("segment bundle: unsupported on-wire version " ++ toString bundle.version ++
            " (this build expects " ++ toString bundleVersion ++ ")"))
        else .ok bundle

/-- `SealedSegmentBundle::to_built`. -/
def toBuilt (bundle : SealedSegmentBundle) : BuiltBackupSegment where
  segmentId := bundle.segmentId
  segmentType := bundle.segmentType
  nonce := bundle.nonce
  ciphertext := bundle.ciphertext
  merkleRoot := bundle.merkleRoot
  eventCount := bundle.eventCount

/-- `SealedSegmentBundle::unwrap_segment_key`. -/
def unwrapSegmentKey (P : Primitives) (bundle : SealedSegmentBundle) (kBackupRoot : KeyMaterial) :
    Except Error KeyMaterial :=
  (unwrapKAsset P bundle.wrappedKSegment kBackupRoot).mapError Error.crypto

section FromBuilt

variable {P : Primitives} {built : BuiltBackupSegment} {kSegment kBackupRoot : KeyMaterial}
  {bundle : SealedSegmentBundle}

theorem fromBuilt_isOk_iff :
    (∃ bundle, fromBuilt P built kSegment kBackupRoot = .ok bundle) ↔ built.eventCount ≤ u32Max := by
  unfold fromBuilt
  by_cases h : built.eventCount ≤ u32Max
  · rw [if_neg (not_lt.mpr h)]
    exact ⟨fun _ => h, fun _ => ⟨_, rfl⟩⟩
  · rw [if_pos (not_le.mp h)]
    exact ⟨fun ⟨_, hok⟩ => absurd hok (by simp), fun hle => absurd hle h⟩

theorem toBuilt_fromBuilt (h : fromBuilt P built kSegment kBackupRoot = .ok bundle) : toBuilt bundle = built := by
  unfold fromBuilt at h
  split at h
  · exact absurd h (by simp)
  · rw [Except.ok.injEq] at h
    subst h
    rfl

theorem fields_of_fromBuilt (h : fromBuilt P built kSegment kBackupRoot = .ok bundle) :
    bundle.magic = segmentBundleMagic ∧ bundle.version = bundleVersion ∧
      unwrapSegmentKey P bundle kBackupRoot = .ok kSegment := by
  unfold fromBuilt at h
  split at h
  · exact absurd h (by simp)
  · rw [Except.ok.injEq] at h
    subst h
    exact ⟨rfl, rfl, by simp [unwrapSegmentKey, Except.mapError]⟩

/-- **A segment bundle decodes exactly when it is within the cap.** -/
theorem decode_encode (h : fromBuilt P built kSegment kBackupRoot = .ok bundle) :
    decode P (encode P bundle) = .ok bundle ↔ (encode P bundle).length ≤ maxSegmentBundleBytes := by
  obtain ⟨hmagic, hversion, _⟩ := fields_of_fromBuilt h
  unfold decode
  by_cases hle : (encode P bundle).length ≤ maxSegmentBundleBytes
  · rw [if_neg (not_lt.mpr hle), encode, P.cborSegmentBundle.decode_encode]
    refine ⟨fun _ => hle, fun _ => ?_⟩
    simp [hmagic, hversion]
  · rw [if_pos (not_le.mp hle)]
    exact ⟨fun hok => absurd hok (by simp), fun h' => absurd h' hle⟩

end FromBuilt

end SegmentBundle

end KChatCore.Backup
