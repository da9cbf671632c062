import KChatCore.Backup.BundleItems
import KChatCore.Backup.Invariant

/-!
# `Backup.BundleSizes` — which bundles can be read again

The decoders refuse a bundle past their cap; the encoders do not look at the cap. A segment bundle grows with the
ciphertext of its segment, a manifest bundle with the segments it lists, which after a compaction are the whole
ledger, with its own ciphertext and with the device id.

* `Produces` — the segments and the manifest one pass encodes for its sink.
* `length_segmentBundle`, `length_manifestBundle` — how many bytes a bundle takes, field by field.
* `bundlesDecode_iff` — every bundle of a pass is read back exactly when these sizes are within the caps.
-/

namespace KChatCore.Backup

open Lib Lib.Cbor

/-! ## What a pass encodes -/

/-- **One pass of either pipeline gets as far as its manifest**: it encodes the `outputs` and a manifest over the
`listed` segments. -/
inductive Produces (P : Primitives) : Core → BackupKeys → (outputs listed : List TrackedBackupSegment) →
    SealedBackupManifest → Prop
  | incremental {c c₁ c₂ : Core} {keys : BackupKeys} {batch : ReadBatch} {tracked : TrackedBackupSegment}
      {sealed : SealedBackupManifest} :
      readStep c = (.ok (some batch), c) → sealStep P batch c = (.ok (keys, tracked), c₁) →
      manifestStep P keys [tracked.built] c₁ = (.ok sealed, c₂) → Produces P c keys [tracked] [tracked] sealed
  | compaction {c c₁ c₂ : Core} {keys : BackupKeys} {snapshot : List TrackedBackupSegment} {nowMs : Int}
      {tally : CompactionTally} {sealed : SealedBackupManifest} :
      snapshotStep c = (.ok (keys, snapshot), c) →
      (snapshot.isEmpty || (planFor snapshot nowMs).groups.isEmpty) = false →
      resealGroups P keys snapshot CompactionTally.start (planFor snapshot nowMs).groups c = (.ok tally, c₁) →
      manifestStep P keys ((keptSegments snapshot (planFor snapshot nowMs) ++ tally.outputs).map
        TrackedBackupSegment.built) c₁ = (.ok sealed, c₂) →
      Produces P c keys tally.outputs (keptSegments snapshot (planFor snapshot nowMs) ++ tally.outputs) sealed

/-- The manifest is the signed manifest over the listed segments. -/
def ListedBy (P : Primitives) (keys : BackupKeys) (listed : List TrackedBackupSegment)
    (sealed : SealedBackupManifest) : Prop :=
  ∃ previous manifestId link freshId, chainLink P previous = .ok link ∧
    sealed.manifest = (signBackupManifest P (unsignedManifest P
      (manifestRequest keys (listed.map TrackedBackupSegment.built) previous manifestId) link freshId)
      keys.signingKey).1

section Produced

variable {P : Primitives} {c : Core} {keys : BackupKeys} {outputs listed : List TrackedBackupSegment}
  {sealed : SealedBackupManifest}

theorem listedBy_of_manifestStep {c' : Core}
    (h : manifestStep P keys (listed.map TrackedBackupSegment.built) c = (.ok sealed, c')) :
    ListedBy P keys listed sealed := by
  unfold manifestStep at h
  obtain ⟨c₀, c₁, hget, h⟩ := BackupM.bind_eq_ok.mp h
  obtain ⟨n, c₂, hdraw, h⟩ := BackupM.bind_eq_ok.mp h
  obtain ⟨hbuild, -⟩ := BackupM.lift_eq_ok.mp h
  unfold buildBackupManifest at hbuild
  cases hl : chainLink P (manifestRequest keys (listed.map TrackedBackupSegment.built)
      c₀.backup.chainState.previousManifest (Uuid.nowV7 n)).previous with
  | error e =>
      rw [hl] at hbuild
      exact absurd hbuild (by simp [Except.map])
  | ok link =>
      rw [hl] at hbuild
      simp only [Except.map, Except.ok.injEq] at hbuild
      rw [← hbuild]
      exact ⟨_, _, link, _, hl, rfl⟩

/-- **What a pass produces**: a manifest over the listed segments, and every output is listed. -/
theorem Produces.listedBy (h : Produces P c keys outputs listed sealed) :
    ListedBy P keys listed sealed ∧ outputs ⊆ listed := by
  cases h with
  | incremental hread hseal hmanifest => exact ⟨listedBy_of_manifestStep hmanifest, List.Subset.refl _⟩
  | compaction hsnap hplan hreseal hmanifest =>
      exact ⟨listedBy_of_manifestStep hmanifest, List.subset_append_right _ _⟩

end Produced

/-! ## Sizes -/

/-- The bytes of a segment bundle. -/
def segmentBundleBytes (s : BuiltBackupSegment) : Nat :=
  235 + stringLength (utf8 (segmentTypeName s.segmentType)).length + stringLength s.ciphertext.length +
    headLength s.eventCount

/-- The bytes a listed segment takes in a manifest. -/
def segmentRefBytes (s : BuiltBackupSegment) : Nat :=
  99 + stringLength (utf8 (segmentTypeName s.segmentType)).length + headLength s.ciphertext.length

/-- The bytes of a manifest bundle that lists the segments. -/
def manifestBundleBytes (listed : List BuiltBackupSegment) (generation ciphertextLen : Nat) (deviceId : String) : Nat :=
  3747 + headLength generation + headLength listed.length + (listed.map segmentRefBytes).sum +
    stringLength ciphertextLen + stringLength (utf8 deviceId).length

section Lengths

variable {P : Primitives}

theorem length_uuidItem (u : Uuid) : (encode (uuidItem u)).length = 17 := by
  rw [uuidItem, length_encode_bytes, Uuid.asBytes_eq, length_be]
  rfl

/-- A field is its name and its value; field names are shorter than 24 bytes. -/
theorem length_field (name : String) (v : Value) {n : Nat} (hname : (utf8 name).length = n) (hn : n < 24) :
    stringLength (utf8 name).length + (encode v).length = n + 1 + (encode v).length := by
  rw [hname, stringLength, headLength, if_pos hn, Nat.add_comm 1 n]

/-- **The size of a segment bundle.** -/
theorem length_segmentBundle {built : BuiltBackupSegment} {kSegment kBackupRoot : KeyMaterial}
    {bundle : SealedSegmentBundle} (h : SegmentBundle.fromBuilt P built kSegment kBackupRoot = .ok bundle) :
    (encode (segmentBundleItem bundle)).length = segmentBundleBytes built := by
  unfold SegmentBundle.fromBuilt at h
  split at h
  · exact absurd h (by simp)
  · rw [Except.ok.injEq] at h
    subst h
    have hwrapped : (wrapKAsset P kSegment kBackupRoot).length = 40 := by
      rw [wrapKAsset, List.Vector.toList_length]
      rfl
    have hfixed : stringLength 16 = 17 ∧ stringLength 24 = 26 ∧ stringLength 32 = 34 ∧ stringLength 40 = 42 ∧
        headLength 9 = 1 ∧ headLength 1 = 1 := by decide
    obtain ⟨h16, h24, h32, h40, hnine, hone⟩ := hfixed
    simp only [segmentBundleItem, length_structItem, List.map_cons, List.map_nil, List.sum_cons, List.sum_nil,
      List.length_cons, List.length_nil]
    rw [length_field "magic" _ (n := 5) (by decide) (by omega), length_field "version" _ (n := 7) (by decide) (by omega),
      length_field "segment_id" _ (n := 10) (by decide) (by omega),
      length_field "segment_type" _ (n := 12) (by decide) (by omega),
      length_field "nonce" _ (n := 5) (by decide) (by omega),
      length_field "ciphertext" _ (n := 10) (by decide) (by omega),
      length_field "merkle_root" _ (n := 11) (by decide) (by omega),
      length_field "event_count" _ (n := 11) (by decide) (by omega),
      length_field "wrapped_k_segment" _ (n := 17) (by decide) (by omega)]
    simp only [length_uuidItem, length_encode_bytes, length_encode_text, length_encode_uint,
      List.Vector.toList_length, hwrapped, h16, h24, h32, h40, hnine, hone, bundleVersion, segmentBundleBytes]
    omega

/-- A listed segment. -/
theorem length_segmentRef (s : BuiltBackupSegment) :
    (encode (segmentRefItem (segmentRef P s))).length = segmentRefBytes s := by
  have hfixed : stringLength 32 = 34 ∧ headLength 4 = 1 := by decide
  obtain ⟨h32, hfour⟩ := hfixed
  simp only [segmentRefItem, segmentRef, length_structItem, List.map_cons, List.map_nil, List.sum_cons, List.sum_nil,
    List.length_cons, List.length_nil]
  rw [length_field "segment_id" _ (n := 10) (by decide) (by omega),
    length_field "segment_type" _ (n := 12) (by decide) (by omega),
    length_field "ciphertext_sha256" _ (n := 17) (by decide) (by omega),
    length_field "size" _ (n := 4) (by decide) (by omega)]
  simp only [length_uuidItem, length_encode_bytes, length_encode_text, length_encode_uint, List.Vector.toList_length,
    h32, hfour, segmentRefBytes]
  omega

/-- **The size of a manifest bundle.** -/
theorem length_manifestBundle {keys : BackupKeys} {listed : List TrackedBackupSegment} {sealed : SealedBackupManifest}
    (h : ListedBy P keys listed sealed) :
    (encode (manifestBundleItem (ManifestBundle.fromSealed sealed keys.deviceId))).length =
      manifestBundleBytes (listed.map TrackedBackupSegment.built) sealed.manifest.generation
        sealed.ciphertext.length keys.deviceId := by
  obtain ⟨previous, manifestId, link, freshId, -, hmanifest⟩ := h
  have hfixed : stringLength 16 = 17 ∧ stringLength 21 = 22 ∧ stringLength 24 = 26 ∧ stringLength 32 = 34 ∧
      stringLength signatureLength = 66 ∧ stringLength mlDsa65SignatureLen = 3312 ∧ headLength 6 = 1 ∧
      headLength 12 = 1 ∧ headLength 0 = 1 ∧ headLength 1 = 1 ∧ headLength 2 = 1 := by decide
  obtain ⟨h16, h21, h24, h32, hed, hml, hsix, htwelve, hzero, hone, htwo⟩ := hfixed
  have hmagic : (utf8 backupManifestMagic).length = 21 := by decide +kernel
  have hrefs : ((listed.map TrackedBackupSegment.built).map (segmentRef P)).map
      (fun r => (encode (segmentRefItem r)).length) = (listed.map TrackedBackupSegment.built).map segmentRefBytes := by
    rw [List.map_map]
    exact List.map_congr_left fun s _ => length_segmentRef s
  -- the manifest itself: twelve fields, of which only the generation and the list vary
  have hinner : (encode (manifestItem sealed.manifest)).length = 3652 + headLength sealed.manifest.generation +
      headLength listed.length + ((listed.map TrackedBackupSegment.built).map segmentRefBytes).sum := by
    rw [hmanifest]
    simp only [signBackupManifest, unsignedManifest, manifestRequest, manifestItem, length_structItem, List.map_cons,
      List.map_nil, List.sum_cons, List.sum_nil, List.length_cons, List.length_nil]
    rw [length_field "magic" _ (n := 5) (by decide) (by omega), length_field "version" _ (n := 7) (by decide) (by omega),
      length_field "manifest_id" _ (n := 11) (by decide) (by omega),
      length_field "generation" _ (n := 10) (by decide) (by omega),
      length_field "previous_manifest_hash" _ (n := 22) (by decide) (by omega),
      length_field "segments" _ (n := 8) (by decide) (by omega),
      length_field "search_index_shards" _ (n := 19) (by decide) (by omega),
      length_field "media_references" _ (n := 16) (by decide) (by omega),
      length_field "tombstones" _ (n := 10) (by decide) (by omega),
      length_field "merkle_root" _ (n := 11) (by decide) (by omega),
      length_field "manifest_signature" _ (n := 18) (by decide) (by omega),
      length_field "pqc_signature" _ (n := 13) (by decide) (by omega)]
    have hempty : (encode (.array [])).length = 1 := by decide
    simp only [length_array, length_uuidItem, length_encode_bytes, length_encode_text, length_encode_uint,
      List.Vector.toList_length, hrefs, hmagic, h21, h32, hed, hml, htwelve, htwo, manifestVersion, List.length_map,
      hempty]
    omega
  simp only [manifestBundleItem, ManifestBundle.fromSealed, length_structItem, List.map_cons, List.map_nil,
    List.sum_cons, List.sum_nil, List.length_cons, List.length_nil]
  rw [length_field "magic" _ (n := 5) (by decide) (by omega), length_field "version" _ (n := 7) (by decide) (by omega),
    length_field "manifest" _ (n := 8) (by decide) (by omega), length_field "nonce" _ (n := 5) (by decide) (by omega),
    length_field "ciphertext" _ (n := 10) (by decide) (by omega),
    length_field "device_id" _ (n := 9) (by decide) (by omega)]
  simp only [length_encode_bytes, length_encode_text, length_encode_uint, List.Vector.toList_length, hinner, h16, h24,
    hsix, hone, bundleVersion, manifestBundleBytes, List.length_map]
  omega

end Lengths

/-! ## Ranges -/

/-- **What the machine guarantees**: ids have 128 bits, and no byte string, text or list is longer than an address. -/
structure MachineSized (keys : BackupKeys) (listed : List TrackedBackupSegment) (sealed : SealedBackupManifest) :
    Prop where
  segments : ∀ t ∈ listed, t.built.segmentId.InRange ∧ t.built.ciphertext.length < 2 ^ 64
  count : listed.length < 2 ^ 64
  manifestId : sealed.manifest.manifestId.InRange
  ciphertext : sealed.ciphertext.length < 2 ^ 64
  deviceId : (utf8 keys.deviceId).length < 2 ^ 64

section Ranges

variable {P : Primitives} {keys : BackupKeys} {listed : List TrackedBackupSegment} {sealed : SealedBackupManifest}

theorem text_segmentTypeName_fits (t : SegmentType) : (Value.text (segmentTypeName t)).Fits := by
  refine .text ?_
  cases t <;> decide

theorem segmentInRange_of_fromBuilt {built : BuiltBackupSegment} {kSegment kBackupRoot : KeyMaterial}
    {bundle : SealedSegmentBundle} (h : SegmentBundle.fromBuilt P built kSegment kBackupRoot = .ok bundle)
    (hid : built.segmentId.InRange) (hct : built.ciphertext.length < 2 ^ 64) : SegmentInRange bundle := by
  unfold SegmentBundle.fromBuilt at h
  split at h
  · exact absurd h (by simp)
  · rename_i hcount
    have hcount' : built.eventCount ≤ u32Max := not_lt.mp hcount
    rw [Except.ok.injEq] at h
    subst h
    have hwrapped : (wrapKAsset P kSegment kBackupRoot).length < 2 ^ 64 := by
      rw [wrapKAsset, List.Vector.toList_length]
      decide
    refine ⟨structItem_fits (by simp) ?_ fun f hf => ?_, by show bundleVersion < 2 ^ 16; decide, hcount', hid⟩
    · show ∀ name ∈ ["magic", "version", "segment_id", "segment_type", "nonce", "ciphertext", "merkle_root",
        "event_count", "wrapped_k_segment"], (utf8 name).length < 2 ^ 64
      decide +kernel
    · simp only [List.mem_cons, List.not_mem_nil, or_false] at hf
      rcases hf with rfl | rfl | rfl | rfl | rfl | rfl | rfl | rfl | rfl
      · exact byteArr_fits _ (by decide)
      · exact .uint (by decide)
      · exact uuidItem_fits _
      · exact text_segmentTypeName_fits _
      · exact byteArr_fits _ (by decide)
      · exact .bytes hct
      · exact byteArr_fits _ (by decide)
      · exact .uint (lt_of_le_of_lt hcount' (by decide))
      · exact .bytes hwrapped

theorem segmentRefItem_fits {s : BuiltBackupSegment} (h : s.ciphertext.length < 2 ^ 64) :
    (segmentRefItem (segmentRef P s)).Fits := by
  refine structItem_fits (by simp) ?_ fun f hf => ?_
  · show ∀ name ∈ ["segment_id", "segment_type", "ciphertext_sha256", "size"], (utf8 name).length < 2 ^ 64
    decide +kernel
  · simp only [List.mem_cons, List.not_mem_nil, or_false] at hf
    rcases hf with rfl | rfl | rfl | rfl
    · exact uuidItem_fits _
    · exact text_segmentTypeName_fits _
    · exact byteArr_fits _ (by decide)
    · exact .uint h

/-- The generation of a chain link is a `u64`. -/
theorem generation_of_chainLink {previous : Option BackupManifest} {link : Nat × ByteArr 32}
    (h : chainLink P previous = .ok link) : link.1 ≤ u64Max := by
  cases previous with
  | none =>
      rw [chainLink, Except.ok.injEq] at h
      rw [← h]
      exact Nat.zero_le _
  | some prev =>
      rw [chainLink] at h
      split at h
      · rename_i hle
        rw [Except.ok.injEq] at h
        rw [← h]
        exact hle
      · exact absurd h (by simp)

theorem manifestInRange_of_listedBy (h : ListedBy P keys listed sealed) (hsized : MachineSized keys listed sealed) :
    ManifestInRange (ManifestBundle.fromSealed sealed keys.deviceId) := by
  obtain ⟨previous, manifestId, link, freshId, hlink, hmanifest⟩ := h
  have hgen : sealed.manifest.generation < 2 ^ 64 := by
    have hle := generation_of_chainLink hlink
    rw [hmanifest]
    exact lt_of_le_of_lt hle (by decide)
  -- the builder leaves the other three lists empty
  have hsegments : sealed.manifest.segments = (listed.map TrackedBackupSegment.built).map (segmentRef P) := by
    rw [hmanifest]
    rfl
  have hmanifestFits : (manifestItem sealed.manifest).Fits := by
    refine structItem_fits (by simp) ?_ fun f hf => ?_
    · show ∀ name ∈ ["magic", "version", "manifest_id", "generation", "previous_manifest_hash", "segments",
        "search_index_shards", "media_references", "tombstones", "merkle_root", "manifest_signature",
        "pqc_signature"], (utf8 name).length < 2 ^ 64
      decide +kernel
    · simp only [List.mem_cons, List.not_mem_nil, or_false] at hf
      -- one case for each field of the manifest, in the order of the struct
      rcases hf with rfl | rfl | rfl | rfl | rfl | rfl | rfl | rfl | rfl | rfl | rfl | rfl
      · rw [hmanifest]
        have hmagic : (textBytes backupManifestMagic).length < 2 ^ 64 := by decide +kernel
        exact .text hmagic
      · rw [hmanifest]
        exact .uint (by show manifestVersion < 2 ^ 64; decide)
      · exact uuidItem_fits _
      · exact .uint hgen
      · exact byteArr_fits _ (by decide)
      · rw [hsegments]
        refine array_fits (by rw [List.length_map, List.length_map]; exact hsized.count) fun r hr => ?_
        obtain ⟨s, hs, rfl⟩ := List.mem_map.mp hr
        obtain ⟨t, ht, rfl⟩ := List.mem_map.mp hs
        exact segmentRefItem_fits (hsized.segments t ht).2
      · rw [hmanifest]
        exact .array (by simp [signBackupManifest, unsignedManifest, manifestRequest])
          (by simp [signBackupManifest, unsignedManifest, manifestRequest])
      · rw [hmanifest]
        exact .array (by simp [signBackupManifest, unsignedManifest, manifestRequest])
          (by simp [signBackupManifest, unsignedManifest, manifestRequest])
      · rw [hmanifest]
        exact .array (by simp [signBackupManifest, unsignedManifest, manifestRequest])
          (by simp [signBackupManifest, unsignedManifest, manifestRequest])
      · exact byteArr_fits _ (by decide)
      · rw [hmanifest]
        exact byteArr_fits _ (by decide)
      · rw [hmanifest]
        exact byteArr_fits _ (by decide)
  refine ⟨structItem_fits (by simp) ?_ fun f hf => ?_, by show bundleVersion < 2 ^ 16; decide, ?_, ?_⟩
  · show ∀ name ∈ ["magic", "version", "manifest", "nonce", "ciphertext", "device_id"], (utf8 name).length < 2 ^ 64
    decide +kernel
  · simp only [List.mem_cons, List.not_mem_nil, or_false] at hf
    rcases hf with rfl | rfl | rfl | rfl | rfl | rfl
    · exact byteArr_fits _ (by decide)
    · exact .uint (by show bundleVersion < 2 ^ 64; decide)
    · exact hmanifestFits
    · exact byteArr_fits _ (by decide)
    · exact .bytes hsized.ciphertext
    · exact .text hsized.deviceId
  · show sealed.manifest.version < 2 ^ 32
    rw [hmanifest]
    show manifestVersion < 2 ^ 32
    decide
  · -- ids of the rows that the manifest refers to
    refine ⟨hsized.manifestId, fun r hr => ?_, fun r hr => ?_, fun r hr => ?_⟩
    · replace hr : r ∈ sealed.manifest.segments := hr
      rw [hsegments] at hr
      obtain ⟨s, hs, rfl⟩ := List.mem_map.mp hr
      obtain ⟨t, ht, rfl⟩ := List.mem_map.mp hs
      exact (hsized.segments t ht).1
    · replace hr : r ∈ sealed.manifest.searchIndexShards := hr
      rw [hmanifest] at hr
      exact absurd hr (by simp [signBackupManifest, unsignedManifest, manifestRequest])
    · replace hr : r ∈ sealed.manifest.mediaReferences := hr
      rw [hmanifest] at hr
      exact absurd hr (by simp [signBackupManifest, unsignedManifest, manifestRequest])

end Ranges

/-! ## Reading the bundles again -/

/-- The bundle of the segment, where it is built at all, is read back. -/
def SegmentDecodes (P : Primitives) (keys : BackupKeys) (t : TrackedBackupSegment) : Prop :=
  ∀ bundle, SegmentBundle.fromBuilt P t.built t.kSegment keys.rootKey = .ok bundle →
    SegmentBundle.decode P (SegmentBundle.encode P bundle) = .ok bundle

/-- The bundle of the manifest is read back. -/
def ManifestDecodes (P : Primitives) (keys : BackupKeys) (sealed : SealedBackupManifest) : Prop :=
  ManifestBundle.decode P (ManifestBundle.encode P (ManifestBundle.fromSealed sealed keys.deviceId)) =
    .ok (ManifestBundle.fromSealed sealed keys.deviceId)

/-- The segment, if it has a bundle, is within the cap. -/
def SegmentWithinCap (t : TrackedBackupSegment) : Prop :=
  t.built.eventCount ≤ u32Max → segmentBundleBytes t.built ≤ maxSegmentBundleBytes

/-- What a manifest lists, its own ciphertext and the device id are within the cap. -/
def ManifestWithinCap (keys : BackupKeys) (listed : List TrackedBackupSegment) (sealed : SealedBackupManifest) : Prop :=
  manifestBundleBytes (listed.map TrackedBackupSegment.built) sealed.manifest.generation sealed.ciphertext.length
    keys.deviceId ≤ maxManifestBundleBytes

section Decodes

variable {P : Primitives} {keys : BackupKeys} {listed : List TrackedBackupSegment} {sealed : SealedBackupManifest}

theorem segmentDecodes_iff (hP : WritesCbor P) {t : TrackedBackupSegment} (hid : t.built.segmentId.InRange)
    (hct : t.built.ciphertext.length < 2 ^ 64) : SegmentDecodes P keys t ↔ SegmentWithinCap t := by
  have hsize : ∀ bundle, SegmentBundle.fromBuilt P t.built t.kSegment keys.rootKey = .ok bundle →
      (SegmentBundle.encode P bundle).length = segmentBundleBytes t.built := by
    intro bundle hb
    rw [SegmentBundle.encode, hP.segment bundle (segmentInRange_of_fromBuilt hb hid hct), length_segmentBundle hb]
  constructor
  · intro h hcount
    obtain ⟨bundle, hb⟩ := SegmentBundle.fromBuilt_isOk_iff.mpr hcount
    rw [← hsize bundle hb]
    exact (SegmentBundle.decode_encode hb).mp (h bundle hb)
  · intro h bundle hb
    have hcount : t.built.eventCount ≤ u32Max := SegmentBundle.fromBuilt_isOk_iff.mp ⟨bundle, hb⟩
    rw [SegmentBundle.decode_encode hb, hsize bundle hb]
    exact h hcount

theorem manifestDecodes_iff (hP : WritesCbor P) (h : ListedBy P keys listed sealed)
    (hsized : MachineSized keys listed sealed) :
    ManifestDecodes P keys sealed ↔ ManifestWithinCap keys listed sealed := by
  rw [ManifestDecodes, ManifestBundle.decode_encode, ManifestBundle.encode,
    hP.manifest _ (manifestInRange_of_listedBy h hsized), length_manifestBundle h]
  exact Iff.rfl

/-- **Everything a pass encodes is read back exactly when it is within the caps.** -/
theorem bundlesDecode_iff (hP : WritesCbor P) {c : Core} {outputs : List TrackedBackupSegment}
    (h : Produces P c keys outputs listed sealed) (hsized : MachineSized keys listed sealed) :
    ((∀ t ∈ outputs, SegmentDecodes P keys t) ∧ ManifestDecodes P keys sealed) ↔
      (∀ t ∈ outputs, SegmentWithinCap t) ∧ ManifestWithinCap keys listed sealed := by
  obtain ⟨hlisted, hsub⟩ := h.listedBy
  refine and_congr (forall₂_congr fun t ht => ?_) (manifestDecodes_iff hP hlisted hsized)
  obtain ⟨hid, hct⟩ := hsized.segments t (hsub ht)
  exact segmentDecodes_iff hP hid hct

end Decodes

/-! ## One received message -/

/-- A device that has received one message and backs up for the first time. -/
def receivingCore (keys : BackupKeys) : Core := { Core.fresh keys none with
  db := { BackupDb.empty with
    journal := JournalTable.empty.insert "message_received" (some (Uuid.toText ⟨1⟩)) (some (Uuid.toText ⟨2⟩)) []
      1000 } }

/-- What its first pass reads. -/
def receivedBatch : ReadBatch := ⟨[⟨.messageReceived, some ⟨1⟩, some ⟨2⟩, [], 1000⟩], 1⟩

theorem readStep_receivingCore (keys : BackupKeys) :
    readStep (receivingCore keys) = (.ok (some receivedBatch), receivingCore keys) := rfl

/-- The first pass produces a segment and a manifest. -/
theorem produces_receivingCore (P : Primitives) (keys : BackupKeys) : ∃ tracked c₁ sealed c₂,
    sealStep P receivedBatch (receivingCore keys) = (.ok (keys, tracked), c₁) ∧
      manifestStep P keys [tracked.built] c₁ = (.ok sealed, c₂) ∧
      Produces P (receivingCore keys) keys [tracked] [tracked] sealed := by
  obtain ⟨tracked, hseal⟩ : ∃ tracked, sealStep P receivedBatch (receivingCore keys) =
      (.ok (keys, tracked), { receivingCore keys with drawn := 1 }) := sealStep_isOk rfl (by simp [receivedBatch])
  have hlink : chainLink P (receivingCore keys).backup.chainState.previousManifest = .ok (0, genesisPreviousHash) := rfl
  obtain ⟨sealed, hmanifest⟩ : ∃ sealed, manifestStep P keys [tracked.built] { receivingCore keys with drawn := 1 } =
      (.ok sealed, { receivingCore keys with drawn := 2 }) := manifestStep_isOk keys [tracked.built] hlink
  exact ⟨tracked, _, sealed, _, hseal, hmanifest, .incremental (readStep_receivingCore keys) hseal hmanifest⟩

/-- The ids and ciphertexts of the first pass are machine sized. -/
def firstPassSized (P : Primitives) (keys : BackupKeys) : Bool :=
  match sealStep P receivedBatch (receivingCore keys) with
  | (.ok (_, tracked), c) =>
      match manifestStep P keys [tracked.built] c with
      | (.ok sealed, _) =>
          decide (tracked.built.segmentId.val < 2 ^ 128 ∧ tracked.built.ciphertext.length < 2 ^ 64) &&
            decide (sealed.manifest.manifestId.val < 2 ^ 128 ∧ sealed.ciphertext.length < 2 ^ 64)
      | (.error _, _) => true
  | (.error _, _) => true

/-- The first pass of the example device. -/
theorem bundlesDecode_iff_receivingCore : ∃ tracked sealed,
    Produces cborPrimitives (receivingCore exampleKeys) exampleKeys [tracked] [tracked] sealed ∧
      (((∀ t ∈ [tracked], SegmentDecodes cborPrimitives exampleKeys t) ∧
          ManifestDecodes cborPrimitives exampleKeys sealed) ↔
        (∀ t ∈ [tracked], SegmentWithinCap t) ∧ ManifestWithinCap exampleKeys [tracked] sealed) := by
  obtain ⟨tracked, c₁, sealed, c₂, hseal, hmanifest, hproduces⟩ :=
    produces_receivingCore cborPrimitives exampleKeys
  have hsized : firstPassSized cborPrimitives exampleKeys = true := by decide +kernel
  simp only [firstPassSized, hseal, hmanifest, Bool.and_eq_true, decide_eq_true_eq] at hsized
  refine ⟨tracked, sealed, hproduces, bundlesDecode_iff cborPrimitives_writesCbor hproduces ⟨?_, ?_, ?_, ?_, ?_⟩⟩
  · intro t ht
    rw [List.mem_singleton.mp ht]
    exact hsized.1
  · simp
  · exact hsized.2.1
  · exact hsized.2.2
  · decide

/-! ## A device with a long name -/

theorem length_string_le (s : String) : s.toList.length ≤ (PrefixCodec.string.enc s).length := by
  have hflat : ∀ l : List Char, l.length ≤
      (l.flatMap (PrefixCodec.nat.iso Char.toNat Char.ofNat Char.ofNat_toNat).enc).length := by
    intro l
    induction l with
    | nil => exact le_rfl
    | cons c l ih =>
        have hone : 1 ≤ (PrefixCodec.natEnc c.toNat).length := by simp [PrefixCodec.natEnc]
        rw [List.length_cons, List.flatMap_cons, List.length_append]
        exact Nat.add_comm 1 _ ▸ Nat.add_le_add hone ih
  show _ ≤ (PrefixCodec.nat.enc s.toList.length ++ s.toList.flatMap _).length
  rw [List.length_append]
  exact le_trans (hflat s.toList) (Nat.le_add_left _ _)

/-- A bundle takes more bytes than its device id has characters, with CBOR or without. -/
theorem deviceId_lt_bundle (b : SealedManifestBundle) (hutf : b.deviceId.toList.length ≤ (utf8 b.deviceId).length) :
    b.deviceId.toList.length < (cborPrimitives.cborManifestBundle.encode b).length := by
  show _ < (writeTyped manifestBundleItem manifestBundleOf Primitives.manifestBundleCodec.toCodec b).length
  unfold writeTyped
  split
  · simp only [manifestBundleItem, length_structItem, List.map_cons, List.map_nil, List.sum_cons, List.sum_nil,
      length_encode_text]
    have hpos := headLength_pos (utf8 b.deviceId).length
    rw [show stringLength (utf8 b.deviceId).length = headLength (utf8 b.deviceId).length + (utf8 b.deviceId).length
      from rfl]
    omega
  · have hle := length_string_le b.deviceId
    rw [List.length_cons]
    show _ < (_ ++ (_ ++ (_ ++ (_ ++ (_ ++ PrefixCodec.string.enc b.deviceId))))).length + 1
    simp only [List.length_append]
    omega

/-- A device whose id has 2^20 characters. -/
def longNamed : BackupKeys := { exampleKeys with deviceId := String.ofList (List.replicate (2 ^ 20) 'a') }

/-- **A manifest that is uploaded and never read again**: its device has a long name. -/
theorem longNamed_manifest_unreadable : ∃ tracked sealed,
    Produces cborPrimitives (receivingCore longNamed) longNamed [tracked] [tracked] sealed ∧
      ¬ ManifestDecodes cborPrimitives longNamed sealed := by
  obtain ⟨tracked, c₁, sealed, c₂, -, -, hproduces⟩ := produces_receivingCore cborPrimitives longNamed
  refine ⟨tracked, sealed, hproduces, fun hdecodes => ?_⟩
  have hle := (ManifestBundle.decode_encode cborPrimitives sealed longNamed.deviceId).mp hdecodes
  have hchars : longNamed.deviceId.toList.length = 2 ^ 20 := by
    rw [longNamed, String.toList_ofList, List.length_replicate]
  have hbytes : (utf8 longNamed.deviceId).length = 2 ^ 20 := by
    rw [longNamed, utf8_replicate, List.length_replicate]
  -- a bundle is longer than the device id in it
  have hlt := deviceId_lt_bundle (ManifestBundle.fromSealed sealed longNamed.deviceId)
    (by show longNamed.deviceId.toList.length ≤ (utf8 longNamed.deviceId).length; rw [hchars, hbytes])
  have hlt' : 2 ^ 20 < (ManifestBundle.encode cborPrimitives
      (ManifestBundle.fromSealed sealed longNamed.deviceId)).length := by
    rw [← hchars]
    exact hlt
  exact absurd hle (not_le.mpr hlt')

end KChatCore.Backup
