import KChatCore.Backup.Upload
import KChatCore.Restore.FromBackup

/-!
# `Restore.Fetch` — what the restorer gets from a sink that holds what was sealed

A bundle the sink holds is refused only for its length. So a held manifest is fetched, and a held segment is
fetched with the events it was sealed over, exactly when the bytes are within the decoder's cap.
-/

namespace KChatCore.Restore

open Backup

section Caps

variable {P : Primitives} {keys : BackupKeys} {sink : BackupSink} {source : BackupSource}

/-- A manifest bundle that decodes is within the cap. -/
theorem length_of_decode_manifest {bytes : Bytes} {bundle : SealedManifestBundle}
    (h : ManifestBundle.decode P bytes = .ok bundle) : bytes.length ≤ maxManifestBundleBytes := by
  unfold ManifestBundle.decode at h
  split at h
  · exact absurd h (by simp)
  · rename_i hle
    exact not_lt.mp hle

/-- A segment bundle that decodes is within the cap. -/
theorem length_of_decode_segment {bytes : Bytes} {bundle : SealedSegmentBundle}
    (h : SegmentBundle.decode P bytes = .ok bundle) : bytes.length ≤ maxSegmentBundleBytes := by
  unfold SegmentBundle.decode at h
  split at h
  · exact absurd h (by simp)
  · rename_i hle
    exact not_lt.mp hle

/-- **The wire caps** for a manifest: what the sink stores for it, and for the segments it references. -/
structure WithinCaps (sink : BackupSink) (head : BackupManifest) : Prop where
  manifest : ∀ bytes, sink.fetchBackupManifest head.manifestId = .ok bytes →
    bytes.length ≤ maxManifestBundleBytes
  segments : ∀ ref ∈ head.segments, ∀ bytes, sink.fetchBackupSegment ref.segmentId = .ok bytes →
    bytes.length ≤ maxSegmentBundleBytes

/-- Whatever is fetched is within the caps. -/
theorem withinCaps_of_fetched {bundle : SealedManifestBundle} {events : List BackupEvent}
    (hhead : fetchHead P keys sink source = .ok bundle)
    (hfetched : fetchedEvents P keys sink bundle.manifest.segments = .ok events) :
    WithinCaps sink bundle.manifest := by
  obtain ⟨bytes, hbytes, hdec, hid⟩ := manifestId_of_fetchHead hhead
  constructor
  · intro bytes' hbytes'
    rw [hid, hbytes] at hbytes'
    obtain rfl := Except.ok.inj hbytes'
    exact length_of_decode_manifest hdec
  · -- by induction on the references: each was decoded before the next was fetched
    clear hhead hdec hid hbytes
    generalize bundle.manifest.segments = refs at hfetched
    induction refs generalizing events with
    | nil => simp
    | cons ref refs ih =>
        unfold fetchedEvents at hfetched
        obtain ⟨fetched, hfetch, hfetched⟩ := except_bind_eq_ok.mp hfetched
        obtain ⟨rest, hrest, -⟩ := except_bind_eq_ok.mp hfetched
        intro ref' href' bytes' hbytes'
        rcases List.mem_cons.mp href' with rfl | href'
        · unfold fetchSegment at hfetch
          obtain ⟨bytes₁, hbytes₁, hfetch⟩ := except_bind_eq_ok.mp hfetch
          obtain ⟨_, hdec, -⟩ := except_bind_eq_ok.mp hfetch
          rw [hbytes₁] at hbytes'
          obtain rfl := Except.ok.inj hbytes'
          exact length_of_decode_segment hdec
        · exact ih hrest ref' href' bytes' hbytes'

end Caps

section Held

variable {P : Primitives} {keys : BackupKeys} {sink : BackupSink}

/-- **A held segment is fetched with its events.** -/
theorem fetchSegment_of_holds {t : TrackedBackupSegment} (hsealed : WellSealed P keys.rootKey t)
    (hheld : sink.HoldsSegment P keys t)
    (hcap : ∀ bytes, sink.fetchBackupSegment t.built.segmentId = .ok bytes →
      bytes.length ≤ maxSegmentBundleBytes) :
    fetchSegment P keys sink (segmentRef P t.built) = .ok (.events, segmentEvents P t) := by
  obtain ⟨bundle, hbundle, hfetch⟩ := hheld
  have hdec : SegmentBundle.decode P (SegmentBundle.encode P bundle) = .ok bundle :=
    (SegmentBundle.decode_encode hbundle).mpr (hcap _ hfetch)
  have hbuilt : SegmentBundle.toBuilt bundle = t.built := SegmentBundle.toBuilt_fromBuilt hbundle
  have hid : bundle.segmentId = (segmentRef P t.built).segmentId :=
    congrArg BuiltBackupSegment.segmentId hbuilt
  have hty : bundle.segmentType = (segmentRef P t.built).segmentType :=
    congrArg BuiltBackupSegment.segmentType hbuilt
  have hsha : P.sha256 bundle.ciphertext = (segmentRef P t.built).ciphertextSha256 :=
    congrArg (fun b => P.sha256 b.ciphertext) hbuilt
  have hderived : P.deriveBackupSegment keys.rootKey (segmentRef P t.built).segmentId.asBytes = t.kSegment :=
    hsealed.derived.symm
  have hkey := (SegmentBundle.fields_of_fromBuilt hbundle).2.2
  unfold fetchSegment
  refine except_bind_eq_ok.mpr ⟨_, hfetch, except_bind_eq_ok.mpr ⟨bundle, hdec, ?_⟩⟩
  rw [if_neg (not_not.mpr hid), if_neg (not_not.mpr hty), if_neg (not_not.mpr hsha)]
  refine except_bind_eq_ok.mpr ⟨t.kSegment, hkey, ?_⟩
  rw [if_neg (not_not.mpr hderived)]
  refine except_bind_eq_ok.mpr ⟨⟨backupSegmentPayloadMagic, segmentEvents P t⟩, ?_, ?_⟩
  · rw [hbuilt]
    exact hsealed.opens
  · rw [hty]
    show Except.ok (t.built.segmentType, _) = _
    rw [hsealed.segmentType]

/-- **A held manifest is fetched.** -/
theorem fetchHead_of_holds {source : BackupSource} {segments : List BuiltBackupSegment}
    {previous : Option BackupManifest} {drawn : Nat} {sealed : SealedBackupManifest}
    (hbuilt : ManifestBuilt P keys segments previous drawn sealed) (hheld : sink.HoldsManifest P keys sealed)
    (hid : source.manifestId = sealed.manifest.manifestId) (hdevice : source.deviceId = keys.deviceId)
    (hcap : ∀ bytes, sink.fetchBackupManifest sealed.manifest.manifestId = .ok bytes →
      bytes.length ≤ maxManifestBundleBytes) :
    fetchHead P keys sink source = .ok (ManifestBundle.fromSealed sealed keys.deviceId) := by
  have hdec := (ManifestBundle.decode_encode P sealed keys.deviceId).mpr (hcap _ hheld)
  have hverify := hbuilt.verifies
  have hopens := hbuilt.opens
  rw [← hbuilt.id] at hopens
  unfold fetchHead
  rw [hid, hdevice]
  refine except_bind_eq_ok.mpr ⟨_, hheld, except_bind_eq_ok.mpr ⟨_, hdec, ?_⟩⟩
  have hsameId : (ManifestBundle.fromSealed sealed keys.deviceId).manifest.manifestId =
      sealed.manifest.manifestId := rfl
  have hsameDevice : (ManifestBundle.fromSealed sealed keys.deviceId).deviceId = keys.deviceId := rfl
  rw [if_neg (not_not.mpr hsameId), if_neg (not_not.mpr hsameDevice)]
  refine except_bind_eq_ok.mpr ⟨(), ?_, except_bind_eq_ok.mpr ⟨_, okOr_eq_ok.mpr hopens, rfl⟩⟩
  show Except.mapError Error.crypto (verifyBackupManifest P sealed.manifest _) = _
  rw [hverify]
  rfl

/-- The manifest that is fetched is the one that is held. -/
theorem bundle_of_holds {source : BackupSource} {sealed : SealedBackupManifest} {bundle : SealedManifestBundle}
    (hheld : sink.HoldsManifest P keys sealed) (hid : source.manifestId = sealed.manifest.manifestId)
    (h : fetchHead P keys sink source = .ok bundle) : bundle = ManifestBundle.fromSealed sealed keys.deviceId := by
  obtain ⟨bytes, hbytes, hdec, -⟩ := manifestId_of_fetchHead h
  rw [hid, hheld] at hbytes
  obtain rfl := Except.ok.inj hbytes
  have hok := (ManifestBundle.decode_encode P sealed keys.deviceId).mpr (length_of_decode_manifest hdec)
  exact Except.ok.inj (hdec.symm.trans hok)

/-- **What is fetched for references to held segments** is what the segments hold, in the same order. -/
theorem fetchedEvents_of_holds {listed : List TrackedBackupSegment}
    (hfetch : ∀ t ∈ listed, fetchSegment P keys sink (segmentRef P t.built) = .ok (.events, segmentEvents P t)) :
    fetchedEvents P keys sink (listed.map fun t => segmentRef P t.built) = .ok (ledgerEvents P listed) := by
  induction listed with
  | nil => rfl
  | cons t listed ih =>
      have hrest := ih fun t' ht' => hfetch t' (by simp [ht'])
      refine except_bind_eq_ok.mpr ⟨_, hfetch t (by simp), ?_⟩
      exact except_bind_eq_ok.mpr ⟨_, hrest, rfl⟩

end Held

end KChatCore.Restore
