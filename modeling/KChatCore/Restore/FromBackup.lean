import KChatCore.Backup.Core
import KChatCore.Backup.Wire
import KChatCore.Restore.Pipeline

/-!
# `Restore.FromBackup` — restoring from a backup sink

`restoreFromBackupInner` fetches the manifest it is asked for, verifies and opens it, fetches every segment the
manifest references, opens each under its own key, seals its events again under one shim key, and hands these to
the pipeline. It hands over what the segments hold, tombstones included.

* `fetchedEvents` — the events of the segments a manifest lets the restorer fetch.
* `restoreSummary_eq_ok` — a restore that succeeds is a pipeline run over them.
* `restoreFromBackupInner_isOk` — a restore succeeds when the manifest and its segments are in the sink and fit
  their bundles.
-/

namespace KChatCore.Restore

open Backup

/-- `BackupSource`. -/
structure BackupSource where
  manifestId : Uuid
  deviceId : String
  recencyWindowMs : Int
  nowMs : Int
deriving DecidableEq, Repr

/-- `RestoreResult`. -/
structure RestoreResult where
  manifestId : Option Uuid
  manifestGeneration : Nat
  segmentsRestored : Nat
  conversationsRestored : Nat
  skeletonsRestored : Nat
  recentBodiesRestored : Nat
  finalState : Option RestoreState
deriving DecidableEq, Repr

/-! ## The head manifest -/

/-- Pass 1: validate the source. -/
def validateSource (source : BackupSource) : Except Error Unit :=
  if source.manifestId.isNil then
    .error (.storageMsg ("restore_from_backup: BackupSource.manifest_id is nil — " ++
      "caller must supply the head of the manifest chain"))
  else if source.deviceId.isEmpty then
    .error (.storageMsg ("restore_from_backup: BackupSource.device_id is empty — " ++
      "cannot rebuild the manifest AAD without the original device id"))
  else if source.recencyWindowMs < 0 then
    .error (.storageMsg "restore_from_backup: BackupSource.recency_window_ms is negative")
  else if source.nowMs ≤ 0 then
    .error (.storageMsg "restore_from_backup: BackupSource.now_ms must be a positive ms epoch")
  else .ok ()

/-- Pass 4: fetch, decode, verify and open the head manifest. -/
def fetchHead (P : Primitives) (keys : BackupKeys) (sink : BackupSink) (source : BackupSource) :
    Except Error SealedManifestBundle := do
  let bytes ← sink.fetchBackupManifest source.manifestId
  let bundle ← ManifestBundle.decode P bytes
  if bundle.manifest.manifestId ≠ source.manifestId then
    .error (.storageMsg ("restore_from_backup: manifest id mismatch — source asked for " ++
      source.manifestId.hyphenated ++ ", sink returned " ++ bundle.manifest.manifestId.hyphenated))
  else if bundle.deviceId ≠ source.deviceId then
    .error (.storageMsg ("restore_from_backup: device id mismatch — source says " ++ source.deviceId.quote ++
      ", sink-stored manifest says " ++ bundle.deviceId.quote))
  else do
    (verifyBackupManifest P bundle.manifest (P.verifyingKey keys.signingKey)).mapError Error.crypto
    let kManifest := P.deriveBackupManifest keys.rootKey source.manifestId.asBytes
    let aad := buildManifestAad bundle.manifest.manifestId bundle.manifest.generation bundle.manifest.merkleRoot
      source.deviceId
    let _ ← okOr (P.aeadOpen kManifest bundle.nonce bundle.ciphertext aad)
      (.crypto (.aead "xchacha20-poly1305 open failed"))
    return bundle

/-! ## The segments -/

/-- `{:02x?}` of a digest. -/
def hexDebug (digest : ByteArr 32) : String :=
  "[" ++ ", ".intercalate (digest.toList.map fun b => String.ofList (Uuid.hexByte b)) ++ "]"

/-- Pass 5, for one reference: fetch the segment, check it against the reference, and open it. -/
def fetchSegment (P : Primitives) (keys : BackupKeys) (sink : BackupSink) (ref : ManifestSegmentRef) :
    Except Error (SegmentType × List BackupEvent) := do
  let bytes ← sink.fetchBackupSegment ref.segmentId
  let bundle ← SegmentBundle.decode P bytes
  if bundle.segmentId ≠ ref.segmentId then
    .error (.storageMsg ("restore: segment " ++ ref.segmentId.hyphenated ++ " from sink reports id " ++
      bundle.segmentId.hyphenated))
  else if bundle.segmentType ≠ ref.segmentType then
    .error (.storageMsg ("restore: segment " ++ ref.segmentId.hyphenated ++ " type " ++
      bundle.segmentType.debug ++ " disagrees with manifest ref " ++ ref.segmentType.debug))
  else if P.sha256 bundle.ciphertext ≠ ref.ciphertextSha256 then
    .error (.storageMsg ("restore: segment " ++ ref.segmentId.hyphenated ++
      " ciphertext SHA-256 mismatch (manifest says " ++ hexDebug ref.ciphertextSha256 ++ ", sink returned " ++
      hexDebug (P.sha256 bundle.ciphertext) ++ ")"))
  else do
    let kSegment ← SegmentBundle.unwrapSegmentKey P bundle keys.rootKey
    if P.deriveBackupSegment keys.rootKey ref.segmentId.asBytes ≠ kSegment then
      .error (.storageMsg ("restore: segment " ++ ref.segmentId.hyphenated ++
        " wrapped-key disagrees with K_backup_segment(segment_id) derived from K_backup_root"))
    else do
      let payload ← decryptBackupSegment P (SegmentBundle.toBuilt bundle) kSegment
      return (bundle.segmentType, payload.events)

/-- Pass 5: every reference of the manifest, each re-sealed under the shim key. -/
def fetchSegments (P : Primitives) (keys : BackupKeys) (sink : BackupSink) (shimKey : KeyMaterial) :
    List ManifestSegmentRef → RestoreM (List BuiltBackupSegment)
  | [] => pure []
  | ref :: refs => do
      let fetched ← RestoreM.lift (fetchSegment P keys sink ref)
      let drawn ← RestoreM.draw
      let reshimmed ← RestoreM.lift (buildSegment P ⟨fetched.2, fetched.1⟩ shimKey drawn)
      let rest ← fetchSegments P keys sink shimKey refs
      return reshimmed :: rest

/-! ## The restore -/

/-- What the pipeline made of the backup. -/
structure Restored where
  manifest : BackupManifest
  segments : List BuiltBackupSegment
  summary : RestoreSummary

/-- Passes 1 to 6 of `restore_from_backup_inner`. -/
def restoreSummary (P : Primitives) (core : Core) (source : BackupSource) : RestoreM Restored := do
  let _ ← RestoreM.lift (validateSource source)
  let keys ← RestoreM.lift core.backup.requireKeys
  let sink ← RestoreM.lift
    (okOr core.backupSink (.storage (.subsystemNotInstalled "backup_sink")))
  let _ ← reset
  let _ ← transition .identityRestored none
  let _ ← transition .rootKeysUnwrapped none
  let bundle ← RestoreM.lift (fetchHead P keys sink source)
  let _ ← transition .manifestVerified none
  let drawn ← RestoreM.draw
  let shimKey : KeyMaterial := leBytes 32 drawn
  let segments ← fetchSegments P keys sink shimKey bundle.manifest.segments
  let summary ← run P [bundle.manifest] segments shimKey source.nowMs source.recencyWindowMs
  return ⟨bundle.manifest, segments, summary⟩

/-- The `RestoreResult` of what was restored; counts saturate. -/
def Restored.result (r : Restored) : RestoreResult where
  manifestId := some r.manifest.manifestId
  manifestGeneration := r.manifest.generation
  segmentsRestored := min r.segments.length u32Max
  conversationsRestored := min r.summary.conversations.length u32Max
  skeletonsRestored := min r.summary.skeletons.length u32Max
  recentBodiesRestored := min r.summary.recentBodies.length u32Max
  finalState := r.summary.finalState

/-- `restore_from_backup_inner`. -/
def restoreFromBackupInner (P : Primitives) (core : Core) (source : BackupSource) : RestoreM RestoreResult := do
  let restored ← restoreSummary P core source
  return restored.result

/-! ## What the head lets the restorer fetch -/

/-- The events of the segments a manifest references, in the manifest's order. -/
def fetchedEvents (P : Primitives) (keys : BackupKeys) (sink : BackupSink) :
    List ManifestSegmentRef → Except Error (List BackupEvent)
  | [] => .ok []
  | ref :: refs => do
      let fetched ← fetchSegment P keys sink ref
      let rest ← fetchedEvents P keys sink refs
      return fetched.2 ++ rest

section Fetch

variable {P : Primitives} {keys : BackupKeys} {sink : BackupSink} {shimKey : KeyMaterial}
  {refs : List ManifestSegmentRef} {db db' : RestoreDb} {segments : List BuiltBackupSegment}

theorem decryptSegments_cons {seg : BuiltBackupSegment} {payload : BackupSegmentPayload}
    {events : List BackupEvent} (hseg : decryptBackupSegment P seg shimKey = .ok payload)
    (hrest : decryptSegments P shimKey segments = .ok events) :
    decryptSegments P shimKey (seg :: segments) = .ok (payload.events ++ events) := by
  simp [decryptSegments, hseg, hrest, Except.map]

/-- **What the shim segments decrypt to** is what was fetched. -/
theorem fetchSegments_eq_ok (h : fetchSegments P keys sink shimKey refs db = (.ok segments, db')) :
    ∃ events, fetchedEvents P keys sink refs = .ok events ∧
      decryptSegments P shimKey segments = .ok events ∧ segments.length = refs.length := by
  induction refs generalizing segments db db' with
  | nil =>
      obtain ⟨rfl, -⟩ := RestoreM.pure_eq.mp h
      exact ⟨[], rfl, rfl, rfl⟩
  | cons ref refs ih =>
      unfold fetchSegments at h
      obtain ⟨⟨segmentType, events⟩, _, hfetch, h⟩ := RestoreM.bind_eq_ok.mp h
      obtain ⟨hfetch, -⟩ := RestoreM.lift_eq_ok.mp hfetch
      obtain ⟨drawn, _, -, h⟩ := RestoreM.bind_eq_ok.mp h
      obtain ⟨seg, _, hbuild, h⟩ := RestoreM.bind_eq_ok.mp h
      obtain ⟨hbuild, -⟩ := RestoreM.lift_eq_ok.mp hbuild
      obtain ⟨rest, _, hrest, h⟩ := RestoreM.bind_eq_ok.mp h
      obtain ⟨rfl, -⟩ := RestoreM.pure_eq.mp h
      obtain ⟨more, hmore, hdec, hlen⟩ := ih hrest
      refine ⟨events ++ more, ?_, ?_, by simp [hlen]⟩
      · exact except_bind_eq_ok.mpr ⟨_, hfetch, except_bind_eq_ok.mpr ⟨_, hmore, rfl⟩⟩
      · exact decryptSegments_cons (decryptBackupSegment_of_buildSegmentWithId hbuild) hdec

theorem drawsOn_fetchSegments : RestoreM.DrawsOn (fetchSegments P keys sink shimKey refs) := by
  induction refs with
  | nil => exact RestoreM.drawsOn_pure _
  | cons ref refs ih =>
      unfold fetchSegments
      refine (RestoreM.drawsOn_lift _).bind fun fetched => RestoreM.drawsOn_draw.bind fun drawn => ?_
      exact (RestoreM.drawsOn_lift _).bind fun seg => ih.bind fun rest => RestoreM.drawsOn_pure _

/-- **The shim segments**, when every segment is fetched and holds an event. -/
theorem fetchSegments_isOk (shimKey : KeyMaterial)
    (hfetch : ∀ ref ∈ refs, ∃ segmentType events, fetchSegment P keys sink ref = .ok (segmentType, events) ∧
      events ≠ []) (db : RestoreDb) :
    ∃ segments db', fetchSegments P keys sink shimKey refs db = (.ok segments, db') ∧ db'.row = db.row := by
  induction refs generalizing db with
  | nil => exact ⟨[], db, RestoreM.pure_eq.mpr ⟨rfl, rfl⟩, rfl⟩
  | cons ref refs ih =>
      obtain ⟨segmentType, events, hok, hne⟩ := hfetch ref (by simp)
      obtain ⟨seg, hbuild⟩ : ∃ seg, buildSegment P ⟨events, segmentType⟩ shimKey db.drawn = .ok seg :=
        buildSegmentWithId_isOk hne
      obtain ⟨rest, db', hrest, hrow⟩ :=
        ih (fun r hr => hfetch r (by simp [hr])) { db with drawn := db.drawn + 1 }
      refine ⟨seg :: rest, db', ?_, hrow⟩
      unfold fetchSegments
      rw [RestoreM.bind_of_ok (RestoreM.lift_eq_ok.mpr ⟨hok, rfl⟩)]
      rw [RestoreM.bind_of_ok (RestoreM.draw_eq_ok.mpr ⟨rfl, rfl⟩)]
      rw [RestoreM.bind_of_ok (RestoreM.lift_eq_ok.mpr ⟨hbuild, rfl⟩)]
      rw [RestoreM.bind_of_ok hrest]
      exact RestoreM.pure_eq.mpr ⟨rfl, rfl⟩

end Fetch

/-! ## A restore -/

section Restore

variable {P : Primitives} {core : Core} {source : BackupSource} {db db' : RestoreDb} {restored : Restored}

/-- The head is the manifest the source asks for. -/
theorem manifestId_of_fetchHead {keys : BackupKeys} {sink : BackupSink} {bundle : SealedManifestBundle}
    (h : fetchHead P keys sink source = .ok bundle) :
    ∃ bytes, sink.fetchBackupManifest source.manifestId = .ok bytes ∧
      ManifestBundle.decode P bytes = .ok bundle ∧ bundle.manifest.manifestId = source.manifestId := by
  unfold fetchHead at h
  obtain ⟨bytes, hbytes, h⟩ := except_bind_eq_ok.mp h
  obtain ⟨bundle', hdec, h⟩ := except_bind_eq_ok.mp h
  split at h
  · exact absurd h (by simp)
  · rename_i hid
    split at h
    · exact absurd h (by simp)
    · obtain ⟨_, -, h⟩ := except_bind_eq_ok.mp h
      obtain ⟨_, -, h⟩ := except_bind_eq_ok.mp h
      obtain rfl : bundle' = bundle := Except.ok.inj h
      exact ⟨bytes, hbytes, hdec, not_not.mp hid⟩

/-- **A restore that succeeds** is a pipeline run over the events of the segments the head references. -/
theorem restoreSummary_eq_ok (h : restoreSummary P core source db = (.ok restored, db')) :
    ∃ keys sink bundle events, core.backup.backupKeys = some keys ∧ core.backupSink = some sink ∧
      fetchHead P keys sink source = .ok bundle ∧ restored.manifest = bundle.manifest ∧
      fetchedEvents P keys sink bundle.manifest.segments = .ok events ∧
      restored.segments.length = bundle.manifest.segments.length ∧
      restored.summary = summaryOf [bundle.manifest] events source.nowMs source.recencyWindowMs := by
  unfold restoreSummary at h
  obtain ⟨_, _, -, h⟩ := RestoreM.bind_eq_ok.mp h
  obtain ⟨keys, _, hkeys, h⟩ := RestoreM.bind_eq_ok.mp h
  obtain ⟨hkeys, -⟩ := RestoreM.lift_eq_ok.mp hkeys
  obtain ⟨sink, _, hsink, h⟩ := RestoreM.bind_eq_ok.mp h
  obtain ⟨hsink, -⟩ := RestoreM.lift_eq_ok.mp hsink
  obtain ⟨_, _, -, h⟩ := RestoreM.bind_eq_ok.mp h
  obtain ⟨_, _, -, h⟩ := RestoreM.bind_eq_ok.mp h
  obtain ⟨_, _, -, h⟩ := RestoreM.bind_eq_ok.mp h
  obtain ⟨bundle, _, hhead, h⟩ := RestoreM.bind_eq_ok.mp h
  obtain ⟨hhead, -⟩ := RestoreM.lift_eq_ok.mp hhead
  obtain ⟨_, _, -, h⟩ := RestoreM.bind_eq_ok.mp h
  obtain ⟨drawn, _, -, h⟩ := RestoreM.bind_eq_ok.mp h
  obtain ⟨segments, _, hsegs, h⟩ := RestoreM.bind_eq_ok.mp h
  obtain ⟨summary, _, hrun, h⟩ := RestoreM.bind_eq_ok.mp h
  obtain ⟨rfl, -⟩ := RestoreM.pure_eq.mp h
  obtain ⟨events, hevents, hdec, hlen⟩ := fetchSegments_eq_ok hsegs
  obtain ⟨decrypted, hdec', rfl⟩ := run_eq_ok hrun
  obtain rfl : events = decrypted := Except.ok.inj (hdec.symm.trans hdec')
  exact ⟨keys, sink, bundle, events, okOr_eq_ok.mp hkeys, okOr_eq_ok.mp hsink, hhead, rfl, hevents, hlen, rfl⟩

/-- **A restore draws on**: its shim key and its shim segments take entropy, and nothing gives any back. -/
theorem drawsOn_restoreSummary : RestoreM.DrawsOn (restoreSummary P core source) := by
  unfold restoreSummary
  refine (RestoreM.drawsOn_lift _).bind fun _ => (RestoreM.drawsOn_lift _).bind fun keys => ?_
  refine (RestoreM.drawsOn_lift _).bind fun sink => drawsOn_reset.bind fun _ => ?_
  refine (drawsOn_transition _ _).bind fun _ => (drawsOn_transition _ _).bind fun _ => ?_
  refine (RestoreM.drawsOn_lift _).bind fun bundle => (drawsOn_transition _ _).bind fun _ => ?_
  refine RestoreM.drawsOn_draw.bind fun drawn => drawsOn_fetchSegments.bind fun segments => ?_
  exact drawsOn_run.bind fun summary => RestoreM.drawsOn_pure _

/-- **A restore succeeds** once the head and every segment it references can be fetched. -/
theorem restoreSummary_isOk {keys : BackupKeys} {sink : BackupSink} {bundle : SealedManifestBundle}
    (hvalid : validateSource source = .ok ()) (hkeys : core.backup.backupKeys = some keys)
    (hsink : core.backupSink = some sink) (hhead : fetchHead P keys sink source = .ok bundle)
    (hfetch : ∀ ref ∈ bundle.manifest.segments, ∃ segmentType events,
      fetchSegment P keys sink ref = .ok (segmentType, events) ∧ events ≠ []) (db : RestoreDb) :
    ∃ restored db', restoreSummary P core source db = (.ok restored, db') := by
  have hk : core.backup.requireKeys = .ok keys := okOr_eq_ok.mpr hkeys
  have hs : okOr core.backupSink (.storage (.subsystemNotInstalled "backup_sink")) = .ok sink :=
    okOr_eq_ok.mpr hsink
  unfold restoreSummary
  rw [RestoreM.bind_of_ok (RestoreM.lift_eq_ok.mpr ⟨hvalid, rfl⟩)]
  rw [RestoreM.bind_of_ok (RestoreM.lift_eq_ok.mpr ⟨hk, rfl⟩)]
  rw [RestoreM.bind_of_ok (RestoreM.lift_eq_ok.mpr ⟨hs, rfl⟩)]
  rw [RestoreM.bind_of_ok (rfl : reset db = (.ok (), { db with row := none }))]
  rw [RestoreM.bind_of_ok (transition_of_none rfl)]
  rw [RestoreM.bind_of_ok (transition_of_row rfl rfl)]
  rw [RestoreM.bind_of_ok (RestoreM.lift_eq_ok.mpr ⟨hhead, rfl⟩)]
  rw [RestoreM.bind_of_ok (transition_of_row rfl rfl)]
  rw [RestoreM.bind_of_ok (RestoreM.draw_eq_ok.mpr ⟨rfl, rfl⟩)]
  simp only [save]
  obtain ⟨segments, db₁, hsegs, hrow⟩ := fetchSegments_isOk (leBytes 32 db.drawn) hfetch
    { row := some (RestoreState.manifestVerified.asStr, none), drawn := db.drawn + 1 }
  obtain ⟨events, -, hdec, -⟩ := fetchSegments_eq_ok hsegs
  obtain ⟨db₂, hrun⟩ := run_isOk hdec hrow
  rw [RestoreM.bind_of_ok hsegs, RestoreM.bind_of_ok hrun]
  exact ⟨_, _, RestoreM.pure_eq.mpr ⟨rfl, rfl⟩⟩

/-- What the caller gets is counts of what was restored. -/
theorem restoreFromBackupInner_eq_ok {result : RestoreResult} :
    restoreFromBackupInner P core source db = (.ok result, db') ↔
      ∃ restored, restoreSummary P core source db = (.ok restored, db') ∧ restored.result = result := by
  unfold restoreFromBackupInner
  rw [RestoreM.bind_eq_ok]
  constructor
  · rintro ⟨restored, _, h, hpure⟩
    obtain ⟨hresult, rfl⟩ := RestoreM.pure_eq.mp hpure
    exact ⟨restored, h, hresult⟩
  · rintro ⟨restored, h, hresult⟩
    exact ⟨restored, db', h, RestoreM.pure_eq.mpr ⟨hresult, rfl⟩⟩

end Restore

end KChatCore.Restore
