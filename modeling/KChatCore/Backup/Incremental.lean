import KChatCore.Backup.Core

/-!
# `Backup.Incremental` — one incremental backup pass

`runIncrementalBackupInner` is the sequence of its steps, each of which takes and releases its own lock: read
the unsegmented events, seal them, read the chain tail and build the manifest, persist, commit, upload. The
steps are definitions of their own because an interleaving runs them one at a time.

The manifest step and the upload step are shared with compaction.
-/

namespace KChatCore.Backup

/-- `MAX_EVENTS_PER_BACKUP_SEGMENT`. -/
def maxEventsPerBackupSegment : Nat := 4096

/-- `BackupResult`; `deferred` is the scheduler's and always false here. -/
structure BackupResult where
  segmentsBuilt : Nat
  segmentsUploaded : Nat
  eventsSegmented : Nat
  manifestGeneration : Option Nat
  manifestUploaded : Bool
  deferred : Bool
deriving DecidableEq, Repr

/-- `BackupResult::default`. -/
def BackupResult.default : BackupResult := ⟨0, 0, 0, none, false, false⟩

/-- `SealedBackupEventRef`. -/
structure SealedBackupEventRef where
  conversationId : Uuid
  messageId : Uuid
  createdAtMs : Int
deriving DecidableEq, Repr

/-- The refs of the sealed events that have both ids. -/
def sealedEventRefs (events : List BackupEvent) : List SealedBackupEventRef :=
  events.filterMap fun e => e.ids.map fun ids => ⟨ids.1, ids.2, e.createdAtMs⟩

/-- `.iter().map(|e| e.created_at_ms).min()`; the list is never empty where this is used. -/
def minEventMs (events : List BackupEvent) : Int := ((events.map BackupEvent.createdAtMs).min?).getD 0

/-- `.iter().map(|e| e.created_at_ms).max()`. -/
def maxEventMs (events : List BackupEvent) : Int := ((events.map BackupEvent.createdAtMs).max?).getD 0

/-! ## The steps -/

/-- What the read step hands on: the events, and the cursor that covers them. -/
structure ReadBatch where
  events : List BackupEvent
  lastSeq : Nat
deriving DecidableEq, Repr

/-- Read the unsegmented events; an empty read means there is nothing to do. -/
def readBatch (db : BackupDb) : Except Error (Option ReadBatch) :=
  (db.readUnsegmented maxEventsPerBackupSegment).map fun eventsWithSeq =>
    eventsWithSeq.getLast?.map fun last => ⟨eventsWithSeq.map Prod.snd, last.1⟩

/-- The read step (`db_writer` lock). -/
def readStep : BackupM (Option ReadBatch) := do
  let c ← BackupM.get
  BackupM.lift (readBatch c.db)

/-- The seal step: a fresh id, the key it derives, and the segment under that key. -/
def sealStep (P : Primitives) (batch : ReadBatch) : BackupM (BackupKeys × TrackedBackupSegment) := do
  let c ← BackupM.get
  let keys ← BackupM.lift c.backup.requireKeys
  let n ← BackupM.draw
  let segmentId := Uuid.nowV7 n
  let kSegment := P.deriveBackupSegment keys.rootKey segmentId.asBytes
  let built ← BackupM.lift (buildSegmentWithId P ⟨batch.events, .events⟩ segmentId kSegment (fillNonce n))
  pure (keys, ⟨built, .daily, minEventMs batch.events, maxEventMs batch.events, kSegment⟩)

/-- The request both pipelines build their manifest from. -/
def manifestRequest (keys : BackupKeys) (segments : List BuiltBackupSegment) (previous : Option BackupManifest)
    (manifestId : Uuid) : BackupManifestBuildRequest where
  segments := segments
  searchIndexShards := []
  mediaReferences := []
  tombstones := []
  previous := previous
  deviceId := keys.deviceId
  manifestId := some manifestId

/-- The manifest step (`chain_state` lock): chain under the in-memory tail. -/
def manifestStep (P : Primitives) (keys : BackupKeys) (segments : List BuiltBackupSegment) :
    BackupM SealedBackupManifest := do
  let c ← BackupM.get
  let n ← BackupM.draw
  let manifestId := Uuid.nowV7 n
  let kManifest := P.deriveBackupManifest keys.rootKey manifestId.asBytes
  BackupM.lift (buildBackupManifest P
    (manifestRequest keys segments c.backup.chainState.previousManifest manifestId) keys.signingKey kManifest n)

/-- `persist_incremental_backup_atomic`: the persist step (`db_writer` lock). -/
def persistIncrementalStep (P : Primitives) (keys : BackupKeys) (tracked : TrackedBackupSegment)
    (manifest : BackupManifest) (lastSeq : Nat) (nowPersistMs : Int) : BackupM Unit := do
  let row ← BackupM.lift (buildLedgerRow P tracked keys.rootKey nowPersistMs)
  let c ← BackupM.get
  let db ← BackupM.lift (c.db.appendSegmentAndManifest row (P.cborManifest.encode manifest)
    (wrapI64 manifest.generation) lastSeq nowPersistMs)
  BackupM.modify fun c => { c with db := db }

/-- The commit step (`chain_state` lock). -/
def commitIncrementalStep (manifest : BackupManifest) (tracked : TrackedBackupSegment) : BackupM Unit :=
  BackupM.modify fun c => { c with backup := c.backup.commitIncremental manifest tracked }

/-- Hand one segment bundle to the sink. -/
def uploadSegment (P : Primitives) (keys : BackupKeys) (sink : BackupSink) (tracked : TrackedBackupSegment) :
    Except Error Unit × BackupSink :=
  match SegmentBundle.fromBuilt P tracked.built tracked.kSegment keys.rootKey with
  | .error e => (.error e, sink)
  | .ok bundle => sink.uploadBackupSegment tracked.built.segmentId (SegmentBundle.encode P bundle)

/-- Hand the segment bundles to the sink, stopping at the first failure. -/
def uploadSegments (P : Primitives) (keys : BackupKeys) :
    BackupSink → List TrackedBackupSegment → Except Error Unit × BackupSink
  | sink, [] => (.ok (), sink)
  | sink, tracked :: rest =>
      match uploadSegment P keys sink tracked with
      | (.error e, sink') => (.error e, sink')
      | (.ok (), sink') => uploadSegments P keys sink' rest

/-- The segments, then the manifest. -/
def uploadBundles (P : Primitives) (keys : BackupKeys) (sink : BackupSink)
    (outputs : List TrackedBackupSegment) (sealed : SealedBackupManifest) : Except Error Unit × BackupSink :=
  match uploadSegments P keys sink outputs with
  | (.error e, sink') => (.error e, sink')
  | (.ok (), sink') =>
      sink'.uploadBackupManifest sealed.manifest.manifestId
        (ManifestBundle.encode P (ManifestBundle.fromSealed sealed keys.deviceId))

/-- The upload step: skipped without a sink, strict with one. -/
def uploadStep (P : Primitives) (keys : BackupKeys) (outputs : List TrackedBackupSegment)
    (sealed : SealedBackupManifest) : BackupM (Nat × Bool) := fun c =>
  match c.backupSink with
  | none => (.ok (0, false), c)
  | some sink =>
      match uploadBundles P keys sink outputs sealed with
      | (.ok (), sink') => (.ok (outputs.length, true), { c with backupSink := some sink' })
      | (.error e, sink') => (.error e, { c with backupSink := some sink' })

/-- `run_incremental_backup_inner`; `nowPersistMs` is the wall clock at the persist. -/
def runIncrementalBackupInner (P : Primitives) (nowPersistMs : Int) :
    BackupM (BackupResult × List SealedBackupEventRef) := do
  match ← readStep with
  | none => pure (BackupResult.default, [])
  | some batch => do
      let (keys, tracked) ← sealStep P batch
      let sealed ← manifestStep P keys [tracked.built]
      persistIncrementalStep P keys tracked sealed.manifest batch.lastSeq nowPersistMs
      commitIncrementalStep sealed.manifest tracked
      let (segmentsUploaded, manifestUploaded) ← uploadStep P keys [tracked] sealed
      pure ({
        segmentsBuilt := 1
        segmentsUploaded := segmentsUploaded
        eventsSegmented := batch.events.length
        manifestGeneration := some sealed.manifest.generation
        manifestUploaded := manifestUploaded
        deferred := false }, sealedEventRefs batch.events)

/-! ## What each step does -/

section Steps

variable {P : Primitives} {c c' : Core}

theorem readStep_eq (c : Core) : readStep c = (readBatch c.db, c) := rfl

/-- **The read step.** The batch is not empty, its cursor lies past the current one, and it is exactly the
typed events in between. -/
theorem readBatch_eq_some {db : BackupDb} {batch : ReadBatch} (h : readBatch db = .ok (some batch)) :
    batch.events ≠ [] ∧ db.readCursor < batch.lastSeq ∧ batch.lastSeq ≤ db.journal.lastSeq ∧
      db.journal.typedUpTo batch.lastSeq = db.drained ++ batch.events := by
  unfold readBatch at h
  cases hr : db.readUnsegmented maxEventsPerBackupSegment with
  | error e => simp [hr, Except.map] at h
  | ok out =>
      simp only [hr, Except.map, Except.ok.injEq] at h
      obtain ⟨last, hlast, rfl⟩ := Option.map_eq_some_iff.mp h
      obtain ⟨hlt, hup⟩ := readEventsSince_typedUpTo hr hlast
      refine ⟨?_, hlt, ?_, hup⟩
      · intro hnil
        rw [List.map_eq_nil_iff.mp hnil] at hlast
        exact absurd hlast (by simp)
      · obtain ⟨_, hout⟩ := collectRows_eq_ok.mp hr
        have hmem : last ∈ out := List.mem_of_getLast? hlast
        rw [hout, List.mem_filterMap] at hmem
        obtain ⟨r, hrw, hnum⟩ := hmem
        rw [show last.1 = r.eventSeq from JournalRow.numbered_fst hnum]
        exact db.journal.le_lastSeq (mem_window hrw).1

/-- **The seal step.** -/
theorem sealStep_eq_ok {batch : ReadBatch} {keys : BackupKeys} {tracked : TrackedBackupSegment}
    (h : sealStep P batch c = (.ok (keys, tracked), c')) :
    c.backup.backupKeys = some keys ∧ c' = { c with drawn := c.drawn + 1 } ∧
      tracked.built.segmentId = Uuid.nowV7 c.drawn ∧ WellSealed P keys.rootKey tracked ∧
      segmentEvents P tracked = batch.events ∧ tracked.tier = .daily := by
  unfold sealStep at h
  obtain ⟨c₀, c₁, hget, h⟩ := BackupM.bind_eq_ok.mp h
  obtain ⟨rfl, rfl⟩ := BackupM.get_eq_ok.mp hget
  obtain ⟨keys', c₂, hk, h⟩ := BackupM.bind_eq_ok.mp h
  obtain ⟨hkeys, rfl⟩ := BackupM.lift_eq_ok.mp hk
  obtain ⟨n, c₃, hdraw, h⟩ := BackupM.bind_eq_ok.mp h
  obtain ⟨rfl, rfl⟩ := BackupM.draw_eq_ok.mp hdraw
  obtain ⟨built, c₄, hb, h⟩ := BackupM.bind_eq_ok.mp h
  obtain ⟨hbuilt, rfl⟩ := BackupM.lift_eq_ok.mp hb
  obtain ⟨heq, rfl⟩ := BackupM.pure_eq.mp h
  rw [Prod.mk.injEq] at heq
  obtain ⟨rfl, rfl⟩ := heq
  obtain ⟨hsealed, hevents⟩ := wellSealed_of_build hbuilt .daily (minEventMs batch.events)
    (maxEventMs batch.events)
  exact ⟨okOr_eq_ok.mp hkeys, rfl, (buildSegmentWithId_fields hbuilt).1, hsealed, hevents, rfl⟩

/-- With keys and a batch in hand the seal step succeeds. -/
theorem sealStep_isOk {batch : ReadBatch} {keys : BackupKeys} (hkeys : c.backup.backupKeys = some keys)
    (hbatch : batch.events ≠ []) :
    ∃ tracked, sealStep P batch c = (.ok (keys, tracked), { c with drawn := c.drawn + 1 }) := by
  have hreq : (⟨batch.events, .events⟩ : BackupSegmentBuildRequest).events ≠ [] := hbatch
  obtain ⟨built, hbuilt⟩ : ∃ built, buildSegmentWithId P ⟨batch.events, .events⟩ (Uuid.nowV7 c.drawn)
      (P.deriveBackupSegment keys.rootKey (Uuid.nowV7 c.drawn).asBytes) (fillNonce c.drawn) = .ok built :=
    buildSegmentWithId_isOk hreq
  have hk : c.backup.requireKeys = .ok keys := okOr_eq_ok.mpr hkeys
  refine ⟨⟨built, .daily, minEventMs batch.events, maxEventMs batch.events,
    P.deriveBackupSegment keys.rootKey (Uuid.nowV7 c.drawn).asBytes⟩, ?_⟩
  refine BackupM.bind_eq_ok.mpr ⟨c, c, rfl, ?_⟩
  refine BackupM.bind_eq_ok.mpr ⟨keys, c, BackupM.lift_eq_ok.mpr ⟨hk, rfl⟩, ?_⟩
  refine BackupM.bind_eq_ok.mpr ⟨c.drawn, { c with drawn := c.drawn + 1 }, rfl, ?_⟩
  exact BackupM.bind_eq_ok.mpr ⟨built, _, BackupM.lift_eq_ok.mpr ⟨hbuilt, rfl⟩, rfl⟩

/-- What a successful manifest step leaves: **a manifest chained under the tail it read.** -/
structure ManifestBuilt (P : Primitives) (keys : BackupKeys) (segments : List BuiltBackupSegment)
    (previous : Option BackupManifest) (drawn : Nat) (sealed : SealedBackupManifest) : Prop where
  link : chainLink P previous = .ok (sealed.manifest.generation, sealed.manifest.previousManifestHash)
  id : sealed.manifest.manifestId = Uuid.nowV7 drawn
  segments_eq : sealed.manifest.segments = segments.map (segmentRef P)
  verifies : verifyBackupManifest P sealed.manifest (P.verifyingKey keys.signingKey) = .ok ()
  opens : P.aeadOpen (P.deriveBackupManifest keys.rootKey (Uuid.nowV7 drawn).asBytes) sealed.nonce
    sealed.ciphertext (buildManifestAad sealed.manifest.manifestId sealed.manifest.generation
      sealed.manifest.merkleRoot keys.deviceId) = some (P.cborManifest.encode sealed.manifest)

/-- **The manifest step.** -/
theorem manifestStep_eq_ok {keys : BackupKeys} {segments : List BuiltBackupSegment}
    {sealed : SealedBackupManifest} (h : manifestStep P keys segments c = (.ok sealed, c')) :
    c' = { c with drawn := c.drawn + 1 } ∧
      ManifestBuilt P keys segments c.backup.chainState.previousManifest c.drawn sealed := by
  unfold manifestStep at h
  obtain ⟨c₀, c₁, hget, h⟩ := BackupM.bind_eq_ok.mp h
  obtain ⟨rfl, rfl⟩ := BackupM.get_eq_ok.mp hget
  obtain ⟨n, c₂, hdraw, h⟩ := BackupM.bind_eq_ok.mp h
  obtain ⟨rfl, rfl⟩ := BackupM.draw_eq_ok.mp hdraw
  obtain ⟨hbuild, rfl⟩ := BackupM.lift_eq_ok.mp h
  obtain ⟨hlink, hid, hsegs⟩ := buildBackupManifest_fields hbuild
  exact ⟨rfl, hlink, hid, hsegs, verifyBackupManifest_of_build hbuild, aeadOpen_of_build hbuild⟩

/-- The manifest step fails only at the last generation. -/
theorem manifestStep_isOk (keys : BackupKeys) (segments : List BuiltBackupSegment)
    {link : Nat × ByteArr 32} (hlink : chainLink P c.backup.chainState.previousManifest = .ok link) :
    ∃ sealed, manifestStep P keys segments c = (.ok sealed, { c with drawn := c.drawn + 1 }) := by
  obtain ⟨sealed, hsealed⟩ : ∃ sealed, buildBackupManifest P
      (manifestRequest keys segments c.backup.chainState.previousManifest (Uuid.nowV7 c.drawn))
      keys.signingKey (P.deriveBackupManifest keys.rootKey (Uuid.nowV7 c.drawn).asBytes) c.drawn = .ok sealed :=
    buildBackupManifest_isOk hlink
  refine ⟨sealed, BackupM.bind_eq_ok.mpr ⟨c, c, rfl, ?_⟩⟩
  refine BackupM.bind_eq_ok.mpr ⟨c.drawn, { c with drawn := c.drawn + 1 }, rfl, ?_⟩
  exact BackupM.lift_eq_ok.mpr ⟨hsealed, rfl⟩

/-- **The persist step**: one row appended, the tail replaced, the cursor moved. -/
theorem persistIncrementalStep_eq_ok {keys : BackupKeys} {tracked : TrackedBackupSegment}
    {manifest : BackupManifest} {lastSeq : Nat} {nowMs : Int}
    (h : persistIncrementalStep P keys tracked manifest lastSeq nowMs c = (.ok (), c')) :
    ∃ row, buildLedgerRow P tracked keys.rootKey nowMs = .ok row ∧
      (∀ r ∈ c.db.ledger, r.segmentId ≠ row.segmentId) ∧ c.db.readCursor ≤ lastSeq ∧
      c' = { c with db := { c.db with
        cursorRow := some lastSeq
        ledger := c.db.ledger ++ [row]
        chain := some ⟨wrapI64 manifest.generation, P.cborManifest.encode manifest, nowMs⟩ } } := by
  unfold persistIncrementalStep at h
  obtain ⟨row, c₁, hr, h⟩ := BackupM.bind_eq_ok.mp h
  obtain ⟨hrow, rfl⟩ := BackupM.lift_eq_ok.mp hr
  obtain ⟨c₀, c₂, hget, h⟩ := BackupM.bind_eq_ok.mp h
  obtain ⟨rfl, rfl⟩ := BackupM.get_eq_ok.mp hget
  obtain ⟨db, c₃, hd, h⟩ := BackupM.bind_eq_ok.mp h
  obtain ⟨hdb, rfl⟩ := BackupM.lift_eq_ok.mp hd
  rw [BackupM.modify_eq_ok] at h
  unfold BackupDb.appendSegmentAndManifest at hdb
  split at hdb
  · exact absurd hdb (by simp)
  · rename_i hcur
    cases hins : BackupDb.insertLedgerRow c.db.ledger row with
    | error e => simp [hins, Except.map] at hdb
    | ok ledger =>
        obtain ⟨hno, rfl⟩ := BackupDb.insertLedgerRow_eq_ok.mp hins
        simp only [hins, Except.map, Except.ok.injEq] at hdb
        refine ⟨row, hrow, hno, not_lt.mp hcur, ?_⟩
        rw [← h, ← hdb]

/-- The persist step succeeds for a new id and a cursor that does not go back. -/
theorem persistIncrementalStep_isOk {keys : BackupKeys} {tracked : TrackedBackupSegment}
    (manifest : BackupManifest) {lastSeq : Nat} {nowMs : Int} {row : LedgerRow}
    (hrow : buildLedgerRow P tracked keys.rootKey nowMs = .ok row)
    (hnew : ∀ r ∈ c.db.ledger, r.segmentId ≠ row.segmentId) (hcursor : c.db.readCursor ≤ lastSeq) :
    persistIncrementalStep P keys tracked manifest lastSeq nowMs c = (.ok (), { c with db := { c.db with
      cursorRow := some lastSeq
      ledger := c.db.ledger ++ [row]
      chain := some ⟨wrapI64 manifest.generation, P.cborManifest.encode manifest, nowMs⟩ } }) := by
  have hins : BackupDb.insertLedgerRow c.db.ledger row = .ok (c.db.ledger ++ [row]) :=
    BackupDb.insertLedgerRow_eq_ok.mpr ⟨hnew, rfl⟩
  have happ : c.db.appendSegmentAndManifest row (P.cborManifest.encode manifest) (wrapI64 manifest.generation)
      lastSeq nowMs = .ok { c.db with
        cursorRow := some lastSeq
        ledger := c.db.ledger ++ [row]
        chain := some ⟨wrapI64 manifest.generation, P.cborManifest.encode manifest, nowMs⟩ } := by
    rw [BackupDb.appendSegmentAndManifest, if_neg (not_lt.mpr hcursor), hins]
    rfl
  refine BackupM.bind_eq_ok.mpr ⟨row, c, BackupM.lift_eq_ok.mpr ⟨hrow, rfl⟩, ?_⟩
  refine BackupM.bind_eq_ok.mpr ⟨c, c, rfl, ?_⟩
  exact BackupM.bind_eq_ok.mpr ⟨_, c, BackupM.lift_eq_ok.mpr ⟨happ, rfl⟩, rfl⟩

theorem persistIncrementalStep_error {keys : BackupKeys} {tracked : TrackedBackupSegment}
    {manifest : BackupManifest} {lastSeq : Nat} {nowMs : Int} {e : Error}
    (h : persistIncrementalStep P keys tracked manifest lastSeq nowMs c = (.error e, c')) : c = c' := by
  unfold persistIncrementalStep at h
  rcases BackupM.bind_cases h with ⟨e', he, _⟩ | ⟨row, c₁, hr, h⟩
  · exact (BackupM.lift_eq_error.mp he).2
  obtain ⟨_, rfl⟩ := BackupM.lift_eq_ok.mp hr
  rcases BackupM.bind_cases h with ⟨e', he, _⟩ | ⟨c₀, c₂, hget, h⟩
  · exact absurd (congrArg Prod.fst he) (by simp [BackupM.get])
  obtain ⟨rfl, rfl⟩ := BackupM.get_eq_ok.mp hget
  rcases BackupM.bind_cases h with ⟨e', he, _⟩ | ⟨db, c₃, hd, h⟩
  · exact (BackupM.lift_eq_error.mp he).2
  · exact absurd (congrArg Prod.fst h) (by simp [BackupM.modify])

end Steps

end KChatCore.Backup
