import KChatCore.Backup.CompactBackup

/-!
# `Backup.Calls` — what one whole backup call does

A call that runs by itself either leaves everything but the entropy as it was, or commits and then uploads.
`Committed` says what a commit is, for both pipelines at once: some of the tracked segments are kept, some
fresh well-sealed ones are added, and the new chain tail lists some of them.

`runIncrementalBackupInner_cases` and `compactBackup_cases` are the outcomes of a call.
-/

namespace KChatCore.Backup

open Lib

/-! ## Steps that only draw entropy -/

/-- Everything but the entropy is as it was. -/
structure Untouched (c c' : Core) : Prop where
  db : c'.db = c.db
  backup : c'.backup = c.backup
  backupSink : c'.backupSink = c.backupSink
  drawn : c.drawn ≤ c'.drawn

theorem Untouched.refl (c : Core) : Untouched c c := ⟨rfl, rfl, rfl, le_rfl⟩

theorem Untouched.trans {c c₁ c₂ : Core} (h : Untouched c c₁) (h' : Untouched c₁ c₂) : Untouched c c₂ :=
  ⟨h'.db.trans h.db, h'.backup.trans h.backup, h'.backupSink.trans h.backupSink, h.drawn.trans h'.drawn⟩

/-- The step leaves everything but the entropy as it was, whether it fails or not. -/
def BackupM.Quiet {α : Type} (x : BackupM α) : Prop := ∀ c r c', x c = (r, c') → Untouched c c'

namespace BackupM.Quiet

variable {α β : Type}

theorem pure (a : α) : Quiet (Pure.pure a : BackupM α) := by
  intro c r c' h
  have hc : c = c' := congrArg Prod.snd h
  subst hc
  exact Untouched.refl c

theorem get : Quiet BackupM.get := by
  intro c r c' h
  have hc : c = c' := congrArg Prod.snd h
  subst hc
  exact Untouched.refl c

theorem lift (x : Except Error α) : BackupM.Quiet (BackupM.lift x) := by
  intro c r c' h
  have hc : c = c' := congrArg Prod.snd h
  subst hc
  exact Untouched.refl c

theorem draw : Quiet BackupM.draw := by
  intro c r c' h
  have hc : { c with drawn := c.drawn + 1 } = c' := congrArg Prod.snd h
  subst hc
  exact ⟨rfl, rfl, rfl, Nat.le_succ _⟩

theorem bind {x : BackupM α} {f : α → BackupM β} (hx : Quiet x) (hf : ∀ a, Quiet (f a)) :
    Quiet (x >>= f) := by
  intro c r c' h
  rcases hxc : x c with ⟨rx, c₁⟩
  cases rx with
  | error e =>
      rw [BackupM.bind_of_error hxc] at h
      have hc : c₁ = c' := congrArg Prod.snd h
      subst hc
      exact hx c _ _ hxc
  | ok a =>
      rw [BackupM.bind_of_ok hxc] at h
      exact (hx c _ _ hxc).trans (hf a _ _ _ h)

end BackupM.Quiet

open BackupM (Quiet)

theorem sealStep_quiet (P : Primitives) (batch : ReadBatch) : Quiet (sealStep P batch) :=
  Quiet.get.bind fun _ => (Quiet.lift _).bind fun _ => Quiet.draw.bind fun _ =>
    (Quiet.lift _).bind fun _ => Quiet.pure _

theorem manifestStep_quiet (P : Primitives) (keys : BackupKeys) (segments : List BuiltBackupSegment) :
    Quiet (manifestStep P keys segments) :=
  Quiet.get.bind fun _ => Quiet.draw.bind fun _ => Quiet.lift _

theorem sealGroup_quiet (P : Primitives) (keys : BackupKeys) (tier : CompactionTier) (input : GroupInput) :
    Quiet (sealGroup P keys tier input) := by
  unfold sealGroup
  by_cases hemp : (applyTombstones input.events).isEmpty = true
  · simp only [hemp, if_true]
    exact Quiet.pure _
  · simp only [hemp, Bool.false_eq_true, if_false]
    exact Quiet.draw.bind fun _ => (Quiet.lift _).bind fun _ => Quiet.pure _

theorem resealGroups_quiet (P : Primitives) (keys : BackupKeys) (snapshot : List TrackedBackupSegment)
    (groups : List CompactionGroup) (tally : CompactionTally) :
    Quiet (resealGroups P keys snapshot tally groups) := by
  induction groups generalizing tally with
  | nil => exact Quiet.pure _
  | cons g groups ih =>
      exact (Quiet.lift _).bind fun _ => (sealGroup_quiet P keys _ _).bind fun _ => ih _

/-! ## Commits -/

/-- **A commit**, up to the upload: `kept` of the tracked segments, the fresh `outputs`, and a chain tail
built over `listed`. -/
structure Committed (P : Primitives) (c c' : Core) (keys : BackupKeys)
    (kept outputs listed : List TrackedBackupSegment) (sealed : SealedBackupManifest) : Prop where
  keys_eq : c.backup.backupKeys = some keys
  kept_sublist : kept.Sublist c.backup.chainState.trackedSegments
  outputs_sealed : ∀ t ∈ outputs, WellSealed P keys.rootKey t
  output_ids : ledgerIds outputs = (List.range' c.drawn outputs.length).map Uuid.nowV7
  manifest : ManifestBuilt P keys (listed.map TrackedBackupSegment.built)
    c.backup.chainState.previousManifest (c.drawn + outputs.length) sealed
  backupKeys : c'.backup.backupKeys = c.backup.backupKeys
  chainState : c'.backup.chainState = ⟨some sealed.manifest, kept ++ outputs⟩
  backupSink : c'.backupSink = c.backupSink
  drawn : c'.drawn = c.drawn + outputs.length + 1
  journal : c'.db.journal = c.db.journal

/-- **An incremental commit**: one daily segment holding what was read, listed alone. -/
structure IncrementalCommitted (P : Primitives) (nowPersistMs : Int) (c c' : Core) (keys : BackupKeys)
    (batch : ReadBatch) (tracked : TrackedBackupSegment) (sealed : SealedBackupManifest) : Prop where
  committed : Committed P c c' keys c.backup.chainState.trackedSegments [tracked] [tracked] sealed
  read : readBatch c.db = .ok (some batch)
  events : segmentEvents P tracked = batch.events
  tier : tracked.tier = .daily
  persisted : ∃ row, buildLedgerRow P tracked keys.rootKey nowPersistMs = .ok row ∧
    c'.db = { c.db with
      cursorRow := some batch.lastSeq
      ledger := c.db.ledger ++ [row]
      chain := some ⟨wrapI64 sealed.manifest.generation, P.cborManifest.encode sealed.manifest, nowPersistMs⟩ }

/-- **A compaction commit**: the plan's groups replaced by their re-sealed survivors, the whole new ledger
listed. -/
structure CompactionCommitted (P : Primitives) (nowMs nowPersistMs : Int) (c c' : Core) (keys : BackupKeys)
    (outputs : List TrackedBackupSegment) (sealed : SealedBackupManifest) : Prop where
  committed : Committed P c c' keys
    (keptSegments c.backup.chainState.trackedSegments (planFor c.backup.chainState.trackedSegments nowMs))
    outputs
    (keptSegments c.backup.chainState.trackedSegments (planFor c.backup.chainState.trackedSegments nowMs) ++
      outputs) sealed
  planned : (planFor c.backup.chainState.trackedSegments nowMs).groups ≠ []
  survivors : outputs.map (segmentEvents P) =
    survivorLists (groupEvents P c.backup.chainState.trackedSegments nowMs)
  persisted : ∃ rows, buildLedgerRows P keys.rootKey nowPersistMs
      (keptSegments c.backup.chainState.trackedSegments (planFor c.backup.chainState.trackedSegments nowMs) ++
        outputs) = .ok rows ∧
    c'.db = { c.db with
      ledger := rows
      chain := some ⟨wrapI64 sealed.manifest.generation, P.cborManifest.encode sealed.manifest, nowPersistMs⟩ }

/-- The outputs hold, in all, the resolved groups. -/
theorem CompactionCommitted.events {P : Primitives} {nowMs nowPersistMs : Int} {c c' : Core} {keys : BackupKeys}
    {outputs : List TrackedBackupSegment} {sealed : SealedBackupManifest}
    (h : CompactionCommitted P nowMs nowPersistMs c c' keys outputs sealed) : ledgerEvents P outputs =
      (groupEvents P c.backup.chainState.trackedSegments nowMs).flatMap backupTombstones.resolve :=
  ledgerEvents_of_survivorLists h.survivors

/-- The result an incremental call returns once it has committed. -/
def incrementalResult (batch : ReadBatch) (sealed : SealedBackupManifest) (uploaded : Nat × Bool) :
    BackupResult × List SealedBackupEventRef :=
  ({ segmentsBuilt := 1
     segmentsUploaded := uploaded.1
     eventsSegmented := batch.events.length
     manifestGeneration := some sealed.manifest.generation
     manifestUploaded := uploaded.2
     deferred := false }, sealedEventRefs batch.events)

/-- **The outcomes of an incremental call**: nothing happened, or it committed and then uploaded. -/
theorem runIncrementalBackupInner_cases {P : Primitives} {nowPersistMs : Int} {c c' : Core}
    {r : Except Error (BackupResult × List SealedBackupEventRef)}
    (h : runIncrementalBackupInner P nowPersistMs c = (r, c')) :
    (Untouched c c' ∧ ∀ x, r = .ok x → x = (BackupResult.default, []) ∧ c' = c ∧ readBatch c.db = .ok none) ∨
    ∃ keys batch tracked sealed c₂ ru,
      IncrementalCommitted P nowPersistMs c c₂ keys batch tracked sealed ∧
        uploadStep P keys [tracked] sealed c₂ = (ru, c') ∧ r = ru.map (incrementalResult batch sealed) := by
  unfold runIncrementalBackupInner at h
  rcases BackupM.bind_cases h with ⟨e, he, rfl⟩ | ⟨o, c₀, hread, h⟩
  · rw [readStep_eq, Prod.mk.injEq] at he
    obtain ⟨_, rfl⟩ := he
    exact Or.inl ⟨Untouched.refl _, fun x hx => absurd hx (by simp)⟩
  rw [readStep_eq, Prod.mk.injEq] at hread
  obtain ⟨hread, rfl⟩ := hread
  cases o with
  | none =>
      have hp : ((.ok (BackupResult.default, []), c) :
          Except Error (BackupResult × List SealedBackupEventRef) × Core) = (r, c') := h
      rw [Prod.mk.injEq] at hp
      obtain ⟨rfl, rfl⟩ := hp
      exact Or.inl ⟨Untouched.refl _, fun x hx => ⟨(Except.ok.inj hx).symm, rfl, hread⟩⟩
  | some batch =>
      -- up to here the call reads; from here it draws ids, and a failure leaves drawn ones behind
      rcases BackupM.bind_cases h with ⟨e, he, rfl⟩ | ⟨⟨keys, tracked⟩, c₁, hseal, h⟩
      · exact Or.inl ⟨sealStep_quiet P batch c _ _ he, fun x hx => absurd hx (by simp)⟩
      obtain ⟨hkeys, rfl, hid, hws, hev, htier⟩ := sealStep_eq_ok hseal
      rcases BackupM.bind_cases h with ⟨e, he, rfl⟩ | ⟨sealed, c₂, hman, h⟩
      · exact Or.inl ⟨(sealStep_quiet P batch c _ _ hseal).trans (manifestStep_quiet P keys _ _ _ _ he),
          fun x hx => absurd hx (by simp)⟩
      obtain ⟨rfl, hbuilt⟩ := manifestStep_eq_ok hman
      rcases BackupM.bind_cases h with ⟨e, he, rfl⟩ | ⟨_, c₃, hper, h⟩
      · have hq := persistIncrementalStep_error he
        subst hq
        exact Or.inl ⟨(sealStep_quiet P batch c _ _ hseal).trans (manifestStep_quiet P keys _ _ _ _ hman),
          fun x hx => absurd hx (by simp)⟩
      -- the row is in the database: the rest cannot fail before the upload
      obtain ⟨row, hrow, _, _, rfl⟩ := persistIncrementalStep_eq_ok hper
      rcases BackupM.bind_cases h with ⟨e, he, _⟩ | ⟨_, c₄, hcom, h⟩
      · exact absurd (congrArg Prod.fst he) (by simp [commitIncrementalStep, BackupM.modify])
      have hc₄ := BackupM.modify_eq_ok.mp hcom
      have hcommit : IncrementalCommitted P nowPersistMs c c₄ keys batch tracked sealed := by
        subst hc₄
        refine ⟨⟨hkeys, List.Sublist.refl _, ?_, ?_, hbuilt, rfl, rfl, rfl, rfl, rfl⟩, hread, hev, htier, row,
          hrow, rfl⟩
        · intro t ht
          rw [List.mem_singleton.mp ht]
          exact hws
        · rw [ledgerIds, List.map_singleton, hid]
          rfl
      rcases BackupM.bind_cases h with ⟨e, he, rfl⟩ | ⟨up, c₅, hup, h⟩
      · exact Or.inr ⟨keys, batch, tracked, sealed, c₄, .error e, hcommit, he, rfl⟩
      · have hp : ((.ok (incrementalResult batch sealed up), c₅) :
            Except Error (BackupResult × List SealedBackupEventRef) × Core) = (r, c') := h
        rw [Prod.mk.injEq] at hp
        obtain ⟨rfl, rfl⟩ := hp
        exact Or.inr ⟨keys, batch, tracked, sealed, c₄, .ok up, hcommit, hup, rfl⟩

theorem persistCompactionStep_eq_ok {P : Primitives} {keys : BackupKeys}
    {newLedger : List TrackedBackupSegment} {manifest : BackupManifest} {nowMs : Int} {c c' : Core}
    (h : persistCompactionStep P keys newLedger manifest nowMs c = (.ok (), c')) :
    ∃ rows, buildLedgerRows P keys.rootKey nowMs newLedger = .ok rows ∧
      (rows.map LedgerRow.segmentId).Nodup ∧
      c' = { c with db := { c.db with
        ledger := rows
        chain := some ⟨wrapI64 manifest.generation, P.cborManifest.encode manifest, nowMs⟩ } } := by
  unfold persistCompactionStep at h
  obtain ⟨rows, c₁, hr, h⟩ := BackupM.bind_eq_ok.mp h
  obtain ⟨hrows, rfl⟩ := BackupM.lift_eq_ok.mp hr
  obtain ⟨c₀, c₂, hget, h⟩ := BackupM.bind_eq_ok.mp h
  obtain ⟨rfl, rfl⟩ := BackupM.get_eq_ok.mp hget
  obtain ⟨db, c₃, hd, h⟩ := BackupM.bind_eq_ok.mp h
  obtain ⟨hdb, rfl⟩ := BackupM.lift_eq_ok.mp hd
  have hmod := BackupM.modify_eq_ok.mp h
  unfold BackupDb.replaceLedgerAndManifest at hdb
  cases hins : BackupDb.insertLedgerRows [] rows with
  | error e => simp [hins, Except.map] at hdb
  | ok ledger =>
      obtain ⟨hledger, hnodup⟩ := BackupDb.insertLedgerRows_eq_ok hins
      rw [List.nil_append] at hledger
      subst hledger
      simp only [hins, Except.map, Except.ok.injEq] at hdb
      refine ⟨ledger, hrows, hnodup (by simp), ?_⟩
      rw [← hmod, ← hdb]

theorem persistCompactionStep_error {P : Primitives} {keys : BackupKeys}
    {newLedger : List TrackedBackupSegment} {manifest : BackupManifest} {nowMs : Int} {c c' : Core} {e : Error}
    (h : persistCompactionStep P keys newLedger manifest nowMs c = (.error e, c')) : c = c' := by
  unfold persistCompactionStep at h
  rcases BackupM.bind_cases h with ⟨e', he, _⟩ | ⟨rows, c₁, hr, h⟩
  · exact (BackupM.lift_eq_error.mp he).2
  obtain ⟨_, rfl⟩ := BackupM.lift_eq_ok.mp hr
  rcases BackupM.bind_cases h with ⟨e', he, _⟩ | ⟨c₀, c₂, hget, h⟩
  · exact absurd (congrArg Prod.fst he) (by simp [BackupM.get])
  obtain ⟨rfl, rfl⟩ := BackupM.get_eq_ok.mp hget
  rcases BackupM.bind_cases h with ⟨e', he, _⟩ | ⟨db, c₃, hd, h⟩
  · exact (BackupM.lift_eq_error.mp he).2
  · exact absurd (congrArg Prod.fst h) (by simp [BackupM.modify])

/-- The result a compaction returns once it has committed. -/
def compactionResult (tally : CompactionTally) (sealed : SealedBackupManifest) (uploaded : Nat × Bool) :
    BackupCompactionResult where
  groupsCompacted := tally.groupsCompacted
  segmentsSuperseded := tally.segmentsSuperseded
  segmentsEmitted := tally.outputs.length
  bytesBefore := tally.bytesBefore
  bytesAfter := tally.bytesAfter
  manifestGeneration := some sealed.manifest.generation
  segmentsUploaded := uploaded.1
  manifestUploaded := uploaded.2

theorem snapshotStep_eq_ok {c c' : Core} {keys : BackupKeys} {snapshot : List TrackedBackupSegment}
    (h : snapshotStep c = (.ok (keys, snapshot), c')) :
    c.backup.backupKeys = some keys ∧ snapshot = c.backup.chainState.trackedSegments ∧ c' = c := by
  unfold snapshotStep at h
  obtain ⟨c₀, c₁, hget, h⟩ := BackupM.bind_eq_ok.mp h
  obtain ⟨rfl, rfl⟩ := BackupM.get_eq_ok.mp hget
  obtain ⟨keys', c₂, hk, h⟩ := BackupM.bind_eq_ok.mp h
  obtain ⟨hkeys, rfl⟩ := BackupM.lift_eq_ok.mp hk
  obtain ⟨heq, rfl⟩ := BackupM.pure_eq.mp h
  rw [Prod.mk.injEq] at heq
  obtain ⟨rfl, rfl⟩ := heq
  exact ⟨okOr_eq_ok.mp hkeys, rfl, rfl⟩

theorem snapshotStep_quiet : Quiet snapshotStep :=
  Quiet.get.bind fun _ => (Quiet.lift _).bind fun _ => Quiet.pure _

/-- **The outcomes of a compaction**: nothing happened, or it committed and then uploaded. -/
theorem compactBackup_cases {P : Primitives} {nowMs nowPersistMs : Int} {c c' : Core}
    {r : Except Error BackupCompactionResult} (h : compactBackup P nowMs nowPersistMs c = (r, c')) :
    (Untouched c c' ∧ ∀ x, r = .ok x → x = BackupCompactionResult.default ∧ c' = c ∧
      (planFor c.backup.chainState.trackedSegments nowMs).groups = []) ∨
    ∃ keys tally sealed c₂ ru,
      CompactionCommitted P nowMs nowPersistMs c c₂ keys tally.outputs sealed ∧
        uploadStep P keys tally.outputs sealed c₂ = (ru, c') ∧ r = ru.map (compactionResult tally sealed) := by
  unfold compactBackup at h
  rcases BackupM.bind_cases h with ⟨e, he, rfl⟩ | ⟨⟨keys, snapshot⟩, c₀, hsnap, h⟩
  · exact Or.inl ⟨snapshotStep_quiet c _ _ he, fun x hx => absurd hx (by simp)⟩
  obtain ⟨hkeys, rfl, rfl⟩ := snapshotStep_eq_ok hsnap
  by_cases hemp : (c₀.backup.chainState.trackedSegments.isEmpty ||
      (planFor c₀.backup.chainState.trackedSegments nowMs).groups.isEmpty) = true
  · simp only [hemp, if_true] at h
    have hp : ((.ok BackupCompactionResult.default, c₀) :
        Except Error BackupCompactionResult × Core) = (r, c') := h
    rw [Prod.mk.injEq] at hp
    obtain ⟨rfl, rfl⟩ := hp
    -- nothing to group
    refine Or.inl ⟨Untouched.refl _, fun x hx => ⟨(Except.ok.inj hx).symm, rfl, ?_⟩⟩
    rcases Bool.or_eq_true _ _ ▸ hemp with hnil | hnil
    · rw [List.isEmpty_iff.mp hnil]
      rfl
    · exact List.isEmpty_iff.mp hnil
  · simp only [hemp, Bool.false_eq_true, if_false] at h
    have hplanned : (planFor c₀.backup.chainState.trackedSegments nowMs).groups ≠ [] := by
      intro hnil
      simp [hnil] at hemp
    rcases BackupM.bind_cases h with ⟨e, he, rfl⟩ | ⟨tally, c₁, hre, h⟩
    · exact Or.inl ⟨resealGroups_quiet P keys _ _ _ _ _ _ he, fun x hx => absurd hx (by simp)⟩
    -- resealing draws ids; the chain and the ledger are still untouched
    have hq₁ := resealGroups_quiet P keys _ _ _ _ _ _ hre
    obtain ⟨outputs, houts, hev, hws, hids, rfl⟩ := resealGroups_eq_ok hre
    rw [show CompactionTally.start.outputs = [] from rfl, List.nil_append] at houts
    subst houts
    rcases BackupM.bind_cases h with ⟨e, he, rfl⟩ | ⟨sealed, c₂, hman, h⟩
    · exact Or.inl ⟨hq₁.trans (manifestStep_quiet P keys _ _ _ _ he), fun x hx => absurd hx (by simp)⟩
    obtain ⟨rfl, hbuilt⟩ := manifestStep_eq_ok hman
    rcases BackupM.bind_cases h with ⟨e, he, rfl⟩ | ⟨_, c₃, hper, h⟩
    · have hc := persistCompactionStep_error he
      subst hc
      exact Or.inl ⟨hq₁.trans (manifestStep_quiet P keys _ _ _ _ hman), fun x hx => absurd hx (by simp)⟩
    obtain ⟨rows, hrows, _, rfl⟩ := persistCompactionStep_eq_ok hper
    rcases BackupM.bind_cases h with ⟨e, he, _⟩ | ⟨_, c₄, hcom, h⟩
    · exact absurd (congrArg Prod.fst he) (by simp [commitCompactionStep, BackupM.modify])
    have hc₄ := BackupM.modify_eq_ok.mp hcom
    -- persisted and committed: whatever the upload returns, this stands
    have hcommit : CompactionCommitted P nowMs nowPersistMs c₀ c₄ keys tally.outputs sealed := by
      subst hc₄
      exact ⟨⟨hkeys, keptSegments_sublist _ _, hws, hids, hbuilt, rfl, rfl, rfl, rfl, rfl⟩, hplanned, hev,
        rows, hrows, rfl⟩
    rcases BackupM.bind_cases h with ⟨e, he, rfl⟩ | ⟨up, c₅, hup, h⟩
    · exact Or.inr ⟨keys, tally, sealed, c₄, .error e, hcommit, he, rfl⟩
    · have hp : ((.ok (compactionResult tally sealed up), c₅) :
          Except Error BackupCompactionResult × Core) = (r, c') := h
      rw [Prod.mk.injEq] at hp
      obtain ⟨rfl, rfl⟩ := hp
      exact Or.inr ⟨keys, tally, sealed, c₄, .ok up, hcommit, hup, rfl⟩

end KChatCore.Backup
