import KChatCore.Backup.Invariant

/-!
# `Backup.Progress` — between calls, a call with something to do does it

Under the invariant, nothing but the generation counter can stop a call before its commit: the segments open,
the ids are fresh, the rows can be written.

* `runIncrementalBackupInner_commits` — a run that reads a batch commits it.
* `compactBackup_commits` — a compaction with a plan commits it.
-/

namespace KChatCore.Backup

open Lib

/-! ## Generations -/

/-- The generation the next manifest gets. -/
def nextGeneration : Option BackupManifest → Nat
  | none => 0
  | some prev => prev.generation + 1

theorem chainLink_isOk_iff (P : Primitives) (previous : Option BackupManifest) :
    (∃ link, chainLink P previous = .ok link) ↔ nextGeneration previous ≤ u64Max := by
  cases previous with
  | none => simp [chainLink, nextGeneration]
  | some prev =>
      unfold chainLink nextGeneration
      by_cases h : prev.generation + 1 ≤ u64Max
      · simp [h]
      · simp [h]

theorem chainLink_generation {P : Primitives} {previous : Option BackupManifest} {link : Nat × ByteArr 32}
    (h : chainLink P previous = .ok link) : link.1 = nextGeneration previous := by
  cases previous with
  | none =>
      rw [chainLink, Except.ok.injEq] at h
      rw [← h]
      rfl
  | some prev =>
      rw [chainLink] at h
      by_cases hle : prev.generation + 1 ≤ u64Max
      · rw [if_pos hle, Except.ok.injEq] at h
        rw [← h]
        rfl
      · rw [if_neg hle] at h
        exact absurd h (by simp)

/-! ## An incremental with a batch -/

section OneRun

variable {P : Primitives} {keys : BackupKeys} {nowMs : Int} {c c' : Core} {batch : ReadBatch}

/-- A fresh id is in no ledger row. -/
theorem CoreInv.row_ids_fresh (h : CoreInv P keys c) {row : LedgerRow} (hrow : row ∈ c.db.ledger) {n : Nat}
    (hn : c.drawn ≤ n) : row.segmentId ≠ (Uuid.nowV7 n).toText := by
  intro heq
  have hmem : row.segmentId ∈ c.db.ledger.map LedgerRow.segmentId := List.mem_map_of_mem hrow
  rw [rows_segmentId h.hydrates.rows, List.mem_map] at hmem
  obtain ⟨id, hid, hidrow⟩ := hmem
  obtain ⟨t, ht, rfl⟩ := List.mem_map.mp hid
  obtain ⟨m, hm, hmid⟩ := h.ids_drawn t ht
  rw [heq, Uuid.toText_inj, hmid, Uuid.nowV7_inj] at hidrow
  omega

/-- **Between calls, a run that reads a batch commits it**, as long as there is a generation left. -/
theorem runIncrementalBackupInner_commits (h : CoreInv P keys c) (hbatch : readBatch c.db = .ok (some batch))
    (hroom : nextGeneration c.backup.chainState.previousManifest ≤ u64Max)
    {r : Except Error (BackupResult × List SealedBackupEventRef)}
    (hrun : runIncrementalBackupInner P nowMs c = (r, c')) :
    ∃ tracked sealed c₂ ru, IncrementalCommitted P nowMs c c₂ keys batch tracked sealed ∧
      uploadStep P keys [tracked] sealed c₂ = (ru, c') ∧ r = ru.map (incrementalResult batch sealed) := by
  obtain ⟨hne, hlt, _, _⟩ := readBatch_eq_some hbatch
  have hread : readStep c = (.ok (some batch), c) := by rw [readStep_eq, hbatch]
  obtain ⟨tracked, hseal⟩ := sealStep_isOk (P := P) h.keys_eq hne
  obtain ⟨_, _, hid, hws, _, _⟩ := sealStep_eq_ok hseal
  obtain ⟨link, hlink⟩ := (chainLink_isOk_iff P _).mpr hroom
  obtain ⟨sealed, hman⟩ := manifestStep_isOk (P := P) keys [tracked.built] (c := { c with drawn := c.drawn + 1 }) hlink
  obtain ⟨row, hrow⟩ := buildLedgerRow_isOk P hws.segmentType keys.rootKey nowMs
  have hper := persistIncrementalStep_isOk (c := { c with drawn := c.drawn + 1 + 1 })
    sealed.manifest hrow (fun r' hr' => by
      rw [buildLedgerRow_segmentId hrow, hid]
      exact h.row_ids_fresh hr' le_rfl) hlt.le
  -- the run is what is left after the persist: commit, then upload
  have hcursor : c'.db.readCursor = batch.lastSeq := by
    unfold runIncrementalBackupInner at hrun
    have hrun₁ := (BackupM.bind_of_ok hread).symm.trans hrun
    have hrun₂ := (BackupM.bind_of_ok hseal).symm.trans hrun₁
    have hrun₃ := (BackupM.bind_of_ok hman).symm.trans hrun₂
    have hrun₄ := (BackupM.bind_of_ok hper).symm.trans hrun₃
    rcases BackupM.bind_cases hrun₄ with ⟨e, he, _⟩ | ⟨_, c₄, hcom, hrun₅⟩
    · exact absurd (congrArg Prod.fst he) (by simp [commitIncrementalStep, BackupM.modify])
    have hdb₄ : c₄.db.readCursor = batch.lastSeq := by
      rw [← BackupM.modify_eq_ok.mp hcom]
      rfl
    rcases BackupM.bind_cases hrun₅ with ⟨e, he, _⟩ | ⟨up, c₅, hup, hrun₆⟩
    · rw [(uploadStep_frame he).1, hdb₄]
    · have hc₅ : c₅ = c' := congrArg Prod.snd hrun₆
      rw [← hc₅, (uploadStep_frame hup).1, hdb₄]
  rcases runIncrementalBackupInner_cases hrun with ⟨hu, _⟩ | ⟨keys', batch', t, s, c₂, ru, hi, hup, hr⟩
  · -- nothing happened: but the cursor has moved
    rw [hu.db] at hcursor
    omega
  · have hkeys : keys' = keys := Option.some.inj (hi.committed.keys_eq.symm.trans h.keys_eq)
    have hb : batch' = batch := by
      have := hi.read.symm.trans hbatch
      simpa using this
    subst hkeys hb
    exact ⟨t, s, c₂, ru, hi, hup, hr⟩

end OneRun

/-! ## A compaction with a plan -/

section Compaction

variable {P : Primitives} {keys : BackupKeys} {snapshot : List TrackedBackupSegment}

/-- Members of a well-sealed ledger can be gathered. -/
theorem gatherGroup_isOk (hids : (ledgerIds snapshot).Nodup)
    (hsealed : ∀ t ∈ snapshot, WellSealed P keys.rootKey t) {members : List BackupSegmentRef}
    (hmem : ∀ m ∈ members, m ∈ snapshot.map backupSegmentRef) (acc : GroupInput) :
    ∃ input, gatherGroup P snapshot acc members = .ok input := by
  induction members generalizing acc with
  | nil => exact ⟨acc, rfl⟩
  | cons m members ih =>
      obtain ⟨t, ht, rfl⟩ := List.mem_map.mp (hmem m (by simp))
      have hm : ∃ acc', gatherMember P snapshot acc (backupSegmentRef t) = .ok acc' := by
        unfold gatherMember
        rw [findMember_backupSegmentRef hids ht]
        simp only [(hsealed t ht).opens]
        exact ⟨_, rfl⟩
      obtain ⟨acc', hacc'⟩ := hm
      obtain ⟨input, hinput⟩ := ih (fun m' hm' => hmem m' (by simp [hm'])) acc'
      exact ⟨input, by rw [gatherGroup, hacc']; exact hinput⟩

theorem sealGroup_isOk (tier : CompactionTier) (input : GroupInput) (c : Core) :
    ∃ output c', sealGroup P keys tier input c = (.ok output, c') := by
  unfold sealGroup
  by_cases hemp : (applyTombstones input.events).isEmpty = true
  · rw [if_pos hemp]
    exact ⟨none, c, rfl⟩
  · rw [if_neg hemp]
    have hne : (⟨applyTombstones input.events, .events⟩ : BackupSegmentBuildRequest).events ≠ [] := by
      intro hnil
      exact hemp (by rw [show applyTombstones input.events = [] from hnil]; rfl)
    obtain ⟨built, hbuilt⟩ : ∃ built, buildSegmentWithId P ⟨applyTombstones input.events, .events⟩
        (Uuid.nowV7 c.drawn) (P.deriveBackupSegment keys.rootKey (Uuid.nowV7 c.drawn).asBytes)
        (fillNonce c.drawn) = .ok built := buildSegmentWithId_isOk hne
    refine ⟨some ⟨built, tier, input.minMs, input.maxMs,
      P.deriveBackupSegment keys.rootKey (Uuid.nowV7 c.drawn).asBytes⟩, { c with drawn := c.drawn + 1 }, ?_⟩
    refine BackupM.bind_eq_ok.mpr ⟨c.drawn, { c with drawn := c.drawn + 1 }, rfl, ?_⟩
    exact BackupM.bind_eq_ok.mpr ⟨built, _, BackupM.lift_eq_ok.mpr ⟨hbuilt, rfl⟩, rfl⟩

/-- The group loop goes through. -/
theorem resealGroups_isOk {groups : List CompactionGroup}
    (hgather : ∀ g ∈ groups, ∃ input, gatherGroup P snapshot GroupInput.start g.members = .ok input)
    (tally : CompactionTally) (c : Core) :
    ∃ tally' c', resealGroups P keys snapshot tally groups c = (.ok tally', c') := by
  induction groups generalizing tally c with
  | nil => exact ⟨tally, c, rfl⟩
  | cons g groups ih =>
      obtain ⟨input, hinput⟩ := hgather g (by simp)
      obtain ⟨output, c₁, houtput⟩ : ∃ output c₁, sealGroup P keys g.targetTier input c = (.ok output, c₁) :=
        sealGroup_isOk g.targetTier input c
      obtain ⟨tally', c', hrest⟩ := ih (fun g' hg' => hgather g' (by simp [hg'])) {
        groupsCompacted := tally.groupsCompacted + 1
        segmentsSuperseded := tally.segmentsSuperseded + g.members.length
        bytesBefore := tally.bytesBefore + input.bytes
        bytesAfter := tally.bytesAfter + (output.map fun t => t.built.ciphertext.length).getD 0
        outputs := tally.outputs ++ output.toList } c₁
      refine ⟨tally', c', BackupM.bind_eq_ok.mpr ⟨input, c, BackupM.lift_eq_ok.mpr ⟨hinput, rfl⟩, ?_⟩⟩
      exact BackupM.bind_eq_ok.mpr ⟨output, c₁, houtput, hrest⟩

theorem persistCompactionStep_isOk (manifest : BackupManifest) {newLedger : List TrackedBackupSegment}
    {nowMs : Int} {rows : List LedgerRow} (c : Core)
    (hrows : buildLedgerRows P keys.rootKey nowMs newLedger = .ok rows)
    (hids : (rows.map LedgerRow.segmentId).Nodup) :
    persistCompactionStep P keys newLedger manifest nowMs c = (.ok (), { c with db := { c.db with
      ledger := rows
      chain := some ⟨wrapI64 manifest.generation, P.cborManifest.encode manifest, nowMs⟩ } }) := by
  have hrep : c.db.replaceLedgerAndManifest rows (P.cborManifest.encode manifest) (wrapI64 manifest.generation)
      nowMs = .ok { c.db with
        ledger := rows
        chain := some ⟨wrapI64 manifest.generation, P.cborManifest.encode manifest, nowMs⟩ } := by
    rw [BackupDb.replaceLedgerAndManifest, BackupDb.insertLedgerRows_isOk (by simpa using hids)]
    rfl
  refine BackupM.bind_eq_ok.mpr ⟨rows, c, BackupM.lift_eq_ok.mpr ⟨hrows, rfl⟩, ?_⟩
  refine BackupM.bind_eq_ok.mpr ⟨c, c, rfl, ?_⟩
  exact BackupM.bind_eq_ok.mpr ⟨_, c, BackupM.lift_eq_ok.mpr ⟨hrep, rfl⟩, rfl⟩

/-- **Between calls, a compaction with a plan commits it**, as long as there is a generation left. -/
theorem compactBackup_commits {nowMs nowPersistMs : Int} {c c' : Core} (h : CoreInv P keys c)
    (hplan : (planFor c.backup.chainState.trackedSegments nowMs).groups ≠ [])
    (hroom : nextGeneration c.backup.chainState.previousManifest ≤ u64Max)
    {r : Except Error BackupCompactionResult} (hrun : compactBackup P nowMs nowPersistMs c = (r, c')) :
    ∃ tally sealed c₂ ru, CompactionCommitted P nowMs nowPersistMs c c₂ keys tally.outputs sealed ∧
      uploadStep P keys tally.outputs sealed c₂ = (ru, c') ∧ r = ru.map (compactionResult tally sealed) := by
  have hsnap : snapshotStep c = (.ok (keys, c.backup.chainState.trackedSegments), c) := by
    have hk : c.backup.requireKeys = .ok keys := okOr_eq_ok.mpr h.keys_eq
    refine BackupM.bind_eq_ok.mpr ⟨c, c, rfl, ?_⟩
    exact BackupM.bind_eq_ok.mpr ⟨keys, c, BackupM.lift_eq_ok.mpr ⟨hk, rfl⟩, rfl⟩
  have hgather : ∀ g ∈ (planFor c.backup.chainState.trackedSegments nowMs).groups, ∃ input,
      gatherGroup P c.backup.chainState.trackedSegments GroupInput.start g.members = .ok input :=
    fun g hg => gatherGroup_isOk h.ids_nodup h.sealed (fun m hm => mem_of_mem_plan hg hm) _
  obtain ⟨tally, c₁, hre⟩ : ∃ tally c₁, resealGroups P keys c.backup.chainState.trackedSegments
      CompactionTally.start (planFor c.backup.chainState.trackedSegments nowMs).groups c = (.ok tally, c₁) :=
    resealGroups_isOk hgather CompactionTally.start c
  obtain ⟨outputs, houts, _, hws, hids, hc₁⟩ := resealGroups_eq_ok hre
  rw [show CompactionTally.start.outputs = [] from rfl, List.nil_append] at houts
  obtain ⟨link, hlink⟩ := (chainLink_isOk_iff P _).mpr hroom
  obtain ⟨sealed, hman⟩ := manifestStep_isOk (P := P) keys
    ((keptSegments c.backup.chainState.trackedSegments (planFor c.backup.chainState.trackedSegments nowMs) ++
      tally.outputs).map TrackedBackupSegment.built) (c := c₁) (by rw [hc₁]; exact hlink)
  have hbuilt := (manifestStep_eq_ok hman).2
  -- the new ledger: kept segments of a well-sealed ledger, and freshly sealed outputs
  have hevents : ∀ t ∈ keptSegments c.backup.chainState.trackedSegments
      (planFor c.backup.chainState.trackedSegments nowMs) ++ tally.outputs, t.built.segmentType = .events := by
    intro t ht
    rcases List.mem_append.mp ht with hk | ho
    · exact (h.sealed t ((keptSegments_sublist _ _).subset hk)).segmentType
    · exact (hws t (houts ▸ ho)).segmentType
  obtain ⟨rows, hrows⟩ := buildLedgerRows_isOk P keys.rootKey nowPersistMs hevents
  have hnodup : (ledgerIds (keptSegments c.backup.chainState.trackedSegments
      (planFor c.backup.chainState.trackedSegments nowMs) ++ tally.outputs)).Nodup := by
    rw [houts, ledgerIds, List.map_append, List.nodup_append]
    refine ⟨h.ids_nodup.sublist ((keptSegments_sublist _ _).map _), ?_, ?_⟩
    · show (ledgerIds outputs).Nodup
      rw [hids]
      exact List.Nodup.map Uuid.nowV7_injective List.nodup_range'
    · intro a ha b hb hab
      obtain ⟨t, ht, rfl⟩ := List.mem_map.mp ha
      obtain ⟨n, hn, hnid⟩ := h.ids_drawn t ((keptSegments_sublist _ _).subset ht)
      have hb' : b ∈ ledgerIds outputs := hb
      rw [hids, List.mem_map] at hb'
      obtain ⟨n', hn', rfl⟩ := hb'
      rw [List.mem_range'_1] at hn'
      rw [hnid, Uuid.nowV7_inj] at hab
      omega
  have hrowIds : (rows.map LedgerRow.segmentId).Nodup := by
    rw [rows_segmentId (buildLedgerRows_eq_ok hrows)]
    exact hnodup.map fun a b hab => Uuid.toText_inj.mp hab
  have hper := persistCompactionStep_isOk sealed.manifest { c₁ with drawn := c₁.drawn + 1 } hrows hrowIds
  have hempty : (c.backup.chainState.trackedSegments.isEmpty ||
      (planFor c.backup.chainState.trackedSegments nowMs).groups.isEmpty) = false := by
    rw [Bool.or_eq_false_iff]
    refine ⟨?_, by simpa using hplan⟩
    rw [List.isEmpty_eq_false_iff]
    intro hnil
    exact hplan (by rw [hnil]; rfl)
  -- the compaction is what is left after the persist: commit, then upload
  have htail : c'.backup.chainState.previousManifest = some sealed.manifest := by
    unfold compactBackup at hrun
    have hrun₁ := (BackupM.bind_of_ok hsnap).symm.trans hrun
    simp only [hempty, Bool.false_eq_true, if_false] at hrun₁
    have hrun₂ := (BackupM.bind_of_ok hre).symm.trans hrun₁
    have hrun₃ := (BackupM.bind_of_ok hman).symm.trans hrun₂
    have hrun₄ := (BackupM.bind_of_ok hper).symm.trans hrun₃
    rcases BackupM.bind_cases hrun₄ with ⟨e, he, _⟩ | ⟨_, c₄, hcom, hrun₅⟩
    · exact absurd (congrArg Prod.fst he) (by simp [commitCompactionStep, BackupM.modify])
    have htail₄ : c₄.backup.chainState.previousManifest = some sealed.manifest := by
      rw [← BackupM.modify_eq_ok.mp hcom]
      rfl
    rcases BackupM.bind_cases hrun₅ with ⟨e, he, _⟩ | ⟨up, c₅, hup, hrun₆⟩
    · rw [(uploadStep_frame he).2.1, htail₄]
    · have hc₅ : c₅ = c' := congrArg Prod.snd hrun₆
      rw [← hc₅, (uploadStep_frame hup).2.1, htail₄]
  rcases compactBackup_cases hrun with ⟨hu, _⟩ | ⟨keys', tally', sealed', c₂, ru, hi, hup, hr⟩
  · -- nothing happened: but the tail has a new generation
    have hgen := chainLink_generation hbuilt.link
    have hprev : c.backup.chainState.previousManifest = some sealed.manifest := by
      rw [← htail, hu.backup]
    rw [hc₁, hprev] at hgen
    simp [nextGeneration] at hgen
  · have hkeys : keys' = keys := Option.some.inj (hi.committed.keys_eq.symm.trans h.keys_eq)
    subst hkeys
    exact ⟨tally', sealed', c₂, ru, hi, hup, hr⟩

end Compaction

end KChatCore.Backup
