import KChatCore.Backup.Incremental

/-!
# `Backup.CompactBackup` — one pass of backup compaction

`compactBackup` snapshots the in-memory ledger, plans, and for every group decrypts the members, applies the
tombstones *of that group* and re-seals the survivors as one segment of the next tier. The new ledger is the
segments no group took, then the outputs; the manifest is cut over all of it, and the database ledger is
replaced.

* `snapshot_perm_partition` — a plan splits the snapshot into what it leaves alone and what its groups take.
* `resealGroups_eq_ok` — the outputs hold, group by group, what the group's tombstones leave of it.
* `ledgerEvents_newLedger` — so the new ledger is the compaction of the old one, in the sense of the library.
-/

namespace KChatCore.Backup

open Lib

/-- `BackupCompactionResult`. -/
structure BackupCompactionResult where
  groupsCompacted : Nat
  segmentsSuperseded : Nat
  segmentsEmitted : Nat
  bytesBefore : Nat
  bytesAfter : Nat
  manifestGeneration : Option Nat
  segmentsUploaded : Nat
  manifestUploaded : Bool
deriving DecidableEq, Repr

/-- `BackupCompactionResult::default`. -/
def BackupCompactionResult.default : BackupCompactionResult := ⟨0, 0, 0, 0, 0, none, 0, false⟩

/-! ## The steps -/

/-- The planner's view of a tracked segment. -/
def backupSegmentRef (t : TrackedBackupSegment) : BackupSegmentRef where
  segmentId := t.built.segmentId
  tier := t.tier
  minEventMs := t.minEventMs
  maxEventMs := t.maxEventMs
  eventCount := t.built.eventCount

/-- The plan for a snapshot, under the default policy. -/
def planFor (snapshot : List TrackedBackupSegment) (nowMs : Int) : CompactionPlan :=
  CompactionPolicy.default.plan (snapshot.map backupSegmentRef) nowMs

/-- The snapshot's segment with the member's id. -/
def findMember (snapshot : List TrackedBackupSegment) (member : BackupSegmentRef) :
    Option TrackedBackupSegment := snapshot.find? fun s => s.built.segmentId = member.segmentId

/-- What the member loop accumulates over one group. -/
structure GroupInput where
  bytes : Nat
  minMs : Int
  maxMs : Int
  events : List BackupEvent

/-- `(0, i64::MAX, i64::MIN, Vec::new())`. -/
def GroupInput.start : GroupInput := ⟨0, 2 ^ 63 - 1, -(2 ^ 63), []⟩

/-- One turn of the member loop: look the segment up, open it, append its events. -/
def gatherMember (P : Primitives) (snapshot : List TrackedBackupSegment) (acc : GroupInput)
    (member : BackupSegmentRef) : Except Error GroupInput :=
  match findMember snapshot member with
  | none =>
      .error (.storageMsg ("compact_backup: superseded segment " ++ member.segmentId.hyphenated ++
        " missing from ledger"))
  | some tracked =>
      match decryptBackupSegment P tracked.built tracked.kSegment with
      | .error e => .error e
      | .ok payload => .ok {
          bytes := acc.bytes + tracked.built.ciphertext.length
          minMs := min acc.minMs tracked.minEventMs
          maxMs := max acc.maxMs tracked.maxEventMs
          events := acc.events ++ payload.events }

/-- The member loop. -/
def gatherGroup (P : Primitives) (snapshot : List TrackedBackupSegment) :
    GroupInput → List BackupSegmentRef → Except Error GroupInput
  | acc, [] => .ok acc
  | acc, member :: members =>
      match gatherMember P snapshot acc member with
      | .error e => .error e
      | .ok acc' => gatherGroup P snapshot acc' members

/-- Re-seal the survivors of a group, unless tombstones erased all of it. -/
def sealGroup (P : Primitives) (keys : BackupKeys) (targetTier : CompactionTier) (input : GroupInput) :
    BackupM (Option TrackedBackupSegment) :=
  let survivors := applyTombstones input.events
  if survivors.isEmpty then pure none
  else do
    let n ← BackupM.draw
    let newSegmentId := Uuid.nowV7 n
    let kNew := P.deriveBackupSegment keys.rootKey newSegmentId.asBytes
    let built ← BackupM.lift (buildSegmentWithId P ⟨survivors, .events⟩ newSegmentId kNew (fillNonce n))
    pure (some ⟨built, targetTier, input.minMs, input.maxMs, kNew⟩)

/-- The counters and outputs of the group loop. -/
structure CompactionTally where
  groupsCompacted : Nat
  segmentsSuperseded : Nat
  bytesBefore : Nat
  bytesAfter : Nat
  outputs : List TrackedBackupSegment

/-- All counters zero, no outputs. -/
def CompactionTally.start : CompactionTally := ⟨0, 0, 0, 0, []⟩

/-- The group loop. -/
def resealGroups (P : Primitives) (keys : BackupKeys) (snapshot : List TrackedBackupSegment) :
    CompactionTally → List CompactionGroup → BackupM CompactionTally
  | tally, [] => pure tally
  | tally, group :: groups => do
      let input ← BackupM.lift (gatherGroup P snapshot GroupInput.start group.members)
      let output ← sealGroup P keys group.targetTier input
      resealGroups P keys snapshot {
        groupsCompacted := tally.groupsCompacted + 1
        segmentsSuperseded := tally.segmentsSuperseded + group.members.length
        bytesBefore := tally.bytesBefore + input.bytes
        bytesAfter := tally.bytesAfter + (output.map fun t => t.built.ciphertext.length).getD 0
        outputs := tally.outputs ++ output.toList } groups

/-- The snapshot's segments that no group of the plan takes. -/
def keptSegments (snapshot : List TrackedBackupSegment) (plan : CompactionPlan) : List TrackedBackupSegment :=
  snapshot.filter fun s => !plan.supersededSegmentIds.contains s.built.segmentId

/-- Build the rows of a whole ledger. -/
def buildLedgerRows (P : Primitives) (backupRoot : KeyMaterial) (nowMs : Int) :
    List TrackedBackupSegment → Except Error (List LedgerRow)
  | [] => .ok []
  | seg :: segs =>
      match buildLedgerRow P seg backupRoot nowMs with
      | .error e => .error e
      | .ok row => (buildLedgerRows P backupRoot nowMs segs).map (row :: ·)

/-- `persist_compaction_backup_atomic`: the persist step (`db_writer` lock). -/
def persistCompactionStep (P : Primitives) (keys : BackupKeys) (newLedger : List TrackedBackupSegment)
    (manifest : BackupManifest) (nowPersistMs : Int) : BackupM Unit := do
  let rows ← BackupM.lift (buildLedgerRows P keys.rootKey nowPersistMs newLedger)
  let c ← BackupM.get
  let db ← BackupM.lift (c.db.replaceLedgerAndManifest rows (P.cborManifest.encode manifest)
    (wrapI64 manifest.generation) nowPersistMs)
  BackupM.modify fun c => { c with db := db }

/-- The commit step (`chain_state` lock). -/
def commitCompactionStep (manifest : BackupManifest) (newLedger : List TrackedBackupSegment) : BackupM Unit :=
  BackupM.modify fun c => { c with backup := c.backup.commitCompaction manifest newLedger }

/-- The snapshot step (`backup_keys`, then `chain_state` lock). -/
def snapshotStep : BackupM (BackupKeys × List TrackedBackupSegment) := do
  let c ← BackupM.get
  let keys ← BackupM.lift c.backup.requireKeys
  pure (keys, c.backup.chainState.trackedSegments)

/-- `compact_backup`; `nowPersistMs` is the wall clock at the persist. -/
def compactBackup (P : Primitives) (nowMs nowPersistMs : Int) : BackupM BackupCompactionResult := do
  let (keys, snapshot) ← snapshotStep
  let plan := planFor snapshot nowMs
  if snapshot.isEmpty || plan.groups.isEmpty then pure BackupCompactionResult.default
  else do
    let tally ← resealGroups P keys snapshot CompactionTally.start plan.groups
    let newLedger := keptSegments snapshot plan ++ tally.outputs
    let sealed ← manifestStep P keys (newLedger.map TrackedBackupSegment.built)
    persistCompactionStep P keys newLedger sealed.manifest nowPersistMs
    commitCompactionStep sealed.manifest newLedger
    let (segmentsUploaded, manifestUploaded) ← uploadStep P keys tally.outputs sealed
    pure {
      groupsCompacted := tally.groupsCompacted
      segmentsSuperseded := tally.segmentsSuperseded
      segmentsEmitted := tally.outputs.length
      bytesBefore := tally.bytesBefore
      bytesAfter := tally.bytesAfter
      manifestGeneration := some sealed.manifest.generation
      segmentsUploaded := segmentsUploaded
      manifestUploaded := manifestUploaded }

/-! ## What a plan takes -/

/-- The snapshot's segments a group takes, in the group's order. -/
def groupSegments (snapshot : List TrackedBackupSegment) (g : CompactionGroup) : List TrackedBackupSegment :=
  g.members.filterMap (findMember snapshot)

/-- The ids of a ledger. -/
def ledgerIds (ledger : List TrackedBackupSegment) : List Uuid := ledger.map fun t => t.built.segmentId

theorem findMember_backupSegmentRef {snapshot : List TrackedBackupSegment} (hids : (ledgerIds snapshot).Nodup)
    {t : TrackedBackupSegment} (ht : t ∈ snapshot) : findMember snapshot (backupSegmentRef t) = some t := by
  unfold findMember
  rw [List.find?_eq_some_iff_append]
  obtain ⟨l, r, rfl⟩ := List.append_of_mem ht
  refine ⟨by simp [backupSegmentRef], l, r, rfl, fun s hs => ?_⟩
  have hne : s.built.segmentId ≠ t.built.segmentId := by
    intro heq
    rw [ledgerIds, List.map_append, List.nodup_append] at hids
    exact hids.2.2 _ (List.mem_map_of_mem hs) t.built.segmentId (by simp) heq
  simp [backupSegmentRef, hne]

/-- **A plan splits the snapshot**: every segment is left alone or is taken by exactly one group. -/
theorem snapshot_perm_partition {snapshot : List TrackedBackupSegment} (hids : (ledgerIds snapshot).Nodup)
    (nowMs : Int) :
    snapshot.Perm (keptSegments snapshot (planFor snapshot nowMs) ++
      (planFor snapshot nowMs).groups.flatMap (groupSegments snapshot)) := by
  have hrefs : ((snapshot.map backupSegmentRef).map BackupSegmentRef.segmentId).Nodup := by
    rw [List.map_map]
    exact hids
  have honce : (planFor snapshot nowMs).supersededSegmentIds.Nodup := plan_supersedes_once hrefs
  -- the members, looked up in the snapshot, are the snapshot's segments with a superseded id
  have hmem : ∀ t, t ∈ (planFor snapshot nowMs).groups.flatMap (groupSegments snapshot) ↔
      t ∈ snapshot ∧ t.built.segmentId ∈ (planFor snapshot nowMs).supersededSegmentIds := by
    intro t
    constructor
    · intro h
      obtain ⟨g, hg, ht⟩ := List.mem_flatMap.mp h
      obtain ⟨m, hm, hfind⟩ := List.mem_filterMap.mp ht
      have hid : t.built.segmentId = m.segmentId := by
        have := List.find?_some hfind
        simpa using this
      refine ⟨List.mem_of_find?_eq_some hfind, ?_⟩
      exact List.mem_flatMap.mpr ⟨g, hg, List.mem_map.mpr ⟨m, hm, hid.symm⟩⟩
    · rintro ⟨ht, hsup⟩
      obtain ⟨g, hg, hmid⟩ := List.mem_flatMap.mp hsup
      obtain ⟨m, hm, hid⟩ := List.mem_map.mp hmid
      obtain ⟨s, hs, rfl⟩ := List.mem_map.mp (mem_of_mem_plan hg hm)
      have hst : s = t := List.inj_on_of_nodup_map hids hs ht hid
      subst hst
      exact List.mem_flatMap.mpr
        ⟨g, hg, List.mem_filterMap.mpr ⟨_, hm, findMember_backupSegmentRef hids ht⟩⟩
  have hids' : ((planFor snapshot nowMs).groups.flatMap (groupSegments snapshot)).map
      (fun t => t.built.segmentId) = (planFor snapshot nowMs).supersededSegmentIds := by
    rw [List.map_flatMap, CompactionPlan.supersededSegmentIds]
    refine List.flatMap_congr fun g hg => ?_
    rw [groupSegments, List.map_filterMap]
    rw [← List.filterMap_eq_map]
    refine List.filterMap_congr fun m hm => ?_
    obtain ⟨s, hs, rfl⟩ := List.mem_map.mp (mem_of_mem_plan hg hm)
    rw [findMember_backupSegmentRef hids hs]
    rfl
  have htaken : ((planFor snapshot nowMs).groups.flatMap (groupSegments snapshot)).Perm
      (snapshot.filter fun s => (planFor snapshot nowMs).supersededSegmentIds.contains s.built.segmentId) := by
    have hn₁ : ((planFor snapshot nowMs).groups.flatMap (groupSegments snapshot)).Nodup := by
      refine List.Nodup.of_map (fun t => t.built.segmentId) ?_
      rw [hids']
      exact honce
    have hn₂ : snapshot.Nodup := List.Nodup.of_map _ hids
    rw [List.perm_ext_iff_of_nodup hn₁ (hn₂.filter _)]
    intro t
    rw [hmem t, List.mem_filter, List.contains_iff_mem]
  have hsplit := List.filter_append_perm
    (fun s : TrackedBackupSegment => !(planFor snapshot nowMs).supersededSegmentIds.contains s.built.segmentId)
    snapshot
  simp only [Bool.not_not] at hsplit
  exact hsplit.symm.trans (htaken.symm.append_left _)

/-! ## What the group loop produces -/

section Groups

variable {P : Primitives} {snapshot : List TrackedBackupSegment} {keys : BackupKeys} {c c' : Core}

theorem gatherMember_eq_ok {acc acc' : GroupInput} {m : BackupSegmentRef}
    (h : gatherMember P snapshot acc m = .ok acc') :
    ∃ t, findMember snapshot m = some t ∧ acc'.events = acc.events ++ segmentEvents P t := by
  unfold gatherMember at h
  cases hf : findMember snapshot m with
  | none => simp [hf] at h
  | some t =>
      simp only [hf] at h
      cases hd : decryptBackupSegment P t.built t.kSegment with
      | error e => simp [hd] at h
      | ok payload =>
          simp only [hd, Except.ok.injEq] at h
          refine ⟨t, rfl, ?_⟩
          rw [← h, segmentEvents, sealedEvents, hd]

/-- A group's events are those of its members, concatenated. -/
theorem gatherGroup_eq_ok {acc acc' : GroupInput} {members : List BackupSegmentRef}
    (h : gatherGroup P snapshot acc members = .ok acc') :
    acc'.events = acc.events ++ ledgerEvents P (members.filterMap (findMember snapshot)) := by
  induction members generalizing acc with
  | nil =>
      simp only [gatherGroup, Except.ok.injEq] at h
      simp [h]
  | cons m members ih =>
      simp only [gatherGroup] at h
      cases hm : gatherMember P snapshot acc m with
      | error e => simp [hm] at h
      | ok acc₁ =>
          rw [hm] at h
          obtain ⟨t, hfind, hev⟩ := gatherMember_eq_ok hm
          rw [ih h, hev, List.filterMap_cons, hfind, List.append_assoc]
          rfl

/-- The lists of events that a compaction seals: what its tombstones leave of each group, where anything is
left. -/
def survivorLists (groups : List (List BackupEvent)) : List (List BackupEvent) :=
  (groups.map backupTombstones.resolve).filter fun l => !l.isEmpty

theorem survivorLists_flatten (groups : List (List BackupEvent)) :
    (survivorLists groups).flatten = groups.flatMap backupTombstones.resolve := by
  unfold survivorLists
  induction groups with
  | nil => rfl
  | cons g groups ih =>
      rw [List.map_cons, List.flatMap_cons]
      by_cases hemp : (backupTombstones.resolve g).isEmpty = true
      · rw [List.filter_cons_of_neg (by simp [hemp]), ih, List.isEmpty_iff.mp hemp, List.nil_append]
      · rw [List.filter_cons_of_pos (by simp [hemp]), List.flatten_cons, ih]

/-- Segments that hold the survivor lists hold, in all, the resolved groups. -/
theorem ledgerEvents_of_survivorLists {outputs : List TrackedBackupSegment} {groups : List (List BackupEvent)}
    (h : outputs.map (segmentEvents P) = survivorLists groups) :
    ledgerEvents P outputs = groups.flatMap backupTombstones.resolve := by
  rw [ledgerEvents, List.flatMap_def, h, survivorLists_flatten]

/-- **One group's output**: a fresh well-sealed segment holding the survivors, or nothing when there are
none. -/
theorem sealGroup_eq_ok {tier : CompactionTier} {input : GroupInput} {output : Option TrackedBackupSegment}
    (h : sealGroup P keys tier input c = (.ok output, c')) :
    output.toList.map (segmentEvents P) = survivorLists [input.events] ∧
      (∀ t ∈ output, WellSealed P keys.rootKey t ∧ t.built.segmentId = Uuid.nowV7 c.drawn) ∧
      c' = { c with drawn := c.drawn + output.toList.length } := by
  unfold sealGroup at h
  rw [applyTombstones_eq_resolve] at h
  by_cases hemp : (backupTombstones.resolve input.events).isEmpty = true
  · rw [if_pos hemp] at h
    obtain ⟨rfl, rfl⟩ := BackupM.pure_eq.mp h
    exact ⟨by simp [survivorLists, hemp], by simp, rfl⟩
  · rw [if_neg hemp] at h
    obtain ⟨n, c₁, hdraw, h⟩ := BackupM.bind_eq_ok.mp h
    obtain ⟨rfl, rfl⟩ := BackupM.draw_eq_ok.mp hdraw
    obtain ⟨built, c₂, hb, h⟩ := BackupM.bind_eq_ok.mp h
    obtain ⟨hbuilt, rfl⟩ := BackupM.lift_eq_ok.mp hb
    obtain ⟨rfl, rfl⟩ := BackupM.pure_eq.mp h
    obtain ⟨hsealed, hevents⟩ := wellSealed_of_build hbuilt tier input.minMs input.maxMs
    refine ⟨?_, ?_, rfl⟩
    · rw [Option.toList_some, List.map_singleton, hevents]
      simp [survivorLists, hemp]
    · intro t ht
      rw [Option.mem_some_iff] at ht
      subst ht
      exact ⟨hsealed, (buildSegmentWithId_fields hbuilt).1⟩

theorem survivorLists_cons (g : List BackupEvent) (groups : List (List BackupEvent)) :
    survivorLists (g :: groups) = survivorLists [g] ++ survivorLists groups := by
  rw [survivorLists, survivorLists, survivorLists, ← List.filter_append]
  rfl

/-- **The group loop.** It adds well-sealed segments under fresh, distinct ids, which hold what the tombstones
of each group leave of it. -/
theorem resealGroups_eq_ok {groups : List CompactionGroup} {tally tally' : CompactionTally}
    (h : resealGroups P keys snapshot tally groups c = (.ok tally', c')) :
    ∃ outputs, tally'.outputs = tally.outputs ++ outputs ∧
      outputs.map (segmentEvents P) =
        survivorLists (groups.map fun g => ledgerEvents P (groupSegments snapshot g)) ∧
      (∀ t ∈ outputs, WellSealed P keys.rootKey t) ∧
      ledgerIds outputs = (List.range' c.drawn outputs.length).map Uuid.nowV7 ∧
      c' = { c with drawn := c.drawn + outputs.length } := by
  induction groups generalizing tally c with
  | nil =>
      obtain ⟨rfl, rfl⟩ := BackupM.pure_eq.mp h
      exact ⟨[], by simp, rfl, by simp, rfl, rfl⟩
  | cons g groups ih =>
      obtain ⟨input, c₁, hi, h⟩ := BackupM.bind_eq_ok.mp h
      obtain ⟨hinput, rfl⟩ := BackupM.lift_eq_ok.mp hi
      obtain ⟨output, c₂, houtput, h⟩ := BackupM.bind_eq_ok.mp h
      obtain ⟨hev, hsealed, rfl⟩ := sealGroup_eq_ok houtput
      obtain ⟨outputs, htally, hevs, hall, hids, rfl⟩ := ih h
      -- what is gathered of a group is what its segments hold
      have hgroup : input.events = ledgerEvents P (groupSegments snapshot g) := by
        have := gatherGroup_eq_ok hinput
        simpa [GroupInput.start, groupSegments] using this
      refine ⟨output.toList ++ outputs, ?_, ?_, ?_, ?_, ?_⟩
      · rw [htally, List.append_assoc]
      · rw [List.map_append, hev, hevs, hgroup, List.map_cons, ← survivorLists_cons]
      · intro t ht
        rcases List.mem_append.mp ht with ho | hr
        · exact (hsealed t (Option.mem_toList.mp ho)).1
        · exact hall t hr
      · -- a group whose events are all tombstoned gives no segment
        cases output with
        | none => simpa using hids
        | some t =>
            have hid : t.built.segmentId = Uuid.nowV7 c.drawn := (hsealed t rfl).2
            simp only [ledgerIds, Option.toList_some, List.singleton_append, List.map_cons, hid,
              List.length_cons, List.range'_succ, List.cons.injEq, true_and]
            exact hids
      · simp only [List.length_append, Nat.add_assoc]

end Groups

/-! ## The new ledger -/

section NewLedger

variable {P : Primitives} {snapshot outputs : List TrackedBackupSegment} {nowMs : Int}

/-- The events of the segments a plan leaves alone. -/
def keptEvents (P : Primitives) (snapshot : List TrackedBackupSegment) (nowMs : Int) : List BackupEvent :=
  ledgerEvents P (keptSegments snapshot (planFor snapshot nowMs))

/-- The events of each group of a plan. -/
def groupEvents (P : Primitives) (snapshot : List TrackedBackupSegment) (nowMs : Int) :
    List (List BackupEvent) :=
  (planFor snapshot nowMs).groups.map fun g => ledgerEvents P (groupSegments snapshot g)

/-- The snapshot holds what its plan leaves alone and what its groups take. -/
theorem ledgerEvents_snapshot (P : Primitives) (hids : (ledgerIds snapshot).Nodup) (nowMs : Int) :
    (ledgerEvents P snapshot).Perm
      (Tombstoning.uncompacted (keptEvents P snapshot nowMs) (groupEvents P snapshot nowMs)) := by
  have hperm := ledgerEvents_perm P (snapshot_perm_partition hids nowMs)
  rw [ledgerEvents_append] at hperm
  have hgroups : ledgerEvents P ((planFor snapshot nowMs).groups.flatMap (groupSegments snapshot)) =
      (groupEvents P snapshot nowMs).flatten := by
    rw [groupEvents, ← List.flatMap_def, ledgerEvents, List.flatMap_assoc]
    rfl
  rw [hgroups] at hperm
  exact hperm

/-- **The new ledger is the compaction of the snapshot.** -/
theorem ledgerEvents_newLedger
    (houtputs : ledgerEvents P outputs = (groupEvents P snapshot nowMs).flatMap backupTombstones.resolve) :
    ledgerEvents P (keptSegments snapshot (planFor snapshot nowMs) ++ outputs) =
      backupTombstones.compacted (keptEvents P snapshot nowMs) (groupEvents P snapshot nowMs) := by
  rw [ledgerEvents_append, houtputs]
  rfl

theorem keptSegments_sublist (snapshot : List TrackedBackupSegment) (plan : CompactionPlan) :
    (keptSegments snapshot plan).Sublist snapshot := List.filter_sublist

end NewLedger

end KChatCore.Backup
