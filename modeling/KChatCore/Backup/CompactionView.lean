import KChatCore.Backup.Invariant

/-!
# `Backup.CompactionView` — what compaction does to the meaning of a ledger

The meaning of a ledger is what is left once the tombstones of *all* its events are applied: the live
messages, and their surviving received, edited and media events. Compaction applies tombstones group by group
and drops them with the group, so it keeps the meaning exactly when the plan is closed: every event that some
tombstone of the ledger covers is covered by a tombstone the plan leaves alone, or by one in its own group.
-/

namespace KChatCore.Backup

open Lib Tombstoning

/-- The surviving message events of a ledger, tombstones applied to all of it. -/
def survivingEvents (events : List BackupEvent) : List BackupEvent :=
  backupTombstones.view (fun e => e.eventType.isMessageContent) events

/-- The messages whose `MessageReceived` survives. -/
def liveMessages (events : List BackupEvent) : List (Uuid × Uuid) :=
  (survivingEvents events).filterMap fun e => if e.eventType = .messageReceived then e.ids else none

/-- **The meaning of a ledger**: the set of live messages, and the set of their surviving events. -/
def ledgerMeaning (P : Primitives) (ledger : List TrackedBackupSegment) :
    Set (Uuid × Uuid) × Set BackupEvent :=
  ({ m | m ∈ liveMessages (ledgerEvents P ledger) }, { e | e ∈ survivingEvents (ledgerEvents P ledger) })

theorem ledgerMeaning_eq_iff {P : Primitives} {l l' : List TrackedBackupSegment} :
    ledgerMeaning P l = ledgerMeaning P l' ↔
      ∀ e, e ∈ survivingEvents (ledgerEvents P l) ↔ e ∈ survivingEvents (ledgerEvents P l') := by
  constructor
  · intro h e
    have hset := congrArg Prod.snd h
    exact Set.ext_iff.mp hset e
  · intro h
    have hlive : ∀ m, m ∈ liveMessages (ledgerEvents P l) ↔ m ∈ liveMessages (ledgerEvents P l') := by
      intro m
      simp only [liveMessages, List.mem_filterMap]
      exact exists_congr fun e => and_congr_left fun _ => h e
    exact Prod.ext (Set.ext hlive) (Set.ext h)

/-- **Closedness of the plan** for a ledger at a time: every received, edited or media event that some
tombstone of the ledger covers is covered by a tombstone of a segment the plan leaves alone, or lies in a
planned group that holds a tombstone covering it. -/
def PlanClosed (P : Primitives) (ledger : List TrackedBackupSegment) (nowMs : Int) : Prop :=
  Closed backupTombstones (fun e => e.eventType.isMessageContent) (keptEvents P ledger nowMs)
    (groupEvents P ledger nowMs)

instance (P : Primitives) (ledger : List TrackedBackupSegment) (nowMs : Int) :
    Decidable (PlanClosed P ledger nowMs) := by
  unfold PlanClosed
  infer_instance

variable {P : Primitives} {keys : BackupKeys} {nowMs nowPersistMs : Int} {c c' c₂ : Core}

/-- An empty plan is closed. -/
theorem planClosed_of_noGroups {ledger : List TrackedBackupSegment}
    (h : (planFor ledger nowMs).groups = []) : PlanClosed P ledger nowMs := by
  have hg : groupEvents P ledger nowMs = [] := by rw [groupEvents, h, List.map_nil]
  refine ⟨fun e _ _ _ hcov => ?_, fun g hg' => ?_⟩
  · rwa [hg, uncompacted, List.flatten_nil, List.append_nil] at hcov
  · rw [hg] at hg'
    exact absurd hg' (by simp)

/-- A commit of a compaction keeps the meaning exactly when the plan was closed. -/
theorem CompactionCommitted.meaning_iff {outputs : List TrackedBackupSegment} {sealed : SealedBackupManifest}
    (hids : (ledgerIds c.backup.chainState.trackedSegments).Nodup)
    (hi : CompactionCommitted P nowMs nowPersistMs c c₂ keys outputs sealed) :
    ledgerMeaning P c₂.backup.chainState.trackedSegments = ledgerMeaning P c.backup.chainState.trackedSegments ↔
      PlanClosed P c.backup.chainState.trackedSegments nowMs := by
  have hbefore := ledgerEvents_snapshot P hids nowMs
  have hafter : ledgerEvents P c₂.backup.chainState.trackedSegments =
      backupTombstones.compacted (keptEvents P c.backup.chainState.trackedSegments nowMs)
        (groupEvents P c.backup.chainState.trackedSegments nowMs) := by
    rw [hi.committed.chainState]
    exact ledgerEvents_newLedger hi.events
  rw [ledgerMeaning_eq_iff, hafter]
  refine Iff.trans (forall_congr' fun e => ?_) mem_view_compacted_iff
  exact iff_congr Iff.rfl (view_perm hbefore).mem_iff

/-- **Backup compaction preserves meaning exactly for closed plans.** For every ledger (its segment ids being
the primary key of its table) and every time, a compaction that returns keeps the live messages and their
surviving events if and only if its plan is closed. -/
theorem compactBackup_preserves_meaning_iff {res : BackupCompactionResult}
    (hids : (ledgerIds c.backup.chainState.trackedSegments).Nodup)
    (hrun : compactBackup P nowMs nowPersistMs c = (.ok res, c')) :
    ledgerMeaning P c'.backup.chainState.trackedSegments = ledgerMeaning P c.backup.chainState.trackedSegments ↔
      PlanClosed P c.backup.chainState.trackedSegments nowMs := by
  rcases compactBackup_cases hrun with ⟨_, hok⟩ | ⟨keys', tally, sealed, c₂, ru, hi, hup, _⟩
  · obtain ⟨_, rfl, hnone⟩ := hok res rfl
    exact iff_of_true rfl (planClosed_of_noGroups hnone)
  · obtain ⟨_, hbackup, _⟩ := uploadStep_frame hup
    rw [hbackup]
    exact hi.meaning_iff hids

/-! ## A ledger that a compaction brings back to life -/

/-- One daily segment per event, each sealed by its own incremental pass. -/
def dailySegments (P : Primitives) (keys : BackupKeys) (events : List BackupEvent) : Core :=
  events.foldl (fun c e => (runIncrementalBackupInner P e.createdAtMs (c.writeEvent e)).2) (Core.fresh keys none)

/-- Two messages in one week; in the next week the first is deleted and a third arrives. -/
def deletedNextWeek : Core :=
  dailySegments Primitives.reference exampleKeys
    [exampleEvent .messageReceived 1 (5 * dayMs), exampleEvent .messageReceived 2 (6 * dayMs),
     exampleEvent .messageDeleted 1 (12 * dayMs), exampleEvent .messageReceived 3 (13 * dayMs)]

/-- The core after compacting that ledger thirty days in. -/
def deletedNextWeekCompacted : Core :=
  (compactBackup Primitives.reference (30 * dayMs) (30 * dayMs) deletedNextWeek).2

set_option maxRecDepth 100000 in
/-- The deletion is in another week's group than the message: before the compaction the message is gone,
after it the message is live again. -/
theorem compactBackup_resurrects :
    ((compactBackup Primitives.reference (30 * dayMs) (30 * dayMs) deletedNextWeek).1.isOk = true ∧
      (ledgerIds deletedNextWeek.backup.chainState.trackedSegments).Nodup) ∧
    ledgerMeaning Primitives.reference deletedNextWeekCompacted.backup.chainState.trackedSegments ≠
      ledgerMeaning Primitives.reference deletedNextWeek.backup.chainState.trackedSegments := by
  refine ⟨by decide +kernel, fun h => ?_⟩
  have hmem := (ledgerMeaning_eq_iff.mp h (exampleEvent .messageReceived 1 (5 * dayMs))).mp (by decide +kernel)
  exact absurd hmem (by decide +kernel)

set_option maxRecDepth 100000 in
/-- The equivalence at that ledger, whose plan is not closed. -/
theorem compactBackup_meaning_deletedNextWeek :
    ledgerMeaning Primitives.reference deletedNextWeekCompacted.backup.chainState.trackedSegments =
        ledgerMeaning Primitives.reference deletedNextWeek.backup.chainState.trackedSegments ↔
      PlanClosed Primitives.reference deletedNextWeek.backup.chainState.trackedSegments (30 * dayMs) := by
  have hok : (compactBackup Primitives.reference (30 * dayMs) (30 * dayMs) deletedNextWeek).1.isOk = true := by
    decide +kernel
  rcases hrun : compactBackup Primitives.reference (30 * dayMs) (30 * dayMs) deletedNextWeek with ⟨r, c'⟩
  rw [hrun] at hok
  cases r with
  | error e => simp [Except.isOk, Except.toBool] at hok
  | ok res =>
      have hc' : deletedNextWeekCompacted = c' := congrArg Prod.snd hrun
      rw [hc']
      exact compactBackup_preserves_meaning_iff (by decide +kernel) hrun

end KChatCore.Backup
