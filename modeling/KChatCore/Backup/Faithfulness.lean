import KChatCore.Backup.SinkCompleteness

/-!
# `Backup.Faithfulness` — does the ledger stand for the drained journal?

The journal keeps every event. The ledger loses tombstones when it is compacted, and with them, perhaps,
deletions. `KeepsDeletions` is the condition on a call under which it does not: a compaction's plan is closed,
and an incremental drains no event that only a lost tombstone covers.

* `LedgerFaithful.next` — under that condition a successful call keeps the ledger faithful to the journal.
-/

namespace KChatCore.Backup

open Lib Tombstoning

/-- `MessageReceived | MessageEdited | MessageDeleted`. -/
def isHistory (e : BackupEvent) : Bool :=
  match e.eventType with
  | .messageReceived | .messageEdited | .messageDeleted => true
  | _ => false

/-- **The message history** some events tell, tombstones applied. -/
def messageHistory (events : List BackupEvent) : List BackupEvent := backupTombstones.view isHistory events

/-- The events the next incremental call drains. -/
def nextBatch (db : BackupDb) : List BackupEvent :=
  match readBatch db with
  | .ok (some batch) => batch.events
  | _ => []

/-- **The condition on a call**: no deletion is lost with a tombstone. -/
def KeepsDeletions (P : Primitives) (c : Core) : BackupCall → Prop
  | .writeJournal .. => True
  | .incremental _ =>
      ∀ e ∈ nextBatch c.db, isHistory e = true → backupTombstones.isTombstone e = false →
        backupTombstones.covered c.db.drained e = true →
        backupTombstones.covered (ledgerEvents P c.backup.chainState.trackedSegments ++ nextBatch c.db) e = true
  | .compaction nowMs _ =>
      Closed backupTombstones isHistory (keptEvents P c.backup.chainState.trackedSegments nowMs)
        (groupEvents P c.backup.chainState.trackedSegments nowMs)

instance (P : Primitives) (c : Core) (call : BackupCall) : Decidable (KeepsDeletions P c call) :=
  match call with
  | .writeJournal .. => inferInstanceAs (Decidable True)
  | .incremental _ => inferInstanceAs (Decidable (∀ e ∈ nextBatch c.db, _))
  | .compaction .. => inferInstanceAs (Decidable (Closed _ _ _ _))

/-- **The ledger stands for the drained journal.** -/
structure LedgerFaithful (P : Primitives) (c : Core) : Prop where
  cursor_le : c.db.readCursor ≤ c.db.journal.lastSeq
  faithful : Faithful backupTombstones isHistory c.db.drained
    (ledgerEvents P c.backup.chainState.trackedSegments)

theorem ledgerFaithful_fresh (P : Primitives) (keys : BackupKeys) (sink : Option BackupSink) :
    LedgerFaithful P (Core.fresh keys sink) :=
  ⟨Nat.zero_le _, Faithful.refl []⟩

section Calls

variable {P : Primitives} {keys : BackupKeys} {s : BackupHistory} {c c' c₂ : Core}

/-- **The same message history** comes from a faithful ledger and from the journal. -/
theorem LedgerFaithful.history (h : LedgerFaithful P c) :
    (messageHistory (ledgerEvents P c.backup.chainState.trackedSegments)).Perm (messageHistory c.db.drained) :=
  h.faithful.view_perm

/-- Only the database and the ledger matter. -/
theorem LedgerFaithful.of_eq (h : LedgerFaithful P c) (hdb : c'.db = c.db) (hbackup : c'.backup = c.backup) :
    LedgerFaithful P c' := by
  constructor
  · rw [hdb]
    exact h.cursor_le
  · rw [hdb, hbackup]
    exact h.faithful

/-- An incremental commit appends what it drained. -/
theorem LedgerFaithful.incremental {nowPersistMs : Int} {batch : ReadBatch} {tracked : TrackedBackupSegment}
    {sealed : SealedBackupManifest} (h : LedgerFaithful P c)
    (hi : IncrementalCommitted P nowPersistMs c c₂ keys batch tracked sealed)
    (hkeep : KeepsDeletions P c (.incremental nowPersistMs)) : LedgerFaithful P c₂ := by
  simp only [KeepsDeletions, nextBatch, hi.read] at hkeep
  obtain ⟨_, _, hle, htyped⟩ := readBatch_eq_some hi.read
  obtain ⟨row, -, hdb⟩ := hi.persisted
  have hcursor : c₂.db.readCursor = batch.lastSeq := by rw [hdb]; rfl
  have hledger : ledgerEvents P c₂.backup.chainState.trackedSegments =
      ledgerEvents P c.backup.chainState.trackedSegments ++ batch.events := by
    rw [hi.committed.chainState, ledgerEvents_append, ledgerEvents_singleton, hi.events]
  have hdrained : c₂.db.drained = c.db.drained ++ batch.events := by
    rw [BackupDb.drained, hcursor, hi.committed.journal]
    exact htyped
  constructor
  · rw [hcursor, hi.committed.journal]
    exact hle
  · rw [hledger, hdrained]
    exact h.faithful.append hkeep

/-- A closed compaction keeps the ledger faithful. -/
theorem LedgerFaithful.compact {nowMs nowPersistMs : Int} {outputs : List TrackedBackupSegment}
    {sealed : SealedBackupManifest} (h : LedgerFaithful P c)
    (hids : (ledgerIds c.backup.chainState.trackedSegments).Nodup)
    (hi : CompactionCommitted P nowMs nowPersistMs c c₂ keys outputs sealed)
    (hkeep : KeepsDeletions P c (.compaction nowMs nowPersistMs)) : LedgerFaithful P c₂ := by
  obtain ⟨rows, -, hdb⟩ := hi.persisted
  have hledger : ledgerEvents P c₂.backup.chainState.trackedSegments =
      backupTombstones.compacted (keptEvents P c.backup.chainState.trackedSegments nowMs)
        (groupEvents P c.backup.chainState.trackedSegments nowMs) := by
    rw [hi.committed.chainState]
    exact ledgerEvents_newLedger hi.events
  have hdrained : c₂.db.drained = c.db.drained := by rw [hdb]; rfl
  constructor
  · rw [hdb]
    exact h.cursor_le
  · rw [hledger, hdrained]
    exact (h.faithful.perm (List.Perm.refl _) (ledgerEvents_snapshot P hids nowMs)).compact hkeep

/-- **A successful call that keeps its deletions** keeps the ledger faithful. -/
theorem LedgerFaithful.next (h : LedgerFaithful P s.core) (hinv : HistoryInv P keys s) {call : BackupCall}
    (hok : (call.run P s.core).1 = .ok ()) (hkeep : KeepsDeletions P s.core call) :
    LedgerFaithful P (s.next P call).core := by
  have hout := callOutcome_of_run hinv.core call
  unfold BackupHistory.next
  generalize (call.run P s.core).1 = r at hout hok
  generalize (call.run P s.core).2 = c' at hout ⊢
  cases hout with
  | wrote tag conv mid payload ms =>
      -- a written row lies past the cursor
      have hdrained : (s.core.insertJournal tag conv mid payload ms).db.drained = s.core.db.drained :=
        typedUpTo_insert _ tag conv mid payload ms h.cursor_le
      constructor
      · show s.core.db.readCursor ≤ (s.core.db.journal.insert tag conv mid payload ms).lastSeq
        rw [lastSeq_insert]
        exact h.cursor_le.trans (Nat.le_succ _)
      · rw [hdrained]
        exact h.faithful
  | idleIncremental hu hidle => exact h.of_eq hu.db hu.backup
  | idleCompaction hu hidle hwhy => exact h.of_eq hu.db hu.backup
  | incremental hi hup =>
      obtain ⟨hdb, hbackup, -⟩ := uploadStep_frame hup
      exact (h.incremental hi hkeep).of_eq hdb hbackup
  | compaction hi hup =>
      obtain ⟨hdb, hbackup, -⟩ := uploadStep_frame hup
      exact (h.compact hinv.core.ids_nodup hi hkeep).of_eq hdb hbackup

end Calls

end KChatCore.Backup
