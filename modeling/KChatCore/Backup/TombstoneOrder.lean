import KChatCore.Archive.Compaction
import KChatCore.Backup.Compaction

/-!
# `Backup.TombstoneOrder` — what a tombstone covers, in journal order

The tombstone filters collect every deletion of the list first and then filter the list against it, so a
deletion also drops what was journaled after it: a conversation created again, a message received again.

* `supersedes` — the documented coverage: a tombstone supersedes earlier events of its subject.
* `tombstones_in_order_iff` — on which lists the filters keep exactly what no later tombstone supersedes.
-/

namespace KChatCore.Backup

open Lib Archive

/-- What tombstone `t` is documented to supersede, if `e` came first. -/
def supersedes (t e : BackupEvent) : Bool :=
  match t.eventType with
  | .messageDeleted => e.ids.any fun ids => t.ids = some ids
  | .conversationDeleted => e.conversationId.any fun conv => t.conversationId = some conv
  | .mediaDeleted => e.eventType = .mediaReceived && e.ids.any fun ids => t.ids = some ids
  | _ => false

/-- **The documented tombstones**: a deleted message takes every event of its pair of ids. -/
def documentedTombstones : Tombstoning BackupEvent where
  isTombstone e := e.eventType.isTombstone
  covers := supersedes
  isTombstone_of_covers t e h := by
    unfold supersedes at h
    cases hty : t.eventType <;> simp_all [BackupEventType.isTombstone]

/-- What the filter drops is documented; the documentation says more about events that are no content. -/
theorem supersedes_of_covers {t e : BackupEvent} (h : tombstoneCovers t e = true) : supersedes t e = true := by
  unfold tombstoneCovers at h
  unfold supersedes
  cases hty : t.eventType <;> simp_all

theorem covers_of_supersedes {t e : BackupEvent} (hcontent : e.eventType.isMessageContent = true)
    (h : supersedes t e = true) : tombstoneCovers t e = true := by
  unfold supersedes at h
  unfold tombstoneCovers
  cases hty : t.eventType <;> simp_all

/-- A creation event that names a message goes with a later deletion of that message only when its conversation
is deleted as well. -/
def CreationsKept (events : List BackupEvent) : Prop :=
  ∀ earlier e later, events = earlier ++ e :: later → e.eventType = .conversationCreated →
    documentedTombstones.covered later e = true → backupTombstones.covered events e = true

/-- The two coverages agree on what the order of the log leaves to an event, but for creation events. -/
theorem covered_of_supersededContent {l : List BackupEvent} {e : BackupEvent}
    (hcontent : e.eventType.isMessageContent = true) (h : documentedTombstones.covered l e = true) :
    backupTombstones.covered l e = true := by
  obtain ⟨t, ht, hcov⟩ := Tombstoning.covered_eq_true.mp h
  exact Tombstoning.covered_eq_true.mpr ⟨t, ht, covers_of_supersedes hcontent hcov⟩

theorem superseded_of_covered {l : List BackupEvent} {e : BackupEvent}
    (h : backupTombstones.covered l e = true) : documentedTombstones.covered l e = true := by
  obtain ⟨t, ht, hcov⟩ := Tombstoning.covered_eq_true.mp h
  exact Tombstoning.covered_eq_true.mpr ⟨t, ht, supersedes_of_covers hcov⟩

theorem isMessageContent_or_created {e : BackupEvent} (h : e.eventType.isTombstone = false) :
    e.eventType.isMessageContent = true ∨ e.eventType = .conversationCreated := by
  revert h
  cases e.eventType <;> simp [BackupEventType.isTombstone, BackupEventType.isMessageContent]

theorem not_covered_self {e : BackupEvent} (h : e.eventType.isTombstone = false) :
    backupTombstones.covers e e = false := by
  rw [Bool.eq_false_iff]
  intro hcov
  have htomb : e.eventType.isTombstone = true := backupTombstones.isTombstone_of_covers e e hcov
  rw [htomb] at h
  exact absurd h (by simp)

/-- The two-pass filter keeps a list in its documented order when nothing resumes after its deletion. -/
theorem applyTombstones_eq_iff (events : List BackupEvent) :
    applyTombstones events = documentedTombstones.resolveInOrder events ↔
      backupTombstones.NothingResumes documentedTombstones events ∧ CreationsKept events := by
  rw [applyTombstones_eq_resolve, Tombstoning.resolve_eq_resolveInOrder_iff (by rfl)]
  constructor
  · intro h
    refine ⟨fun earlier e later heq hT hcov => (h earlier e later heq hT).mp ?_,
      fun earlier e later heq hcreated hcov => (h earlier e later heq ?_).mpr hcov⟩
    · rw [heq, Tombstoning.covered_append, hcov, Bool.true_or]
    · show e.eventType.isTombstone = false
      rw [hcreated]
      rfl
  · rintro ⟨hresumes, hcreations⟩ earlier e later heq hT
    constructor
    · intro hcov
      rw [heq, Tombstoning.covered_append, Bool.or_eq_true] at hcov
      rcases hcov with hbefore | hafter
      · exact hresumes earlier e later heq hT hbefore
      · have hlater : backupTombstones.covered later e = true := by
          simpa [Tombstoning.covered, not_covered_self hT] using hafter
        exact superseded_of_covered hlater
    · intro hcov
      rcases isMessageContent_or_created hT with hcontent | hcreated
      · have hlater := covered_of_supersededContent hcontent hcov
        refine Tombstoning.covered_mono ?_ hlater
        rw [heq]
        exact fun t ht => List.mem_append_right _ (List.mem_cons_of_mem _ ht)
      · exact hcreations earlier e later heq hcreated hcov

/-- **Tombstones in journal order.** The filters of the backup and of the archive keep exactly the events that no
later tombstone supersedes if and only if nothing resumes after its deletion (and a created conversation
is not taken for a deleted message). -/
theorem tombstones_in_order_iff (events : List BackupEvent) (archived : List ArchiveEvent) :
    (applyTombstones events = documentedTombstones.resolveInOrder events ↔
      backupTombstones.NothingResumes documentedTombstones events ∧ CreationsKept events) ∧
    (applyArchiveTombstones archived = archiveTombstones.resolveInOrder archived ↔
      archiveTombstones.NothingResumes archiveTombstones archived) := by
  refine ⟨applyTombstones_eq_iff events, ?_⟩
  rw [applyArchiveTombstones_eq_resolve]
  exact Tombstoning.resolve_self_eq_resolveInOrder_iff

/-- An event of conversation 1. -/
def conversationEvent (eventType : BackupEventType) (messageId : Option Uuid) (createdAtMs : Int) : BackupEvent :=
  ⟨eventType, some ⟨1⟩, messageId, [], createdAtMs⟩

/-- A conversation that is deleted, created again and used; and a message that is received again. -/
def resumedConversation : List BackupEvent :=
  [conversationEvent .conversationDeleted none 1, conversationEvent .conversationCreated none 2,
    conversationEvent .messageReceived (some ⟨7⟩) 3]

def resumedMessage : List BackupEvent :=
  [conversationEvent .messageDeleted (some ⟨7⟩) 1, conversationEvent .messageReceived (some ⟨7⟩) 2]

/-- The order of the journal keeps what came after the deletion; the filter drops it. -/
theorem resumed_dropped :
    applyTombstones resumedConversation ≠ documentedTombstones.resolveInOrder resumedConversation ∧
      applyTombstones resumedMessage ≠ documentedTombstones.resolveInOrder resumedMessage := by
  decide

end KChatCore.Backup
