import KChatCore.Restore.Recovery

/-!
# `Restore.Resurrection` — deleted messages a restore brings back

`restore_timeline_skeletons` expects its caller to have applied the tombstones; no caller does. So a restore
makes a row of every received message, whatever was deleted later.

* `noResurrection_iff` — a restore brings nothing back exactly when no received message is deleted later.
* `resolved_timeline` — it would, had the caller applied `apply_tombstones`.
-/

namespace KChatCore.Restore

open Backup Lib

/-- `t` deletes the message: a `MessageDeleted` of the pair, or a `ConversationDeleted` of its conversation. -/
def DeletesMessage (t : BackupEvent) (conversationId messageId : Uuid) : Prop :=
  (t.eventType = .messageDeleted ∧ t.ids = some (conversationId, messageId)) ∨
    (t.eventType = .conversationDeleted ∧ t.conversationId = some conversationId)

/-- The events receive the message of the row, and delete it later. -/
def DeletedAfter (events : List BackupEvent) (row : SkeletonRow) : Prop :=
  ∃ ev t, [ev, t].Sublist events ∧ RowOf ev row ∧ DeletesMessage t row.conversationId row.messageId

/-- **Nothing deleted is restored**: no row, and no body that belongs to a row, is of a message deleted later. -/
structure NoResurrection (events : List BackupEvent) (summary : RestoreSummary) : Prop where
  rows : ∀ row ∈ summary.skeletons, ¬ DeletedAfter events row
  bodies : ∀ body ∈ summary.recentBodies, ∀ row ∈ summary.skeletons, body.BelongsTo row →
    ¬ DeletedAfter events row

/-- **No received message is deleted later**, in the order of the events. -/
def Resolved (events : List BackupEvent) : Prop :=
  events.Pairwise fun ev t =>
    ev.eventType = .messageReceived → ev.ids.isSome = true → tombstoneCovers t ev = false

instance (events : List BackupEvent) : Decidable (Resolved events) := by
  unfold Resolved
  infer_instance

section Resolved

variable {manifests : List BackupManifest} {decrypted : List BackupEvent} {nowMs recencyWindowMs : Int}

/-- Deleting a message is covering the event that received it. -/
theorem tombstoneCovers_eq_true_iff {ev t : BackupEvent} {conv mid : Uuid} (hty : ev.eventType = .messageReceived)
    (hids : ev.ids = some (conv, mid)) : tombstoneCovers t ev = true ↔ DeletesMessage t conv mid := by
  have hconv : ev.conversationId = some conv := by
    unfold BackupEvent.ids at hids
    split at hids
    · rename_i conv' mid' hc hm
      obtain ⟨rfl, rfl⟩ := Prod.mk.inj (Option.some.inj hids)
      exact hc
    · exact absurd hids (by simp)
  unfold tombstoneCovers DeletesMessage
  rw [hty, hids, hconv]
  cases t.eventType <;> simp [BackupEventType.isMessageContent]

/-- **A run brings nothing back exactly when no received message is deleted later.** -/
theorem noResurrection_summaryOf_iff :
    NoResurrection (timeline decrypted) (summaryOf manifests decrypted nowMs recencyWindowMs) ↔
      Resolved (timeline decrypted) := by
  constructor
  · intro h
    apply List.pairwise_iff_forall_sublist.mpr
    intro ev t hsub hty hsome
    obtain ⟨⟨conv, mid⟩, hids⟩ := Option.isSome_iff_exists.mp hsome
    have hev : ev ∈ timeline decrypted := hsub.subset (by simp)
    obtain ⟨row, hrow, hrowOf⟩ := exists_row_of_mem_timeline hev hty hids
    have hkey : (conv, mid) = (row.conversationId, row.messageId) :=
      Option.some.inj (hids.symm.trans hrowOf.2.1)
    obtain ⟨rfl, rfl⟩ := Prod.mk.inj hkey
    rw [Bool.eq_false_iff]
    intro hcov
    exact h.rows row hrow ⟨ev, t, hsub, hrowOf, (tombstoneCovers_eq_true_iff hty hids).mp hcov⟩
  · intro h
    have hnone : ∀ row, ¬ DeletedAfter (timeline decrypted) row := by
      rintro row ⟨ev, t, hsub, ⟨hty, hids, -⟩, hdel⟩
      have hcov := List.pairwise_iff_forall_sublist.mp h hsub hty (by rw [hids]; rfl)
      rw [(tombstoneCovers_eq_true_iff hty hids).mpr hdel] at hcov
      exact absurd hcov (by simp)
    constructor
    · intro row _
      exact hnone row
    · intro _ _ row _ _
      exact hnone row

/-- **What the doc comment asks of the caller would do**: after `apply_tombstones` nothing is deleted later. -/
theorem resolved_timeline (events : List BackupEvent) : Resolved (timeline (applyTombstones events)) := by
  have hperm : (timeline (applyTombstones events)).Perm (applyTombstones events) := List.perm_insertionSort _ _
  apply List.pairwise_iff_forall_sublist.mpr
  intro ev t hsub _ _
  have ht : t ∈ applyTombstones events := hperm.subset (hsub.subset (by simp))
  rw [applyTombstones_eq_resolve] at ht
  rw [Bool.eq_false_iff]
  intro hcov
  have htomb := backupTombstones.isTombstone_of_covers t ev hcov
  rw [(Tombstoning.mem_resolve.mp ht).2.1] at htomb
  exact absurd htomb (by simp)

end Resolved

/-- **Restore and deletions.** A successful pipeline run over any segments, and so a successful restore from any
backup, brings nothing back if and only if no message that the decrypted events receive is deleted later in their
time order. -/
theorem noResurrection_iff (P : Primitives) :
    (∀ (manifests : List BackupManifest) (segments : List BuiltBackupSegment) (k : KeyMaterial)
        (nowMs recencyWindowMs : Int) (db db' : RestoreDb) (summary : RestoreSummary)
        (decrypted : List BackupEvent),
      run P manifests segments k nowMs recencyWindowMs db = (.ok summary, db') →
      decryptSegments P k segments = .ok decrypted →
      (NoResurrection (timeline decrypted) summary ↔ Resolved (timeline decrypted))) ∧
    ∀ (core : Core) (source : BackupSource) (db db' : RestoreDb) (restored : Restored) (keys : BackupKeys)
        (sink : BackupSink) (events : List BackupEvent),
      restoreSummary P core source db = (.ok restored, db') → core.backup.backupKeys = some keys →
      core.backupSink = some sink → fetchedEvents P keys sink restored.manifest.segments = .ok events →
      (NoResurrection (timeline events) restored.summary ↔ Resolved (timeline events)) := by
  constructor
  · intro manifests segments k nowMs recencyWindowMs db db' summary decrypted hrun hdec
    obtain ⟨decrypted', hdec', rfl⟩ := run_eq_ok hrun
    obtain rfl := Except.ok.inj (hdec.symm.trans hdec')
    exact noResurrection_summaryOf_iff
  · intro core source db db' restored keys sink events hrestore hkeys hsink hfetched
    obtain ⟨keys', sink', bundle, events', hkeys', hsink', -, hman, hfetched', -, hsummary⟩ :=
      restoreSummary_eq_ok hrestore
    obtain rfl := Option.some.inj (hkeys.symm.trans hkeys')
    obtain rfl := Option.some.inj (hsink.symm.trans hsink')
    rw [hman] at hfetched
    obtain rfl := Except.ok.inj (hfetched.symm.trans hfetched')
    rw [hsummary]
    exact noResurrection_summaryOf_iff

/-! ## A message that comes back -/

/-- Where the pipeline starts. -/
def verifiedDb : RestoreDb := ⟨some (RestoreState.manifestVerified.asStr, none), 0⟩

/-- One sealed segment per list of events. -/
theorem exists_segments (P : Primitives) (k : KeyMaterial) (batches : List (List BackupEvent))
    (hne : ∀ batch ∈ batches, batch ≠ []) :
    ∃ segments, decryptSegments P k segments = .ok batches.flatten := by
  induction batches with
  | nil => exact ⟨[], rfl⟩
  | cons batch batches ih =>
      obtain ⟨segments, hdec⟩ := ih fun b hb => hne b (by simp [hb])
      have hbatch : batch ≠ [] := hne batch (by simp)
      obtain ⟨seg, hseg⟩ : ∃ seg, buildSegmentWithId P ⟨batch, .events⟩ Uuid.nil k (fillNonce 0) = .ok seg :=
        buildSegmentWithId_isOk hbatch
      exact ⟨seg :: segments, decryptSegments_cons (decryptBackupSegment_of_buildSegmentWithId hseg) hdec⟩

/-- A message, and in another segment its deletion. -/
def deletedLater : List (List BackupEvent) :=
  [[exampleEvent .messageReceived 1 5], [exampleEvent .messageDeleted 1 9]]

/-- The pipeline runs over any batches, each sealed by itself. -/
theorem exists_run (P : Primitives) (batches : List (List BackupEvent)) (hne : ∀ batch ∈ batches, batch ≠ []) :
    ∃ segments db', decryptSegments P (ByteArr.zeros 32) segments = .ok batches.flatten ∧
      run P [] segments (ByteArr.zeros 32) 10 100 verifiedDb = (.ok (summaryOf [] batches.flatten 10 100), db') := by
  obtain ⟨segments, hdec⟩ := exists_segments P (ByteArr.zeros 32) batches hne
  obtain ⟨db', hrun⟩ : ∃ db', run P [] segments (ByteArr.zeros 32) 10 100 verifiedDb =
      (.ok (summaryOf [] batches.flatten 10 100), db') := run_isOk hdec rfl
  exact ⟨segments, db', hdec, hrun⟩

/-- **A deleted message comes back**: the row and the body of a message that a later segment deletes. -/
theorem deleted_message_restored :
    ∃ segments summary db', decryptSegments Primitives.reference (ByteArr.zeros 32) segments =
        .ok deletedLater.flatten ∧
      run Primitives.reference [] segments (ByteArr.zeros 32) 10 100 verifiedDb = (.ok summary, db') ∧
      summary.recentBodies.map RestoredBody.messageId = [⟨1⟩] ∧
      ¬ NoResurrection (timeline deletedLater.flatten) summary := by
  obtain ⟨segments, db', hdec, hrun⟩ := exists_run Primitives.reference deletedLater (by decide)
  refine ⟨segments, _, db', hdec, hrun, by decide, fun h => ?_⟩
  exact absurd (noResurrection_summaryOf_iff.mp h) (by decide)

/-- A message, and in another segment its edit. -/
def editedLater : List (List BackupEvent) := [[exampleEvent .messageReceived 1 5], [exampleEvent .messageEdited 1 9]]

/-- An edited message is restored and nothing deleted is; and the restore of a one-pass backup. -/
theorem edited_message_restored :
    (∃ segments summary db', run Primitives.reference [] segments (ByteArr.zeros 32) 10 100 verifiedDb =
        (.ok summary, db') ∧ NoResurrection (timeline editedLater.flatten) summary) ∧
    ∃ restored db' events, restoreSummary Primitives.reference (exampleHistory onePass).core (sourceOf 1)
        verifiedDb = (.ok restored, db') ∧
      (NoResurrection (timeline events) restored.summary ↔ Resolved (timeline events)) := by
  constructor
  · obtain ⟨segments, db', hdec, hrun⟩ := exists_run Primitives.reference editedLater (by decide)
    have hiff := (noResurrection_iff Primitives.reference).1 _ _ _ _ _ _ _ _ _ hrun hdec
    exact ⟨segments, _, db', hrun, hiff.mpr (by decide)⟩
  · obtain ⟨hok, hkeep, hcovers⟩ := onePass_succeeds
    obtain ⟨head, sink, hhead, hid, hsink, hcaps⟩ := onePass_withinCaps
    obtain ⟨hinv, -⟩ := sinkVerdict_of_run (example_run onePass)
    obtain ⟨restored, db', events, hrestore, -, hr⟩ := recovers_of_headCovers (example_run onePass) hok hkeep
      hhead (by decide +kernel : validateSource (sourceOf 1) = .ok ()) hid rfl hsink hcovers hcaps verifiedDb
    exact ⟨restored, db', events, hrestore, (noResurrection_iff Primitives.reference).2 _ _ _ _ _ exampleKeys
      sink events hrestore hinv.core.keys_eq hsink hr.fetched⟩

end KChatCore.Restore
