import KChatCore.LocalStore.Schema
import KChatCore.Message.Payload
import KChatCore.Restore.Recovery

/-!
# `Restore.Materialisation` — does a restore put what it reports into the store?

`RestoreResult` counts the skeletons "hydrated into the local store". `run` makes them in memory, and returns them;
`restore_from_backup_inner` counts what it is given. Of the local store a restore writes the `restore_state` row and
nothing else.

* `restoreFromBackup` — the call, on the whole store.
* `Materialises` — what its result reports of a store.
* `materialises_iff` — on an empty store the report holds exactly of a backup that received nothing.
-/

namespace KChatCore.Restore

open Backup Lib LocalStore Message

/-! ## The call, on the whole store -/

/-- **The store of a restoring device**: its tables, and what a restore writes of them. -/
structure RestoringStore where
  db : LocalStoreDb
  restore : RestoreDb

/-- A restore step on the whole store: the connection it gets is only used for `restore_state`. -/
def RestoreM.onStore {α : Type} (x : RestoreM α) (store : RestoringStore) : Except Error α × RestoringStore :=
  ((x store.restore).1, { store with restore := (x store.restore).2 })

/-- `KChatCore::restore_from_backup`. -/
def restoreFromBackup (P : Primitives) (core : Core) (source : BackupSource) :
    RestoringStore → Except Error RestoreResult × RestoringStore :=
  (restoreFromBackupInner P core source).onStore

theorem RestoreM.onStore_eq_ok {α : Type} {x : RestoreM α} {store store' : RestoringStore} {a : α} :
    x.onStore store = (.ok a, store') ↔ x store.restore = (.ok a, store'.restore) ∧ store'.db = store.db := by
  obtain ⟨db', restore'⟩ := store'
  constructor
  · intro h
    obtain ⟨hr, hstore⟩ := Prod.mk.inj h
    obtain ⟨hdb, hrestore⟩ := RestoringStore.mk.inj hstore
    exact ⟨Prod.ext hr hrestore, hdb.symm⟩
  · rintro ⟨h, rfl⟩
    unfold RestoreM.onStore
    rw [h]

/-! ## What a result reports -/

/-- The events of the backup a restore reads: those of the segments the head manifest references. -/
def backupEvents (P : Primitives) (core : Core) (source : BackupSource) : Except Error (List BackupEvent) := do
  let keys ← core.backup.requireKeys
  let sink ← okOr core.backupSink (.storage (.subsystemNotInstalled "backup_sink"))
  let bundle ← fetchHead P keys sink source
  fetchedEvents P keys sink bundle.manifest.segments

/-- The event receives a message. -/
def Receives (ev : BackupEvent) : Prop := ev.eventType = .messageReceived ∧ ev.ids.isSome = true

instance (ev : BackupEvent) : Decidable (Receives ev) := by
  unfold Receives
  infer_instance

/-- The event receives a message that no tombstone of the backup deletes. -/
def ReceivesLive (events : List BackupEvent) (ev : BackupEvent) : Prop :=
  ev ∈ applyTombstones events ∧ Receives ev

/-- The row is of the message the event received, as its payload tells it. -/
structure RowShows (ev : BackupEvent) (row : MessageSkeleton) : Prop where
  ids : ev.ids = some (row.conversationId, row.messageId)
  payload : ev.payload = encodeEventPayload row.messageId row.conversationId row.senderId row.createdAtMs

/-- **The store holds what the result reports**: as many skeleton rows and bodies, which are those of the live
messages of the backup, with their latest text. -/
structure Materialises (latestText : Uuid → Option String) (events : List BackupEvent) (result : RestoreResult)
    (db : LocalStoreDb) : Prop where
  skeletonCount : db.skeletons.rows.length = result.skeletonsRestored
  bodyCount : db.bodies.rows.length = result.recentBodiesRestored
  skeletons : ∀ row ∈ db.skeletons.rows, ∃ ev, ReceivesLive events ev ∧ RowShows ev row
  live : ∀ ev, ReceivesLive events ev → ∃ row ∈ db.skeletons.rows, RowShows ev row
  bodies : ∀ body ∈ db.bodies.rows, (∃ ev conv, ReceivesLive events ev ∧ ev.ids = some (conv, body.messageId)) ∧
    body.textContent = latestText body.messageId

/-! ## An empty store after a restore -/

section Materialise

variable {P : Primitives} {core : Core} {source : BackupSource} {store store' : RestoringStore}
  {result : RestoreResult} {events : List BackupEvent}

/-- **A restore that succeeds** leaves the tables alone, and reports a pipeline run over the events it read. -/
theorem restoreFromBackup_eq_ok (h : restoreFromBackup P core source store = (.ok result, store')) :
    store'.db = store.db ∧ ∃ (restored : Restored) (events : List BackupEvent),
      backupEvents P core source = .ok events ∧ restored.result = result ∧
      restored.summary = summaryOf [restored.manifest] events source.nowMs source.recencyWindowMs := by
  obtain ⟨hinner, hdb⟩ := RestoreM.onStore_eq_ok.mp h
  obtain ⟨restored, hrestore, hresult⟩ := restoreFromBackupInner_eq_ok.mp hinner
  obtain ⟨keys, sink, bundle, events, hkeys, hsink, hhead, hman, hfetched, -, hsummary⟩ :=
    restoreSummary_eq_ok hrestore
  refine ⟨hdb, restored, events, ?_, hresult, ?_⟩
  · refine except_bind_eq_ok.mpr ⟨keys, okOr_eq_ok.mpr hkeys, ?_⟩
    refine except_bind_eq_ok.mpr ⟨sink, okOr_eq_ok.mpr hsink, ?_⟩
    exact except_bind_eq_ok.mpr ⟨bundle, hhead, hfetched⟩
  · rw [hman]
    exact hsummary

/-- A received message has a row in the summary. -/
theorem skeletons_ne_nil {manifests : List BackupManifest} {nowMs recencyWindowMs : Int} {ev : BackupEvent}
    (hev : ev ∈ events) (hrec : Receives ev) :
    (summaryOf manifests events nowMs recencyWindowMs).skeletons ≠ [] := by
  obtain ⟨hty, hsome⟩ := hrec
  obtain ⟨⟨conv, mid⟩, hids⟩ := Option.isSome_iff_exists.mp hsome
  have hmem : ev ∈ timeline events := (List.perm_insertionSort _ _).mem_iff.mpr hev
  obtain ⟨row, hrow, -⟩ := exists_row_of_mem_timeline hmem hty hids
  exact List.ne_nil_of_mem hrow

/-- A summary of events that receive nothing is empty. -/
theorem summary_empty {manifests : List BackupManifest} {nowMs recencyWindowMs : Int}
    (hnone : ∀ ev ∈ events, ¬ Receives ev) :
    (summaryOf manifests events nowMs recencyWindowMs).skeletons = [] ∧
      (summaryOf manifests events nowMs recencyWindowMs).recentBodies = [] := by
  have hrows : ∀ row, row ∉ (summaryOf manifests events nowMs recencyWindowMs).skeletons := by
    intro row hrow
    obtain ⟨ev, hev, hty, hids, -⟩ := rowOf_of_mem_skeletons hrow
    refine hnone ev ((List.perm_insertionSort _ _).mem_iff.mp hev) ⟨hty, ?_⟩
    rw [hids]
    rfl
  constructor
  · exact List.eq_nil_iff_forall_not_mem.mpr hrows
  · apply List.eq_nil_iff_forall_not_mem.mpr
    intro body hbody
    obtain ⟨row, hrow, -⟩ := belongsTo_of_mem_recentBodies hbody
    exact hrows row hrow

/-- An empty store holds what is reported of a backup that received nothing. -/
theorem materialises_of_none {db : LocalStoreDb} {latestText : Uuid → Option String} {restored : Restored}
    (hskel : db.skeletons.rows = []) (hbody : db.bodies.rows = [])
    (hsummary : restored.summary = summaryOf [restored.manifest] events source.nowMs source.recencyWindowMs)
    (hnone : ∀ ev ∈ events, ¬ Receives ev) : Materialises latestText events restored.result db := by
  obtain ⟨hrows, hbodies⟩ : restored.summary.skeletons = [] ∧ restored.summary.recentBodies = [] := by
    rw [hsummary]
    exact summary_empty hnone
  constructor
  · simp [Restored.result, hskel, hrows]
  · simp [Restored.result, hbody, hbodies]
  · simp [hskel]
  · rintro ev ⟨hlive, hrec⟩
    exact absurd hrec (hnone ev (List.mem_of_mem_filter hlive))
  · simp [hbody]

/-- An empty store does not hold what is reported of a backup that received a message. -/
theorem not_materialises_of_receives {db : LocalStoreDb} {latestText : Uuid → Option String} {restored : Restored}
    (hskel : db.skeletons.rows = [])
    (hsummary : restored.summary = summaryOf [restored.manifest] events source.nowMs source.recencyWindowMs)
    {ev : BackupEvent} (hev : ev ∈ events) (hrec : Receives ev) :
    ¬ Materialises latestText events restored.result db := by
  intro h
  have hne : restored.summary.skeletons ≠ [] := by
    rw [hsummary]
    exact skeletons_ne_nil hev hrec
  have hpos : 0 < restored.summary.skeletons.length := List.length_pos_of_ne_nil hne
  have hcount := h.skeletonCount
  rw [hskel] at hcount
  -- the count saturates, but not at zero
  simp only [Restored.result, List.length_nil] at hcount
  have hmax : 0 < u32Max := by decide
  omega

/-- **A restore into a store without messages materialises what it reports exactly when the segments it reads
receive no message**, whatever the latest texts of the messages are. -/
theorem materialises_iff (h : restoreFromBackup P core source store = (.ok result, store'))
    (hskel : store.db.skeletons.rows = []) (hbody : store.db.bodies.rows = []) (latestText : Uuid → Option String) :
    ∃ events, backupEvents P core source = .ok events ∧
      (Materialises latestText events result store'.db ↔ ∀ ev ∈ events, ¬ Receives ev) := by
  obtain ⟨hdb, restored, events, hevents, rfl, hsummary⟩ := restoreFromBackup_eq_ok h
  refine ⟨events, hevents, ?_⟩
  rw [hdb]
  constructor
  · intro hm ev hev hrec
    exact not_materialises_of_receives hskel hsummary hev hrec hm
  · exact materialises_of_none hskel hbody hsummary

end Materialise

/-! ## A message that is reported and not there -/

/-- A store no restore has touched. -/
def emptyStore : RestoringStore := ⟨LocalStoreDb.fresh Table.empty, ⟨none, 0⟩⟩

/-- The backup of one pass is restored, into any store, and it received a message. -/
theorem onePass_restored_into (store : RestoringStore) : ∃ result store' events,
    restoreFromBackup Primitives.reference (exampleHistory onePass).core (sourceOf 1) store = (.ok result, store') ∧
      backupEvents Primitives.reference (exampleHistory onePass).core (sourceOf 1) = .ok events ∧
      ∃ ev ∈ events, Receives ev := by
  obtain ⟨hok, hkeep, hcovers⟩ := onePass_succeeds
  obtain ⟨head, sink, hhead, hid, hsink, hcaps⟩ := onePass_withinCaps
  obtain ⟨restored, db', events, hrestore, hinner, hr⟩ := recovers_of_headCovers (example_run onePass) hok hkeep
    hhead (by decide +kernel : validateSource (sourceOf 1) = .ok ()) hid rfl hsink hcovers hcaps store.restore
  obtain ⟨hinv, -⟩ := sinkVerdict_of_run (example_run onePass)
  obtain ⟨keys', sink', bundle, events', hkeys', hsink', hhead', hman, hfetched', -, -⟩ := restoreSummary_eq_ok hrestore
  refine ⟨restored.result, ⟨store.db, db'⟩, events', RestoreM.onStore_eq_ok.mpr ⟨hinner, rfl⟩, ?_, ?_⟩
  · refine except_bind_eq_ok.mpr ⟨keys', okOr_eq_ok.mpr hkeys', ?_⟩
    refine except_bind_eq_ok.mpr ⟨sink', okOr_eq_ok.mpr hsink', ?_⟩
    exact except_bind_eq_ok.mpr ⟨bundle, hhead', hfetched'⟩
  · obtain rfl : exampleKeys = keys' := Option.some.inj (hinv.core.keys_eq.symm.trans hkeys')
    obtain rfl : sink = sink' := Option.some.inj (hsink.symm.trans hsink')
    have hfetched := hr.fetched
    rw [hman, hfetched'] at hfetched
    obtain rfl : events' = events := Except.ok.inj hfetched
    -- the journal received a message, and the restore tells the same history
    have hjournal : ∃ ev ∈ messageHistory (exampleHistory onePass).core.db.drained, Receives ev := by decide +kernel
    obtain ⟨ev, hev, hrec⟩ := hjournal
    have hmem : ev ∈ messageHistory events' := hr.history.mem_iff.mpr hev
    exact ⟨ev, (Tombstoning.mem_view.mp hmem).1, hrec⟩

/-- **A restore reports a message that the store does not hold**: it returns `full_restore_complete`, the backup
received a message, and the table is empty. -/
theorem reported_rows_missing : ∃ result store' events,
    restoreFromBackup Primitives.reference (exampleHistory onePass).core (sourceOf 1) emptyStore =
      (.ok result, store') ∧ result.finalState = some .fullRestoreComplete ∧
      backupEvents Primitives.reference (exampleHistory onePass).core (sourceOf 1) = .ok events ∧
      ∀ latestText, ¬ Materialises latestText events result store'.db := by
  obtain ⟨result, store', events, hrestore, hevents, ev, hev, hrec⟩ := onePass_restored_into emptyStore
  obtain ⟨hdb, restored, events', hevents', rfl, hsummary⟩ := restoreFromBackup_eq_ok hrestore
  obtain rfl : events = events' := Except.ok.inj (hevents.symm.trans hevents')
  refine ⟨restored.result, store', events, hrestore, ?_, hevents, ?_⟩
  · show restored.summary.finalState = _
    rw [hsummary]
    rfl
  · intro latestText
    rw [hdb]
    exact not_materialises_of_receives rfl hsummary hev hrec

/-- What the restore of one pass comes to. -/
theorem materialises_one_pass : ∃ result store' events,
    restoreFromBackup Primitives.reference (exampleHistory onePass).core (sourceOf 1) emptyStore =
      (.ok result, store') ∧
      backupEvents Primitives.reference (exampleHistory onePass).core (sourceOf 1) = .ok events ∧
      (Materialises (fun _ => none) events result store'.db ↔ ∀ ev ∈ events, ¬ Receives ev) := by
  obtain ⟨result, store', -, hrestore, -⟩ := onePass_restored_into emptyStore
  obtain ⟨events, hevents, hiff⟩ := materialises_iff hrestore rfl rfl fun _ => none
  exact ⟨result, store', events, hrestore, hevents, hiff⟩

end KChatCore.Restore
