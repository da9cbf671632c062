import KChatCore.Backup.Accounting
import KChatCore.Lib.Savepoint

/-!
# `Backup.FailedBackups` — incremental backups any step of which may fail

`atomic_append_segment_and_manifest` runs its statements inside a savepoint. Here every one of them may fail, and so may
the other steps of a call. A `Session` is a core and the savepoints that are open on its connection.

A failed statement is rolled back, except the last: when the `RELEASE` fails the call returns its error with the
savepoint open and everything in it in effect, while the in-memory chain is not committed.

* `upToPersist_eq_ok` — a persist that goes through is that of a call without faults.
* `failsCleanly_iff` — when a call that fails changes nothing.
* `nothingLost_iff` — and what that means for a whole run.
-/

namespace KChatCore.Backup

open Lib

/-! ## Steps that are made to fail -/

/-- The steps of an incremental call that can fail. -/
inductive BackupStep
  | read
  | seal
  | manifest
  | ledgerRow
  | savepoint
  | selectCursor
  | upsertCursor
  | insertLedgerRow
  | upsertManifestChain
  | release
  | rollback
  | releaseRolledBack
  | upload
deriving DecidableEq, Repr

/-- Which steps of a call fail, and with what error. -/
abbrev Faults := BackupStep → Option Error

/-- No step fails. -/
def noFaults : Faults := fun _ => none

/-- A step, unless it is made to fail. -/
def BackupM.unless {α : Type} (fault : Option Error) (x : BackupM α) : BackupM α :=
  match fault with
  | some e => fun c => (.error e, c)
  | none => x

/-- **A core and the savepoints open on its connection**, innermost first. -/
structure Session where
  core : Core
  savepoints : List (String × BackupDb)

/-- A freshly opened session. -/
def Session.fresh (keys : BackupKeys) (sink : Option BackupSink) : Session := ⟨Core.fresh keys sink, []⟩

/-! ## One call -/

/-- What a call has in hand when it comes to the persist. -/
structure Prepared where
  keys : BackupKeys
  batch : ReadBatch
  tracked : TrackedBackupSegment
  sealed : SealedBackupManifest
  row : LedgerRow

/-- A call up to the persist. -/
def prepare (P : Primitives) (faults : Faults) (nowPersistMs : Int) : BackupM (Option Prepared) := do
  match ← BackupM.unless (faults .read) readStep with
  | none => pure none
  | some batch => do
      let (keys, tracked) ← BackupM.unless (faults .seal) (sealStep P batch)
      let sealed ← BackupM.unless (faults .manifest) (manifestStep P keys [tracked.built])
      let row ← BackupM.unless (faults .ledgerRow) (BackupM.lift (buildLedgerRow P tracked keys.rootKey nowPersistMs))
      pure (some ⟨keys, batch, tracked, sealed, row⟩)

/-- The statements of `atomic_append_segment_and_manifest`. -/
def appendStatements (faults : Faults) (row : LedgerRow) (manifestCbor : Bytes) (generation : Int) (cursorSeq : Nat)
    (updatedAtMs : Int) : List (BackupDb → Except Error BackupDb) :=
  [faulty (faults .selectCursor) fun db =>
      if cursorSeq < db.readCursor then
        .error (.storageMsg ("invariant violated: backup cursor cannot go backwards (current=" ++
          toString db.readCursor ++ ", requested=" ++ toString cursorSeq ++ ")"))
      else .ok db,
    faulty (faults .upsertCursor) fun db => .ok { db with cursorRow := some cursorSeq },
    faulty (faults .insertLedgerRow) fun db =>
      (BackupDb.insertLedgerRow db.ledger row).map fun ledger => { db with ledger := ledger },
    faulty (faults .upsertManifestChain) fun db => .ok { db with chain := some ⟨generation, manifestCbor, updatedAtMs⟩ }]

/-- What goes wrong around them. -/
def savepointFaults (faults : Faults) : SavepointFaults Error where
  savepoint := faults .savepoint
  release := faults .release
  rollback := faults .rollback
  releaseRolledBack := faults .releaseRolledBack

/-- The statements a prepared call persists with. -/
def Prepared.statements (p : Prepared) (P : Primitives) (faults : Faults) (nowPersistMs : Int) :
    List (BackupDb → Except Error BackupDb) :=
  appendStatements faults p.row (P.cborManifest.encode p.sealed.manifest) (wrapI64 p.sealed.manifest.generation)
    p.batch.lastSeq nowPersistMs

/-- `atomic_append_segment_and_manifest`. -/
def Session.persist (P : Primitives) (faults : Faults) (nowPersistMs : Int) (p : Prepared) (s : Session) :
    Except Error Unit × Session :=
  let (r, conn) := withSavepoint (savepointFaults faults) "atomic_backup_persist" (p.statements P faults nowPersistMs)
    ⟨s.core.db, s.savepoints⟩
  (r, ⟨{ s.core with db := conn.db }, conn.savepoints⟩)

/-- A call up to and with the persist. -/
def Session.upToPersist (P : Primitives) (faults : Faults) (nowPersistMs : Int) (s : Session) :
    Except Error (Option Prepared) × Session :=
  match prepare P faults nowPersistMs s.core with
  | (.error e, c) => (.error e, { s with core := c })
  | (.ok none, c) => (.ok none, { s with core := c })
  | (.ok (some p), c) =>
      match Session.persist P faults nowPersistMs p { s with core := c } with
      | (.error e, s') => (.error e, s')
      | (.ok (), s') => (.ok (some p), s')

/-- A call after the persist. -/
def finish (P : Primitives) (faults : Faults) (p : Prepared) : BackupM (BackupResult × List SealedBackupEventRef) := do
  commitIncrementalStep p.sealed.manifest p.tracked
  let (segmentsUploaded, manifestUploaded) ← BackupM.unless (faults .upload) (uploadStep P p.keys [p.tracked] p.sealed)
  pure ({
    segmentsBuilt := 1
    segmentsUploaded := segmentsUploaded
    eventsSegmented := p.batch.events.length
    manifestGeneration := some p.sealed.manifest.generation
    manifestUploaded := manifestUploaded
    deferred := false }, sealedEventRefs p.batch.events)

/-- `run_incremental_backup_inner`, with faults. -/
def Session.runIncrementalBackupInner (P : Primitives) (faults : Faults) (nowPersistMs : Int) (s : Session) :
    Except Error (BackupResult × List SealedBackupEventRef) × Session :=
  match s.upToPersist P faults nowPersistMs with
  | (.error e, s') => (.error e, s')
  | (.ok none, s') => (.ok (BackupResult.default, []), s')
  | (.ok (some p), s') => ((finish P faults p s'.core).1, { s' with core := (finish P faults p s'.core).2 })

/-- A journal write or a call. -/
inductive SessionCall
  | writeJournal (tag : String) (conversationId messageId : Option IdText) (payload : Bytes) (createdAtMs : Int)
  | incremental (faults : Faults) (nowPersistMs : Int)

/-- The session it leaves. -/
def Session.next (P : Primitives) (s : Session) : SessionCall → Session
  | .writeJournal tag conv mid payload ms => { s with core := s.core.insertJournal tag conv mid payload ms }
  | .incremental faults nowPersistMs => (s.runIncrementalBackupInner P faults nowPersistMs).2

/-- One step. -/
def Session.Step (P : Primitives) (s : Session) (call : SessionCall) (s' : Session) : Prop := s.next P call = s'

/-! ## What the parts of a call do -/

section Parts

variable {P : Primitives} {faults : Faults} {nowPersistMs : Int} {c c' : Core} {s s' : Session}

theorem BackupM.unless_eq_ok {α : Type} {fault : Option Error} {x : BackupM α} {a : α}
    (h : BackupM.unless fault x c = (.ok a, c')) : fault = none ∧ x c = (.ok a, c') := by
  cases fault with
  | none => exact ⟨rfl, h⟩
  | some e => exact absurd (congrArg Prod.fst h) (by simp [BackupM.unless])

theorem BackupM.unless_quiet {α : Type} {fault : Option Error} {x : BackupM α} (h : BackupM.Quiet x) :
    BackupM.Quiet (BackupM.unless fault x) := by
  cases fault with
  | none => exact h
  | some e =>
      intro c r c' hrun
      obtain rfl : c = c' := congrArg Prod.snd hrun
      exact Untouched.refl c

/-- Up to the persist a call only draws entropy. -/
theorem prepare_quiet : BackupM.Quiet (prepare P faults nowPersistMs) := by
  unfold prepare
  apply BackupM.Quiet.bind
  · exact BackupM.unless_quiet (BackupM.Quiet.get.bind fun _ => BackupM.Quiet.lift _)
  · intro o
    cases o with
    | none => exact BackupM.Quiet.pure _
    | some batch =>
        apply BackupM.Quiet.bind
        · exact BackupM.unless_quiet (sealStep_quiet P batch)
        · rintro ⟨keys, tracked⟩
          apply BackupM.Quiet.bind
          · exact BackupM.unless_quiet (manifestStep_quiet P keys _)
          · intro sealed
            apply BackupM.Quiet.bind
            · exact BackupM.unless_quiet (BackupM.Quiet.lift _)
            · intro row
              exact BackupM.Quiet.pure _

/-- **What a call has in hand at the persist.** -/
structure PreparedFrom (P : Primitives) (nowPersistMs : Int) (c c' : Core) (p : Prepared) : Prop where
  read : readBatch c.db = .ok (some p.batch)
  keys : c.backup.backupKeys = some p.keys
  drawn : c' = { c with drawn := c.drawn + 1 + 1 }
  id : p.tracked.built.segmentId = Uuid.nowV7 c.drawn
  sealed : WellSealed P p.keys.rootKey p.tracked
  events : segmentEvents P p.tracked = p.batch.events
  tier : p.tracked.tier = .daily
  manifest : ManifestBuilt P p.keys [p.tracked.built] c.backup.chainState.previousManifest (c.drawn + 1) p.sealed
  row : buildLedgerRow P p.tracked p.keys.rootKey nowPersistMs = .ok p.row

theorem prepare_eq_ok {p : Prepared} (h : prepare P faults nowPersistMs c = (.ok (some p), c')) :
    PreparedFrom P nowPersistMs c c' p := by
  unfold prepare at h
  obtain ⟨o, c₀, hstep, h⟩ := BackupM.bind_eq_ok.mp h
  obtain ⟨hread, rfl⟩ := Prod.mk.inj (readStep_eq c ▸ (BackupM.unless_eq_ok hstep).2)
  cases o with
  | none => exact absurd (congrArg Prod.fst h) (by simp [pure])
  | some batch =>
      obtain ⟨⟨keys, tracked⟩, c₁, hseal, h⟩ := BackupM.bind_eq_ok.mp h
      obtain ⟨-, hseal⟩ := BackupM.unless_eq_ok hseal
      obtain ⟨hkeys, rfl, hid, hsealed, hevents, htier⟩ := sealStep_eq_ok hseal
      obtain ⟨sealed, c₂, hmanifest, h⟩ := BackupM.bind_eq_ok.mp h
      obtain ⟨-, hmanifest⟩ := BackupM.unless_eq_ok hmanifest
      obtain ⟨rfl, hbuilt⟩ := manifestStep_eq_ok hmanifest
      obtain ⟨row, c₃, hbuild, h⟩ := BackupM.bind_eq_ok.mp h
      obtain ⟨hrow, rfl⟩ := BackupM.lift_eq_ok.mp (BackupM.unless_eq_ok hbuild).2
      obtain ⟨hp, rfl⟩ := BackupM.pure_eq.mp h
      obtain rfl := Option.some.inj hp
      exact ⟨hread, hkeys, rfl, hid, hsealed, hevents, htier, hbuilt, hrow⟩

/-- Statements that all go through are `appendSegmentAndManifest`. -/
theorem runStatements_append {row : LedgerRow} {manifestCbor : Bytes} {generation : Int} {cursorSeq : Nat}
    {updatedAtMs : Int} {db db' : BackupDb}
    (h : runStatements (appendStatements faults row manifestCbor generation cursorSeq updatedAtMs) db = (.ok (), db')) :
    db.appendSegmentAndManifest row manifestCbor generation cursorSeq updatedAtMs = .ok db' := by
  unfold appendStatements at h
  obtain ⟨db₁, hselect, h⟩ := runStatements_cons_eq_ok.mp h
  obtain ⟨db₂, hupsert, h⟩ := runStatements_cons_eq_ok.mp h
  obtain ⟨db₃, hinsert, h⟩ := runStatements_cons_eq_ok.mp h
  obtain ⟨db₄, hchain, h⟩ := runStatements_cons_eq_ok.mp h
  obtain ⟨-, hselect⟩ := faulty_eq_ok.mp hselect
  obtain rfl := Except.ok.inj (faulty_eq_ok.mp hupsert).2
  obtain ⟨-, hinsert⟩ := faulty_eq_ok.mp hinsert
  obtain rfl := Except.ok.inj (faulty_eq_ok.mp hchain).2
  obtain rfl : { db₃ with chain := some ⟨generation, manifestCbor, updatedAtMs⟩ } = db' := congrArg Prod.snd h
  unfold BackupDb.appendSegmentAndManifest
  split at hselect
  · exact absurd hselect (by simp)
  · next hcursor =>
      obtain rfl := Except.ok.inj hselect
      rw [if_neg hcursor]
      cases hrow : BackupDb.insertLedgerRow db.ledger row with
      | error e =>
          rw [hrow] at hinsert
          exact absurd hinsert (by simp [Except.map])
      | ok ledger =>
          rw [hrow] at hinsert
          obtain rfl := Except.ok.inj hinsert
          rfl

/-- The statements only ever move the cursor forward. -/
theorem readCursor_append {row : LedgerRow} {manifestCbor : Bytes} {generation : Int} {cursorSeq : Nat}
    {updatedAtMs : Int} {db : BackupDb} (hcursor : db.readCursor ≤ cursorSeq) :
    db.readCursor ≤ (runStatements (appendStatements faults row manifestCbor generation cursorSeq updatedAtMs) db).2.readCursor := by
  refine runStatements_invariant (I := fun db' : BackupDb => db.readCursor ≤ db'.readCursor) ?_ (le_refl db.readCursor)
  · intro statement hmem db₁ db₂ hok hle
    simp only [appendStatements, List.mem_cons, List.not_mem_nil, or_false] at hmem
    rcases hmem with rfl | rfl | rfl | rfl
    · obtain ⟨-, hok⟩ := faulty_eq_ok.mp hok
      split at hok
      · exact absurd hok (by simp)
      · exact Except.ok.inj hok ▸ hle
    · obtain rfl := Except.ok.inj (faulty_eq_ok.mp hok).2
      exact hcursor
    · obtain ⟨-, hok⟩ := faulty_eq_ok.mp hok
      cases hrow : BackupDb.insertLedgerRow db₁.ledger row with
      | error e =>
          rw [hrow] at hok
          exact absurd hok (by simp [Except.map])
      | ok ledger =>
          rw [hrow] at hok
          obtain rfl := Except.ok.inj hok
          exact hle
    · obtain rfl := Except.ok.inj (faulty_eq_ok.mp hok).2
      exact hle

/-- **A persist that goes through is the one of a call without faults.** -/
theorem upToPersist_eq_ok {p : Prepared} (h : s.upToPersist P faults nowPersistMs = (.ok (some p), s')) :
    ∃ c, PreparedFrom P nowPersistMs s.core c p ∧
      ∃ db, s.core.db.appendSegmentAndManifest p.row (P.cborManifest.encode p.sealed.manifest)
        (wrapI64 p.sealed.manifest.generation) p.batch.lastSeq nowPersistMs = .ok db ∧
      s' = ⟨{ c with db := db }, s.savepoints⟩ := by
  unfold Session.upToPersist at h
  rcases hprepare : prepare P faults nowPersistMs s.core with ⟨r, c⟩
  rw [hprepare] at h
  rcases r with e | _ | p'
  · exact absurd (congrArg Prod.fst h) (by simp)
  · exact absurd (congrArg Prod.fst h) (by simp)
  · simp only at h
    have hp := prepare_eq_ok hprepare
    have hdb : c.db = s.core.db := (prepare_quiet _ _ _ hprepare).db
    unfold Session.persist at h
    rcases hpersist : withSavepoint (savepointFaults faults) "atomic_backup_persist" (p'.statements P faults nowPersistMs)
      ⟨c.db, s.savepoints⟩ with ⟨r, conn⟩
    simp only [hpersist] at h
    cases r with
    | error e => exact absurd (congrArg Prod.fst h) (by simp)
    | ok a =>
        obtain ⟨hok, rfl⟩ := Prod.mk.inj h
        obtain rfl := Option.some.inj (Except.ok.inj hok)
        obtain ⟨db, hrun, rfl⟩ := withSavepoint_eq_ok hpersist
        exact ⟨c, hp, db, hdb ▸ runStatements_append hrun, rfl⟩

/-- **A call up to and with the persist**, however it ends: the in-memory chain is untouched and the cursor does not go
back. -/
theorem upToPersist_frame {r : Except Error (Option Prepared)} (h : s.upToPersist P faults nowPersistMs = (r, s')) :
    s'.core.backup = s.core.backup ∧ s.core.drawn ≤ s'.core.drawn ∧ s.core.db.readCursor ≤ s'.core.db.readCursor ∧
      (r = .ok none → s'.core.db = s.core.db) := by
  unfold Session.upToPersist at h
  rcases hprepare : prepare P faults nowPersistMs s.core with ⟨r', c⟩
  have hquiet := prepare_quiet _ _ _ hprepare
  rw [hprepare] at h
  rcases r' with e | _ | p
  · obtain ⟨-, rfl⟩ := Prod.mk.inj h
    exact ⟨hquiet.backup, hquiet.drawn, hquiet.db ▸ le_rfl, fun _ => hquiet.db⟩
  · obtain ⟨-, rfl⟩ := Prod.mk.inj h
    exact ⟨hquiet.backup, hquiet.drawn, hquiet.db ▸ le_rfl, fun _ => hquiet.db⟩
  · obtain ⟨-, hlt, -, -⟩ := readBatch_eq_some (prepare_eq_ok hprepare).read
    simp only [Session.persist, hquiet.db] at h
    rcases hpersist : withSavepoint (savepointFaults faults) "atomic_backup_persist"
      (p.statements P faults nowPersistMs) ⟨s.core.db, s.savepoints⟩ with ⟨r'', conn⟩
    have hdb := @withSavepoint_db _ _ (savepointFaults faults) "atomic_backup_persist" (p.statements P faults nowPersistMs)
      ⟨s.core.db, s.savepoints⟩
    rw [hpersist] at h hdb
    have hcursor : s.core.db.readCursor ≤ conn.db.readCursor := by
      rcases hdb with hdb | hdb
      · rw [hdb]
      · rw [hdb]
        exact readCursor_append hlt.le
    cases r'' with
    | error e =>
        obtain ⟨rfl, rfl⟩ := Prod.mk.inj h
        exact ⟨hquiet.backup, hquiet.drawn, hcursor, fun hnone => absurd hnone (by simp)⟩
    | ok a =>
        obtain ⟨rfl, rfl⟩ := Prod.mk.inj h
        exact ⟨hquiet.backup, hquiet.drawn, hcursor, fun hnone => absurd hnone (by simp)⟩

/-- After the persist only the in-memory chain changes, and the sink. -/
theorem finish_frame (faults : Faults) (p : Prepared) (c : Core) :
    (finish P faults p c).2.db = c.db ∧ (finish P faults p c).2.backup = c.backup.commitIncremental p.sealed.manifest p.tracked ∧
      (finish P faults p c).2.drawn = c.drawn := by
  rcases hrun : finish P faults p c with ⟨r, c'⟩
  unfold finish at hrun
  rcases BackupM.bind_cases hrun with ⟨e, he, -⟩ | ⟨_, c₁, hcommit, hrun⟩
  · exact absurd (congrArg Prod.fst he) (by simp [commitIncrementalStep, BackupM.modify])
  have hc₁ := BackupM.modify_eq_ok.mp hcommit
  have hupload : ∀ {r : Except Error (Nat × Bool)} {c₂ : Core},
      BackupM.unless (faults .upload) (uploadStep P p.keys [p.tracked] p.sealed) c₁ = (r, c₂) →
      c₂.db = c₁.db ∧ c₂.backup = c₁.backup ∧ c₂.drawn = c₁.drawn := by
    intro r c₂ h
    cases hfault : faults .upload with
    | some e =>
        rw [hfault] at h
        obtain rfl : c₁ = c₂ := congrArg Prod.snd h
        exact ⟨rfl, rfl, rfl⟩
    | none =>
        rw [hfault] at h
        exact uploadStep_frame h
  rcases BackupM.bind_cases hrun with ⟨e, he, -⟩ | ⟨up, c₂, hup, hrun⟩
  · rw [← hc₁] at hupload
    rw [← hc₁] at he
    exact hupload he
  · obtain rfl : c₂ = c' := congrArg Prod.snd hrun
    rw [← hc₁] at hupload
    rw [← hc₁] at hup
    exact hupload hup

end Parts

/-! ## Calls that fail -/

/-- **A call that fails before or inside the persist changes nothing** that is persisted or in memory. -/
def SessionCall.FailsCleanly (P : Primitives) (s : Session) : SessionCall → Prop
  | writeJournal .. => True
  | incremental faults nowPersistMs => ∀ e s', s.upToPersist P faults nowPersistMs = (.error e, s') →
      s'.core.db = s.core.db ∧ s'.core.backup = s.core.backup

/-- If the call comes to the persist: once its statements have changed something, the `RELEASE` of a complete body is not
refused, nor the `ROLLBACK TO` of an incomplete one. -/
def SessionCall.Sound (P : Primitives) (s : Session) : SessionCall → Prop
  | writeJournal .. => True
  | incremental faults nowPersistMs => ∀ p c, prepare P faults nowPersistMs s.core = (.ok (some p), c) →
      SavepointSound (savepointFaults faults) (p.statements P faults nowPersistMs) s.core.db

/-- **The segments of the ledger partition the drained events**: in order, each once. -/
def Partitioned (P : Primitives) (keys : BackupKeys) (s : Session) : Prop :=
  persistedEvents P keys.rootKey s.core.db = s.core.db.drained

/-- **Nothing is lost or sealed twice along a run.** -/
structure NothingLost (P : Primitives) (keys : BackupKeys) (tr : List (Session × SessionCall)) (s : Session) : Prop where
  clean : ∀ p ∈ tr, p.2.FailsCleanly P p.1
  cursor : ∀ p ∈ tr, p.1.core.db.readCursor ≤ (p.1.next P p.2).core.db.readCursor
  partitioned : (∀ p ∈ tr, Partitioned P keys p.1) ∧ Partitioned P keys s

section Calls

variable {P : Primitives} {keys : BackupKeys} {call : SessionCall} {s s' : Session} {tr : List (Session × SessionCall)}

/-- **When a call that fails changes nothing.** -/
theorem failsCleanly_iff : call.FailsCleanly P s ↔ call.Sound P s := by
  cases call with
  | writeJournal tag conv mid payload ms => exact Iff.rfl
  | incremental faults nowPersistMs =>
      rcases hprepare : prepare P faults nowPersistMs s.core with ⟨r, c⟩
      have hquiet := prepare_quiet _ _ _ hprepare
      simp only [SessionCall.FailsCleanly, SessionCall.Sound, Session.upToPersist, hprepare]
      rcases r with e | _ | p
      · -- an error before the persist
        simp only [Prod.mk.injEq]
        constructor
        · rintro - p c' ⟨hp, -⟩
          exact absurd hp (by simp)
        · rintro - e' s' ⟨-, rfl⟩
          exact ⟨hquiet.db, hquiet.backup⟩
      · simp only [Prod.mk.injEq]
        constructor
        · rintro - p c' ⟨hp, -⟩
          exact absurd hp (by simp)
        · rintro - e' s' ⟨hp, -⟩
          exact absurd hp (by simp)
      · -- the persist decides
        have hrestores : (∀ e conn, withSavepoint (savepointFaults faults) "atomic_backup_persist"
            (p.statements P faults nowPersistMs) ⟨s.core.db, s.savepoints⟩ = (.error e, conn) → conn.db = s.core.db) ↔
            SavepointSound (savepointFaults faults) (p.statements P faults nowPersistMs) s.core.db :=
          withSavepoint_restores_iff
        simp only [Session.persist, hquiet.db]
        rcases hpersist : withSavepoint (savepointFaults faults) "atomic_backup_persist"
          (p.statements P faults nowPersistMs) ⟨s.core.db, s.savepoints⟩ with ⟨r, conn⟩
        rw [hpersist] at hrestores
        constructor
        · intro hclean p' c' hp'
          obtain ⟨hp', -⟩ := Prod.mk.inj hp'
          obtain rfl := Option.some.inj (Except.ok.inj hp')
          apply hrestores.mp
          intro e conn' heq
          obtain ⟨rfl, rfl⟩ := Prod.mk.inj heq
          exact (hclean e _ rfl).1
        · intro hsound e s' heq
          cases r with
          | ok a => exact absurd (congrArg Prod.fst heq) (by simp)
          | error e' =>
              obtain ⟨-, rfl⟩ := Prod.mk.inj heq
              have hdb := hrestores.mpr (hsound p c rfl) e' conn rfl
              exact ⟨hdb, hquiet.backup⟩

/-- **The cursor never goes back**, whatever fails. -/
theorem readCursor_next (s : Session) (call : SessionCall) :
    s.core.db.readCursor ≤ (s.next P call).core.db.readCursor := by
  cases call with
  | writeJournal tag conv mid payload ms => exact le_rfl
  | incremental faults nowPersistMs =>
      show _ ≤ (s.runIncrementalBackupInner P faults nowPersistMs).2.core.db.readCursor
      unfold Session.runIncrementalBackupInner
      rcases hup : s.upToPersist P faults nowPersistMs with ⟨r, s₁⟩
      obtain ⟨-, -, hmoves, -⟩ := upToPersist_frame hup
      rcases r with e | _ | p
      · exact hmoves
      · exact hmoves
      · show _ ≤ (finish P faults p s₁.core).2.db.readCursor
        rw [(finish_frame faults p s₁.core).1]
        exact hmoves

/-! ## Runs -/

/-- **What holds between calls**: the invariant of the core, a cursor inside the journal, and the partition. -/
structure Intact (P : Primitives) (keys : BackupKeys) (s : Session) : Prop where
  core : CoreInv P keys s.core
  cursor : s.core.db.readCursor ≤ s.core.db.journal.lastSeq
  partitioned : Partitioned P keys s

theorem intact_fresh (P : Primitives) (keys : BackupKeys) (sink : Option BackupSink) : Intact P keys (.fresh keys sink) where
  core := coreInv_fresh P keys sink
  cursor := le_rfl
  partitioned := rfl

theorem appendSegmentAndManifest_eq_ok {db db' : BackupDb} {row : LedgerRow} {manifestCbor : Bytes} {generation : Int}
    {cursorSeq : Nat} {updatedAtMs : Int}
    (h : db.appendSegmentAndManifest row manifestCbor generation cursorSeq updatedAtMs = .ok db') :
    db' = { db with
      cursorRow := some cursorSeq
      ledger := db.ledger ++ [row]
      chain := some ⟨generation, manifestCbor, updatedAtMs⟩ } := by
  unfold BackupDb.appendSegmentAndManifest at h
  split at h
  · exact absurd h (by simp)
  · cases hinsert : BackupDb.insertLedgerRow db.ledger row with
    | error e =>
        rw [hinsert] at h
        exact absurd h (by simp [Except.map])
    | ok ledger =>
        obtain ⟨-, rfl⟩ := BackupDb.insertLedgerRow_eq_ok.mp hinsert
        rw [hinsert] at h
        exact (Except.ok.inj h).symm

/-- Only the entropy of a session has moved on. -/
theorem Intact.of_eq (h : Intact P keys s) (hdb : s'.core.db = s.core.db) (hbackup : s'.core.backup = s.core.backup)
    (hdrawn : s.core.drawn ≤ s'.core.drawn) : Intact P keys s' where
  core := h.core.of_eq hdb hbackup hdrawn
  cursor := by
    rw [hdb]
    exact h.cursor
  partitioned := by
    unfold Partitioned
    rw [hdb]
    exact h.partitioned

/-- A journal write. -/
theorem Intact.writeJournal (h : Intact P keys s) (tag : String) (conv mid : Option IdText) (payload : Bytes) (ms : Int) :
    Intact P keys { s with core := s.core.insertJournal tag conv mid payload ms } where
  core := h.core.insertJournal tag conv mid payload ms
  cursor := by
    show s.core.db.readCursor ≤ (s.core.db.journal.insert tag conv mid payload ms).lastSeq
    rw [lastSeq_insert]
    exact h.cursor.trans (Nat.le_succ _)
  partitioned := by
    show persistedEvents P keys.rootKey s.core.db =
      (s.core.db.journal.insert tag conv mid payload ms).typedUpTo s.core.db.readCursor
    rw [typedUpTo_insert _ _ _ _ _ _ h.cursor]
    exact h.partitioned

/-- **A persist that goes through appends the segment of what it drained.** -/
theorem Intact.persisted {faults : Faults} {nowPersistMs : Int} {p : Prepared} (h : Intact P keys s)
    (hup : s.upToPersist P faults nowPersistMs = (.ok (some p), s')) :
    Intact P keys { s' with core := (finish P faults p s'.core).2 } := by
  obtain ⟨c, hp, db, hdb, rfl⟩ := upToPersist_eq_ok hup
  obtain rfl := appendSegmentAndManifest_eq_ok hdb
  obtain rfl := hp.drawn
  have hkeys : p.keys = keys := Option.some.inj (hp.keys.symm.trans h.core.keys_eq)
  obtain ⟨hne, hlt, hlast, hdrained⟩ := readBatch_eq_some hp.read
  -- the core after the commit, as the committed one of a call without faults
  have hcommitted : IncrementalCommitted P nowPersistMs s.core
      { s.core with
        drawn := s.core.drawn + 1 + 1
        db := { s.core.db with
          cursorRow := some p.batch.lastSeq
          ledger := s.core.db.ledger ++ [p.row]
          chain := some ⟨wrapI64 p.sealed.manifest.generation, P.cborManifest.encode p.sealed.manifest, nowPersistMs⟩ }
        backup := s.core.backup.commitIncremental p.sealed.manifest p.tracked }
      p.keys p.batch p.tracked p.sealed := by
    refine ⟨⟨hp.keys, List.Sublist.refl _, ?_, ?_, hp.manifest, rfl, rfl, rfl, rfl, rfl⟩, hp.read, hp.events, hp.tier,
      p.row, hp.row, rfl⟩
    · intro t ht
      rw [List.mem_singleton.mp ht]
      exact hp.sealed
    · rw [ledgerIds, List.map_singleton, hp.id]
      rfl
  obtain ⟨hfdb, hfbackup, hfdrawn⟩ := finish_frame (P := P) faults p { s.core with
    drawn := s.core.drawn + 1 + 1
    db := { s.core.db with
      cursorRow := some p.batch.lastSeq
      ledger := s.core.db.ledger ++ [p.row]
      chain := some ⟨wrapI64 p.sealed.manifest.generation, P.cborManifest.encode p.sealed.manifest, nowPersistMs⟩ } }
  refine ⟨?_, ?_, ?_⟩
  · subst hkeys
    exact (h.core.committed hcommitted.committed (hcommitted.hydrates h.core)).of_eq hfdb hfbackup hfdrawn.ge
  · rw [hfdb]
    exact hlast
  · unfold Partitioned
    rw [hfdb]
    show persistedEvents P keys.rootKey ⟨s.core.db.journal, _, s.core.db.ledger ++ [p.row], _⟩ =
      s.core.db.journal.typedUpTo p.batch.lastSeq
    rw [persistedEvents, persistedLedger_append s.core.db _ _ (hkeys ▸ hp.row), ledgerEvents_append, ledgerEvents_singleton,
      hp.events, hdrained]
    exact congrArg (· ++ p.batch.events) h.partitioned

/-- **One step keeps it**, if a call that fails changes nothing. -/
theorem intact_next (h : Intact P keys s) (hclean : call.FailsCleanly P s) : Intact P keys (s.next P call) := by
  cases call with
  | writeJournal tag conv mid payload ms => exact h.writeJournal tag conv mid payload ms
  | incremental faults nowPersistMs =>
      show Intact P keys (s.runIncrementalBackupInner P faults nowPersistMs).2
      unfold Session.runIncrementalBackupInner
      rcases hup : s.upToPersist P faults nowPersistMs with ⟨r, s₁⟩
      obtain ⟨hbackup, hdrawn, -, hnone⟩ := upToPersist_frame hup
      rcases r with e | _ | p
      · exact h.of_eq (hclean e s₁ hup).1 hbackup hdrawn
      · exact h.of_eq (hnone rfl) hbackup hdrawn
      · exact h.persisted hup

/-- **Nothing is lost along a run exactly when each of its calls is sound.** -/
theorem nothingLost_iff {sink : Option BackupSink} (hrun : Run (Session.Step P) (.fresh keys sink) tr s) :
    NothingLost P keys tr s ↔ ∀ p ∈ tr, p.2.Sound P p.1 := by
  constructor
  · intro h p hp
    exact failsCleanly_iff.mp (h.clean p hp)
  · intro h
    have hclean : ∀ p ∈ tr, p.2.FailsCleanly P p.1 := by
      intro p hp
      exact failsCleanly_iff.mpr (h p hp)
    -- calls that fail cleanly keep the invariant
    have hintact := hrun.invariant_throughout (I := Intact P keys)
      (G := fun s call => SessionCall.FailsCleanly P s call) (by
      rintro s call s' hs hcall rfl
      exact intact_next hs hcall) hclean (intact_fresh P keys sink)
    refine ⟨hclean, ?_, ?_, hintact.2.partitioned⟩
    · intro p _
      exact readCursor_next p.1 p.2
    · intro p hp
      exact (hintact.1 p hp).partitioned

end Calls

/-- A call without faults is sound. -/
theorem sound_noFaults (P : Primitives) (s : Session) (nowPersistMs : Int) :
    (SessionCall.incremental noFaults nowPersistMs).Sound P s := by
  intro p c _
  exact ⟨fun _ _ _ _ => rfl, fun _ _ _ _ _ => rfl⟩

/-! One message arrives, and is backed up. -/

/-- The journal write. -/
def messageArrives : SessionCall :=
  .writeJournal "message_received" (some (Uuid.toText ⟨1⟩)) (some (Uuid.toText ⟨2⟩)) [] 1000

/-- The session after it. -/
def oneMessage : Session := (Session.fresh exampleKeys none).next .reference messageArrives

theorem nothingLost_one_message : ∃ tr s, NothingLost .reference exampleKeys tr s ∧ tr.length = 2 := by
  have hwrite : Run (Session.Step .reference) (.fresh exampleKeys none) _ oneMessage := Run.single (a := messageArrives) rfl
  have hrun := hwrite.trans (Run.single (a := .incremental noFaults 2000) rfl)
  refine ⟨_, _, (nothingLost_iff hrun).mpr ?_, rfl⟩
  intro p hp
  rcases List.mem_cons.mp hp with rfl | hp
  · trivial
  · obtain rfl := List.mem_singleton.mp hp
    exact sound_noFaults .reference oneMessage 2000

/-- What a call reads from it. -/
def messageBatch : ReadBatch := ⟨[⟨.messageReceived, some ⟨1⟩, some ⟨2⟩, [], 1000⟩], 1⟩

/-- Only the `RELEASE` fails. -/
def releaseBusy : Faults := fun step => if step = .release then some (.storageMsg "rusqlite: database is locked") else none

/-- **A `RELEASE` that fails leaves the cursor moved**: the call returns an error, and the message is not in memory. -/
theorem cursor_moved_by_failed_call : ∃ tr s, Run (Session.Step .reference) (.fresh exampleKeys none) tr s ∧
    ¬ NothingLost .reference exampleKeys tr s := by
  have hwrite : Run (Session.Step .reference) (.fresh exampleKeys none) _ oneMessage := Run.single (a := messageArrives) rfl
  have hrun := hwrite.trans (Run.single (a := .incremental releaseBusy 2000) rfl)
  refine ⟨_, _, hrun, ?_⟩
  intro hlost
  have hclean := hlost.clean (oneMessage, .incremental releaseBusy 2000) (by simp)
  have hsound := failsCleanly_iff.mp hclean
  -- the call comes to the persist
  have hbatch : readBatch oneMessage.core.db = .ok (some messageBatch) := rfl
  have hread : readStep oneMessage.core = (.ok (some messageBatch), oneMessage.core) := by
    rw [readStep_eq, hbatch]
  obtain ⟨tracked, hseal⟩ := @sealStep_isOk .reference oneMessage.core messageBatch exampleKeys rfl (by simp [messageBatch])
  obtain ⟨-, -, -, hsealed, -, -⟩ := sealStep_eq_ok hseal
  have hlink : chainLink .reference oneMessage.core.backup.chainState.previousManifest = .ok (0, ByteArr.zeros 32) := rfl
  obtain ⟨sealed, hmanifest⟩ : ∃ sealed, manifestStep .reference exampleKeys [tracked.built]
      { oneMessage.core with drawn := oneMessage.core.drawn + 1 } = (.ok sealed, _) := manifestStep_isOk _ _ hlink
  obtain ⟨row, hrow⟩ := buildLedgerRow_isOk .reference hsealed.segmentType exampleKeys.rootKey 2000
  have hprepare : prepare .reference releaseBusy 2000 oneMessage.core =
      (.ok (some ⟨exampleKeys, messageBatch, tracked, sealed, row⟩), { oneMessage.core with drawn := oneMessage.core.drawn + 1 + 1 }) := by
    refine BackupM.bind_eq_ok.mpr ⟨_, _, hread, ?_⟩
    refine BackupM.bind_eq_ok.mpr ⟨_, _, hseal, ?_⟩
    refine BackupM.bind_eq_ok.mpr ⟨_, _, hmanifest, ?_⟩
    exact BackupM.bind_eq_ok.mpr ⟨_, _, BackupM.lift_eq_ok.mpr ⟨hrow, rfl⟩, rfl⟩
  have hnone := (hsound _ _ hprepare).release rfl _ rfl (by
    intro heq
    have hcursor : some 1 = (none : Option Nat) := congrArg BackupDb.cursorRow heq
    exact absurd hcursor (by simp))
  exact absurd hnone (by decide)

end KChatCore.Backup
