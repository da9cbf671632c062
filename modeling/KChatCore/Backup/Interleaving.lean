import KChatCore.Backup.Invariant
import KChatCore.Lib.Run

/-!
# `Backup.Interleaving` — backup calls that run concurrently

Neither pipeline holds a lock from one step to the next, so concurrent calls interleave step by step. A `Call`
is a call in flight: the point it has reached and what it holds there. A `BackupSystem` is the core and the
calls in flight; an action writes a journal row, starts a call, or lets one call take its next step.

The system also keeps two records that no step reads: the events that compactions have erased, and the
manifests persisted so far.

* `Advance` — what one step of a call does, one case for each step; `advance_of_eq` says a step is one of them.
* `Moved` — what one action does, likewise with `moved_of_next`.
-/

namespace KChatCore.Backup

open Lib

/-! ## Calls in flight -/

/-- The ledger a compaction writes. -/
def newLedger (snapshot : List TrackedBackupSegment) (nowMs : Int) (outputs : List TrackedBackupSegment) :
    List TrackedBackupSegment := keptSegments snapshot (planFor snapshot nowMs) ++ outputs

/-- **A call in flight**, named by the last step it took. `readCursor` and `previous` are what the read step and
the manifest step found. -/
inductive Call
  | incrementalRead (readCursor : Nat) (batch : ReadBatch)
  | incrementalSealed (readCursor : Nat) (batch : ReadBatch) (keys : BackupKeys) (tracked : TrackedBackupSegment)
  | incrementalChained (readCursor : Nat) (batch : ReadBatch) (keys : BackupKeys)
      (tracked : TrackedBackupSegment) (previous : Option BackupManifest) (sealed : SealedBackupManifest)
  | incrementalPersisted (keys : BackupKeys) (tracked : TrackedBackupSegment) (sealed : SealedBackupManifest)
  | compactionSnapshot (nowMs : Int) (keys : BackupKeys) (snapshot : List TrackedBackupSegment)
  | compactionResealed (nowMs : Int) (keys : BackupKeys) (snapshot outputs : List TrackedBackupSegment)
  | compactionChained (nowMs : Int) (keys : BackupKeys) (snapshot outputs : List TrackedBackupSegment)
      (previous : Option BackupManifest) (sealed : SealedBackupManifest)
  | compactionPersisted (nowMs : Int) (keys : BackupKeys) (snapshot outputs : List TrackedBackupSegment)
      (sealed : SealedBackupManifest)
  | uploading (keys : BackupKeys) (outputs : List TrackedBackupSegment) (sealed : SealedBackupManifest)

namespace Call

/-- Start `run_incremental_backup_inner`; with nothing to read there is no call. -/
def startIncremental : BackupM (Option Call) := do
  let c ← BackupM.get
  let o ← readStep
  pure (o.map fun batch => .incrementalRead c.db.readCursor batch)

/-- Start `compact_backup`; without a plan there is no call. -/
def startCompaction (nowMs : Int) : BackupM (Option Call) := do
  let (keys, snapshot) ← snapshotStep
  if snapshot.isEmpty || (planFor snapshot nowMs).groups.isEmpty then pure none
  else pure (some (.compactionSnapshot nowMs keys snapshot))

/-- **The next step of a call**; `none` once it has returned. -/
def advance (P : Primitives) (nowPersistMs : Int) : Call → BackupM (Option Call)
  | .incrementalRead readCursor batch => do
      let (keys, tracked) ← sealStep P batch
      pure (some (.incrementalSealed readCursor batch keys tracked))
  | .incrementalSealed readCursor batch keys tracked => do
      let c ← BackupM.get
      let sealed ← manifestStep P keys [tracked.built]
      pure (some (.incrementalChained readCursor batch keys tracked c.backup.chainState.previousManifest sealed))
  | .incrementalChained _ batch keys tracked _ sealed => do
      persistIncrementalStep P keys tracked sealed.manifest batch.lastSeq nowPersistMs
      pure (some (.incrementalPersisted keys tracked sealed))
  | .incrementalPersisted keys tracked sealed => do
      commitIncrementalStep sealed.manifest tracked
      pure (some (.uploading keys [tracked] sealed))
  | .compactionSnapshot nowMs keys snapshot => do
      let tally ← resealGroups P keys snapshot CompactionTally.start (planFor snapshot nowMs).groups
      pure (some (.compactionResealed nowMs keys snapshot tally.outputs))
  | .compactionResealed nowMs keys snapshot outputs => do
      let c ← BackupM.get
      let sealed ← manifestStep P keys ((newLedger snapshot nowMs outputs).map TrackedBackupSegment.built)
      pure (some (.compactionChained nowMs keys snapshot outputs c.backup.chainState.previousManifest sealed))
  | .compactionChained nowMs keys snapshot outputs _ sealed => do
      persistCompactionStep P keys (newLedger snapshot nowMs outputs) sealed.manifest nowPersistMs
      pure (some (.compactionPersisted nowMs keys snapshot outputs sealed))
  | .compactionPersisted nowMs keys snapshot outputs sealed => do
      commitCompactionStep sealed.manifest (newLedger snapshot nowMs outputs)
      pure (some (.uploading keys outputs sealed))
  | .uploading keys outputs sealed => do
      let _ ← uploadStep P keys outputs sealed
      pure none

/-- The call is between its persist and its commit. -/
def isPending : Call → Bool
  | .incrementalPersisted .. => true
  | .compactionPersisted .. => true
  | _ => false

/-- The manifest a call has just persisted. -/
def persistedManifest : Call → List BackupManifest
  | .incrementalPersisted _ _ sealed => [sealed.manifest]
  | .compactionPersisted _ _ _ _ sealed => [sealed.manifest]
  | _ => []

end Call

/-- The events the tombstone filter drops from a group. -/
def erasedFrom (events : List BackupEvent) : List BackupEvent :=
  events.filter fun e => backupTombstones.isTombstone e || backupTombstones.covered events e

/-- The events a call's persist erases: those its compaction dropped from each group. -/
def Call.erasedEvents (P : Primitives) : Call → List BackupEvent
  | .compactionPersisted nowMs _ snapshot _ _ => (groupEvents P snapshot nowMs).flatMap erasedFrom
  | _ => []

/-! ## The system -/

/-- **The core and the calls in flight**, with the record of what was erased and what was persisted. -/
structure BackupSystem where
  core : Core
  calls : List Call
  erased : List BackupEvent
  persisted : List BackupManifest

/-- What can happen next. -/
inductive Action
  | writeJournal (tag : String) (conversationId messageId : Option IdText) (payload : Bytes) (createdAtMs : Int)
  | startIncremental
  | startCompaction (nowMs : Int)
  | advance (index : Nat) (nowPersistMs : Int)

namespace BackupSystem

/-- A fresh core and no calls. -/
def init (keys : BackupKeys) (sink : Option BackupSink) : BackupSystem := ⟨Core.fresh keys sink, [], [], []⟩

/-- Put a call's next state in its place; a call that fails or returns leaves. -/
def settle (P : Primitives) (s : BackupSystem) (before after : List Call) :
    Except Error (Option Call) × Core → BackupSystem
  | (.ok o, c) => {
      core := c
      calls := before ++ o.toList ++ after
      erased := s.erased ++ o.toList.flatMap (Call.erasedEvents P)
      persisted := s.persisted ++ o.toList.flatMap Call.persistedManifest }
  | (.error _, c) => { s with core := c, calls := before ++ after }

/-- **One action.** -/
def next (P : Primitives) (s : BackupSystem) : Action → BackupSystem
  | .writeJournal tag conv mid payload ms => { s with core := s.core.insertJournal tag conv mid payload ms }
  | .startIncremental => s.settle P s.calls [] (Call.startIncremental s.core)
  | .startCompaction nowMs => s.settle P s.calls [] (Call.startCompaction nowMs s.core)
  | .advance index nowPersistMs =>
      match s.calls[index]? with
      | none => s
      | some call =>
          s.settle P (s.calls.take index) (s.calls.drop (index + 1)) (call.advance P nowPersistMs s.core)

/-- The step relation of the system. -/
def Step (P : Primitives) (s : BackupSystem) (a : Action) (s' : BackupSystem) : Prop := s.next P a = s'

/-- The system after a list of actions. -/
def runActions (P : Primitives) (s : BackupSystem) (actions : List Action) : BackupSystem :=
  actions.foldl (next P) s

/-- The trace of a list of actions. -/
def trace (P : Primitives) : BackupSystem → List Action → List (BackupSystem × Action)
  | _, [] => []
  | s, a :: actions => (s, a) :: trace P (s.next P a) actions

theorem run_actions (P : Primitives) (s : BackupSystem) (actions : List Action) :
    Run (Step P) s (trace P s actions) (s.runActions P actions) := by
  induction actions generalizing s with
  | nil => exact Run.refl
  | cons a actions ih => exact (Run.single (show Step P s a (s.next P a) from rfl)).trans (ih (s.next P a))

end BackupSystem

/-! ## What one step of a call does -/

/-- **One step of a call**, from core `c`: it leaves without a trace, or takes the step its place says. -/
inductive Advance (P : Primitives) (nowPersistMs : Int) (c : Core) : Call → Option Call → Core → Prop
  | left {call : Call} {c' : Core} : call.isPending = false → c'.db = c.db → c'.backup = c.backup →
      c.drawn ≤ c'.drawn → Advance P nowPersistMs c call none c'
  | sealed {readCursor : Nat} {batch : ReadBatch} {keys : BackupKeys} {tracked : TrackedBackupSegment} :
      c.backup.backupKeys = some keys → tracked.built.segmentId = Uuid.nowV7 c.drawn →
      segmentEvents P tracked = batch.events →
      Advance P nowPersistMs c (.incrementalRead readCursor batch)
        (some (.incrementalSealed readCursor batch keys tracked)) { c with drawn := c.drawn + 1 }
  | chained {readCursor : Nat} {batch : ReadBatch} {keys : BackupKeys} {tracked : TrackedBackupSegment}
      {sealed : SealedBackupManifest} :
      ManifestBuilt P keys [tracked.built] c.backup.chainState.previousManifest c.drawn sealed →
      Advance P nowPersistMs c (.incrementalSealed readCursor batch keys tracked)
        (some (.incrementalChained readCursor batch keys tracked c.backup.chainState.previousManifest sealed))
        { c with drawn := c.drawn + 1 }
  | persisted {readCursor : Nat} {batch : ReadBatch} {keys : BackupKeys} {tracked : TrackedBackupSegment}
      {previous : Option BackupManifest} {sealed : SealedBackupManifest} {row : LedgerRow} :
      buildLedgerRow P tracked keys.rootKey nowPersistMs = .ok row → c.db.readCursor ≤ batch.lastSeq →
      Advance P nowPersistMs c (.incrementalChained readCursor batch keys tracked previous sealed)
        (some (.incrementalPersisted keys tracked sealed))
        { c with db := { c.db with
          cursorRow := some batch.lastSeq
          ledger := c.db.ledger ++ [row]
          chain := some ⟨wrapI64 sealed.manifest.generation, P.cborManifest.encode sealed.manifest,
            nowPersistMs⟩ } }
  | committed {keys : BackupKeys} {tracked : TrackedBackupSegment} {sealed : SealedBackupManifest} :
      Advance P nowPersistMs c (.incrementalPersisted keys tracked sealed)
        (some (.uploading keys [tracked] sealed))
        { c with backup := c.backup.commitIncremental sealed.manifest tracked }
  | resealed {nowMs : Int} {keys : BackupKeys} {snapshot outputs : List TrackedBackupSegment} {c' : Core} :
      ledgerEvents P outputs = (groupEvents P snapshot nowMs).flatMap backupTombstones.resolve →
      ledgerIds outputs = (List.range' c.drawn outputs.length).map Uuid.nowV7 →
      c' = { c with drawn := c.drawn + outputs.length } →
      Advance P nowPersistMs c (.compactionSnapshot nowMs keys snapshot)
        (some (.compactionResealed nowMs keys snapshot outputs)) c'
  | compactionChained {nowMs : Int} {keys : BackupKeys} {snapshot outputs : List TrackedBackupSegment}
      {sealed : SealedBackupManifest} :
      ManifestBuilt P keys ((newLedger snapshot nowMs outputs).map TrackedBackupSegment.built)
        c.backup.chainState.previousManifest c.drawn sealed →
      Advance P nowPersistMs c (.compactionResealed nowMs keys snapshot outputs)
        (some (.compactionChained nowMs keys snapshot outputs c.backup.chainState.previousManifest sealed))
        { c with drawn := c.drawn + 1 }
  | compactionPersisted {nowMs : Int} {keys : BackupKeys} {snapshot outputs : List TrackedBackupSegment}
      {previous : Option BackupManifest} {sealed : SealedBackupManifest} {rows : List LedgerRow} :
      buildLedgerRows P keys.rootKey nowPersistMs (newLedger snapshot nowMs outputs) = .ok rows →
      Advance P nowPersistMs c (.compactionChained nowMs keys snapshot outputs previous sealed)
        (some (.compactionPersisted nowMs keys snapshot outputs sealed))
        { c with db := { c.db with
          ledger := rows
          chain := some ⟨wrapI64 sealed.manifest.generation, P.cborManifest.encode sealed.manifest,
            nowPersistMs⟩ } }
  | compactionCommitted {nowMs : Int} {keys : BackupKeys} {snapshot outputs : List TrackedBackupSegment}
      {sealed : SealedBackupManifest} :
      Advance P nowPersistMs c (.compactionPersisted nowMs keys snapshot outputs sealed)
        (some (.uploading keys outputs sealed))
        { c with backup := c.backup.commitCompaction sealed.manifest (newLedger snapshot nowMs outputs) }

/-- The call a step leaves behind: none when it failed. -/
def stepOutcome : Except Error (Option Call) → Option Call
  | .ok o => o
  | .error _ => none

section AdvanceOf

variable {P : Primitives} {nowPersistMs : Int} {c c' : Core}

/-- A step that leaves everything but the entropy alone and does not go on. -/
theorem Advance.of_untouched {call : Call} (hpending : call.isPending = false) (h : Untouched c c') :
    Advance P nowPersistMs c call none c' := .left hpending h.db h.backup h.drawn

/-- **A step of a call is one of the cases.** -/
theorem advance_of_eq {call : Call} {r : Except Error (Option Call)}
    (h : call.advance P nowPersistMs c = (r, c')) : Advance P nowPersistMs c call (stepOutcome r) c' := by
  -- one phase of a call, one step of its monadic body; an error leaves what the step read
  cases call with
  | incrementalRead readCursor batch =>
      rcases BackupM.bind_cases h with ⟨e, he, rfl⟩ | ⟨⟨keys, tracked⟩, c₁, hseal, h⟩
      · exact .of_untouched rfl (sealStep_quiet P batch c _ _ he)
      · obtain ⟨hkeys, rfl, hid, _, hev, _⟩ := sealStep_eq_ok hseal
        obtain ⟨rfl, rfl⟩ := Prod.mk.inj h
        exact .sealed hkeys hid hev
  | incrementalSealed readCursor batch keys tracked =>
      rcases BackupM.bind_cases h with ⟨e, he, rfl⟩ | ⟨c₀, c₁, hget, h⟩
      · exact .of_untouched rfl (BackupM.Quiet.get c _ _ he)
      obtain ⟨rfl, rfl⟩ := BackupM.get_eq_ok.mp hget
      rcases BackupM.bind_cases h with ⟨e, he, rfl⟩ | ⟨sealed, c₁, hman, h⟩
      · exact .of_untouched rfl (manifestStep_quiet P keys _ _ _ _ he)
      · obtain ⟨rfl, hbuilt⟩ := manifestStep_eq_ok hman
        obtain ⟨rfl, rfl⟩ := Prod.mk.inj h
        exact .chained hbuilt
  | incrementalChained readCursor batch keys tracked previous sealed =>
      rcases BackupM.bind_cases h with ⟨e, he, rfl⟩ | ⟨_, c₁, hper, h⟩
      · obtain rfl := persistIncrementalStep_error he
        exact .of_untouched rfl (Untouched.refl c)
      · obtain ⟨row, hrow, _, hcursor, rfl⟩ := persistIncrementalStep_eq_ok hper
        obtain ⟨rfl, rfl⟩ := Prod.mk.inj h
        exact .persisted hrow hcursor
  | incrementalPersisted keys tracked sealed =>
      obtain ⟨rfl, rfl⟩ := Prod.mk.inj h
      exact .committed
  | compactionSnapshot nowMs keys snapshot =>
      rcases BackupM.bind_cases h with ⟨e, he, rfl⟩ | ⟨tally, c₁, hre, h⟩
      · exact .of_untouched rfl (resealGroups_quiet P keys _ _ _ _ _ _ he)
      · obtain ⟨outputs, houts, hev, _, hids, rfl⟩ := resealGroups_eq_ok hre
        rw [show CompactionTally.start.outputs = [] from rfl, List.nil_append] at houts
        subst houts
        obtain ⟨rfl, rfl⟩ := Prod.mk.inj h
        exact .resealed (ledgerEvents_of_survivorLists hev) hids rfl
  | compactionResealed nowMs keys snapshot outputs =>
      rcases BackupM.bind_cases h with ⟨e, he, rfl⟩ | ⟨c₀, c₁, hget, h⟩
      · exact .of_untouched rfl (BackupM.Quiet.get c _ _ he)
      obtain ⟨rfl, rfl⟩ := BackupM.get_eq_ok.mp hget
      rcases BackupM.bind_cases h with ⟨e, he, rfl⟩ | ⟨sealed, c₁, hman, h⟩
      · exact .of_untouched rfl (manifestStep_quiet P keys _ _ _ _ he)
      · obtain ⟨rfl, hbuilt⟩ := manifestStep_eq_ok hman
        obtain ⟨rfl, rfl⟩ := Prod.mk.inj h
        exact .compactionChained hbuilt
  | compactionChained nowMs keys snapshot outputs previous sealed =>
      rcases BackupM.bind_cases h with ⟨e, he, rfl⟩ | ⟨_, c₁, hper, h⟩
      · obtain rfl := persistCompactionStep_error he
        exact .of_untouched rfl (Untouched.refl c)
      · obtain ⟨rows, hrows, _, rfl⟩ := persistCompactionStep_eq_ok hper
        obtain ⟨rfl, rfl⟩ := Prod.mk.inj h
        exact .compactionPersisted hrows
  | compactionPersisted nowMs keys snapshot outputs sealed =>
      obtain ⟨rfl, rfl⟩ := Prod.mk.inj h
      exact .compactionCommitted
  | uploading keys outputs sealed =>
      rcases BackupM.bind_cases h with ⟨e, he, rfl⟩ | ⟨up, c₁, hup, h⟩
      · obtain ⟨hdb, hbackup, hdrawn⟩ := uploadStep_frame he
        exact .left rfl hdb hbackup hdrawn.ge
      · obtain ⟨hdb, hbackup, hdrawn⟩ := uploadStep_frame hup
        obtain ⟨rfl, rfl⟩ := Prod.mk.inj h
        exact .left rfl hdb hbackup hdrawn.ge

end AdvanceOf

/-! ## What one action does -/

section Next

variable {P : Primitives}

theorem startIncremental_eq (c : Core) :
    ∃ r, Call.startIncremental c = (r, c) ∧ ∀ o, r = .ok o → o.toList = [] ∨
      ∃ batch, readBatch c.db = .ok (some batch) ∧ o = some (.incrementalRead c.db.readCursor batch) := by
  unfold Call.startIncremental
  rw [BackupM.bind_of_ok (rfl : BackupM.get c = (.ok c, c))]
  cases hread : readBatch c.db with
  | error e =>
      refine ⟨.error e, BackupM.bind_of_error ?_, fun o ho => absurd ho (by simp)⟩
      rw [readStep_eq, hread]
  | ok o =>
      have hstep : readStep c = (.ok o, c) := by rw [readStep_eq, hread]
      refine ⟨_, BackupM.bind_of_ok hstep, fun o' ho' => ?_⟩
      obtain rfl := Except.ok.inj ho'
      cases o with
      | none => exact Or.inl rfl
      | some batch => exact Or.inr ⟨batch, rfl, rfl⟩

theorem startCompaction_eq (nowMs : Int) (c : Core) :
    ∃ r, Call.startCompaction nowMs c = (r, c) ∧ ∀ o, r = .ok o → o.toList = [] ∨
      ∃ keys, c.backup.backupKeys = some keys ∧
        o = some (.compactionSnapshot nowMs keys c.backup.chainState.trackedSegments) := by
  have hsnap : snapshotStep c =
      (c.backup.requireKeys.map fun keys => (keys, c.backup.chainState.trackedSegments), c) := by
    show (BackupM.lift c.backup.requireKeys >>= _) c = _
    cases hk : c.backup.requireKeys with
    | error e => rfl
    | ok keys => rfl
  unfold Call.startCompaction
  cases hk : c.backup.requireKeys with
  | error e =>
      rw [hk] at hsnap
      exact ⟨.error e, BackupM.bind_of_error hsnap, fun o ho => absurd ho (by simp)⟩
  | ok keys =>
      rw [hk] at hsnap
      rw [BackupM.bind_of_ok hsnap]
      by_cases hemp : (c.backup.chainState.trackedSegments.isEmpty ||
          (planFor c.backup.chainState.trackedSegments nowMs).groups.isEmpty) = true
      · exact ⟨.ok none, by simp only [hemp, if_true]; rfl, fun o ho => Or.inl (by rw [← Except.ok.inj ho]; rfl)⟩
      · refine ⟨.ok (some (.compactionSnapshot nowMs keys c.backup.chainState.trackedSegments)), ?_, ?_⟩
        · simp only [hemp, Bool.false_eq_true, if_false]
          rfl
        · intro o ho
          exact Or.inr ⟨keys, okOr_eq_ok.mp hk, (Except.ok.inj ho).symm⟩

theorem settle_eq (s : BackupSystem) (before after : List Call) (r : Except Error (Option Call)) (c : Core) :
    s.settle P before after (r, c) = {
      core := c
      calls := before ++ (stepOutcome r).toList ++ after
      erased := s.erased ++ (stepOutcome r).toList.flatMap (Call.erasedEvents P)
      persisted := s.persisted ++ (stepOutcome r).toList.flatMap Call.persistedManifest } := by
  cases r with
  | ok o => rfl
  | error e => simp [BackupSystem.settle, stepOutcome]

/-- **What one action does.** -/
inductive Moved (P : Primitives) (s : BackupSystem) : Action → BackupSystem → Prop
  | nothing {a : Action} : Moved P s a s
  | wrote (tag : String) (conv mid : Option IdText) (payload : Bytes) (ms : Int) :
      Moved P s (.writeJournal tag conv mid payload ms)
        { s with core := s.core.insertJournal tag conv mid payload ms }
  | startedIncremental {batch : ReadBatch} : readBatch s.core.db = .ok (some batch) →
      Moved P s .startIncremental
        { s with calls := s.calls ++ [.incrementalRead s.core.db.readCursor batch] }
  | startedCompaction {nowMs : Int} {keys : BackupKeys} : s.core.backup.backupKeys = some keys →
      Moved P s (.startCompaction nowMs)
        { s with calls := s.calls ++ [.compactionSnapshot nowMs keys s.core.backup.chainState.trackedSegments] }
  | advanced {nowPersistMs : Int} {before after : List Call} {call : Call} {o : Option Call} {c' : Core} :
      s.calls = before ++ call :: after → Advance P nowPersistMs s.core call o c' →
      Moved P s (.advance before.length nowPersistMs) {
        core := c'
        calls := before ++ o.toList ++ after
        erased := s.erased ++ o.toList.flatMap (Call.erasedEvents P)
        persisted := s.persisted ++ o.toList.flatMap Call.persistedManifest }

/-- **An action is one of the cases.** -/
theorem moved_of_next (s : BackupSystem) (a : Action) : Moved P s a (s.next P a) := by
  cases a with
  | writeJournal tag conv mid payload ms => exact .wrote tag conv mid payload ms
  | startIncremental =>
      obtain ⟨r, hr, hok⟩ := startIncremental_eq s.core
      have hnext : s.next P .startIncremental = s.settle P s.calls [] (r, s.core) := by
        rw [← hr]
        rfl
      rw [hnext, settle_eq]
      cases r with
      | error e => simpa [stepOutcome] using Moved.nothing
      | ok o =>
          rcases hok o rfl with hnil | ⟨batch, hread, rfl⟩
          · simpa [stepOutcome, hnil] using Moved.nothing
          · simpa [stepOutcome, Call.erasedEvents, Call.persistedManifest] using Moved.startedIncremental hread
  | startCompaction nowMs =>
      obtain ⟨r, hr, hok⟩ := startCompaction_eq nowMs s.core
      have hnext : s.next P (.startCompaction nowMs) = s.settle P s.calls [] (r, s.core) := by
        rw [← hr]
        rfl
      rw [hnext, settle_eq]
      cases r with
      | error e => simpa [stepOutcome] using Moved.nothing
      | ok o =>
          rcases hok o rfl with hnil | ⟨keys, hkeys, rfl⟩
          · simpa [stepOutcome, hnil] using Moved.nothing
          · simpa [stepOutcome, Call.erasedEvents, Call.persistedManifest] using Moved.startedCompaction hkeys
  | advance index nowPersistMs =>
      cases hcall : s.calls[index]? with
      | none =>
          have hnext : s.next P (.advance index nowPersistMs) = s := by simp [BackupSystem.next, hcall]
          rw [hnext]
          exact .nothing
      | some call =>
          obtain ⟨hlt, hget⟩ := List.getElem?_eq_some_iff.mp hcall
          rcases hadv : call.advance P nowPersistMs s.core with ⟨r, c'⟩
          -- the call that moves, among those before and behind it
          have hsplit : s.calls = s.calls.take index ++ call :: s.calls.drop (index + 1) := by
            rw [← hget, List.cons_getElem_drop_succ, List.take_append_drop]
          have hlen : (s.calls.take index).length = index := by
            rw [List.length_take]
            omega
          have hnext : s.next P (.advance index nowPersistMs) =
              s.settle P (s.calls.take index) (s.calls.drop (index + 1)) (r, c') := by
            simp [BackupSystem.next, hcall, hadv]
          rw [hnext, settle_eq]
          have hmoved := Moved.advanced hsplit (advance_of_eq hadv)
          rw [hlen] at hmoved
          exact hmoved

end Next

end KChatCore.Backup
