import KChatCore.Backup.Accounting
import KChatCore.Backup.ChainLinearity

/-!
# `Backup.Restarts` — a process that dies in the middle of a backup

What the database holds and what the sink has taken outlive a process; the coordinator and the call under way do not. The
next process reads the chain tail back when it opens the database, and the ledger when the keystore unlocks, in the order
of the rows' clock.

An `Installation` runs one call at a time, step by step as in `Backup.Interleaving`, and may die between any two steps.
`erased` and `persisted` are the same records as there; nothing reads them.
-/

namespace KChatCore.Backup

open Lib

/-! ## What a new process reads back -/

/-- The text of a TEXT column, for its order. -/
def textOf : IdText → String
  | .uuid u => u.hyphenated
  | .malformed s => s

/-- `ORDER BY created_at_ms ASC, segment_id ASC`. -/
def LedgerRow.loadsBefore (row row' : LedgerRow) : Bool :=
  row.createdAtMs < row'.createdAtMs ||
    row.createdAtMs = row'.createdAtMs && textOf row.segmentId ≤ textOf row'.segmentId

/-- `load_backup_segment_ledger`. -/
def BackupDb.loadBackupSegmentLedger (db : BackupDb) : List LedgerRow := db.ledger.mergeSort LedgerRow.loadsBefore

/-- `materialise_backup_segments_from_db`. -/
def materialiseBackupSegmentsFromDb (P : Primitives) (backupRoot : KeyMaterial) (db : BackupDb) :
    Except Error (List TrackedBackupSegment) :=
  db.loadBackupSegmentLedger.mapM (materialiseRow P backupRoot)

/-- `Coordinator::install_keys`. -/
def Coordinator.installKeys (c : Coordinator) (keys : BackupKeys) (hydratedSegments : List TrackedBackupSegment) :
    Coordinator :=
  { c with backupKeys := some keys, chainState := { c.chainState with trackedSegments := hydratedSegments } }

/-- `Coordinator::set_previous_manifest`. -/
def Coordinator.setPreviousManifest (c : Coordinator) (manifest : Option BackupManifest) : Coordinator :=
  { c with chainState := { c.chainState with previousManifest := manifest } }

/-- `install_backup_keys`: the ledger is read before the keys are in place, so a row that does not open leaves neither. -/
def Core.installBackupKeys (P : Primitives) (keys : BackupKeys) (c : Core) : Except Error Core :=
  (materialiseBackupSegmentsFromDb P keys.rootKey c.db).map fun materialised =>
    { c with backup := c.backup.installKeys keys materialised }

/-- `hydrate_backup_manifest_from_db`. -/
def Core.hydrateBackupManifestFromDb (P : Primitives) (c : Core) : Except Error Core :=
  match c.db.chain with
  | none => .ok c
  | some row =>
      (okOr (P.cborManifest.decode row.manifestCbor)
          (.storageMsg "backup_manifest_chain: failed to CBOR-decode persisted manifest")).map fun manifest =>
        { c with backup := c.backup.setPreviousManifest (some manifest) }

/-- What of a core outlives its process. -/
def Core.afterCrash (c : Core) : Core := { c with backup := ⟨none, ⟨none, []⟩⟩ }

/-! ## The device -/

/-- **The device**: the core, whether a process runs, and the backup call it is in. -/
structure Installation where
  core : Core
  running : Bool
  call : Option Call
  erased : List BackupEvent
  persisted : List BackupManifest

/-- What can happen next. -/
inductive InstallationAction
  | writeJournal (tag : String) (conversationId messageId : Option IdText) (payload : Bytes) (createdAtMs : Int)
  | startIncremental
  | startCompaction (nowMs : Int)
  | advance (nowPersistMs : Int)
  | crash
  | reopen
  | installBackupKeys

namespace Installation

/-- An empty database, which no process has opened. -/
def new (sink : Option BackupSink) : Installation := ⟨⟨BackupDb.empty, ⟨none, ⟨none, []⟩⟩, sink, 0⟩, false, none, [], []⟩

/-- Put the call's next state in its place; a call that fails or returns leaves. -/
def settle (P : Primitives) (d : Installation) (out : Except Error (Option Call) × Core) : Installation :=
  { d with
    core := out.2
    call := stepOutcome out.1
    erased := d.erased ++ (stepOutcome out.1).toList.flatMap (Call.erasedEvents P)
    persisted := d.persisted ++ (stepOutcome out.1).toList.flatMap Call.persistedManifest }

/-- **One step.** The keystore is unlocked once in a process, and a process that cannot read the tail does not come up. -/
def step (P : Primitives) (keys : BackupKeys) (d : Installation) : InstallationAction → Option Installation
  | .writeJournal tag conv mid payload ms =>
      if d.running then some { d with core := d.core.insertJournal tag conv mid payload ms } else none
  | .startIncremental =>
      if d.running && d.call.isNone then some (d.settle P (Call.startIncremental d.core)) else none
  | .startCompaction nowMs =>
      if d.running && d.call.isNone then some (d.settle P (Call.startCompaction nowMs d.core)) else none
  | .advance nowPersistMs =>
      match d.call with
      | some call => if d.running then some (d.settle P (call.advance P nowPersistMs d.core)) else none
      | none => none
  | .crash => if d.running then some { d with core := d.core.afterCrash, running := false, call := none } else none
  | .reopen =>
      if d.running then none
      else
        match d.core.hydrateBackupManifestFromDb P with
        | .ok c => some { d with core := c, running := true }
        | .error _ => some d
  | .installBackupKeys =>
      if d.running && d.core.backup.backupKeys.isNone then
        match d.core.installBackupKeys P keys with
        | .ok c => some { d with core := c }
        | .error _ => some d
      else none

/-- The step relation, for `Lib.Run`. -/
def Step (P : Primitives) (keys : BackupKeys) (d : Installation) (a : InstallationAction) (d' : Installation) : Prop :=
  d.step P keys a = some d'

/-- The segments the database holds. -/
def ledger (P : Primitives) (keys : BackupKeys) (d : Installation) : List TrackedBackupSegment :=
  persistedLedger P keys.rootKey d.core.db

/-- What memory holds once the call under way, if it has persisted, has committed. -/
def chainState (d : Installation) : BackupChainState := d.call.toList.foldr Call.commit d.core.backup.chainState

end Installation

/-! ## Reading back -/

section ReadBack

variable {P : Primitives} {root : KeyMaterial}

theorem loadBackupSegmentLedger_perm (db : BackupDb) : db.loadBackupSegmentLedger.Perm db.ledger :=
  List.mergeSort_perm _ _

/-- Rows that all read back, read back together. -/
theorem mapM_materialiseRow {rows : List LedgerRow} {segments : List TrackedBackupSegment}
    (h : List.Forall₂ (fun row t => materialiseRow P root row = .ok t) rows segments) :
    rows.mapM (materialiseRow P root) = .ok segments := by
  induction h with
  | nil => rfl
  | cons hrow _ ih =>
      rw [List.mapM_cons, hrow, ih]
      rfl

/-- **The ledger reads back**, in the order of its clock. -/
theorem materialiseBackupSegmentsFromDb_perm {db : BackupDb}
    (h : List.Forall₂ (fun row t => materialiseRow P root row = .ok t) db.ledger (persistedLedger P root db)) :
    ∃ segments, materialiseBackupSegmentsFromDb P root db = .ok segments ∧ segments.Perm (persistedLedger P root db) := by
  obtain ⟨segments, hreads, hperm⟩ := List.perm_comp_forall₂ (loadBackupSegmentLedger_perm db) h
  exact ⟨segments, mapM_materialiseRow hreads, hperm⟩

end ReadBack

/-! ## The invariant -/

namespace Installation

variable {P : Primitives} {keys : BackupKeys} {d d' : Installation}

/-- **What is true of the call under way**: it builds on what the database and memory still hold, and the ids it has drawn
are in no segment of the ledger. -/
def InFlight (P : Primitives) (keys : BackupKeys) (d : Installation) : Call → Prop
  | .incrementalRead readCursor batch => d.core.db.readCursor = readCursor ∧ BatchOf d.core.db.journal readCursor batch
  | .incrementalSealed readCursor batch k tracked =>
      d.core.backup.backupKeys = some keys ∧ k = keys ∧ d.core.db.readCursor = readCursor ∧
        BatchOf d.core.db.journal readCursor batch ∧ segmentEvents P tracked = batch.events ∧
        FreshIds d.core.drawn (d.ledger P keys ++ [tracked])
  | .incrementalChained readCursor batch k tracked previous sealed =>
      d.core.backup.backupKeys = some keys ∧ k = keys ∧ d.core.db.readCursor = readCursor ∧
        BatchOf d.core.db.journal readCursor batch ∧ segmentEvents P tracked = batch.events ∧
        FreshIds d.core.drawn (d.ledger P keys ++ [tracked]) ∧ previous = d.persisted.getLast? ∧
        chainLink P previous = .ok (sealed.manifest.generation, sealed.manifest.previousManifestHash)
  | .incrementalPersisted .. => d.core.backup.backupKeys = some keys
  | .compactionSnapshot _ k snapshot =>
      d.core.backup.backupKeys = some keys ∧ k = keys ∧ snapshot.Perm (d.ledger P keys)
  | .compactionResealed nowMs k snapshot outputs =>
      d.core.backup.backupKeys = some keys ∧ k = keys ∧ snapshot.Perm (d.ledger P keys) ∧
        FreshIds d.core.drawn (newLedger snapshot nowMs outputs) ∧
        ledgerEvents P outputs = (groupEvents P snapshot nowMs).flatMap backupTombstones.resolve
  | .compactionChained nowMs k snapshot outputs previous sealed =>
      d.core.backup.backupKeys = some keys ∧ k = keys ∧ snapshot.Perm (d.ledger P keys) ∧
        FreshIds d.core.drawn (newLedger snapshot nowMs outputs) ∧
        ledgerEvents P outputs = (groupEvents P snapshot nowMs).flatMap backupTombstones.resolve ∧
        previous = d.persisted.getLast? ∧
        chainLink P previous = .ok (sealed.manifest.generation, sealed.manifest.previousManifestHash)
  | .compactionPersisted .. => d.core.backup.backupKeys = some keys
  | .uploading .. => True

/-- **What carries the backup through its processes.** The first six outlive one; the others say that memory holds what
the database holds, as far as the process has come. -/
structure Inv (P : Primitives) (keys : BackupKeys) (d : Installation) : Prop where
  reads : List.Forall₂ (fun row t => materialiseRow P keys.rootKey row = .ok t) d.core.db.ledger (d.ledger P keys)
  ids : FreshIds d.core.drawn (d.ledger P keys)
  partition : (ledgerEvents P (d.ledger P keys) ++ d.erased).Perm d.core.db.drained
  cursor_le : d.core.db.readCursor ≤ d.core.db.journal.lastSeq
  linear : LinearChain P d.persisted
  tail : d.core.db.chain.map (fun row => P.cborManifest.decode row.manifestCbor) = d.persisted.getLast?.map some
  keys_eq : ∀ k, d.core.backup.backupKeys = some k → k = keys
  stopped : d.running = false → d.core.backup = ⟨none, ⟨none, []⟩⟩ ∧ d.call = none
  remembered : d.running = true → d.chainState.previousManifest = d.persisted.getLast?
  installed : d.core.backup.backupKeys = some keys → d.chainState.trackedSegments.Perm (d.ledger P keys)
  call_ok : ∀ call, d.call = some call → d.InFlight P keys call

theorem inv_new (P : Primitives) (keys : BackupKeys) (sink : Option BackupSink) : (new sink).Inv P keys where
  reads := .nil
  ids := ⟨by simp [new, ledger, persistedLedger, BackupDb.empty, ledgerIds],
    by simp [new, ledger, persistedLedger, BackupDb.empty]⟩
  partition := by
    simp [new, ledger, persistedLedger, BackupDb.empty, BackupDb.drained, JournalTable.typedUpTo, JournalTable.empty]
  cursor_le := Nat.zero_le _
  linear := linearChain_nil P
  tail := rfl
  keys_eq := by simp [new]
  stopped := fun _ => ⟨rfl, rfl⟩
  remembered := by simp [new]
  installed := by simp [new]
  call_ok := by simp [new]

/-- A call that has not persisted has nothing to commit. -/
theorem commit_of_not_pending {call : Call} (h : call.isPending = false) (chain : BackupChainState) :
    call.commit chain = chain := by
  cases call <;> first | rfl | cases h

/-- **A step that writes nothing**: the call goes on, or leaves. -/
theorem Inv.quiet (h : d.Inv P keys) (c : Core) (call' : Option Call) (hrunning : d.running = true)
    (hbefore : ∀ call ∈ d.call, call.isPending = false) (hafter : ∀ call ∈ call', call.isPending = false)
    (hdb : c.db = d.core.db) (hbackup : c.backup = d.core.backup) (hdrawn : d.core.drawn ≤ c.drawn)
    (hcall : ∀ call, call' = some call → ({ d with core := c, call := call' } : Installation).InFlight P keys call) :
    ({ d with core := c, call := call' } : Installation).Inv P keys := by
  have hledger : ({ d with core := c, call := call' } : Installation).ledger P keys = d.ledger P keys := by
    simp only [ledger, hdb]
  have hchain : ({ d with core := c, call := call' } : Installation).chainState = d.chainState := by
    have hnone : ∀ {o : Option Call}, (∀ call ∈ o, call.isPending = false) → ∀ chain,
        o.toList.foldr Call.commit chain = chain := by
      intro o ho chain
      cases o with
      | none => rfl
      | some call => exact commit_of_not_pending (ho call rfl) chain
    simp only [chainState, hbackup, hnone hbefore, hnone hafter]
  refine ⟨?_, ?_, ?_, ?_, h.linear, ?_, ?_, ?_, ?_, ?_, hcall⟩
  · rw [hledger, hdb]
    exact h.reads
  · rw [hledger]
    exact h.ids.subperm (.refl _) hdrawn
  · rw [hledger, hdb]
    exact h.partition
  · rw [hdb]
    exact h.cursor_le
  · rw [hdb]
    exact h.tail
  · rw [hbackup]
    exact h.keys_eq
  · intro hstopped
    exact absurd (hrunning.symm.trans hstopped) (by simp)
  · rw [hchain]
    exact h.remembered
  · rw [hbackup, hchain, hledger]
    exact h.installed

/-- **A persist**: the database holds the new ledger under a manifest that chains on its tail, and the commit to come
will put the same into memory. -/
theorem Inv.persist (h : d.Inv P keys) (call' : Call) (db' : BackupDb) (erased' : List BackupEvent)
    {ledger' : List TrackedBackupSegment} {manifest : BackupManifest} (hrunning : d.running = true)
    (hkeys : d.core.backup.backupKeys = some keys) (hpending : call'.isPending = true)
    (hreads : List.Forall₂ (fun row t => materialiseRow P keys.rootKey row = .ok t) db'.ledger ledger')
    (hids : FreshIds d.core.drawn ledger')
    (hpartition : (ledgerEvents P ledger' ++ (d.erased ++ erased')).Perm db'.drained)
    (hcursor : db'.readCursor ≤ db'.journal.lastSeq)
    (hlink : chainLink P d.persisted.getLast? = .ok (manifest.generation, manifest.previousManifestHash))
    (htail : db'.chain.map (fun row => P.cborManifest.decode row.manifestCbor) = some (some manifest))
    (hprevious : (call'.commit d.core.backup.chainState).previousManifest = some manifest)
    (htracked : (call'.commit d.core.backup.chainState).trackedSegments.Perm ledger') :
    ({ d with
      core := { d.core with db := db' }
      call := some call'
      erased := d.erased ++ erased'
      persisted := d.persisted ++ [manifest] } : Installation).Inv P keys := by
  have hledger : persistedLedger P keys.rootKey db' = ledger' := persistedLedger_of_rows db' hreads
  refine ⟨?_, ?_, ?_, hcursor, h.linear.push hlink, ?_, h.keys_eq, ?_, ?_, ?_, ?_⟩
  · rw [ledger, hledger]
    exact hreads
  · rw [ledger, hledger]
    exact hids
  · rw [ledger, hledger]
    exact hpartition
  · rw [htail, List.getLast?_concat]
    rfl
  · intro hstopped
    exact absurd (hrunning.symm.trans hstopped) (by simp)
  · intro _
    rw [List.getLast?_concat]
    exact hprevious
  · intro _
    rw [ledger, hledger]
    exact htracked
  · intro call hcall
    obtain rfl := Option.some.inj hcall
    cases call' with
    | incrementalPersisted k tracked sealed => exact hkeys
    | compactionPersisted nowMs k snapshot outputs sealed => exact hkeys
    | _ => cases hpending

/-- **A commit** puts into memory what the persist put into the database. -/
theorem Inv.commit (h : d.Inv P keys) (c : Core) (k : BackupKeys) (outputs : List TrackedBackupSegment)
    (sealed : SealedBackupManifest) {call : Call} (hcall : d.call = some call) (hrunning : d.running = true) (hdb : c.db = d.core.db)
    (hdrawn : c.drawn = d.core.drawn) (hkeys : c.backup.backupKeys = d.core.backup.backupKeys)
    (hcommit : c.backup.chainState = call.commit d.core.backup.chainState) :
    ({ d with core := c, call := some (.uploading k outputs sealed) } : Installation).Inv P keys := by
  have hledger : ({ d with core := c, call := some (.uploading k outputs sealed) } : Installation).ledger P keys =
      d.ledger P keys := by
    simp only [ledger, hdb]
  have hchain : ({ d with core := c, call := some (.uploading k outputs sealed) } : Installation).chainState = d.chainState := by
    simp only [chainState, hcall, Option.toList_some, List.foldr_cons, List.foldr_nil, hcommit]
    rfl
  refine ⟨?_, ?_, ?_, ?_, h.linear, ?_, ?_, ?_, ?_, ?_, ?_⟩
  · rw [hledger, hdb]
    exact h.reads
  · rw [hledger, hdrawn]
    exact h.ids
  · rw [hledger, hdb]
    exact h.partition
  · rw [hdb]
    exact h.cursor_le
  · rw [hdb]
    exact h.tail
  · rw [hkeys]
    exact h.keys_eq
  · intro hstopped
    exact absurd (hrunning.symm.trans hstopped) (by simp)
  · rw [hchain]
    exact h.remembered
  · rw [hkeys, hchain, hledger]
    exact h.installed
  · intro call' hcall'
    obtain rfl := Option.some.inj hcall'
    trivial

/-- **A step of the call keeps the invariant**, wherever the call stands. -/
theorem Inv.advance (h : d.Inv P keys) {call : Call} {o : Option Call} {c' : Core} {nowPersistMs : Int}
    (hcall : d.call = some call) (hrunning : d.running = true) (hadv : Advance P nowPersistMs d.core call o c') :
    ({ d with
      core := c'
      call := o
      erased := d.erased ++ o.toList.flatMap (Call.erasedEvents P)
      persisted := d.persisted ++ o.toList.flatMap Call.persistedManifest } : Installation).Inv P keys := by
  have hok := h.call_ok call hcall
  -- memory is where the chain is, unless the call has persisted
  have hmemory : call.isPending = false → d.chainState = d.core.backup.chainState := by
    intro hpending
    simp only [chainState, hcall, Option.toList_some, List.foldr_cons, List.foldr_nil]
    exact commit_of_not_pending hpending _
  have hprevious : call.isPending = false → d.core.backup.chainState.previousManifest = d.persisted.getLast? := by
    intro hpending
    rw [← hmemory hpending]
    exact h.remembered hrunning
  have hbefore : call.isPending = false → ∀ call' ∈ d.call, call'.isPending = false := by
    intro hpending call' hcall'
    obtain rfl := Option.some.inj (hcall.symm.trans hcall')
    exact hpending
  cases hadv with
  | left hpending hdb hbackup hdrawn =>
      simpa using h.quiet c' none hrunning (hbefore hpending) (by simp) hdb hbackup hdrawn (by simp)
  | @sealed readCursor batch k tracked hkeys hid hev =>
      obtain ⟨hcursor, hbatch⟩ := hok
      obtain rfl := h.keys_eq k hkeys
      have hfresh := h.ids.push (show ledgerIds [tracked] = [d.core.drawn].map Uuid.nowV7 by simp [ledgerIds, hid])
      have hquiet := h.quiet { d.core with drawn := d.core.drawn + 1 } (some (.incrementalSealed readCursor batch k tracked))
        hrunning (hbefore rfl) (by simp [Call.isPending]) rfl rfl (Nat.le_succ _) fun call' hcall' => by
          obtain rfl := Option.some.inj hcall'
          exact ⟨hkeys, rfl, hcursor, hbatch, hev, hfresh⟩
      simpa [Call.erasedEvents, Call.persistedManifest] using hquiet
  | @chained readCursor batch k tracked sealed hbuilt =>
      obtain ⟨hkeys, rfl, hcursor, hbatch, hev, hfresh⟩ := hok
      have hquiet := h.quiet { d.core with drawn := d.core.drawn + 1 }
        (some (.incrementalChained readCursor batch k tracked d.core.backup.chainState.previousManifest sealed))
        hrunning (hbefore rfl) (by simp [Call.isPending]) rfl rfl (Nat.le_succ _) fun call' hcall' => by
          obtain rfl := Option.some.inj hcall'
          exact ⟨hkeys, rfl, hcursor, hbatch, hev, hfresh.subperm (.refl _) (Nat.le_succ _), hprevious rfl, hbuilt.link⟩
      simpa [Call.erasedEvents, Call.persistedManifest] using hquiet
  | @persisted readCursor batch k tracked previous sealed row hrow hcursor' =>
      obtain ⟨hkeys, rfl, hcursor, hbatch, hev, hfresh, hsealedOn, hlink⟩ := hok
      have htracked : (d.core.backup.chainState.trackedSegments ++ [tracked]).Perm (d.ledger P k ++ [tracked]) := by
        rw [← hmemory rfl]
        exact (h.installed hkeys).append_right _
      have hpersist := h.persist (.incrementalPersisted k tracked sealed)
        { d.core.db with
          cursorRow := some batch.lastSeq
          ledger := d.core.db.ledger ++ [row]
          chain := some ⟨wrapI64 sealed.manifest.generation, P.cborManifest.encode sealed.manifest, nowPersistMs⟩ } []
        hrunning hkeys rfl (List.rel_append h.reads (.cons (materialise_ledgerRow hrow) .nil)) hfresh ?_ hbatch.lastSeq_le
        (hsealedOn ▸ hlink) (by simp) rfl htracked
      · simpa [Call.erasedEvents, Call.persistedManifest] using hpersist
      · -- the batch is what lies between the two cursors
        have hdrained : d.core.db.journal.typedUpTo batch.lastSeq = d.core.db.drained ++ batch.events := by
          rw [hbatch.typed, ← hcursor]
          rfl
        show (ledgerEvents P (d.ledger P k ++ [tracked]) ++ (d.erased ++ [])).Perm
          (d.core.db.journal.typedUpTo batch.lastSeq)
        rw [hdrained, ledgerEvents_append, ledgerEvents_singleton, hev, List.append_nil, List.append_assoc]
        exact (List.perm_append_comm.append_left _).trans
          ((List.append_assoc ..).symm ▸ h.partition.append_right batch.events)
  | @committed k tracked sealed =>
      simpa [Call.erasedEvents, Call.persistedManifest] using
        h.commit { d.core with backup := d.core.backup.commitIncremental sealed.manifest tracked } k [tracked] sealed hcall
          hrunning rfl rfl rfl rfl
  | @resealed nowMs k snapshot outputs _ hev hids hc' =>
      subst hc'
      obtain ⟨hkeys, rfl, hsnapshot⟩ := hok
      have hfresh : FreshIds (d.core.drawn + outputs.length) (newLedger snapshot nowMs outputs) :=
        (h.ids.push hids).subperm ((keptSegments_sublist _ _).subperm.trans hsnapshot.subperm |>.append (.refl _)) le_rfl
      have hquiet := h.quiet { d.core with drawn := d.core.drawn + outputs.length }
        (some (.compactionResealed nowMs k snapshot outputs)) hrunning (hbefore rfl) (by simp [Call.isPending]) rfl rfl
        (Nat.le_add_right _ _) fun call' hcall' => by
          obtain rfl := Option.some.inj hcall'
          exact ⟨hkeys, rfl, hsnapshot, hfresh, hev⟩
      simpa [Call.erasedEvents, Call.persistedManifest] using hquiet
  | @compactionChained nowMs k snapshot outputs sealed hbuilt =>
      obtain ⟨hkeys, rfl, hsnapshot, hfresh, hev⟩ := hok
      have hquiet := h.quiet { d.core with drawn := d.core.drawn + 1 }
        (some (.compactionChained nowMs k snapshot outputs d.core.backup.chainState.previousManifest sealed))
        hrunning (hbefore rfl) (by simp [Call.isPending]) rfl rfl (Nat.le_succ _) fun call' hcall' => by
          obtain rfl := Option.some.inj hcall'
          exact ⟨hkeys, rfl, hsnapshot, hfresh.subperm (.refl _) (Nat.le_succ _), hev, hprevious rfl, hbuilt.link⟩
      simpa [Call.erasedEvents, Call.persistedManifest] using hquiet
  | @compactionPersisted nowMs k snapshot outputs previous sealed rows hrows =>
      obtain ⟨hkeys, rfl, hsnapshot, hfresh, hev, hsealedOn, hlink⟩ := hok
      have hpersist := h.persist (.compactionPersisted nowMs k snapshot outputs sealed)
        { d.core.db with
          ledger := rows
          chain := some ⟨wrapI64 sealed.manifest.generation, P.cborManifest.encode sealed.manifest, nowPersistMs⟩ }
        ((groupEvents P snapshot nowMs).flatMap erasedFrom) hrunning hkeys rfl (buildLedgerRows_eq_ok hrows) hfresh ?_
        h.cursor_le (hsealedOn ▸ hlink) (by simp) rfl (.refl _)
      · simpa [Call.erasedEvents, Call.persistedManifest] using hpersist
      · -- what the compaction keeps and what it erases make up its snapshot
        have hids : (ledgerIds snapshot).Nodup := (hsnapshot.map _).nodup_iff.mpr h.ids.nodup
        have hsplit := (newLedger_append_erased hids hev).trans (ledgerEvents_perm P hsnapshot)
        show (ledgerEvents P (newLedger snapshot nowMs outputs) ++ (d.erased ++ _)).Perm d.core.db.drained
        refine .trans ?_ h.partition
        refine .trans ?_ (hsplit.append_right d.erased)
        rw [List.append_assoc]
        exact List.perm_append_comm.append_left _
  | @compactionCommitted nowMs k snapshot outputs sealed =>
      simpa [Call.erasedEvents, Call.persistedManifest] using
        h.commit { d.core with backup := d.core.backup.commitCompaction sealed.manifest (newLedger snapshot nowMs outputs) } k
          outputs sealed hcall hrunning rfl rfl rfl rfl

/-- What a journal write changes: nothing the cursor has passed, and no batch that was read. -/
theorem Inv.insertJournal (h : d.Inv P keys) (tag : String) (conv mid : Option IdText) (payload : Bytes) (ms : Int) :
    ({ d with core := d.core.insertJournal tag conv mid payload ms } : Installation).Inv P keys := by
  have hlast : (d.core.db.journal.insert tag conv mid payload ms).lastSeq = d.core.db.journal.lastSeq + 1 := by
    simp [JournalTable.insert, JournalTable.lastSeq]
  refine { h with partition := ?_, cursor_le := ?_, call_ok := ?_ }
  · show (ledgerEvents P (d.ledger P keys) ++ d.erased).Perm
      ((d.core.db.journal.insert tag conv mid payload ms).typedUpTo d.core.db.readCursor)
    rw [typedUpTo_insert _ tag conv mid payload ms h.cursor_le]
    exact h.partition
  · show d.core.db.readCursor ≤ (d.core.db.journal.insert tag conv mid payload ms).lastSeq
    have := h.cursor_le
    omega
  · intro call hcall
    have hok := h.call_ok call hcall
    cases call with
    | incrementalRead readCursor batch => exact ⟨hok.1, hok.2.insert tag conv mid payload ms⟩
    | incrementalSealed readCursor batch k tracked =>
        obtain ⟨hkeys, hk, hcursor, hbatch, hrest⟩ := hok
        exact ⟨hkeys, hk, hcursor, hbatch.insert tag conv mid payload ms, hrest⟩
    | incrementalChained readCursor batch k tracked previous sealed =>
        obtain ⟨hkeys, hk, hcursor, hbatch, hrest⟩ := hok
        exact ⟨hkeys, hk, hcursor, hbatch.insert tag conv mid payload ms, hrest⟩
    | _ => exact hok

/-- **A process dies.** What memory knew of the database is gone, and nothing of the database is. -/
theorem Inv.crash (h : d.Inv P keys) :
    ({ d with core := d.core.afterCrash, running := false, call := none } : Installation).Inv P keys where
  reads := h.reads
  ids := h.ids
  partition := h.partition
  cursor_le := h.cursor_le
  linear := h.linear
  tail := h.tail
  keys_eq := by simp [Core.afterCrash]
  stopped := fun _ => ⟨rfl, rfl⟩
  remembered := by simp
  installed := by simp [Core.afterCrash]
  call_ok := by simp

/-- **A new process reads the tail back**, whatever its predecessor was doing. -/
theorem Inv.hydrates (h : d.Inv P keys) (hstopped : d.running = false) :
    d.core.hydrateBackupManifestFromDb P = .ok { d.core with backup := ⟨none, ⟨d.persisted.getLast?, []⟩⟩ } := by
  obtain ⟨hbackup, -⟩ := h.stopped hstopped
  have htail := h.tail
  unfold Core.hydrateBackupManifestFromDb
  cases hchain : d.core.db.chain with
  | none =>
      have hlast : d.persisted.getLast? = none := by
        rw [hchain] at htail
        simpa using htail.symm
      rw [hlast, ← hbackup]
  | some row =>
      rw [hchain, Option.map_some] at htail
      obtain ⟨manifest, hlast, hdecode⟩ := Option.map_eq_some_iff.mp htail.symm
      rw [hlast]
      simp [← hdecode, okOr, Except.map, hbackup, Coordinator.setPreviousManifest]

theorem Inv.reopen (h : d.Inv P keys) (hstopped : d.running = false) :
    ({ d with
      core := { d.core with backup := ⟨none, ⟨d.persisted.getLast?, []⟩⟩ }
      running := true } : Installation).Inv P keys where
  reads := h.reads
  ids := h.ids
  partition := h.partition
  cursor_le := h.cursor_le
  linear := h.linear
  tail := h.tail
  keys_eq := by simp
  stopped := by simp
  remembered := by simp [chainState, (h.stopped hstopped).2]
  installed := by simp
  call_ok := by simp [(h.stopped hstopped).2]

/-- **The unlocked process reads the ledger back.** -/
theorem Inv.installs (h : d.Inv P keys) :
    ∃ segments, d.core.installBackupKeys P keys = .ok { d.core with backup := d.core.backup.installKeys keys segments } ∧
      segments.Perm (d.ledger P keys) := by
  obtain ⟨segments, hreads, hperm⟩ := materialiseBackupSegmentsFromDb_perm h.reads
  refine ⟨segments, ?_, hperm⟩
  rw [Core.installBackupKeys, hreads]
  rfl

/-- Before the keys are there, a call has at most read its batch. -/
theorem Inv.installBackupKeys (h : d.Inv P keys) (hrunning : d.running = true) (hlocked : d.core.backup.backupKeys = none)
    {segments : List TrackedBackupSegment} (hperm : segments.Perm (d.ledger P keys)) :
    ({ d with core := { d.core with backup := d.core.backup.installKeys keys segments } } : Installation).Inv P keys := by
  have hpending : ∀ call, d.call = some call → call.isPending = false := by
    intro call hcall
    have hok := h.call_ok call hcall
    cases call with
    | incrementalPersisted k tracked sealed => exact absurd (hlocked.symm.trans hok) (by simp)
    | compactionPersisted nowMs k snapshot outputs sealed => exact absurd (hlocked.symm.trans hok) (by simp)
    | _ => rfl
  -- there is no commit to come, so memory is what was read back
  have hmemory : ∀ chain, d.call.toList.foldr Call.commit chain = chain := by
    intro chain
    cases hcall : d.call with
    | none => rfl
    | some call => exact commit_of_not_pending (hpending call hcall) chain
  refine { h with keys_eq := ?_, stopped := ?_, remembered := ?_, installed := ?_, call_ok := ?_ }
  · intro k hk
    exact (Option.some.inj hk).symm
  · intro hstopped
    exact absurd (hrunning.symm.trans hstopped) (by simp)
  · intro _
    have hprevious := h.remembered hrunning
    simp only [chainState, hmemory] at hprevious ⊢
    exact hprevious
  · intro _
    simp only [chainState, hmemory]
    exact hperm
  · intro call hcall
    have hok := h.call_ok call hcall
    cases call with
    | incrementalRead readCursor batch => exact hok
    | uploading k outputs sealed => trivial
    | incrementalPersisted k tracked sealed => exact absurd (hlocked.symm.trans hok) (by simp)
    | compactionPersisted nowMs k snapshot outputs sealed => exact absurd (hlocked.symm.trans hok) (by simp)
    | _ => exact absurd (hlocked.symm.trans hok.1) (by simp)

/-- A call that starts has read its batch, or taken its snapshot. -/
theorem Inv.start (h : d.Inv P keys) (hrunning : d.running = true) (hidle : d.call = none) {r : Except Error (Option Call)}
    (hstart : ∀ call, stepOutcome r = some call → call.isPending = false ∧ call.erasedEvents P = [] ∧
      call.persistedManifest = [] ∧ ({ d with call := some call } : Installation).InFlight P keys call) :
    (d.settle P (r, d.core)).Inv P keys := by
  have hquiet := h.quiet d.core (stepOutcome r) hrunning (by simp [hidle]) (fun call hcall => (hstart call hcall).1) rfl rfl
    le_rfl fun call hcall => by
      have := (hstart call hcall).2.2.2
      rwa [← hcall] at this
  cases hout : stepOutcome r with
  | none => simpa [settle, hout] using hquiet
  | some call =>
      obtain ⟨-, herased, hpersisted, -⟩ := hstart call hout
      simpa [settle, hout, herased, hpersisted] using hquiet

/-- **Every step keeps the invariant.** -/
theorem Inv.step (h : d.Inv P keys) {a : InstallationAction} (hstep : Step P keys d a d') : d'.Inv P keys := by
  cases a with
  | writeJournal tag conv mid payload ms =>
      simp only [Step, Installation.step] at hstep
      split at hstep
      · obtain rfl := Option.some.inj hstep
        exact h.insertJournal tag conv mid payload ms
      · cases hstep
  | startIncremental =>
      simp only [Step, Installation.step] at hstep
      split at hstep
      · rename_i hidle
        obtain rfl := Option.some.inj hstep
        obtain ⟨hrunning, hidle⟩ : d.running = true ∧ d.call = none := by simpa using hidle
        obtain ⟨r, hr, hok⟩ := startIncremental_eq d.core
        rw [hr]
        refine h.start hrunning hidle fun call hcall => ?_
        cases r with
        | error e => cases hcall
        | ok o =>
            obtain rfl : o = some call := hcall
            obtain ⟨batch, hread, ho⟩ := (hok _ rfl).resolve_left (by simp)
            obtain rfl := Option.some.inj ho
            obtain ⟨-, hlt, hle, htyped⟩ := readBatch_eq_some hread
            exact ⟨rfl, rfl, rfl, rfl, hlt, hle, htyped⟩
      · cases hstep
  | startCompaction nowMs =>
      simp only [Step, Installation.step] at hstep
      split at hstep
      · rename_i hidle
        obtain rfl := Option.some.inj hstep
        obtain ⟨hrunning, hidle⟩ : d.running = true ∧ d.call = none := by simpa using hidle
        obtain ⟨r, hr, hok⟩ := startCompaction_eq nowMs d.core
        rw [hr]
        refine h.start hrunning hidle fun call hcall => ?_
        cases r with
        | error e => cases hcall
        | ok o =>
            obtain rfl : o = some call := hcall
            obtain ⟨k, hkeys, ho⟩ := (hok _ rfl).resolve_left (by simp)
            obtain rfl := Option.some.inj ho
            obtain rfl := h.keys_eq k hkeys
            have hinstalled := h.installed hkeys
            rw [chainState, hidle] at hinstalled
            exact ⟨rfl, rfl, rfl, hkeys, rfl, hinstalled⟩
      · cases hstep
  | advance nowPersistMs =>
      simp only [Step, Installation.step] at hstep
      split at hstep
      · rename_i call hcall
        split at hstep
        · rename_i hrunning
          obtain rfl := Option.some.inj hstep
          exact h.advance hcall hrunning (advance_of_eq rfl)
        · cases hstep
      · cases hstep
  | crash =>
      simp only [Step, Installation.step] at hstep
      split at hstep
      · obtain rfl := Option.some.inj hstep
        exact h.crash
      · cases hstep
  | reopen =>
      simp only [Step, Installation.step] at hstep
      split at hstep
      · cases hstep
      · rename_i hstopped
        have hstopped : d.running = false := by simpa using hstopped
        rw [h.hydrates hstopped] at hstep
        obtain rfl := Option.some.inj hstep
        exact h.reopen hstopped
  | installBackupKeys =>
      simp only [Step, Installation.step] at hstep
      split at hstep
      · rename_i hlocked
        obtain ⟨hrunning, hlocked⟩ : d.running = true ∧ d.core.backup.backupKeys = none := by simpa using hlocked
        obtain ⟨segments, hinstalls, hperm⟩ := h.installs
        rw [hinstalls] at hstep
        obtain rfl := Option.some.inj hstep
        exact h.installBackupKeys hrunning hlocked hperm
      · cases hstep

theorem inv_of_run {sink : Option BackupSink} {tr : List (Installation × InstallationAction)}
    (hrun : Run (Step P keys) (new sink) tr d) : d.Inv P keys :=
  hrun.invariant (fun _ _ _ hs hstep => hs.step hstep) (inv_new P keys sink)

end Installation

/-- **A crash loses nothing and repeats nothing**: in every state that calls, crashes and new processes reach, in the
middle of a call or with no process at all, every ledger row opens under the root key and the events of the ledger are,
together with those that compactions erased, exactly the typed events the cursor has passed; the persisted manifests are
one chain that ends in the stored tail. Whatever its predecessor was doing, a new process can read the tail back and, when
it is unlocked, the ledger; and unless a call is between its persist and its commit, an unlocked process remembers exactly
what the database holds, up to the order of the segments. -/
theorem a_crash_loses_nothing {P : Primitives} {keys : BackupKeys} {sink : Option BackupSink}
    {tr : List (Installation × InstallationAction)} {d : Installation}
    (hrun : Run (Installation.Step P keys) (Installation.new sink) tr d) :
    (∀ row ∈ d.core.db.ledger, ∃ t, materialiseRow P keys.rootKey row = .ok t) ∧
    (persistedEvents P keys.rootKey d.core.db ++ d.erased).Perm d.core.db.drained ∧
    (LinearChain P d.persisted ∧
      d.core.db.chain.map (fun row => P.cborManifest.decode row.manifestCbor) = d.persisted.getLast?.map some) ∧
    (d.running = false → ∃ c c', d.core.hydrateBackupManifestFromDb P = .ok c ∧ c.installBackupKeys P keys = .ok c' ∧
      c'.db = d.core.db ∧ c'.backup.chainState.previousManifest = d.persisted.getLast? ∧
      c'.backup.chainState.trackedSegments.Perm (persistedLedger P keys.rootKey d.core.db)) ∧
    (d.core.backup.backupKeys = some keys → (∀ call ∈ d.call, call.isPending = false) →
      d.core.backup.chainState.previousManifest = d.persisted.getLast? ∧
      d.core.backup.chainState.trackedSegments.Perm (persistedLedger P keys.rootKey d.core.db)) := by
  have h := Installation.inv_of_run hrun
  refine ⟨?_, h.partition, ⟨h.linear, h.tail⟩, ?_, ?_⟩
  · intro row hrow
    obtain ⟨i, hi⟩ := List.getElem?_of_mem hrow
    obtain ⟨hlt, hget⟩ := List.getElem?_eq_some_iff.mp hi
    have hreads := (List.forall₂_iff_get.mp h.reads).2 i hlt (h.reads.length_eq ▸ hlt)
    rw [List.get_eq_getElem, hget] at hreads
    exact ⟨_, hreads⟩
  · intro hstopped
    obtain ⟨segments, hinstalls, hperm⟩ := (h.reopen hstopped).installs
    exact ⟨_, _, h.hydrates hstopped, hinstalls, rfl, rfl, hperm⟩
  · intro hkeys hquiet
    have hmemory : d.chainState = d.core.backup.chainState := by
      unfold Installation.chainState
      cases hcall : d.call with
      | none => rfl
      | some call => exact Installation.commit_of_not_pending (hquiet call hcall) _
    rw [← hmemory]
    refine ⟨h.remembered ?_, h.installed hkeys⟩
    by_contra hstopped
    have := (h.stopped (by simpa using hstopped)).1
    exact absurd (hkeys.symm.trans (congrArg Coordinator.backupKeys this)) (by simp)

/-- The process dies after a persist; the next one reads back what the dead one had not committed. -/
def diesAfterPersist : List InstallationAction :=
  [.reopen, .installBackupKeys, .writeJournal "message_received" (some (Uuid.toText ⟨1⟩)) (some (Uuid.toText ⟨2⟩)) [] 1000,
    .startIncremental, .advance 5, .advance 5, .advance 5, .crash, .reopen, .installBackupKeys]

set_option maxRecDepth 100000 in
theorem a_crash_loses_nothing_after_persist :
    ∃ d, diesAfterPersist.foldlM (Installation.step .reference exampleKeys) (Installation.new none) = some d ∧
      d.core.db.drained.length = 1 ∧ d.core.backup.chainState.trackedSegments.length = 1 ∧
      (persistedEvents .reference exampleKeys.rootKey d.core.db ++ d.erased).Perm d.core.db.drained := by
  have hcounts : ((diesAfterPersist.foldlM (Installation.step .reference exampleKeys) (Installation.new none)).map fun d =>
      (d.core.db.drained.length, d.core.backup.chainState.trackedSegments.length)) = some (1, 1) := by decide +kernel
  obtain ⟨d, hd, hcounts⟩ := Option.map_eq_some_iff.mp hcounts
  obtain ⟨hdrained, htracked⟩ := Prod.mk.inj hcounts
  obtain ⟨-, hpartition, -⟩ := a_crash_loses_nothing (Run.of_foldlM hd)
  exact ⟨d, hd, hdrained, htracked, hpartition⟩

end KChatCore.Backup
