import KChatCore.Backup.Interleaving

/-!
# `Backup.Accounting` — where the drained events are while calls interleave

Every typed event the cursor has passed should be in exactly one persisted segment, unless a compaction erased
it. Interleaved calls break this in two ways: an incremental persists a batch although another one has moved
the cursor into it, and a compaction replaces a ledger that has gained events since its snapshot.

* `Serialized` — the condition on a step that excludes both.
* `Accounted` — the accounting, as counts: no event is in the ledger more often than it was drained, and what is
  missing was erased.
* `accounted_of_serialized` — in a run whose steps are all serialized, every state is accounted for.
-/

namespace KChatCore.Backup

open Lib Tombstoning

/-! ## The persisted ledger -/

/-- The segments the ledger table holds. -/
def persistedLedger (P : Primitives) (root : KeyMaterial) (db : BackupDb) : List TrackedBackupSegment :=
  db.ledger.filterMap fun row => (materialiseRow P root row).toOption

/-- The events the ledger table holds. -/
def persistedEvents (P : Primitives) (root : KeyMaterial) (db : BackupDb) : List BackupEvent :=
  ledgerEvents P (persistedLedger P root db)

theorem persistedLedger_of_rows {P : Primitives} {root : KeyMaterial} (db : BackupDb)
    {ledger : List TrackedBackupSegment}
    (h : List.Forall₂ (fun row t => materialiseRow P root row = .ok t) db.ledger ledger) :
    persistedLedger P root db = ledger := by
  unfold persistedLedger
  generalize db.ledger = rows at h
  induction h with
  | nil => rfl
  | cons hrow _ ih =>
      rw [List.filterMap_cons, hrow, ih]
      rfl

theorem persistedLedger_append {P : Primitives} {root : KeyMaterial} {nowMs : Int} (db : BackupDb)
    (cursorRow : Option Nat) (chain : Option ManifestChainRow) {t : TrackedBackupSegment} {row : LedgerRow}
    (hrow : buildLedgerRow P t root nowMs = .ok row) :
    persistedLedger P root ⟨db.journal, cursorRow, db.ledger ++ [row], chain⟩ =
      persistedLedger P root db ++ [t] := by
  unfold persistedLedger
  rw [List.filterMap_append, List.filterMap_cons, materialise_ledgerRow hrow]
  rfl

/-! ## Segment ids -/

/-- The segments have distinct ids, all of them drawn already. -/
structure FreshIds (drawn : Nat) (ledger : List TrackedBackupSegment) : Prop where
  nodup : (ledgerIds ledger).Nodup
  drawn_lt : ∀ t ∈ ledger, ∃ n < drawn, t.built.segmentId = Uuid.nowV7 n

theorem FreshIds.subperm {drawn drawn' : Nat} {l l' : List TrackedBackupSegment} (h : FreshIds drawn l)
    (hsub : l'.Subperm l) (hle : drawn ≤ drawn') : FreshIds drawn' l' := by
  refine ⟨?_, fun t ht => ?_⟩
  · obtain ⟨l₁, hperm, hsublist⟩ := hsub
    exact (hperm.map _).nodup_iff.mp (h.nodup.sublist (hsublist.map _))
  obtain ⟨n, hn, hid⟩ := h.drawn_lt t (hsub.subset ht)
  exact ⟨n, hn.trans_le hle, hid⟩

/-- Newly drawn segments join. -/
theorem FreshIds.push {drawn : Nat} {l outputs : List TrackedBackupSegment} (h : FreshIds drawn l)
    (hids : ledgerIds outputs = (List.range' drawn outputs.length).map Uuid.nowV7) :
    FreshIds (drawn + outputs.length) (l ++ outputs) := by
  have hout : ∀ t ∈ outputs, ∃ n, drawn ≤ n ∧ n < drawn + outputs.length ∧ t.built.segmentId = Uuid.nowV7 n := by
    intro t ht
    have hmem : t.built.segmentId ∈ ledgerIds outputs := List.mem_map_of_mem ht
    rw [hids, List.mem_map] at hmem
    obtain ⟨n, hn, hnid⟩ := hmem
    rw [List.mem_range'_1] at hn
    exact ⟨n, hn.1, hn.2, hnid.symm⟩
  refine ⟨?_, fun t ht => ?_⟩
  · rw [ledgerIds, List.map_append, List.nodup_append]
    refine ⟨h.nodup, ?_, ?_⟩
    · show (ledgerIds outputs).Nodup
      rw [hids]
      exact List.Nodup.map Uuid.nowV7_injective List.nodup_range'
    · intro a ha b hb hab
      obtain ⟨t, ht, rfl⟩ := List.mem_map.mp ha
      obtain ⟨t', ht', rfl⟩ := List.mem_map.mp hb
      obtain ⟨n, hn, hid⟩ := h.drawn_lt t ht
      obtain ⟨n', hn', _, hid'⟩ := hout t' ht'
      rw [hid, hid', Uuid.nowV7_inj] at hab
      omega
  · rcases List.mem_append.mp ht with hl | ho
    · obtain ⟨n, hn, hid⟩ := h.drawn_lt t hl
      exact ⟨n, by omega, hid⟩
    · obtain ⟨n, _, hn, hid⟩ := hout t ho
      exact ⟨n, hn, hid⟩

/-! ## What the calls hold -/

namespace Call

/-- The ledgers a call works on: the snapshot it took, or the ledger it is about to write. -/
def ledgers : Call → List (List TrackedBackupSegment)
  | compactionSnapshot _ _ snapshot => [snapshot]
  | compactionResealed nowMs _ snapshot outputs => [newLedger snapshot nowMs outputs]
  | compactionChained nowMs _ snapshot outputs _ _ => [newLedger snapshot nowMs outputs]
  | compactionPersisted nowMs _ snapshot outputs _ => [newLedger snapshot nowMs outputs]
  | _ => []

/-- The segment an incremental has sealed and not yet committed. -/
def inflight : Call → List TrackedBackupSegment
  | incrementalSealed _ _ _ tracked => [tracked]
  | incrementalChained _ _ _ tracked _ _ => [tracked]
  | incrementalPersisted _ tracked _ => [tracked]
  | _ => []

/-- The events an incremental has persisted and not yet committed. -/
def pendingEvents (P : Primitives) : Call → List BackupEvent
  | incrementalPersisted _ tracked _ => segmentEvents P tracked
  | _ => []

end Call

namespace BackupSystem

/-- The ledgers around: the one in memory, and those of the calls. -/
def ledgers (s : BackupSystem) : List (List TrackedBackupSegment) :=
  s.core.backup.chainState.trackedSegments :: s.calls.flatMap Call.ledgers

/-- The segments sealed and not yet committed. -/
def inflight (s : BackupSystem) : List TrackedBackupSegment := s.calls.flatMap Call.inflight

/-- The events persisted and not yet committed. -/
def pendingEvents (P : Primitives) (s : BackupSystem) : List BackupEvent :=
  s.calls.flatMap (Call.pendingEvents P)

/-- **No ledger around holds an id twice**, and none holds the id of a segment that is still to be committed. -/
def IdsFresh (s : BackupSystem) : Prop := ∀ X ∈ s.ledgers, FreshIds s.core.drawn (X ++ s.inflight)

end BackupSystem

/-- What a step does to the ledgers around: each of them was there before, or grew as its case says. -/
theorem idsFresh_advance {P : Primitives} {nowPersistMs : Int} {s : BackupSystem} {before after : List Call}
    {call : Call} {o : Option Call} {c' : Core} {erased : List BackupEvent} {persisted : List BackupManifest}
    (h : s.IdsFresh) (hcalls : s.calls = before ++ call :: after)
    (hadv : Advance P nowPersistMs s.core call o c') :
    (BackupSystem.mk c' (before ++ o.toList ++ after) erased persisted).IdsFresh := by
  have hmem : ∀ X, X = s.core.backup.chainState.trackedSegments ∨ X ∈ before.flatMap Call.ledgers ∨
      X ∈ call.ledgers ∨ X ∈ after.flatMap Call.ledgers →
      FreshIds s.core.drawn (X ++ (before.flatMap Call.inflight ++ call.inflight ++
        after.flatMap Call.inflight)) := by
    intro X hX
    have hin : X ∈ s.ledgers := by
      rw [BackupSystem.ledgers, hcalls, List.flatMap_append, List.flatMap_cons, List.mem_cons,
        List.mem_append, List.mem_append]
      exact hX
    have hfresh := h X hin
    rw [BackupSystem.inflight, hcalls, List.flatMap_append, List.flatMap_cons] at hfresh
    rwa [List.append_assoc]
  intro X hX
  simp only [BackupSystem.ledgers, BackupSystem.inflight, List.flatMap_append, List.mem_cons,
    List.mem_append] at hX ⊢
  cases hadv with
  | left hpending hdb hbackup hdrawn =>
      simp only [Option.toList_none, List.flatMap_nil, List.not_mem_nil, or_false, List.append_nil] at hX ⊢
      rw [hbackup] at hX
      have hX' := hmem X (by tauto)
      refine hX'.subperm ?_ hdrawn
      exact ((List.sublist_append_left _ call.inflight).append_right _ |>.append_left X).subperm
  | @sealed readCursor batch k tracked hkeys hid hev =>
      simp only [Option.toList_some, List.flatMap_cons, List.flatMap_nil, Call.ledgers, Call.inflight,
        List.append_nil, List.not_mem_nil, or_false] at hX hmem ⊢
      have hX' := hmem X (by tauto)
      have hpush := hX'.push (show ledgerIds [tracked] = [s.core.drawn].map Uuid.nowV7 by simp [ledgerIds, hid])
      refine hpush.subperm (List.Perm.subperm ?_) le_rfl
      rw [← Multiset.coe_eq_coe]
      simp only [← Multiset.coe_add]
      abel
  | chained hbuilt =>
      simp only [Option.toList_some, List.flatMap_cons, List.flatMap_nil, Call.ledgers, Call.inflight,
        List.append_nil, List.not_mem_nil, or_false] at hX hmem ⊢
      exact (hmem X (by tauto)).subperm (List.Subperm.refl _) (Nat.le_succ _)
  | persisted hrow hcursor =>
      simp only [Option.toList_some, List.flatMap_cons, List.flatMap_nil, Call.ledgers, Call.inflight,
        List.append_nil, List.not_mem_nil, or_false] at hX hmem ⊢
      exact hmem X (by tauto)
  | committed =>
      simp only [Option.toList_some, List.flatMap_cons, List.flatMap_nil, Call.ledgers, Call.inflight,
        List.append_nil, List.not_mem_nil, or_false, Coordinator.commitIncremental_chainState] at hX hmem ⊢
      rcases hX with rfl | hX
      · -- the segment moves from the calls into memory
        refine (hmem _ (Or.inl rfl)).subperm (List.Perm.subperm ?_) le_rfl
        rw [← Multiset.coe_eq_coe]
        simp only [← Multiset.coe_add]
        abel
      · refine (hmem X (by tauto)).subperm ?_ le_rfl
        exact (((List.sublist_append_left _ _).append_right _).append_left X).subperm
  | resealed hev hids hc' =>
      subst hc'
      simp only [Option.toList_some, List.flatMap_cons, List.flatMap_nil, Call.ledgers, Call.inflight,
        List.append_nil, List.mem_singleton] at hX hmem ⊢
      by_cases hold : X = s.core.backup.chainState.trackedSegments ∨ X ∈ before.flatMap Call.ledgers ∨
          X ∈ after.flatMap Call.ledgers
      · exact (hmem X (by tauto)).subperm (List.Subperm.refl _) (Nat.le_add_right _ _)
      · obtain rfl : X = newLedger _ _ _ := by tauto
        -- what is kept of the snapshot, and the fresh outputs
        have hpush := (hmem _ (Or.inr (Or.inr (Or.inl rfl)))).push hids
        refine hpush.subperm ?_ le_rfl
        rw [newLedger, List.append_assoc, List.append_assoc]
        refine List.Subperm.append (keptSegments_sublist _ _).subperm (List.Perm.subperm ?_)
        exact List.perm_append_comm
  | compactionChained hbuilt =>
      simp only [Option.toList_some, List.flatMap_cons, List.flatMap_nil, Call.ledgers, Call.inflight,
        List.append_nil] at hX hmem ⊢
      exact (hmem X (by tauto)).subperm (List.Subperm.refl _) (Nat.le_succ _)
  | compactionPersisted hrows =>
      simp only [Option.toList_some, List.flatMap_cons, List.flatMap_nil, Call.ledgers, Call.inflight,
        List.append_nil] at hX hmem ⊢
      exact hmem X (by tauto)
  | compactionCommitted =>
      simp only [Option.toList_some, List.flatMap_cons, List.flatMap_nil, Call.ledgers, Call.inflight,
        List.append_nil, List.mem_singleton, List.not_mem_nil, or_false,
        Coordinator.commitCompaction_chainState] at hX hmem ⊢
      exact hmem X (by tauto)

theorem idsFresh_moved {P : Primitives} {s s' : BackupSystem} {a : Action} (h : s.IdsFresh)
    (hmove : Moved P s a s') : s'.IdsFresh := by
  cases hmove with
  | nothing => exact h
  | wrote tag conv mid payload ms => exact h
  | startedIncremental hread =>
      intro X hX
      have hX' : X ∈ s.ledgers := by
        simpa [BackupSystem.ledgers, Call.ledgers] using hX
      simpa [BackupSystem.inflight, Call.inflight] using h X hX'
  | startedCompaction hkeys =>
      intro X hX
      have hX' : X ∈ s.ledgers := by
        simp only [BackupSystem.ledgers, List.flatMap_append, List.flatMap_cons, Call.ledgers,
          List.flatMap_nil, List.append_nil, List.mem_cons, List.mem_append, List.not_mem_nil,
          or_false] at hX ⊢
        tauto
      simpa [BackupSystem.inflight, Call.inflight] using h X hX'
  | advanced hcalls hadv => exact idsFresh_advance h hcalls hadv

/-! ## What each call knows -/

/-- What the tombstone filter keeps of a group and what it drops make up the group. -/
theorem resolve_append_erasedFrom (events : List BackupEvent) :
    (backupTombstones.resolve events ++ erasedFrom events).Perm events := by
  have hperm := List.filter_append_perm
    (fun e => !backupTombstones.isTombstone e && !backupTombstones.covered events e) events
  simp only [Bool.not_and, Bool.not_not] at hperm
  exact hperm

theorem resolve_append_erasedFrom_groups (groups : List (List BackupEvent)) :
    (groups.flatMap backupTombstones.resolve ++ groups.flatMap erasedFrom).Perm groups.flatten := by
  induction groups with
  | nil => exact List.Perm.refl _
  | cons g groups ih =>
      rw [List.flatMap_cons, List.flatMap_cons, List.flatten_cons]
      refine List.Perm.trans ?_ ((resolve_append_erasedFrom g).append ih)
      rw [← Multiset.coe_eq_coe]
      simp only [← Multiset.coe_add]
      abel

/-- **The new ledger and what was erased make up the snapshot.** -/
theorem newLedger_append_erased {P : Primitives} {snapshot outputs : List TrackedBackupSegment} {nowMs : Int}
    (hids : (ledgerIds snapshot).Nodup)
    (houtputs : ledgerEvents P outputs = (groupEvents P snapshot nowMs).flatMap backupTombstones.resolve) :
    (ledgerEvents P (newLedger snapshot nowMs outputs) ++
      (groupEvents P snapshot nowMs).flatMap erasedFrom).Perm (ledgerEvents P snapshot) := by
  refine List.Perm.trans ?_ (ledgerEvents_snapshot P hids nowMs).symm
  rw [newLedger, ledgerEvents_newLedger houtputs, compacted, uncompacted, List.append_assoc]
  exact (resolve_append_erasedFrom_groups _).append_left _

/-- The batch is what the journal holds between the cursor its read found and its own. -/
structure BatchOf (t : JournalTable) (readCursor : Nat) (batch : ReadBatch) : Prop where
  cursor_lt : readCursor < batch.lastSeq
  lastSeq_le : batch.lastSeq ≤ t.lastSeq
  typed : t.typedUpTo batch.lastSeq = t.typedUpTo readCursor ++ batch.events

theorem BatchOf.insert {t : JournalTable} {readCursor : Nat} {batch : ReadBatch} (h : BatchOf t readCursor batch)
    (tag : String) (conv mid : Option IdText) (payload : Bytes) (ms : Int) :
    BatchOf (t.insert tag conv mid payload ms) readCursor batch := by
  have hlast : (t.insert tag conv mid payload ms).lastSeq = t.lastSeq + 1 := by
    simp [JournalTable.insert, JournalTable.lastSeq]
  have hle := h.lastSeq_le
  have hlt := h.cursor_lt
  refine ⟨hlt, by omega, ?_⟩
  rw [typedUpTo_insert t tag conv mid payload ms hle, typedUpTo_insert t tag conv mid payload ms (by omega)]
  exact h.typed

/-- **What is true of a call in flight**, whatever the others do. -/
def CallOk (P : Primitives) (keys : BackupKeys) (t : JournalTable) : Call → Prop
  | .incrementalRead readCursor batch => BatchOf t readCursor batch
  | .incrementalSealed readCursor batch k tracked =>
      k = keys ∧ BatchOf t readCursor batch ∧ segmentEvents P tracked = batch.events
  | .incrementalChained readCursor batch k tracked _ _ =>
      k = keys ∧ BatchOf t readCursor batch ∧ segmentEvents P tracked = batch.events
  | .compactionSnapshot _ k _ => k = keys
  | .compactionResealed nowMs k snapshot outputs =>
      k = keys ∧ (ledgerEvents P (newLedger snapshot nowMs outputs) ++
        (groupEvents P snapshot nowMs).flatMap erasedFrom).Perm (ledgerEvents P snapshot)
  | .compactionChained nowMs k snapshot outputs _ _ =>
      k = keys ∧ (ledgerEvents P (newLedger snapshot nowMs outputs) ++
        (groupEvents P snapshot nowMs).flatMap erasedFrom).Perm (ledgerEvents P snapshot)
  | _ => True

theorem CallOk.insert {P : Primitives} {keys : BackupKeys} {t : JournalTable} {call : Call}
    (h : CallOk P keys t call) (tag : String) (conv mid : Option IdText) (payload : Bytes) (ms : Int) :
    CallOk P keys (t.insert tag conv mid payload ms) call := by
  cases call with
  | incrementalRead readCursor batch => exact BatchOf.insert h tag conv mid payload ms
  | incrementalSealed readCursor batch k tracked =>
      exact ⟨h.1, h.2.1.insert tag conv mid payload ms, h.2.2⟩
  | incrementalChained readCursor batch k tracked previous sealed =>
      exact ⟨h.1, h.2.1.insert tag conv mid payload ms, h.2.2⟩
  | incrementalPersisted => exact h
  | compactionSnapshot => exact h
  | compactionResealed => exact h
  | compactionChained => exact h
  | compactionPersisted => exact h
  | uploading => exact h

/-- **A step hands on what the call knows.** -/
theorem callOk_advance {P : Primitives} {keys : BackupKeys} {nowPersistMs : Int} {c c' : Core}
    {call call' : Call} (hkeys : c.backup.backupKeys = some keys)
    (hids : ∀ X ∈ call.ledgers, (ledgerIds X).Nodup) (h : CallOk P keys c.db.journal call)
    (hadv : Advance P nowPersistMs c call (some call') c') : CallOk P keys c'.db.journal call' := by
  cases hadv with
  | sealed hk hid hev => exact ⟨Option.some.inj (hk.symm.trans hkeys), h, hev⟩
  | chained hbuilt => exact h
  | persisted hrow hcursor => trivial
  | committed => trivial
  | resealed hev hout hc' =>
      subst hc'
      exact ⟨h, newLedger_append_erased (hids _ (by simp [Call.ledgers])) hev⟩
  | compactionChained hbuilt => exact h
  | compactionPersisted hrows => trivial
  | compactionCommitted => trivial

/-! ## The accounting -/

/-- **The condition on a step of a call.** An incremental persists with the cursor where its read found it (a
batch the cursor has already passed is refused), a compaction persists over a ledger without events its snapshot
lacks. -/
def CallSerialized (P : Primitives) (keys : BackupKeys) (db : BackupDb) : Call → Prop
  | .incrementalChained readCursor batch _ _ _ _ => db.readCursor = readCursor ∨ batch.lastSeq < db.readCursor
  | .compactionChained _ _ snapshot _ _ _ =>
      ∀ e ∈ persistedEvents P keys.rootKey db,
        (persistedEvents P keys.rootKey db).count e ≤ (ledgerEvents P snapshot).count e
  | _ => True

instance (P : Primitives) (keys : BackupKeys) (db : BackupDb) (call : Call) :
    Decidable (CallSerialized P keys db call) := by
  cases call <;> unfold CallSerialized <;> infer_instance

/-- The condition on an action: that on the call it advances. -/
def Serialized (P : Primitives) (keys : BackupKeys) (s : BackupSystem) : Action → Prop
  | .advance index _ => ∀ call ∈ s.calls[index]?, CallSerialized P keys s.core.db call
  | _ => True

instance (P : Primitives) (keys : BackupKeys) (s : BackupSystem) (a : Action) :
    Decidable (Serialized P keys s a) := by
  cases a <;> unfold Serialized <;> infer_instance

/-- **Every drained event is accounted for**: none is in the persisted ledger more often than it was drained,
and one that is missing has been erased by a compaction. -/
structure AccountedFor (P : Primitives) (keys : BackupKeys) (s : BackupSystem) : Prop where
  not_duplicated : ∀ e, (persistedEvents P keys.rootKey s.core.db).count e ≤ s.core.db.drained.count e
  not_lost : ∀ e, s.core.db.drained.count e ≤
    (persistedEvents P keys.rootKey s.core.db).count e + s.erased.count e

/-- The invariant that carries the accounting through an interleaving. -/
structure Accounted (P : Primitives) (keys : BackupKeys) (s : BackupSystem) : Prop where
  keys_eq : s.core.backup.backupKeys = some keys
  cursor_le : s.core.db.readCursor ≤ s.core.db.journal.lastSeq
  ids : s.IdsFresh
  calls_ok : ∀ call ∈ s.calls, CallOk P keys s.core.db.journal call
  bound : ∀ X ∈ s.ledgers, ∀ e,
    (ledgerEvents P X).count e + (s.pendingEvents P).count e ≤ s.core.db.drained.count e
  accounted : AccountedFor P keys s

theorem accounted_init (P : Primitives) (keys : BackupKeys) (sink : Option BackupSink) :
    Accounted P keys (BackupSystem.init keys sink) where
  keys_eq := rfl
  cursor_le := Nat.zero_le _
  ids := by
    intro X hX
    have hX' : X = [] := by simpa [BackupSystem.init, BackupSystem.ledgers, Core.fresh] using hX
    subst hX'
    exact ⟨by simp [BackupSystem.init, BackupSystem.inflight, ledgerIds],
      by simp [BackupSystem.init, BackupSystem.inflight]⟩
  calls_ok := by simp [BackupSystem.init]
  bound := by
    intro X hX e
    have hX' : X = [] := by simpa [BackupSystem.init, BackupSystem.ledgers, Core.fresh] using hX
    subst hX'
    simp [BackupSystem.init, BackupSystem.pendingEvents]
  accounted := ⟨fun e => by simp [BackupSystem.init, Core.fresh, BackupDb.empty, persistedEvents, persistedLedger],
    fun e => by simp [BackupSystem.init, Core.fresh, BackupDb.empty, BackupDb.drained, JournalTable.typedUpTo,
      JournalTable.empty]⟩

section Advance

variable {P : Primitives} {keys : BackupKeys} {nowPersistMs : Int} {s : BackupSystem} {before after : List Call}
  {call : Call} {o : Option Call} {c' : Core}

/-- The bound, seen from one call. -/
theorem Accounted.bound_at (h : Accounted P keys s) (hcalls : s.calls = before ++ call :: after)
    {X : List TrackedBackupSegment} (hX : X = s.core.backup.chainState.trackedSegments ∨
      X ∈ before.flatMap Call.ledgers ∨ X ∈ call.ledgers ∨ X ∈ after.flatMap Call.ledgers) (e : BackupEvent) :
    (ledgerEvents P X).count e + ((before.flatMap (Call.pendingEvents P)).count e +
      (call.pendingEvents P).count e + (after.flatMap (Call.pendingEvents P)).count e) ≤
        s.core.db.drained.count e := by
  have hin : X ∈ s.ledgers := by
    rw [BackupSystem.ledgers, hcalls, List.flatMap_append, List.flatMap_cons, List.mem_cons, List.mem_append,
      List.mem_append]
    exact hX
  have hb := h.bound X hin e
  rw [BackupSystem.pendingEvents, hcalls, List.flatMap_append, List.flatMap_cons, List.count_append,
    List.count_append] at hb
  omega

/-- The condition, seen from one call. -/
theorem callSerialized_of_serialized (hcalls : s.calls = before ++ call :: after)
    (h : Serialized P keys s (.advance before.length nowPersistMs)) : CallSerialized P keys s.core.db call :=
  h call (by simp [hcalls])

/-- The ids in a call's ledger are distinct. -/
theorem Accounted.nodup_at (h : Accounted P keys s) (hcalls : s.calls = before ++ call :: after)
    {X : List TrackedBackupSegment} (hX : X ∈ call.ledgers) : (ledgerIds X).Nodup := by
  have hin : X ∈ s.ledgers := by
    rw [BackupSystem.ledgers, hcalls, List.flatMap_append, List.flatMap_cons, List.mem_cons, List.mem_append,
      List.mem_append]
    exact Or.inr (Or.inr (Or.inl hX))
  have hnodup := (h.ids X hin).nodup
  rw [ledgerIds, List.map_append] at hnodup
  exact List.Nodup.of_append_left hnodup

/-- A step leaves the journal alone, and the cursor only moves to a batch's end. -/
theorem cursor_advance (hadv : Advance P nowPersistMs s.core call o c')
    (hok : CallOk P keys s.core.db.journal call) (hcur : s.core.db.readCursor ≤ s.core.db.journal.lastSeq) :
    c'.backup.backupKeys = s.core.backup.backupKeys ∧ c'.db.journal = s.core.db.journal ∧
      c'.db.readCursor ≤ c'.db.journal.lastSeq := by
  cases hadv with
  | left hpending hdb hbackup hdrawn => exact ⟨by rw [hbackup], by rw [hdb], by rw [hdb]; exact hcur⟩
  | persisted hrow hcursor => exact ⟨rfl, rfl, hok.2.1.lastSeq_le⟩
  | sealed => exact ⟨rfl, rfl, hcur⟩
  | chained => exact ⟨rfl, rfl, hcur⟩
  | committed => exact ⟨rfl, rfl, hcur⟩
  | resealed hev hids hc' =>
      subst hc'
      exact ⟨rfl, rfl, hcur⟩
  | compactionChained => exact ⟨rfl, rfl, hcur⟩
  | compactionPersisted => exact ⟨rfl, rfl, hcur⟩
  | compactionCommitted => exact ⟨rfl, rfl, hcur⟩

/-- The events a serialized incremental persist drains are its segment's. -/
theorem drained_persisted {readCursor : Nat} {batch : ReadBatch} {k : BackupKeys} {tracked : TrackedBackupSegment}
    {previous : Option BackupManifest} {sealed : SealedBackupManifest} (ledger : List LedgerRow)
    (chain : Option ManifestChainRow)
    (hok : CallOk P keys s.core.db.journal (.incrementalChained readCursor batch k tracked previous sealed))
    (hguard : CallSerialized P keys s.core.db (.incrementalChained readCursor batch k tracked previous sealed))
    (hcursor : s.core.db.readCursor ≤ batch.lastSeq) :
    BackupDb.drained ⟨s.core.db.journal, some batch.lastSeq, ledger, chain⟩ =
      s.core.db.drained ++ segmentEvents P tracked := by
  obtain ⟨_, hbatch, hev⟩ := hok
  have hcur : s.core.db.readCursor = readCursor := Or.resolve_right hguard (not_lt.mpr hcursor)
  show s.core.db.journal.typedUpTo batch.lastSeq = _
  rw [hbatch.typed, BackupDb.drained, hcur, hev]

theorem bound_advance {erased : List BackupEvent} {persisted : List BackupManifest} (h : Accounted P keys s)
    (hcalls : s.calls = before ++ call :: after) (hadv : Advance P nowPersistMs s.core call o c')
    (hguard : Serialized P keys s (.advance before.length nowPersistMs)) :
    ∀ X ∈ (BackupSystem.mk c' (before ++ o.toList ++ after) erased persisted).ledgers, ∀ e,
      (ledgerEvents P X).count e +
          ((BackupSystem.mk c' (before ++ o.toList ++ after) erased persisted).pendingEvents P).count e ≤
        c'.db.drained.count e := by
  have hok : CallOk P keys s.core.db.journal call := h.calls_ok call (by rw [hcalls]; simp)
  have hmem := fun {X} => h.bound_at (X := X) hcalls
  have hcall := callSerialized_of_serialized hcalls hguard
  intro X hX e
  simp only [BackupSystem.ledgers, BackupSystem.pendingEvents, List.flatMap_append, List.mem_cons,
    List.mem_append, List.count_append] at hX ⊢
  cases hadv with
  | left hpending hdb hbackup hdrawn =>
      simp only [Option.toList_none, List.flatMap_nil, List.not_mem_nil, or_false, List.count_nil] at hX ⊢
      rw [hbackup] at hX
      have hb := hmem (X := X) (by tauto) e
      rw [hdb]
      omega
  | sealed hkeys hid hev =>
      simp only [Option.toList_some, List.flatMap_cons, List.flatMap_nil, Call.ledgers, Call.pendingEvents,
        List.append_nil, List.not_mem_nil, or_false, List.count_nil] at hX hmem ⊢
      exact hmem (X := X) (by tauto) e
  | chained hbuilt =>
      simp only [Option.toList_some, List.flatMap_cons, List.flatMap_nil, Call.ledgers, Call.pendingEvents,
        List.append_nil, List.not_mem_nil, or_false, List.count_nil] at hX hmem ⊢
      exact hmem (X := X) (by tauto) e
  | persisted hrow hcursor =>
      -- the segment's events become pending and drained at once
      simp only [Option.toList_some, List.flatMap_cons, List.flatMap_nil, Call.ledgers, Call.pendingEvents,
        List.append_nil, List.not_mem_nil, or_false, List.count_nil] at hX hmem ⊢
      have hb := hmem (X := X) (by tauto) e
      rw [drained_persisted _ _ hok hcall hcursor, List.count_append]
      omega
  | committed =>
      simp only [Option.toList_some, List.flatMap_cons, List.flatMap_nil, Call.ledgers, Call.pendingEvents,
        List.append_nil, List.not_mem_nil, or_false, List.count_nil,
        Coordinator.commitIncremental_chainState] at hX hmem ⊢
      show _ ≤ s.core.db.drained.count e
      rcases hX with rfl | hX
      · have hb := hmem (Or.inl rfl) e
        rw [ledgerEvents_append, ledgerEvents_singleton, List.count_append]
        omega
      · have hb := hmem (X := X) (by tauto) e
        omega
  | resealed hev hids hc' =>
      subst hc'
      simp only [Option.toList_some, List.flatMap_cons, List.flatMap_nil, Call.ledgers, Call.pendingEvents,
        List.append_nil, List.mem_singleton, List.count_nil] at hX hmem ⊢
      show _ ≤ s.core.db.drained.count e
      by_cases hold : X = s.core.backup.chainState.trackedSegments ∨ X ∈ before.flatMap Call.ledgers ∨
          X ∈ after.flatMap Call.ledgers
      · exact hmem (X := X) (by tauto) e
      · obtain rfl : X = newLedger _ _ _ := by tauto
        -- the new ledger holds at most what the snapshot did
        have hsnap := hmem (Or.inr (Or.inr (Or.inl rfl))) e
        have hnodup := h.nodup_at hcalls (List.mem_singleton.mpr rfl)
        have hcount := (newLedger_append_erased hnodup hev).count_eq e
        rw [List.count_append] at hcount
        omega
  | compactionChained hbuilt =>
      simp only [Option.toList_some, List.flatMap_cons, List.flatMap_nil, Call.ledgers, Call.pendingEvents,
        List.append_nil, List.count_nil] at hX hmem ⊢
      exact hmem (X := X) (by tauto) e
  | compactionPersisted hrows =>
      simp only [Option.toList_some, List.flatMap_cons, List.flatMap_nil, Call.ledgers, Call.pendingEvents,
        List.append_nil, List.count_nil] at hX hmem ⊢
      exact hmem (X := X) (by tauto) e
  | compactionCommitted =>
      simp only [Option.toList_some, List.flatMap_cons, List.flatMap_nil, Call.ledgers, Call.pendingEvents,
        List.append_nil, List.mem_singleton, List.not_mem_nil, or_false, List.count_nil,
        Coordinator.commitCompaction_chainState] at hX hmem ⊢
      exact hmem (X := X) (by tauto) e

/-- A step that changes neither the database nor the record of erased events keeps the accounting. -/
theorem AccountedFor.of_eq {calls : List Call} {erased : List BackupEvent} {persisted : List BackupManifest}
    (h : AccountedFor P keys s) (hdb : c'.db = s.core.db) (herased : erased = s.erased) :
    AccountedFor P keys ⟨c', calls, erased, persisted⟩ := by
  subst herased
  refine ⟨fun e => ?_, fun e => ?_⟩
  · show (persistedEvents P keys.rootKey c'.db).count e ≤ c'.db.drained.count e
    rw [hdb]
    exact h.not_duplicated e
  · show c'.db.drained.count e ≤ (persistedEvents P keys.rootKey c'.db).count e + s.erased.count e
    rw [hdb]
    exact h.not_lost e

theorem accountedFor_advance (h : Accounted P keys s)
    (hcalls : s.calls = before ++ call :: after) (hadv : Advance P nowPersistMs s.core call o c')
    (hguard : Serialized P keys s (.advance before.length nowPersistMs)) :
    AccountedFor P keys {
      core := c'
      calls := before ++ o.toList ++ after
      erased := s.erased ++ o.toList.flatMap (Call.erasedEvents P)
      persisted := s.persisted ++ o.toList.flatMap Call.persistedManifest } := by
  have hok : CallOk P keys s.core.db.journal call := h.calls_ok call (by rw [hcalls]; simp)
  have hmem := fun {X} => h.bound_at (X := X) hcalls
  have hdup := h.accounted.not_duplicated
  have hlost := h.accounted.not_lost
  have hcall := callSerialized_of_serialized hcalls hguard
  cases hadv with
  | left hpending hdb hbackup hdrawn => exact h.accounted.of_eq hdb (by simp)
  | sealed hkeys hid hev => exact h.accounted.of_eq rfl (by simp [Call.erasedEvents])
  | chained hbuilt => exact h.accounted.of_eq rfl (by simp [Call.erasedEvents])
  | committed => exact h.accounted.of_eq rfl (by simp [Call.erasedEvents])
  | resealed hev hids hc' =>
      subst hc'
      exact h.accounted.of_eq rfl (by simp [Call.erasedEvents])
  | compactionChained hbuilt => exact h.accounted.of_eq rfl (by simp [Call.erasedEvents])
  | compactionCommitted => exact h.accounted.of_eq rfl (by simp [Call.erasedEvents])
  | @persisted readCursor batch k tracked previous sealed row hrow hcursor =>
      -- one segment more in the ledger, its events more in what is drained
      obtain rfl : k = keys := hok.1
      have hledger := persistedLedger_append s.core.db (some batch.lastSeq) (some
        ⟨wrapI64 sealed.manifest.generation, P.cborManifest.encode sealed.manifest, nowPersistMs⟩) hrow
      have hdrained := drained_persisted (s.core.db.ledger ++ [row]) (some ⟨wrapI64 sealed.manifest.generation,
        P.cborManifest.encode sealed.manifest, nowPersistMs⟩) hok hcall hcursor
      refine ⟨fun e => ?_, fun e => ?_⟩
      · have hd := hdup e
        rw [persistedEvents, hledger, ledgerEvents_append, ledgerEvents_singleton, hdrained,
          List.count_append, List.count_append]
        exact Nat.add_le_add_right hd _
      · have hl := hlost e
        rw [persistedEvents, hledger, ledgerEvents_append, ledgerEvents_singleton, hdrained,
          List.count_append, List.count_append]
        simp only [Option.toList_some, List.flatMap_cons, List.flatMap_nil, Call.erasedEvents, List.append_nil]
        rw [persistedEvents] at hl
        omega
  | @compactionPersisted nowMs k snapshot outputs previous sealed rows hrows =>
      -- the ledger becomes the new one; what the snapshot had more is recorded as erased
      obtain ⟨rfl, hperm⟩ := hok
      have hledger := persistedLedger_of_rows { s.core.db with
        ledger := rows
        chain := some ⟨wrapI64 sealed.manifest.generation, P.cborManifest.encode sealed.manifest,
          nowPersistMs⟩ } (buildLedgerRows_eq_ok hrows)
      refine ⟨fun e => ?_, fun e => ?_⟩
      · have hb := hmem (X := newLedger snapshot nowMs outputs) (by simp [Call.ledgers]) e
        rw [persistedEvents, hledger]
        show _ ≤ s.core.db.drained.count e
        omega
      · have hl := hlost e
        have hcount := hperm.count_eq e
        rw [List.count_append] at hcount
        have hsnap : (persistedEvents P k.rootKey s.core.db).count e ≤ (ledgerEvents P snapshot).count e := by
          by_cases he : e ∈ persistedEvents P k.rootKey s.core.db
          · exact hcall e he
          · rw [List.count_eq_zero.mpr he]
            exact Nat.zero_le _
        rw [persistedEvents, hledger]
        simp only [Option.toList_some, List.flatMap_cons, List.flatMap_nil, Call.erasedEvents, List.append_nil,
          List.count_append]
        show s.core.db.drained.count e ≤ _
        omega

end Advance

/-! ## Runs -/

section Runs

variable {P : Primitives} {keys : BackupKeys}

/-- **A serialized action keeps the accounting.** -/
theorem accounted_moved {s s' : BackupSystem} {a : Action} (h : Accounted P keys s)
    (hguard : Serialized P keys s a) (hmove : Moved P s a s') : Accounted P keys s' := by
  have hids := idsFresh_moved h.ids hmove
  cases hmove with
  | nothing => exact h
  | wrote tag conv mid payload ms =>
      -- a journaled row stands behind the cursor, so that nothing new counts as drained
      have hdrained : (s.core.insertJournal tag conv mid payload ms).db.drained = s.core.db.drained :=
        typedUpTo_insert _ tag conv mid payload ms h.cursor_le
      refine ⟨h.keys_eq, ?_, hids, fun call hcall => (h.calls_ok call hcall).insert tag conv mid payload ms,
        fun X hX e => ?_, fun e => ?_, fun e => ?_⟩
      · show s.core.db.readCursor ≤ (s.core.db.journal.insert tag conv mid payload ms).lastSeq
        rw [lastSeq_insert]
        exact h.cursor_le.trans (Nat.le_succ _)
      · rw [hdrained]
        exact h.bound X hX e
      · rw [hdrained]
        exact h.accounted.not_duplicated e
      · rw [hdrained]
        exact h.accounted.not_lost e
  | @startedIncremental batch hread =>
      -- a started call owns nothing yet: the ledgers stay
      obtain ⟨_, hlt, hle, hup⟩ := readBatch_eq_some hread
      refine ⟨h.keys_eq, h.cursor_le, hids, fun call hcall => ?_, fun X hX e => ?_, h.accounted.of_eq rfl rfl⟩
      · rcases List.mem_append.mp hcall with hold | hnew
        · exact h.calls_ok call hold
        · rw [List.mem_singleton.mp hnew]
          exact ⟨hlt, hle, hup⟩
      · have hX' : X ∈ s.ledgers := by simpa [BackupSystem.ledgers, Call.ledgers] using hX
        simpa [BackupSystem.pendingEvents, Call.pendingEvents] using h.bound X hX' e
  | @startedCompaction nowMs k hkeys =>
      refine ⟨h.keys_eq, h.cursor_le, hids, fun call hcall => ?_, fun X hX e => ?_, h.accounted.of_eq rfl rfl⟩
      · rcases List.mem_append.mp hcall with hold | hnew
        · exact h.calls_ok call hold
        · rw [List.mem_singleton.mp hnew]
          exact Option.some.inj (hkeys.symm.trans h.keys_eq)
      · have hX' : X ∈ s.ledgers := by
          simp only [BackupSystem.ledgers, List.flatMap_append, List.flatMap_cons, Call.ledgers,
            List.flatMap_nil, List.append_nil, List.mem_cons, List.mem_append, List.not_mem_nil,
            or_false] at hX ⊢
          tauto
        simpa [BackupSystem.pendingEvents, Call.pendingEvents] using h.bound X hX' e
  | @advanced nowPersistMs before after call o c' hcalls hadv =>
      -- the call that moved; the others keep their place before and behind it
      have hok : CallOk P keys s.core.db.journal call := h.calls_ok call (by rw [hcalls]; simp)
      obtain ⟨hkeys, hjournal, hcursor⟩ := cursor_advance hadv hok h.cursor_le
      refine ⟨hkeys.trans h.keys_eq, hcursor, hids, fun call' hcall' => ?_, bound_advance h hcalls hadv hguard,
        accountedFor_advance h hcalls hadv hguard⟩
      rcases List.mem_append.mp hcall' with hcall' | hafter
      · rcases List.mem_append.mp hcall' with hbefore | hself
        · rw [hjournal]
          exact h.calls_ok call' (by rw [hcalls]; simp [hbefore])
        · cases o with
          | none => exact absurd hself (by simp)
          | some call₁ =>
              rw [Option.toList_some, List.mem_singleton] at hself
              subst hself
              exact callOk_advance h.keys_eq (fun X hX => h.nodup_at hcalls hX) hok hadv
      · rw [hjournal]
        exact h.calls_ok call' (by rw [hcalls]; simp [hafter])

/-- **No lost and no duplicated events in a serialized run.** From a fresh core, in every interleaving of calls
and journal writes whose steps are all serialized, every state is accounted for. -/
theorem accounted_of_serialized {sink : Option BackupSink} {tr : List (BackupSystem × Action)} {s : BackupSystem}
    (hrun : Run (BackupSystem.Step P) (BackupSystem.init keys sink) tr s)
    (hserial : ∀ p ∈ tr, Serialized P keys p.1 p.2) : AccountedFor P keys s := by
  have hinv : Accounted P keys s := by
    refine hrun.invariant_of_guarded (I := Accounted P keys) (G := Serialized P keys) ?_ hserial
      (accounted_init P keys sink)
    intro t a t' ht hguard hstep
    have hmove : Moved P t a t' := by
      rw [← show t.next P a = t' from hstep]
      exact moved_of_next t a
    exact accounted_moved ht hguard hmove
  exact hinv.accounted

end Runs

/-! ## A compaction that loses an append -/

/-- Write an event into the journal. -/
def Action.writeEvent (e : BackupEvent) : Action :=
  .writeJournal e.eventType.asStr (e.conversationId.map Uuid.toText) (e.messageId.map Uuid.toText) e.payload
    e.createdAtMs

/-- Start an incremental and let it run to its end, as the call at `index`. -/
def Action.incrementalPass (index : Nat) : List Action :=
  .startIncremental :: List.replicate 5 (.advance index 0)

/-- Two messages backed up on their own days, as one pass each. -/
def twoPasses : List Action :=
  [Action.writeEvent (exampleEvent .messageReceived 1 (5 * dayMs))] ++ Action.incrementalPass 0 ++
    [Action.writeEvent (exampleEvent .messageReceived 2 (6 * dayMs))] ++ Action.incrementalPass 0

/-- A compaction takes its snapshot and re-seals; before it persists, a third message is backed up. -/
def lostAppend : List Action :=
  twoPasses ++ [.startCompaction (30 * dayMs), .advance 0 0] ++
    [Action.writeEvent (exampleEvent .messageReceived 3 (29 * dayMs))] ++ Action.incrementalPass 1 ++
    [.advance 0 0, .advance 0 0, .advance 0 0]

set_option maxRecDepth 100000 in
/-- **A lost append**: the third message is drained, but the compaction has written a ledger without it. -/
theorem compaction_loses_append :
    ∃ tr s, Run (BackupSystem.Step Primitives.reference) (BackupSystem.init exampleKeys none) tr s ∧
      ¬ AccountedFor Primitives.reference exampleKeys s := by
  refine ⟨_, _, BackupSystem.run_actions Primitives.reference (BackupSystem.init exampleKeys none) lostAppend,
    fun h => ?_⟩
  have hlost := h.not_lost (exampleEvent .messageReceived 3 (29 * dayMs))
  exact absurd hlost (by decide +kernel)

/-- Two passes, then a compaction that nothing interrupts. -/
def compactedPasses : List Action :=
  twoPasses ++ .startCompaction (30 * dayMs) :: List.replicate 5 (.advance 0 0)

set_option maxRecDepth 100000 in
/-- Calls in a row are serialized, and their events accounted for. -/
theorem compactedPasses_accounted :
    AccountedFor Primitives.reference exampleKeys
      ((BackupSystem.init exampleKeys none).runActions Primitives.reference compactedPasses) :=
  accounted_of_serialized
    (BackupSystem.run_actions Primitives.reference (BackupSystem.init exampleKeys none) compactedPasses)
    (by decide +kernel)

end KChatCore.Backup
