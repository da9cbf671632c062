import KChatCore.Backup.Calls

/-!
# `Backup.Invariant` — what holds between sequential backup calls

`Hydrates` says the database and the coordinator hold the same ledger and chain tail: every ledger row
materialises to the tracked segment at its place, and the persisted manifest decodes to the tail. `CoreInv`
adds that every tracked segment is well sealed under the installed root and that ids are distinct and drawn.

* `coreInv_fresh`, `CoreInv.insertJournal`, `CoreInv.incremental`, `CoreInv.compact` — the invariant holds of a
  fresh core and is kept by journal writes and by both calls, whatever their outcome.
-/

namespace KChatCore.Backup

open Lib

/-! ## Memory and database agree -/

/-- **The persisted pair equals the in-memory pair.** -/
structure Hydrates (P : Primitives) (root : KeyMaterial) (db : BackupDb) (chain : BackupChainState) : Prop where
  rows : List.Forall₂ (fun row t => materialiseRow P root row = .ok t) db.ledger chain.trackedSegments
  tail : db.chain.map (fun row => P.cborManifest.decode row.manifestCbor) = chain.previousManifest.map some

/-- A row that materialises carries the segment's id. -/
theorem segmentId_of_materialiseRow {P : Primitives} {root : KeyMaterial} {row : LedgerRow}
    {t : TrackedBackupSegment} (h : materialiseRow P root row = .ok t) :
    row.segmentId = t.built.segmentId.toText := by
  unfold materialiseRow at h
  obtain ⟨id, hid, h⟩ := except_bind_eq_ok.mp h
  obtain ⟨nonce, _, h⟩ := except_bind_eq_ok.mp h
  obtain ⟨mr, _, h⟩ := except_bind_eq_ok.mp h
  obtain ⟨ty, _, h⟩ := except_bind_eq_ok.mp h
  obtain ⟨tier, _, h⟩ := except_bind_eq_ok.mp h
  obtain ⟨k, _, h⟩ := except_bind_eq_ok.mp h
  rw [Except.ok.injEq] at h
  subst h
  have hparse := okOr_eq_ok.mp hid
  cases hrow : row.segmentId with
  | uuid u =>
      rw [hrow] at hparse
      exact congrArg IdText.uuid (Option.some.inj hparse)
  | malformed s =>
      rw [hrow] at hparse
      exact absurd hparse (by simp [Uuid.parseStr])

theorem rows_segmentId {P : Primitives} {root : KeyMaterial} {rows : List LedgerRow}
    {ledger : List TrackedBackupSegment}
    (h : List.Forall₂ (fun row t => materialiseRow P root row = .ok t) rows ledger) :
    rows.map LedgerRow.segmentId = (ledgerIds ledger).map Uuid.toText := by
  induction h with
  | nil => rfl
  | cons hrow _ ih =>
      simp only [List.map_cons, ledgerIds]
      rw [segmentId_of_materialiseRow hrow, ih]
      rfl

theorem buildLedgerRows_eq_ok {P : Primitives} {root : KeyMaterial} {nowMs : Int}
    {ledger : List TrackedBackupSegment} {rows : List LedgerRow}
    (h : buildLedgerRows P root nowMs ledger = .ok rows) :
    List.Forall₂ (fun row t => materialiseRow P root row = .ok t) rows ledger := by
  induction ledger generalizing rows with
  | nil =>
      simp only [buildLedgerRows, Except.ok.injEq] at h
      subst h
      exact List.Forall₂.nil
  | cons t ledger ih =>
      simp only [buildLedgerRows] at h
      cases hrow : buildLedgerRow P t root nowMs with
      | error e => simp [hrow] at h
      | ok row =>
          rw [hrow] at h
          cases hrows : buildLedgerRows P root nowMs ledger with
          | error e => simp [hrows, Except.map] at h
          | ok rows' =>
              simp only [hrows, Except.map, Except.ok.injEq] at h
              subst h
              exact List.Forall₂.cons (materialise_ledgerRow hrow) (ih hrows)

theorem buildLedgerRows_isOk (P : Primitives) (root : KeyMaterial) (nowMs : Int)
    {ledger : List TrackedBackupSegment} (h : ∀ t ∈ ledger, t.built.segmentType = .events) :
    ∃ rows, buildLedgerRows P root nowMs ledger = .ok rows := by
  induction ledger with
  | nil => exact ⟨[], rfl⟩
  | cons t ledger ih =>
      obtain ⟨row, hrow⟩ := buildLedgerRow_isOk P (h t (by simp)) root nowMs
      obtain ⟨rows, hrows⟩ := ih fun t' ht' => h t' (by simp [ht'])
      exact ⟨row :: rows, by simp [buildLedgerRows, hrow, hrows, Except.map]⟩

/-! ## The invariant -/

/-- **What holds between calls.** -/
structure CoreInv (P : Primitives) (keys : BackupKeys) (c : Core) : Prop where
  keys_eq : c.backup.backupKeys = some keys
  sealed : ∀ t ∈ c.backup.chainState.trackedSegments, WellSealed P keys.rootKey t
  ids_nodup : (ledgerIds c.backup.chainState.trackedSegments).Nodup
  ids_drawn : ∀ t ∈ c.backup.chainState.trackedSegments, ∃ n < c.drawn, t.built.segmentId = Uuid.nowV7 n
  tail_drawn : ∀ m ∈ c.backup.chainState.previousManifest, ∃ n < c.drawn, m.manifestId = Uuid.nowV7 n
  hydrates : Hydrates P keys.rootKey c.db c.backup.chainState

theorem coreInv_fresh (P : Primitives) (keys : BackupKeys) (sink : Option BackupSink) :
    CoreInv P keys (Core.fresh keys sink) where
  keys_eq := rfl
  sealed := by simp [Core.fresh]
  ids_nodup := by simp [Core.fresh, ledgerIds]
  ids_drawn := by simp [Core.fresh]
  tail_drawn := by simp [Core.fresh]
  hydrates := ⟨List.Forall₂.nil, rfl⟩

/-- Write a journal row. -/
def Core.insertJournal (c : Core) (tag : String) (conv mid : Option IdText) (payload : Bytes) (ms : Int) :
    Core := { c with db := { c.db with journal := c.db.journal.insert tag conv mid payload ms } }

/-- `BackupEventJournal::write_event`. -/
def Core.writeEvent (c : Core) (e : BackupEvent) : Core :=
  c.insertJournal e.eventType.asStr (e.conversationId.map Uuid.toText) (e.messageId.map Uuid.toText) e.payload
    e.createdAtMs

/-- Example keys. -/
def exampleKeys : BackupKeys := ⟨ByteArr.zeros 32, [1], "device-A"⟩

/-- An example event in conversation 1. -/
def exampleEvent (eventType : BackupEventType) (mid : Nat) (createdAtMs : Int) : BackupEvent :=
  ⟨eventType, some ⟨1⟩, some ⟨mid⟩, [], createdAtMs⟩

variable {P : Primitives} {keys : BackupKeys} {c c' c₂ : Core}

theorem CoreInv.insertJournal (h : CoreInv P keys c) (tag : String) (conv mid : Option IdText)
    (payload : Bytes) (ms : Int) : CoreInv P keys (c.insertJournal tag conv mid payload ms) :=
  ⟨h.keys_eq, h.sealed, h.ids_nodup, h.ids_drawn, h.tail_drawn, ⟨h.hydrates.rows, h.hydrates.tail⟩⟩

/-- The invariant does not look at the sink, and more entropy does no harm. -/
theorem CoreInv.of_eq (h : CoreInv P keys c) (hdb : c'.db = c.db) (hbackup : c'.backup = c.backup)
    (hdrawn : c.drawn ≤ c'.drawn) : CoreInv P keys c' where
  keys_eq := hbackup ▸ h.keys_eq
  sealed := hbackup ▸ h.sealed
  ids_nodup := hbackup ▸ h.ids_nodup
  ids_drawn := by
    intro t ht
    rw [hbackup] at ht
    obtain ⟨n, hn, hid⟩ := h.ids_drawn t ht
    exact ⟨n, hn.trans_le hdrawn, hid⟩
  tail_drawn := by
    intro m hm
    rw [hbackup] at hm
    obtain ⟨n, hn, hid⟩ := h.tail_drawn m hm
    exact ⟨n, hn.trans_le hdrawn, hid⟩
  hydrates := by
    rw [hdb, hbackup]
    exact h.hydrates

theorem CoreInv.untouched (h : CoreInv P keys c) (hu : Untouched c c') : CoreInv P keys c' :=
  h.of_eq hu.db hu.backup hu.drawn

theorem uploadStep_frame {outputs : List TrackedBackupSegment} {sealed : SealedBackupManifest}
    {r : Except Error (Nat × Bool)} (h : uploadStep P keys outputs sealed c = (r, c')) :
    c'.db = c.db ∧ c'.backup = c.backup ∧ c'.drawn = c.drawn := by
  unfold uploadStep at h
  cases hs : c.backupSink with
  | none =>
      simp only [hs, Prod.mk.injEq] at h
      obtain ⟨_, rfl⟩ := h
      exact ⟨rfl, rfl, rfl⟩
  | some sink =>
      simp only [hs] at h
      rcases hu : uploadBundles P keys sink outputs sealed with ⟨ru, sink'⟩
      rw [hu] at h
      cases ru with
      | error e =>
          simp only [Prod.mk.injEq] at h
          obtain ⟨_, rfl⟩ := h
          exact ⟨rfl, rfl, rfl⟩
      | ok u =>
          simp only [Prod.mk.injEq] at h
          obtain ⟨_, rfl⟩ := h
          exact ⟨rfl, rfl, rfl⟩

section Committed

variable {kept outputs listed : List TrackedBackupSegment} {sealed : SealedBackupManifest}

/-- The ids a commit adds are new. -/
theorem Committed.output_drawn (hc : Committed P c c' keys kept outputs listed sealed)
    {t : TrackedBackupSegment} (ht : t ∈ outputs) :
    ∃ n, c.drawn ≤ n ∧ n < c.drawn + outputs.length ∧ t.built.segmentId = Uuid.nowV7 n := by
  have hid : t.built.segmentId ∈ ledgerIds outputs := List.mem_map_of_mem ht
  rw [hc.output_ids, List.mem_map] at hid
  obtain ⟨n, hn, hnid⟩ := hid
  rw [List.mem_range'_1] at hn
  exact ⟨n, hn.1, hn.2, hnid.symm⟩

/-- The ids of a committed ledger are distinct. -/
theorem Committed.ids_nodup (h : CoreInv P keys c) (hc : Committed P c c' keys kept outputs listed sealed) :
    (ledgerIds (kept ++ outputs)).Nodup := by
  rw [ledgerIds, List.map_append, List.nodup_append]
  refine ⟨h.ids_nodup.sublist (hc.kept_sublist.map _), ?_, ?_⟩
  · show (ledgerIds outputs).Nodup
    rw [hc.output_ids]
    exact List.Nodup.map Uuid.nowV7_injective (List.nodup_range')
  · intro a ha b hb hab
    obtain ⟨t, ht, rfl⟩ := List.mem_map.mp ha
    obtain ⟨t', ht', rfl⟩ := List.mem_map.mp hb
    obtain ⟨n, hn, hnid⟩ := h.ids_drawn t (hc.kept_sublist.subset ht)
    obtain ⟨n', hn', _, hnid'⟩ := hc.output_drawn ht'
    rw [hnid, hnid', Uuid.nowV7_inj] at hab
    omega

/-- **A commit keeps the invariant**, provided the database was rewritten to match. -/
theorem CoreInv.committed (h : CoreInv P keys c) (hc : Committed P c c' keys kept outputs listed sealed)
    (hyd : Hydrates P keys.rootKey c'.db c'.backup.chainState) : CoreInv P keys c' where
  keys_eq := hc.backupKeys.trans hc.keys_eq
  sealed := by
    intro t ht
    rw [hc.chainState] at ht
    rcases List.mem_append.mp ht with hk | ho
    · exact h.sealed t (hc.kept_sublist.subset hk)
    · exact hc.outputs_sealed t ho
  ids_nodup := by
    rw [hc.chainState]
    exact hc.ids_nodup h
  ids_drawn := by
    intro t ht
    rw [hc.chainState] at ht
    rw [hc.drawn]
    rcases List.mem_append.mp ht with hk | ho
    · obtain ⟨n, hn, hid⟩ := h.ids_drawn t (hc.kept_sublist.subset hk)
      exact ⟨n, by omega, hid⟩
    · obtain ⟨n, _, hn, hid⟩ := hc.output_drawn ho
      exact ⟨n, by omega, hid⟩
  tail_drawn := by
    intro m hm
    rw [hc.chainState, Option.mem_some_iff] at hm
    subst hm
    rw [hc.drawn]
    exact ⟨_, Nat.lt_succ_self _, hc.manifest.id⟩
  hydrates := hyd

end Committed

/-- An incremental commit keeps database and memory in step. -/
theorem IncrementalCommitted.hydrates {nowMs : Int} {batch : ReadBatch} {tracked : TrackedBackupSegment}
    {sealed : SealedBackupManifest} (h : CoreInv P keys c)
    (hi : IncrementalCommitted P nowMs c c' keys batch tracked sealed) :
    Hydrates P keys.rootKey c'.db c'.backup.chainState := by
  obtain ⟨row, hrow, hdb⟩ := hi.persisted
  rw [hdb, hi.committed.chainState]
  refine ⟨?_, ?_⟩
  · exact List.rel_append h.hydrates.rows (List.Forall₂.cons (materialise_ledgerRow hrow) List.Forall₂.nil)
  · simp

/-- A compaction commit keeps database and memory in step. -/
theorem CompactionCommitted.hydrates {nowMs nowPersistMs : Int} {outputs : List TrackedBackupSegment}
    {sealed : SealedBackupManifest}
    (hi : CompactionCommitted P nowMs nowPersistMs c c' keys outputs sealed) :
    Hydrates P keys.rootKey c'.db c'.backup.chainState := by
  obtain ⟨rows, hrows, hdb⟩ := hi.persisted
  rw [hdb, hi.committed.chainState]
  exact ⟨buildLedgerRows_eq_ok hrows, by simp⟩

/-- **An incremental call keeps the invariant**, whatever its outcome. -/
theorem CoreInv.incremental {nowMs : Int} {r : Except Error (BackupResult × List SealedBackupEventRef)}
    (h : CoreInv P keys c) (hrun : runIncrementalBackupInner P nowMs c = (r, c')) : CoreInv P keys c' := by
  rcases runIncrementalBackupInner_cases hrun with ⟨hu, _⟩ | ⟨keys', batch, t, sealed, c₂, ru, hi, hup, _⟩
  · exact h.untouched hu
  · have hkeys : keys' = keys := Option.some.inj (hi.committed.keys_eq.symm.trans h.keys_eq)
    subst hkeys
    obtain ⟨hdb, hbackup, hdrawn⟩ := uploadStep_frame hup
    exact (h.committed hi.committed (hi.hydrates h)).of_eq hdb hbackup hdrawn.ge

/-- **A compaction keeps the invariant**, whatever its outcome. -/
theorem CoreInv.compact {nowMs nowPersistMs : Int} {r : Except Error BackupCompactionResult}
    (h : CoreInv P keys c) (hrun : compactBackup P nowMs nowPersistMs c = (r, c')) : CoreInv P keys c' := by
  rcases compactBackup_cases hrun with ⟨hu, _⟩ | ⟨keys', tally, sealed, c₂, ru, hi, hup, _⟩
  · exact h.untouched hu
  · have hkeys : keys' = keys := Option.some.inj (hi.committed.keys_eq.symm.trans h.keys_eq)
    subst hkeys
    obtain ⟨hdb, hbackup, hdrawn⟩ := uploadStep_frame hup
    exact (h.committed hi.committed hi.hydrates).of_eq hdb hbackup hdrawn.ge

end KChatCore.Backup
