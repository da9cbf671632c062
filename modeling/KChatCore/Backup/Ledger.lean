import KChatCore.Backup.Compaction
import KChatCore.Backup.Wire

/-!
# `Backup.Ledger` — the segment ledger and chain tail, in memory and in the database

The coordinator keeps the chain tail and the tracked segments under one lock; the database keeps a single-row
`backup_manifest_chain` and one `backup_segment_ledger` row per segment, with the segment's key wrapped under
the backup root.

* `Coordinator.commitIncremental`, `Coordinator.commitCompaction` — the in-memory commits.
* `BackupDb.appendSegmentAndManifest`, `BackupDb.replaceLedgerAndManifest` — the two SAVEPOINTs.
* `materialise_ledgerRow` — a row written for a segment reads back as that segment.
* `segmentEvents`, `ledgerEvents` — the events a tracked segment, and a whole ledger, hold.
-/

namespace KChatCore.Backup

/-! ## The in-memory coordinator -/

/-- `BackupKeys`. -/
structure BackupKeys where
  rootKey : KeyMaterial
  signingKey : Bytes
  deviceId : String
deriving DecidableEq

/-- `TrackedBackupSegment`. -/
structure TrackedBackupSegment where
  built : BuiltBackupSegment
  tier : CompactionTier
  minEventMs : Int
  maxEventMs : Int
  kSegment : KeyMaterial
deriving DecidableEq

/-- `BackupChainState`: the chain tail and the ledger, under one lock. -/
structure BackupChainState where
  previousManifest : Option BackupManifest
  trackedSegments : List TrackedBackupSegment
deriving DecidableEq

/-- `Coordinator`. -/
structure Coordinator where
  backupKeys : Option BackupKeys
  chainState : BackupChainState
deriving DecidableEq

namespace Coordinator

/-- `Coordinator::require_keys`. -/
def requireKeys (c : Coordinator) : Except Error BackupKeys :=
  okOr c.backupKeys (.storage (.subsystemNotInstalled "backup_keys"))

/-- `Coordinator::commit_incremental`: new tail, segment pushed. -/
def commitIncremental (c : Coordinator) (manifest : BackupManifest) (tracked : TrackedBackupSegment) :
    Coordinator :=
  { c with chainState := ⟨some manifest, c.chainState.trackedSegments ++ [tracked]⟩ }

/-- `Coordinator::commit_compaction`: new tail, ledger replaced. -/
def commitCompaction (c : Coordinator) (manifest : BackupManifest) (newLedger : List TrackedBackupSegment) :
    Coordinator :=
  { c with chainState := ⟨some manifest, newLedger⟩ }

@[simp] theorem commitIncremental_keys (c : Coordinator) (m : BackupManifest) (t : TrackedBackupSegment) :
    (c.commitIncremental m t).backupKeys = c.backupKeys := rfl

@[simp] theorem commitIncremental_chainState (c : Coordinator) (m : BackupManifest)
    (t : TrackedBackupSegment) :
    (c.commitIncremental m t).chainState = ⟨some m, c.chainState.trackedSegments ++ [t]⟩ := rfl

@[simp] theorem commitCompaction_keys (c : Coordinator) (m : BackupManifest)
    (l : List TrackedBackupSegment) : (c.commitCompaction m l).backupKeys = c.backupKeys := rfl

@[simp] theorem commitCompaction_chainState (c : Coordinator) (m : BackupManifest)
    (l : List TrackedBackupSegment) : (c.commitCompaction m l).chainState = ⟨some m, l⟩ := rfl

end Coordinator

/-! ## Ledger rows -/

/-- `BackupSegmentLedgerRow`; a count always fits the column, a `Vec` having at most `isize::MAX` elements. -/
structure LedgerRow where
  segmentId : IdText
  segmentType : String
  nonce : Bytes
  ciphertext : Bytes
  merkleRoot : Bytes
  eventCount : Nat
  tier : String
  minEventMs : Int
  maxEventMs : Int
  wrappedKSegment : Bytes
  createdAtMs : Int
deriving DecidableEq

/-- The tier column. -/
def CompactionTier.column : CompactionTier → String
  | .daily => "daily"
  | .weekly => "weekly"
  | .monthly => "monthly"

/-- Read the tier column. -/
def CompactionTier.ofColumn : String → Except Error CompactionTier
  | "daily" => .ok .daily
  | "weekly" => .ok .weekly
  | "monthly" => .ok .monthly
  | other => .error (.storageMsg ("backup_segment_ledger: unknown tier=" ++ other))

@[simp] theorem CompactionTier.ofColumn_column (t : CompactionTier) : ofColumn t.column = .ok t := by
  cases t <;> rfl

/-- The segment type column; only backup segments may be persisted. -/
def segmentTypeColumn : SegmentType → Except Error String
  | .events => .ok "events"
  | other =>
      .error (.storageMsg ("backup_segment_ledger: backup segment carried unexpected segment_type=" ++ other.debug))

/-- `build_backup_segment_ledger_row`. -/
def buildLedgerRow (P : Primitives) (seg : TrackedBackupSegment) (backupRoot : KeyMaterial) (nowMs : Int) :
    Except Error LedgerRow :=
  let wrapped := wrapKAsset P seg.kSegment backupRoot
  (segmentTypeColumn seg.built.segmentType).map fun segmentType => {
    segmentId := seg.built.segmentId.toText
    segmentType := segmentType
    nonce := seg.built.nonce.toList
    ciphertext := seg.built.ciphertext
    merkleRoot := seg.built.merkleRoot.toList
    eventCount := seg.built.eventCount
    tier := seg.tier.column
    minEventMs := seg.minEventMs
    maxEventMs := seg.maxEventMs
    wrappedKSegment := wrapped
    createdAtMs := nowMs }

/-- Read a fixed-length BLOB column. -/
def blobColumn (n : Nat) (name : String) (b : Bytes) : Except Error (ByteArr n) :=
  if h : b.length = n then .ok ⟨b, h⟩
  else .error (.storageMsg ("backup_segment_ledger: " ++ name ++ " length " ++ toString b.length ++ " != " ++
    toString n))

@[simp] theorem blobColumn_toList {n : Nat} (name : String) (v : ByteArr n) :
    blobColumn n name v.toList = .ok v := by
  obtain ⟨l, rfl⟩ := v
  simp [blobColumn, List.Vector.toList]

/-- Read the segment type column. -/
def segmentTypeOfColumn : String → Except Error SegmentType
  | "events" => .ok .events
  | other => .error (.storageMsg ("backup_segment_ledger: unknown segment_type=" ++ other))

/-- One row of `materialise_backup_segments_from_db`. -/
def materialiseRow (P : Primitives) (backupRoot : KeyMaterial) (row : LedgerRow) :
    Except Error TrackedBackupSegment := do
  let segmentId ← okOr (Uuid.parseStr row.segmentId) (.storageMsg "backup_segment_ledger: malformed segment_id")
  let nonce ← blobColumn 24 "nonce" row.nonce
  let merkleRoot ← blobColumn 32 "merkle_root" row.merkleRoot
  let segmentType ← segmentTypeOfColumn row.segmentType
  let tier ← CompactionTier.ofColumn row.tier
  let kSegment ← (unwrapKAsset P row.wrappedKSegment backupRoot).mapError Error.crypto
  .ok ⟨⟨segmentId, segmentType, nonce, row.ciphertext, merkleRoot, row.eventCount⟩, tier, row.minEventMs,
    row.maxEventMs, kSegment⟩

/-- **A row reads back as the segment it was written for.** -/
theorem materialise_ledgerRow {P : Primitives} {seg : TrackedBackupSegment} {root : KeyMaterial} {nowMs : Int}
    {row : LedgerRow} (h : buildLedgerRow P seg root nowMs = .ok row) :
    materialiseRow P root row = .ok seg := by
  obtain ⟨⟨id, ty, nonce, ct, mr, n⟩, tier, lo, hi, k⟩ := seg
  cases ty <;> simp only [buildLedgerRow, segmentTypeColumn, Except.map, Except.ok.injEq, reduceCtorEq] at h
  subst h
  simp [materialiseRow, segmentTypeOfColumn, Except.mapError, bind, Except.bind]

theorem buildLedgerRow_isOk (P : Primitives) {seg : TrackedBackupSegment} (h : seg.built.segmentType = .events)
    (root : KeyMaterial) (nowMs : Int) : ∃ row, buildLedgerRow P seg root nowMs = .ok row := by
  rw [buildLedgerRow, h]
  exact ⟨_, rfl⟩

theorem buildLedgerRow_segmentId {P : Primitives} {seg : TrackedBackupSegment} {root : KeyMaterial}
    {nowMs : Int} {row : LedgerRow} (h : buildLedgerRow P seg root nowMs = .ok row) :
    row.segmentId = seg.built.segmentId.toText := by
  unfold buildLedgerRow at h
  cases hty : segmentTypeColumn seg.built.segmentType with
  | error e => simp [hty, Except.map] at h
  | ok ty =>
      simp only [hty, Except.map, Except.ok.injEq] at h
      rw [← h]

/-! ## The database -/

/-- The single row of `backup_manifest_chain`. -/
structure ManifestChainRow where
  generation : Int
  manifestCbor : Bytes
  updatedAtMs : Int
deriving DecidableEq

/-- **The backup tables**: journal, cursor, ledger, chain tail. -/
structure BackupDb where
  journal : JournalTable
  cursorRow : Option Nat
  ledger : List LedgerRow
  chain : Option ManifestChainRow

namespace BackupDb

/-- A database no backup has run on. -/
def empty : BackupDb := ⟨JournalTable.empty, none, [], none⟩

/-- `read_cursor`: 0 while no cursor row has been written. -/
def readCursor (db : BackupDb) : Nat := db.cursorRow.getD 0

/-- `BackupEventJournal::read_unsegmented`. -/
def readUnsegmented (db : BackupDb) (limit : Nat) : Except Error (List (Nat × BackupEvent)) :=
  readEventsSince db.journal db.readCursor limit

/-- The typed events at or below the cursor: what the backup is supposed to hold. -/
def drained (db : BackupDb) : List BackupEvent := db.journal.typedUpTo db.readCursor

/-- `INSERT INTO backup_segment_ledger`: the primary key is the segment id. -/
def insertLedgerRow (ledger : List LedgerRow) (row : LedgerRow) : Except Error (List LedgerRow) :=
  if ledger.any fun r => r.segmentId = row.segmentId then
    .error (.storageMsg "rusqlite: UNIQUE constraint failed: backup_segment_ledger.segment_id")
  else .ok (ledger ++ [row])

/-- Insert rows one by one. -/
def insertLedgerRows : List LedgerRow → List LedgerRow → Except Error (List LedgerRow)
  | ledger, [] => .ok ledger
  | ledger, row :: rows => (insertLedgerRow ledger row).bind fun ledger' => insertLedgerRows ledger' rows

/-- `atomic_append_segment_and_manifest`: cursor, ledger row and chain tail in one SAVEPOINT. The cursor may
stay where it is, but not go back. -/
def appendSegmentAndManifest (db : BackupDb) (row : LedgerRow) (manifestCbor : Bytes) (generation : Int)
    (cursorSeq : Nat) (updatedAtMs : Int) : Except Error BackupDb :=
  if cursorSeq < db.readCursor then
    .error (.storageMsg ("invariant violated: backup cursor cannot go backwards (current=" ++
      toString db.readCursor ++ ", requested=" ++ toString cursorSeq ++ ")"))
  else
    (insertLedgerRow db.ledger row).map fun ledger =>
      { db with cursorRow := some cursorSeq, ledger := ledger,
                chain := some ⟨generation, manifestCbor, updatedAtMs⟩ }

/-- `atomic_replace_ledger_and_manifest`: the whole ledger is deleted and written anew. -/
def replaceLedgerAndManifest (db : BackupDb) (rows : List LedgerRow) (manifestCbor : Bytes)
    (generation : Int) (updatedAtMs : Int) : Except Error BackupDb :=
  (insertLedgerRows [] rows).map fun ledger =>
    { db with ledger := ledger, chain := some ⟨generation, manifestCbor, updatedAtMs⟩ }

theorem insertLedgerRow_eq_ok {ledger ledger' : List LedgerRow} {row : LedgerRow} :
    insertLedgerRow ledger row = .ok ledger' ↔
      (∀ r ∈ ledger, r.segmentId ≠ row.segmentId) ∧ ledger' = ledger ++ [row] := by
  unfold insertLedgerRow
  by_cases h : (ledger.any fun r => r.segmentId = row.segmentId) = true
  · rw [if_pos h]
    refine ⟨fun hok => absurd hok (by simp), fun ⟨hno, _⟩ => ?_⟩
    obtain ⟨r, hr, heq⟩ := List.any_eq_true.mp h
    exact absurd (of_decide_eq_true heq) (hno r hr)
  · rw [if_neg h, Except.ok.injEq]
    have hno : ∀ r ∈ ledger, r.segmentId ≠ row.segmentId := by simpa using h
    exact ⟨fun hok => ⟨hno, hok.symm⟩, fun hok => hok.2.symm⟩

/-- Rows with distinct ids can be inserted, and are then what the table holds. -/
theorem insertLedgerRows_eq_ok {ledger rows ledger' : List LedgerRow} :
    insertLedgerRows ledger rows = .ok ledger' →
      ledger' = ledger ++ rows ∧
        ((ledger.map LedgerRow.segmentId).Nodup → (ledger'.map LedgerRow.segmentId).Nodup) := by
  induction rows generalizing ledger with
  | nil =>
      intro h
      simp only [insertLedgerRows, Except.ok.injEq] at h
      simp [h]
  | cons row rows ih =>
      intro h
      simp only [insertLedgerRows] at h
      cases hi : insertLedgerRow ledger row with
      | error e => simp [hi, Except.bind] at h
      | ok ledger₁ =>
          rw [hi, Except.bind] at h
          obtain ⟨hno, rfl⟩ := insertLedgerRow_eq_ok.mp hi
          obtain ⟨heq, hnd⟩ := ih h
          refine ⟨by rw [heq, List.append_assoc, List.singleton_append], fun hl => hnd ?_⟩
          rw [List.map_append, List.nodup_append]
          refine ⟨hl, by simp, fun a ha b hb => ?_⟩
          obtain ⟨r, hr, rfl⟩ := List.mem_map.mp ha
          rw [List.map_singleton, List.mem_singleton] at hb
          rw [hb]
          exact hno r hr

theorem insertLedgerRows_isOk {ledger rows : List LedgerRow}
    (h : ((ledger ++ rows).map LedgerRow.segmentId).Nodup) :
    insertLedgerRows ledger rows = .ok (ledger ++ rows) := by
  induction rows generalizing ledger with
  | nil => simp [insertLedgerRows]
  | cons row rows ih =>
      have hno : ∀ r ∈ ledger, r.segmentId ≠ row.segmentId := by
        intro r hr heq
        rw [List.map_append, List.nodup_append] at h
        exact h.2.2 r.segmentId (List.mem_map_of_mem hr) row.segmentId (by simp) heq
      have hins : insertLedgerRow ledger row = .ok (ledger ++ [row]) :=
        insertLedgerRow_eq_ok.mpr ⟨hno, rfl⟩
      rw [insertLedgerRows, hins, Except.bind, ih (by simpa using h)]
      simp

end BackupDb

/-! ## The events a ledger holds -/

/-- The events of a tracked segment. -/
def segmentEvents (P : Primitives) (t : TrackedBackupSegment) : List BackupEvent :=
  sealedEvents P t.built t.kSegment

/-- The events of a ledger, segment by segment. -/
def ledgerEvents (P : Primitives) (ledger : List TrackedBackupSegment) : List BackupEvent :=
  ledger.flatMap (segmentEvents P)

theorem ledgerEvents_append (P : Primitives) (l l' : List TrackedBackupSegment) :
    ledgerEvents P (l ++ l') = ledgerEvents P l ++ ledgerEvents P l' := List.flatMap_append

@[simp] theorem ledgerEvents_nil (P : Primitives) : ledgerEvents P [] = [] := rfl

@[simp] theorem ledgerEvents_singleton (P : Primitives) (t : TrackedBackupSegment) :
    ledgerEvents P [t] = segmentEvents P t := by simp [ledgerEvents]

theorem ledgerEvents_perm (P : Primitives) {l l' : List TrackedBackupSegment} (h : l.Perm l') :
    (ledgerEvents P l).Perm (ledgerEvents P l') := h.flatMap_right _

/-- **A segment that was sealed by this device**: it opens under its own key, the key is the one its id
derives, and it is an event segment with at least one event. -/
structure WellSealed (P : Primitives) (root : KeyMaterial) (t : TrackedBackupSegment) : Prop where
  opens : decryptBackupSegment P t.built t.kSegment = .ok ⟨backupSegmentPayloadMagic, segmentEvents P t⟩
  derived : t.kSegment = P.deriveBackupSegment root t.built.segmentId.asBytes
  segmentType : t.built.segmentType = .events
  nonempty : segmentEvents P t ≠ []
  count : t.built.eventCount = (segmentEvents P t).length

/-- Sealing under the derived key gives a well-sealed segment holding the sealed events. -/
theorem wellSealed_of_build {P : Primitives} {root : KeyMaterial} {events : List BackupEvent} {id : Uuid}
    {nonce : ByteArr 24} {built : BuiltBackupSegment}
    (h : buildSegmentWithId P ⟨events, .events⟩ id (P.deriveBackupSegment root id.asBytes) nonce = .ok built)
    (tier : CompactionTier) (lo hi : Int) :
    WellSealed P root ⟨built, tier, lo, hi, P.deriveBackupSegment root id.asBytes⟩ ∧
      segmentEvents P ⟨built, tier, lo, hi, P.deriveBackupSegment root id.asBytes⟩ = events := by
  have hevents : sealedEvents P built (P.deriveBackupSegment root id.asBytes) = events :=
    sealedEvents_of_buildSegmentWithId h
  obtain ⟨hid, hty, hcount⟩ := buildSegmentWithId_fields h
  refine ⟨⟨?_, ?_, hty, ?_, ?_⟩, hevents⟩
  · show decryptBackupSegment P built _ = .ok ⟨_, sealedEvents P built _⟩
    rw [hevents]
    exact decryptBackupSegment_of_buildSegmentWithId h
  · show P.deriveBackupSegment root id.asBytes = P.deriveBackupSegment root built.segmentId.asBytes
    rw [hid]
  · show sealedEvents P built _ ≠ []
    rw [hevents]
    exact events_ne_nil_of_buildSegmentWithId h
  · show built.eventCount = (sealedEvents P built _).length
    rw [hevents]
    exact hcount

end KChatCore.Backup
