import KChatCore.Lib.Migrations
import KChatCore.Lib.Run

/-!
# `LocalStore.Migrations` — how a database file gets its schema

Every process that opens the store for writing brings the schema up to date first, and drops the connection if that
fails. A `DatabaseFile` is what the file shows between processes: the version in its header and the objects of
`sqlite_master`, with the `tokenize` clause of the one virtual table.

A reader does not probe the linked library but the schema, so its `icu_available` is that of the writer that created the
table.
-/

namespace KChatCore.LocalStore

open Lib

/-! ## The schema -/

/-- An object of `sqlite_master`. -/
structure SchemaObject where
  name : String
  tokenize : Option String
  deriving DecidableEq, Repr

/-- A `CREATE … IF NOT EXISTS` statement of the schema. -/
inductive SchemaStatement
  | createTable (name : String)
  | createIndex (name table : String)
  | createFts5 (name tokenize : String)
  deriving DecidableEq, Repr

/-- What the statement creates. -/
def SchemaStatement.object : SchemaStatement → SchemaObject
  | .createTable name => ⟨name, none⟩
  | .createIndex name _ => ⟨name, none⟩
  | .createFts5 name tokenize => ⟨name, some tokenize⟩

/-- `FTS5_TOKENIZE_ICU`. -/
def fts5TokenizeIcu : String := "tokenize = 'icu'"

/-- `FTS5_TOKENIZE_UNICODE61`. -/
def fts5TokenizeUnicode61 : String := "tokenize = 'unicode61 remove_diacritics 2'"

/-- `SCHEMA_SQL`. -/
def schemaSql : List SchemaStatement :=
  [.createTable "conversation", .createIndex "idx_conv_community" "conversation",
    .createIndex "idx_conv_domain" "conversation", .createIndex "idx_conv_tenant" "conversation",
    .createIndex "idx_conv_scope" "conversation", .createTable "message_skeleton", .createTable "message_body",
    .createTable "media_asset", .createFts5 "search_fts" fts5TokenizeIcu, .createTable "search_fuzzy",
    .createTable "search_vector", .createTable "media_search_index", .createTable "backup_event_journal",
    .createTable "backup_event_cursor", .createTable "archive_segment_map",
    .createIndex "idx_asm_tenant_bucket" "archive_segment_map", .createTable "archive_event_journal",
    .createTable "archive_event_cursor", .createTable "restore_state"]

/-- `MIGRATION_V2_SQL`. -/
def migrationV2Sql : List SchemaStatement :=
  [.createTable "backup_manifest_chain", .createTable "backup_segment_ledger",
    .createIndex "idx_backup_segment_ledger_tier_min" "backup_segment_ledger"]

/-- `sql.replace` of the `icu` clause by the `unicode61` one: `create_schema_with_unicode61_fallback`. -/
def withUnicode61Fallback (sql : List SchemaStatement) : List SchemaStatement :=
  sql.map fun statement =>
    match statement with
    | .createFts5 name tokenize =>
        .createFts5 name (if tokenize = fts5TokenizeIcu then fts5TokenizeUnicode61 else tokenize)
    | _ => statement

/-- `MIGRATIONS`. -/
def migrations : List (ℤ × List SchemaStatement) := [(1, schemaSql), (2, migrationV2Sql)]

/-- `LATEST_USER_VERSION`. -/
def latestUserVersion : ℤ := 2

/-! ## Opening a file for writing -/

/-- **A database file** between processes: `PRAGMA user_version` and `sqlite_master`. -/
structure DatabaseFile where
  userVersion : ℤ
  objects : List SchemaObject
  deriving DecidableEq, Repr

/-- A file that was just created. -/
def DatabaseFile.new : DatabaseFile := ⟨0, []⟩

instance : Versioned DatabaseFile where
  version := DatabaseFile.userVersion
  setVersion v file := { file with userVersion := v }
  version_setVersion _ _ := rfl

/-- The object is there. -/
def DatabaseFile.has (file : DatabaseFile) (name : String) : Bool := file.objects.any (·.name = name)

/-- One statement. The linked library may lack the `icu` tokenizer. -/
def SchemaStatement.execute (icuLinked : Bool) (statement : SchemaStatement) (file : DatabaseFile) :
    Except String DatabaseFile :=
  let created := { file with objects := file.objects ++ [statement.object] }
  if file.has statement.object.name then .ok file
  else
    match statement with
    | .createTable _ => .ok created
    | .createIndex _ table => if file.has table then .ok created else .error s!"no such table: main.{table}"
    | .createFts5 _ tokenize =>
        if tokenize = fts5TokenizeIcu && !icuLinked then .error "no such tokenizer: icu" else .ok created

/-- **An attempt to open the file**: what the library offers, and what fails. `beforeMigrations` is a failure of the key, of
a pragma or of the read of the version. -/
structure Attempt where
  icuLinked : Bool
  probeFails : Bool
  beforeMigrations : Option String
  faults : ℤ → MigrationFaults String

/-- `fts5_icu_available`: the throw-away table could be created. -/
def fts5IcuAvailable (attempt : Attempt) : Bool := attempt.icuLinked && !attempt.probeFails

/-- The migrations as one process runs them. -/
def migrationsOf (icuLinked icuAvailable : Bool) : List (Migration DatabaseFile String) :=
  migrations.map fun (target, sql) =>
    ⟨target, (if target = 1 && !icuAvailable then withUnicode61Fallback sql else sql).map fun statement =>
      statement.execute icuLinked⟩

/-- `run_migrations`. -/
def runMigrations (attempt : Attempt) (icuAvailable : Bool) (c : Connection DatabaseFile) :
    Except String Unit × Connection DatabaseFile :=
  migrate (fun target => s!"migration_v{target}") attempt.faults (migrationsOf attempt.icuLinked icuAvailable)
    c.db.userVersion c

/-- `init_connection`, and what the file shows once the connection is gone, whether it was used or dropped. -/
def initConnection (attempt : Attempt) (file : DatabaseFile) : Except String Bool × DatabaseFile :=
  match attempt.beforeMigrations with
  | some e => (.error e, file)
  | none =>
      let icuAvailable := fts5IcuAvailable attempt
      let (r, c) := runMigrations attempt icuAvailable ⟨file, []⟩
      (r.map fun _ => icuAvailable, c.dropped)

/-- `probe_fts_icu_available`: what a reader reads of the schema. -/
def probeFtsIcuAvailable (file : DatabaseFile) : Bool :=
  match (file.objects.find? (·.name = "search_fts")).bind SchemaObject.tokenize with
  | some sql => "tokenize = 'icu'".toList <:+: sql.toList || "tokenize='icu'".toList <:+: sql.toList
  | none => false

/-- One attempt after the other. -/
def DatabaseFile.Step (file : DatabaseFile) (attempt : Attempt) (file' : DatabaseFile) : Prop :=
  (initConnection attempt file).2 = file'

/-! ## What the file can show -/

/-- The objects of migration 1, where the writer found the `icu` tokenizer or not. -/
def objectsV1 (icuAvailable : Bool) : List SchemaObject :=
  (if icuAvailable then schemaSql else withUnicode61Fallback schemaSql).map SchemaStatement.object

/-- The objects of migration 2. -/
def objectsV2 : List SchemaObject := migrationV2Sql.map SchemaStatement.object

/-- **A file between migrations**: nothing, the first schema, or both, and the version that says so. -/
inductive DatabaseFile.Whole : DatabaseFile → Prop
  | new : Whole ⟨0, []⟩
  | v1 (icuAvailable : Bool) : Whole ⟨1, objectsV1 icuAvailable⟩
  | v2 (icuAvailable : Bool) : Whole ⟨2, objectsV1 icuAvailable ++ objectsV2⟩

/-- Migration 1 creates every object of the schema, and no clause the library lacks. -/
theorem runStatements_v1 {icuLinked icuAvailable : Bool} (h : icuAvailable = true → icuLinked = true) :
    runStatements ((if !icuAvailable then withUnicode61Fallback schemaSql else schemaSql).map fun statement =>
      statement.execute icuLinked) ⟨0, []⟩ = (.ok (), ⟨0, objectsV1 icuAvailable⟩) := by
  cases icuAvailable
  · cases icuLinked <;> rfl
  · rw [h rfl]
    rfl

/-- Migration 2 adds its objects to those of migration 1. -/
theorem runStatements_v2 (icuLinked icuAvailable : Bool) :
    runStatements (migrationV2Sql.map fun statement => statement.execute icuLinked) ⟨1, objectsV1 icuAvailable⟩ =
      (.ok (), ⟨1, objectsV1 icuAvailable ++ objectsV2⟩) := by
  cases icuLinked <;> cases icuAvailable <;> rfl

theorem migrationsOf_eq (icuLinked icuAvailable : Bool) : migrationsOf icuLinked icuAvailable =
    [⟨1, (if !icuAvailable then withUnicode61Fallback schemaSql else schemaSql).map fun statement =>
        statement.execute icuLinked⟩,
      ⟨2, migrationV2Sql.map fun statement => statement.execute icuLinked⟩] := by
  cases icuAvailable <;> rfl

/-- **What a reader sees is what the writer found** that created the table. -/
theorem probeFtsIcuAvailable_objectsV1 (version : ℤ) (icuAvailable : Bool) (more : List SchemaObject) :
    probeFtsIcuAvailable ⟨version, objectsV1 icuAvailable ++ more⟩ = icuAvailable := by
  cases icuAvailable <;> rfl

/-! ## One attempt -/

/-- **What an attempt may do to a whole file**: it stays whole, its version does not go back, and a reader sees what the
writer found that created its tables. -/
structure Upgraded (icuAvailable all : Bool) (file file' : DatabaseFile) : Prop where
  whole : file'.Whole
  version_le : file.userVersion ≤ file'.userVersion
  latest : all = true → file'.userVersion = latestUserVersion
  same : file.userVersion = latestUserVersion → file' = file
  probe : file'.userVersion ≠ 0 → probeFtsIcuAvailable file' =
    if file.userVersion = 0 then icuAvailable else probeFtsIcuAvailable file

theorem applied_nil {all : Bool} {file file' : DatabaseFile}
    (h : Applied ([] : List (Migration DatabaseFile String)) all file file') : file' = file := by
  cases h <;> rfl

/-- Past migration 2 there is nothing to do. -/
theorem applied_v2 {icuLinked all : Bool} {objects : List SchemaObject} {file' : DatabaseFile}
    (h : Applied [⟨2, migrationV2Sql.map fun statement => statement.execute icuLinked⟩] all ⟨2, objects⟩ file') :
    file' = ⟨2, objects⟩ := by
  cases h with
  | stopped => rfl
  | skipped _ h => exact applied_nil h
  | ran hlt => exact absurd (show (2 : ℤ) < 2 from hlt) (by decide)

/-- From migration 1 on, migration 2 is applied whole or not at all. -/
theorem applied_v1 {icuLinked icuAvailable all : Bool} {file' : DatabaseFile}
    (h : Applied [⟨2, migrationV2Sql.map fun statement => statement.execute icuLinked⟩] all
      ⟨1, objectsV1 icuAvailable⟩ file') :
    all = false ∧ file' = ⟨1, objectsV1 icuAvailable⟩ ∨ file' = ⟨2, objectsV1 icuAvailable ++ objectsV2⟩ := by
  cases h with
  | stopped => exact .inl ⟨rfl, rfl⟩
  | skipped hle => exact absurd (show (2 : ℤ) ≤ 1 from hle) (by decide)
  | ran _ hbody h =>
      rw [runStatements_v2] at hbody
      obtain rfl := congrArg Prod.snd hbody
      exact .inr (applied_nil h)

/-- **Whole migrations keep a file whole.** -/
theorem upgraded_of_applied {icuLinked icuAvailable all : Bool} {file file' : DatabaseFile} (hwhole : file.Whole)
    (hicu : icuAvailable = true → icuLinked = true) (h : Applied (migrationsOf icuLinked icuAvailable) all file file') :
    Upgraded icuAvailable all file file' := by
  rw [migrationsOf_eq] at h
  cases hwhole with
  | new =>
      cases h with
      | stopped => exact ⟨.new, le_rfl, by simp, fun _ => rfl, by simp⟩
      | skipped hle => exact absurd (show (1 : ℤ) ≤ 0 from hle) (by decide)
      | ran _ hbody h =>
          rw [runStatements_v1 hicu] at hbody
          obtain rfl := congrArg Prod.snd hbody
          have hprobe := probeFtsIcuAvailable_objectsV1
          obtain ⟨rfl, rfl⟩ | rfl := applied_v1 h
          · refine ⟨.v1 icuAvailable, show (0 : ℤ) ≤ 1 by decide, by simp, by simp [latestUserVersion], fun _ => ?_⟩
            simpa using hprobe 1 icuAvailable []
          · refine ⟨.v2 icuAvailable, show (0 : ℤ) ≤ 2 by decide, fun _ => rfl, by simp [latestUserVersion], fun _ => ?_⟩
            simpa using hprobe 2 icuAvailable objectsV2
  | v1 stamped =>
      cases h with
      | stopped => exact ⟨.v1 stamped, le_rfl, by simp, fun _ => rfl, by simp⟩
      | ran hlt => exact absurd (show (1 : ℤ) < 1 from hlt) (by decide)
      | skipped _ h =>
          have hprobe := probeFtsIcuAvailable_objectsV1
          obtain ⟨rfl, rfl⟩ | rfl := applied_v1 h
          · exact ⟨.v1 stamped, le_rfl, by simp, fun _ => rfl, by simp⟩
          · refine ⟨.v2 stamped, show (1 : ℤ) ≤ 2 by decide, fun _ => rfl, by simp [latestUserVersion], fun _ => ?_⟩
            have h1 := hprobe 1 stamped []
            rw [List.append_nil] at h1
            simpa [h1] using hprobe 2 stamped objectsV2
  | v2 stamped =>
      have hsame : file' = ⟨2, objectsV1 stamped ++ objectsV2⟩ := by
        cases h with
        | stopped => rfl
        | ran hlt => exact absurd (show (2 : ℤ) < 1 from hlt) (by decide)
        | skipped _ h => exact applied_v2 h
      subst hsame
      exact ⟨.v2 stamped, le_rfl, fun _ => rfl, fun _ => rfl, by simp⟩

/-- **An attempt upgrades a whole file**, or leaves it, and returns only where it is up to date. -/
theorem upgraded_of_attempt {file : DatabaseFile} (hwhole : file.Whole) (attempt : Attempt) :
    Upgraded (fts5IcuAvailable attempt) (initConnection attempt file).1.toBool file (initConnection attempt file).2 := by
  unfold initConnection
  cases hbefore : attempt.beforeMigrations with
  | some e => exact ⟨hwhole, le_rfl, by simp [Except.toBool], fun _ => rfl, fun hne => by simp_all⟩
  | none =>
      rcases hrun : runMigrations attempt (fts5IcuAvailable attempt) ⟨file, []⟩ with ⟨r, c⟩
      have hicu : fts5IcuAvailable attempt = true → attempt.icuLinked = true := by
        simp only [fts5IcuAvailable, Bool.and_eq_true]
        exact And.left
      have happlied : Applied (migrationsOf attempt.icuLinked (fts5IcuAvailable attempt)) r.toBool file c.dropped :=
        migrate_dropped rfl hrun
      have hresult : (r.map fun _ => fts5IcuAvailable attempt).toBool = r.toBool := by cases r <;> rfl
      simp only [hrun, hresult]
      exact upgraded_of_applied hwhole hicu happlied

/-- All migrations can be applied to a whole file. -/
theorem applied_whole {icuLinked icuAvailable : Bool} {file : DatabaseFile} (hwhole : file.Whole)
    (hicu : icuAvailable = true → icuLinked = true) :
    ∃ file', Applied (migrationsOf icuLinked icuAvailable) true file file' := by
  rw [migrationsOf_eq]
  cases hwhole with
  | new =>
      exact ⟨_, .ran (show (0 : ℤ) < 1 by decide) (runStatements_v1 hicu)
        (.ran (show (1 : ℤ) < 2 by decide) (runStatements_v2 icuLinked icuAvailable) (.done _))⟩
  | v1 stamped =>
      exact ⟨_, .skipped (show (1 : ℤ) ≤ 1 by decide)
        (.ran (show (1 : ℤ) < 2 by decide) (runStatements_v2 icuLinked stamped) (.done _))⟩
  | v2 stamped =>
      exact ⟨_, .skipped (show (1 : ℤ) ≤ 2 by decide) (.skipped (show (2 : ℤ) ≤ 2 by decide) (.done _))⟩

/-- Where nothing fails, an attempt goes through. -/
theorem initConnection_isOk {file : DatabaseFile} (hwhole : file.Whole) (icuLinked probeFails : Bool) :
    ∃ icuAvailable, (initConnection ⟨icuLinked, probeFails, none, fun _ => .none⟩ file).1 = .ok icuAvailable := by
  have hicu : (icuLinked && !probeFails) = true → icuLinked = true := by
    rw [Bool.and_eq_true]
    exact And.left
  obtain ⟨file', happlied⟩ := applied_whole hwhole hicu
  have hrun : runMigrations ⟨icuLinked, probeFails, none, fun _ => .none⟩ (icuLinked && !probeFails) ⟨file, []⟩ =
      (.ok (), ⟨file', []⟩) := migrate_of_applied happlied
  refine ⟨icuLinked && !probeFails, ?_⟩
  simp only [initConnection, fts5IcuAvailable, hrun]
  rfl

/-- **What a reader sees**, along the attempts: what the one found that created the tables. -/
theorem probe_of_run {tr : List (DatabaseFile × Attempt)} {file : DatabaseFile}
    (hrun : Run DatabaseFile.Step DatabaseFile.new tr file) :
    file.Whole ∧ (∀ p ∈ tr, p.1.userVersion ≤ file.userVersion) ∧ (file.userVersion ≠ 0 →
      ∃ p ∈ tr, p.1.userVersion = 0 ∧ probeFtsIcuAvailable file = fts5IcuAvailable p.2) := by
  induction hrun with
  | refl => exact ⟨.new, by simp, fun hne => absurd rfl hne⟩
  | @tail tr t t' attempt _ hstep ih =>
      obtain ⟨hwhole, hversions, hprobe⟩ := ih
      obtain rfl := hstep
      have hup := upgraded_of_attempt hwhole attempt
      refine ⟨hup.whole, ?_, ?_⟩
      · intro p hp
        rcases List.mem_append.mp hp with hp | hp
        · exact (hversions p hp).trans hup.version_le
        · obtain rfl := List.mem_singleton.mp hp
          exact hup.version_le
      · intro hne
        have hseen := hup.probe hne
        by_cases hzero : t.userVersion = 0
        · rw [if_pos hzero] at hseen
          exact ⟨(t, attempt), by simp, hzero, hseen⟩
        · rw [if_neg hzero] at hseen
          obtain ⟨p, hp, hp0, hfound⟩ := hprobe hzero
          exact ⟨p, List.mem_append_left _ hp, hp0, hseen.trans hfound⟩

/-- **No file is ever left half-way**: whatever fails in whatever order of attempts, and wherever a process dies, the file
shows whole migrations and the version that counts them, the version never goes back, an attempt that returns has reached
the latest one, and an attempt on a file that has reached it changes nothing. Where nothing fails the next attempt
returns. The tokenizer a reader sees is the one that the writer found which created the tables. -/
theorem migrations_are_never_half_done {tr : List (DatabaseFile × Attempt)} {file : DatabaseFile}
    (hrun : Run DatabaseFile.Step DatabaseFile.new tr file) :
    file.Whole ∧ (∀ p ∈ tr, p.1.userVersion ≤ file.userVersion) ∧
    (∀ attempt icuAvailable, (initConnection attempt file).1 = .ok icuAvailable →
      (initConnection attempt file).2.userVersion = latestUserVersion) ∧
    (file.userVersion = latestUserVersion → ∀ attempt, (initConnection attempt file).2 = file) ∧
    (∀ icuLinked probeFails, ∃ icuAvailable,
      (initConnection ⟨icuLinked, probeFails, none, fun _ => .none⟩ file).1 = .ok icuAvailable) ∧
    (file.userVersion ≠ 0 → ∃ p ∈ tr, p.1.userVersion = 0 ∧ probeFtsIcuAvailable file = fts5IcuAvailable p.2) := by
  obtain ⟨hwhole, hversions, hprobe⟩ := probe_of_run hrun
  refine ⟨hwhole, hversions, ?_, ?_, ?_, hprobe⟩
  · intro attempt icuAvailable hok
    refine (upgraded_of_attempt hwhole attempt).latest ?_
    rw [hok]
    rfl
  · exact fun hlatest attempt => (upgraded_of_attempt hwhole attempt).same hlatest
  · exact fun icuLinked probeFails => initConnection_isOk hwhole icuLinked probeFails

/-- The second migration fails at its last statement and cannot be rolled back; the next process links `icu`. -/
def failsInV2 : List Attempt :=
  [⟨false, false, none, fun target => if target = 2 then ⟨fun i => if i = 2 then some "disk I/O error" else none, none,
      ⟨none, none, some "disk I/O error", none⟩⟩ else .none⟩,
    ⟨true, false, none, fun _ => .none⟩]

theorem migrations_are_never_half_done_v2 :
    ∃ tr file, Run DatabaseFile.Step DatabaseFile.new tr file ∧ tr.map (fun p => p.1.userVersion) = [0, 1] ∧
      file.userVersion = latestUserVersion ∧ probeFtsIcuAvailable file = false ∧ file.Whole := by
  have hrun : Run (fun file attempt file' => (initConnection attempt file).2 = file') DatabaseFile.new
      [(DatabaseFile.new, failsInV2[0]), (⟨1, objectsV1 false⟩, failsInV2[1])] ⟨2, objectsV1 false ++ objectsV2⟩ :=
    (Run.single rfl).tail rfl
  exact ⟨_, _, hrun, rfl, rfl, rfl, (migrations_are_never_half_done hrun).1⟩

end KChatCore.LocalStore
