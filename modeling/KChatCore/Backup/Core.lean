import KChatCore.Backup.Ledger

/-!
# `Backup.Core` — the state the backup pipelines run over

`Core` is what a backup call reads and writes: the database, the in-memory coordinator, the installed backup
sink, and the entropy ids and nonces are drawn from. A fallible step is a `BackupM`: it returns a result or an
error, and the state it leaves either way, since an error does not undo what was already committed.

The sink is the platform's; `accepts n` says whether it takes the `n`-th upload attempt.
-/

namespace KChatCore.Backup

/-! ## The backup sink -/

/-- **An installed backup sink**: what it stores, by id, and which upload attempts it accepts. -/
structure BackupSink where
  segments : List (Uuid × Bytes)
  manifests : List (Uuid × Bytes)
  attempts : Nat
  accepts : Nat → Bool

namespace BackupSink

/-- A sink that stores nothing yet. -/
def empty (accepts : Nat → Bool) : BackupSink := ⟨[], [], 0, accepts⟩

/-- The error of a refused upload. -/
def refused : Error := .transport (.network "backup sink: upload failed")

/-- `upload_backup_segment`. -/
def uploadBackupSegment (s : BackupSink) (id : Uuid) (bytes : Bytes) : Except Error Unit × BackupSink :=
  if s.accepts s.attempts then
    (.ok (), { s with segments := (id, bytes) :: s.segments, attempts := s.attempts + 1 })
  else (.error refused, { s with attempts := s.attempts + 1 })

/-- `upload_backup_manifest`. -/
def uploadBackupManifest (s : BackupSink) (id : Uuid) (bytes : Bytes) : Except Error Unit × BackupSink :=
  if s.accepts s.attempts then
    (.ok (), { s with manifests := (id, bytes) :: s.manifests, attempts := s.attempts + 1 })
  else (.error refused, { s with attempts := s.attempts + 1 })

/-- `fetch_backup_segment`. -/
def fetchBackupSegment (s : BackupSink) (id : Uuid) : Except Error Bytes :=
  okOr (s.segments.lookup id) (.storageMsg "backup sink: segment not found")

/-- `fetch_backup_manifest`. -/
def fetchBackupManifest (s : BackupSink) (id : Uuid) : Except Error Bytes :=
  okOr (s.manifests.lookup id) (.storageMsg "backup sink: manifest not found")

end BackupSink

/-! ## The state, and steps over it -/

/-- **The backup half of `CoreImpl`.** -/
structure Core where
  db : BackupDb
  backup : Coordinator
  backupSink : Option BackupSink
  drawn : Nat

/-- A freshly opened core with its keys and sink installed. -/
def Core.fresh (keys : BackupKeys) (sink : Option BackupSink) : Core where
  db := BackupDb.empty
  backup := ⟨some keys, ⟨none, []⟩⟩
  backupSink := sink
  drawn := 0

/-- **A fallible step**: a result or an error, and the state left behind. -/
def BackupM (α : Type) : Type := Core → Except Error α × Core

namespace BackupM

/-- Run the second step on what the first one leaves, unless the first one failed. -/
def andThen {α β : Type} (x : BackupM α) (f : α → BackupM β) : BackupM β := fun c =>
  match x c with
  | (.ok a, c') => f a c'
  | (.error e, c') => (.error e, c')

instance : Monad BackupM where
  pure a := fun c => (.ok a, c)
  bind := andThen

/-- A computation that does not touch the state. -/
def lift {α : Type} (x : Except Error α) : BackupM α := fun c => (x, c)

/-- Read the state. -/
def get : BackupM Core := fun c => (.ok c, c)

/-- Update the state. -/
def modify (f : Core → Core) : BackupM Unit := fun c => (.ok (), f c)

/-- `Uuid::now_v7()`, or any other draw of entropy. -/
def draw : BackupM Nat := fun c => (.ok c.drawn, { c with drawn := c.drawn + 1 })

variable {α β : Type} {x : BackupM α} {f : α → BackupM β} {c c' : Core}

theorem pure_eq {a b : α} : (pure a : BackupM α) c = (.ok b, c') ↔ a = b ∧ c = c' := by
  show ((Except.ok a, c) : Except Error α × Core) = _ ↔ _
  simp

/-- **Peel a successful run apart.** -/
theorem bind_eq_ok {b : β} :
    (x >>= f) c = (.ok b, c') ↔ ∃ a c₁, x c = (.ok a, c₁) ∧ f a c₁ = (.ok b, c') := by
  show andThen x f c = _ ↔ _
  unfold andThen
  rcases h : x c with ⟨r, c₁⟩
  cases r with
  | error e => simp
  | ok a => simp

/-- A failing run fails in the first part or in the second. -/
theorem bind_eq_error {e : Error} :
    (x >>= f) c = (.error e, c') ↔
      x c = (.error e, c') ∨ ∃ a c₁, x c = (.ok a, c₁) ∧ f a c₁ = (.error e, c') := by
  show andThen x f c = _ ↔ _
  unfold andThen
  rcases h : x c with ⟨r, c₁⟩
  cases r with
  | error e => simp
  | ok a => simp

theorem bind_of_ok {a : α} {c₁ : Core} (h : x c = (.ok a, c₁)) : (x >>= f) c = f a c₁ := by
  show andThen x f c = _
  simp [andThen, h]

theorem bind_of_error {e : Error} {c₁ : Core} (h : x c = (.error e, c₁)) : (x >>= f) c = (.error e, c₁) := by
  show andThen x f c = _
  simp [andThen, h]

/-- A run either stops in the first part or goes through it. -/
theorem bind_cases {r : Except Error β} (h : (x >>= f) c = (r, c')) :
    (∃ e, x c = (.error e, c') ∧ r = .error e) ∨ ∃ a c₁, x c = (.ok a, c₁) ∧ f a c₁ = (r, c') := by
  cases r with
  | error e => exact (bind_eq_error.mp h).imp (fun h' => ⟨e, h', rfl⟩) id
  | ok b => exact Or.inr (bind_eq_ok.mp h)

theorem lift_eq_ok {r : Except Error α} {a : α} : lift r c = (.ok a, c') ↔ r = .ok a ∧ c = c' := by
  simp [lift, Prod.ext_iff]

theorem lift_eq_error {r : Except Error α} {e : Error} :
    lift r c = (.error e, c') ↔ r = .error e ∧ c = c' := by
  simp [lift, Prod.ext_iff]

theorem get_eq_ok {c₀ : Core} : get c = (.ok c₀, c') ↔ c = c₀ ∧ c = c' := by
  simp [get, Prod.ext_iff]

theorem modify_eq_ok {g : Core → Core} : modify g c = (.ok (), c') ↔ g c = c' := by
  simp [modify, Prod.ext_iff]

theorem draw_eq_ok {n : Nat} :
    draw c = (.ok n, c') ↔ c.drawn = n ∧ { c with drawn := c.drawn + 1 } = c' := by
  simp [draw, Prod.ext_iff]

end BackupM

end KChatCore.Backup
