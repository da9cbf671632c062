import KChatCore.Lib.Savepoint

/-!
# `Lib.Migrations` — versioned changes, each inside its savepoint

A list of migrations, each with the version it leads to, runs in order over data that carries a version: those not past
the current version are skipped, and each of the others runs inside a savepoint of its own, which also writes the new
version. Any statement may fail, and any statement around it; whoever ran it then drops the connection, and what was not
released is undone. A process that dies is one more failure that nothing makes up for.

* `Applied` — data that whole migrations have led to, in order, from the current version on;
* `migrate_dropped` — what is left of a run is that, however it ended, and a run that went through left none out;
* `migrate_of_applied` — where nothing fails and every body goes through, the run goes through.
-/

namespace KChatCore.Lib

universe u v

/-- What a dropped connection leaves: a transaction that is still open is undone. -/
def Connection.dropped {σ : Type u} (c : Connection σ) : σ := (c.savepoints.getLast?.map Prod.snd).getD c.db

/-- **A migration**: the version it leads to, and its statements. -/
structure Migration (σ : Type u) (ε : Type v) where
  target : ℤ
  body : List (σ → Except ε σ)

/-- What goes wrong in one migration: at its statements, at the write of the version, and around them. -/
structure MigrationFaults (ε : Type v) where
  statement : ℕ → Option ε
  writeVersion : Option ε
  savepoint : SavepointFaults ε

/-- Nothing goes wrong. -/
def MigrationFaults.none {ε : Type v} : MigrationFaults ε := ⟨fun _ => .none, .none, ⟨.none, .none, .none, .none⟩⟩

/-- Data with a version. -/
class Versioned (σ : Type u) where
  version : σ → ℤ
  setVersion : ℤ → σ → σ
  version_setVersion : ∀ v db, version (setVersion v db) = v

open Versioned

section Run

variable {σ : Type u} {ε : Type v} [Versioned σ]

/-- The statements inside the savepoint of a migration. -/
def Migration.statements (m : Migration σ ε) (faults : MigrationFaults ε) : List (σ → Except ε σ) :=
  (m.body.mapIdx fun i statement => faulty (faults.statement i) statement) ++
    [faulty faults.writeVersion fun db => .ok (setVersion m.target db)]

/-- **The migrations in order**, up to the first that fails. -/
def migrate (name : ℤ → String) (faults : ℤ → MigrationFaults ε) :
    List (Migration σ ε) → ℤ → Connection σ → Except ε Unit × Connection σ
  | [], _, c => (.ok (), c)
  | m :: ms, current, c =>
      if m.target ≤ current then migrate name faults ms current c
      else
        match withSavepoint (faults m.target).savepoint (name m.target) (m.statements (faults m.target)) c with
        | (.error e, c') => (.error e, c')
        | (.ok (), c') => migrate name faults ms m.target c'

/-- **What whole migrations lead to**, with `all` if none of them was left out. -/
inductive Applied : List (Migration σ ε) → Bool → σ → σ → Prop
  | done (db : σ) : Applied [] true db db
  | stopped (ms : List (Migration σ ε)) (db : σ) : Applied ms false db db
  | skipped {m : Migration σ ε} {ms : List (Migration σ ε)} {all : Bool} {db db' : σ} :
      m.target ≤ version db → Applied ms all db db' → Applied (m :: ms) all db db'
  | ran {m : Migration σ ε} {ms : List (Migration σ ε)} {all : Bool} {db db₁ db' : σ} :
      version db < m.target → runStatements m.body db = (.ok (), db₁) → Applied ms all (setVersion m.target db₁) db' →
      Applied (m :: ms) all db db'

end Run

section Laws

variable {σ : Type u} {ε : Type v}

/-- A savepoint that does not go through leaves nothing once the connection is dropped. -/
theorem withSavepoint_dropped_of_error {faults : SavepointFaults ε} {name : String} {body : List (σ → Except ε σ)}
    {c c' : Connection σ} {e : ε} (hclosed : c.savepoints = []) (h : withSavepoint faults name body c = (.error e, c')) :
    c'.dropped = c.db := by
  obtain ⟨db, savepoints⟩ := c
  obtain rfl : savepoints = [] := hclosed
  unfold withSavepoint at h
  cases hbegin : faults.savepoint with
  | some e₁ =>
      rw [hbegin] at h
      obtain ⟨-, rfl⟩ := Prod.mk.inj h
      rfl
  | none =>
      simp only [hbegin] at h
      rcases hbody : runStatements body db with ⟨r, db₁⟩
      rw [hbody] at h
      cases r with
      | ok _ =>
          simp only at h
          split at h
          · obtain ⟨-, rfl⟩ := Prod.mk.inj h
            rfl
          · exact absurd (congrArg Prod.fst h) (by simp)
      | error e₂ =>
          simp only [Connection.rollbackTo_savepoint] at h
          split at h
          · obtain ⟨-, rfl⟩ := Prod.mk.inj h
            rfl
          · split at h
            · obtain ⟨-, rfl⟩ := Prod.mk.inj h
              rfl
            · obtain ⟨-, rfl⟩ := Prod.mk.inj h
              simp [Connection.savepoint, Connection.release, Connection.dropped]

theorem runStatements_append_eq_ok {statements more : List (σ → Except ε σ)} {db db' : σ} :
    runStatements (statements ++ more) db = (.ok (), db') ↔
      ∃ db₁, runStatements statements db = (.ok (), db₁) ∧ runStatements more db₁ = (.ok (), db') := by
  induction statements generalizing db with
  | nil => simp [runStatements]
  | cons statement statements ih =>
      rw [List.cons_append, runStatements_cons_eq_ok]
      simp only [ih, runStatements_cons_eq_ok]
      constructor
      · rintro ⟨db₁, hstatement, db₂, hstatements, hmore⟩
        exact ⟨db₂, ⟨db₁, hstatement, hstatements⟩, hmore⟩
      · rintro ⟨db₂, ⟨db₁, hstatement, hstatements⟩, hmore⟩
        exact ⟨db₁, hstatement, db₂, hstatements, hmore⟩

/-- Statements that went through although some were to fail, were not to fail. -/
theorem runStatements_of_faulty {statements : List (σ → Except ε σ)} {fault : ℕ → Option ε} {db db' : σ}
    (h : runStatements (statements.mapIdx fun i statement => faulty (fault i) statement) db = (.ok (), db')) :
    runStatements statements db = (.ok (), db') := by
  induction statements generalizing db fault with
  | nil => simpa using h
  | cons statement statements ih =>
      rw [List.mapIdx_cons, runStatements_cons_eq_ok] at h
      obtain ⟨db₁, hstatement, hrest⟩ := h
      exact runStatements_cons_eq_ok.mpr ⟨db₁, (faulty_eq_ok.mp hstatement).2, ih hrest⟩

theorem runStatements_faulty_none {statements : List (σ → Except ε σ)} :
    (statements.mapIdx fun _ statement => faulty .none statement) = statements := by
  simp [faulty, List.mapIdx_eq_zipIdx_map]

end Laws

section Laws

variable {σ : Type u} {ε : Type v} [Versioned σ] {name : ℤ → String}

/-- **What a run of migrations leaves**, however it ended: whole migrations have been applied, in order, and all of them
if it went through. -/
theorem migrate_dropped {faults : ℤ → MigrationFaults ε} {ms : List (Migration σ ε)} {c c' : Connection σ}
    {r : Except ε Unit} (hclosed : c.savepoints = []) (h : migrate name faults ms (version c.db) c = (r, c')) :
    Applied ms r.toBool c.db c'.dropped := by
  induction ms generalizing c with
  | nil =>
      obtain ⟨rfl, rfl⟩ := Prod.mk.inj h
      obtain ⟨db, savepoints⟩ := c
      obtain rfl : savepoints = [] := hclosed
      exact .done db
  | cons m ms ih =>
      unfold migrate at h
      split at h
      · exact .skipped ‹_› (ih hclosed h)
      · rename_i hpast
        split at h
        · rename_i e c₁ hsave
          obtain ⟨rfl, rfl⟩ := Prod.mk.inj h
          rw [withSavepoint_dropped_of_error hclosed hsave]
          exact .stopped (m :: ms) c.db
        · rename_i c₁ hsave
          -- the body went through, and the version with it
          obtain ⟨db₂, hstatements, rfl⟩ := withSavepoint_eq_ok hsave
          obtain ⟨db₁, hbody, hversion⟩ := runStatements_append_eq_ok.mp hstatements
          obtain ⟨db₃, hwrite, hnil⟩ := runStatements_cons_eq_ok.mp hversion
          obtain rfl := Except.ok.inj (faulty_eq_ok.mp hwrite).2
          obtain rfl : setVersion m.target db₁ = db₂ := congrArg Prod.snd hnil
          refine .ran (not_le.mp hpast) (runStatements_of_faulty hbody) ?_
          have hnext := ih (c := ⟨setVersion m.target db₁, c.savepoints⟩) hclosed
          rw [version_setVersion] at hnext
          exact hnext h

/-- A migration that fails nowhere, where its body goes through. -/
theorem withSavepoint_none {m : Migration σ ε} {db db₁ : σ} (hbody : runStatements m.body db = (.ok (), db₁)) :
    withSavepoint (MigrationFaults.none : MigrationFaults ε).savepoint (name m.target) (m.statements .none) ⟨db, []⟩ =
      (.ok (), ⟨setVersion m.target db₁, []⟩) := by
  have hstatements : runStatements (m.statements MigrationFaults.none) db = (.ok (), setVersion m.target db₁) := by
    refine runStatements_append_eq_ok.mpr ⟨db₁, ?_, rfl⟩
    simpa only [MigrationFaults.none, runStatements_faulty_none] using hbody
  unfold withSavepoint
  simp only [MigrationFaults.none] at hstatements ⊢
  rw [hstatements]
  simp [Connection.savepoint, Connection.release]

/-- **Where nothing fails**, a run goes through as far as its bodies do. -/
theorem migrate_of_applied {ms : List (Migration σ ε)} {db db' : σ} (h : Applied ms true db db') :
    migrate name (fun _ => .none) ms (version db) ⟨db, []⟩ = (.ok (), ⟨db', []⟩) := by
  generalize hall : true = all at h
  induction h with
  | done db => rfl
  | stopped ms db => cases hall
  | skipped hle _ ih =>
      unfold migrate
      rw [if_pos hle]
      exact ih hall
  | @ran m ms all db db₁ db' hlt hbody _ ih =>
      unfold migrate
      rw [if_neg (not_le.mpr hlt), withSavepoint_none hbody]
      have hnext := ih hall
      rw [version_setVersion] at hnext
      exact hnext

end Laws

end KChatCore.Lib
