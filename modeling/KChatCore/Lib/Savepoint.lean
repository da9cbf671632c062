import Mathlib

/-!
# `Lib.Savepoint` — statements inside a savepoint, any of which may fail

A `Connection` is the data its statements see and the savepoints that are open, innermost first. A statement that fails
changes nothing; the statements before it stay in effect until the savepoint is rolled back.

`withSavepoint` runs a body between `SAVEPOINT` and `RELEASE`, or `ROLLBACK TO` and `RELEASE` if it fails. The error of a
rollback is dropped.

* `runStatements_invariant` — the rule for a body.
* `withSavepoint_eq_ok` — what it leaves when it succeeds.
* `withSavepoint_restores_iff` — when a failure leaves the data as it was.
-/

namespace KChatCore.Lib

universe u v

variable {σ : Type u} {ε : Type v}

/-- A database connection. -/
structure Connection (σ : Type u) where
  db : σ
  savepoints : List (String × σ)

namespace Connection

/-- `SAVEPOINT name`. -/
def savepoint (c : Connection σ) (name : String) : Connection σ := ⟨c.db, (name, c.db) :: c.savepoints⟩

/-- `RELEASE SAVEPOINT name`: it is forgotten with all inside it, and the data stays. -/
def release (c : Connection σ) (name : String) : Connection σ :=
  ⟨c.db, (c.savepoints.dropWhile fun p => p.1 ≠ name).tail⟩

/-- `ROLLBACK TO SAVEPOINT name`: the data is as it was then, and the savepoint stays open. -/
def rollbackTo (c : Connection σ) (name : String) : Connection σ :=
  let open' := c.savepoints.dropWhile fun p => p.1 ≠ name
  ⟨(open'.head?.map Prod.snd).getD c.db, open'⟩

@[simp] theorem release_savepoint (c : Connection σ) (name : String) (db : σ) :
    ({ c.savepoint name with db := db }).release name = ⟨db, c.savepoints⟩ := by
  simp [savepoint, release]

@[simp] theorem rollbackTo_savepoint (c : Connection σ) (name : String) (db : σ) :
    ({ c.savepoint name with db := db }).rollbackTo name = c.savepoint name := by
  simp [savepoint, rollbackTo]

end Connection

/-- A statement, unless it is made to fail. -/
def faulty (fault : Option ε) (statement : σ → Except ε σ) : σ → Except ε σ :=
  match fault with
  | some e => fun _ => .error e
  | none => statement

/-- Statement after statement, up to the first that fails. -/
def runStatements : List (σ → Except ε σ) → σ → Except ε Unit × σ
  | [], db => (.ok (), db)
  | statement :: statements, db =>
      match statement db with
      | .error e => (.error e, db)
      | .ok db' => runStatements statements db'

theorem faulty_eq_ok {fault : Option ε} {statement : σ → Except ε σ} {db db' : σ} :
    faulty fault statement db = .ok db' ↔ fault = none ∧ statement db = .ok db' := by
  cases fault <;> simp [faulty]

/-- **Statements that all go through.** -/
theorem runStatements_cons_eq_ok {statement : σ → Except ε σ} {statements : List (σ → Except ε σ)} {db db' : σ} :
    runStatements (statement :: statements) db = (.ok (), db') ↔
      ∃ db₁, statement db = .ok db₁ ∧ runStatements statements db₁ = (.ok (), db') := by
  cases h : statement db with
  | error e => simp [runStatements, h]
  | ok db₁ => simp [runStatements, h]

/-- What every statement keeps, the statements keep, failing or not. -/
theorem runStatements_invariant {I : σ → Prop} {statements : List (σ → Except ε σ)}
    (hkeep : ∀ statement ∈ statements, ∀ db db', statement db = .ok db' → I db → I db') {db : σ} (hdb : I db) :
    I (runStatements statements db).2 := by
  induction statements generalizing db with
  | nil => exact hdb
  | cons statement statements ih =>
      unfold runStatements
      cases h : statement db with
      | error e => exact hdb
      | ok db₁ =>
          apply ih
          · intro statement' hmem
            exact hkeep statement' (List.mem_cons_of_mem _ hmem)
          · exact hkeep statement List.mem_cons_self db db₁ h hdb

/-- What goes wrong around the body: at `SAVEPOINT`, at the `RELEASE` after a body that went through, at the
`ROLLBACK TO` after one that did not, and at the `RELEASE` after that. -/
structure SavepointFaults (ε : Type v) where
  savepoint : Option ε
  release : Option ε
  rollback : Option ε
  releaseRolledBack : Option ε

/-- **A body inside a savepoint.** -/
def withSavepoint (faults : SavepointFaults ε) (name : String) (body : List (σ → Except ε σ)) (c : Connection σ) :
    Except ε Unit × Connection σ :=
  match faults.savepoint with
  | some e => (.error e, c)
  | none =>
      match runStatements body c.db with
      | (.ok (), db) =>
          let c' := { c.savepoint name with db := db }
          match faults.release with
          | some e => (.error e, c')
          | none => (.ok (), c'.release name)
      | (.error e, db) =>
          let c' := { c.savepoint name with db := db }
          match faults.rollback with
          | some _ => (.error e, c')
          | none =>
              let c'' := c'.rollbackTo name
              match faults.releaseRolledBack with
              | some _ => (.error e, c'')
              | none => (.error e, c''.release name)

/-- Whatever the body changed, the statement that makes up for it is not refused. -/
structure SavepointSound (faults : SavepointFaults ε) (body : List (σ → Except ε σ)) (db : σ) : Prop where
  release : faults.savepoint = none → ∀ db', runStatements body db = (.ok (), db') → db' ≠ db → faults.release = none
  rollback : faults.savepoint = none → ∀ e db', runStatements body db = (.error e, db') → db' ≠ db → faults.rollback = none

section Laws

variable {faults : SavepointFaults ε} {name : String} {body : List (σ → Except ε σ)} {c c' : Connection σ}

/-- **A savepoint that is released**: its body went through, and it is gone. -/
theorem withSavepoint_eq_ok (h : withSavepoint faults name body c = (.ok (), c')) :
    ∃ db, runStatements body c.db = (.ok (), db) ∧ c' = ⟨db, c.savepoints⟩ := by
  unfold withSavepoint at h
  cases hbegin : faults.savepoint with
  | some e =>
      rw [hbegin] at h
      exact absurd (congrArg Prod.fst h) (by simp)
  | none =>
      simp only [hbegin] at h
      rcases hbody : runStatements body c.db with ⟨r, db⟩
      rw [hbody] at h
      cases r with
      | error e =>
          simp only at h
          split at h
          · exact absurd (congrArg Prod.fst h) (by simp)
          · split at h <;> exact absurd (congrArg Prod.fst h) (by simp)
      | ok a =>
          simp only at h
          split at h
          · exact absurd (congrArg Prod.fst h) (by simp)
          · have hc := congrArg Prod.snd h
            rw [Connection.release_savepoint] at hc
            exact ⟨db, rfl, hc.symm⟩

/-- However it ends, the data is that of before or that of the body. -/
theorem withSavepoint_db : (withSavepoint faults name body c).2.db = c.db ∨
    (withSavepoint faults name body c).2.db = (runStatements body c.db).2 := by
  unfold withSavepoint
  cases faults.savepoint with
  | some e => exact .inl rfl
  | none =>
      rcases hbody : runStatements body c.db with ⟨r, db⟩
      cases r with
      | ok a => cases faults.release <;> exact .inr rfl
      | error e =>
          cases faults.rollback with
          | some e' => exact .inr rfl
          | none =>
              simp only [Connection.rollbackTo_savepoint]
              cases faults.releaseRolledBack <;> exact .inl rfl

/-- **When a failure leaves the data as it was**: when nothing had changed, or the statement that makes up for it is not
refused. -/
theorem withSavepoint_restores_iff :
    (∀ e c', withSavepoint faults name body c = (.error e, c') → c'.db = c.db) ↔ SavepointSound faults body c.db := by
  unfold withSavepoint
  cases hbegin : faults.savepoint with
  | some e =>
      simp only [Prod.mk.injEq]
      constructor
      · intro _
        refine ⟨?_, ?_⟩ <;> (intro hnone; rw [hbegin] at hnone; exact absurd hnone (by simp))
      · rintro - e' c' ⟨-, rfl⟩
        rfl
  | none =>
      rcases hbody : runStatements body c.db with ⟨r, db⟩
      cases r with
      | ok a =>
          -- the body returned; an error can only come of the release, and nothing is rolled back then
          cases hrelease : faults.release with
          | some e =>
              simp only [Prod.mk.injEq]
              constructor
              · intro h
                have hsame : db = c.db := h e { c.savepoint name with db := db } ⟨rfl, rfl⟩
                refine ⟨?_, ?_⟩
                · intro _ db' hdb' hne
                  rw [hbody] at hdb'
                  exact absurd ((congrArg Prod.snd hdb').symm.trans hsame) hne
                · intro _ e' db' hdb'
                  rw [hbody] at hdb'
                  exact absurd (congrArg Prod.fst hdb') (by simp)
              · rintro h e' c' ⟨-, rfl⟩
                by_contra hne
                have hnone := h.release hbegin db hbody hne
                rw [hrelease] at hnone
                exact absurd hnone (by simp)
          | none =>
              simp only [Prod.mk.injEq]
              constructor
              · intro _
                refine ⟨fun _ _ _ _ => hrelease, ?_⟩
                intro _ e' db' hdb'
                rw [hbody] at hdb'
                exact absurd (congrArg Prod.fst hdb') (by simp)
              · rintro - e' c' ⟨hr, -⟩
                exact absurd hr (by simp)
      | error e =>
          -- the body failed; its writes stand if the rollback fails too
          cases hrollback : faults.rollback with
          | some e₁ =>
              simp only [Prod.mk.injEq]
              constructor
              · intro h
                have hsame : db = c.db := h e { c.savepoint name with db := db } ⟨rfl, rfl⟩
                refine ⟨?_, ?_⟩
                · intro _ db' hdb'
                  rw [hbody] at hdb'
                  exact absurd (congrArg Prod.fst hdb') (by simp)
                · intro _ e' db' hdb' hne
                  rw [hbody] at hdb'
                  exact absurd ((congrArg Prod.snd hdb').symm.trans hsame) hne
              · rintro h e' c' ⟨-, rfl⟩
                by_contra hne
                have hnone := h.rollback hbegin e db hbody hne
                rw [hrollback] at hnone
                exact absurd hnone (by simp)
          | none =>
              constructor
              · intro _
                refine ⟨?_, fun _ _ _ _ _ => hrollback⟩
                intro _ db' hdb'
                rw [hbody] at hdb'
                exact absurd (congrArg Prod.fst hdb') (by simp)
              · intro _ e' c' hc
                simp only [Connection.rollbackTo_savepoint] at hc
                split at hc
                · obtain ⟨-, rfl⟩ := Prod.mk.inj hc
                  rfl
                · obtain ⟨-, rfl⟩ := Prod.mk.inj hc
                  rfl

end Laws

end KChatCore.Lib
