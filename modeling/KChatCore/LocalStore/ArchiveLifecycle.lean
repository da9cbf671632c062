import KChatCore.LocalStore.Db

/-!
# `LocalStore.ArchiveLifecycle` — moving a batch of messages along the archive

The column is text, so a row may hold what is no state. `updateArchiveState` reads every listed row that is there, checks that
each may move to the target, and only then runs one `UPDATE` over the same list.

* `updateArchiveState_ok`, `updateArchiveState_error` — all of the listed rows move, or none.
* `forward_updateArchiveState`, `forward_archiveAfter` — one call, and a sequence of calls, move a message forward.
* `archive_batch_all_or_nothing` — both together.
-/

namespace KChatCore

namespace ArchiveState

/-- The `Display` form. -/
def display : ArchiveState → String
  | notArchived => "not_archived"
  | archivePending => "archive_pending"
  | archiveUploaded => "archive_uploaded"
  | archiveVerified => "archive_verified"
  | archiveCompacted => "archive_compacted"

/-- `FromStr`. -/
def parse (s : String) : Option ArchiveState :=
  if s = "not_archived" then some notArchived
  else if s = "archive_pending" then some archivePending
  else if s = "archive_uploaded" then some archiveUploaded
  else if s = "archive_verified" then some archiveVerified
  else if s = "archive_compacted" then some archiveCompacted
  else none

/-- The transitions of the chain. -/
def legal : ArchiveState → ArchiveState → Bool
  | notArchived, archivePending => true
  | archivePending, archiveUploaded => true
  | archiveUploaded, archiveVerified => true
  | archiveVerified, archiveCompacted => true
  | _, _ => false

/-- `ArchiveState::try_transition`. -/
def tryTransition (source target : ArchiveState) : Except StateTransitionError ArchiveState :=
  if legal source target then .ok target else .error (.illegal source.display target.display)

/-- The place in the chain. -/
def rank : ArchiveState → Nat
  | notArchived => 0
  | archivePending => 1
  | archiveUploaded => 2
  | archiveVerified => 3
  | archiveCompacted => 4

@[simp] theorem parse_display (s : ArchiveState) : parse s.display = some s := by cases s <;> decide +kernel

/-- **The matrix is the chain**: a step leads to the next place. -/
theorem legal_iff {source target : ArchiveState} : legal source target = true ↔ target.rank = source.rank + 1 := by
  cases source <;> cases target <;> decide

end ArchiveState

end KChatCore

namespace KChatCore.LocalStore

open Lib

/-- A `message_skeleton` row as it is stored: its id, its archive state as text, and the columns that the batch leaves. -/
structure StoredRow (γ : Type) where
  messageId : String
  archiveState : String
  columns : γ
deriving DecidableEq

/-- The `message_skeleton` table. -/
abbrev StoredRows (γ : Type) := Table (StoredRow.messageId : StoredRow γ → String)

section Batch

variable {γ : Type} (debug : String → String) (maxVariables : Nat)

/-- The check of one row; `debug` is the `{:?}` of a string. -/
def validateRow (newState : ArchiveState) (row : StoredRow γ) : Except DbError Unit :=
  match ArchiveState.parse row.archiveState with
  | none => .error (.invalidState (row.messageId ++ ": unknown state: " ++ debug row.archiveState))
  | some source =>
      match ArchiveState.tryTransition source newState with
      | .ok _ => .ok ()
      | .error e => .error (.invalidState (row.messageId ++ ": archive_state " ++ source.display ++ " → " ++
          newState.display ++ " rejected (" ++ e.display ++ ")"))

/-- The loop over the rows of the `SELECT`. -/
def validateRows (newState : ArchiveState) : List (StoredRow γ) → Except DbError Unit
  | [] => .ok ()
  | row :: rows => do
      validateRow debug newState row
      validateRows newState rows

/-- The rows a list of ids names. -/
def listed (rows : StoredRows γ) (messageIds : List String) : List (StoredRow γ) :=
  rows.rows.filter fun r => r.messageId ∈ messageIds

/-- `UPDATE message_skeleton SET archive_state = ? WHERE message_id IN (..)`. -/
def setArchiveState (rows : StoredRows γ) (messageIds : List String) (newState : ArchiveState) : StoredRows γ :=
  rows.update (fun r => r.messageId ∈ messageIds) (fun r => { r with archiveState := newState.display }) fun _ => rfl

/-- `update_archive_state`; a statement takes at most `maxVariables` placeholders, one for each id, and the `UPDATE` has one
more. -/
def updateArchiveState (rows : StoredRows γ) (messageIds : List String) (newState : ArchiveState) :
    Except DbError Nat × StoredRows γ :=
  if messageIds.isEmpty then (.ok 0, rows)
  else if maxVariables < messageIds.length then (.error (.rusqlite "too many SQL variables"), rows)
  else
    match validateRows debug newState (listed rows messageIds) with
    | .error e => (.error e, rows)
    | .ok _ =>
        if maxVariables < messageIds.length + 1 then (.error (.rusqlite "too many SQL variables"), rows)
        else (.ok (listed rows messageIds).length, setArchiveState rows messageIds newState)

/-- The table after a sequence of calls, whether they succeed or not. -/
def archiveAfter (rows : StoredRows γ) (calls : List (List String × ArchiveState)) : StoredRows γ :=
  calls.foldl (fun rows call => (updateArchiveState debug maxVariables rows call.1 call.2).2) rows

variable {debug maxVariables} {rows : StoredRows γ} {messageIds : List String} {newState : ArchiveState}

/-! ## All or nothing -/

/-- A row passes when its state moves to the target. -/
theorem validateRow_ok {row : StoredRow γ} (h : validateRow debug newState row = .ok ()) :
    ∃ source, ArchiveState.parse row.archiveState = some source ∧ source.legal newState = true := by
  unfold validateRow at h
  cases hparse : ArchiveState.parse row.archiveState with
  | none =>
      rw [hparse] at h
      exact absurd h (by simp)
  | some source =>
      rw [hparse] at h
      refine ⟨source, rfl, ?_⟩
      by_contra hlegal
      have herror : ArchiveState.tryTransition source newState = .error (.illegal source.display newState.display) :=
        if_neg hlegal
      simp only [herror] at h
      exact absurd h (by simp)

theorem validateRows_ok {checked : List (StoredRow γ)} (h : validateRows debug newState checked = .ok ()) :
    ∀ row ∈ checked, ∃ source, ArchiveState.parse row.archiveState = some source ∧ source.legal newState = true := by
  induction checked with
  | nil => intro row hrow; exact absurd hrow List.not_mem_nil
  | cons first checked ih =>
      obtain ⟨⟨⟩, hfirst, hrest⟩ := except_bind_eq_ok.mp h
      intro row hrow
      obtain rfl | hrow := List.mem_cons.mp hrow
      · exact validateRow_ok hfirst
      · exact ih hrest row hrow

theorem setArchiveState_nil : setArchiveState rows [] newState = rows := by
  have hrows : (setArchiveState rows [] newState).rows = rows.rows := by simp [setArchiveState, Table.update]
  cases rows
  cases h : setArchiveState _ [] newState
  rw [h] at hrows
  simp only at hrows
  subst hrows
  rfl

/-- **A call that succeeds** moves every listed row that is there, each from a state that leads to the target. -/
theorem updateArchiveState_ok {n : Nat} (h : (updateArchiveState debug maxVariables rows messageIds newState).1 = .ok n) :
    (∀ row ∈ listed rows messageIds, ∃ source, ArchiveState.parse row.archiveState = some source ∧
      source.legal newState = true) ∧
    (updateArchiveState debug maxVariables rows messageIds newState).2 = setArchiveState rows messageIds newState ∧
    n = (listed rows messageIds).length := by
  unfold updateArchiveState at h ⊢
  by_cases hempty : messageIds.isEmpty = true
  · rw [if_pos hempty] at h ⊢
    obtain rfl := List.isEmpty_iff.mp hempty
    have hnone : listed rows [] = [] := by simp [listed]
    rw [hnone]
    exact ⟨fun row hrow => absurd hrow List.not_mem_nil, setArchiveState_nil.symm, (Except.ok.inj h).symm⟩
  rw [if_neg hempty] at h ⊢
  by_cases hmany : maxVariables < messageIds.length
  · rw [if_pos hmany] at h
    exact absurd h (by simp)
  rw [if_neg hmany] at h ⊢
  cases hvalid : validateRows debug newState (listed rows messageIds) with
  | error e =>
      rw [hvalid] at h
      exact absurd h (by simp)
  | ok _ =>
      rw [hvalid] at h
      simp only at h ⊢
      by_cases hone : maxVariables < messageIds.length + 1
      · rw [if_pos hone] at h
        exact absurd h (by simp)
      · rw [if_neg hone] at h ⊢
        exact ⟨validateRows_ok hvalid, rfl, (Except.ok.inj h).symm⟩

/-- **A call that fails** changes nothing. -/
theorem updateArchiveState_error {e : DbError}
    (h : (updateArchiveState debug maxVariables rows messageIds newState).1 = .error e) :
    (updateArchiveState debug maxVariables rows messageIds newState).2 = rows := by
  unfold updateArchiveState at h ⊢
  by_cases hempty : messageIds.isEmpty = true
  · rw [if_pos hempty]
  rw [if_neg hempty] at h ⊢
  by_cases hmany : maxVariables < messageIds.length
  · rw [if_pos hmany]
  rw [if_neg hmany] at h ⊢
  cases hvalid : validateRows debug newState (listed rows messageIds) with
  | error e' => rfl
  | ok _ =>
      rw [hvalid] at h
      simp only at h ⊢
      by_cases hone : maxVariables < messageIds.length + 1
      · rw [if_pos hone]
      · rw [if_neg hone] at h
        exact absurd h (by simp)

/-! ## Forward only -/

/-- **A message's column moves forward**: it stays, or goes on along the chain. -/
def Forward (before after : String) : Prop :=
  after = before ∨ ∃ source target, ArchiveState.parse before = some source ∧ ArchiveState.parse after = some target ∧
    Relation.TransGen (fun s t => ArchiveState.legal s t = true) source target

theorem Forward.trans {a b c : String} (hab : Forward a b) (hbc : Forward b c) : Forward a c := by
  obtain rfl | ⟨source, middle, hsource, hmiddle, hfirst⟩ := hab
  · exact hbc
  · obtain rfl | ⟨middle', target, hmiddle', htarget, hsecond⟩ := hbc
    · exact .inr ⟨source, middle, hsource, hmiddle, hfirst⟩
    · rw [hmiddle] at hmiddle'
      obtain rfl := Option.some.inj hmiddle'
      exact .inr ⟨source, target, hsource, htarget, hfirst.trans hsecond⟩

/-- Going on along the chain leads to a later place. -/
theorem rank_lt_of_transGen {source target : ArchiveState}
    (h : Relation.TransGen (fun s t => ArchiveState.legal s t = true) source target) : source.rank < target.rank := by
  induction h with
  | single hstep =>
      have hrank := ArchiveState.legal_iff.mp hstep
      omega
  | tail _ hstep ih =>
      have hrank := ArchiveState.legal_iff.mp hstep
      omega

/-- The row of a message after the `UPDATE`. -/
theorem find?_setArchiveState (m : String) : (setArchiveState rows messageIds newState).find? m =
    (rows.find? m).map fun r => if r.messageId ∈ messageIds then { r with archiveState := newState.display } else r := by
  simp only [setArchiveState, Table.find?_update, decide_eq_true_eq]

/-- **One call moves a message forward**, and touches no other column. -/
theorem forward_updateArchiveState {m : String} {row : StoredRow γ} (hrow : rows.find? m = some row) :
    ∃ row', (updateArchiveState debug maxVariables rows messageIds newState).2.find? m = some row' ∧
      row'.columns = row.columns ∧ Forward row.archiveState row'.archiveState := by
  cases h : (updateArchiveState debug maxVariables rows messageIds newState).1 with
  | error e =>
      rw [updateArchiveState_error h]
      exact ⟨row, hrow, rfl, .inl rfl⟩
  | ok n =>
      obtain ⟨hlegal, hset, -⟩ := updateArchiveState_ok h
      rw [hset, find?_setArchiveState, hrow]
      by_cases hlisted : row.messageId ∈ messageIds
      · have hmem : row ∈ listed rows messageIds :=
          List.mem_filter.mpr ⟨Table.mem_of_find? hrow, by simpa using hlisted⟩
        obtain ⟨source, hparse, hstep⟩ := hlegal row hmem
        refine ⟨{ row with archiveState := newState.display }, ?_, rfl, ?_⟩
        · rw [Option.map_some, if_pos hlisted]
        · exact .inr ⟨source, newState, hparse, ArchiveState.parse_display newState, .single hstep⟩
      · refine ⟨row, ?_, rfl, .inl rfl⟩
        rw [Option.map_some, if_neg hlisted]

/-- **A sequence of calls moves a message forward.** -/
theorem forward_archiveAfter {m : String} {row : StoredRow γ} (calls : List (List String × ArchiveState))
    (hrow : rows.find? m = some row) :
    ∃ row', (archiveAfter debug maxVariables rows calls).find? m = some row' ∧ row'.columns = row.columns ∧
      Forward row.archiveState row'.archiveState := by
  induction calls generalizing rows row with
  | nil => exact ⟨row, hrow, rfl, .inl rfl⟩
  | cons call calls ih =>
      have hfirst : ∃ row₁, (updateArchiveState debug maxVariables rows call.1 call.2).2.find? m = some row₁ ∧
          row₁.columns = row.columns ∧ Forward row.archiveState row₁.archiveState := forward_updateArchiveState hrow
      obtain ⟨row₁, hrow₁, hcolumns₁, hforward₁⟩ := hfirst
      obtain ⟨row', hrow', hcolumns', hforward'⟩ := ih hrow₁
      exact ⟨row', hrow', hcolumns'.trans hcolumns₁, hforward₁.trans hforward'⟩

/-- **A batch moves as a whole, and messages move forward.** A call that succeeds moves every listed row that is there, each
from a state that leads to the target, and returns their number; a call that fails changes no row; and over any sequence of
calls a message stays where it is or goes on along the chain, to a later place. -/
theorem archive_batch_all_or_nothing (debug : String → String) (maxVariables : Nat) (rows : StoredRows γ) :
    (∀ (messageIds : List String) (newState : ArchiveState),
      (∃ n, (updateArchiveState debug maxVariables rows messageIds newState).1 = .ok n ∧
        (∀ row ∈ listed rows messageIds, ∃ source, ArchiveState.parse row.archiveState = some source ∧
          ArchiveState.tryTransition source newState = .ok newState) ∧
        (∀ m, (updateArchiveState debug maxVariables rows messageIds newState).2.find? m = (rows.find? m).map fun r =>
          if r.messageId ∈ messageIds then { r with archiveState := newState.display } else r) ∧
        n = (listed rows messageIds).length) ∨
      ∃ e, updateArchiveState debug maxVariables rows messageIds newState = (.error e, rows)) ∧
    ∀ (calls : List (List String × ArchiveState)) (m : String) (row : StoredRow γ), rows.find? m = some row →
      ∃ row', (archiveAfter debug maxVariables rows calls).find? m = some row' ∧ row'.columns = row.columns ∧
        (row'.archiveState = row.archiveState ∨
          ∃ source target, ArchiveState.parse row.archiveState = some source ∧
            ArchiveState.parse row'.archiveState = some target ∧ source.rank < target.rank ∧
            Relation.TransGen (fun s t => ArchiveState.tryTransition s t = .ok t) source target) := by
  have hguard : ∀ s t, ArchiveState.tryTransition s t = .ok t ↔ ArchiveState.legal s t = true := by
    intro s t
    unfold ArchiveState.tryTransition
    by_cases hlegal : ArchiveState.legal s t = true <;> simp [hlegal]
  constructor
  · intro messageIds newState
    cases h : (updateArchiveState debug maxVariables rows messageIds newState).1 with
    | error e => exact .inr ⟨e, Prod.ext h (updateArchiveState_error h)⟩
    | ok n =>
        obtain ⟨hlegal, hset, hn⟩ := updateArchiveState_ok h
        simp only [hguard]
        exact .inl ⟨n, rfl, hlegal, fun m => by rw [hset, find?_setArchiveState], hn⟩
  · intro calls m row hrow
    -- each call that is let through moves a row up, or leaves it
    obtain ⟨row', hrow', hcolumns, hforward⟩ := forward_archiveAfter calls hrow
    refine ⟨row', hrow', hcolumns, hforward.imp_right ?_⟩
    rintro ⟨source, target, hsource, htarget, hchain⟩
    simp only [hguard]
    exact ⟨source, target, hsource, htarget, rank_lt_of_transGen hchain, hchain⟩

end Batch

/-- Two messages at different places of the chain, and one whose column holds no state. -/
def threeRows : StoredRows Unit :=
  ((Table.empty.insertOrIgnore ⟨"a", "not_archived", ()⟩).insertOrIgnore ⟨"b", "archive_verified", ()⟩).insertOrIgnore
    ⟨"c", "lost", ()⟩

/-- After two calls, of which the second names a message that may not move, the first message has moved once. -/
theorem archive_batch_three_rows : ∃ row',
    (archiveAfter id 999 threeRows [(["a", "a", "x"], .archivePending), (["a", "b"], .archiveUploaded)]).find? "a" =
      some row' ∧
    row'.columns = () ∧
    (row'.archiveState = "not_archived" ∨ ∃ source target, ArchiveState.parse "not_archived" = some source ∧
      ArchiveState.parse row'.archiveState = some target ∧ source.rank < target.rank ∧
      Relation.TransGen (fun s t => ArchiveState.tryTransition s t = .ok t) source target) :=
  (archive_batch_all_or_nothing id 999 threeRows).2 _ "a" ⟨"a", "not_archived", ()⟩ (by decide +kernel)

example : (archiveAfter id 999 threeRows [(["a", "a", "x"], .archivePending), (["a", "b"], .archiveUploaded)]).find? "a" =
    some ⟨"a", "archive_pending", ()⟩ := by decide +kernel

end KChatCore.LocalStore
