import KChatCore.Base

/-!
# `Restore.StateMachine` — the persisted restore state

A restore walks eight states in one order and persists each in a single row. `RestoreM` is a step over what a
restore reads and writes besides the sink: that row, and the entropy it draws.

* `transition_of_row` — a legal transition from a persisted state succeeds and persists its target.
-/

namespace KChatCore.Restore

/-- `RestoreState`. -/
inductive RestoreState
  | identityRestored
  | rootKeysUnwrapped
  | manifestVerified
  | skeletonRestored
  | searchRestored
  | recentMessagesRestored
  | mediaLazyRestoreEnabled
  | fullRestoreComplete
deriving DecidableEq, Repr

namespace RestoreState

/-- The snake_case form, as stored. -/
def asStr : RestoreState → String
  | identityRestored => "identity_restored"
  | rootKeysUnwrapped => "root_keys_unwrapped"
  | manifestVerified => "manifest_verified"
  | skeletonRestored => "skeleton_restored"
  | searchRestored => "search_restored"
  | recentMessagesRestored => "recent_messages_restored"
  | mediaLazyRestoreEnabled => "media_lazy_restore_enabled"
  | fullRestoreComplete => "full_restore_complete"

/-- `RestoreState::from_str`. -/
def fromStr : String → Except Error RestoreState
  | "identity_restored" => .ok identityRestored
  | "root_keys_unwrapped" => .ok rootKeysUnwrapped
  | "manifest_verified" => .ok manifestVerified
  | "skeleton_restored" => .ok skeletonRestored
  | "search_restored" => .ok searchRestored
  | "recent_messages_restored" => .ok recentMessagesRestored
  | "media_lazy_restore_enabled" => .ok mediaLazyRestoreEnabled
  | "full_restore_complete" => .ok fullRestoreComplete
  | other => .error (.storageMsg ("invalid restore_state: unknown state: " ++ other.quote))

@[simp] theorem fromStr_asStr (s : RestoreState) : fromStr s.asStr = .ok s := by
  cases s <;> rfl

/-- The transitions of the diagram: linear, forward only. -/
def legal : RestoreState → RestoreState → Bool
  | identityRestored, rootKeysUnwrapped => true
  | rootKeysUnwrapped, manifestVerified => true
  | manifestVerified, skeletonRestored => true
  | skeletonRestored, searchRestored => true
  | searchRestored, recentMessagesRestored => true
  | recentMessagesRestored, mediaLazyRestoreEnabled => true
  | mediaLazyRestoreEnabled, fullRestoreComplete => true
  | _, _ => false

/-- `RestoreState::try_transition`. -/
def tryTransition (source target : RestoreState) : Except Error RestoreState :=
  if legal source target then .ok target
  else .error (.storageMsg ("illegal state transition: " ++ source.asStr ++ " → " ++ target.asStr))

end RestoreState

/-! ## Steps of a restore -/

/-- The `restore_state` row, if there is one: state text and notes. -/
abbrev RestoreRow := Option (String × Option String)

/-- **What a restore reads and writes** besides the sink. -/
structure RestoreDb where
  row : RestoreRow
  drawn : Nat

/-- **A fallible restore step**: an error does not undo what was already persisted. -/
def RestoreM (α : Type) : Type := RestoreDb → Except Error α × RestoreDb

namespace RestoreM

variable {α β : Type}

/-- Run the second step on what the first one leaves, unless the first one failed. -/
def andThen (x : RestoreM α) (f : α → RestoreM β) : RestoreM β := fun db =>
  match x db with
  | (.ok a, db') => f a db'
  | (.error e, db') => (.error e, db')

instance : Monad RestoreM where
  pure a := fun db => (.ok a, db)
  bind := andThen

/-- A computation that does not touch the state. -/
def lift (x : Except Error α) : RestoreM α := fun db => (x, db)

/-- A draw of entropy. -/
def draw : RestoreM Nat := fun db => (.ok db.drawn, { db with drawn := db.drawn + 1 })

variable {x : RestoreM α} {f : α → RestoreM β} {db db' : RestoreDb}

theorem pure_eq {a b : α} : (pure a : RestoreM α) db = (.ok b, db') ↔ a = b ∧ db = db' := by
  show ((Except.ok a, db) : Except Error α × RestoreDb) = _ ↔ _
  simp

/-- **Peel a successful run apart.** -/
theorem bind_eq_ok {b : β} :
    (x >>= f) db = (.ok b, db') ↔ ∃ a db₁, x db = (.ok a, db₁) ∧ f a db₁ = (.ok b, db') := by
  show andThen x f db = _ ↔ _
  unfold andThen
  rcases h : x db with ⟨r, db₁⟩
  cases r with
  | error e => simp
  | ok a => simp

theorem bind_of_ok {a : α} {db₁ : RestoreDb} (h : x db = (.ok a, db₁)) : (x >>= f) db = f a db₁ := by
  show andThen x f db = _
  simp [andThen, h]

theorem bind_of_error {e : Error} {db₁ : RestoreDb} (h : x db = (.error e, db₁)) :
    (x >>= f) db = (.error e, db₁) := by
  show andThen x f db = _
  simp [andThen, h]

theorem lift_eq_ok {r : Except Error α} {a : α} : lift r db = (.ok a, db') ↔ r = .ok a ∧ db = db' := by
  simp [lift, Prod.ext_iff]

theorem draw_eq_ok {n : Nat} :
    draw db = (.ok n, db') ↔ db.drawn = n ∧ { db with drawn := db.drawn + 1 } = db' := by
  simp [draw, Prod.ext_iff]

/-- Entropy only moves forward. -/
def DrawsOn (x : RestoreM α) : Prop := ∀ db, db.drawn ≤ (x db).2.drawn

theorem drawsOn_pure (a : α) : DrawsOn (pure a : RestoreM α) := fun db => le_refl db.drawn

theorem drawsOn_lift (r : Except Error α) : DrawsOn (lift r) := fun db => le_refl db.drawn

theorem drawsOn_draw : DrawsOn draw := fun db => Nat.le_succ db.drawn

theorem DrawsOn.bind (hx : DrawsOn x) (hf : ∀ a, DrawsOn (f a)) : DrawsOn (x >>= f) := by
  intro db
  show db.drawn ≤ (andThen x f db).2.drawn
  have hdb := hx db
  unfold andThen
  rcases h : x db with ⟨r, db₁⟩
  rw [h] at hdb
  cases r with
  | error e => exact hdb
  | ok a => exact hdb.trans (hf a db₁)

end RestoreM

/-! ## The row -/

/-- `load`. -/
def load (row : RestoreRow) : Except Error (Option (RestoreState × Option String)) :=
  match row with
  | none => .ok none
  | some (text, notes) => (RestoreState.fromStr text).map fun st => some (st, notes)

/-- `save`. -/
def save (state : RestoreState) (notes : Option String) (db : RestoreDb) : RestoreDb :=
  { db with row := some (state.asStr, notes) }

/-- The state `transition` persists, from the row it finds. -/
def nextState (row : RestoreRow) (target : RestoreState) : Except Error RestoreState :=
  match load row with
  | .error e => .error e
  | .ok none =>
      if target ≠ .identityRestored then
        .error (.storageMsg ("restore_state row missing — initial state must be identity_restored, got " ++
          target.asStr))
      else .ok target
  | .ok (some (source, _)) => RestoreState.tryTransition source target

/-- `transition`. -/
def transition (target : RestoreState) (notes : Option String) : RestoreM RestoreState := fun db =>
  match nextState db.row target with
  | .error e => (.error e, db)
  | .ok next => (.ok next, save next notes db)

/-- `reset`. -/
def reset : RestoreM Unit := fun db => (.ok (), { db with row := none })

section Transition

variable {target source : RestoreState} {notes : Option String} {db db' : RestoreDb} {s : RestoreState}

theorem nextState_eq_ok (h : nextState db.row target = .ok s) : s = target := by
  unfold nextState at h
  rcases hload : load db.row with e | row
  · simp [hload] at h
  · simp only [hload] at h
    rcases row with _ | ⟨source, notes'⟩
    · simp only at h
      split at h
      · exact absurd h (by simp)
      · exact (Except.ok.inj h).symm
    · simp only [RestoreState.tryTransition] at h
      split at h
      · exact (Except.ok.inj h).symm
      · exact absurd h (by simp)

/-- **A transition that succeeds** persists its target and draws nothing. -/
theorem transition_eq_ok (h : transition target notes db = (.ok s, db')) :
    s = target ∧ db' = save target notes db := by
  unfold transition at h
  cases hn : nextState db.row target with
  | error e => simp [hn] at h
  | ok next =>
      obtain rfl := nextState_eq_ok hn
      simp only [hn, Prod.mk.injEq, Except.ok.injEq] at h
      exact ⟨h.1.symm, h.2.symm⟩

/-- **A legal transition succeeds.** -/
theorem transition_of_row {old : Option String} (hrow : db.row = some (source.asStr, old))
    (hlegal : source.legal target = true) :
    transition target notes db = (.ok target, save target notes db) := by
  have hnext : nextState db.row target = .ok target := by
    simp [nextState, load, hrow, Except.map, RestoreState.tryTransition, hlegal]
  rw [transition, hnext]

/-- Only the first state can be entered without a row. -/
theorem transition_of_none (hrow : db.row = none) :
    transition .identityRestored notes db =
      (.ok .identityRestored, save .identityRestored notes db) := by
  have hnext : nextState db.row .identityRestored = .ok .identityRestored := by
    simp [nextState, load, hrow]
  rw [transition, hnext]

theorem drawsOn_transition (target : RestoreState) (notes : Option String) :
    RestoreM.DrawsOn (transition target notes) := by
  intro db
  unfold transition
  split
  · exact le_refl db.drawn
  · exact le_refl db.drawn

theorem drawsOn_reset : RestoreM.DrawsOn reset := fun db => le_refl db.drawn

end Transition

end KChatCore.Restore
