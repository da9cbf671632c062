import KChatCore.Lib.Threads
import KChatCore.Media.Migration

/-!
# `Media.MigrationRuns` — runs of the migration, step by step

A run plans, and takes its items one by one: probe, fetch, upload, read back, update the row, delete the source. The lock
on the store is held inside the plan, the probe and the update only, so that between two steps of a run any other run may
take its own.

* `moved_move` — what one step does to what the runs share.
* `migrateOne_of_moves` — alone, the moves of a run over an item are `migrateOne`.
* `run_of_moves` — and what a run does alone, it does in the system.
-/

namespace KChatCore.Media

open Lib LocalStore Message

/-- The services behind the sinks, by the tag of the sink. -/
structure MediaServices (β : Type) where
  name : String → String
  bridge : String → FileBridge β

/-- The sink of a tag. -/
def MediaServices.sink {β : Type} (S : MediaServices β) (tag : String) : MediaBlobSink β := ⟨tag, S.name tag, S.bridge tag⟩

/-- What the runs share: the local store, and what each service holds. -/
structure MediaWorld (β : Type) where
  db : LocalStoreDb
  stores : String → β

/-- Where a run is: about to plan, between two items, or at a step of `migrate_one`. -/
inductive MigrationPhase
  | plan
  | next
  | fetch (item : MediaMigrationItem)
  | upload (item : MediaMigrationItem) (chunks : List Bytes)
  | verify (item : MediaMigrationItem) (chunks : List Bytes) (newRef : MediaBlobReference)
  | update (item : MediaMigrationItem) (newRef : MediaBlobReference)
  | delete (item : MediaMigrationItem)

/-- A run of `plan_media_migration` and `execute_media_migration`: what it was called with, the items to come, and the
report so far. -/
structure MigrationRun where
  sourceSink : String
  targetSink : String
  deleteSource : Bool
  phase : MigrationPhase
  todo : List MediaMigrationItem
  report : List (Uuid × MigrationItemOutcome)

/-- A run that is about to plan. -/
def MigrationRun.start (sourceSink targetSink : String) (deleteSource : Bool) : MigrationRun :=
  ⟨sourceSink, targetSink, deleteSource, .plan, [], []⟩

/-- The outcome of an item goes to the report, and the run to the next item. -/
def MigrationRun.reportItem (r : MigrationRun) (item : MediaMigrationItem) (outcome : MigrationItemOutcome) :
    MigrationRun :=
  { r with phase := .next, report := r.report ++ [(item.assetId, outcome)] }

section Moves

variable {β : Type}

/-- A service after a step. -/
def MediaWorld.setStore (w : MediaWorld β) (tag : String) (s : β) : MediaWorld β :=
  { w with stores := Function.update w.stores tag s }

/-- **The next step of a run**; `faults` is what fails in it. -/
def MigrationRun.move (P : Primitives) (S : MediaServices β) (faults : MigrationFaults) (w : MediaWorld β)
    (r : MigrationRun) : MediaWorld β × MigrationRun :=
  match r.phase with
  | .plan => (w, { r with phase := .next, todo := (planMediaMigration w.db r.sourceSink r.targetSink).items })
  | .next =>
      match r.todo with
      | [] => (w, r)
      | item :: todo =>
          match probeItem w.db item r.targetSink faults.probe with
          | some outcome => (w, { r with todo := todo }.reportItem item outcome)
          | none => (w, { r with phase := .fetch item, todo := todo })
  | .fetch item =>
      match fetchItem (S.sink r.sourceSink) item (w.stores r.sourceSink) faults.fetch with
      | .error reason => (w, r.reportItem item (.failed reason))
      | .ok chunks => (w, { r with phase := .upload item chunks })
  | .upload item chunks =>
      match uploadItem (S.sink r.targetSink) item chunks (w.stores r.targetSink) faults.upload with
      | (.error reason, t) => (w.setStore r.targetSink t, r.reportItem item (.failed reason))
      | (.ok newRef, t) => (w.setStore r.targetSink t, { r with phase := .verify item chunks newRef })
  | .verify item chunks newRef =>
      match verifyItem P (S.sink r.targetSink) item chunks newRef (w.stores r.targetSink) faults.verify with
      | .error reason => (w, r.reportItem item (.failed reason))
      | .ok () => (w, { r with phase := .update item newRef })
  | .update item newRef =>
      match updateItem w.db item newRef faults.update with
      | .error reason => (w, r.reportItem item (.failed reason))
      | .ok db =>
          ({ w with db := db }, if r.deleteSource then { r with phase := .delete item } else r.reportItem item .migrated)
  | .delete item =>
      (w.setStore r.sourceSink (deleteItem (S.sink r.sourceSink) item (w.stores r.sourceSink) faults.delete),
        r.reportItem item .migrated)

/-- **A step of the system**: one of the runs moves. -/
def migrationStep (P : Primitives) (S : MediaServices β) (t : Threads (MediaWorld β) MigrationRun)
    (label : Nat × MigrationFaults) (t' : Threads (MediaWorld β) MigrationRun) : Prop :=
  Threads.stepAt (MigrationRun.move P S label.2) t label.1 = t'

/-- **What a move does to what the runs share.** -/
inductive Moved (S : MediaServices β) (faults : MigrationFaults) (w : MediaWorld β) (r : MigrationRun) : MediaWorld β → Prop
  | nothing : Moved S faults w r w
  | uploaded (item : MediaMigrationItem) (chunks : List Bytes) : r.phase = .upload item chunks →
      Moved S faults w r
        (w.setStore r.targetSink (uploadedStore (S.sink r.targetSink) item chunks (w.stores r.targetSink)))
  | updated (item : MediaMigrationItem) (newRef : MediaBlobReference) : r.phase = .update item newRef →
      faults.update = none →
      Moved S faults w r { w with db := w.db.updateMediaStorageSink item.assetId newRef.storageSink newRef.blobId }
  | deleted (item : MediaMigrationItem) : r.phase = .delete item → faults.delete = none →
      Moved S faults w r (w.setStore r.sourceSink
        ((S.bridge r.sourceSink).delete (MediaBlobSink.fileOf (item.sourceRef r.sourceSink)) (w.stores r.sourceSink)))

theorem setStore_self (w : MediaWorld β) (tag : String) : w.setStore tag (w.stores tag) = w := by
  unfold MediaWorld.setStore
  rw [Function.update_eq_self]

/-- The upload of an item: nothing, or the file. -/
theorem uploadItem_store (target : MediaBlobSink β) (item : MediaMigrationItem) (chunks : List Bytes) (t : β)
    (fault : Option Error) :
    (uploadItem target item chunks t fault).2 = t ∨
      (uploadItem target item chunks t fault).2 = uploadedStore target item chunks t := by
  cases fault with
  | some e => exact .inl rfl
  | none =>
      by_cases hmax : u32Max < chunks.length
      · left
        unfold uploadItem MediaBlobSink.uploadMediaChunks
        rw [if_pos hmax]
      · right
        rw [uploadItem_ok (not_lt.mp hmax)]

theorem moved_move (P : Primitives) (S : MediaServices β) (faults : MigrationFaults) (w : MediaWorld β)
    (r : MigrationRun) : Moved S faults w r (r.move P S faults w).1 := by
  unfold MigrationRun.move
  cases hphase : r.phase with
  | plan => exact .nothing
  | next =>
      cases r.todo with
      | nil => exact .nothing
      | cons item todo =>
          simp only
          split <;> exact .nothing
  | fetch item =>
      simp only
      split <;> exact .nothing
  | verify item chunks newRef =>
      simp only
      split <;> exact .nothing
  | upload item chunks =>
      simp only
      -- only an upload, an update and a delete write
      have hstore := uploadItem_store (S.sink r.targetSink) item chunks (w.stores r.targetSink) faults.upload
      have hmoved : Moved S faults w r (w.setStore r.targetSink
          (uploadItem (S.sink r.targetSink) item chunks (w.stores r.targetSink) faults.upload).2) := by
        rcases hstore with hsame | hfile
        · rw [hsame, setStore_self]
          exact .nothing
        · rw [hfile]
          exact .uploaded item chunks hphase
      split <;> rename_i hresult <;> rw [hresult] at hmoved <;> exact hmoved
  | update item newRef =>
      simp only
      cases hfault : faults.update with
      | some e => exact .nothing
      | none => exact .updated item newRef hphase hfault
  | delete item =>
      simp only
      cases hfault : faults.delete with
      | some e =>
          show Moved S faults w r (w.setStore r.sourceSink (w.stores r.sourceSink))
          rw [setStore_self]
          exact .nothing
      | none =>
          show Moved S faults w r (w.setStore r.sourceSink (MediaBlobSink.deleteMediaBlob _ _ _).2)
          have hown : ¬ (item.sourceRef r.sourceSink).storageSink ≠ r.sourceSink := not_not.mpr rfl
          unfold MediaBlobSink.deleteMediaBlob
          simp only [MediaServices.sink, hown, if_false]
          exact .deleted item hphase hfault

/-! ### A run that is alone -/

variable {P : Primitives} {S : MediaServices β} {faults : MigrationFaults} {w w' : MediaWorld β} {r r' : MigrationRun}
  {item : MediaMigrationItem} {chunks : List Bytes} {newRef : MediaBlobReference}

/-- What `migrateOne` leaves, in the world of the runs. -/
def MediaWorld.after (w : MediaWorld β) (sourceSink targetSink : String) (out : Migration β) : MediaWorld β :=
  ({ w with db := out.db }.setStore sourceSink out.source).setStore targetSink out.target

/-- **Alone, the moves of a run over an item are `migrateOne`.** -/
theorem migrateOne_of_moves (hapart : r.sourceSink ≠ r.targetSink) {todo : List MediaMigrationItem}
    (hphase : r.phase = .next) (htodo : r.todo = item :: todo) :
    let out := migrateOne P (S.sink r.sourceSink) (S.sink r.targetSink) item r.deleteSource faults w.db
      (w.stores r.sourceSink) (w.stores r.targetSink)
    Threads.Moves (MigrationRun.move P S faults) (w, r)
      (w.after r.sourceSink r.targetSink out, { r with todo := todo }.reportItem item out.outcome) := by
  have hunmoved : ∀ outcome, w.after r.sourceSink r.targetSink
      ⟨outcome, w.db, w.stores r.sourceSink, w.stores r.targetSink⟩ = w := by
    intro outcome
    show (w.setStore r.sourceSink (w.stores r.sourceSink)).setStore r.targetSink (w.stores r.targetSink) = w
    rw [setStore_self, setStore_self]
  have huploaded : ∀ outcome db t, w.after r.sourceSink r.targetSink ⟨outcome, db, w.stores r.sourceSink, t⟩ =
      { w with db := db }.setStore r.targetSink t := by
    intro outcome db t
    show ({ w with db := db }.setStore r.sourceSink (w.stores r.sourceSink)).setStore r.targetSink t = _
    rw [setStore_self { w with db := db }]
  show Threads.Moves (MigrationRun.move P S faults) (w, r) (w.after r.sourceSink r.targetSink (migrateOne _ _ _ _ _ _ _ _ _),
    { r with todo := todo }.reportItem item (migrateOne _ _ _ _ _ _ _ _ _).outcome)
  unfold migrateOne
  cases hprobe : probeItem w.db item (S.sink r.targetSink).tag faults.probe with
  | some outcome =>
      have hprobed : probeItem w.db item r.targetSink faults.probe = _ := hprobe
      have hmove : r.move P S faults w = (w, { r with todo := todo }.reportItem item outcome) := by
        simp only [MigrationRun.move, hphase, htodo, hprobed]
      simp only [hunmoved]
      exact .single hmove
  | none =>
      have hprobed : probeItem w.db item r.targetSink faults.probe = _ := hprobe
      have hmove : r.move P S faults w = (w, { r with phase := .fetch item, todo := todo }) := by
        simp only [MigrationRun.move, hphase, htodo, hprobed]
      refine Threads.Moves.cons hmove ?_
      simp only
      cases hfetch : fetchItem (S.sink r.sourceSink) item (w.stores r.sourceSink) faults.fetch with
      | error reason =>
          simp only [hunmoved]
          exact .single (by simp only [MigrationRun.move, hfetch]; rfl)
      | ok chunks =>
          have hmove : { r with phase := .fetch item, todo := todo }.move P S faults w =
              (w, { r with phase := .upload item chunks, todo := todo }) := by
            simp only [MigrationRun.move, hfetch]
          refine Threads.Moves.cons hmove ?_
          simp only
          cases hupload : uploadItem (S.sink r.targetSink) item chunks (w.stores r.targetSink) faults.upload with
          | mk result t =>
              have htarget : (w.setStore r.targetSink t).stores r.targetSink = t := Function.update_self _ _ _
              have hsource : (w.setStore r.targetSink t).stores r.sourceSink = w.stores r.sourceSink :=
                Function.update_of_ne hapart _ _
              cases result with
              | error reason =>
                  simp only [huploaded]
                  exact .single (by simp only [MigrationRun.move, hupload]; rfl)
              | ok newRef =>
                  have hmove : { r with phase := .upload item chunks, todo := todo }.move P S faults w =
                      (w.setStore r.targetSink t, { r with phase := .verify item chunks newRef, todo := todo }) := by
                    simp only [MigrationRun.move, hupload]
                  refine Threads.Moves.cons hmove ?_
                  simp only
                  cases hverify : verifyItem P (S.sink r.targetSink) item chunks newRef t faults.verify with
                  | error reason =>
                      simp only [huploaded]
                      exact .single (by simp only [MigrationRun.move, htarget, hverify]; rfl)
                  | ok _ =>
                      have hmove : { r with phase := .verify item chunks newRef, todo := todo }.move P S faults
                          (w.setStore r.targetSink t) =
                            (w.setStore r.targetSink t, { r with phase := .update item newRef, todo := todo }) := by
                        simp only [MigrationRun.move, htarget, hverify]
                      refine Threads.Moves.cons hmove ?_
                      simp only
                      cases hupdate : updateItem w.db item newRef faults.update with
                      | error reason =>
                          have hupdated : updateItem (w.setStore r.targetSink t).db item newRef faults.update = _ := hupdate
                          simp only [huploaded]
                          exact .single (by simp only [MigrationRun.move, hupdated]; rfl)
                      | ok db =>
                          have hupdated : updateItem (w.setStore r.targetSink t).db item newRef faults.update = _ := hupdate
                          cases hdelete : r.deleteSource with
                          | false =>
                              simp only [Bool.false_eq_true, if_false, huploaded]
                              exact .single (by simp only [MigrationRun.move, hupdated]; rfl)
                          | true =>
                              have hmove : { r with phase := .update item newRef, todo := todo }.move P S faults
                                  (w.setStore r.targetSink t) = ({ w with db := db }.setStore r.targetSink t,
                                    { r with phase := .delete item, todo := todo }) := by
                                simp only [MigrationRun.move, hupdated, hdelete]
                                rfl
                              rw [hdelete] at hmove
                              refine Threads.Moves.cons hmove ?_
                              simp only [if_true]
                              -- the two services are apart, so that the order of the two writes does not matter
                              have hswap : ∀ s, ({ w with db := db }.setStore r.targetSink t).setStore r.sourceSink s =
                                  w.after r.sourceSink r.targetSink ⟨.migrated, db, s, t⟩ := by
                                intro s
                                unfold MediaWorld.after MediaWorld.setStore
                                simp only [Function.update_comm hapart]
                              have hstore : ({ w with db := db }.setStore r.targetSink t).stores r.sourceSink =
                                  w.stores r.sourceSink := hsource
                              refine .single ?_
                              simp only [MigrationRun.move, hswap, hstore]
                              rfl

/-- **A migration that nothing stops**, up to the update of the row. -/
theorem moves_to_update (hphase : r.phase = .next) {todo : List MediaMigrationItem} (htodo : r.todo = item :: todo)
    (hprobe : probeItem w.db item r.targetSink none = none)
    (hfetch : Fetches (S.sink r.sourceSink) (w.stores r.sourceSink) (item.sourceRef r.sourceSink) chunks)
    (hcount : item.chunkCount = chunks.length) (hmax : chunks.length ≤ u32Max) (hlaid : LaidOut chunks) (hne : chunks ≠ []) :
    Threads.Moves (MigrationRun.move P S .none) (w, r)
      ({ w with db := w.db.updateMediaStorageSink item.assetId r.targetSink item.assetId }.setStore r.targetSink
          (uploadedStore (S.sink r.targetSink) item chunks (w.stores r.targetSink)),
        if r.deleteSource then { r with phase := .delete item, todo := todo }
        else { r with todo := todo }.reportItem item .migrated) := by
  have hfetched : fetchItem (S.sink r.sourceSink) item (w.stores r.sourceSink) MigrationFaults.none.fetch = .ok chunks :=
    fetchItem_ok hfetch hcount fun _ _ => rfl
  have huploaded : uploadItem (S.sink r.targetSink) item chunks (w.stores r.targetSink) none = _ := uploadItem_ok hmax
  have hverified : verifyItem P (S.sink r.targetSink) item chunks _ _ MigrationFaults.none.verify = .ok () :=
    verifyItem_ok (t := w.stores r.targetSink) hlaid hne hcount fun _ _ => rfl
  have htarget : ∀ t, (w.setStore r.targetSink t).stores r.targetSink = t := fun t => Function.update_self _ _ _
  have hnext : r.move P S .none w = (w, { r with phase := .fetch item, todo := todo }) := by
    have hprobed : probeItem w.db item r.targetSink MigrationFaults.none.probe = none := hprobe
    simp only [MigrationRun.move, hphase, htodo, hprobed]
  have hfetching : { r with phase := .fetch item, todo := todo }.move P S .none w =
      (w, { r with phase := .upload item chunks, todo := todo }) := by
    simp only [MigrationRun.move, hfetched]
  have huploading : { r with phase := .upload item chunks, todo := todo }.move P S .none w =
      (w.setStore r.targetSink (uploadedStore (S.sink r.targetSink) item chunks (w.stores r.targetSink)),
        { r with phase := .verify item chunks (uploadedRef (S.sink r.targetSink) item chunks (w.stores r.targetSink)),
                 todo := todo }) := by
    simp only [MigrationRun.move, MigrationFaults.none, huploaded]
  have hverifying : { r with phase := .verify item chunks (uploadedRef (S.sink r.targetSink) item chunks
          (w.stores r.targetSink)), todo := todo }.move P S .none
        (w.setStore r.targetSink (uploadedStore (S.sink r.targetSink) item chunks (w.stores r.targetSink))) =
      (w.setStore r.targetSink (uploadedStore (S.sink r.targetSink) item chunks (w.stores r.targetSink)),
        { r with phase := .update item (uploadedRef (S.sink r.targetSink) item chunks (w.stores r.targetSink)),
                 todo := todo }) := by
    simp only [MigrationRun.move, htarget, hverified]
  exact Threads.Moves.cons hnext (Threads.Moves.cons hfetching (Threads.Moves.cons huploading (Threads.Moves.cons hverifying (.single rfl))))

/-- What a run does alone, it does in the system. -/
theorem run_of_moves {t : Threads (MediaWorld β) MigrationRun} {i : Nat} {p : MediaWorld β × MigrationRun}
    (hr : t.locals[i]? = some r) (h : Threads.Moves (MigrationRun.move P S faults) (t.shared, r) p) :
    ∃ tr, Run (migrationStep P S) t tr ⟨p.1, t.locals.set i p.2⟩ := by
  have hstep : ∀ t, migrationStep P S t (i, faults) (Threads.stepAt (MigrationRun.move P S faults) t i) := fun _ => rfl
  exact h.run hstep hr

end Moves

end KChatCore.Media
