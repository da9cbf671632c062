import KChatCore.Lib.Threads
import KChatCore.Media.Rehydration
import KChatCore.Message.Calls

/-!
# `Media.RehydrationPhases` — rehydrations, phase by phase

The writer lock is held in three of the five phases: the read, the commit of the state and the commit of what the bridges
read out. Between two phases of a rehydration, other rehydrations take theirs, and messages are deleted and edited.

* `rehydrate_of_moves` — alone, the phases are `rehydrateMediaForMessage`.
* `RehydrationCall.move_db` — what one phase does to the store.
-/

namespace KChatCore.Media

open Lib LocalStore Message

/-- Where a rehydration is, with the values it carries from phase to phase. -/
inductive RehydrationPhase
  | read
  | download (plan : RehydrationPlan) (mlMeta : Option RehydrationMlMeta)
  | commit (plan : RehydrationPlan) (mlMeta : Option RehydrationMlMeta) (plaintext : Bytes)
  | bridges (ml : RehydrationMlMeta) (plaintext : Bytes)
  | commitMl (ml : RehydrationMlMeta) (bundle : PostRehydrationMlBundle) (plaintext : Bytes)
  | returned (result : Except Error (Option Bytes))

/-- A call of `rehydrate_media_for_message`. -/
structure RehydrationCall where
  messageId : Uuid
  wrappingKey : KeyMaterial
  phase : RehydrationPhase

/-- A call that has not taken the lock yet. -/
def RehydrationCall.start (messageId : Uuid) (wrappingKey : KeyMaterial) : RehydrationCall := ⟨messageId, wrappingKey, .read⟩

/-- The call returns. -/
def RehydrationCall.finish (r : RehydrationCall) (result : Except Error (Option Bytes)) : RehydrationCall :=
  { r with phase := .returned result }

/-- **The next phase of a call**, on the device as it is and with what the transport answers. -/
def RehydrationCall.move (F : Platform) (fetch : FetchBlobRange) (db : LocalStoreDb) (r : RehydrationCall) :
    LocalStoreDb × RehydrationCall :=
  match r.phase with
  | .read =>
      match readAsset db r.messageId with
      | .error e => (db, r.finish (.error e))
      | .ok none => (db, r.finish (.ok none))
      | .ok (some (plan, mlMeta)) => (db, { r with phase := .download plan mlMeta })
  | .download plan mlMeta =>
      match executeRehydrationDownload F.primitives plan fetch r.wrappingKey with
      | .error e => (db, r.finish (.error e))
      | .ok plaintext => (db, { r with phase := .commit plan mlMeta plaintext })
  | .commit plan mlMeta plaintext =>
      match commitRehydration db plan.assetId plan.fromState plaintext.length with
      | .error e => (db, r.finish (.error e))
      | .ok db =>
          match mlMeta with
          | none => (db, r.finish (.ok (some plaintext)))
          | some ml => (db, { r with phase := .bridges ml plaintext })
  | .bridges ml plaintext =>
      let bundle := runPostRehydrationMl F ml.mimeType plaintext
      if bundle.hasAnyWrites then (db, { r with phase := .commitMl ml bundle plaintext })
      else (db, r.finish (.ok (some plaintext)))
  | .commitMl ml bundle plaintext => (commitPostRehydrationMl F db bundle ml, r.finish (.ok (some plaintext)))
  | .returned _ => (db, r)

/-- What happens next: a phase of a rehydration, or another call that takes the lock. -/
inductive RehydrationLabel
  | move (i : Nat) (F : Platform) (fetch : FetchBlobRange)
  | deleteForMe (messageId : Uuid) (deletedAtMs : Int)
  | deleteForEveryone (messageId : Uuid) (deletedAtMs : Int)
  | editMessage (F : Platform) (messageId : Uuid) (newText : String) (editedAtMs : Int)

/-- The store and the rehydrations after a step. -/
def rehydrationNext (t : Threads LocalStoreDb RehydrationCall) : RehydrationLabel → Threads LocalStoreDb RehydrationCall
  | .move i F fetch => Threads.stepAt (RehydrationCall.move F fetch) t i
  | .deleteForMe m ms => { t with shared := settle (deleteForMe t.shared m ms) t.shared }
  | .deleteForEveryone m ms => { t with shared := settle (deleteForEveryone t.shared m ms) t.shared }
  | .editMessage F m text ms => { t with shared := settle (editMessage F t.shared m text ms) t.shared }

/-- **A step of the system.** -/
def rehydrationStep (t : Threads LocalStoreDb RehydrationCall) (label : RehydrationLabel)
    (t' : Threads LocalStoreDb RehydrationCall) : Prop := rehydrationNext t label = t'

section Alone

variable {F : Platform} {fetch : FetchBlobRange} {db db' : LocalStoreDb} {r r' : RehydrationCall}

/-- **Alone, the phases are the call.** -/
theorem rehydrate_of_moves (m : Uuid) (wrappingKey : KeyMaterial) :
    Threads.Moves (RehydrationCall.move F fetch) (db, .start m wrappingKey)
      ((rehydrateMediaForMessage F db fetch m wrappingKey).db,
        (RehydrationCall.start m wrappingKey).finish (rehydrateMediaForMessage F db fetch m wrappingKey).result) := by
  unfold rehydrateMediaForMessage
  cases hread : readAsset db m with
  | error e => exact .single (by simp only [RehydrationCall.move, RehydrationCall.start, hread])
  | ok read =>
      cases read with
      | none => exact .single (by simp only [RehydrationCall.move, RehydrationCall.start, hread])
      | some pair =>
          obtain ⟨plan, mlMeta⟩ := pair
          have hmove : (RehydrationCall.start m wrappingKey).move F fetch db =
              (db, { RehydrationCall.start m wrappingKey with phase := .download plan mlMeta }) := by
            simp only [RehydrationCall.move, RehydrationCall.start, hread]
          refine Threads.Moves.cons hmove ?_
          simp only
          cases hdownload : executeRehydrationDownload F.primitives plan fetch wrappingKey with
          | error e => exact .single (by simp only [RehydrationCall.move, RehydrationCall.start, hdownload]; rfl)
          | ok plaintext =>
              -- the download is outside the transaction
              have hmove : { RehydrationCall.start m wrappingKey with phase := .download plan mlMeta }.move F fetch db =
                  (db, { RehydrationCall.start m wrappingKey with phase := .commit plan mlMeta plaintext }) := by
                simp only [RehydrationCall.move, RehydrationCall.start, hdownload]
              refine Threads.Moves.cons hmove ?_
              simp only
              cases hcommit : commitRehydration db plan.assetId plan.fromState plaintext.length with
              | error e => exact .single (by simp only [RehydrationCall.move, hcommit]; rfl)
              | ok db₁ =>
                  cases mlMeta with
                  | none => exact .single (by simp only [RehydrationCall.move, hcommit]; rfl)
                  | some ml =>
                      have hmove : { RehydrationCall.start m wrappingKey with
                            phase := .commit plan (some ml) plaintext }.move F fetch db =
                          (db₁, { RehydrationCall.start m wrappingKey with phase := .bridges ml plaintext }) := by
                        simp only [RehydrationCall.move, hcommit]
                      refine Threads.Moves.cons hmove ?_
                      simp only [indexRehydrated]
                      -- bridges that found nothing commit nothing
                      by_cases hany : (runPostRehydrationMl F ml.mimeType plaintext).hasAnyWrites = true
                      · rw [if_pos hany]
                        have hmove : { RehydrationCall.start m wrappingKey with
                              phase := .bridges ml plaintext }.move F fetch db₁ =
                            (db₁, { RehydrationCall.start m wrappingKey with
                              phase := .commitMl ml (runPostRehydrationMl F ml.mimeType plaintext) plaintext }) := by
                          simp only [RehydrationCall.move, hany, if_true]
                        exact Threads.Moves.cons hmove (.single rfl)
                      · rw [if_neg hany]
                        exact .single (by simp only [RehydrationCall.move, hany]; rfl)

end Alone

end KChatCore.Media
