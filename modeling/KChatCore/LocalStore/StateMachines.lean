import KChatCore.Base

/-!
# `LocalStore.StateMachines` — the lifecycles of a message and of its media

Each enumeration is a column of the local store. The body's lifecycle is guarded: `BodyState.tryTransition` rejects
what the state diagram does not list, and the two deleted states list no way out (`deleted_is_terminal`). So is that
of a media asset.
-/

namespace KChatCore

/-- `StateTransitionError`, as the guards return it. -/
inductive StateTransitionError
  | illegal (source target : String)
deriving DecidableEq, Repr

/-- The `Display` form. -/
def StateTransitionError.display : StateTransitionError → String
  | illegal source target => "illegal state transition: " ++ source ++ " → " ++ target

/-- `BodyState`. -/
inductive BodyState
  | localPlainAvailable
  | localEncryptedAvailable
  | remoteArchiveOnly
  | deliveryStoreOnly
  | deletedForMe
  | deletedForEveryone
  | unavailable
deriving DecidableEq, Repr

namespace BodyState

/-- The `Display` form. -/
def display : BodyState → String
  | localPlainAvailable => "local_plain_available"
  | localEncryptedAvailable => "local_encrypted_available"
  | remoteArchiveOnly => "remote_archive_only"
  | deliveryStoreOnly => "delivery_store_only"
  | deletedForMe => "deleted_for_me"
  | deletedForEveryone => "deleted_for_everyone"
  | unavailable => "unavailable"

/-- The transitions of the state diagram. -/
def legal : BodyState → BodyState → Bool
  | localPlainAvailable, localEncryptedAvailable => true
  | localEncryptedAvailable, localPlainAvailable => true
  | localPlainAvailable, remoteArchiveOnly => true
  | remoteArchiveOnly, localPlainAvailable => true
  | localPlainAvailable, deletedForMe => true
  | localPlainAvailable, deletedForEveryone => true
  | deliveryStoreOnly, localPlainAvailable => true
  | remoteArchiveOnly, unavailable => true
  | _, _ => false

/-- `BodyState::try_transition`. -/
def tryTransition (source target : BodyState) : Except StateTransitionError BodyState :=
  if legal source target then .ok target else .error (.illegal source.display target.display)

/-- Whether the user deleted the message, for themselves or for everyone. -/
def deleted : BodyState → Bool
  | deletedForMe | deletedForEveryone => true
  | _ => false

theorem tryTransition_eq_ok {source target s : BodyState} :
    tryTransition source target = .ok s ↔ legal source target = true ∧ s = target := by
  unfold tryTransition
  cases h : legal source target <;> simp [eq_comm]

/-- **The diagram has no way out of a deleted state.** -/
theorem deleted_is_terminal {s : BodyState} (h : s.deleted = true) (target : BodyState) : legal s target = false := by
  cases s <;> cases target <;> simp_all [deleted, legal]

/-- A body is deleted from plain text only. -/
theorem legal_deleted {source target : BodyState} (ht : target.deleted = true) :
    legal source target = true ↔ source = localPlainAvailable := by
  cases source <;> cases target <;> simp_all [deleted, legal]

end BodyState

/-- `MediaState`. -/
inductive MediaState
  | thumbnailOnly
  | originalLocal
  | remoteOriginal
  | downloadInProgress
  | evicted
  | deleted
deriving DecidableEq, Repr

namespace MediaState

/-- The `Display` form. -/
def display : MediaState → String
  | thumbnailOnly => "thumbnail_only"
  | originalLocal => "original_local"
  | remoteOriginal => "remote_original"
  | downloadInProgress => "download_in_progress"
  | evicted => "evicted"
  | deleted => "deleted"

/-- The transitions of the state diagram. -/
def legal : MediaState → MediaState → Bool
  | thumbnailOnly, originalLocal => true
  | thumbnailOnly, remoteOriginal => true
  | originalLocal, evicted => true
  | originalLocal, deleted => true
  | evicted, downloadInProgress => true
  | remoteOriginal, downloadInProgress => true
  | downloadInProgress, originalLocal => true
  | _, _ => false

/-- `MediaState::try_transition`. -/
def tryTransition (source target : MediaState) : Except StateTransitionError MediaState :=
  if legal source target then .ok target else .error (.illegal source.display target.display)

theorem tryTransition_eq_ok {source target s : MediaState} :
    tryTransition source target = .ok s ↔ legal source target = true ∧ s = target := by
  unfold tryTransition
  cases h : legal source target <;> simp [eq_comm]

end MediaState

/-- `ArchiveState`. -/
inductive ArchiveState
  | notArchived
  | archivePending
  | archiveUploaded
  | archiveVerified
  | archiveCompacted
deriving DecidableEq, Repr

/-- `BackupState`. -/
inductive BackupState
  | notBackedUp
  | backupPending
  | backupUploaded
  | backupManifestCommitted
  | backupExpired
deriving DecidableEq, Repr

end KChatCore
