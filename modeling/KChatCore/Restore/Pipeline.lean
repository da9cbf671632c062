import KChatCore.Backup.Compaction
import KChatCore.Backup.SegmentBuilder
import KChatCore.LocalStore.StateMachines
import KChatCore.Restore.StateMachine

/-!
# `Restore.Pipeline` — the skeleton-first restore

`run` decrypts every segment, puts the events in time order, makes a skeleton row of every received message and
a body of every recent one, and persists a state after each step. It drops nothing: the doc comment of
`restore_timeline_skeletons` leaves tombstones to the caller.

* `run_eq_ok` — what a successful run returns; `run_isOk` — when it succeeds.
* `mem_rows`, `belongs_of_mem_bodies` — every received message has a row, and every body a row.
-/

namespace KChatCore.Restore

open Backup

/-! ## What a restore returns -/

/-- `RestoredConversation`. -/
structure RestoredConversation where
  conversationId : Uuid
deriving DecidableEq, Repr

/-- `SkeletonRow`. -/
structure SkeletonRow where
  conversationId : Uuid
  messageId : Uuid
  createdAtMs : Int
  bodyState : BodyState
deriving DecidableEq, Repr

/-- `RestoredBody`. -/
structure RestoredBody where
  messageId : Uuid
  payload : Bytes
deriving DecidableEq, Repr

/-- `RestoreSummary`. -/
structure RestoreSummary where
  conversations : List RestoredConversation
  skeletons : List SkeletonRow
  recentBodies : List RestoredBody
  finalState : Option RestoreState
deriving DecidableEq, Repr

/-! ## The steps -/

/-- `restore_conversation_list`: the distinct conversations of the events, in id order. -/
def restoreConversationList (_manifests : List BackupManifest) (events : List BackupEvent) :
    List RestoredConversation :=
  (((events.filterMap BackupEvent.conversationId).map Uuid.val).dedup.insertionSort fun a b => a ≤ b).map
    fun v => ⟨⟨v⟩⟩

/-- The skeleton row of an event, if it received a message. -/
def skeletonOf (ev : BackupEvent) : Option SkeletonRow :=
  match ev.eventType with
  | .messageReceived => do
      let conversationId ← ev.conversationId
      let messageId ← ev.messageId
      return ⟨conversationId, messageId, ev.createdAtMs, .remoteArchiveOnly⟩
  | _ => none

/-- `restore_timeline_skeletons`. -/
def restoreTimelineSkeletons (events : List BackupEvent) : List SkeletonRow := events.filterMap skeletonOf

/-- The inner loop of `restore_recent_bodies`: flip the first row of the message. -/
def hydrateFirst (mid : Uuid) : List SkeletonRow → Option (List SkeletonRow)
  | [] => none
  | sk :: skeletons =>
      if sk.messageId = mid then some ({ sk with bodyState := .localPlainAvailable } :: skeletons)
      else (hydrateFirst mid skeletons).map (sk :: ·)

/-- The message an event gives a body to: none if it is too old, or received nothing. -/
def recentMessage (cutoff : Int) (ev : BackupEvent) : Option Uuid :=
  if ev.eventType ≠ .messageReceived then none
  else if ev.createdAtMs < cutoff then none
  else ev.messageId

/-- The outer loop of `restore_recent_bodies`. -/
def hydrateRecent (cutoff : Int) : List BackupEvent → List SkeletonRow → List SkeletonRow × List RestoredBody
  | [], skeletons => (skeletons, [])
  | ev :: events, skeletons =>
      match (recentMessage cutoff ev).bind fun mid => (hydrateFirst mid skeletons).map fun sks => (mid, sks) with
      | none => hydrateRecent cutoff events skeletons
      | some (mid, skeletons') =>
          let rest := hydrateRecent cutoff events skeletons'
          (rest.1, ⟨mid, ev.payload⟩ :: rest.2)

/-- `restore_recent_bodies`: the rows it leaves, and the bodies. -/
def restoreRecentBodies (events : List BackupEvent) (skeletons : List SkeletonRow)
    (nowMs recencyWindowMs : Int) : List SkeletonRow × List RestoredBody :=
  hydrateRecent (satSubI64 nowMs recencyWindowMs) events skeletons

/-- The events of every segment, in segment order. -/
def decryptSegments (P : Primitives) (kBackupSegment : KeyMaterial) :
    List BuiltBackupSegment → Except Error (List BackupEvent)
  | [] => .ok []
  | seg :: segments =>
      match decryptBackupSegment P seg kBackupSegment with
      | .error e => .error e
      | .ok payload => (decryptSegments P kBackupSegment segments).map (payload.events ++ ·)

/-- `events.sort_by_key(|e| e.created_at_ms)`, a stable sort. -/
def timeline (events : List BackupEvent) : List BackupEvent :=
  events.insertionSort fun a b => a.createdAtMs ≤ b.createdAtMs

/-- `RestorePipeline::run`. -/
def run (P : Primitives) (manifests : List BackupManifest) (sealedSegments : List BuiltBackupSegment)
    (kBackupSegment : KeyMaterial) (nowMs recencyWindowMs : Int) : RestoreM RestoreSummary := do
  let decrypted ← RestoreM.lift (decryptSegments P kBackupSegment sealedSegments)
  let events := timeline decrypted
  let conversations := restoreConversationList manifests events
  let skeletons := restoreTimelineSkeletons events
  let _ ← transition .skeletonRestored none
  let _ ← transition .searchRestored none
  let hydrated := restoreRecentBodies events skeletons nowMs recencyWindowMs
  let _ ← transition .recentMessagesRestored none
  let _ ← transition .mediaLazyRestoreEnabled none
  let finalState ← transition .fullRestoreComplete none
  return ⟨conversations, hydrated.1, hydrated.2, some finalState⟩

/-! ## A run -/

section Run

variable {P : Primitives} {manifests : List BackupManifest} {segments : List BuiltBackupSegment}
  {k : KeyMaterial} {nowMs recencyWindowMs : Int} {db db' : RestoreDb} {summary : RestoreSummary}
  {decrypted : List BackupEvent}

/-- What a run over decrypted events returns. -/
def summaryOf (manifests : List BackupManifest) (decrypted : List BackupEvent) (nowMs recencyWindowMs : Int) :
    RestoreSummary :=
  let events := timeline decrypted
  let hydrated := restoreRecentBodies events (restoreTimelineSkeletons events) nowMs recencyWindowMs
  ⟨restoreConversationList manifests events, hydrated.1, hydrated.2, some .fullRestoreComplete⟩

/-- **What a successful run returns.** -/
theorem run_eq_ok (h : run P manifests segments k nowMs recencyWindowMs db = (.ok summary, db')) :
    ∃ decrypted, decryptSegments P k segments = .ok decrypted ∧
      summary = summaryOf manifests decrypted nowMs recencyWindowMs := by
  unfold run at h
  obtain ⟨decrypted, db₁, hdec, h⟩ := RestoreM.bind_eq_ok.mp h
  obtain ⟨hdec, -⟩ := RestoreM.lift_eq_ok.mp hdec
  refine ⟨decrypted, hdec, ?_⟩
  obtain ⟨_, _, -, h⟩ := RestoreM.bind_eq_ok.mp h
  obtain ⟨_, _, -, h⟩ := RestoreM.bind_eq_ok.mp h
  obtain ⟨_, _, -, h⟩ := RestoreM.bind_eq_ok.mp h
  obtain ⟨_, _, -, h⟩ := RestoreM.bind_eq_ok.mp h
  obtain ⟨final, _, hfinal, h⟩ := RestoreM.bind_eq_ok.mp h
  obtain ⟨rfl, -⟩ := transition_eq_ok hfinal
  exact (RestoreM.pure_eq.mp h).1.symm

theorem drawsOn_run : RestoreM.DrawsOn (run P manifests segments k nowMs recencyWindowMs) := by
  unfold run
  refine (RestoreM.drawsOn_lift _).bind fun decrypted => ?_
  refine (drawsOn_transition _ _).bind fun _ => ?_
  refine (drawsOn_transition _ _).bind fun _ => ?_
  refine (drawsOn_transition _ _).bind fun _ => ?_
  refine (drawsOn_transition _ _).bind fun _ => ?_
  exact (drawsOn_transition _ _).bind fun _ => RestoreM.drawsOn_pure _

/-- **A run succeeds** from the verified manifest on, over segments that decrypt. -/
theorem run_isOk (hdec : decryptSegments P k segments = .ok decrypted) {notes : Option String}
    (hrow : db.row = some (RestoreState.manifestVerified.asStr, notes)) :
    ∃ db', run P manifests segments k nowMs recencyWindowMs db =
      (.ok (summaryOf manifests decrypted nowMs recencyWindowMs), db') := by
  unfold run
  rw [RestoreM.bind_of_ok (RestoreM.lift_eq_ok.mpr ⟨hdec, rfl⟩)]
  rw [RestoreM.bind_of_ok (transition_of_row hrow rfl)]
  rw [RestoreM.bind_of_ok (transition_of_row rfl rfl)]
  rw [RestoreM.bind_of_ok (transition_of_row rfl rfl)]
  rw [RestoreM.bind_of_ok (transition_of_row rfl rfl)]
  rw [RestoreM.bind_of_ok (transition_of_row rfl rfl)]
  exact ⟨_, rfl⟩

end Run

/-! ## Rows and bodies -/

/-- The row is of the message the event received. -/
def RowOf (ev : BackupEvent) (row : SkeletonRow) : Prop :=
  ev.eventType = .messageReceived ∧ ev.ids = some (row.conversationId, row.messageId) ∧
    ev.createdAtMs = row.createdAtMs

/-- The body is of the row: `RestoredBody::message_id` is a foreign key into the rows. -/
def RestoredBody.BelongsTo (body : RestoredBody) (row : SkeletonRow) : Prop := body.messageId = row.messageId

/-- What a row is about, whatever the state of its body. -/
def SkeletonRow.key (row : SkeletonRow) : Uuid × Uuid × Int := (row.conversationId, row.messageId, row.createdAtMs)

theorem skeletonOf_eq_some {ev : BackupEvent} {row : SkeletonRow} :
    skeletonOf ev = some row ↔ RowOf ev row ∧ row.bodyState = .remoteArchiveOnly := by
  obtain ⟨ty, conv, mid, payload, ms⟩ := ev
  obtain ⟨conv', mid', ms', state⟩ := row
  cases ty <;> cases conv <;> cases mid <;> simp [skeletonOf, RowOf, BackupEvent.ids, and_assoc, eq_comm]

theorem hydrateFirst_keys {mid : Uuid} {skeletons skeletons' : List SkeletonRow}
    (h : hydrateFirst mid skeletons = some skeletons') :
    skeletons'.map SkeletonRow.key = skeletons.map SkeletonRow.key ∧
      ∃ row ∈ skeletons, row.messageId = mid := by
  induction skeletons generalizing skeletons' with
  | nil => exact absurd h (by simp [hydrateFirst])
  | cons sk skeletons ih =>
      unfold hydrateFirst at h
      split at h
      · rename_i hmid
        obtain rfl := Option.some.inj h
        exact ⟨rfl, sk, by simp, hmid⟩
      · obtain ⟨rest, hrest, rfl⟩ := Option.map_eq_some_iff.mp h
        obtain ⟨hkeys, row, hrow, hmid⟩ := ih hrest
        exact ⟨by simp [hkeys], row, by simp [hrow], hmid⟩

/-- **Hydration changes what no row is about**, and gives a body only to a message that has a row. -/
theorem hydrateRecent_keys {cutoff : Int} (events : List BackupEvent) (skeletons : List SkeletonRow) :
    (hydrateRecent cutoff events skeletons).1.map SkeletonRow.key = skeletons.map SkeletonRow.key ∧
      ∀ body ∈ (hydrateRecent cutoff events skeletons).2, ∃ row ∈ skeletons, body.BelongsTo row := by
  induction events generalizing skeletons with
  | nil => exact ⟨rfl, by simp [hydrateRecent]⟩
  | cons ev events ih =>
      unfold hydrateRecent
      split
      · exact ih skeletons
      · rename_i mid skeletons' hmatch
        obtain ⟨mid', -, hmatch⟩ := Option.bind_eq_some_iff.mp hmatch
        obtain ⟨sks, hfirst, heq⟩ := Option.map_eq_some_iff.mp hmatch
        obtain ⟨rfl, rfl⟩ := Prod.mk.inj heq
        obtain ⟨hkeys, row, hrow, hmid⟩ := hydrateFirst_keys hfirst
        obtain ⟨hkeys', hbodies⟩ := ih sks
        refine ⟨hkeys'.trans hkeys, fun body hbody => ?_⟩
        rcases List.mem_cons.mp hbody with rfl | hbody
        · exact ⟨row, hrow, hmid.symm⟩
        · -- the flipped rows have the keys of the rows they were
          obtain ⟨row', hrow', hbelongs⟩ := hbodies body hbody
          have hkey : row'.key ∈ skeletons.map SkeletonRow.key := by
            rw [← hkeys]
            exact List.mem_map_of_mem hrow'
          obtain ⟨row₀, hrow₀, heq⟩ := List.mem_map.mp hkey
          simp only [SkeletonRow.key, Prod.mk.injEq] at heq
          exact ⟨row₀, hrow₀, hbelongs.trans heq.2.1.symm⟩

section Summary

variable {manifests : List BackupManifest} {decrypted : List BackupEvent} {nowMs recencyWindowMs : Int}

theorem keys_of_summaryOf :
    (summaryOf manifests decrypted nowMs recencyWindowMs).skeletons.map SkeletonRow.key =
      (restoreTimelineSkeletons (timeline decrypted)).map SkeletonRow.key :=
  (hydrateRecent_keys (timeline decrypted) (restoreTimelineSkeletons (timeline decrypted))).1

/-- **Every row is of a received message.** -/
theorem rowOf_of_mem_skeletons {row : SkeletonRow}
    (h : row ∈ (summaryOf manifests decrypted nowMs recencyWindowMs).skeletons) :
    ∃ ev ∈ timeline decrypted, RowOf ev row := by
  have hkey := List.mem_map_of_mem (f := SkeletonRow.key) h
  rw [keys_of_summaryOf] at hkey
  obtain ⟨row₀, hrow₀, heq⟩ := List.mem_map.mp hkey
  obtain ⟨ev, hev, hskel⟩ := List.mem_filterMap.mp hrow₀
  obtain ⟨⟨hty, hids, hms⟩, -⟩ := skeletonOf_eq_some.mp hskel
  simp only [SkeletonRow.key, Prod.mk.injEq] at heq
  obtain ⟨hconv, hmid, hms'⟩ := heq
  exact ⟨ev, hev, hty, by rw [hids, hconv, hmid], hms.trans hms'⟩

/-- The rows made of the events are all there after hydration. -/
theorem exists_row_of_key {row : SkeletonRow} (h : row ∈ restoreTimelineSkeletons (timeline decrypted)) :
    ∃ row' ∈ (summaryOf manifests decrypted nowMs recencyWindowMs).skeletons, row'.key = row.key := by
  have hkey := List.mem_map_of_mem (f := SkeletonRow.key) h
  rw [← keys_of_summaryOf] at hkey
  exact List.mem_map.mp hkey

/-- **Every received message has a row.** -/
theorem exists_row_of_mem_timeline {ev : BackupEvent} (hev : ev ∈ timeline decrypted)
    (hty : ev.eventType = .messageReceived) {conv mid : Uuid} (hids : ev.ids = some (conv, mid)) :
    ∃ row ∈ (summaryOf manifests decrypted nowMs recencyWindowMs).skeletons, RowOf ev row := by
  have hskel : skeletonOf ev = some ⟨conv, mid, ev.createdAtMs, .remoteArchiveOnly⟩ :=
    skeletonOf_eq_some.mpr ⟨⟨hty, hids, rfl⟩, rfl⟩
  obtain ⟨row, hrow, heq⟩ := exists_row_of_key (List.mem_filterMap.mpr ⟨ev, hev, hskel⟩)
  simp only [SkeletonRow.key, Prod.mk.injEq] at heq
  obtain ⟨hconv, hmid, hms⟩ := heq
  exact ⟨row, hrow, hty, by rw [hids, hconv, hmid], hms.symm⟩

/-- **Every body is of a row.** -/
theorem belongsTo_of_mem_recentBodies {body : RestoredBody}
    (h : body ∈ (summaryOf manifests decrypted nowMs recencyWindowMs).recentBodies) :
    ∃ row ∈ (summaryOf manifests decrypted nowMs recencyWindowMs).skeletons, body.BelongsTo row := by
  obtain ⟨row₀, hrow₀, hbelongs⟩ :=
    (hydrateRecent_keys (timeline decrypted) (restoreTimelineSkeletons (timeline decrypted))).2 body h
  obtain ⟨row, hrow, heq⟩ := exists_row_of_key hrow₀
  simp only [SkeletonRow.key, Prod.mk.injEq] at heq
  exact ⟨row, hrow, hbelongs.trans heq.2.1.symm⟩

end Summary

end KChatCore.Restore
