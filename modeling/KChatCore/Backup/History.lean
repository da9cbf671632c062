import KChatCore.Backup.ChainLinearity
import KChatCore.Backup.Upload

/-!
# `Backup.History` — journal writes and calls, one after the other

A `BackupHistory` is a core together with the manifests its calls have committed, oldest first. Its steps are
whole calls, whatever they return.

* `CallOutcome` — what a call does to a core between calls; `callOutcome_of_run` says it is one of its cases.
* `HistoryInv.next` — along a history the manifests are a linear chain that ends in the tail, and every id that
  was ever used has been drawn.
-/

namespace KChatCore.Backup

open Lib

/-! ## Histories -/

/-- A journal write or a whole call. -/
inductive BackupCall
  | writeJournal (tag : String) (conversationId messageId : Option IdText) (payload : Bytes) (createdAtMs : Int)
  | incremental (nowPersistMs : Int)
  | compaction (nowMs nowPersistMs : Int)

/-- Run it; only whether it succeeds is kept of the result. -/
def BackupCall.run (P : Primitives) : BackupCall → Core → Except Error Unit × Core
  | .writeJournal tag conv mid payload ms, c => (.ok (), c.insertJournal tag conv mid payload ms)
  | .incremental nowPersistMs, c =>
      ((runIncrementalBackupInner P nowPersistMs c).1.map fun _ => (),
        (runIncrementalBackupInner P nowPersistMs c).2)
  | .compaction nowMs nowPersistMs, c =>
      ((compactBackup P nowMs nowPersistMs c).1.map fun _ => (), (compactBackup P nowMs nowPersistMs c).2)

/-- **A core and the manifests committed so far**, oldest first. -/
structure BackupHistory where
  core : Core
  chain : List BackupManifest

namespace BackupHistory

/-- A fresh core. -/
def init (keys : BackupKeys) (sink : Option BackupSink) : BackupHistory := ⟨Core.fresh keys sink, []⟩

/-- The tail a step has put in place, if it has. -/
def newTail (c c' : Core) : List BackupManifest :=
  if c'.backup.chainState.previousManifest = c.backup.chainState.previousManifest then []
  else c'.backup.chainState.previousManifest.toList

/-- The next write or call. -/
def next (P : Primitives) (s : BackupHistory) (call : BackupCall) : BackupHistory :=
  ⟨(call.run P s.core).2, s.chain ++ newTail s.core (call.run P s.core).2⟩

/-- The step relation of histories. -/
def Step (P : Primitives) (s : BackupHistory) (call : BackupCall) (s' : BackupHistory) : Prop :=
  s.next P call = s'

/-- The history after a list of calls. -/
def runCalls (P : Primitives) (s : BackupHistory) (calls : List BackupCall) : BackupHistory :=
  calls.foldl (next P) s

/-- The trace of a list of calls. -/
def trace (P : Primitives) : BackupHistory → List BackupCall → List (BackupHistory × BackupCall)
  | _, [] => []
  | s, call :: calls => (s, call) :: trace P (s.next P call) calls

theorem run_calls (P : Primitives) (s : BackupHistory) (calls : List BackupCall) :
    Run (Step P) s (trace P s calls) (s.runCalls P calls) := by
  induction calls generalizing s with
  | nil => exact Run.refl
  | cons call calls ih => exact (Run.single (show Step P s call (s.next P call) from rfl)).trans (ih _)

end BackupHistory

/-! ## What a call does between calls -/

/-- **The outcomes of a write or a call** on a core between calls. -/
inductive CallOutcome (P : Primitives) (keys : BackupKeys) (c : Core) :
    BackupCall → Except Error Unit → Core → Prop
  | wrote (tag : String) (conv mid : Option IdText) (payload : Bytes) (ms : Int) :
      CallOutcome P keys c (.writeJournal tag conv mid payload ms) (.ok ())
        (c.insertJournal tag conv mid payload ms)
  | idleIncremental {nowPersistMs : Int} {r : Except Error Unit} {c' : Core} : Untouched c c' →
      (r = .ok () → c' = c ∧ readBatch c.db = .ok none) → CallOutcome P keys c (.incremental nowPersistMs) r c'
  | idleCompaction {nowMs nowPersistMs : Int} {r : Except Error Unit} {c' : Core} : Untouched c c' →
      (r = .ok () → c' = c ∧ (planFor c.backup.chainState.trackedSegments nowMs).groups = []) →
      ((planFor c.backup.chainState.trackedSegments nowMs).groups = [] ∨
        u64Max < nextGeneration c.backup.chainState.previousManifest) →
      CallOutcome P keys c (.compaction nowMs nowPersistMs) r c'
  | incremental {nowPersistMs : Int} {batch : ReadBatch} {tracked : TrackedBackupSegment}
      {sealed : SealedBackupManifest} {c₂ c' : Core} {ru : Except Error (Nat × Bool)} :
      IncrementalCommitted P nowPersistMs c c₂ keys batch tracked sealed →
      uploadStep P keys [tracked] sealed c₂ = (ru, c') →
      CallOutcome P keys c (.incremental nowPersistMs) (ru.map fun _ => ()) c'
  | compaction {nowMs nowPersistMs : Int} {outputs : List TrackedBackupSegment}
      {sealed : SealedBackupManifest} {c₂ c' : Core} {ru : Except Error (Nat × Bool)} :
      CompactionCommitted P nowMs nowPersistMs c c₂ keys outputs sealed →
      uploadStep P keys outputs sealed c₂ = (ru, c') →
      CallOutcome P keys c (.compaction nowMs nowPersistMs) (ru.map fun _ => ()) c'

section Outcome

variable {P : Primitives} {keys : BackupKeys} {c c' : Core}

theorem map_map_unit {α β : Type} (f : α → β) (r : Except Error α) :
    ((r.map f).map fun _ => ()) = r.map fun _ => () := by
  cases r <;> rfl

/-- **A call has one of the outcomes.** -/
theorem callOutcome_of_run (h : CoreInv P keys c) (call : BackupCall) :
    CallOutcome P keys c call (call.run P c).1 (call.run P c).2 := by
  cases call with
  | writeJournal tag conv mid payload ms => exact .wrote tag conv mid payload ms
  | incremental nowPersistMs =>
      rcases hrun : runIncrementalBackupInner P nowPersistMs c with ⟨r, c'⟩
      simp only [BackupCall.run, hrun]
      rcases runIncrementalBackupInner_cases hrun with ⟨hu, hok⟩ | ⟨keys', batch, t, sealed, c₂, ru, hi, hup, rfl⟩
      · refine .idleIncremental hu fun hr => ?_
        cases r with
        | error e => exact absurd hr (by simp [Except.map])
        | ok x => exact (hok x rfl).2
      · have hkeys : keys' = keys := Option.some.inj (hi.committed.keys_eq.symm.trans h.keys_eq)
        subst hkeys
        rw [map_map_unit]
        exact .incremental hi hup
  | compaction nowMs nowPersistMs =>
      rcases hrun : compactBackup P nowMs nowPersistMs c with ⟨r, c'⟩
      simp only [BackupCall.run, hrun]
      by_cases hplan : (planFor c.backup.chainState.trackedSegments nowMs).groups ≠ [] ∧
          nextGeneration c.backup.chainState.previousManifest ≤ u64Max
      · obtain ⟨tally, sealed, c₂, ru, hi, hup, rfl⟩ := compactBackup_commits h hplan.1 hplan.2 hrun
        rw [map_map_unit]
        exact .compaction hi hup
      · rcases compactBackup_cases hrun with ⟨hu, hok⟩ | ⟨keys', tally, sealed, c₂, ru, hi, _, _⟩
        · refine .idleCompaction hu (fun hr => ?_) ?_
          · cases r with
            | error e => exact absurd hr (by simp [Except.map])
            | ok x => exact (hok x rfl).2
          · rw [not_and_or, not_not, not_le] at hplan
            exact hplan
        · -- a commit has a plan and a generation
          have hgen := (chainLink_isOk_iff P _).mp ⟨_, hi.committed.manifest.link⟩
          exact absurd ⟨hi.planned, hgen⟩ hplan

end Outcome

/-! ## What holds along a history -/

/-- **Along a history**: the core invariant, a linear chain that ends in the tail, and every id drawn. -/
structure HistoryInv (P : Primitives) (keys : BackupKeys) (s : BackupHistory) : Prop where
  core : CoreInv P keys s.core
  linear : LinearChain P s.chain
  head : s.chain.getLast? = s.core.backup.chainState.previousManifest
  chain_drawn : ∀ m ∈ s.chain, ∃ n < s.core.drawn, m.manifestId = Uuid.nowV7 n
  refs_drawn : ∀ m ∈ s.chain, ∀ ref ∈ m.segments, ∃ n < s.core.drawn, ref.segmentId = Uuid.nowV7 n

theorem historyInv_init (P : Primitives) (keys : BackupKeys) (sink : Option BackupSink) :
    HistoryInv P keys (BackupHistory.init keys sink) :=
  ⟨coreInv_fresh P keys sink, linearChain_nil P, rfl, by simp [BackupHistory.init], by simp [BackupHistory.init]⟩

section HistoryInv

variable {P : Primitives} {keys : BackupKeys} {s : BackupHistory} {c₂ c' : Core}

/-- A step that keeps the tail. -/
theorem HistoryInv.idle (h : HistoryInv P keys s) (hcore : CoreInv P keys c')
    (htail : c'.backup.chainState.previousManifest = s.core.backup.chainState.previousManifest)
    (hdrawn : s.core.drawn ≤ c'.drawn) :
    HistoryInv P keys ⟨c', s.chain ++ BackupHistory.newTail s.core c'⟩ := by
  have hnil : BackupHistory.newTail s.core c' = [] := if_pos htail
  rw [hnil, List.append_nil]
  refine ⟨hcore, h.linear, h.head.trans htail.symm, fun m hm => ?_, fun m hm ref href => ?_⟩
  · obtain ⟨n, hn, hid⟩ := h.chain_drawn m hm
    exact ⟨n, hn.trans_le hdrawn, hid⟩
  · obtain ⟨n, hn, hid⟩ := h.refs_drawn m hm ref href
    exact ⟨n, hn.trans_le hdrawn, hid⟩

/-- A commit puts a new tail in place. -/
theorem Committed.newTail_eq {kept outputs listed : List TrackedBackupSegment} {sealed : SealedBackupManifest}
    (hc : Committed P s.core c₂ keys kept outputs listed sealed) (hbackup : c'.backup = c₂.backup) :
    BackupHistory.newTail s.core c' = [sealed.manifest] := by
  have htail : c'.backup.chainState.previousManifest = some sealed.manifest := by
    rw [hbackup, hc.chainState]
  have hgen := chainLink_generation hc.manifest.link
  have hne : c'.backup.chainState.previousManifest ≠ s.core.backup.chainState.previousManifest := by
    intro heq
    rw [← heq, htail] at hgen
    simp [nextGeneration] at hgen
  rw [BackupHistory.newTail, if_neg hne, htail]
  rfl

/-- **A commit, uploaded or not.** -/
theorem HistoryInv.commit {kept outputs listed : List TrackedBackupSegment} {sealed : SealedBackupManifest}
    (h : HistoryInv P keys s) (hc : Committed P s.core c₂ keys kept outputs listed sealed)
    (hlisted : listed ⊆ kept ++ outputs) (hyd : Hydrates P keys.rootKey c₂.db c₂.backup.chainState)
    (hdb : c'.db = c₂.db) (hbackup : c'.backup = c₂.backup) (hdrawn : c'.drawn = c₂.drawn) :
    HistoryInv P keys ⟨c', s.chain ++ BackupHistory.newTail s.core c'⟩ := by
  have hcore₂ := h.core.committed hc hyd
  have hd : c'.drawn = s.core.drawn + outputs.length + 1 := hdrawn.trans hc.drawn
  rw [hc.newTail_eq hbackup]
  refine ⟨hcore₂.of_eq hdb hbackup hdrawn.ge, h.linear.push ?_, ?_, fun m hm => ?_, fun m hm ref href => ?_⟩
  · rw [h.head]
    exact hc.manifest.link
  · rw [List.getLast?_append, List.getLast?_singleton, hbackup, hc.chainState]
    rfl
  · show ∃ n < c'.drawn, _
    rcases List.mem_append.mp hm with hold | hnew
    · obtain ⟨n, hn, hid⟩ := h.chain_drawn m hold
      exact ⟨n, by omega, hid⟩
    · rw [List.mem_singleton.mp hnew]
      exact ⟨_, by omega, hc.manifest.id⟩
  · show ∃ n < c'.drawn, _
    rcases List.mem_append.mp hm with hold | hnew
    · obtain ⟨n, hn, hid⟩ := h.refs_drawn m hold ref href
      exact ⟨n, by omega, hid⟩
    · rw [List.mem_singleton.mp hnew, hc.manifest.segments_eq, List.map_map] at href
      obtain ⟨t, ht, rfl⟩ := List.mem_map.mp href
      have ht₂ : t ∈ c₂.backup.chainState.trackedSegments := by
        rw [hc.chainState]
        exact hlisted ht
      obtain ⟨n, hn, hid⟩ := hcore₂.ids_drawn t ht₂
      exact ⟨n, by omega, hid⟩

/-- **A write or a call keeps it**, whatever the outcome. -/
theorem HistoryInv.next (h : HistoryInv P keys s) (call : BackupCall) : HistoryInv P keys (s.next P call) := by
  have hout := callOutcome_of_run h.core call
  unfold BackupHistory.next
  generalize (call.run P s.core).1 = r at hout
  generalize (call.run P s.core).2 = c' at hout ⊢
  cases hout with
  | wrote tag conv mid payload ms =>
      exact h.idle (h.core.insertJournal tag conv mid payload ms) rfl le_rfl
  | idleIncremental hu hok => exact h.idle (h.core.untouched hu) (by rw [hu.backup]) hu.drawn
  | idleCompaction hu hok hwhy => exact h.idle (h.core.untouched hu) (by rw [hu.backup]) hu.drawn
  | incremental hi hup =>
      obtain ⟨hdb, hbackup, hdrawn⟩ := uploadStep_frame hup
      exact h.commit hi.committed (List.subset_append_right _ _) (hi.hydrates h.core) hdb hbackup hdrawn
  | compaction hi hup =>
      obtain ⟨hdb, hbackup, hdrawn⟩ := uploadStep_frame hup
      exact h.commit hi.committed (List.Subset.refl _) hi.hydrates hdb hbackup hdrawn

end HistoryInv

end KChatCore.Backup
