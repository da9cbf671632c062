import KChatCore.Base
import KChatCore.Lib.Ledger
import KChatCore.Lib.Progress

/-!
# `Scheduler.Workers` — the worker threads of the in-process scheduler

One thread a scheduled `TaskType`: it sleeps on the condition variable of its own state until its deadline or until it is
told to stop, runs the handler without the lock, counts the tick, and starts over. A `schedule_*` call reads the handler
under one lock and registers the worker under another. A `cancel_all` call drains the registered workers, and then tells,
wakes and joins them one after the other.

`World.step` is one locked section of one call or of one thread, the end of one handler run, a wakeup, or the clock. The
handler may fail or panic: a panic ends its thread, not under a lock, so no lock is poisoned. `spawnedAt` and `fired` are
there to be spoken of; nothing of the scheduler reads them.
-/

namespace KChatCore.Scheduler

universe u

/-- `TaskType`: the recurring tasks. -/
inductive TaskType
  | incrementalBackup
  | archiveCompaction
  | indexMaintenance
  | mediaCacheEviction
  | modelWarmup
  | shardCacheWarming
  deriving DecidableEq, Repr

/-- `default_task_id`. -/
def TaskType.defaultTaskId : TaskType → String
  | .incrementalBackup => "kchat.scheduler.incremental_backup"
  | .archiveCompaction => "kchat.scheduler.archive_compaction"
  | .indexMaintenance => "kchat.scheduler.index_maintenance"
  | .mediaCacheEviction => "kchat.scheduler.media_cache_eviction"
  | .modelWarmup => "kchat.scheduler.model_warmup"
  | .shardCacheWarming => "kchat.scheduler.shard_cache_warming"

theorem TaskType.defaultTaskId_injective : Function.Injective defaultTaskId := by
  intro task task' h
  cases task <;> cases task' <;> simp_all [defaultTaskId]

/-! ## One worker thread -/

namespace Workers

/-- **Where a worker thread stands**: `checking` before it has the lock with a deadline set, `asleep` in `wait_timeout`,
`calling` while the handler runs, `called` before it counts the tick. -/
inductive WorkerPhase
  | looping
  | checking (deadline : ℕ)
  | asleep (deadline : ℕ)
  | calling
  | called
  | exited (panicked : Bool)
  deriving DecidableEq, Repr

/-- The tick that is not counted: the handler runs, has ended, or has panicked. -/
def WorkerPhase.inFlight : WorkerPhase → ℕ
  | .calling => 1
  | .called => 1
  | .exited true => 1
  | _ => 0

/-- A thread with its `TaskState`. -/
structure Worker (η : Type u) where
  task : TaskType
  intervalMs : ℕ
  handler : Option η
  spawnedAt : ℕ
  fired : ℕ
  shutdown : Bool
  tickCount : ℕ
  phase : WorkerPhase
  deriving DecidableEq, Repr

inductive WorkerMove
  | beginWait
  | check
  | timeout
  | spuriousWakeup
  | handlerEnds (panics : Bool)
  | bump
  deriving DecidableEq, Repr

variable {η : Type u}

/-- The loop of the thread, one section at a time. -/
def Worker.move (now : ℕ) (w : Worker η) : WorkerMove → Option (Worker η)
  | .beginWait =>
      match w.phase with
      | .looping => some { w with phase := .checking (now + w.intervalMs) }
      | _ => none
  | .check =>
      match w.phase with
      | .checking deadline =>
          if w.shutdown then some { w with phase := .exited false }
          else if deadline ≤ now then
            some { w with fired := w.fired + 1, phase := if w.handler.isSome then .calling else .called }
          else some { w with phase := .asleep deadline }
      | _ => none
  | .timeout =>
      match w.phase with
      | .asleep deadline => if deadline ≤ now then some { w with phase := .checking deadline } else none
      | _ => none
  | .spuriousWakeup =>
      match w.phase with
      | .asleep deadline => some { w with phase := .checking deadline }
      | _ => none
  | .handlerEnds panics =>
      match w.phase with
      | .calling => some { w with phase := if panics then .exited true else .called }
      | _ => none
  | .bump =>
      match w.phase with
      | .called => some { w with tickCount := min (w.tickCount + 1) u64Max, phase := .looping }
      | _ => none

/-- `shutdown = true`, under the lock of the state. -/
def Worker.signal (w : Worker η) : Worker η := { w with shutdown := true }

/-- `notify_all` on the condition variable of the worker, whose thread is the only one to wait there. -/
def Worker.notify (w : Worker η) : Worker η :=
  match w.phase with
  | .asleep deadline => { w with phase := .checking deadline }
  | _ => w

/-! ## The calls -/

/-- Where a `schedule_*` call stands. -/
inductive SpawnCall (η : Type u)
  | entered (task : TaskType) (intervalMs : ℕ)
  | handlerRead (task : TaskType) (intervalMs : ℕ) (handler : Option η)
  | returned (result : Except String Unit)

/-- Where a `cancel_all` call stands in its loop. -/
inductive CancelPhase
  | entered
  | looping
  | signalled (i : ℕ)
  | joining (i : ℕ)
  | returned
  deriving DecidableEq, Repr

/-- **A `cancel_all` call**: the threads it drained, those it has not come to, and where it stands. -/
structure CancelCall where
  drained : List ℕ
  remaining : List ℕ
  phase : CancelPhase
  deriving DecidableEq, Repr

/-- The thread a call is busy with. -/
def CancelPhase.current : CancelPhase → List ℕ
  | .signalled i => [i]
  | .joining i => [i]
  | _ => []

/-- The threads a call has drained and not joined. -/
def CancelCall.held (c : CancelCall) : List ℕ := c.phase.current ++ c.remaining

/-- **The scheduler with its threads and its calls.** A worker handle is the number of its thread. -/
structure World (η : Type u) where
  now : ℕ
  handlers : TaskType → Option η
  workers : List (TaskType × ℕ)
  threads : List (Worker η)
  spawns : List (SpawnCall η)
  cancels : List CancelCall

inductive Label (η : Type u)
  | advance (ms : ℕ)
  | setHandler (task : TaskType) (handler : η)
  | spawnWorker (task : TaskType) (intervalMs : ℕ)
  | readHandler (k : ℕ)
  | register (k : ℕ) (spawned : Except String Unit)
  | worker (i : ℕ) (m : WorkerMove)
  | cancelAll
  | drain (c : ℕ) (order : List ℕ)
  | signal (c : ℕ)
  | notify (c : ℕ)
  | join (c : ℕ)
  | finish (c : ℕ)

/-- `schedule_backup` and its three siblings. -/
def Label.scheduleBackup (intervalMs : ℕ) : Label η := .spawnWorker .incrementalBackup intervalMs
def Label.scheduleArchiveCompaction (intervalMs : ℕ) : Label η := .spawnWorker .archiveCompaction intervalMs
def Label.scheduleIndexMaintenance (intervalMs : ℕ) : Label η := .spawnWorker .indexMaintenance intervalMs
def Label.scheduleMediaCacheEviction (intervalMs : ℕ) : Label η := .spawnWorker .mediaCacheEviction intervalMs

namespace World

/-- `InProcessScheduler::new`. -/
def new : World η := { now := 0, handlers := fun _ => none, workers := [], threads := [], spawns := [], cancels := [] }

/-- `is_task_pending_kind`. -/
def isTaskPendingKind (w : World η) (task : TaskType) : Bool := w.workers.any (·.1 = task)

/-- `is_task_pending`. -/
def isTaskPending (w : World η) (taskId : String) : Bool := w.workers.any (·.1.defaultTaskId = taskId)

theorem isTaskPending_defaultTaskId (w : World η) (task : TaskType) :
    w.isTaskPending task.defaultTaskId = w.isTaskPendingKind task := by
  simp only [isTaskPending, isTaskPendingKind, TaskType.defaultTaskId_injective.eq_iff]

/-- `tick_count`: of the registered worker of the task. -/
def tickCount (w : World η) (task : TaskType) : ℕ :=
  match w.workers.find? (·.1 = task) with
  | some (_, i) => (w.threads[i]?.map Worker.tickCount).getD 0
  | none => 0

/-- A thread that was spawned and has taken no step. -/
def newThread (w : World η) (task : TaskType) (intervalMs : ℕ) (handler : Option η) : Worker η :=
  { task := task, intervalMs := intervalMs, handler := handler, spawnedAt := w.now, fired := 0, shutdown := false,
    tickCount := 0, phase := .looping }

/-- The second half of `spawn_worker`, under the lock of the workers: `spawned` is what the system makes of the thread. -/
def register (w : World η) (k : ℕ) (task : TaskType) (intervalMs : ℕ) (handler : Option η)
    (spawned : Except String Unit) : World η :=
  if w.isTaskPendingKind task then { w with spawns := w.spawns.set k (.returned (.ok ())) }
  else
    match spawned with
    | .error e => { w with spawns := w.spawns.set k (.returned (.error s!"scheduler thread spawn failed: {e}")) }
    | .ok () =>
        { w with
          workers := w.workers ++ [(task, w.threads.length)]
          threads := w.threads ++ [w.newThread task intervalMs handler]
          spawns := w.spawns.set k (.returned (.ok ())) }

/-- **One step.** -/
def step (w : World η) : Label η → Option (World η)
  | .advance ms => some { w with now := w.now + ms }
  | .setHandler task handler => some { w with handlers := Function.update w.handlers task (some handler) }
  | .spawnWorker task intervalMs =>
      let call : SpawnCall η :=
        if intervalMs = 0 then .returned (.error "scheduler interval_ms must be > 0") else .entered task intervalMs
      some { w with spawns := w.spawns ++ [call] }
  | .readHandler k =>
      match w.spawns[k]? with
      | some (.entered task intervalMs) =>
          some { w with spawns := w.spawns.set k (.handlerRead task intervalMs (w.handlers task)) }
      | _ => none
  | .register k spawned =>
      match w.spawns[k]? with
      | some (.handlerRead task intervalMs handler) => some (w.register k task intervalMs handler spawned)
      | _ => none
  | .worker i m => do
      let worker ← w.threads[i]?
      let worker ← worker.move w.now m
      some { w with threads := w.threads.set i worker }
  | .cancelAll => some { w with cancels := w.cancels ++ [⟨[], [], .entered⟩] }
  | .drain c order =>
      match w.cancels[c]? with
      | some ⟨_, _, .entered⟩ =>
          -- the map gives its entries in any order
          if order.Perm (w.workers.map Prod.snd) then
            some { w with workers := [], cancels := w.cancels.set c ⟨order, order, .looping⟩ }
          else none
      | _ => none
  | .signal c =>
      match w.cancels[c]? with
      | some ⟨drained, i :: remaining, .looping⟩ =>
          some { w with
            threads := w.threads.modify i Worker.signal
            cancels := w.cancels.set c ⟨drained, remaining, .signalled i⟩ }
      | _ => none
  | .notify c =>
      match w.cancels[c]? with
      | some ⟨drained, remaining, .signalled i⟩ =>
          some { w with
            threads := w.threads.modify i Worker.notify
            cancels := w.cancels.set c ⟨drained, remaining, .joining i⟩ }
      | _ => none
  | .join c =>
      match w.cancels[c]? with
      | some ⟨drained, remaining, .joining i⟩ =>
          match w.threads[i]?.map Worker.phase with
          -- a panicked worker is joined like any other
          | some (.exited _) => some { w with cancels := w.cancels.set c ⟨drained, remaining, .looping⟩ }
          | _ => none
      | _ => none
  | .finish c =>
      match w.cancels[c]? with
      | some ⟨drained, [], .looping⟩ => some { w with cancels := w.cancels.set c ⟨drained, [], .returned⟩ }
      | _ => none

/-- The step relation, for `Lib.Run`. -/
def Step (w : World η) (a : Label η) (w' : World η) : Prop := w.step a = some w'

end World

/-! ## What one step can do -/

namespace Worker

variable {now now' : ℕ} {w w' : Worker η} {m : WorkerMove}

/-- The thread has ended, by a panic of its handler or because it was told to. -/
def Exited (w : Worker η) : Prop := ∃ panicked, w.phase = .exited panicked

/-- The thread sleeps on its condition variable. -/
def Asleep (w : Worker η) : Prop := ∃ deadline, w.phase = .asleep deadline

/-- **The moves of a thread**, each with the phase it starts from. -/
theorem move_cases (h : w.move now m = some w') :
    (m = .beginWait ∧ w.phase = .looping ∧ w' = { w with phase := .checking (now + w.intervalMs) }) ∨
    (∃ deadline, m = .check ∧ w.phase = .checking deadline ∧
      ((w.shutdown = true ∧ w' = { w with phase := .exited false }) ∨
        (w.shutdown = false ∧ deadline ≤ now ∧
          w' = { w with fired := w.fired + 1, phase := if w.handler.isSome then .calling else .called }) ∨
        (w.shutdown = false ∧ now < deadline ∧ w' = { w with phase := .asleep deadline }))) ∨
    (∃ deadline, (m = .timeout ∧ deadline ≤ now ∨ m = .spuriousWakeup) ∧ w.phase = .asleep deadline ∧
      w' = { w with phase := .checking deadline }) ∨
    (∃ panics, m = .handlerEnds panics ∧ w.phase = .calling ∧
      w' = { w with phase := if panics then .exited true else .called }) ∨
    (m = .bump ∧ w.phase = .called ∧ w' = { w with tickCount := min (w.tickCount + 1) u64Max, phase := .looping }) := by
  cases m with
  | beginWait =>
      simp only [move] at h
      split at h
      · exact .inl ⟨rfl, ‹_›, (Option.some.inj h).symm⟩
      · cases h
  | check =>
      simp only [move] at h
      split at h
      · refine .inr (.inl ⟨_, rfl, ‹_›, ?_⟩)
        split at h
        · exact .inl ⟨‹_›, (Option.some.inj h).symm⟩
        · split at h
          · exact .inr (.inl ⟨by simp_all, ‹_›, (Option.some.inj h).symm⟩)
          · exact .inr (.inr ⟨by simp_all, by omega, (Option.some.inj h).symm⟩)
      · cases h
  | timeout =>
      simp only [move] at h
      split at h
      · split at h
        · exact .inr (.inr (.inl ⟨_, .inl ⟨rfl, ‹_›⟩, ‹_›, (Option.some.inj h).symm⟩))
        · cases h
      · cases h
  | spuriousWakeup =>
      simp only [move] at h
      split at h
      · exact .inr (.inr (.inl ⟨_, .inr rfl, ‹_›, (Option.some.inj h).symm⟩))
      · cases h
  | handlerEnds panics =>
      simp only [move] at h
      split at h
      · exact .inr (.inr (.inr (.inl ⟨panics, rfl, ‹_›, (Option.some.inj h).symm⟩)))
      · cases h
  | bump =>
      simp only [move] at h
      split at h
      · exact .inr (.inr (.inr (.inr ⟨rfl, ‹_›, (Option.some.inj h).symm⟩)))
      · cases h

/-- **What no move of a thread changes.** -/
theorem move_keeps (h : w.move now m = some w') :
    w'.task = w.task ∧ w'.shutdown = w.shutdown ∧ (w.shutdown = true → ¬ w.Asleep → ¬ w'.Asleep) ∧ ¬ w.Exited := by
  obtain ⟨-, hphase, rfl⟩ | ⟨deadline, -, hphase, ⟨hshutdown, rfl⟩ | ⟨hshutdown, -, rfl⟩ | ⟨hshutdown, -, rfl⟩⟩ |
    ⟨deadline, -, hphase, rfl⟩ | ⟨panics, -, hphase, rfl⟩ | ⟨-, hphase, rfl⟩ := move_cases h
  · simp [Asleep, Exited, hphase]
  · simp [Asleep, Exited, hphase]
  · refine ⟨rfl, rfl, fun htold => ?_, by simp [Exited, hphase]⟩
    exact absurd htold (by simp [hshutdown])
  · refine ⟨rfl, rfl, fun htold => ?_, by simp [Exited, hphase]⟩
    exact absurd htold (by simp [hshutdown])
  · simp [Asleep, Exited, hphase]
  · refine ⟨rfl, rfl, fun _ _ => ?_, by simp [Exited, hphase]⟩
    cases panics <;> simp [Asleep]
  · simp [Asleep, Exited, hphase]

/-! ### The pace of a thread -/

/-- **A thread keeps its pace**: every firing had a whole interval before it, every firing but the one in flight is
counted, and no thread ends by itself but in a panic. -/
structure Paced (now : ℕ) (w : Worker η) : Prop where
  elapsed : w.spawnedAt + w.fired * w.intervalMs ≤ now
  due : ∀ deadline, w.phase = .checking deadline ∨ w.phase = .asleep deadline →
    w.spawnedAt + (w.fired + 1) * w.intervalMs ≤ deadline
  begun : w.phase.inFlight ≤ w.fired
  counted : w.tickCount = min (w.fired - w.phase.inFlight) u64Max
  told : w.phase = .exited false → w.shutdown = true

theorem Paced.move (hw : w.Paced now) (h : w.move now m = some w') : w'.Paced now := by
  obtain ⟨helapsed, hdue, hflight, hcounted, htold⟩ := hw
  obtain ⟨-, hphase, rfl⟩ | ⟨deadline, -, hphase, ⟨hshutdown, rfl⟩ | ⟨hshutdown, hpast, rfl⟩ | ⟨hshutdown, -, rfl⟩⟩ |
    ⟨deadline, -, hphase, rfl⟩ | ⟨panics, -, hphase, rfl⟩ | ⟨-, hphase, rfl⟩ := move_cases h
  all_goals simp only [hphase, WorkerPhase.inFlight] at hflight hcounted
  · refine ⟨helapsed, ?_, Nat.zero_le _, by simpa [WorkerPhase.inFlight] using hcounted, by simp⟩
    -- the deadline is one interval from now
    rintro deadline (hdeadline | hdeadline)
    · obtain rfl := WorkerPhase.checking.inj hdeadline
      simp only [Nat.add_mul, Nat.one_mul]
      omega
    · cases hdeadline
  · exact ⟨helapsed, by simp, Nat.zero_le _, by simpa [WorkerPhase.inFlight] using hcounted, fun _ => hshutdown⟩
  · have hspent := hdue deadline (.inl hphase)
    cases hhandler : w.handler.isSome
    · refine ⟨hspent.trans hpast, by simp, by simp [WorkerPhase.inFlight], ?_, by simp⟩
      simpa [WorkerPhase.inFlight] using hcounted
    · refine ⟨hspent.trans hpast, by simp, by simp [WorkerPhase.inFlight], ?_, by simp⟩
      simpa [WorkerPhase.inFlight] using hcounted
  · refine ⟨helapsed, ?_, Nat.zero_le _, by simpa [WorkerPhase.inFlight] using hcounted, by simp⟩
    rintro d (hd | hd)
    · cases hd
    · obtain rfl := WorkerPhase.asleep.inj hd
      exact hdue _ (.inl hphase)
  · refine ⟨helapsed, ?_, Nat.zero_le _, by simpa [WorkerPhase.inFlight] using hcounted, by simp⟩
    rintro d (hd | hd)
    · obtain rfl := WorkerPhase.checking.inj hd
      exact hdue _ (.inr hphase)
    · cases hd
  · cases panics
    · exact ⟨helapsed, by simp, by simpa [WorkerPhase.inFlight] using hflight,
        by simpa [WorkerPhase.inFlight] using hcounted, by simp⟩
    · exact ⟨helapsed, by simp, by simpa [WorkerPhase.inFlight] using hflight,
        by simpa [WorkerPhase.inFlight] using hcounted, by simp⟩
  · refine ⟨helapsed, by simp, Nat.zero_le _, ?_, by simp⟩
    simp only [WorkerPhase.inFlight]
    omega

theorem Paced.mono (hw : w.Paced now) (hnow : now ≤ now') : w.Paced now' :=
  { hw with elapsed := hw.elapsed.trans hnow }

theorem Paced.signal (hw : w.Paced now) : w.signal.Paced now := { hw with told := fun _ => rfl }

theorem Paced.notify (hw : w.Paced now) : w.notify.Paced now := by
  unfold Worker.notify
  split
  · obtain ⟨helapsed, hdue, hflight, hcounted, htold⟩ := hw
    rename_i deadline hphase
    simp only [hphase, WorkerPhase.inFlight] at hflight hcounted
    refine ⟨helapsed, ?_, Nat.zero_le _, by simpa [WorkerPhase.inFlight] using hcounted, by simp⟩
    rintro d (hd | hd)
    · obtain rfl := WorkerPhase.checking.inj hd
      exact hdue _ (.inr hphase)
    · cases hd
  · exact hw

/-- Who is woken is awake, and nothing else about it has changed. -/
theorem notify_keeps (w : Worker η) :
    w.notify.task = w.task ∧ w.notify.shutdown = w.shutdown ∧ ¬ w.notify.Asleep ∧ (w.Exited → w.notify.Exited) := by
  unfold Worker.notify
  split
  · rename_i deadline hphase
    exact ⟨rfl, rfl, by simp [Asleep], by simp [Exited, hphase]⟩
  · rename_i hphase
    exact ⟨rfl, rfl, by rintro ⟨deadline, hd⟩; exact hphase deadline hd, id⟩

end Worker

/-! ### The threads of a world -/

/-- The thread `i` is there and has the property. -/
def At (threads : List (Worker η)) (i : ℕ) (P : Worker η → Prop) : Prop := ∃ w, threads[i]? = some w ∧ P w

namespace At

variable {threads : List (Worker η)} {i j : ℕ} {P Q : Worker η → Prop}

theorem imp (h : At threads i P) (hPQ : ∀ w, P w → Q w) : At threads i Q := by
  obtain ⟨w, hw, hP⟩ := h
  exact ⟨w, hw, hPQ w hP⟩

theorem lt (h : At threads i P) : i < threads.length := by
  obtain ⟨w, hw, -⟩ := h
  exact (List.getElem?_eq_some_iff.mp hw).1

theorem append (h : At threads i P) (more : List (Worker η)) : At (threads ++ more) i P := by
  obtain ⟨w, hw, hP⟩ := h
  exact ⟨w, by rw [List.getElem?_append_left (List.getElem?_eq_some_iff.mp hw).1, hw], hP⟩

/-- One thread changes to another. -/
theorem set {w w' : Worker η} (h : At threads i P) (hw : threads[j]? = some w) (hP : P w → P w') :
    At (threads.set j w') i P := by
  obtain ⟨v, hv, hPv⟩ := h
  by_cases hij : j = i
  · subst hij
    obtain rfl := Option.some.inj (hw.symm.trans hv)
    exact ⟨w', by rw [List.getElem?_set_self (List.getElem?_eq_some_iff.mp hw).1], hP hPv⟩
  · exact ⟨v, by rw [List.getElem?_set_ne hij, hv], hPv⟩

theorem modify_self {f : Worker η → Worker η} (h : At threads i P) (hPQ : ∀ w, P w → Q (f w)) :
    At (threads.modify i f) i Q := by
  obtain ⟨v, hv, hP⟩ := h
  exact ⟨f v, by simp [hv], hPQ v hP⟩

theorem modify_ne {f : Worker η → Worker η} (h : At threads i P) (hij : j ≠ i) : At (threads.modify j f) i P := by
  obtain ⟨v, hv, hP⟩ := h
  exact ⟨v, by simp [hv, hij], hP⟩

/-- One thread changes itself. -/
theorem modify {f : Worker η → Worker η} (h : At threads i P) (hP : ∀ w, P w → P (f w)) : At (threads.modify j f) i P := by
  by_cases hij : j = i
  · subst hij
    exact h.modify_self hP
  · exact h.modify_ne hij

end At

/-- What the locked sections of a call leave the threads. -/
theorem mem_modify {threads : List (Worker η)} {i : ℕ} {f : Worker η → Worker η} {w : Worker η} (h : w ∈ threads.modify i f) :
    w ∈ threads ∨ ∃ v ∈ threads, w = f v := by
  obtain ⟨j, hj⟩ := List.getElem?_of_mem h
  rw [List.getElem?_modify] at hj
  obtain ⟨v, hv, rfl⟩ := Option.map_eq_some_iff.mp hj
  by_cases hij : i = j
  · exact .inr ⟨v, List.mem_of_getElem? hv, by simp [hij]⟩
  · exact .inl (by simpa [hij] using List.mem_of_getElem? hv)

/-! ## The invariant -/

/-- **What a call may rely on of its threads**: those it has not come to have not been told, the one it has told knows,
the one it joins is awake, and those it is done with have ended. -/
structure CancelCall.Sound (c : CancelCall) (threads : List (Worker η)) : Prop where
  untold : ∀ i ∈ c.remaining, At threads i fun w => w.shutdown = false
  told : ∀ i, c.phase = .signalled i → At threads i fun w => w.shutdown = true
  awake : ∀ i, c.phase = .joining i → At threads i fun w => w.shutdown = true ∧ ¬ w.Asleep
  joined : ∀ i ∈ c.drained, i ∈ c.held ∨ At threads i Worker.Exited
  fresh : c.phase = .entered → c.remaining = []
  ended : c.phase = .returned → c.remaining = []

/-- A change of the threads takes back no signal, puts nobody to sleep who was told, and revives nobody. -/
structure Keeps (threads threads' : List (Worker η)) : Prop where
  told : ∀ i, (At threads i fun w => w.shutdown = true) → At threads' i fun w => w.shutdown = true
  awake : ∀ i, (At threads i fun w => w.shutdown = true ∧ ¬ w.Asleep) → At threads' i fun w => w.shutdown = true ∧ ¬ w.Asleep
  exited : ∀ i, At threads i Worker.Exited → At threads' i Worker.Exited

theorem CancelCall.Sound.keep {c : CancelCall} {threads threads' : List (Worker η)} (hc : c.Sound threads)
    (hkeeps : Keeps threads threads')
    (huntold : ∀ i ∈ c.remaining, (At threads i fun w => w.shutdown = false) → At threads' i fun w => w.shutdown = false) :
    c.Sound threads' where
  untold i hi := huntold i hi (hc.untold i hi)
  told i hi := hkeeps.told i (hc.told i hi)
  awake i hi := hkeeps.awake i (hc.awake i hi)
  joined i hi := (hc.joined i hi).imp_right (hkeeps.exited i)
  fresh := hc.fresh
  ended := hc.ended

theorem Keeps.append (threads more : List (Worker η)) : Keeps threads (threads ++ more) :=
  ⟨fun _ h => h.append more, fun _ h => h.append more, fun _ h => h.append more⟩

theorem Keeps.move {threads : List (Worker η)} {i now : ℕ} {m : WorkerMove} {w w' : Worker η} (hw : threads[i]? = some w)
    (h : w.move now m = some w') : Keeps threads (threads.set i w') := by
  obtain ⟨-, hshutdown, hawake, hexited⟩ := Worker.move_keeps h
  refine ⟨fun j hj => hj.set hw ?_, fun j hj => hj.set hw ?_, fun j hj => hj.set hw fun hgone => absurd hgone hexited⟩
  · rw [hshutdown]
    exact id
  · rintro ⟨htold, hup⟩
    exact ⟨hshutdown.trans htold, hawake htold hup⟩

theorem Keeps.signal (threads : List (Worker η)) (i : ℕ) : Keeps threads (threads.modify i Worker.signal) :=
  ⟨fun _ hj => hj.modify fun _ _ => rfl, fun _ hj => hj.modify fun _ h => ⟨rfl, h.2⟩, fun _ hj => hj.modify fun _ h => h⟩

theorem Keeps.notify (threads : List (Worker η)) (i : ℕ) : Keeps threads (threads.modify i Worker.notify) := by
  refine ⟨fun _ hj => hj.modify fun w h => ?_, fun _ hj => hj.modify fun w h => ?_, fun _ hj => hj.modify fun w h => ?_⟩
  · exact (Worker.notify_keeps w).2.1.trans h
  · exact ⟨(Worker.notify_keeps w).2.1.trans h.1, (Worker.notify_keeps w).2.2.1⟩
  · exact (Worker.notify_keeps w).2.2.2 h

namespace World

/-- The threads that are registered or in the hands of a `cancel_all` call. -/
def held (w : World η) : List ℕ := w.workers.map Prod.snd ++ w.cancels.flatMap CancelCall.held

/-- **The invariant of the scheduler.** -/
structure Inv (w : World η) : Prop where
  onePlace : w.held.Nodup
  oneWorker : (w.workers.map Prod.fst).Nodup
  registered : ∀ p ∈ w.workers, At w.threads p.2 fun worker => worker.task = p.1 ∧ worker.shutdown = false
  sound : ∀ c ∈ w.cancels, c.Sound w.threads
  place : ∀ i < w.threads.length, i ∈ w.held ∨ At w.threads i Worker.Exited
  paced : ∀ worker ∈ w.threads, worker.Paced w.now

theorem Inv.new : (new : World η).Inv where
  onePlace := List.nodup_nil
  oneWorker := List.nodup_nil
  registered := by simp [World.new]
  sound := by simp [World.new]
  place := by simp [World.new]
  paced := by simp [World.new]

variable {w : World η} {i c : ℕ}

/-- Who is held is there. -/
theorem Inv.lt_of_held (hw : w.Inv) (hi : i ∈ w.held) : i < w.threads.length := by
  rcases List.mem_append.mp hi with hi | hi
  · obtain ⟨p, hp, rfl⟩ := List.mem_map.mp hi
    exact (hw.registered p hp).lt
  · obtain ⟨call, hcall, hi⟩ := List.mem_flatMap.mp hi
    have hsound := hw.sound call hcall
    rcases List.mem_append.mp hi with hi | hi
    · cases hphase : call.phase with
      | signalled j =>
          obtain rfl : i = j := by simpa [hphase, CancelPhase.current] using hi
          exact (hsound.told i hphase).lt
      | joining j =>
          obtain rfl : i = j := by simpa [hphase, CancelPhase.current] using hi
          exact (hsound.awake i hphase).lt
      | _ => simp [hphase, CancelPhase.current] at hi
    · exact (hsound.untold i hi).lt

/-- The calls after a change of the one at `c`. -/
theorem mem_set_cancels {cancels : List CancelCall} {call call' : CancelCall} (h : call ∈ cancels.set c call') :
    call = call' ∨ ∃ d, d ≠ c ∧ cancels[d]? = some call := by
  obtain ⟨d, hd⟩ := List.getElem?_of_mem h
  rw [List.getElem?_set] at hd
  by_cases hcd : c = d
  · rw [if_pos hcd] at hd
    split at hd
    · exact .inl (Option.some.inj hd).symm
    · cases hd
  · rw [if_neg hcd] at hd
    exact .inr ⟨d, Ne.symm hcd, hd⟩

/-- **One call takes a step**: what it holds after it, with what is registered and with what has ended, is what there was
before it, and the other calls may rely on what they relied on. -/
theorem Inv.callSteps (hw : w.Inv) {call call' : CancelCall} (hc : w.cancels[c]? = some call)
    {workers' : List (TaskType × ℕ)} {threads' : List (Worker η)} (gone : List ℕ)
    (hmove : (workers'.map Prod.snd ++ call'.held ++ gone).Perm (w.workers.map Prod.snd ++ call.held))
    (hgone : ∀ i ∈ gone, At threads' i Worker.Exited) (hsub : workers'.Sublist w.workers)
    (hregistered : ∀ p ∈ workers', At threads' p.2 fun worker => worker.task = p.1 ∧ worker.shutdown = false)
    (hcall : call'.Sound threads') (hkeeps : Keeps w.threads threads')
    (huntold : ∀ d other, d ≠ c → w.cancels[d]? = some other → ∀ i ∈ other.remaining,
      (At w.threads i fun worker => worker.shutdown = false) → At threads' i fun worker => worker.shutdown = false)
    (hlength : threads'.length = w.threads.length) (hpaced : ∀ worker ∈ threads', worker.Paced w.now) :
    ({ w with workers := workers', threads := threads', cancels := w.cancels.set c call' } : World η).Inv := by
  have hheld : (workers'.map Prod.snd ++ (w.cancels.set c call').flatMap CancelCall.held ++ gone).Perm w.held :=
    Lib.part_moved (Lib.flatMap_set_perm CancelCall.held hc call') hmove
  refine ⟨?_, hw.oneWorker.sublist (hsub.map Prod.fst), hregistered, ?_, ?_, hpaced⟩
  · exact (List.nodup_append.mp (hheld.nodup_iff.mpr hw.onePlace)).1
  · intro other hother
    rcases mem_set_cancels hother with rfl | ⟨d, hd, hother⟩
    · exact hcall
    · exact (hw.sound other (List.mem_of_getElem? hother)).keep hkeeps (huntold d other hd hother)
  · intro i hi
    rcases hw.place i (hlength ▸ hi) with hi | hi
    · rcases List.mem_append.mp (hheld.mem_iff.mpr hi) with hi | hi
      · exact .inl hi
      · exact .inr (hgone i hi)
    · exact .inr (hkeeps.exited i hi)

/-- **A thread takes a step**; it was told nothing by it. -/
theorem Inv.threadMoves (hw : w.Inv) {m : WorkerMove} {worker worker' : Worker η} (hi : w.threads[i]? = some worker)
    (hmove : worker.move w.now m = some worker') : ({ w with threads := w.threads.set i worker' } : World η).Inv := by
  obtain ⟨htask, hshutdown, -, -⟩ := Worker.move_keeps hmove
  refine ⟨hw.onePlace, hw.oneWorker, ?_, ?_, ?_, ?_⟩
  · intro p hp
    refine (hw.registered p hp).set hi ?_
    rw [htask, hshutdown]
    exact id
  · intro call hcall
    refine (hw.sound call hcall).keep (.move hi hmove) fun j _ hj => hj.set hi ?_
    rw [hshutdown]
    exact id
  · intro j hj
    rw [List.length_set] at hj
    exact (hw.place j hj).imp_right ((Keeps.move hi hmove).exited j)
  · intro v hv
    rcases List.mem_or_eq_of_mem_set hv with hv | rfl
    · exact hw.paced v hv
    · exact (hw.paced worker (List.mem_of_getElem? hi)).move hmove

/-- **A worker is registered**, with the thread spawned for it. -/
theorem Inv.register (hw : w.Inv) {k : ℕ} {task : TaskType} {intervalMs : ℕ} {handler : Option η}
    {spawned : Except String Unit} : (w.register k task intervalMs handler spawned).Inv := by
  unfold World.register
  split
  · exact { hw with }
  · rename_i hfree
    cases spawned with
    | error e => exact { hw with }
    | ok _ =>
        -- the new thread has the first number that no call and no handle has
        have hnew : w.threads.length ∉ w.held := fun h => (hw.lt_of_held h).false
        have hheld : ((w.workers ++ [(task, w.threads.length)]).map Prod.snd ++ w.cancels.flatMap CancelCall.held).Perm
            (w.threads.length :: w.held) := by
          rw [List.map_append, List.append_assoc]
          exact List.perm_middle
        refine ⟨?_, ?_, ?_, ?_, ?_, ?_⟩
        · exact hheld.nodup_iff.mpr (List.nodup_cons.mpr ⟨hnew, hw.onePlace⟩)
        · rw [List.map_append, List.nodup_append]
          refine ⟨hw.oneWorker, by simp, ?_⟩
          rintro a ha b hb rfl
          obtain ⟨p, hp, rfl⟩ := List.mem_map.mp ha
          have : p.1 = task := by simpa using hb
          exact hfree (List.any_eq_true.mpr ⟨p, hp, by simpa using this⟩)
        · intro p hp
          rcases List.mem_append.mp hp with hp | hp
          · exact (hw.registered p hp).append _
          · obtain rfl := List.mem_singleton.mp hp
            exact ⟨w.newThread task intervalMs handler, by simp, rfl, rfl⟩
        · intro call hcall
          exact (hw.sound call hcall).keep (.append _ _) fun j _ hj => hj.append _
        · intro j hj
          rw [List.length_append, List.length_singleton] at hj
          rcases Nat.lt_succ_iff_lt_or_eq.mp hj with hj | rfl
          · exact (hw.place j hj).imp (fun h => hheld.mem_iff.mpr (List.mem_cons_of_mem _ h)) fun h => h.append _
          · exact .inl (hheld.mem_iff.mpr List.mem_cons_self)
        · intro v hv
          rcases List.mem_append.mp hv with hv | hv
          · exact hw.paced v hv
          · obtain rfl := List.mem_singleton.mp hv
            exact ⟨by simp [newThread], by simp [newThread], Nat.zero_le _, by simp [newThread, WorkerPhase.inFlight],
              by simp [newThread]⟩

/-- A thread that two calls would hold, or a call and a handle, is held twice. -/
theorem Inv.not_held_twice (hw : w.Inv) {call : CancelCall} (hc : w.cancels[c]? = some call) (hi : i ∈ call.held) :
    (∀ p ∈ w.workers, p.2 ≠ i) ∧ ∀ d other, d ≠ c → w.cancels[d]? = some other → i ∉ other.held := by
  obtain ⟨-, hcalls, hapart⟩ := List.nodup_append.mp hw.onePlace
  refine ⟨?_, ?_⟩
  · rintro p hp rfl
    exact hapart _ (List.mem_map_of_mem hp) _ (List.mem_flatMap.mpr ⟨call, List.mem_of_getElem? hc, hi⟩) rfl
  · intro d other hdc hd hi'
    obtain ⟨hlt, hget⟩ := List.getElem?_eq_some_iff.mp hc
    obtain ⟨hlt', hget'⟩ := List.getElem?_eq_some_iff.mp hd
    have hpairwise := List.pairwise_iff_getElem.mp (List.nodup_flatMap.mp hcalls).2
    rcases Nat.lt_or_gt_of_ne hdc with hlt'' | hlt''
    · have := hpairwise d c hlt' hlt hlt''
      rw [Function.onFun, hget, hget'] at this
      exact this hi' hi
    · have := hpairwise c d hlt hlt' hlt''
      rw [Function.onFun, hget, hget'] at this
      exact this hi hi'

/-- **A call drains the workers**, and has all of them before it. -/
theorem Inv.drain (hw : w.Inv) {drained remaining order : List ℕ} (hc : w.cancels[c]? = some ⟨drained, remaining, .entered⟩)
    (horder : order.Perm (w.workers.map Prod.snd)) :
    ({ w with workers := [], cancels := w.cancels.set c ⟨order, order, .looping⟩ } : World η).Inv := by
  have hfresh : remaining = [] := (hw.sound _ (List.mem_of_getElem? hc)).fresh rfl
  refine hw.callSteps hc [] ?_ (by simp) (List.nil_sublist _) (by simp) ⟨?_, by simp, by simp, ?_, by simp, by simp⟩
    ⟨fun _ => id, fun _ => id, fun _ => id⟩ (fun _ _ _ _ _ _ => id) rfl hw.paced
  · simpa [CancelCall.held, CancelPhase.current, hfresh] using horder
  · intro i hi
    obtain ⟨p, hp, rfl⟩ := List.mem_map.mp (horder.mem_iff.mp hi)
    exact (hw.registered p hp).imp fun _ h => h.2
  · exact fun i hi => .inl (List.mem_append_right _ hi)

/-- **A call tells its next worker**, which nobody else is about to tell. -/
theorem Inv.signal (hw : w.Inv) {drained remaining : List ℕ} (hc : w.cancels[c]? = some ⟨drained, i :: remaining, .looping⟩) :
    ({ w with
      threads := w.threads.modify i Worker.signal
      cancels := w.cancels.set c ⟨drained, remaining, .signalled i⟩ } : World η).Inv := by
  have hsound := hw.sound _ (List.mem_of_getElem? hc)
  obtain ⟨hworkers, hothers⟩ := hw.not_held_twice (i := i) hc (by simp [CancelCall.held])
  have hnext : i ∉ remaining := by
    have hcalls := (List.nodup_append.mp hw.onePlace).2.1
    have := (List.nodup_flatMap.mp hcalls).1 _ (List.mem_of_getElem? hc)
    exact (List.nodup_cons.mp (by simpa [CancelCall.held, CancelPhase.current] using this)).1
  refine hw.callSteps hc [] (by simp [CancelCall.held, CancelPhase.current]) (by simp) (.refl _) ?_
    ⟨?_, ?_, by simp, ?_, by simp, by simp⟩ (.signal w.threads i) ?_ (List.length_modify ..) ?_
  · intro p hp
    exact (hw.registered p hp).modify_ne (hworkers p hp).symm
  · intro j hj
    exact (hsound.untold j (List.mem_cons_of_mem _ hj)).modify_ne fun hij => hnext (hij ▸ hj)
  · intro j hj
    obtain rfl := CancelPhase.signalled.inj hj
    exact (hsound.untold i List.mem_cons_self).modify_self fun _ _ => rfl
  · intro j hj
    refine (hsound.joined j hj).imp (fun h => ?_) ((Keeps.signal w.threads i).exited j)
    simpa [CancelCall.held, CancelPhase.current] using h
  · intro d other hd hother j hj huntold
    refine huntold.modify_ne fun hij => hothers d other hd hother ?_
    exact hij ▸ List.mem_append_right _ hj
  · intro v hv
    rcases mem_modify hv with hv | ⟨u, hu, rfl⟩
    · exact hw.paced v hv
    · exact (hw.paced u hu).signal

/-- **A call wakes the worker it has told.** -/
theorem Inv.notify (hw : w.Inv) {drained remaining : List ℕ} (hc : w.cancels[c]? = some ⟨drained, remaining, .signalled i⟩) :
    ({ w with
      threads := w.threads.modify i Worker.notify
      cancels := w.cancels.set c ⟨drained, remaining, .joining i⟩ } : World η).Inv := by
  have hsound := hw.sound _ (List.mem_of_getElem? hc)
  have hsame : ∀ (j : ℕ), (At w.threads j fun worker => worker.shutdown = false) →
      At (w.threads.modify i Worker.notify) j fun worker => worker.shutdown = false :=
    fun j hj => hj.modify fun worker h => (Worker.notify_keeps worker).2.1.trans h
  refine hw.callSteps hc [] (by simp [CancelCall.held, CancelPhase.current]) (by simp) (.refl _) ?_
    ⟨fun j hj => hsame j (hsound.untold j hj), by simp, ?_, ?_, by simp, by simp⟩ (.notify w.threads i)
    (fun _ _ _ _ j _ => hsame j) (List.length_modify ..) ?_
  · intro p hp
    refine (hw.registered p hp).modify fun worker h => ?_
    obtain ⟨htask, hshutdown, -⟩ := Worker.notify_keeps worker
    exact ⟨htask.trans h.1, hshutdown.trans h.2⟩
  · intro j hj
    obtain rfl := CancelPhase.joining.inj hj
    refine (hsound.told i rfl).modify_self fun worker h => ?_
    obtain ⟨-, hshutdown, hup, -⟩ := Worker.notify_keeps worker
    exact ⟨hshutdown.trans h, hup⟩
  · intro j hj
    refine (hsound.joined j hj).imp (fun h => ?_) ((Keeps.notify w.threads i).exited j)
    simpa [CancelCall.held, CancelPhase.current] using h
  · intro v hv
    rcases mem_modify hv with hv | ⟨u, hu, rfl⟩
    · exact hw.paced v hv
    · exact (hw.paced u hu).notify

/-- **A call joins a thread that has ended.** -/
theorem Inv.join (hw : w.Inv) {drained remaining : List ℕ} (hc : w.cancels[c]? = some ⟨drained, remaining, .joining i⟩)
    (hexited : At w.threads i Worker.Exited) :
    ({ w with cancels := w.cancels.set c ⟨drained, remaining, .looping⟩ } : World η).Inv := by
  have hsound := hw.sound _ (List.mem_of_getElem? hc)
  refine hw.callSteps hc [i] ?_ (by simpa using hexited) (.refl _) hw.registered
    ⟨hsound.untold, by simp, by simp, ?_, by simp, by simp⟩ ⟨fun _ => id, fun _ => id, fun _ => id⟩
    (fun _ _ _ _ _ _ => id) rfl hw.paced
  · simp only [CancelCall.held, CancelPhase.current, List.nil_append, List.append_assoc, List.singleton_append]
    exact (List.perm_append_singleton i remaining).append_left _
  · intro j hj
    rcases hsound.joined j hj with h | h
    · rcases List.mem_append.mp h with h | h
      · obtain rfl := List.mem_singleton.mp h
        exact .inr hexited
      · exact .inl (List.mem_append_right _ h)
    · exact .inr h

/-- **A call that has joined its threads returns.** -/
theorem Inv.finish (hw : w.Inv) {drained : List ℕ} (hc : w.cancels[c]? = some ⟨drained, [], .looping⟩) :
    ({ w with cancels := w.cancels.set c ⟨drained, [], .returned⟩ } : World η).Inv := by
  have hsound := hw.sound _ (List.mem_of_getElem? hc)
  refine hw.callSteps hc [] (by simp [CancelCall.held, CancelPhase.current]) (by simp) (.refl _) hw.registered
    ⟨by simp, by simp, by simp, ?_, by simp, by simp⟩ ⟨fun _ => id, fun _ => id, fun _ => id⟩
    (fun _ _ _ _ _ _ => id) rfl hw.paced
  exact fun j hj => (hsound.joined j hj).imp_left fun h => by simp [CancelCall.held, CancelPhase.current] at h

/-- **Every step keeps the invariant.** -/
theorem Inv.step (hw : w.Inv) {a : Label η} {w' : World η} (h : w.Step a w') : w'.Inv := by
  cases a with
  | advance ms =>
      obtain rfl := Option.some.inj h
      exact { hw with paced := fun worker hworker => (hw.paced worker hworker).mono (Nat.le_add_right _ _) }
  | setHandler task handler =>
      obtain rfl := Option.some.inj h
      exact { hw with }
  | spawnWorker task intervalMs =>
      obtain rfl := Option.some.inj h
      exact { hw with }
  | readHandler k =>
      simp only [Step, World.step] at h
      split at h
      · obtain rfl := Option.some.inj h
        exact { hw with }
      · cases h
  | register k spawned =>
      simp only [Step, World.step] at h
      split at h
      · obtain rfl := Option.some.inj h
        exact hw.register
      · cases h
  | worker i m =>
      obtain ⟨worker, hi, h⟩ := Option.bind_eq_some_iff.mp h
      obtain ⟨worker', hmove, h⟩ := Option.bind_eq_some_iff.mp h
      obtain rfl := Option.some.inj h
      exact hw.threadMoves hi hmove
  | cancelAll =>
      obtain rfl := Option.some.inj h
      have hheld : (w.cancels ++ [(⟨[], [], .entered⟩ : CancelCall)]).flatMap CancelCall.held =
          w.cancels.flatMap CancelCall.held := by
        simp [CancelCall.held, CancelPhase.current]
      refine ⟨?_, hw.oneWorker, hw.registered, ?_, ?_, hw.paced⟩
      · rw [held, hheld]
        exact hw.onePlace
      · intro call hcall
        rcases List.mem_append.mp hcall with hcall | hcall
        · exact hw.sound call hcall
        · obtain rfl := List.mem_singleton.mp hcall
          exact ⟨by simp, by simp, by simp, by simp, by simp, by simp⟩
      · intro i hi
        rw [held, hheld]
        exact hw.place i hi
  | drain c order =>
      simp only [Step, World.step] at h
      split at h
      · split at h
        · obtain rfl := Option.some.inj h
          exact hw.drain ‹_› ‹_›
        · cases h
      · cases h
  | signal c =>
      simp only [Step, World.step] at h
      split at h
      · obtain rfl := Option.some.inj h
        exact hw.signal ‹_›
      · cases h
  | notify c =>
      simp only [Step, World.step] at h
      split at h
      · obtain rfl := Option.some.inj h
        exact hw.notify ‹_›
      · cases h
  | join c =>
      simp only [Step, World.step] at h
      split at h
      · split at h
        · obtain rfl := Option.some.inj h
          rename_i hphase
          obtain ⟨worker, hi, hphase⟩ := Option.map_eq_some_iff.mp hphase
          exact hw.join ‹_› ⟨worker, hi, _, hphase⟩
        · cases h
      · cases h
  | finish c =>
      simp only [Step, World.step] at h
      split at h
      · obtain rfl := Option.some.inj h
        exact hw.finish ‹_›
      · cases h

theorem inv_of_run {tr : List (World η × Label η)} (hrun : Lib.Run Step new tr w) : w.Inv :=
  hrun.invariant (fun _ _ _ hs hstep => hs.step hstep) Inv.new

end World

/-! ## Every `cancel_all` comes to its end -/

/-- The moves a thread that was told has before it. -/
def WorkerPhase.rank : WorkerPhase → ℕ
  | .calling => 4
  | .called => 3
  | .looping | .asleep _ => 2
  | .checking _ => 1
  | .exited _ => 0

/-- The sections a call has before it, its threads' moves aside. -/
def CancelCall.rank (c : CancelCall) : ℕ :=
  3 * c.remaining.length +
    match c.phase with
    | .entered => 2
    | .looping => 1
    | .signalled _ => 3
    | .joining _ => 2
    | .returned => 0

/-- A step of a call or a thread that waits for nothing: not for the clock, a wakeup by chance, or another call. -/
def Label.Prompt : Label η → Prop
  | .worker _ m => m ≠ .timeout ∧ m ≠ .spuriousWakeup
  | .drain .. | .signal _ | .notify _ | .join _ | .finish _ => True
  | _ => False

namespace World

variable {w : World η} {i c : ℕ}

/-- What the calls have before them. A registered worker has a call still to come to it. -/
def rank (w : World η) : ℕ :=
  3 * w.workers.length + (w.cancels.map CancelCall.rank).sum + (w.threads.map fun worker => worker.phase.rank).sum

/-- A thread that was told and is awake has ended, or has a move to make. -/
theorem exists_move_down {worker : Worker η} (now : ℕ) (htold : worker.shutdown = true) (hawake : ¬ worker.Asleep) :
    worker.Exited ∨ ∃ m worker', m ≠ .timeout ∧ m ≠ .spuriousWakeup ∧ worker.move now m = some worker' ∧
      worker'.phase.rank < worker.phase.rank := by
  cases hphase : worker.phase with
  | looping =>
      refine .inr ⟨.beginWait, { worker with phase := .checking (now + worker.intervalMs) }, by simp, by simp, ?_,
        by simp [WorkerPhase.rank]⟩
      simp only [Worker.move, hphase]
  | checking deadline =>
      refine .inr ⟨.check, { worker with phase := .exited false }, by simp, by simp, ?_, by simp [WorkerPhase.rank]⟩
      simp [Worker.move, hphase, htold]
  | asleep deadline => exact absurd ⟨deadline, hphase⟩ hawake
  | calling =>
      refine .inr ⟨.handlerEnds false, { worker with phase := .called }, by simp, by simp, ?_, by simp [WorkerPhase.rank]⟩
      simp [Worker.move, hphase]
  | called =>
      refine .inr ⟨.bump, { worker with tickCount := min (worker.tickCount + 1) u64Max, phase := .looping }, by simp,
        by simp, ?_, by simp [WorkerPhase.rank]⟩
      simp only [Worker.move, hphase]
  | exited panicked => exact .inl ⟨panicked, hphase⟩

theorem notify_rank_le (worker : Worker η) : worker.notify.phase.rank ≤ worker.phase.rank := by
  unfold Worker.notify
  split
  · rename_i hphase
    simp [hphase, WorkerPhase.rank]
  · exact le_rfl

theorem sum_rank_modify_le (threads : List (Worker η)) {f : Worker η → Worker η}
    (hf : ∀ worker, (f worker).phase.rank ≤ worker.phase.rank) (i : ℕ) :
    ((threads.modify i f).map fun worker => worker.phase.rank).sum ≤ (threads.map fun worker => worker.phase.rank).sum := by
  induction threads generalizing i with
  | nil => simp
  | cons worker threads ih =>
      cases i with
      | zero => simpa using hf worker
      | succ i => simpa using ih i

/-- **As long as a call has not returned, there is a step towards its end**, and it waits for nothing. -/
theorem Inv.exists_step_down (hw : w.Inv) (hrunning : ¬ ∀ call ∈ w.cancels, call.phase = .returned) :
    ∃ a w', Label.Prompt a ∧ w.Step a w' ∧ w'.now = w.now ∧ w'.rank < w.rank := by
  push Not at hrunning
  obtain ⟨⟨drained, remaining, phase⟩, hcall, hphase⟩ := hrunning
  obtain ⟨c, hc⟩ := List.getElem?_of_mem hcall
  have hsound := hw.sound _ hcall
  cases phase with
  | entered =>
      obtain rfl : remaining = [] := hsound.fresh rfl
      refine ⟨.drain c (w.workers.map Prod.snd),
        { w with
          workers := []
          cancels := w.cancels.set c ⟨w.workers.map Prod.snd, w.workers.map Prod.snd, .looping⟩ },
        trivial, by simp [Step, World.step, hc], rfl, ?_⟩
      have := Lib.Threads.sum_map_set CancelCall.rank hc ⟨w.workers.map Prod.snd, w.workers.map Prod.snd, .looping⟩
      simp only [CancelCall.rank, List.length_map, List.length_nil] at this
      simp only [rank, List.length_nil]
      omega
  | looping =>
      cases remaining with
      | nil =>
          refine ⟨.finish c, { w with cancels := w.cancels.set c ⟨drained, [], .returned⟩ }, trivial,
            by simp [Step, World.step, hc], rfl, ?_⟩
          have := Lib.Threads.sum_map_set CancelCall.rank hc ⟨drained, [], .returned⟩
          simp only [CancelCall.rank, List.length_nil] at this
          simp only [rank]
          omega
      | cons i remaining =>
          refine ⟨.signal c,
            { w with
              threads := w.threads.modify i Worker.signal
              cancels := w.cancels.set c ⟨drained, remaining, .signalled i⟩ },
            trivial, by simp [Step, World.step, hc], rfl, ?_⟩
          have := Lib.Threads.sum_map_set CancelCall.rank hc ⟨drained, remaining, .signalled i⟩
          have hthreads := sum_rank_modify_le w.threads (f := Worker.signal) (fun _ => le_rfl) i
          simp only [CancelCall.rank, List.length_cons] at this
          simp only [rank]
          omega
  | signalled i =>
      refine ⟨.notify c,
        { w with
          threads := w.threads.modify i Worker.notify
          cancels := w.cancels.set c ⟨drained, remaining, .joining i⟩ },
        trivial, by simp [Step, World.step, hc], rfl, ?_⟩
      have := Lib.Threads.sum_map_set CancelCall.rank hc ⟨drained, remaining, .joining i⟩
      have hthreads := sum_rank_modify_le w.threads notify_rank_le i
      simp only [CancelCall.rank] at this
      simp only [rank]
      omega
  | joining i =>
      obtain ⟨worker, hi, htold, hawake⟩ := hsound.awake i rfl
      rcases exists_move_down w.now htold hawake with ⟨panicked, hexited⟩ | ⟨m, worker', htimeout, hspurious, hmove, hlt⟩
      · refine ⟨.join c, { w with cancels := w.cancels.set c ⟨drained, remaining, .looping⟩ }, trivial,
          by simp [Step, World.step, hc, hi, hexited], rfl, ?_⟩
        have := Lib.Threads.sum_map_set CancelCall.rank hc ⟨drained, remaining, .looping⟩
        simp only [CancelCall.rank] at this
        simp only [rank]
        omega
      · refine ⟨.worker i m, { w with threads := w.threads.set i worker' }, ⟨htimeout, hspurious⟩,
          by simp [Step, World.step, hi, hmove], rfl, ?_⟩
        have := Lib.Threads.sum_map_set (fun worker : Worker η => worker.phase.rank) hi worker'
        simp only [rank]
        omega
  | returned => exact absurd rfl hphase

/-- **The calls can be brought to their end** from wherever they stand, and the clock stands still. -/
theorem Inv.exists_returned (hw : w.Inv) :
    ∃ tr t, Lib.Run Step w tr t ∧ (∀ p ∈ tr, Label.Prompt p.2) ∧ (t.Inv ∧ t.now = w.now) ∧
      ∀ call ∈ t.cancels, call.phase = .returned := by
  apply Lib.Run.exists_ended (I := fun t : World η => t.Inv ∧ t.now = w.now) (μ := rank)
  · rintro t ⟨ht, hnow⟩ hrunning
    obtain ⟨a, t', hprompt, hstep, hnow', hlt⟩ := ht.exists_step_down hrunning
    exact ⟨a, t', hprompt, hstep, ⟨ht.step hstep, hnow'.trans hnow⟩, hlt⟩
  · exact ⟨hw, rfl⟩

/-- Where no call is under way, what is held is registered. -/
theorem Inv.held_of_returned (hw : w.Inv) (hreturned : ∀ call ∈ w.cancels, call.phase = .returned) :
    w.held = w.workers.map Prod.snd := by
  have hnone : w.cancels.flatMap CancelCall.held = [] := by
    rw [List.flatMap_eq_nil_iff]
    intro call hcall
    have hphase := hreturned call hcall
    simp [CancelCall.held, hphase, CancelPhase.current, (hw.sound call hcall).ended hphase]
  rw [held, hnone, List.append_nil]

/-! ## What a call drained, it has joined when it returns -/

/-- The call at `c` has drained these threads. -/
def Drained (c : ℕ) (order : List ℕ) (w : World η) : Prop :=
  ∃ call, w.cancels[c]? = some call ∧ call.drained = order ∧ call.phase ≠ .entered

theorem Drained.set {order : List ℕ} (h : w.Drained c order) {d : ℕ} {call call' : CancelCall}
    {workers' : List (TaskType × ℕ)} {threads' : List (Worker η)} (hd : w.cancels[d]? = some call)
    (hsame : call.phase = .entered ∨ call'.drained = call.drained ∧ call'.phase ≠ .entered) :
    ({ w with workers := workers', threads := threads', cancels := w.cancels.set d call' } : World η).Drained c order := by
  obtain ⟨mine, hmine, hdrained, hphase⟩ := h
  by_cases hdc : d = c
  · subst hdc
    obtain rfl := Option.some.inj (hd.symm.trans hmine)
    obtain ⟨hdrained', hphase'⟩ := hsame.resolve_left hphase
    exact ⟨call', List.getElem?_set_self (List.getElem?_eq_some_iff.mp hd).1, hdrained'.trans hdrained, hphase'⟩
  · exact ⟨mine, (List.getElem?_set_ne hdc).trans hmine, hdrained, hphase⟩

/-- **What a call has drained stays what it has drained.** -/
theorem Drained.step {order : List ℕ} (hw : w.Drained c order) {a : Label η} {w' : World η} (h : w.Step a w') :
    w'.Drained c order := by
  cases a with
  | advance ms =>
      obtain rfl := Option.some.inj h
      exact hw
  | setHandler task handler =>
      obtain rfl := Option.some.inj h
      exact hw
  | spawnWorker task intervalMs =>
      obtain rfl := Option.some.inj h
      exact hw
  | readHandler k =>
      simp only [Step, World.step] at h
      split at h
      · obtain rfl := Option.some.inj h
        exact hw
      · cases h
  | register k spawned =>
      simp only [Step, World.step] at h
      split at h
      · obtain rfl := Option.some.inj h
        unfold World.register
        split
        · exact hw
        · cases spawned <;> exact hw
      · cases h
  | worker i m =>
      obtain ⟨worker, hi, h⟩ := Option.bind_eq_some_iff.mp h
      obtain ⟨worker', hmove, h⟩ := Option.bind_eq_some_iff.mp h
      obtain rfl := Option.some.inj h
      exact hw
  | cancelAll =>
      obtain rfl := Option.some.inj h
      obtain ⟨call, hcall, hdrained, hphase⟩ := hw
      refine ⟨call, ?_, hdrained, hphase⟩
      rw [List.getElem?_append_left (List.getElem?_eq_some_iff.mp hcall).1, hcall]
  | drain d order' =>
      simp only [Step, World.step] at h
      split at h
      · split at h
        · obtain rfl := Option.some.inj h
          exact hw.set ‹_› (.inl rfl)
        · cases h
      · cases h
  | signal d =>
      simp only [Step, World.step] at h
      split at h
      · rename_i hd
        obtain rfl := Option.some.inj h
        exact hw.set hd (.inr ⟨rfl, by simp⟩)
      · cases h
  | notify d =>
      simp only [Step, World.step] at h
      split at h
      · rename_i hd
        obtain rfl := Option.some.inj h
        exact hw.set hd (.inr ⟨rfl, by simp⟩)
      · cases h
  | join d =>
      simp only [Step, World.step] at h
      split at h
      · rename_i hd
        split at h
        · obtain rfl := Option.some.inj h
          exact hw.set hd (.inr ⟨rfl, by simp⟩)
        · cases h
      · cases h
  | finish d =>
      simp only [Step, World.step] at h
      split at h
      · rename_i hd
        obtain rfl := Option.some.inj h
        exact hw.set hd (.inr ⟨rfl, by simp⟩)
      · cases h

/-- A drain takes every registered worker. -/
theorem drained_of_drain {order : List ℕ} {w' : World η} (h : w.Step (.drain c order) w') :
    order.Perm (w.workers.map Prod.snd) ∧ w'.Drained c order := by
  simp only [Step, World.step] at h
  split at h
  · rename_i hc
    split at h
    · obtain rfl := Option.some.inj h
      exact ⟨‹_›, _, List.getElem?_set_self (List.getElem?_eq_some_iff.mp hc).1, rfl, by simp⟩
    · cases h
  · cases h

/-- **A call that has returned has joined every worker that was registered when it drained.** -/
theorem exited_of_returned {before after : List (World η × Label η)} {u t : World η} {order : List ℕ} {call : CancelCall}
    (hrun : Lib.Run Step new (before ++ (u, .drain c order) :: after) t) (hc : t.cancels[c]? = some call)
    (hreturned : call.phase = .returned) {p : TaskType × ℕ} (hp : p ∈ u.workers) : At t.threads p.2 Worker.Exited := by
  obtain ⟨-, u', hstep, hafter⟩ := hrun.cut rfl
  obtain ⟨horder, hdrained⟩ := drained_of_drain hstep
  obtain ⟨call', hc', hcall', -⟩ : t.Drained c order := hafter.invariant (fun _ _ _ hs h => hs.step h) hdrained
  obtain rfl := Option.some.inj (hc.symm.trans hc')
  have hsound := (inv_of_run hrun).sound _ (List.mem_of_getElem? hc)
  have hmem : p.2 ∈ call.drained := by
    rw [hcall']
    exact horder.mem_iff.mpr (List.mem_map_of_mem hp)
  rcases hsound.joined p.2 hmem with h | h
  · simp [CancelCall.held, hreturned, CancelPhase.current, hsound.ended hreturned] at h
  · exact h

end World

/-- **No worker is orphaned, and every cancellation ends**: whatever the threads, the `schedule_*` calls and the
`cancel_all` calls have done in whatever order, at most one worker of a task is registered, every thread is registered,
in the hands of one cancellation, or has ended, and a thread ends only when it was told to or its handler panicked. It
never fires before a whole interval has passed for each firing, and every firing but the one under way is counted. A
cancellation that has returned has ended every worker it found, and every cancellation under way can be brought to its
end with the clock standing still. -/
theorem workers_are_never_orphaned {tr : List (World η × Label η)} {w : World η} (hrun : Lib.Run World.Step World.new tr w) :
    ((w.workers.map Prod.fst).Nodup ∧ w.held.Nodup ∧ ∀ i < w.threads.length, i ∈ w.held ∨ At w.threads i Worker.Exited) ∧
    (∀ worker ∈ w.threads, worker.spawnedAt + worker.fired * worker.intervalMs ≤ w.now ∧
      worker.tickCount = min (worker.fired - worker.phase.inFlight) u64Max ∧
      (worker.Exited → worker.shutdown = true ∨ worker.phase = .exited true)) ∧
    (∀ before after u c order call, tr = before ++ (u, .drain c order) :: after → w.cancels[c]? = some call →
      call.phase = .returned → ∀ p ∈ u.workers, At w.threads p.2 Worker.Exited) ∧
    ∃ tr' t, Lib.Run World.Step w tr' t ∧ (∀ p ∈ tr', Label.Prompt p.2) ∧ t.now = w.now ∧
      (∀ call ∈ t.cancels, call.phase = .returned) ∧
      ∀ i < t.threads.length, i ∈ t.workers.map Prod.snd ∨ At t.threads i Worker.Exited := by
  have hw := World.inv_of_run hrun
  refine ⟨⟨hw.oneWorker, hw.onePlace, hw.place⟩, ?_, ?_, ?_⟩
  · intro worker hworker
    have hpaced := hw.paced worker hworker
    refine ⟨hpaced.elapsed, hpaced.counted, ?_⟩
    rintro ⟨panicked, hphase⟩
    cases panicked
    · exact .inl (hpaced.told hphase)
    · exact .inr hphase
  · rintro before after u c order call rfl hc hreturned p hp
    exact World.exited_of_returned hrun hc hreturned hp
  · obtain ⟨tr', t, hrun', hprompt, ⟨ht, hnow⟩, hreturned⟩ := hw.exists_returned
    refine ⟨tr', t, hrun', hprompt, hnow, hreturned, ?_⟩
    have hplace := ht.place
    rwa [ht.held_of_returned hreturned] at hplace

/-- A backup worker is cancelled while its handler runs, and a second one is registered before the first is told. -/
def twoBackups : List (Label String) :=
  [.setHandler .incrementalBackup "backup", .scheduleBackup 5, .readHandler 0, .register 0 (.ok ()),
    .worker 0 .beginWait, .worker 0 .check, .advance 5, .worker 0 .timeout, .worker 0 .check,
    .cancelAll, .drain 0 [0], .scheduleBackup 7, .readHandler 1, .register 1 (.ok ()), .worker 1 .beginWait,
    .signal 0, .notify 0, .worker 0 (.handlerEnds false), .worker 0 .bump, .worker 0 .beginWait, .worker 0 .check,
    .join 0, .finish 0]

theorem workers_are_never_orphaned_two :
    ∃ w, twoBackups.foldlM World.step World.new = some w ∧ w.workers = [(.incrementalBackup, 1)] ∧
      w.threads.map (fun worker => (worker.tickCount, worker.phase)) = [(1, .exited false), (0, .checking 12)] ∧
      w.held.Nodup ∧ ∀ i < w.threads.length, i ∈ w.held ∨ At w.threads i Worker.Exited := by
  obtain ⟨w, hw⟩ : ∃ w, twoBackups.foldlM World.step World.new = some w := ⟨_, rfl⟩
  obtain ⟨⟨-, hheld, hplace⟩, -⟩ := workers_are_never_orphaned (Lib.Run.of_foldlM hw)
  refine ⟨w, hw, ?_, ?_, hheld, hplace⟩
  · obtain rfl := Option.some.inj hw
    rfl
  · obtain rfl := Option.some.inj hw
    rfl

end Workers

end KChatCore.Scheduler
