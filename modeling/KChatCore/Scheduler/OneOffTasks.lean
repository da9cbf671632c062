import KChatCore.Lib.Ledger

/-!
# `Scheduler.OneOffTasks` — the one-off queue of the in-process scheduler

Any number of `run_pending_one_off_tasks` calls run beside the calls that schedule tasks and install handlers. A run takes
three locks one after the other: it reads the handler, it drains what its probe allows, and where there was no handler it
puts the drained tasks back. Between the locks anything may happen.

`World.step` is one locked section of one call, or one handler call. The `ticket` of an entry tells two calls that
schedule the same task apart; nothing of the scheduler reads it. A lock is poisoned only by a panic under it, and a panic is no
step here, so the poisoned branches are left out.

A task is an item of `Lib.Ledger`: each step moves it from one place to another, and `handed` is where it leaves.
-/

namespace KChatCore.Scheduler

universe u v w

/-- `TaskConstraints`: what the device must offer before the task runs. -/
structure TaskConstraints where
  requireWifi : Bool
  requireCharging : Bool
  requireIdle : Bool
  maxRetryCount : UInt32
  deriving DecidableEq, Repr

/-- `ResourceProbe`: what it answers while one task is looked at. -/
structure ResourceProbe where
  hasWifi : Bool
  isCharging : Bool
  isIdle : Bool
  deriving DecidableEq, Repr

/-- `satisfies`: whether the device state meets every flag set on the constraints. -/
def ResourceProbe.satisfies (probe : ResourceProbe) (constraints : TaskConstraints) : Bool :=
  if constraints.requireWifi && !probe.hasWifi then false
  else if constraints.requireCharging && !probe.isCharging then false
  else if constraints.requireIdle && !probe.isIdle then false
  else true

section Scheduler

variable {τ : Type u} {η : Type v} {ε : Type w}

/-- An entry of the queue: the task, its constraints, and the number of the call that scheduled it. -/
structure Entry (τ : Type u) where
  ticket : ℕ
  task : τ
  constraints : TaskConstraints
  deriving DecidableEq, Repr

/-- What the locks of the scheduler guard: the `one_offs` queue and the installed handler. -/
structure InProcessScheduler (τ : Type u) (η : Type v) where
  oneOffs : List (Entry τ)
  oneOffHandler : Option η
  deriving DecidableEq, Repr

/-- **Where a run stands** between its locked sections. -/
inductive Phase (τ : Type u) (η : Type v)
  | entered
  | handlerRead (handler : Option η)
  | puttingBack (drained : List (Entry τ))
  | handing (h : η) (drained : List (Entry τ)) (count : ℕ)
  | returned (executed : ℕ)
  deriving DecidableEq, Repr

/-- What a run does next. -/
inductive Move (τ : Type u) (ε : Type w)
  | readHandler
  | drain (probe : Entry τ → ResourceProbe)
  | putBack
  | handOver (outcome : Except ε Unit)
  | finish

/-- The tasks a run has drained and not handed over. -/
def Phase.drained : Phase τ η → List (Entry τ)
  | .puttingBack drained => drained
  | .handing _ drained _ => drained
  | _ => []

/-- The task the next call of the handler gets. -/
def Phase.next : Phase τ η → Option (Entry τ)
  | .handing _ (entry :: _) _ => some entry
  | _ => none

/-- What follows the drain: `let Some(h) = handler else`, with the lock taken again only for drained tasks. -/
def Phase.afterDrain (handler : Option η) (ready : List (Entry τ)) : Phase τ η :=
  match handler with
  | none => if ready.isEmpty then .returned 0 else .puttingBack ready
  | some h => .handing h ready ready.length

/-- `run_pending_one_off_tasks`, one section at a time. -/
def Phase.move (s : InProcessScheduler τ η) : Phase τ η → Move τ ε → Option (InProcessScheduler τ η × Phase τ η)
  | .entered, .readHandler => some (s, .handlerRead s.oneOffHandler)
  | .handlerRead handler, .drain probe =>
      let (ready, deferred) := s.oneOffs.partition fun entry => (probe entry).satisfies entry.constraints
      some ({ s with oneOffs := deferred }, .afterDrain handler ready)
  | .puttingBack drained, .putBack => some ({ s with oneOffs := s.oneOffs ++ drained }, .returned 0)
  -- the outcome of one task does not stop the rest
  | .handing h (_ :: drained) count, .handOver _ => some (s, .handing h drained count)
  | .handing _ [] count, .finish => some (s, .returned count)
  | _, _ => none

/-- **The scheduler with its calls**: the runs, and how many calls have scheduled a task. -/
structure World (τ : Type u) (η : Type v) extends InProcessScheduler τ η where
  runs : List (Phase τ η)
  scheduled : ℕ
  deriving DecidableEq, Repr

inductive Label (τ : Type u) (η : Type v) (ε : Type w)
  | scheduleOneOffTask (task : τ) (constraints : TaskConstraints)
  | setOneOffHandler (handler : η)
  | runPendingOneOffTasks
  | run (i : ℕ) (m : Move τ ε)

/-- `InProcessScheduler::new`. -/
def World.new : World τ η := { oneOffs := [], oneOffHandler := none, runs := [], scheduled := 0 }

/-- **One step of one call.** -/
def World.step (w : World τ η) : Label τ η ε → Option (World τ η)
  | .scheduleOneOffTask task constraints =>
      some { w with oneOffs := w.oneOffs ++ [⟨w.scheduled, task, constraints⟩], scheduled := w.scheduled + 1 }
  | .setOneOffHandler handler => some { w with oneOffHandler := some handler }
  | .runPendingOneOffTasks => some { w with runs := w.runs ++ [.entered] }
  | .run i m => do
      let phase ← w.runs[i]?
      let (s, phase) ← phase.move w.toInProcessScheduler m
      some { w with toInProcessScheduler := s, runs := w.runs.set i phase }

/-- The step relation, for `Lib.Run`. -/
def World.Step (w : World τ η) (a : Label τ η ε) (w' : World τ η) : Prop := w.step a = some w'

/-! ## What a step schedules and what it hands over -/

def scheduledAt (w : World τ η) : Label τ η ε → List (Entry τ)
  | .scheduleOneOffTask task constraints => [⟨w.scheduled, task, constraints⟩]
  | _ => []

def handedAt (w : World τ η) : Label τ η ε → List (Entry τ)
  | .run i (.handOver _) => (w.runs[i]?.bind Phase.next).toList
  | _ => []

/-- The tasks scheduled along a run, in order. -/
def scheduledIn (tr : List (World τ η × Label τ η ε)) : List (Entry τ) := tr.flatMap fun p => scheduledAt p.1 p.2

/-- The tasks handed to a handler along a run, in order. -/
def handedIn (tr : List (World τ η × Label τ η ε)) : List (Entry τ) := tr.flatMap fun p => handedAt p.1 p.2

/-- What the run at `i` drains in a step: the state it drains in, with what its probe answers. -/
def drainsAt (i : ℕ) (w : World τ η) : Label τ η ε → List (World τ η × (Entry τ → ResourceProbe))
  | .run j (.drain probe) => if j = i then [(w, probe)] else []
  | _ => []

/-- The drains of the run at `i` along a run of the scheduler, in order. -/
def drainsOf (i : ℕ) (tr : List (World τ η × Label τ η ε)) : List (World τ η × (Entry τ → ResourceProbe)) :=
  tr.flatMap fun p => drainsAt i p.1 p.2

/-- The tasks in the queue, and those the runs have drained. -/
def World.waiting (w : World τ η) : List (Entry τ) := w.oneOffs ++ w.runs.flatMap Phase.drained

/-- How many times the task scheduled as `ticket` is there. -/
def copies (ticket : ℕ) (entries : List (Entry τ)) : ℕ := entries.countP (·.ticket = ticket)

/-! ## Counting copies -/

theorem copies_append (ticket : ℕ) (entries more : List (Entry τ)) :
    copies ticket (entries ++ more) = copies ticket entries + copies ticket more := List.countP_append

theorem copies_flatMap (ticket : ℕ) (runs : List (Phase τ η)) :
    copies ticket (runs.flatMap Phase.drained) = (runs.map fun p => copies ticket p.drained).sum := List.countP_flatMap

theorem copies_perm {entries entries' : List (Entry τ)} (h : entries.Perm entries') (ticket : ℕ) :
    copies ticket entries = copies ticket entries' := h.countP_eq _

theorem count_map_ticket (ticket : ℕ) (entries : List (Entry τ)) :
    (entries.map Entry.ticket).count ticket = copies ticket entries := by
  rw [copies, List.count, List.countP_map]
  rfl

/-! ## What one move does -/

/-- **The moves of a run**, each with the phase it starts from. -/
theorem Phase.move_cases {s s' : InProcessScheduler τ η} {p p' : Phase τ η} {m : Move τ ε}
    (h : p.move s m = some (s', p')) :
    (p = .entered ∧ m = .readHandler ∧ s' = s ∧ p' = .handlerRead s.oneOffHandler) ∨
    (∃ handler probe, p = .handlerRead handler ∧ m = .drain probe ∧
      s' = { s with oneOffs := s.oneOffs.filter fun entry => !(probe entry).satisfies entry.constraints } ∧
      p' = .afterDrain handler (s.oneOffs.filter fun entry => (probe entry).satisfies entry.constraints)) ∨
    (∃ drained, p = .puttingBack drained ∧ m = .putBack ∧ s' = { s with oneOffs := s.oneOffs ++ drained } ∧
      p' = .returned 0) ∨
    (∃ handler entry drained count outcome, p = .handing handler (entry :: drained) count ∧ m = .handOver outcome ∧
      s' = s ∧ p' = .handing handler drained count) ∨
    (∃ handler count, p = .handing handler [] count ∧ m = .finish ∧ s' = s ∧ p' = .returned count) := by
  unfold Phase.move at h
  split at h
  · obtain ⟨rfl, rfl⟩ := Prod.mk.inj (Option.some.inj h)
    exact .inl ⟨rfl, rfl, rfl, rfl⟩
  case h_2 handler probe =>
    rw [List.partition_eq_filter_filter] at h
    obtain ⟨rfl, rfl⟩ := Prod.mk.inj (Option.some.inj h)
    exact .inr (.inl ⟨handler, probe, rfl, rfl, rfl, rfl⟩)
  case h_3 drained =>
    obtain ⟨rfl, rfl⟩ := Prod.mk.inj (Option.some.inj h)
    exact .inr (.inr (.inl ⟨drained, rfl, rfl, rfl, rfl⟩))
  case h_4 handler entry drained count outcome =>
    obtain ⟨rfl, rfl⟩ := Prod.mk.inj (Option.some.inj h)
    exact .inr (.inr (.inr (.inl ⟨handler, entry, drained, count, outcome, rfl, rfl, rfl, rfl⟩)))
  case h_5 handler count =>
    obtain ⟨rfl, rfl⟩ := Prod.mk.inj (Option.some.inj h)
    exact .inr (.inr (.inr (.inr ⟨handler, count, rfl, rfl, rfl, rfl⟩)))
  · exact absurd h (by simp)

/-- What follows a drain holds the drained tasks, with or without a handler. -/
@[simp] theorem Phase.drained_afterDrain (handler : Option η) (ready : List (Entry τ)) :
    (Phase.afterDrain handler ready).drained = ready := by
  unfold Phase.afterDrain
  cases handler with
  | none => cases ready <;> rfl
  | some h => rfl

/-- The tasks a move hands over. -/
def Phase.handed (p : Phase τ η) : Move τ ε → List (Entry τ)
  | .handOver _ => p.next.toList
  | _ => []

/-- **A move loses nothing and repeats nothing.** -/
theorem Phase.move_perm {s s' : InProcessScheduler τ η} {p p' : Phase τ η} {m : Move τ ε}
    (h : p.move s m = some (s', p')) : (s'.oneOffs ++ p'.drained ++ p.handed m).Perm (s.oneOffs ++ p.drained) := by
  obtain ⟨rfl, rfl, rfl, rfl⟩ | ⟨handler, probe, rfl, rfl, rfl, rfl⟩ | ⟨drained, rfl, rfl, rfl, rfl⟩ |
    ⟨handler, entry, drained, count, outcome, rfl, rfl, rfl, rfl⟩ | ⟨handler, count, rfl, rfl, rfl, rfl⟩ :=
    Phase.move_cases h
  · simp [Phase.drained, Phase.handed]
  · -- the two halves of the partition make up the queue
    rw [Phase.drained_afterDrain]
    simp only [Phase.handed, Phase.drained, List.append_nil]
    exact List.perm_append_comm.trans (List.filter_append_perm _ s.oneOffs)
  · simp [Phase.drained, Phase.handed]
  · simp only [Phase.drained, Phase.handed, Phase.next, Option.toList_some, List.append_assoc]
    exact (List.perm_append_singleton entry drained).append_left _
  · simp [Phase.drained, Phase.handed]

/-- A step of the run at `i` is a move of its phase. -/
theorem World.step_run {w w' : World τ η} {i : ℕ} {m : Move τ ε} (h : w.Step (.run i m) w') :
    ∃ p s p', w.runs[i]? = some p ∧ p.move w.toInProcessScheduler m = some (s, p') ∧
      w' = { w with toInProcessScheduler := s, runs := w.runs.set i p' } := by
  obtain ⟨p, hp, h⟩ := Option.bind_eq_some_iff.mp h
  obtain ⟨⟨s, p'⟩, hmove, h⟩ := Option.bind_eq_some_iff.mp h
  exact ⟨p, s, p', hp, hmove, (Option.some.inj h).symm⟩

theorem handedAt_run {w : World τ η} {i : ℕ} {p : Phase τ η} (hp : w.runs[i]? = some p) (m : Move τ ε) :
    handedAt w (.run i m : Label τ η ε) = p.handed m := by
  cases m <;> simp [handedAt, Phase.handed, hp]

/-- **The tasks waiting after a step**, with the one it hands over, are those before it, with the one it schedules. -/
theorem World.step_balanced (w : World τ η) (a : Label τ η ε) (w' : World τ η) (h : w.Step a w') :
    (w'.waiting ++ handedAt w a).Perm (w.waiting ++ scheduledAt w a) := by
  cases a with
  | scheduleOneOffTask task constraints =>
      obtain rfl := Option.some.inj h
      simp only [waiting, handedAt, scheduledAt, List.append_nil, List.append_assoc]
      exact List.perm_append_comm.append_left w.oneOffs
  | setOneOffHandler handler =>
      obtain rfl := Option.some.inj h
      exact .refl _
  | runPendingOneOffTasks =>
      obtain rfl := Option.some.inj h
      simp [waiting, handedAt, scheduledAt, Phase.drained]
  | run i m =>
      obtain ⟨p, s, p', hp, hmove, rfl⟩ := World.step_run h
      rw [handedAt_run hp]
      simp only [waiting, scheduledAt, List.append_nil]
      -- only the phase at `i` changes, so the other runs' tasks stand aside
      have hruns : ((w.runs.set i p').flatMap Phase.drained ++ p.drained).Perm (w.runs.flatMap Phase.drained ++ p'.drained) :=
        Lib.flatMap_set_perm Phase.drained hp p'
      have hmoved : (s.oneOffs ++ p'.drained ++ p.handed m).Perm (w.oneOffs ++ p.drained) := Phase.move_perm hmove
      exact Lib.part_moved hruns hmoved

/-- A step schedules the tickets from the count before it up to the count after it. -/
theorem World.step_tickets {w w' : World τ η} {a : Label τ η ε} (h : w.Step a w') :
    List.range w'.scheduled = List.range w.scheduled ++ (scheduledAt w a).map Entry.ticket := by
  cases a with
  | scheduleOneOffTask task constraints =>
      obtain rfl := Option.some.inj h
      exact List.range_succ
  | setOneOffHandler handler =>
      obtain rfl := Option.some.inj h
      exact (List.append_nil _).symm
  | runPendingOneOffTasks =>
      obtain rfl := Option.some.inj h
      exact (List.append_nil _).symm
  | run i m =>
      obtain ⟨p, s, p', -, -, rfl⟩ := World.step_run h
      exact (List.append_nil _).symm

/-- **The tickets of the scheduled tasks** are 0, 1, 2 and so on, so no two are one. -/
theorem tickets_scheduledIn {tr : List (World τ η × Label τ η ε)} {w : World τ η}
    (hrun : Lib.Run World.Step World.new tr w) : (scheduledIn tr).map Entry.ticket = List.range w.scheduled := by
  induction hrun with
  | refl => rfl
  | @tail tr t t' a _ ht ih =>
      rw [World.step_tickets ht, ← ih]
      simp [scheduledIn]

/-- **Nothing is lost, nothing comes up twice**: the tasks waiting and handed over are the scheduled ones. -/
theorem waiting_append_handedIn_perm {tr : List (World τ η × Label τ η ε)} {w : World τ η}
    (hrun : Lib.Run World.Step World.new tr w) : (w.waiting ++ handedIn tr).Perm (scheduledIn tr) :=
  hrun.balanced World.step_balanced

/-! ## What a run drained -/

theorem drainsOf_append (i : ℕ) (tr tr' : List (World τ η × Label τ η ε)) :
    drainsOf i (tr ++ tr') = drainsOf i tr ++ drainsOf i tr' := List.flatMap_append

theorem drainsOf_concat (i : ℕ) (tr : List (World τ η × Label τ η ε)) (w : World τ η) (a : Label τ η ε) :
    drainsOf i (tr ++ [(w, a)]) = drainsOf i tr ++ drainsAt i w a := by
  simp [drainsOf]

theorem drainsAt_run_ne {i j : ℕ} (hne : j ≠ i) (w : World τ η) (m : Move τ ε) :
    drainsAt i w (.run j m : Label τ η ε) = [] := by
  cases m with
  | drain probe => exact if_neg hne
  | _ => rfl

/-- **What a phase says of its drains**: none before the lock, then one, whose probe allowed every task still held. -/
def Phase.Allowed (drains : List (World τ η × (Entry τ → ResourceProbe))) : Phase τ η → Prop
  | .entered | .handlerRead _ => drains = []
  | p => ∃ v probe, drains = [(v, probe)] ∧
      ∀ entry ∈ p.drained, entry ∈ v.oneOffs ∧ (probe entry).satisfies entry.constraints

/-- Every run of a state with its drains; a run that has not entered has none. -/
def World.Allowed (w : World τ η) (tr : List (World τ η × Label τ η ε)) : Prop :=
  (∀ (i : ℕ) (p : Phase τ η), w.runs[i]? = some p → p.Allowed (drainsOf i tr)) ∧
    ∀ i : ℕ, w.runs.length ≤ i → drainsOf i tr = []

theorem Phase.allowed_afterDrain {v : World τ η} {probe : Entry τ → ResourceProbe} (handler : Option η)
    {ready : List (Entry τ)} (h : ∀ entry ∈ ready, entry ∈ v.oneOffs ∧ (probe entry).satisfies entry.constraints) :
    (Phase.afterDrain handler ready).Allowed [(v, probe)] := by
  unfold Phase.afterDrain
  cases handler with
  | none =>
      cases ready with
      | nil => exact ⟨v, probe, rfl, by simp [Phase.drained]⟩
      | cons entry ready => exact ⟨v, probe, rfl, h⟩
  | some handler => exact ⟨v, probe, rfl, h⟩

/-- **A move keeps what the phase says of its drains.** -/
theorem Phase.Allowed.move {drains : List (World τ η × (Entry τ → ResourceProbe))} {w : World τ η} {i : ℕ}
    {s : InProcessScheduler τ η} {p p' : Phase τ η} {m : Move τ ε} (h : p.Allowed drains)
    (hmove : p.move w.toInProcessScheduler m = some (s, p')) :
    p'.Allowed (drains ++ drainsAt i w (.run i m : Label τ η ε)) := by
  obtain ⟨rfl, rfl, rfl, rfl⟩ | ⟨handler, probe, rfl, rfl, rfl, rfl⟩ | ⟨drained, rfl, rfl, rfl, rfl⟩ |
    ⟨handler, entry, drained, count, outcome, rfl, rfl, rfl, rfl⟩ | ⟨handler, count, rfl, rfl, rfl, rfl⟩ :=
    Phase.move_cases hmove
  · simpa [Phase.Allowed, drainsAt] using h
  · -- the drain itself: the first of the run, and its probe allowed what it took
    obtain rfl : drains = [] := h
    have hdrain : drainsAt i w (.run i (.drain probe) : Label τ η ε) = [(w, probe)] := if_pos rfl
    rw [hdrain, List.nil_append]
    apply Phase.allowed_afterDrain
    intro entry hentry
    exact List.mem_filter.mp hentry
  · obtain ⟨v, probe, rfl, -⟩ := h
    exact ⟨v, probe, rfl, by simp [Phase.drained]⟩
  · -- what is still held was held before
    obtain ⟨v, probe, rfl, hall⟩ := h
    refine ⟨v, probe, rfl, ?_⟩
    intro entry' hentry'
    exact hall entry' (List.mem_cons_of_mem entry hentry')
  · obtain ⟨v, probe, rfl, -⟩ := h
    exact ⟨v, probe, rfl, by simp [Phase.drained]⟩

/-- **A step keeps what the runs say of their drains.** -/
theorem World.Allowed.step {tr : List (World τ η × Label τ η ε)} {w w' : World τ η} {a : Label τ η ε}
    (h : w.Allowed tr) (ht : w.Step a w') : w'.Allowed (tr ++ [(w, a)]) := by
  obtain ⟨hruns, hrest⟩ := h
  unfold World.Allowed
  simp only [drainsOf_concat]
  cases a with
  | scheduleOneOffTask task constraints =>
      obtain rfl := Option.some.inj ht
      simp only [drainsAt, List.append_nil]
      exact ⟨hruns, hrest⟩
  | setOneOffHandler handler =>
      obtain rfl := Option.some.inj ht
      simp only [drainsAt, List.append_nil]
      exact ⟨hruns, hrest⟩
  | runPendingOneOffTasks =>
      obtain rfl := Option.some.inj ht
      simp only [drainsAt, List.append_nil]
      constructor
      · -- the new run is the last, where no run was before
        intro i p hp
        by_cases hi : i < w.runs.length
        · rw [List.getElem?_append_left hi] at hp
          exact hruns i p hp
        · rw [List.getElem?_append_right (by omega)] at hp
          obtain rfl : p = .entered := List.mem_singleton.mp (List.mem_of_getElem? hp)
          exact hrest i (by omega)
      · intro i hi
        rw [List.length_append] at hi
        exact hrest i (by omega)
  | run j m =>
      obtain ⟨p, s, p', hp, hmove, rfl⟩ := World.step_run ht
      constructor
      · intro i q hq
        by_cases hji : j = i
        · subst hji
          have hlt : j < w.runs.length := (List.getElem?_eq_some_iff.mp hp).1
          simp only [List.getElem?_set_self hlt, Option.some.injEq] at hq
          obtain rfl := hq
          exact (hruns j p hp).move hmove
        · simp only [List.getElem?_set_ne hji] at hq
          rw [drainsAt_run_ne hji, List.append_nil]
          exact hruns i q hq
      · intro i hi
        rw [List.length_set] at hi
        have hlt : j < w.runs.length := (List.getElem?_eq_some_iff.mp hp).1
        rw [drainsAt_run_ne (by omega), List.append_nil]
        exact hrest i hi

/-- **Every reachable state knows the drains of its runs.** -/
theorem World.allowed_of_run {tr : List (World τ η × Label τ η ε)} {w : World τ η}
    (hrun : Lib.Run World.Step World.new tr w) : w.Allowed tr := by
  induction hrun with
  | refl => exact ⟨fun i p hp => absurd hp (by simp [World.new]), fun i _ => rfl⟩
  | tail _ ht ih => exact ih.step ht

/-- No run drains twice. -/
theorem length_drainsOf_le_one {tr : List (World τ η × Label τ η ε)} {w : World τ η}
    (hrun : Lib.Run World.Step World.new tr w) (i : ℕ) : (drainsOf i tr).length ≤ 1 := by
  obtain ⟨hruns, hrest⟩ := World.allowed_of_run hrun
  cases hp : w.runs[i]? with
  | none => simp [hrest i (List.getElem?_eq_none_iff.mp hp)]
  | some p =>
      have hallowed : p.Allowed (drainsOf i tr) := hruns i p hp
      cases p with
      | entered => simp [show drainsOf i tr = [] from hallowed]
      | handlerRead handler => simp [show drainsOf i tr = [] from hallowed]
      | puttingBack drained =>
          obtain ⟨v, probe, hdrains, -⟩ := hallowed
          simp [hdrains]
      | handing handler drained count =>
          obtain ⟨v, probe, hdrains, -⟩ := hallowed
          simp [hdrains]
      | returned executed =>
          obtain ⟨v, probe, hdrains, -⟩ := hallowed
          simp [hdrains]

/-- **A task is handed over by a run that drained it**, under a probe that allowed it. -/
theorem drained_of_handed {before : List (World τ η × Label τ η ε)} {u : World τ η} {i : ℕ} {entry : Entry τ}
    {outcome : Except ε Unit} (hrun : Lib.Run World.Step World.new before u)
    (h : entry ∈ handedAt u (.run i (.handOver outcome) : Label τ η ε)) :
    ∃ v probe, drainsOf i before = [(v, probe)] ∧ entry ∈ v.oneOffs ∧ (probe entry).satisfies entry.constraints := by
  obtain ⟨p, hp, hnext⟩ := Option.bind_eq_some_iff.mp (Option.mem_toList.mp h)
  have hallowed : p.Allowed (drainsOf i before) := (World.allowed_of_run hrun).1 i p hp
  cases p with
  | handing handler drained count =>
      cases drained with
      | nil => exact absurd hnext (by simp [Phase.next])
      | cons entry' drained =>
          obtain rfl : entry' = entry := Option.some.inj hnext
          obtain ⟨v, probe, hdrains, hall⟩ := hallowed
          exact ⟨v, probe, hdrains, hall entry' List.mem_cons_self⟩
  | _ => exact absurd hnext (by simp [Phase.next])

/-! ## No task is lost or run twice -/

/-- **Every scheduled task is in one place**, whatever the calls do between the locks: in the queue, with one run, or
with a handler, there for the first and last time. A handler gets it from a run whose one drain took it from the queue
under a probe that met its constraints. -/
theorem one_off_tasks_run_once {tr : List (World τ η × Label τ η ε)} {w : World τ η}
    (hrun : Lib.Run World.Step World.new tr w) :
    (w.oneOffs ++ w.runs.flatMap Phase.drained ++ handedIn tr).Perm (scheduledIn tr) ∧
      (∀ entry ∈ scheduledIn tr, copies entry.ticket w.oneOffs +
        (w.runs.map fun p => copies entry.ticket p.drained).sum + copies entry.ticket (handedIn tr) = 1) ∧
      ∀ before u i outcome after entry, tr = before ++ (u, .run i (.handOver outcome)) :: after →
        entry ∈ handedAt u (.run i (.handOver outcome) : Label τ η ε) →
        ∃ v probe, drainsOf i before = [(v, probe)] ∧ drainsOf i tr = [(v, probe)] ∧ entry ∈ v.oneOffs ∧
          (probe entry).satisfies entry.constraints := by
  have hperm := waiting_append_handedIn_perm hrun
  refine ⟨hperm, ?_, ?_⟩
  · intro entry hentry
    have htickets : ((scheduledIn tr).map Entry.ticket).count entry.ticket = 1 := by
      rw [tickets_scheduledIn hrun]
      apply List.count_eq_one_of_mem List.nodup_range
      rw [← tickets_scheduledIn hrun]
      exact List.mem_map_of_mem hentry
    rw [count_map_ticket, ← copies_perm hperm, copies_append, World.waiting, copies_append, copies_flatMap] at htickets
    exact htickets
  · rintro before u i outcome after entry rfl hentry
    obtain ⟨hbefore, -⟩ := hrun.split rfl
    obtain ⟨v, probe, hdrains, hqueued, hallowed⟩ := drained_of_handed hbefore hentry
    refine ⟨v, probe, hdrains, ?_, hqueued, hallowed⟩
    -- the drain before leaves no room for another
    have hone := length_drainsOf_le_one hrun i
    rw [drainsOf_append, hdrains] at hone ⊢
    simp only [List.length_append, List.length_singleton] at hone
    have hnone : drainsOf i ((u, .run i (.handOver outcome)) :: after) = [] :=
      List.eq_nil_of_length_eq_zero (by omega)
    rw [hnone, List.append_nil]

/-- The run of a scheduler with two calls: the first reads no handler, drains, and puts back what the second hands over. -/
def secondRunDelivers : List (Label String ℕ String) :=
  [.runPendingOneOffTasks, .run 0 .readHandler, .scheduleOneOffTask "media migration" ⟨true, true, false, 3⟩,
    .run 0 (.drain fun _ => ⟨true, true, false⟩), .setOneOffHandler 7, .runPendingOneOffTasks, .run 1 .readHandler,
    .run 0 .putBack, .run 1 (.drain fun _ => ⟨true, true, true⟩), .run 1 (.handOver (.error "offline")), .run 1 .finish]

theorem task_put_back_is_delivered :
    ∃ w, Lib.Run World.Step World.new (Lib.Run.traceOf World.step World.new secondRunDelivers) w ∧
      (handedIn (Lib.Run.traceOf World.step World.new secondRunDelivers)).map Entry.task = ["media migration"] ∧
      copies 0 w.oneOffs + (w.runs.map fun p => copies 0 p.drained).sum +
        copies 0 (handedIn (Lib.Run.traceOf World.step World.new secondRunDelivers)) = 1 := by
  have hrun : Lib.Run World.Step World.new (Lib.Run.traceOf World.step World.new secondRunDelivers)
      ⟨⟨[], some 7⟩, [.returned 0, .returned 1], 1⟩ := Lib.Run.of_foldlM rfl
  obtain ⟨-, hone, -⟩ := one_off_tasks_run_once hrun
  exact ⟨_, hrun, rfl, hone ⟨0, "media migration", ⟨true, true, false, 3⟩⟩ (by decide)⟩

end Scheduler

end KChatCore.Scheduler
