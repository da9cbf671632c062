import KChatCore.Base
import KChatCore.Lib.Ledger
import KChatCore.Lib.Progress

/-!
# `LocalStore.ReaderPool` — the read-only connections beside the writer

Any number of `with_reader` calls share the connections of a pool. A call takes the lock of `slots` twice: `checkout`
takes a reader off the end of the vector, or sleeps on the condition variable while there is none, and `checkin` puts it
back and notifies one sleeper. In between its closure runs without the lock, and may panic: the guard checks the reader
in either way.

`World.step` is one locked section of one call, the end of one closure, or a wakeup the condition variable makes of
itself. A sleeper that was notified has to take the lock again, and until then any other call may be faster. A lock is
poisoned only by a panic under it, and nothing panics there.

The readers are items of `Lib.Ledger`, and `World.NoLostWakeup` is the invariant that lets `Lib.Progress` bring every call
to its end.
-/

namespace KChatCore.LocalStore

/-- `LocalStoreReader`: a connection, by its number among those the pool opened. -/
structure LocalStoreReader where
  connection : ℕ
  deriving DecidableEq, Repr

/-- `LocalStoreReaderPool`: what the mutex guards, and the size the pool was opened with. -/
structure LocalStoreReaderPool where
  slots : List LocalStoreReader
  capacity : ℕ
  deriving DecidableEq, Repr

/-- `LocalStoreReader::open` or `open_uri`, for the reader with this number. -/
def LocalStoreReader.openWith {ε : Type} (openReader : ℕ → Except ε Unit) (k : ℕ) : Except ε LocalStoreReader :=
  (openReader k).map fun _ => ⟨k⟩

/-- The loop of `open` and `open_uri`: at least one connection, and all of them or an error. -/
def LocalStoreReaderPool.openSlots {ε : Type} (openReader : ℕ → Except ε Unit) (capacity : ℕ) :
    Except ε LocalStoreReaderPool :=
  let capacity := max capacity 1
  ((List.range capacity).mapM (LocalStoreReader.openWith openReader)).map fun slots => ⟨slots, capacity⟩

/-- **Where a `with_reader` call stands.** -/
inductive ReaderCall
  | entered
  | asleep
  | awake
  | reading (reader : LocalStoreReader)
  | returning (reader : LocalStoreReader) (panicked : Bool)
  | ended (panicked : Bool)
  deriving DecidableEq, Repr

/-- The reader the guard of a call holds. -/
def ReaderCall.reader : ReaderCall → List LocalStoreReader
  | .reading reader => [reader]
  | .returning reader _ => [reader]
  | _ => []

/-- **The pool with its calls.** -/
structure World extends LocalStoreReaderPool where
  calls : List ReaderCall
  deriving DecidableEq, Repr

inductive Label
  | withReader
  | checkout (i : ℕ)
  | spuriousWakeup (i : ℕ)
  | closureEnds (i : ℕ) (panics : Bool)
  | checkin (i : ℕ) (notified : Option ℕ)
  deriving DecidableEq, Repr

namespace World

/-- A pool that no call has used. -/
def opened (pool : LocalStoreReaderPool) : World := { pool with calls := [] }

/-- `checkout`, with the lock: the last reader, or back to sleep. -/
def checkout (w : World) (i : ℕ) : World :=
  match w.slots.getLast? with
  | none => { w with calls := w.calls.set i .asleep }
  | some reader => { w with slots := w.slots.dropLast, calls := w.calls.set i (.reading reader) }

/-- `notify_one`: it wakes one sleeper, whichever, unless there is none. -/
def notifyOne (calls : List ReaderCall) : Option ℕ → Option (List ReaderCall)
  | none => if .asleep ∈ calls then none else some calls
  | some j => if calls[j]? = some .asleep then some (calls.set j .awake) else none

/-- **One step of one call.** -/
def step (w : World) : Label → Option World
  | .withReader => some { w with calls := w.calls ++ [.entered] }
  | .checkout i =>
      match w.calls[i]? with
      | some .entered => some (w.checkout i)
      | some .awake => some (w.checkout i)
      | _ => none
  | .spuriousWakeup i =>
      match w.calls[i]? with
      | some .asleep => some { w with calls := w.calls.set i .awake }
      | _ => none
  | .closureEnds i panics =>
      match w.calls[i]? with
      | some (.reading reader) => some { w with calls := w.calls.set i (.returning reader panics) }
      | _ => none
  | .checkin i notified =>
      match w.calls[i]? with
      | some (.returning reader panicked) =>
          (notifyOne (w.calls.set i (.ended panicked)) notified).map fun calls =>
            { w with slots := w.slots ++ [reader], calls := calls }
      | _ => none

/-- The step relation, for `Lib.Run`. -/
def Step (w : World) (a : Label) (w' : World) : Prop := w.step a = some w'

end World

/-! ## What a step can do -/

namespace World

variable {w w' : World} {i : ℕ}

/-- The calls after a `notify_one`: one sleeper woken, or none was asleep. -/
theorem notifyOne_eq_some {calls calls' : List ReaderCall} {notified : Option ℕ} (h : notifyOne calls notified = some calls') :
    (.asleep ∉ calls ∧ calls' = calls) ∨ ∃ j, calls[j]? = some .asleep ∧ calls' = calls.set j .awake := by
  unfold notifyOne at h
  cases notified with
  | none =>
      by_cases hasleep : .asleep ∈ calls
      · exact absurd h (by simp [hasleep])
      · exact .inl ⟨hasleep, by simpa [hasleep] using h.symm⟩
  | some j =>
      by_cases hj : calls[j]? = some .asleep
      · exact .inr ⟨j, hj, by simpa [hj] using h.symm⟩
      · exact absurd h (by simp [hj])

/-- **A checkout finds no reader and sleeps, or takes the last one.** -/
theorem checkout_cases (w : World) (i : ℕ) :
    (w.slots = [] ∧ w.checkout i = { w with calls := w.calls.set i .asleep }) ∨
      ∃ slots reader, w.slots = slots ++ [reader] ∧
        w.checkout i = { w with slots := slots, calls := w.calls.set i (.reading reader) } := by
  unfold checkout
  rcases List.eq_nil_or_concat w.slots with hnil | ⟨slots, reader, hslots⟩
  · exact .inl ⟨hnil, by simp [hnil]⟩
  · exact .inr ⟨slots, reader, by simpa using hslots, by simp [hslots]⟩

/-- **Every step**, a checkout aside, changes the calls in the one way its label names. -/
theorem step_cases {a : Label} (h : w.Step a w') :
    (a = .withReader ∧ w' = { w with calls := w.calls ++ [.entered] }) ∨
    (∃ i, a = .checkout i ∧ (w.calls[i]? = some .entered ∨ w.calls[i]? = some .awake) ∧ w' = w.checkout i) ∨
    (∃ i, a = .spuriousWakeup i ∧ w.calls[i]? = some .asleep ∧ w' = { w with calls := w.calls.set i .awake }) ∨
    (∃ i panics reader, a = .closureEnds i panics ∧ w.calls[i]? = some (.reading reader) ∧
      w' = { w with calls := w.calls.set i (.returning reader panics) }) ∨
    ∃ i notified reader panicked calls, a = .checkin i notified ∧ w.calls[i]? = some (.returning reader panicked) ∧
      notifyOne (w.calls.set i (.ended panicked)) notified = some calls ∧
      w' = { w with slots := w.slots ++ [reader], calls := calls } := by
  cases a with
  | withReader => exact .inl ⟨rfl, (Option.some.inj h).symm⟩
  | checkout i =>
      refine .inr (.inl ⟨i, rfl, ?_⟩)
      simp only [Step, step] at h
      split at h
      · exact ⟨.inl ‹_›, (Option.some.inj h).symm⟩
      · exact ⟨.inr ‹_›, (Option.some.inj h).symm⟩
      · cases h
  | spuriousWakeup i =>
      refine .inr (.inr (.inl ⟨i, rfl, ?_⟩))
      simp only [Step, step] at h
      split at h
      · exact ⟨‹_›, (Option.some.inj h).symm⟩
      · cases h
  | closureEnds i panics =>
      refine .inr (.inr (.inr (.inl ⟨i, panics, ?_⟩)))
      simp only [Step, step] at h
      split at h
      · exact ⟨_, rfl, ‹_›, (Option.some.inj h).symm⟩
      · cases h
  | checkin i notified =>
      refine .inr (.inr (.inr (.inr ⟨i, notified, ?_⟩)))
      simp only [Step, step] at h
      split at h
      · obtain ⟨calls, hnotify, hw'⟩ := Option.map_eq_some_iff.mp h
        exact ⟨_, _, calls, rfl, ‹_›, hnotify, hw'.symm⟩
      · cases h

/-! ## Readers are neither lost nor shared -/

/-- The readers in the hands of the calls. -/
def out (w : World) : List LocalStoreReader := w.calls.flatMap ReaderCall.reader

theorem flatMap_reader_set {calls : List ReaderCall} {c : ReaderCall} (hc : calls[i]? = some c) (d : ReaderCall)
    (hsame : d.reader = c.reader) :
    ((calls.set i d).flatMap ReaderCall.reader).Perm (calls.flatMap ReaderCall.reader) := by
  have hset := Lib.flatMap_set_perm ReaderCall.reader hc d
  rw [hsame] at hset
  exact (List.perm_append_right_iff _).mp hset

/-- A notification moves no reader. -/
theorem flatMap_reader_notifyOne {calls calls' : List ReaderCall} {notified : Option ℕ}
    (h : notifyOne calls notified = some calls') : (calls'.flatMap ReaderCall.reader).Perm (calls.flatMap ReaderCall.reader) := by
  obtain ⟨-, rfl⟩ | ⟨j, hj, rfl⟩ := notifyOne_eq_some h
  · exact .refl _
  · exact flatMap_reader_set hj .awake rfl

/-- A call that waits holds no reader. -/
theorem reader_of_waiting {calls : List ReaderCall} (h : calls[i]? = some .entered ∨ calls[i]? = some .awake) :
    ∃ c, calls[i]? = some c ∧ c.reader = [] := by
  rcases h with h | h
  · exact ⟨_, h, rfl⟩
  · exact ⟨_, h, rfl⟩

/-- **A step moves a reader between the vector and one call**, or moves none. -/
theorem step_readers {a : Label} (h : w.Step a w') : (w'.slots ++ w'.out).Perm (w.slots ++ w.out) := by
  obtain ⟨-, rfl⟩ | ⟨i, -, hwaits, rfl⟩ | ⟨i, -, hi, rfl⟩ | ⟨i, panics, reader, -, hi, rfl⟩ |
    ⟨i, notified, reader, panicked, calls, -, hi, hnotify, rfl⟩ := step_cases h
  · simp [out, ReaderCall.reader]
  · obtain ⟨c, hc, hnone⟩ := reader_of_waiting hwaits
    obtain ⟨-, hw'⟩ | ⟨slots, reader, hslots, hw'⟩ := w.checkout_cases i
    · rw [hw']
      exact (flatMap_reader_set hc .asleep hnone.symm).append_left w.slots
    · have hset := Lib.flatMap_set_perm ReaderCall.reader hc (.reading reader)
      rw [hnone, List.append_nil] at hset
      rw [hw', hslots, List.append_assoc]
      exact (hset.trans List.perm_append_comm).append_left slots
  · exact (flatMap_reader_set hi .awake rfl).append_left w.slots
  · exact (flatMap_reader_set hi (.returning reader panics) rfl).append_left w.slots
  · -- the reader of the guard goes to the end of the vector
    have hset := Lib.flatMap_set_perm ReaderCall.reader hi (.ended panicked)
    simp only [ReaderCall.reader, List.append_nil] at hset
    simp only [out, List.append_assoc]
    exact ((List.perm_append_comm.trans ((flatMap_reader_notifyOne hnotify).append_right [reader])).trans hset).append_left
      w.slots

/-- **The readers of a pool** are in the vector and in the hands of its calls, whatever has happened. -/
theorem readers_of_run {pool : LocalStoreReaderPool} {tr : List (World × Label)} (hrun : Lib.Run Step (opened pool) tr w) :
    (w.slots ++ w.out).Perm pool.slots := by
  apply hrun.invariant (I := fun w => (w.slots ++ w.out).Perm pool.slots)
  · intro s a s' hs hstep
    exact (step_readers hstep).trans hs
  · simp [opened, out]

/-! ## No wakeup is lost -/

/-- **While a call sleeps, every free reader has a call that is awake** and comes to take it. -/
def NoLostWakeup (w : World) : Prop := .asleep ∈ w.calls → w.slots.length ≤ w.calls.count .awake

theorem count_awake_set {calls : List ReaderCall} {c : ReaderCall} (hc : calls[i]? = some c) (d : ReaderCall) :
    (calls.set i d).count .awake + (if c = .awake then 1 else 0) = calls.count .awake + if d = .awake then 1 else 0 := by
  simpa [List.count] using Lib.countP_set_add (· == .awake) hc d

theorem asleep_of_set {calls : List ReaderCall} {d : ReaderCall} (h : .asleep ∈ calls.set i d) (hd : d ≠ .asleep) :
    .asleep ∈ calls := by
  rcases List.mem_or_eq_of_mem_set h with hmem | heq
  · exact hmem
  · exact absurd heq.symm hd

/-- **A step loses no wakeup.** -/
theorem NoLostWakeup.step {a : Label} (hw : w.NoLostWakeup) (h : w.Step a w') : w'.NoLostWakeup := by
  obtain ⟨-, rfl⟩ | ⟨i, -, hwaits, rfl⟩ | ⟨i, -, hi, rfl⟩ | ⟨i, panics, reader, -, hi, rfl⟩ |
    ⟨i, notified, reader, panicked, calls, -, hi, hnotify, rfl⟩ := step_cases h
  · intro hasleep
    simpa using hw (by simpa using hasleep)
  · obtain ⟨hnil, hw'⟩ | ⟨slots, reader, hslots, hw'⟩ := w.checkout_cases i
    · rw [hw']
      intro _
      simp [hnil]
    · -- who takes a reader was not asleep; it was awake at most once
      rw [hw']
      intro hasleep
      have hfree := hw (asleep_of_set hasleep (by simp))
      rw [hslots, List.length_append, List.length_singleton] at hfree
      show slots.length ≤ (w.calls.set i (.reading reader)).count .awake
      rcases hwaits with hi | hi
      · have := count_awake_set hi (.reading reader)
        simp only [reduceCtorEq, if_false] at this
        omega
      · have := count_awake_set hi (.reading reader)
        simp only [reduceCtorEq, if_false, if_true] at this
        omega
  · intro hasleep
    have hfree := hw (asleep_of_set hasleep (by simp))
    have := count_awake_set hi .awake
    simp only [reduceCtorEq, if_false, if_true] at this
    show w.slots.length ≤ (w.calls.set i .awake).count .awake
    omega
  · intro hasleep
    have hfree := hw (asleep_of_set hasleep (by simp))
    have := count_awake_set hi (.returning reader panics)
    simp only [reduceCtorEq, if_false] at this
    show w.slots.length ≤ (w.calls.set i (.returning reader panics)).count .awake
    omega
  · intro hasleep
    have hended := count_awake_set hi (.ended panicked)
    simp only [reduceCtorEq, if_false] at hended
    obtain ⟨hnone, rfl⟩ | ⟨j, hj, rfl⟩ := notifyOne_eq_some hnotify
    · exact absurd hasleep hnone
    · -- one reader more, and the call that was notified
      have hfree := hw (asleep_of_set (List.mem_of_getElem? hj) (by simp))
      have := count_awake_set hj .awake
      simp only [reduceCtorEq, if_false, if_true] at this
      show (w.slots ++ [reader]).length ≤ ((w.calls.set i (.ended panicked)).set j .awake).count .awake
      rw [List.length_append, List.length_singleton]
      omega

theorem noLostWakeup_of_run {pool : LocalStoreReaderPool} {tr : List (World × Label)}
    (hrun : Lib.Run Step (opened pool) tr w) : w.NoLostWakeup :=
  hrun.invariant (fun _ _ _ hs hstep => hs.step hstep) (by simp [NoLostWakeup, opened])

/-! ## Every call comes to its end -/

end World

/-- How many steps a call that never sleeps again has before it. -/
def ReaderCall.rank : ReaderCall → ℕ
  | .entered | .asleep | .awake => 3
  | .reading _ => 2
  | .returning _ _ => 1
  | .ended _ => 0

namespace World

variable {w w' : World} {i : ℕ}

/-- The steps the calls have before them. -/
def rank (w : World) : ℕ := (w.calls.map ReaderCall.rank).sum

/-- There is always someone to notify, or nobody sleeps; a notification is no step of a call. -/
theorem exists_notifyOne (calls : List ReaderCall) :
    ∃ notified calls', notifyOne calls notified = some calls' ∧ (calls'.map ReaderCall.rank).sum = (calls.map ReaderCall.rank).sum := by
  by_cases hasleep : .asleep ∈ calls
  · obtain ⟨j, hj⟩ := List.getElem?_of_mem hasleep
    refine ⟨some j, calls.set j .awake, by simp [notifyOne, hj], ?_⟩
    obtain ⟨hlt, hget⟩ := List.getElem?_eq_some_iff.mp hj
    have hrank : (calls.map ReaderCall.rank).set j 3 = calls.map ReaderCall.rank := by
      conv_rhs => rw [← @List.set_getElem_self _ (calls.map ReaderCall.rank) j (by simpa using hlt)]
      simp [hget, ReaderCall.rank]
    rw [List.map_set]
    exact congrArg List.sum hrank
  · exact ⟨none, calls, by simp [notifyOne, hasleep], rfl⟩

/-- **As long as a call has not ended, one can take a step towards its end**: a guard checks its reader in, a closure
ends, or a call that is awake takes a free reader. -/
theorem exists_step_down {pool : LocalStoreReaderPool} (hpool : pool.slots ≠ [])
    (hreaders : (w.slots ++ w.out).Perm pool.slots) (hwake : w.NoLostWakeup)
    (hrunning : ¬ ∀ c ∈ w.calls, ∃ panicked, c = .ended panicked) :
    ∃ a w', a ≠ .withReader ∧ w.Step a w' ∧ w'.rank < w.rank := by
  by_cases hreturning : ∃ (i : ℕ) (reader : LocalStoreReader) (panicked : Bool), w.calls[i]? = some (.returning reader panicked)
  · obtain ⟨i, reader, panicked, hi⟩ := hreturning
    obtain ⟨notified, calls, hnotify, hsum⟩ := exists_notifyOne (w.calls.set i (.ended panicked))
    refine ⟨.checkin i notified, { w with slots := w.slots ++ [reader], calls := calls }, by simp, ?_, ?_⟩
    · simp [Step, step, hi, hnotify]
    · show (calls.map ReaderCall.rank).sum < w.rank
      rw [hsum]
      exact Lib.sum_map_set_lt hi (by simp [ReaderCall.rank])
  by_cases hreading : ∃ (i : ℕ) (reader : LocalStoreReader), w.calls[i]? = some (.reading reader)
  · obtain ⟨i, reader, hi⟩ := hreading
    refine ⟨.closureEnds i false, { w with calls := w.calls.set i (.returning reader false) }, by simp, ?_, ?_⟩
    · simp [Step, step, hi]
    · exact Lib.sum_map_set_lt hi (by simp [ReaderCall.rank])
  -- no call holds a reader, so one is free
  have hout : w.out = [] := by
    rw [out, List.flatMap_eq_nil_iff]
    intro c hc
    obtain ⟨i, hi⟩ := List.getElem?_of_mem hc
    cases c with
    | reading reader => exact absurd ⟨i, reader, hi⟩ hreading
    | returning reader panicked => exact absurd ⟨i, reader, panicked, hi⟩ hreturning
    | _ => rfl
  have hfree : w.slots ≠ [] := by
    rintro hnil
    rw [hnil, hout] at hreaders
    exact hpool hreaders.nil_eq.symm
  -- and whoever sleeps is outnumbered by those awake
  have hawake : ∃ i : ℕ, w.calls[i]? = some .entered ∨ w.calls[i]? = some .awake := by
    push Not at hrunning
    obtain ⟨c, hc, hrunning⟩ := hrunning
    obtain ⟨i, hi⟩ := List.getElem?_of_mem hc
    cases c with
    | entered => exact ⟨i, .inl hi⟩
    | awake => exact ⟨i, .inr hi⟩
    | asleep =>
        have hpos : 0 < w.calls.count .awake :=
          (List.length_pos_iff.mpr hfree).trans_le (hwake hc)
        obtain ⟨j, hj⟩ := List.getElem?_of_mem (List.count_pos_iff.mp hpos)
        exact ⟨j, .inr hj⟩
    | reading reader => exact absurd ⟨i, reader, hi⟩ hreading
    | returning reader panicked => exact absurd ⟨i, reader, panicked, hi⟩ hreturning
    | ended panicked => exact absurd rfl (hrunning panicked)
  obtain ⟨i, hi⟩ := hawake
  obtain ⟨hnil, -⟩ | ⟨slots, reader, -, hw'⟩ := w.checkout_cases i
  · exact absurd hnil hfree
  · refine ⟨.checkout i, w.checkout i, by simp, ?_, ?_⟩
    · rcases hi with hi | hi <;> simp [Step, step, hi]
    · rw [hw']
      rcases hi with hi | hi
      · exact Lib.sum_map_set_lt hi (by simp [ReaderCall.rank])
      · exact Lib.sum_map_set_lt hi (by simp [ReaderCall.rank])

end World

/-! ## The pool -/

theorem mapM_openReader {ε : Type} {openReader : ℕ → Except ε Unit} {ks : List ℕ} {slots : List LocalStoreReader}
    (h : ks.mapM (LocalStoreReader.openWith openReader) = .ok slots) :
    slots = ks.map LocalStoreReader.mk := by
  induction ks generalizing slots with
  | nil =>
      obtain rfl := Except.ok.inj h
      rfl
  | cons k ks ih =>
      rw [List.mapM_cons] at h
      obtain ⟨reader, hreader, h⟩ := except_bind_eq_ok.mp h
      obtain ⟨rest, hrest, h⟩ := except_bind_eq_ok.mp h
      obtain rfl := Except.ok.inj h
      rw [ih hrest, List.map_cons]
      unfold LocalStoreReader.openWith at hreader
      cases hopen : openReader k with
      | error e => simp [hopen, Except.map] at hreader
      | ok _ =>
          rw [hopen] at hreader
          rw [← Except.ok.inj hreader]

/-- **A pool that opens** holds as many connections as asked for, at least one, and no two are one. -/
theorem openSlots_eq_ok {ε : Type} {openReader : ℕ → Except ε Unit} {capacity : ℕ} {pool : LocalStoreReaderPool}
    (h : LocalStoreReaderPool.openSlots openReader capacity = .ok pool) :
    pool.slots = (List.range (max capacity 1)).map LocalStoreReader.mk ∧ pool.capacity = max capacity 1 := by
  unfold LocalStoreReaderPool.openSlots at h
  cases hslots : (List.range (max capacity 1)).mapM (LocalStoreReader.openWith openReader) with
  | error e => simp [hslots, Except.map] at h
  | ok slots =>
      simp only [hslots, Except.map, Except.ok.injEq] at h
      subst h
      exact ⟨mapM_openReader hslots, rfl⟩

theorem nodup_of_openSlots {ε : Type} {openReader : ℕ → Except ε Unit} {capacity : ℕ} {pool : LocalStoreReaderPool}
    (h : LocalStoreReaderPool.openSlots openReader capacity = .ok pool) :
    pool.slots.Nodup ∧ pool.slots.length = pool.capacity ∧ pool.slots ≠ [] := by
  obtain ⟨hslots, hcapacity⟩ := openSlots_eq_ok h
  have hlength : pool.slots.length = max capacity 1 := by simp [hslots]
  refine ⟨?_, hlength.trans hcapacity.symm, ?_⟩
  · rw [hslots]
    exact List.nodup_range.map fun a b hab => (LocalStoreReader.mk.inj hab)
  · rw [← List.length_pos_iff, hlength]
    omega

/-- **The pool serves its readers one call at a time, and everyone gets one**: in whatever order the calls take the lock,
sleep, are woken and end, with or without a panic, each reader is in the vector or with one call, a call sleeps only
while those awake outnumber the free readers, and every call that has come can still be brought to its end, without
another one coming, which leaves all readers in the vector. -/
theorem every_call_gets_a_reader {ε : Type} {openReader : ℕ → Except ε Unit} {capacity : ℕ}
    {pool : LocalStoreReaderPool} (hopen : LocalStoreReaderPool.openSlots openReader capacity = .ok pool)
    {tr : List (World × Label)} {w : World} (hrun : Lib.Run World.Step (World.opened pool) tr w) :
    (w.slots ++ w.out).Perm pool.slots ∧ (w.slots ++ w.out).Nodup ∧ w.out.length ≤ max capacity 1 ∧
      (.asleep ∈ w.calls → w.slots.length ≤ w.calls.count .awake) ∧
      ∃ tr' w', Lib.Run World.Step w tr' w' ∧ (∀ p ∈ tr', p.2 ≠ .withReader) ∧
        (∀ c ∈ w'.calls, ∃ panicked, c = .ended panicked) ∧ w'.slots.Perm pool.slots := by
  obtain ⟨hnodup, hlength, hne⟩ := nodup_of_openSlots hopen
  have hreaders := World.readers_of_run hrun
  have hwake := World.noLostWakeup_of_run hrun
  refine ⟨hreaders, hreaders.nodup_iff.mpr hnodup, ?_, hwake, ?_⟩
  · have := hreaders.length_eq
    rw [List.length_append, hlength, (openSlots_eq_ok hopen).2] at this
    omega
  · -- both invariants go along with the steps that bring the calls to their end
    obtain ⟨tr', w', hrun', hnew, ⟨hreaders', -⟩, hended⟩ := Lib.Run.exists_ended
      (I := fun w : World => (w.slots ++ w.out).Perm pool.slots ∧ w.NoLostWakeup)
      (E := fun w => ∀ c ∈ w.calls, ∃ panicked, c = .ended panicked) (G := (· ≠ Label.withReader)) (μ := World.rank)
      (by
        rintro w ⟨hreaders, hwake⟩ hrunning
        obtain ⟨a, w', hnew, hstep, hlt⟩ := World.exists_step_down hne hreaders hwake hrunning
        exact ⟨a, w', hnew, hstep, ⟨(World.step_readers hstep).trans hreaders, hwake.step hstep⟩, hlt⟩)
      ⟨hreaders, hwake⟩
    refine ⟨tr', w', hrun', hnew, hended, ?_⟩
    have hout : w'.out = [] := by
      rw [World.out, List.flatMap_eq_nil_iff]
      intro c hc
      obtain ⟨panicked, rfl⟩ := hended c hc
      rfl
    rwa [hout, List.append_nil] at hreaders'

/-- Three calls on one reader: the second one sleeps, the first one panics and wakes it, and the third is faster. -/
def threeCalls : List Label :=
  [.withReader, .withReader, .withReader, .checkout 0, .checkout 1, .closureEnds 0 true, .checkin 0 (some 1),
    .checkout 2, .checkout 1]

theorem every_call_gets_a_reader_three :
    ∃ pool w, LocalStoreReaderPool.openSlots (fun _ => (.ok () : Except String Unit)) 0 = .ok pool ∧
      Lib.Run World.Step (World.opened pool) (Lib.Run.traceOf World.step (World.opened pool) threeCalls) w ∧
      w.calls = [.ended true, .asleep, .reading ⟨0⟩] ∧ w.out.length ≤ 1 := by
  have hopen : LocalStoreReaderPool.openSlots (fun _ => (.ok () : Except String Unit)) 0 = .ok ⟨[⟨0⟩], 1⟩ := rfl
  have hrun : Lib.Run World.Step (World.opened ⟨[⟨0⟩], 1⟩)
      (Lib.Run.traceOf World.step (World.opened ⟨[⟨0⟩], 1⟩) threeCalls)
      ⟨⟨[], 1⟩, [.ended true, .asleep, .reading ⟨0⟩]⟩ := Lib.Run.of_foldlM rfl
  obtain ⟨-, -, hout, -⟩ := every_call_gets_a_reader hopen hrun
  exact ⟨_, _, hopen, hrun, rfl, hout⟩

end KChatCore.LocalStore
