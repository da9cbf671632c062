import KChatCore.Lib.Run

/-!
# `Lib.Threads` — threads over a shared state

A thread is its local state, and `move` is what it does between two locks: it changes the shared state and itself. A
schedule says which thread moves next.

* `runAll_holds` — an invariant of the shared state and one of each thread hold over every schedule, if a move keeps both
  and disturbs no other thread;
* `Moves.run` — what a thread does alone, it does among the others;
* `exists_schedule` — threads whose moves make a measure go down can all be brought to their end.
-/

namespace KChatCore.Lib

universe u v w

/-- A shared state, and the local states of the threads. -/
structure Threads (σ : Type u) (ω : Type v) where
  shared : σ
  locals : List ω

namespace Threads

variable {σ : Type u} {ω : Type v} {move : σ → ω → σ × ω} {t : Threads σ ω}

/-- One move of the thread at `i`; nothing happens where there is none. -/
def stepAt (move : σ → ω → σ × ω) (t : Threads σ ω) (i : Nat) : Threads σ ω :=
  match t.locals[i]? with
  | none => t
  | some w => ⟨(move t.shared w).1, t.locals.set i (move t.shared w).2⟩

/-- **The moves of a schedule.** -/
def runAll (move : σ → ω → σ × ω) (t : Threads σ ω) (schedule : List Nat) : Threads σ ω := schedule.foldl (stepAt move) t

theorem runAll_append (t : Threads σ ω) (schedule more : List Nat) :
    runAll move t (schedule ++ more) = runAll move (runAll move t schedule) more := List.foldl_append

@[simp] theorem length_stepAt (t : Threads σ ω) (i : Nat) : (stepAt move t i).locals.length = t.locals.length := by
  unfold stepAt
  cases t.locals[i]? with
  | none => rfl
  | some w => exact List.length_set

/-- **An invariant of one step holds over every schedule.** -/
theorem runAll_invariant {I : Threads σ ω → Prop} (hstep : ∀ t i w, I t → t.locals[i]? = some w → I (stepAt move t i))
    (h : I t) (schedule : List Nat) : I (runAll move t schedule) := by
  induction schedule generalizing t with
  | nil => exact h
  | cons i schedule ih =>
      apply ih
      cases hw : t.locals[i]? with
      | none =>
          unfold stepAt
          rw [hw]
          exact h
      | some w => exact hstep t i w h hw

theorem length_runAll (schedule : List Nat) : (runAll move t schedule).locals.length = t.locals.length := by
  apply runAll_invariant (I := fun t' => t'.locals.length = t.locals.length) _ rfl
  intro t' i w h _
  exact (length_stepAt t' i).trans h

/-- Who is there after a step: who moved, in its new state, or another one. -/
theorem mem_stepAt {i : Nat} {w w' : ω} (hw : t.locals[i]? = some w) (h : w' ∈ (stepAt move t i).locals) :
    w' = (move t.shared w).2 ∨ w' ∈ t.locals := by
  unfold stepAt at h
  rw [hw] at h
  exact (List.mem_or_eq_of_mem_set h).symm

/-- **An invariant of the shared state and of each thread.** -/
theorem runAll_holds {S : σ → Prop} {L : σ → ω → Prop}
    (hown : ∀ s w, S s → L s w → S (move s w).1 ∧ L (move s w).1 (move s w).2)
    (hothers : ∀ s w w', S s → L s w → L s w' → L (move s w).1 w') (hs : S t.shared) (hl : ∀ w ∈ t.locals, L t.shared w)
    (schedule : List Nat) :
    S (runAll move t schedule).shared ∧ ∀ w ∈ (runAll move t schedule).locals, L (runAll move t schedule).shared w := by
  apply runAll_invariant (I := fun t => S t.shared ∧ ∀ w ∈ t.locals, L t.shared w) _ ⟨hs, hl⟩
  rintro t i w ⟨hs, hl⟩ hw
  have hmem : w ∈ t.locals := List.mem_of_getElem? hw
  have hshared : (stepAt move t i).shared = (move t.shared w).1 := by
    unfold stepAt
    rw [hw]
  rw [hshared]
  obtain ⟨hs', hl'⟩ := hown t.shared w hs (hl w hmem)
  refine ⟨hs', ?_⟩
  intro w' hw'
  rcases mem_stepAt hw hw' with rfl | hold
  · exact hl'
  · exact hothers t.shared w w' hs (hl w hmem) (hl w' hold)

/-- A sum over the threads, when one of them changes. -/
theorem sum_map_set (f : ω → Nat) {l : List ω} {i : Nat} {w : ω} (hw : l[i]? = some w) (w' : ω) :
    ((l.set i w').map f).sum + f w = (l.map f).sum + f w' := by
  induction l generalizing i with
  | nil => exact absurd hw (by simp)
  | cons v l ih =>
      cases i with
      | zero =>
          obtain rfl := Option.some.inj hw
          simp only [List.set_cons_zero, List.map_cons, List.sum_cons]
          omega
      | succ i =>
          have := ih (i := i) hw
          simp only [List.set_cons_succ, List.map_cons, List.sum_cons]
          omega

/-- **Threads whose moves make a measure go down come to their end.** -/
theorem exists_schedule {ended : ω → Prop} {μ : Threads σ ω → Nat}
    (hdown : ∀ t i w, t.locals[i]? = some w → ¬ ended w → μ (stepAt move t i) < μ t) (t : Threads σ ω) :
    ∃ schedule, ∀ w ∈ (runAll move t schedule).locals, ended w := by
  by_cases hall : ∀ w ∈ t.locals, ended w
  · exact ⟨[], hall⟩
  · push Not at hall
    obtain ⟨w, hw, hrunning⟩ := hall
    obtain ⟨i, hi⟩ := List.getElem?_of_mem hw
    have := hdown t i w hi hrunning
    obtain ⟨schedule, hended⟩ := exists_schedule hdown (stepAt move t i)
    exact ⟨i :: schedule, hended⟩
termination_by μ t

/-! ### One thread alone -/

/-- The moves of one thread, when no other moves. -/
def Moves (move : σ → ω → σ × ω) : σ × ω → σ × ω → Prop := Relation.ReflTransGen fun p q => move p.1 p.2 = q

theorem Moves.cons {s s' : σ} {w w' : ω} {p : σ × ω} (h : move s w = (s', w')) (hrest : Moves move (s', w') p) :
    Moves move (s, w) p := .head h hrest

/-- **What a thread does alone, it does among the others.** -/
theorem Moves.run {α : Type w} {step : Threads σ ω → α → Threads σ ω → Prop} {a : α} {i : Nat} {w : ω} {p : σ × ω}
    (hstep : ∀ t, step t a (stepAt move t i)) (hw : t.locals[i]? = some w) (h : Moves move (t.shared, w) p) :
    ∃ tr, Run step t tr ⟨p.1, t.locals.set i p.2⟩ := by
  obtain ⟨hi, hget⟩ := List.getElem?_eq_some_iff.mp hw
  induction h with
  | refl =>
      have hsame : t.locals.set i w = t.locals := by
        rw [← hget]
        exact List.set_getElem_self hi
      simp only [hsame]
      exact ⟨[], .refl⟩
  | @tail q p _ hmove ih =>
      obtain ⟨tr, hrun⟩ := ih
      have hq : (t.locals.set i q.2)[i]? = some q.2 := List.getElem?_set_self hi
      have hnext : stepAt move ⟨q.1, t.locals.set i q.2⟩ i = ⟨p.1, t.locals.set i p.2⟩ := by
        unfold stepAt
        simp only [hq, hmove, List.set_set]
      exact ⟨tr ++ [(⟨q.1, t.locals.set i q.2⟩, a)], .tail hrun (hnext ▸ hstep _)⟩

end Threads

end KChatCore.Lib
