import KChatCore.Lib.Run
import KChatCore.Lib.Threads

/-!
# `Lib.Progress` — runs that come to an end

A system that is never stuck can be run to its end from wherever a run has left it.

* `Run.exists_ended` — where every state that has not ended has a step that makes a measure go down, there is a run to an
  end;
* `countP_set_add`, `sum_map_set_lt` — counts and measures over the parts of a state, when one part changes.
-/

namespace KChatCore.Lib

universe u v w

variable {σ : Type u} {α : Type v} {ω : Type w} {step : σ → α → σ → Prop}

/-- **A run to the end.** The steps it takes are of the kind `G`, such as those that admit nothing new. -/
theorem Run.exists_ended {I E : σ → Prop} {G : α → Prop} {μ : σ → ℕ}
    (hdown : ∀ s, I s → ¬ E s → ∃ a s', G a ∧ step s a s' ∧ I s' ∧ μ s' < μ s) {s : σ} (h : I s) :
    ∃ tr t, Run step s tr t ∧ (∀ p ∈ tr, G p.2) ∧ I t ∧ E t := by
  induction hn : μ s using Nat.strong_induction_on generalizing s with
  | _ n ih =>
      by_cases hended : E s
      · exact ⟨[], s, .refl, by simp, h, hended⟩
      · obtain ⟨a, s', hG, hstep, hs', hlt⟩ := hdown s h hended
        obtain ⟨tr, t, hrun, hall, ht, hended⟩ := ih (μ s') (hn ▸ hlt) hs' rfl
        exact ⟨(s, a) :: tr, t, (Run.single hstep).trans hrun, by simpa [hG] using hall, ht, hended⟩

/-- A count over the parts of a state, when one part changes. -/
theorem countP_set_add (p : ω → Bool) {l : List ω} {i : ℕ} {a : ω} (ha : l[i]? = some a) (b : ω) :
    (l.set i b).countP p + (if p a then 1 else 0) = l.countP p + if p b then 1 else 0 := by
  induction l generalizing i with
  | nil => exact absurd ha (by simp)
  | cons c l ih =>
      cases i with
      | zero =>
          obtain rfl := Option.some.inj ha
          simp only [List.set_cons_zero, List.countP_cons]
          omega
      | succ i =>
          have := ih (i := i) ha
          simp only [List.set_cons_succ, List.countP_cons]
          omega

/-- A measure over the parts of a state, when one part goes down. -/
theorem sum_map_set_lt {f : ω → ℕ} {l : List ω} {i : ℕ} {a b : ω} (ha : l[i]? = some a) (hlt : f b < f a) :
    ((l.set i b).map f).sum < (l.map f).sum := by
  have := Threads.sum_map_set f ha b
  omega

end KChatCore.Lib
