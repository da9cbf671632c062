import Mathlib

/-!
# `Lib.Run` — labelled runs and the invariant rules

A system is a labelled step relation `step : σ → α → σ → Prop`. A `Run` keeps its **trace**: the list of
(state before the step, label) pairs, oldest first. Conditions on a run are conditions on its trace, so
"in every run whose steps all meet `G`" is `∀ p ∈ tr, G p.1 p.2`.

* `Run.invariant` — what one step preserves, a run preserves;
* `Run.invariant_of_guarded` — the same when only guarded steps preserve it;
* `Run.throughout_iff` — an invariant holds all along a run exactly when every step meets an exact guard;
* `Run.split`, `Run.cut` — what comes before a step is a run, and what comes after it;
* `Run.trans` — composition;
* `Run.exists_of_foldl` — where the step is a function, every list of labels runs;
* `Run.of_foldlM` — where it is a partial one, every list of labels that it takes to its end runs.
-/

namespace KChatCore.Lib

universe u v

variable {σ : Type u} {α : Type v} {step : σ → α → σ → Prop}

/-- **A finite run** from `s`, with its trace of (pre-state, label) pairs, oldest first. -/
inductive Run (step : σ → α → σ → Prop) (s : σ) : List (σ × α) → σ → Prop
  | refl : Run step s [] s
  | tail {tr : List (σ × α)} {t t' : σ} {a : α} :
      Run step s tr t → step t a t' → Run step s (tr ++ [(t, a)]) t'

namespace Run

theorem single {s s' : σ} {a : α} (h : step s a s') : Run step s [(s, a)] s' :=
  Run.tail Run.refl h

theorem trans {s t u : σ} {tr tr' : List (σ × α)} (h : Run step s tr t) (h' : Run step t tr' u) :
    Run step s (tr ++ tr') u := by
  induction h' with
  | refl => simpa using h
  | tail _ hstep ih => rw [← List.append_assoc]; exact Run.tail ih hstep

/-- **Invariant rule, guarded.** If every step that meets `G` preserves `I`, then a run whose steps all
meet `G` preserves `I`. -/
theorem invariant_of_guarded {I : σ → Prop} {G : σ → α → Prop}
    (hstep : ∀ s a s', I s → G s a → step s a s' → I s') {s t : σ} {tr : List (σ × α)}
    (hrun : Run step s tr t) (hG : ∀ p ∈ tr, G p.1 p.2) (hs : I s) : I t := by
  induction hrun with
  | refl => exact hs
  | @tail tr t t' a _ ht ih =>
      have hlast : G t a := hG (t, a) (by simp)
      exact hstep t a t' (ih fun p hp => hG p (by simp [hp])) hlast ht

/-- **Invariant rule.** -/
theorem invariant {I : σ → Prop} (hstep : ∀ s a s', I s → step s a s' → I s') {s t : σ}
    {tr : List (σ × α)} (hrun : Run step s tr t) (hs : I s) : I t :=
  hrun.invariant_of_guarded (G := fun _ _ => True) (fun s a s' hI _ h => hstep s a s' hI h)
    (fun _ _ => trivial) hs

/-- The guarded rule, for every state of the run. -/
theorem invariant_throughout {I : σ → Prop} {G : σ → α → Prop} (hstep : ∀ s a s', I s → G s a → step s a s' → I s')
    {s t : σ} {tr : List (σ × α)} (hrun : Run step s tr t) (hG : ∀ p ∈ tr, G p.1 p.2) (hs : I s) :
    (∀ p ∈ tr, I p.1) ∧ I t := by
  induction hrun with
  | refl => exact ⟨fun p hp => absurd hp (by simp), hs⟩
  | @tail tr t t' a hrun ht ih =>
      simp only [List.mem_append, List.mem_singleton, or_imp, forall_and, forall_eq] at hG ⊢
      obtain ⟨hall, hlast⟩ := ih hG.1
      exact ⟨⟨hall, hlast⟩, hstep t a t' hlast hG.2 ht⟩

/-- What the steps from states with `I` preserve holds after a run whose states all had `I`. -/
theorem kept_of_throughout {I J : σ → Prop} (hJ : ∀ s a s', J s → I s → step s a s' → J s') {s t : σ}
    {tr : List (σ × α)} (hrun : Run step s tr t) (hI : ∀ p ∈ tr, I p.1) (hjs : J s) : J t := by
  induction hrun with
  | refl => exact hjs
  | @tail tr t t' a _ ht ih =>
      have hlast : I t := hI (t, a) (by simp)
      exact hJ t a t' (ih fun p hp => hI p (by simp [hp])) hlast ht

/-- **A guard that is exact.** If a step from a state with `I` leads to one with `I` exactly when it meets `G`, then
`I` holds all along a run exactly when all its steps meet `G`; `J` is what every step from a state with `I` preserves. -/
theorem throughout_iff {I J : σ → Prop} {G : σ → α → Prop} (hJ : ∀ s a s', J s → I s → step s a s' → J s')
    (hstep : ∀ s a s', J s → I s → step s a s' → (I s' ↔ G s a)) {s t : σ} {tr : List (σ × α)} (hrun : Run step s tr t)
    (hjs : J s) (hs : I s) : ((∀ p ∈ tr, I p.1) ∧ I t) ↔ ∀ p ∈ tr, G p.1 p.2 := by
  induction hrun with
  | refl => exact ⟨fun _ p hp => absurd hp (by simp), fun _ => ⟨fun p hp => absurd hp (by simp), hs⟩⟩
  | @tail tr t t' a hrun ht ih =>
      simp only [List.mem_append, List.mem_singleton, or_imp, forall_and, forall_eq]
      constructor
      · rintro ⟨⟨hall, hlast⟩, hnext⟩
        have hjt : J t := hrun.kept_of_throughout hJ hall hjs
        exact ⟨ih.mp ⟨hall, hlast⟩, (hstep t a t' hjt hlast ht).mp hnext⟩
      · rintro ⟨hall, hlast⟩
        obtain ⟨hbefore, hnow⟩ := ih.mpr hall
        have hjt : J t := hrun.kept_of_throughout hJ hbefore hjs
        exact ⟨⟨hbefore, hnow⟩, (hstep t a t' hjt hnow ht).mpr hlast⟩

/-- **A run cut at one of its steps**: what comes before it, the step, and what comes after it. -/
theorem cut {s t u : σ} {tr before after : List (σ × α)} {a : α} (hrun : Run step s tr t)
    (h : tr = before ++ (u, a) :: after) : Run step s before u ∧ ∃ u', step u a u' ∧ Run step u' after t := by
  induction hrun generalizing after with
  | refl => exact absurd h (by simp)
  | @tail tr t t' b hrun ht ih =>
      rcases List.eq_nil_or_concat after with rfl | ⟨after, p, rfl⟩
      · obtain ⟨rfl, hlast⟩ := List.append_inj' h rfl
        obtain ⟨rfl, rfl⟩ := Prod.mk.inj (List.singleton_inj.mp hlast)
        exact ⟨hrun, t', ht, .refl⟩
      · rw [List.concat_eq_append, ← List.cons_append, ← List.append_assoc] at h
        obtain ⟨htr, hlast⟩ := List.append_inj' h rfl
        obtain rfl := List.singleton_inj.mp hlast
        obtain ⟨hbefore, u', hstep, hafter⟩ := ih htr
        rw [List.concat_eq_append]
        exact ⟨hbefore, u', hstep, hafter.tail ht⟩

/-- **What comes before a step of a run is a run**, and the step is one. -/
theorem split {s t u : σ} {tr before after : List (σ × α)} {a : α} (hrun : Run step s tr t)
    (h : tr = before ++ (u, a) :: after) : Run step s before u ∧ ∃ u', step u a u' := by
  obtain ⟨hbefore, u', hstep, -⟩ := hrun.cut h
  exact ⟨hbefore, u', hstep⟩

/-- **A list of labels runs** where the step is a function, and the trace shows these labels. -/
theorem exists_of_foldl (f : α → σ → σ) (s : σ) (labels : List α) :
    ∃ tr, tr.map Prod.snd = labels ∧
      Run (fun s a s' => f a s = s') s tr (labels.foldl (fun s a => f a s) s) := by
  induction labels generalizing s with
  | nil => exact ⟨[], rfl, Run.refl⟩
  | cons a labels ih =>
      obtain ⟨tr, hlabels, hrun⟩ := ih (f a s)
      exact ⟨(s, a) :: tr, by simp [hlabels], (Run.single rfl).trans hrun⟩

/-- The trace of a list of labels where the step is a partial function, up to the first that is refused. -/
def traceOf (f : σ → α → Option σ) : σ → List α → List (σ × α)
  | _, [] => []
  | s, a :: labels =>
    match f s a with
    | some s' => (s, a) :: traceOf f s' labels
    | none => []

/-- **Labels none of which is refused run**, along their trace. -/
theorem of_foldlM {f : σ → α → Option σ} {s t : σ} {labels : List α} (h : labels.foldlM f s = some t) :
    Run (fun s a s' => f s a = some s') s (traceOf f s labels) t := by
  induction labels generalizing s with
  | nil =>
      obtain rfl := Option.some.inj h
      exact Run.refl
  | cons a labels ih =>
      rw [List.foldlM_cons] at h
      obtain ⟨s', hs', hrest⟩ := Option.bind_eq_some_iff.mp h
      simp only [traceOf, hs']
      exact (Run.single hs').trans (ih hrest)

end Run

end KChatCore.Lib
