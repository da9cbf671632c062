import KChatCore.Lib.Run

/-!
# `Lib.Ledger` — what enters a system stays in it until it leaves

A state holds a list of items. A step takes some in and gives some out, and moves the others about as it likes: **what is
held after it, with what left, is a permutation of what was held before it, with what entered**.

* `Run.balanced` — then the same holds of a whole run;
* `flatMap_set_perm`, `part_moved` — the items of the parts of a state, when one part changes.
-/

namespace KChatCore.Lib

universe u v w

variable {σ : Type u} {α : Type v} {ι : Type w} {step : σ → α → σ → Prop}

/-- **A balanced step gives a balanced run.** -/
theorem Run.balanced {held : σ → List ι} {entered left : σ → α → List ι}
    (hstep : ∀ s a s', step s a s' → (held s' ++ left s a).Perm (held s ++ entered s a)) {s t : σ} {tr : List (σ × α)}
    (hrun : Run step s tr t) :
    (held t ++ tr.flatMap fun p => left p.1 p.2).Perm (held s ++ tr.flatMap fun p => entered p.1 p.2) := by
  induction hrun with
  | refl => simp
  | @tail tr t t' a _ ht ih =>
      simp only [List.flatMap_append, List.flatMap_cons, List.flatMap_nil, List.append_nil]
      -- what left in the last step goes next to what is held, and back behind what left before
      calc List.Perm (held t' ++ (tr.flatMap (fun p => left p.1 p.2) ++ left t a))
            (held t' ++ left t a ++ tr.flatMap fun p => left p.1 p.2) := by
            rw [List.append_assoc]
            exact List.perm_append_comm.append_left (held t')
        List.Perm _ (held t ++ entered t a ++ tr.flatMap fun p => left p.1 p.2) := (hstep t a t' ht).append_right _
        List.Perm _ (held t ++ (tr.flatMap fun p => left p.1 p.2) ++ entered t a) := by
            rw [List.append_assoc, List.append_assoc]
            exact List.perm_append_comm.append_left (held t)
        List.Perm _ (held s ++ (tr.flatMap (fun p => entered p.1 p.2) ++ entered t a)) := by
            rw [← List.append_assoc (held s)]
            exact ih.append_right _

/-- **One part of a state changes.** -/
theorem flatMap_set_perm {ω : Type u} (f : ω → List ι) {l : List ω} {i : Nat} {a : ω} (ha : l[i]? = some a) (b : ω) :
    ((l.set i b).flatMap f ++ f a).Perm (l.flatMap f ++ f b) := by
  induction l generalizing i with
  | nil => exact absurd ha (by simp)
  | cons c l ih =>
      cases i with
      | zero =>
          obtain rfl := Option.some.inj ha
          simp only [List.set_cons_zero, List.flatMap_cons, List.append_assoc]
          exact (List.perm_append_comm.append_left (f b)).trans
            (List.perm_append_comm_assoc (f b) (f c) (l.flatMap f)) |>.trans
            (List.perm_append_comm.append_left (f c))
      | succ i =>
          simp only [List.set_cons_succ, List.flatMap_cons, List.append_assoc]
          exact (ih ha).append_left (f c)

/-- **A step of one part.** What the part held goes between it and what is shared; the other parts stand aside. -/
theorem part_moved {shared shared' parts parts' part part' out : List ι} (hparts : (parts' ++ part).Perm (parts ++ part'))
    (hmove : (shared' ++ part' ++ out).Perm (shared ++ part)) : (shared' ++ parts' ++ out).Perm (shared ++ parts) := by
  simp only [← Multiset.coe_eq_coe, ← Multiset.coe_add] at hparts hmove ⊢
  apply add_right_cancel (b := (part : Multiset ι))
  calc (shared' : Multiset ι) + parts' + out + part
    _ = shared' + out + (parts' + part) := by abel
    _ = shared' + out + (parts + part') := by rw [hparts]
    _ = shared' + part' + out + parts := by abel
    _ = shared + part + parts := by rw [hmove]
    _ = shared + parts + part := by abel

end KChatCore.Lib
