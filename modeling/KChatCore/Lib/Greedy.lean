import Mathlib

/-!
# `Lib.Greedy` — taking elements off a list until they add up to a target

`takeUntil size cap target acc l` is the loop that takes elements one after the other and stops as soon as the sum so
far reaches the target; the sum saturates at `cap`.

* `takeUntil_initial` — it takes a prefix of the list;
* `takeUntil_total` — what it adds up to;
* `takeUntil_reaches` — it stops at the target or at the end;
* `takeUntil_minimal` — the last element it took was needed.
-/

namespace KChatCore.Lib

universe u

variable {α : Type u}

/-- **Elements until the target is reached**, and their sum on top of `acc`. -/
def takeUntil (size : α → Nat) (cap target : Nat) : Nat → List α → List α × Nat
  | acc, [] => ([], acc)
  | acc, a :: l =>
      if target ≤ acc then ([], acc)
      else
        let rest := takeUntil size cap target (min cap (acc + size a)) l
        (a :: rest.1, rest.2)

section TakeUntil

variable {size : α → Nat} {cap target : Nat}

theorem takeUntil_initial (acc : Nat) (l : List α) : (takeUntil size cap target acc l).1 <+: l := by
  induction l generalizing acc with
  | nil => exact List.prefix_rfl
  | cons a l ih =>
      unfold takeUntil
      split_ifs
      · exact List.nil_prefix
      · exact List.prefix_cons_inj a |>.mpr (ih _)

theorem takeUntil_total {acc : Nat} (hacc : acc ≤ cap) (l : List α) :
    (takeUntil size cap target acc l).2 = min cap (acc + ((takeUntil size cap target acc l).1.map size).sum) := by
  induction l generalizing acc with
  | nil => simp [takeUntil, hacc]
  | cons a l ih =>
      unfold takeUntil
      split_ifs
      · simp [hacc]
      · simp only [List.map_cons, List.sum_cons]
        rw [ih (Nat.min_le_left _ _)]
        omega

/-- The loop stops at the target, or at the end of the list. -/
theorem takeUntil_reaches (acc : Nat) (l : List α) :
    target ≤ (takeUntil size cap target acc l).2 ∨ (takeUntil size cap target acc l).1 = l := by
  induction l generalizing acc with
  | nil => exact .inr rfl
  | cons a l ih =>
      unfold takeUntil
      split_ifs with hreached
      · exact .inl hreached
      · rcases ih (min cap (acc + size a)) with h | h
        · exact .inl h
        · exact .inr (congrArg (a :: ·) h)

/-- **The last element was needed**: without it the sum is below the target. -/
theorem takeUntil_minimal (htarget : target ≤ cap) {acc : Nat} {l init : List α} {last : α}
    (h : (takeUntil size cap target acc l).1 = init ++ [last]) : acc + (init.map size).sum < target := by
  induction l generalizing acc init with
  | nil => simp [takeUntil] at h
  | cons a l ih =>
      unfold takeUntil at h
      split_ifs at h with hreached
      · simp at h
      · cases init with
        | nil => simpa using hreached
        | cons b init =>
            rw [List.cons_append, List.cons.injEq] at h
            obtain ⟨rfl, h⟩ := h
            have hrest := ih h
            simp only [List.map_cons, List.sum_cons]
            omega

end TakeUntil

end KChatCore.Lib
