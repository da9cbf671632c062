import Mathlib

/-!
# `Lib.Retry` — an operation tried again while its result says so

`retry` runs an operation on a state, and runs it again, after something in between, as long as the result asks for it and
attempts are left. `Retried` is the part of the run whose results are thrown away.

* `retry_spec` — the result is that of one more run after some retried ones.
* `retry_of_retried` — and every run that ends without asking is found.
-/

namespace KChatCore.Lib

universe u v

variable {σ : Type u} {β : Type v} (op : σ → β × σ) (again : β → Bool) (between : ℕ → σ → σ)

/-- The attempts from number `attempt` on, of which at most `more` follow the first. -/
def retry (attempt : ℕ) : ℕ → σ → β × σ
  | 0, s => op s
  | more + 1, s =>
      match op s with
      | (result, s) => if again result then retry (attempt + 1) more (between attempt s) else (result, s)

/-- `k` attempts whose results all ask for another one. -/
inductive Retried : ℕ → σ → ℕ → σ → Prop
  | none (attempt : ℕ) (s : σ) : Retried attempt s 0 s
  | again {attempt k : ℕ} {s t : σ} (hagain : again (op s).1 = true)
      (hrest : Retried (attempt + 1) (between attempt (op s).2) k t) : Retried attempt s (k + 1) t

variable {op again between}

/-- **The result is that of the last attempt**, and asks for no other one unless there is none left. -/
theorem retry_spec (op : σ → β × σ) (again : β → Bool) (between : ℕ → σ → σ) (attempt more : ℕ) (s : σ) : ∃ k t, k ≤ more ∧ Retried op again between attempt s k t ∧
    retry op again between attempt more s = op t ∧ (again (op t).1 = true → k = more) := by
  induction more generalizing attempt s with
  | zero => exact ⟨0, s, Nat.le_refl 0, .none attempt s, rfl, fun _ => rfl⟩
  | succ more ih =>
      cases hagain : again (op s).1 with
      | false =>
          refine ⟨0, s, Nat.zero_le _, .none attempt s, ?_, fun h => absurd h (by simp [hagain])⟩
          simp [retry, hagain]
      | true =>
          obtain ⟨k, t, hk, hretried, heq, hlast⟩ := ih (attempt + 1) (between attempt (op s).2)
          refine ⟨k + 1, t, Nat.succ_le_succ hk, .again hagain hretried, ?_, fun h => congrArg (· + 1) (hlast h)⟩
          rw [← heq]
          simp [retry, hagain]

/-- **A run that asks for no more attempts is the run.** -/
theorem retry_of_retried {attempt k : ℕ} (more : ℕ) {s t : σ} (h : Retried op again between attempt s k t) (hk : k ≤ more)
    (hdone : again (op t).1 = false) : retry op again between attempt more s = op t := by
  induction h generalizing more with
  | none attempt s =>
      cases more with
      | zero => rfl
      | succ more => simp [retry, hdone]
  | again hagain hrest ih =>
      obtain ⟨more, rfl⟩ : ∃ m, more = m + 1 := ⟨more - 1, by omega⟩
      rw [← ih more (Nat.le_of_succ_le_succ hk) hdone]
      simp [retry, hagain]

end KChatCore.Lib
