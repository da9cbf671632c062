import Mathlib

/-!
# `Lib.ObjectStore` — a store of objects under keys

An `ObjectStore` is known by its laws: what was put under a key is read back, other keys are left alone, and
a deleted key holds nothing. `ofMap` is the store whose state is the map itself.

* `get_puts` — after any number of writes, a key holds what was last written under it.
-/

namespace KChatCore.Lib

universe u v w

/-- **A faithful store**, over its state `σ`. -/
structure ObjectStore (κ : Type u) (β : Type v) (σ : Type w) where
  put : κ → β → σ → σ
  get : κ → σ → Option β
  delete : κ → σ → σ
  get_put : ∀ k b s, get k (put k b s) = some b
  get_put_of_ne : ∀ {k k'} b s, k' ≠ k → get k' (put k b s) = get k' s
  get_delete : ∀ k s, get k (delete k s) = none
  get_delete_of_ne : ∀ {k k'} s, k' ≠ k → get k' (delete k s) = get k' s

namespace ObjectStore

variable {κ : Type u} {β : Type v} {σ : Type w} (S : ObjectStore κ β σ)

attribute [simp] get_put get_delete

/-- The store whose state is a map. -/
def ofMap (κ : Type u) (β : Type v) [DecidableEq κ] : ObjectStore κ β (κ → Option β) where
  put k b s := Function.update s k (some b)
  get k s := s k
  delete k s := Function.update s k none
  get_put k b s := Function.update_self k (some b) s
  get_put_of_ne b s h := Function.update_of_ne h (some b) s
  get_delete k s := Function.update_self k none s
  get_delete_of_ne s h := Function.update_of_ne h none s

/-- One write after another. -/
def puts (writes : List (κ × β)) (s : σ) : σ := writes.foldl (fun s w => S.put w.1 w.2 s) s

theorem puts_cons (w : κ × β) (writes : List (κ × β)) (s : σ) :
    S.puts (w :: writes) s = S.puts writes (S.put w.1 w.2 s) := by
  simp [puts]

variable [DecidableEq κ]

theorem get_put_eq (k k' : κ) (b : β) (s : σ) :
    S.get k' (S.put k b s) = if k' = k then some b else S.get k' s := by
  by_cases h : k' = k
  · rw [if_pos h, h, get_put]
  · rw [if_neg h, S.get_put_of_ne b s h]

/-- **The last write under a key is what it holds.** -/
theorem get_puts (writes : List (κ × β)) (s : σ) (k : κ) :
    S.get k (S.puts writes s) = ((writes.reverse.find? fun w => w.1 = k).map Prod.snd).or (S.get k s) := by
  induction writes generalizing s with
  | nil => simp [puts]
  | cons w writes ih =>
      rw [puts_cons, ih, get_put_eq, List.reverse_cons, List.find?_append]
      cases writes.reverse.find? fun w => w.1 = k with
      | some w' => simp
      | none =>
          by_cases h : k = w.1
          · simp [h]
          · simp [h, Ne.symm h]

/-- What a key holds after some writes under it is one of them. -/
theorem exists_get_puts {writes : List (κ × β)} {k : κ} {b : β} (h : (k, b) ∈ writes) (s : σ) :
    ∃ b', (k, b') ∈ writes ∧ S.get k (S.puts writes s) = some b' := by
  rw [get_puts]
  cases hf : writes.reverse.find? fun w => w.1 = k with
  | none =>
      rw [List.find?_eq_none] at hf
      have hno := hf (k, b) (List.mem_reverse.mpr h)
      simp at hno
  | some w =>
      have hkey : w.1 = k := by simpa using List.find?_some hf
      refine ⟨w.2, ?_, rfl⟩
      rw [← hkey]
      exact List.mem_reverse.mp (List.mem_of_find?_eq_some hf)

end ObjectStore

end KChatCore.Lib
