import Mathlib

/-!
# `Lib.LastWriter` — a register that keeps the newest write

A write carries a stamp and replaces what is there unless that is strictly newer. Writes with distinct stamps commute; of
writes with the same stamp the last one wins.

* `stamp_writeAll` — the stamp that is left is the greatest.
* `value_writeAll` — the value that is left is that of the last write with this stamp.
* `writeAll_eq_of_perm` — so the order matters at most among the writes with the greatest stamp.
-/

namespace KChatCore.Lib

universe u v

/-- **A value and the stamp of its write.** -/
structure Register (α : Type u) (κ : Type v) where
  value : Option α
  stamp : κ
deriving DecidableEq

namespace Register

variable {α : Type u} {κ : Type v} [LinearOrder κ]

/-- A write that does not replace anything newer. -/
def write (r : Register α κ) (w : α × κ) : Register α κ := if r.stamp ≤ w.2 then ⟨some w.1, w.2⟩ else r

/-- One write after the other. -/
def writeAll (r : Register α κ) (ws : List (α × κ)) : Register α κ := ws.foldl write r

variable {r : Register α κ} {ws ws' : List (α × κ)}

@[simp] theorem writeAll_nil : r.writeAll [] = r := rfl

@[simp] theorem writeAll_cons (w : α × κ) : r.writeAll (w :: ws) = (r.write w).writeAll ws := rfl

theorem writeAll_concat (w : α × κ) : r.writeAll (ws ++ [w]) = (r.writeAll ws).write w := by
  unfold writeAll
  rw [List.foldl_append]
  rfl

theorem stamp_write (w : α × κ) : (r.write w).stamp = max r.stamp w.2 := by
  unfold write
  by_cases h : r.stamp ≤ w.2
  · rw [if_pos h, max_eq_right h]
  · rw [if_neg h, max_eq_left (not_le.mp h).le]

/-- **The stamp is the greatest.** -/
theorem stamp_writeAll : (r.writeAll ws).stamp = (ws.map Prod.snd).foldl max r.stamp := by
  induction ws generalizing r with
  | nil => rfl
  | cons w ws ih => rw [writeAll_cons, ih, stamp_write, List.map_cons, List.foldl_cons]

/-- The writes that carry a stamp, in their order. -/
def stamped (t : κ) (ws : List (α × κ)) : List α := (ws.filter fun w => w.2 = t).map Prod.fst

/-- **The value is that of the last write with the greatest stamp.** -/
theorem value_writeAll : (r.writeAll ws).value = (stamped (r.writeAll ws).stamp ws).getLast?.or r.value := by
  induction ws using List.reverseRecOn with
  | nil => rfl
  | append_singleton ws w ih =>
      rw [writeAll_concat]
      unfold write
      by_cases hnewer : (r.writeAll ws).stamp ≤ w.2
      · -- the write lands, and is the last with its stamp
        rw [if_pos hnewer]
        simp [stamped]
      · rw [if_neg hnewer, ih]
        have hother : ¬ w.2 = (r.writeAll ws).stamp := fun heq => hnewer heq.ge
        simp [stamped, hother]

/-- **The order matters at most among the writes with the greatest stamp.** -/
theorem writeAll_eq_of_perm (hperm : ws'.Perm ws)
    (hsame : stamped (r.writeAll ws).stamp ws' = stamped (r.writeAll ws).stamp ws) :
    r.writeAll ws' = r.writeAll ws := by
  have hstamp : (r.writeAll ws').stamp = (r.writeAll ws).stamp := by
    rw [stamp_writeAll, stamp_writeAll]
    exact (hperm.map Prod.snd).foldl_eq r.stamp
  have hvalue : (r.writeAll ws').value = (r.writeAll ws).value := by
    rw [value_writeAll, value_writeAll, hstamp, hsame]
  cases h : r.writeAll ws'
  cases h' : r.writeAll ws
  rw [h, h'] at hstamp hvalue
  rw [Register.mk.injEq]
  exact ⟨hvalue, hstamp⟩

/-- Where one write at most has the greatest stamp, the order does not matter. -/
theorem stamped_eq_of_perm {t : κ} (hperm : ws'.Perm ws) (hone : (stamped t ws).length ≤ 1) :
    stamped t ws' = stamped t ws := by
  have hstamped : (stamped t ws').Perm (stamped t ws) := (hperm.filter _).map _
  match hws : stamped t ws with
  | [] => rw [hws] at hstamped; exact hstamped.eq_nil
  | [v] => rw [hws] at hstamped; exact List.perm_singleton.mp hstamped
  | v :: v' :: vs =>
      rw [hws] at hone
      exact absurd hone (by simp)

end Register

end KChatCore.Lib
