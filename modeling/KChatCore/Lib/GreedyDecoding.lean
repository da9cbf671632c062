import Mathlib.Data.List.Induction
import Mathlib.Order.BoundedOrder.Basic
import Mathlib.Order.Lattice

/-!
# `Lib.GreedyDecoding` — the first of the greatest, again and again

A scan over a list keeps the best element so far and gives it up for a strictly better one only; it starts below
everything. A generator asks for the next token of what it has, appends it and asks again, until the stop token comes or
its budget is used.

* `foldl_keepBest` — the scan ends with the first of the greatest.
* `generate_eq_ok` — what a generator returns: every token is the answer to all before it.
-/

namespace KChatCore.Lib

universe u v

/-! ## The scan -/

section Scan

variable {ι : Type u} {κ : Type u} {β : Type v} [LinearOrder β] (mark : ι → κ) (value : ι → β)

/-- One element of the scan. -/
def keepBest (best : κ × β) (i : ι) : κ × β := if best.2 < value i then (mark i, value i) else best

/-- **The first of the greatest**: nothing before it reaches its value, nothing after it goes beyond. -/
def FirstMax (l : List ι) (i : ι) : Prop :=
  ∃ l₁ l₂, l = l₁ ++ i :: l₂ ∧ (∀ a ∈ l₁, value a < value i) ∧ ∀ a ∈ l₂, value a ≤ value i

variable {mark value}

theorem FirstMax.mem {l : List ι} {i : ι} (h : FirstMax value l i) : i ∈ l := by
  obtain ⟨l₁, l₂, rfl, -⟩ := h
  simp

theorem FirstMax.le {l : List ι} {i a : ι} (h : FirstMax value l i) (ha : a ∈ l) : value a ≤ value i := by
  obtain ⟨l₁, l₂, rfl, hbefore, hafter⟩ := h
  rcases List.mem_append.mp ha with ha | ha
  · exact (hbefore a ha).le
  · rcases List.mem_cons.mp ha with rfl | ha
    · exact le_rfl
    · exact hafter a ha

variable [OrderBot β] (mark value)

/-- **The scan ends with the first of the greatest**, or where it began if nothing is above the bottom. -/
theorem foldl_keepBest (start : κ) (l : List ι) :
    (l.foldl (keepBest mark value) (start, ⊥) = (start, ⊥) ∧ ∀ a ∈ l, value a = ⊥) ∨
      ∃ i, FirstMax value l i ∧ ⊥ < value i ∧ l.foldl (keepBest mark value) (start, ⊥) = (mark i, value i) := by
  induction l using List.reverseRecOn with
  | nil => exact .inl ⟨rfl, by simp⟩
  | append_singleton l a ih =>
      rw [List.foldl_append, List.foldl_cons, List.foldl_nil]
      obtain ⟨hfold, hbot⟩ | ⟨i, hfirst, hi, hfold⟩ := ih
      · rw [hfold]
        by_cases ha : ⊥ < value a
        · refine .inr ⟨a, ⟨l, [], rfl, fun b hb => by rwa [hbot b hb], by simp⟩, ha, if_pos ha⟩
        · refine .inl ⟨if_neg ha, fun b hb => ?_⟩
          rcases List.mem_append.mp hb with hb | hb
          · exact hbot b hb
          · obtain rfl := List.mem_singleton.mp hb
            exact not_bot_lt_iff.mp ha
      · rw [hfold]
        by_cases ha : value i < value a
        · exact .inr ⟨a, ⟨l, [], rfl, fun b hb => (hfirst.le hb).trans_lt ha, by simp⟩, bot_le.trans_lt ha, if_pos ha⟩
        · obtain ⟨l₁, l₂, rfl, hbefore, hafter⟩ := hfirst
          refine .inr ⟨i, ⟨l₁, l₂ ++ [a], by simp, hbefore, fun b hb => ?_⟩, hi, if_neg ha⟩
          rcases List.mem_append.mp hb with hb | hb
          · exact hafter b hb
          · obtain rfl := List.mem_singleton.mp hb
            exact not_lt.mp ha

end Scan

/-! ## The generator -/

section Generate

variable {τ ε : Type u} [DecidableEq τ] (next : List τ → Except ε τ) (stop : τ)

/-- **Ask, append, ask again**: what has been emitted when the stop token comes or the budget is used. -/
def generate : ℕ → List τ → List τ → Except ε (List τ)
  | 0, _, emitted => .ok emitted
  | budget + 1, asked, emitted => do
      let t ← next asked
      if t = stop then .ok emitted else generate budget (asked ++ [t]) (emitted ++ [t])

/-- **What a generator may return** from `asked` on. -/
structure Generates (budget : ℕ) (asked out : List τ) : Prop where
  length_le : out.length ≤ budget
  /-- Every token is the answer to all before it. -/
  chosen : ∀ k t, out[k]? = some t → next (asked ++ out.take k) = .ok t
  goes_on : stop ∉ out
  ended : out.length = budget ∨ next (asked ++ out) = .ok stop

variable {next stop} {budget : ℕ} {asked out emitted r : List τ} {t : τ}

omit [DecidableEq τ] in
theorem generates_cons (ht : next asked = .ok t) (hstop : t ≠ stop) :
    Generates next stop (budget + 1) asked (t :: out) ↔ Generates next stop budget (asked ++ [t]) out := by
  constructor
  · intro h
    refine ⟨Nat.succ_le_succ_iff.mp h.length_le, fun k t' hk => ?_, fun hmem => h.goes_on (.tail _ hmem), ?_⟩
    · simpa using h.chosen (k + 1) t' (by simpa using hk)
    · exact h.ended.imp Nat.succ.inj (by simp)
  · intro h
    refine ⟨Nat.succ_le_succ h.length_le, fun k t' hk => ?_, ?_, ?_⟩
    · cases k with
      | zero =>
          obtain rfl : t = t' := by simpa using hk
          simpa using ht
      | succ k => simpa using h.chosen k t' (by simpa using hk)
    · rw [List.mem_cons, not_or]
      exact ⟨hstop.symm, h.goes_on⟩
    · exact h.ended.imp (congrArg (· + 1)) (by simp)

/-- **What a generator returns.** -/
theorem generate_eq_ok :
    generate next stop budget asked emitted = .ok r ↔ ∃ out, r = emitted ++ out ∧ Generates next stop budget asked out := by
  induction budget generalizing asked emitted with
  | zero =>
      constructor
      · intro h
        obtain rfl := Except.ok.inj h
        exact ⟨[], by simp, ⟨Nat.le_refl 0, by simp, by simp, .inl rfl⟩⟩
      · rintro ⟨out, rfl, h⟩
        rw [List.length_eq_zero_iff.mp (Nat.le_zero.mp h.length_le), List.append_nil]
        rfl
  | succ budget ih =>
      have hfirst : ∀ out, Generates next stop (budget + 1) asked out →
          (out = [] ∧ next asked = .ok stop) ∨ ∃ t out', out = t :: out' ∧ next asked = .ok t ∧ t ≠ stop := by
        intro out h
        cases out with
        | nil => exact .inl ⟨rfl, by simpa using h.ended⟩
        | cons t out' =>
            exact .inr ⟨t, out', rfl, by simpa using h.chosen 0 t rfl, fun heq => h.goes_on (heq ▸ .head _)⟩
      rw [generate]
      cases hnext : next asked with
      | error e =>
          refine iff_of_false (by rintro ⟨⟩) ?_
          rintro ⟨out, -, h⟩
          obtain ⟨-, hok⟩ | ⟨_, _, -, hok, -⟩ := hfirst out h <;> exact absurd hok (by simp [hnext])
      | ok t =>
          by_cases hstop : t = stop
          · subst hstop
            simp only [bind, Except.bind, if_true, Except.ok.injEq]
            constructor
            · rintro rfl
              exact ⟨[], by simp, ⟨Nat.zero_le _, by simp, by simp, .inr (by simpa using hnext)⟩⟩
            · rintro ⟨out, rfl, h⟩
              obtain ⟨rfl, -⟩ | ⟨t', _, -, hok, hne⟩ := hfirst out h
              · simp
              · exact absurd (Except.ok.inj (hok.symm.trans hnext)) hne
          · simp only [bind, Except.bind, if_neg hstop]
            rw [ih]
            constructor
            · rintro ⟨out, rfl, h⟩
              exact ⟨t :: out, by simp, (generates_cons hnext hstop).mpr h⟩
            · rintro ⟨out, rfl, h⟩
              obtain ⟨-, hok⟩ | ⟨t', out', rfl, hok, -⟩ := hfirst out h
              · exact absurd (Except.ok.inj (hnext.symm.trans hok)) hstop
              · obtain rfl : t' = t := Except.ok.inj (hok.symm.trans hnext)
                exact ⟨out', by simp, (generates_cons hnext hstop).mp h⟩

end Generate

end KChatCore.Lib
