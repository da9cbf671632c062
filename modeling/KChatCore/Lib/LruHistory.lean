import KChatCore.Lib.Lru

/-!
# `Lib.LruHistory` — the calls a cache has seen, and what they leave

A cache does not know its history, only the stamps. `lastUse k calls` says from the calls alone when a key was used last,
and `Stamped` ties the two.

* `Sound.run`, `Stamped.run` — what each call keeps.
* `evicts_of_run` — what one call evicts, by the history: the keys used least recently, and no more than needed.
-/

namespace KChatCore.Lib.Lru

universe u v

variable {κ : Type u} {β : Type v} [DecidableEq κ]

/-- **A call** of a cache. -/
inductive Call (κ : Type u) (β : Type v)
  | get (k : κ)
  | put (k : κ) (b : β)
  | evictLru
  | clear

namespace Call

/-- The cache after a call. -/
def run (cost : β → Nat) : Call κ β → Lru κ β → Lru κ β
  | get k, c => (c.get k).2
  | put k b, c => c.put cost k b
  | evictLru, c => c.evictLru
  | clear, c => { c with entries := ∅, bytes := 0 }

/-- The cache that a call leaves to its eviction, or to its `clear`. -/
def filled (cost : β → Nat) : Call κ β → Lru κ β → Lru κ β
  | get k, c => (c.get k).2
  | put k b, c => c.filled cost k b
  | evictLru, c => c
  | clear, c => c

/-- A call that takes a stamp. -/
def stamps : Call κ β → Bool
  | get _ | put _ _ => true
  | evictLru | clear => false

/-- A call that uses a key. -/
def touches (k : κ) : Call κ β → Bool
  | get k' | put k' _ => k' = k
  | evictLru | clear => false

end Call

/-- **When a key was used last**, among calls the newest of which comes first: as the number of stamps up to then. -/
def lastUse (k : κ) : List (Call κ β) → Nat
  | [] => 0
  | a :: older => if a.touches k then older.countP Call.stamps + 1 else lastUse k older

/-- **The stamps tell the history.** -/
structure Stamped (calls : List (Call κ β)) (c : Lru κ β) : Prop where
  tick : c.tick = calls.countP Call.stamps
  lastUsed : ∀ k entry, c.entries.lookup k = some entry → entry.lastUsed = lastUse k calls

section Calls

variable {c : Lru κ β} {cost : β → Nat} {calls : List (Call κ β)} {a : Call κ β} {k : κ} {entry : LruEntry β}

theorem Stamped.empty (maxBytes : Nat) : Stamped ([] : List (Call κ β)) ⟨∅, 0, maxBytes, 0⟩ :=
  ⟨rfl, fun _ _ h => absurd h (by simp)⟩

theorem Sound.run (h : Sound cost c) (a : Call κ β) : Sound cost (a.run cost c) := by
  cases a with
  | get k => exact h.get k
  | put k b => exact (evictLru_spec (h.filled k b)).2
  | evictLru => exact (evictLru_spec h).2
  | clear =>
      have hnone : ∀ k entry, ¬ (Call.clear.run cost c).entries.lookup k = some entry := by
        intro k entry hentry
        exact absurd ((AList.lookup_empty k).symm.trans hentry) (by simp)
      exact ⟨fun k entry h' => absurd h' (hnone k entry), rfl, fun k entry h' => absurd h' (hnone k entry),
        fun k _ entry _ h' => absurd h' (hnone k entry)⟩

/-- **What is held after a call was held before it**, or is what it put; a key that was used has the newest stamp. -/
theorem lookup_filled (hentry : (a.filled cost c).entries.lookup k = some entry) :
    (a.touches k = true ∧ entry.lastUsed = c.tick + 1 ∨
      a.touches k = false ∧ c.entries.lookup k = some entry) ∧
    ((∃ b, a = .put k b ∧ entry.value = b) ∨
      (∀ b, a ≠ .put k b) ∧ ∃ old, c.entries.lookup k = some old ∧ old.value = entry.value) := by
  cases a with
  | get k' =>
      have hget : ∀ b : β, Call.get k' ≠ .put k b := by simp
      have hentry : (c.get k').2.entries.lookup k = some entry := hentry
      unfold Lru.get at hentry
      -- a miss stamps nothing
      cases hold : c.entries.lookup k' with
      | none =>
          rw [hold] at hentry
          have hne : k' ≠ k := by
            rintro rfl
            exact absurd (hold.symm.trans hentry) (by simp)
          exact ⟨.inr ⟨decide_eq_false hne, hentry⟩, .inr ⟨hget, entry, hentry, rfl⟩⟩
      | some old =>
          rw [hold] at hentry
          by_cases hk : k' = k
          · subst hk
            dsimp only at hentry
            rw [AList.lookup_insert] at hentry
            obtain rfl := Option.some.inj hentry
            exact ⟨.inl ⟨decide_eq_true rfl, rfl⟩, .inr ⟨hget, old, hold, rfl⟩⟩
          · dsimp only at hentry
            rw [AList.lookup_insert_ne (Ne.symm hk)] at hentry
            exact ⟨.inr ⟨decide_eq_false hk, hentry⟩, .inr ⟨hget, entry, hentry, rfl⟩⟩
  | put k' b =>
      have hentry : (c.filled cost k' b).entries.lookup k = some entry := hentry
      -- the new value is filed before anything is evicted
      rw [filled_entries] at hentry
      by_cases hk : k' = k
      · subst hk
        rw [AList.lookup_insert] at hentry
        obtain rfl := Option.some.inj hentry
        exact ⟨.inl ⟨decide_eq_true rfl, rfl⟩, .inl ⟨b, rfl, rfl⟩⟩
      · rw [AList.lookup_insert_ne (Ne.symm hk)] at hentry
        refine ⟨.inr ⟨decide_eq_false hk, hentry⟩, .inr ⟨fun b' h => ?_, entry, hentry, rfl⟩⟩
        injection h with hkey
        exact hk hkey
  | evictLru => exact ⟨.inr ⟨rfl, hentry⟩, .inr ⟨by simp, entry, hentry, rfl⟩⟩
  | clear => exact ⟨.inr ⟨rfl, hentry⟩, .inr ⟨by simp, entry, hentry, rfl⟩⟩

/-- What was held is still there before the eviction. -/
theorem exists_filled (hentry : c.entries.lookup k = some entry) :
    ∃ entry', (a.filled cost c).entries.lookup k = some entry' := by
  cases a with
  | get k' =>
      show ∃ entry', (c.get k').2.entries.lookup k = some entry'
      unfold Lru.get
      cases hold : c.entries.lookup k' with
      | none => exact ⟨entry, hentry⟩
      | some old =>
          by_cases hk : k = k'
          · subst hk
            exact ⟨_, AList.lookup_insert _⟩
          · exact ⟨entry, (AList.lookup_insert_ne hk).trans hentry⟩
  | put k' b =>
      show ∃ entry', (c.filled cost k' b).entries.lookup k = some entry'
      rw [filled_entries]
      by_cases hk : k = k'
      · subst hk
        exact ⟨_, AList.lookup_insert _⟩
      · exact ⟨entry, (AList.lookup_insert_ne hk).trans hentry⟩
  | evictLru => exact ⟨entry, hentry⟩
  | clear => exact ⟨entry, hentry⟩

theorem filled_maxBytes : (a.filled cost c).maxBytes = c.maxBytes := by
  cases a with
  | get k =>
      show (c.get k).2.maxBytes = c.maxBytes
      unfold Lru.get
      split <;> rfl
  | put k b => exact drop_maxBytes c k
  | evictLru => rfl
  | clear => rfl

theorem filled_tick : (a.filled cost c).tick = if a.stamps then c.tick + 1 else c.tick := by
  cases a with
  | get k =>
      show (c.get k).2.tick = c.tick + 1
      unfold Lru.get
      split <;> rfl
  | put k b => rfl
  | evictLru => rfl
  | clear => rfl

theorem Stamped.ofFilled (h : Stamped calls c) : Stamped (a :: calls) (a.filled cost c) := by
  constructor
  · rw [filled_tick, h.tick, List.countP_cons]
    split_ifs <;> rfl
  · intro k entry hentry
    rcases (lookup_filled hentry).1 with ⟨htouch, hstamp⟩ | ⟨htouch, hold⟩
    · rw [hstamp, lastUse, if_pos htouch, h.tick]
    · rw [h.lastUsed k entry hold, lastUse, if_neg (by simp [htouch])]

/-- A call erases some keys of the cache it fills, and changes nothing else of it. -/
theorem lookup_run (h : Sound cost c) (hentry : (a.run cost c).entries.lookup k = some entry) :
    (a.filled cost c).entries.lookup k = some entry := by
  have hevict : ∀ {c : Lru κ β}, Sound cost c → c.evictLru.entries.lookup k = some entry → c.entries.lookup k = some entry := by
    intro c h hentry
    obtain ⟨gone, hevicts⟩ := (evictLru_spec h).1
    rw [hevicts.lookup] at hentry
    split_ifs at hentry
    exact hentry
  cases a with
  | get k' => exact hentry
  | put k' b => exact hevict (h.filled k' b) hentry
  | evictLru => exact hevict h hentry
  | clear => exact absurd hentry (by simp [Call.run])

theorem run_tick (h : Sound cost c) : (a.run cost c).tick = (a.filled cost c).tick := by
  cases a with
  | get k => rfl
  | put k b =>
      obtain ⟨gone, hevicts⟩ := (evictLru_spec (h.filled k b)).1
      exact hevicts.tick
  | evictLru =>
      obtain ⟨gone, hevicts⟩ := (evictLru_spec h).1
      exact hevicts.tick
  | clear => rfl

theorem run_maxBytes (h : Sound cost c) : (a.run cost c).maxBytes = c.maxBytes := by
  cases a with
  | get k => exact @filled_maxBytes κ β _ c cost (.get k)
  | put k b =>
      obtain ⟨gone, hevicts⟩ := (evictLru_spec (h.filled k b)).1
      exact hevicts.maxBytes.trans (filled_maxBytes (a := .put k b))
  | evictLru =>
      obtain ⟨gone, hevicts⟩ := (evictLru_spec h).1
      exact hevicts.maxBytes
  | clear => rfl

theorem Stamped.run (h : Stamped calls c) (hsound : Sound cost c) : Stamped (a :: calls) (a.run cost c) := by
  have hfilled : Stamped (a :: calls) (a.filled cost c) := h.ofFilled
  constructor
  · rw [run_tick hsound]
    exact hfilled.tick
  · intro k entry hentry
    exact hfilled.lastUsed k entry (lookup_run hsound hentry)

/-! ## What a call evicts -/

/-- A key that the call found, or put, and did not leave. -/
def Removed (c₁ c' : Lru κ β) (k : κ) : Prop :=
  (∃ entry, c₁.entries.lookup k = some entry) ∧ c'.entries.lookup k = none

/-- **An eviction, by the history**: whatever is removed was used before all that is left, and without it what was used no
earlier is more than the budget. -/
structure EvictsByUse (cost : β → Nat) (calls : List (Call κ β)) (c₁ c' : Lru κ β) : Prop where
  leastRecent : ∀ k, Removed c₁ c' k → ∀ k' entry', c'.entries.lookup k' = some entry' → lastUse k calls < lastUse k' calls
  needed : ∀ k, Removed c₁ c' k →
    c₁.maxBytes < total (fun k' entry' => if lastUse k calls ≤ lastUse k' calls then cost entry'.value else 0) c₁.entries

theorem Evicts.byUse {c₁ c' : Lru κ β} {gone : List κ} (h : Evicts cost c₁ gone c') (hstamped : Stamped calls c₁) :
    EvictsByUse cost calls c₁ c' := by
  have hgone : ∀ k, Removed c₁ c' k → k ∈ gone := by
    rintro k ⟨⟨entry, hentry⟩, hnone⟩
    rw [h.lookup] at hnone
    by_contra hk
    rw [if_neg hk, hentry] at hnone
    exact absurd hnone (by simp)
  constructor
  · intro k hk k' entry' hentry'
    obtain ⟨entry, hentry⟩ := hk.1
    rw [h.lookup] at hentry'
    split_ifs at hentry' with hk'
    rw [← hstamped.lastUsed k entry hentry, ← hstamped.lastUsed k' entry' hentry']
    exact h.oldest k (hgone k hk) k' hk' entry entry' hentry hentry'
  · intro k hk
    obtain ⟨entry, hentry⟩ := hk.1
    refine (h.needed k (hgone k hk) entry hentry).trans_le (le_of_eq ?_)
    refine total_congr fun k' entry' hentry' => ?_
    rw [hstamped.lastUsed k entry hentry, hstamped.lastUsed k' entry' hentry']

/-- **What one call evicts**; a `clear` evicts nothing. -/
theorem evicts_of_run (h : Sound cost c) (hstamped : Stamped calls c) (hclear : a ≠ .clear) :
    EvictsByUse cost (a :: calls) (a.filled cost c) (a.run cost c) ∧
      ((∃ k b, a = .put k b) → (a.run cost c).bytes ≤ (a.run cost c).maxBytes) := by
  have hfilled : Stamped (a :: calls) (a.filled cost c) := hstamped.ofFilled
  cases a with
  | get k =>
      have hnone : ∀ k', ¬ Removed ((Call.get k).filled cost c) ((Call.get k).run cost c) k' := by
        rintro k' ⟨⟨entry, hentry⟩, hnone⟩
        exact absurd (hentry.symm.trans hnone) (by simp)
      exact ⟨⟨fun k' hk' => absurd hk' (hnone k'), fun k' hk' => absurd hk' (hnone k')⟩, by simp⟩
  | put k b =>
      obtain ⟨gone, hevicts⟩ := (evictLru_spec (h.filled k b)).1
      refine ⟨hevicts.byUse hfilled, fun _ => ?_⟩
      exact hevicts.fits.trans hevicts.maxBytes.ge
  | evictLru =>
      obtain ⟨gone, hevicts⟩ := (evictLru_spec h).1
      exact ⟨hevicts.byUse hfilled, by simp⟩
  | clear => exact absurd rfl hclear

end Calls

end KChatCore.Lib.Lru
