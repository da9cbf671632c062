import KChatCore.Lib.Weighted

/-!
# `Lib.Lru` — a cache with a budget that evicts what was used least recently

Every `get` and `put` stamps the entry it touches. A `put` that takes the cache over its budget erases entries, the oldest
stamp first, until it is under it again.

* `Holds P` — what a cache holds can only come from a `put`: every entry satisfies `P`, and each operation keeps it.
* `Sound cost` — the costs are counted, and no two entries have one stamp; each operation keeps it.
* `evictLru_spec` — what an eviction erases: the entries of the oldest stamps, and no more than the budget asks for.
-/

namespace KChatCore.Lib

universe u v

/-- A value with its cost and the stamp of its last use. -/
structure LruEntry (β : Type v) where
  value : β
  bytes : Nat
  lastUsed : Nat

/-- **The cache.** -/
structure Lru (κ : Type u) (β : Type v) [DecidableEq κ] where
  entries : AList fun _ : κ => LruEntry β
  bytes : Nat
  maxBytes : Nat
  tick : Nat

namespace Lru

variable {κ : Type u} {β : Type v} [DecidableEq κ]

/-- Look a key up, and stamp its entry. -/
def get (c : Lru κ β) (k : κ) : Option β × Lru κ β :=
  match c.entries.lookup k with
  | none => (none, { c with tick := c.tick + 1 })
  | some entry =>
      (some entry.value,
        { c with
          tick := c.tick + 1
          entries := c.entries.insert k { entry with lastUsed := c.tick + 1 } })

/-- Erase a key and give its cost back. -/
def drop (c : Lru κ β) (k : κ) : Lru κ β :=
  match c.entries.lookup k with
  | none => c
  | some entry => { c with entries := c.entries.erase k, bytes := c.bytes - entry.bytes }

/-- The keys, by the stamp of their entry. -/
def byAge (c : Lru κ β) : List κ :=
  (c.entries.entries.mergeSort fun a b => decide (a.2.lastUsed ≤ b.2.lastUsed)).map Sigma.fst

/-- Erase entries, oldest first, while over the budget. -/
def evictLru (c : Lru κ β) : Lru κ β := c.byAge.foldl (fun c k => if c.bytes ≤ c.maxBytes then c else c.drop k) c

/-- Insert or overwrite an entry of cost `cost`. -/
def put (cost : β → Nat) (c : Lru κ β) (k : κ) (b : β) : Lru κ β :=
  let dropped := c.drop k
  evictLru
    { dropped with
      tick := c.tick + 1
      bytes := dropped.bytes + cost b
      entries := dropped.entries.insert k ⟨b, cost b, c.tick + 1⟩ }

/-! ## What a cache holds -/

/-- Every entry satisfies `P`. -/
def Holds (P : κ → β → Prop) (c : Lru κ β) : Prop := ∀ k entry, c.entries.lookup k = some entry → P k entry.value

variable {P : κ → β → Prop} {c : Lru κ β} {k : κ} {b : β} {cost : β → Nat}

/-- A hit is an entry. -/
theorem Holds.of_get (h : Holds P c) (hget : (c.get k).1 = some b) : P k b := by
  unfold get at hget
  cases hentry : c.entries.lookup k with
  | none =>
      rw [hentry] at hget
      exact absurd hget (by simp)
  | some entry =>
      rw [hentry] at hget
      exact Option.some.inj hget ▸ h k entry hentry

/-- An entry more, whatever else is counted. -/
theorem holds_insert {entries : AList fun _ : κ => LruEntry β} {entry : LruEntry β} {bytes maxBytes tick : Nat}
    (hentries : ∀ k' entry', entries.lookup k' = some entry' → P k' entry'.value) (hentry : P k entry.value) :
    Holds P { entries := entries.insert k entry, bytes := bytes, maxBytes := maxBytes, tick := tick } := by
  intro k' entry' hlookup
  by_cases hk : k' = k
  · subst hk
    rw [AList.lookup_insert] at hlookup
    exact Option.some.inj hlookup ▸ hentry
  · rw [AList.lookup_insert_ne hk] at hlookup
    exact hentries k' entry' hlookup

theorem Holds.get (h : Holds P c) (k : κ) : Holds P (c.get k).2 := by
  unfold Lru.get
  cases hentry : c.entries.lookup k with
  | none => exact h
  | some entry =>
      apply holds_insert h
      exact h k entry hentry

theorem Holds.drop (h : Holds P c) (k : κ) : Holds P (c.drop k) := by
  unfold Lru.drop
  cases c.entries.lookup k with
  | none => exact h
  | some entry =>
      intro k' entry' hlookup
      by_cases hk : k' = k
      · subst hk
        rw [AList.lookup_erase] at hlookup
        exact absurd hlookup (by simp)
      · rw [AList.lookup_erase_ne hk] at hlookup
        exact h k' entry' hlookup

theorem Holds.evictLru (h : Holds P c) : Holds P c.evictLru := by
  unfold Lru.evictLru
  generalize c.byAge = ks
  induction ks generalizing c with
  | nil => exact h
  | cons k ks ih =>
      rw [List.foldl_cons]
      split_ifs
      · exact ih h
      · exact ih (h.drop k)

theorem Holds.put (h : Holds P c) (hb : P k b) : Holds P (c.put cost k b) := by
  unfold Lru.put
  apply Holds.evictLru
  exact holds_insert (h.drop k) hb

/-! ## What a cache counts -/

/-- What the entries cost. -/
def held (cost : β → Nat) (c : Lru κ β) : Nat := total (fun _ entry => cost entry.value) c.entries

/-- **The costs are counted, and the stamps tell the entries apart.** -/
structure Sound (cost : β → Nat) (c : Lru κ β) : Prop where
  charged : ∀ k entry, c.entries.lookup k = some entry → entry.bytes = cost entry.value
  bytes : c.bytes = held cost c
  old : ∀ k entry, c.entries.lookup k = some entry → entry.lastUsed ≤ c.tick
  apart : ∀ k k' entry entry', c.entries.lookup k = some entry → c.entries.lookup k' = some entry' →
    entry.lastUsed = entry'.lastUsed → k = k'

section Sound

variable {entry : LruEntry β}

/-- Nothing is held yet. -/
theorem Sound.empty (cost : β → Nat) (maxBytes : Nat) : Sound cost (⟨∅, 0, maxBytes, 0⟩ : Lru κ β) :=
  ⟨fun _ _ h => absurd h (by simp), rfl, fun _ _ h => absurd h (by simp), fun _ _ _ _ h => absurd h (by simp)⟩

theorem drop_entries (c : Lru κ β) (k : κ) : (c.drop k).entries = c.entries.erase k := by
  unfold drop
  cases hentry : c.entries.lookup k with
  | none =>
      apply AList.ext
      exact (List.kerase_of_notMem_keys (AList.lookup_eq_none.mp hentry)).symm
  | some entry => rfl

@[simp] theorem drop_maxBytes (c : Lru κ β) (k : κ) : (c.drop k).maxBytes = c.maxBytes := by
  unfold drop
  split <;> rfl

@[simp] theorem drop_tick (c : Lru κ β) (k : κ) : (c.drop k).tick = c.tick := by
  unfold drop
  split <;> rfl

/-- An entry that is left is an entry. -/
theorem lookup_of_drop {k k' : κ} (h : (c.drop k).entries.lookup k' = some entry) :
    k' ≠ k ∧ c.entries.lookup k' = some entry := by
  rw [drop_entries] at h
  by_cases hk : k' = k
  · subst hk
    rw [AList.lookup_erase] at h
    exact absurd h (by simp)
  · rw [AList.lookup_erase_ne hk] at h
    exact ⟨hk, h⟩

theorem Sound.drop (h : Sound cost c) (k : κ) : Sound cost (c.drop k) := by
  constructor
  · intro k' entry hentry
    exact h.charged k' entry (lookup_of_drop hentry).2
  · unfold held
    rw [drop_entries]
    unfold Lru.drop
    cases hentry : c.entries.lookup k with
    | none =>
        rw [total_erase_of_none hentry]
        exact h.bytes
    | some entry =>
        have hsplit := total_erase (f := fun _ entry => cost entry.value) hentry
        have hcost := h.charged k entry hentry
        have hbytes := h.bytes
        unfold held at hbytes
        show c.bytes - entry.bytes = _
        omega
  · intro k' entry hentry
    rw [drop_tick]
    exact h.old k' entry (lookup_of_drop hentry).2
  · intro k₁ k₂ entry₁ entry₂ h₁ h₂ hstamp
    exact h.apart k₁ k₂ entry₁ entry₂ (lookup_of_drop h₁).2 (lookup_of_drop h₂).2 hstamp

/-- **A fresh stamp.** -/
theorem Sound.stamp (h : Sound cost c) (hcost : entry.bytes = cost entry.value) (hstamp : entry.lastUsed = c.tick + 1) :
    Sound cost { c with
      tick := c.tick + 1
      bytes := (c.drop k).bytes + entry.bytes
      entries := c.entries.insert k entry } := by
  have hdrop := (h.drop k).bytes
  unfold held at hdrop
  rw [drop_entries] at hdrop
  have hlookup : ∀ k' entry', (c.entries.insert k entry).lookup k' = some entry' →
      (k' = k ∧ entry' = entry) ∨ (k' ≠ k ∧ c.entries.lookup k' = some entry') := by
    intro k' entry' h'
    by_cases hk : k' = k
    · subst hk
      rw [AList.lookup_insert] at h'
      exact .inl ⟨rfl, (Option.some.inj h').symm⟩
    · rw [AList.lookup_insert_ne hk] at h'
      exact .inr ⟨hk, h'⟩
  constructor
  · intro k' entry' h'
    rcases hlookup k' entry' h' with ⟨-, rfl⟩ | ⟨-, hold⟩
    · exact hcost
    · exact h.charged k' entry' hold
  · show (c.drop k).bytes + entry.bytes = total _ (c.entries.insert k entry)
    rw [total_insert_erase, hdrop, hcost, Nat.add_comm]
  · intro k' entry' h'
    show entry'.lastUsed ≤ c.tick + 1
    rcases hlookup k' entry' h' with ⟨-, rfl⟩ | ⟨-, hold⟩
    · exact hstamp.le
    · exact (h.old k' entry' hold).trans (Nat.le_succ _)
  · intro k₁ k₂ entry₁ entry₂ h₁ h₂ hsame
    -- the stamp is younger than every entry that stayed
    rcases hlookup k₁ entry₁ h₁ with ⟨rfl, rfl⟩ | ⟨-, hold₁⟩ <;> rcases hlookup k₂ entry₂ h₂ with ⟨rfl, rfl⟩ | ⟨-, hold₂⟩
    · rfl
    · have hle := h.old k₂ entry₂ hold₂
      omega
    · have hle := h.old k₁ entry₁ hold₁
      omega
    · exact h.apart k₁ k₂ entry₁ entry₂ hold₁ hold₂ hsame

theorem Sound.get (h : Sound cost c) (k : κ) : Sound cost (c.get k).2 := by
  unfold Lru.get
  cases hentry : c.entries.lookup k with
  | none => exact ⟨h.charged, h.bytes, fun k' entry h' => (h.old k' entry h').trans (Nat.le_succ _), h.apart⟩
  | some entry =>
      have hstamped : Sound cost _ := @Sound.stamp _ _ _ c k cost { entry with lastUsed := c.tick + 1 } h (h.charged k entry hentry)
        rfl
      have hbytes : (c.drop k).bytes + entry.bytes = c.bytes := by
        have hsplit := total_erase (f := fun _ entry => cost entry.value) hentry
        have hdrop := (h.drop k).bytes
        have hall := h.bytes
        have hcost := h.charged k entry hentry
        unfold held at hdrop hall
        rw [drop_entries] at hdrop
        omega
      dsimp only at hstamped
      rw [hbytes] at hstamped
      exact hstamped

/-- The cache of a `put`, before it evicts. -/
def filled (cost : β → Nat) (c : Lru κ β) (k : κ) (b : β) : Lru κ β :=
  { c.drop k with
    tick := c.tick + 1
    bytes := (c.drop k).bytes + cost b
    entries := (c.drop k).entries.insert k ⟨b, cost b, c.tick + 1⟩ }

theorem filled_entries (c : Lru κ β) (k : κ) (b : β) :
    (c.filled cost k b).entries = c.entries.insert k ⟨b, cost b, c.tick + 1⟩ := by
  show (c.drop k).entries.insert k _ = _
  rw [drop_entries]
  apply AList.ext
  rw [AList.entries_insert, AList.entries_insert]
  have herased : (AList.erase k c.entries).entries = List.kerase k c.entries.entries := rfl
  rw [herased, List.kerase_of_notMem_keys (List.notMem_keys_kerase k c.entries.nodupKeys)]

theorem Sound.filled (h : Sound cost c) (k : κ) (b : β) : Sound cost (c.filled cost k b) := by
  have hstamped : Sound cost _ := @Sound.stamp _ _ _ c k cost ⟨b, cost b, c.tick + 1⟩ h rfl rfl
  constructor
  · intro k' entry hentry
    rw [filled_entries] at hentry
    exact hstamped.charged k' entry hentry
  · unfold held
    rw [filled_entries]
    exact hstamped.bytes
  · intro k' entry hentry
    rw [filled_entries] at hentry
    exact hstamped.old k' entry hentry
  · intro k₁ k₂ entry₁ entry₂ h₁ h₂
    rw [filled_entries] at h₁ h₂
    exact hstamped.apart k₁ k₂ entry₁ entry₂ h₁ h₂

/-! ## What an eviction erases -/

theorem mem_byAge : k ∈ c.byAge ↔ ∃ entry, c.entries.lookup k = some entry := by
  unfold byAge
  rw [List.mem_map]
  constructor
  · rintro ⟨⟨k, entry⟩, hmem, rfl⟩
    exact ⟨entry, AList.mem_lookup_iff.mpr (List.mem_mergeSort.mp hmem)⟩
  · rintro ⟨entry, hentry⟩
    exact ⟨⟨k, entry⟩, List.mem_mergeSort.mpr (AList.mem_lookup_iff.mp hentry), rfl⟩

/-- **The keys stand in the order of their stamps.** -/
theorem lastUsed_le_of_byAge {front back : List κ} (h : c.byAge = front ++ k :: back) {k' : κ} {entry entry' : LruEntry β}
    (hentry : c.entries.lookup k = some entry) (hentry' : c.entries.lookup k' = some entry') (hfront : k' ∉ front) :
    entry.lastUsed ≤ entry'.lastUsed := by
  have hsorted : c.byAge.Pairwise fun k₁ k₂ => ∀ entry₁ entry₂, c.entries.lookup k₁ = some entry₁ →
      c.entries.lookup k₂ = some entry₂ → entry₁.lastUsed ≤ entry₂.lastUsed := by
    have hstamps := @List.pairwise_mergeSort _ (fun a b : Sigma fun _ : κ => LruEntry β =>
      decide (a.2.lastUsed ≤ b.2.lastUsed)) (by simpa using fun a b c => Nat.le_trans) (by simpa using fun a b => Nat.le_total _ _)
      c.entries.entries
    unfold byAge
    rw [List.pairwise_map]
    refine hstamps.imp_of_mem fun {a b} ha hb hle entry₁ entry₂ h₁ h₂ => ?_
    have ha' := AList.mem_lookup_iff.mpr (List.mem_mergeSort.mp ha)
    have hb' := AList.mem_lookup_iff.mpr (List.mem_mergeSort.mp hb)
    obtain rfl := Option.some.inj (h₁.symm.trans ha')
    obtain rfl := Option.some.inj (h₂.symm.trans hb')
    exact of_decide_eq_true hle
  rw [h, List.pairwise_append, List.pairwise_cons] at hsorted
  have hmem : k' ∈ c.byAge := mem_byAge.mpr ⟨entry', hentry'⟩
  rw [h] at hmem
  rcases List.mem_append.mp hmem with hin | hin
  · exact absurd hin hfront
  · rcases List.mem_cons.mp hin with rfl | hback
    · exact (congrArg LruEntry.lastUsed (Option.some.inj (hentry.symm.trans hentry'))).le
    · exact hsorted.2.1.1 k' hback entry entry' hentry hentry'

/-- **The loop**: keys go one by one, each of them while the cache is over its budget. -/
theorem evict_loop (ks : List κ) (c : Lru κ β) : ∃ gone kept, ks = gone ++ kept ∧
    ks.foldl (fun c k => if c.bytes ≤ c.maxBytes then c else c.drop k) c = gone.foldl drop c ∧
    (kept ≠ [] → (gone.foldl drop c).bytes ≤ c.maxBytes) ∧
    ∀ front k back, gone = front ++ k :: back → c.maxBytes < (front.foldl drop c).bytes := by
  induction ks generalizing c with
  | nil => exact ⟨[], [], rfl, rfl, fun h => absurd rfl h, fun front k back h => absurd h (by simp)⟩
  | cons k ks ih =>
      by_cases hfits : c.bytes ≤ c.maxBytes
      · refine ⟨[], k :: ks, rfl, ?_, fun _ => hfits, fun front k back h => absurd h (by simp)⟩
        -- a cache within its budget stays as it is
        have hstays : ∀ ks : List κ, ks.foldl (fun c k => if c.bytes ≤ c.maxBytes then c else c.drop k) c = c := by
          intro ks
          induction ks with
          | nil => rfl
          | cons k ks ih => rw [List.foldl_cons, if_pos hfits, ih]
        exact hstays (k :: ks)
      · obtain ⟨gone, kept, rfl, hfold, hunder, hover⟩ := ih (c.drop k)
        rw [drop_maxBytes] at hunder hover
        refine ⟨k :: gone, kept, rfl, ?_, hunder, ?_⟩
        · rw [List.foldl_cons, if_neg hfits]
          exact hfold
        · intro front k' back hsplit
          cases front with
          | nil => exact not_le.mp hfits
          | cons k'' front =>
              obtain ⟨rfl, hrest⟩ := List.cons_eq_cons.mp hsplit
              exact hover front k' back hrest

theorem foldl_drop (ks : List κ) (c : Lru κ β) : (ks.foldl drop c).entries = ks.foldl (fun m k => m.erase k) c.entries ∧
    (ks.foldl drop c).tick = c.tick ∧ (ks.foldl drop c).maxBytes = c.maxBytes := by
  induction ks generalizing c with
  | nil => exact ⟨rfl, rfl, rfl⟩
  | cons k ks ih =>
      obtain ⟨hentries, htick, hmax⟩ := ih (c.drop k)
      rw [List.foldl_cons, List.foldl_cons, ← drop_entries]
      exact ⟨hentries, htick.trans (drop_tick c k), hmax.trans (drop_maxBytes c k)⟩

theorem Sound.foldl_drop (h : Sound cost c) (ks : List κ) : Sound cost (ks.foldl Lru.drop c) := by
  induction ks generalizing c with
  | nil => exact h
  | cons k ks ih => exact ih (h.drop k)

/-- **An eviction**: of a sound cache it erases some keys (`gone`), and is under the budget then. What is erased is older
than what is left; and without the last of them, the cache is over its budget. -/
structure Evicts (cost : β → Nat) (c : Lru κ β) (gone : List κ) (c' : Lru κ β) : Prop where
  lookup : ∀ k, c'.entries.lookup k = if k ∈ gone then none else c.entries.lookup k
  held : ∀ k ∈ gone, ∃ entry, c.entries.lookup k = some entry
  fits : c'.bytes ≤ c.maxBytes
  tick : c'.tick = c.tick
  maxBytes : c'.maxBytes = c.maxBytes
  oldest : ∀ k ∈ gone, ∀ k' ∉ gone, ∀ entry entry', c.entries.lookup k = some entry → c.entries.lookup k' = some entry' →
    entry.lastUsed < entry'.lastUsed
  needed : ∀ k ∈ gone, ∀ entry, c.entries.lookup k = some entry →
    c.maxBytes < total (fun _ entry' => if entry.lastUsed ≤ entry'.lastUsed then cost entry'.value else 0) c.entries

theorem evictLru_spec (h : Sound cost c) : (∃ gone, Evicts cost c gone c.evictLru) ∧ Sound cost c.evictLru := by
  obtain ⟨gone, kept, hsplit, hfold, hunder, hover⟩ := evict_loop c.byAge c
  have hresult : c.evictLru = gone.foldl Lru.drop c := hfold
  obtain ⟨hentries, htick, hmax⟩ := Lru.foldl_drop gone c
  have hlookup : ∀ k, (gone.foldl Lru.drop c).entries.lookup k = if k ∈ gone then none else c.entries.lookup k := by
    intro k
    rw [hentries]
    exact lookup_eraseAll gone k
  rw [hresult]
  refine ⟨⟨gone, hlookup, ?_, ?_, htick, hmax, ?_, ?_⟩, h.foldl_drop gone⟩
  · intro k hk
    refine mem_byAge.mp ?_
    rw [hsplit]
    exact List.mem_append_left _ hk
  · by_cases hkept : kept = []
    · -- nothing is left
      have hzero : held cost (gone.foldl Lru.drop c) = 0 := by
        apply total_eq_zero
        intro k
        rw [hlookup]
        split_ifs with hk
        · rfl
        · cases hentry : c.entries.lookup k with
          | none => rfl
          | some entry =>
              have hmem : k ∈ c.byAge := mem_byAge.mpr ⟨entry, hentry⟩
              rw [hsplit, hkept, List.append_nil] at hmem
              exact absurd hmem hk
      rw [(h.foldl_drop gone).bytes, hzero]
      exact Nat.zero_le _
    · exact hunder hkept
  · intro k hk k' hk' entry entry' hentry hentry'
    obtain ⟨front, back, hgone⟩ := List.append_of_mem hk
    have hage : c.byAge = front ++ k :: (back ++ kept) := by rw [hsplit, hgone, List.append_assoc, List.cons_append]
    have hfront : k' ∉ front := fun hin => hk' (hgone ▸ List.mem_append_left _ hin)
    refine lt_of_le_of_ne (lastUsed_le_of_byAge hage hentry hentry' hfront) fun hsame => ?_
    obtain rfl := h.apart k k' entry entry' hentry hentry' hsame
    exact hk' hk
  · intro k hk entry hentry
    obtain ⟨front, back, hgone⟩ := List.append_of_mem hk
    have hage : c.byAge = front ++ k :: (back ++ kept) := by rw [hsplit, hgone, List.append_assoc, List.cons_append]
    refine (hover front k back hgone).trans_le ?_
    rw [(h.foldl_drop front).bytes]
    unfold Lru.held
    rw [(Lru.foldl_drop front c).1, total_eraseAll]
    apply total_mono
    intro k' entry' hentry'
    by_cases hfront : k' ∈ front
    · rw [if_pos hfront]
      exact Nat.zero_le _
    · rw [if_neg hfront, if_pos (lastUsed_le_of_byAge hage hentry hentry' hfront)]

end Sound

end Lru

end KChatCore.Lib
