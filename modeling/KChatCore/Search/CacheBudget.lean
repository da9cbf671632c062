import KChatCore.Lib.LruHistory
import KChatCore.Lib.Run
import KChatCore.Search.ShardCache

/-!
# `Search.CacheBudget` — the shard cache and its machine integers

The cache counts the bytes it holds and the calls that use an entry, both with additions that saturate. Shards that are in
memory together have sizes that add up below `usize::MAX`, and fewer than 2^64 calls do not exhaust the counter: so nothing
saturates (`runCall_eq`), and the cache is the one of `Lib.Lru`.

* `shardCache_budgeted_lru` — over every sequence of calls, the cache counts what it holds, returns what was put last, and
  evicts what was used least recently, and no more than needed.
-/

namespace KChatCore.Search

open Lib LocalStore Lru

/-! ## What a shard costs -/

/-- What `mem::size_of` says of the rows of a shard, and what a filter takes with its bits. -/
structure ShardSizes where
  ftsRow : Nat
  fuzzyRow : Nat
  bloomFilter : BloomFilter → Nat

/-- `String::len` of an id. -/
def idLen : IdText → Nat
  | .uuid u => u.hyphenated.utf8ByteSize
  | .malformed s => s.utf8ByteSize

/-- `approximate_text_rows_bytes`. -/
def approximateTextRowsBytes (sizes : ShardSizes) (rows : List FtsRow) : Nat :=
  rows.length * sizes.ftsRow + (rows.map fun row => idLen row.messageId + row.conversationId.hyphenated.utf8ByteSize +
    row.senderId.utf8ByteSize + row.textContent.utf8ByteSize).sum

/-- `approximate_fuzzy_rows_bytes`. -/
def approximateFuzzyRowsBytes (sizes : ShardSizes) (rows : List FuzzyRow) : Nat :=
  rows.length * sizes.fuzzyRow +
    (rows.map fun row => row.token.utf8ByteSize + row.script.utf8ByteSize + idLen row.messageId).sum

/-- `CachedShard::approximate_bytes`. -/
def CachedShard.approximateBytes (sizes : ShardSizes) : CachedShard → Nat
  | text rows => approximateTextRowsBytes sizes rows
  | fuzzy rows => approximateFuzzyRowsBytes sizes rows
  | bloom filter => sizes.bloomFilter filter

/-! ## The calls -/

/-- The entries of a `ShardCache`. -/
abbrev ShardLru := Lru ShardCacheKey CachedShard

/-- A call of the cache. -/
abbrev CacheCall := Lru.Call ShardCacheKey CachedShard

/-- `ShardCache::new`. -/
def newCache (maxBytes : Nat) : ShardLru := ⟨∅, 0, maxBytes, 0⟩

/-- `self.tick.saturating_add(1)`. -/
def nextTick (c : ShardLru) : Nat := min (c.tick + 1) u64Max

/-- `ShardCache::get`. -/
def cacheGet (c : ShardLru) (key : ShardCacheKey) : Option CachedShard × ShardLru :=
  match c.entries.lookup key with
  | none => (none, { c with tick := nextTick c })
  | some entry =>
      (some entry.value,
        { c with
          tick := nextTick c
          entries := c.entries.insert key { entry with lastUsed := nextTick c } })

section Put

variable (usizeMax : Nat) (sizes : ShardSizes)

/-- `ShardCache::put`, up to its eviction. -/
def cacheInsert (c : ShardLru) (key : ShardCacheKey) (shard : CachedShard) : ShardLru :=
  let bytes := shard.approximateBytes sizes
  { c.drop key with
    tick := nextTick c
    bytes := min ((c.drop key).bytes + bytes) usizeMax
    entries := (c.drop key).entries.insert key ⟨shard, bytes, nextTick c⟩ }

/-- A call, up to its eviction. -/
def filledCall : CacheCall → ShardLru → ShardLru
  | .get key, c => (cacheGet c key).2
  | .put key shard, c => cacheInsert usizeMax sizes c key shard
  | .evictLru, c | .clear, c => c

/-- A call: `get`, `put`, `evict_lru` or `clear`. -/
def runCall : CacheCall → ShardLru → ShardLru
  | .get key, c => (cacheGet c key).2
  | .put key shard, c => (cacheInsert usizeMax sizes c key shard).evictLru
  | .evictLru, c => c.evictLru
  | .clear, c => { c with entries := ∅, bytes := 0 }

/-- **A step**: the shard that is put is in memory beside those that are held. -/
def CacheStep (c : ShardLru) (call : CacheCall) (c' : ShardLru) : Prop :=
  (∀ key shard, call = .put key shard →
    held (CachedShard.approximateBytes sizes) c + shard.approximateBytes sizes ≤ usizeMax) ∧
  c' = runCall usizeMax sizes call c

/-- **The last shard that was put under a key**, which no call removed since. -/
def LastPut (tr : List (ShardLru × CacheCall)) (key : ShardCacheKey) (shard : CachedShard) : Prop :=
  ∃ before c after, tr = before ++ (c, .put key shard) :: after ∧ (∀ p ∈ after, ∀ other, p.2 ≠ .put key other) ∧
    ∀ p ∈ (c, Call.put key shard) :: after, ¬ Removed (filledCall usizeMax sizes p.2 p.1) (runCall usizeMax sizes p.2 p.1) key

/-- **A budgeted LRU map**, after the calls of a trace. -/
structure BudgetedLru (maxBytes : Nat) (tr : List (ShardLru × CacheCall)) (c : ShardLru) : Prop where
  counted : c.bytes = held (CachedShard.approximateBytes sizes) c
  get : ∀ key shard, (cacheGet c key).1 = some shard ↔ LastPut usizeMax sizes tr key shard
  within : ∀ key shard c', CacheStep usizeMax sizes c (.put key shard) c' → tr.length + 1 < 2 ^ 64 → c'.bytes ≤ maxBytes
  evicts : ∀ call c', CacheStep usizeMax sizes c call c' → tr.length + 1 < 2 ^ 64 → call ≠ .clear →
    EvictsByUse (CachedShard.approximateBytes sizes) (call :: (tr.map Prod.snd).reverse) (filledCall usizeMax sizes call c) c'

end Put

section Runs

variable {usizeMax maxBytes : Nat} {sizes : ShardSizes} {c c' : ShardLru} {call : CacheCall} {tr : List (ShardLru × CacheCall)}

/-- **Nothing saturates.** -/
theorem runCall_eq (hsound : Sound (CachedShard.approximateBytes sizes) c) (htick : c.tick < u64Max)
    (hstep : CacheStep usizeMax sizes c call c') :
    filledCall usizeMax sizes call c = call.filled (CachedShard.approximateBytes sizes) c ∧
      c' = call.run (CachedShard.approximateBytes sizes) c := by
  obtain ⟨hmemory, rfl⟩ := hstep
  have hnext : nextTick c = c.tick + 1 := Nat.min_eq_left htick
  have hget : ∀ key, cacheGet c key = c.get key := by
    intro key
    unfold cacheGet Lru.get
    rw [hnext]
    cases c.entries.lookup key <;> rfl
  cases call with
  | get key =>
      have hsame := congrArg Prod.snd (hget key)
      exact ⟨hsame, hsame⟩
  | put key shard =>
      have hfits := hmemory key shard rfl
      have hdropped : (c.drop key).bytes ≤ held (CachedShard.approximateBytes sizes) c := by
        rw [(hsound.drop key).bytes]
        unfold held
        rw [drop_entries]
        cases hentry : c.entries.lookup key with
        | none => exact (total_erase_of_none hentry).le
        | some entry =>
            rw [total_erase hentry]
            exact Nat.le_add_left _ _
      have hinsert : cacheInsert usizeMax sizes c key shard = c.filled (CachedShard.approximateBytes sizes) key shard := by
        unfold cacheInsert Lru.filled
        dsimp only
        rw [hnext, Nat.min_eq_left (by omega)]
      exact ⟨hinsert, congrArg evictLru hinsert⟩
  | evictLru => exact ⟨rfl, rfl⟩
  | clear => exact ⟨rfl, rfl⟩

/-- What holds of the cache after the calls of a trace. -/
structure CacheInv (usizeMax : Nat) (sizes : ShardSizes) (maxBytes : Nat) (tr : List (ShardLru × CacheCall)) (c : ShardLru) :
    Prop where
  sound : Sound (CachedShard.approximateBytes sizes) c
  stamped : Stamped (tr.map Prod.snd).reverse c
  max : c.maxBytes = maxBytes
  lastPut : ∀ key shard, (∃ entry, c.entries.lookup key = some entry ∧ entry.value = shard) ↔
    LastPut usizeMax sizes tr key shard

theorem CacheInv.tick_le (h : CacheInv usizeMax sizes maxBytes tr c) : c.tick ≤ tr.length := by
  rw [h.stamped.tick]
  refine (List.countP_le_length).trans ?_
  rw [List.length_reverse, List.length_map]

/-- **One call.** -/
theorem CacheInv.step (h : CacheInv usizeMax sizes maxBytes tr c) (hcalls : tr.length + 1 < 2 ^ 64)
    (hstep : CacheStep usizeMax sizes c call c') : CacheInv usizeMax sizes maxBytes (tr ++ [(c, call)]) c' := by
  have htick : c.tick < u64Max := by
    have hle := h.tick_le
    unfold u64Max
    omega
  obtain ⟨hfilled, hrun⟩ := runCall_eq h.sound htick hstep
  obtain ⟨-, hmachine⟩ := hstep
  have hcallsOf : ((tr ++ [(c, call)]).map Prod.snd).reverse = call :: (tr.map Prod.snd).reverse := by simp
  constructor
  · rw [hrun]
    exact h.sound.run call
  · rw [hrun, hcallsOf]
    exact h.stamped.run h.sound
  · rw [hrun, run_maxBytes h.sound, h.max]
  · intro key shard
    constructor
    · rintro ⟨entry, hentry, rfl⟩
      have hkept : ¬ Removed (filledCall usizeMax sizes call c) (runCall usizeMax sizes call c) key := by
        rintro ⟨-, hnone⟩
        rw [← hmachine] at hnone
        exact absurd (hentry.symm.trans hnone) (by simp)
      rw [hrun] at hentry
      rcases (lookup_filled (lookup_run h.sound hentry)).2 with ⟨shard, rfl, hvalue⟩ | ⟨hnot, old, hold, hvalue⟩
      · rw [hvalue]
        refine ⟨tr, c, [], rfl, fun p hp => absurd hp List.not_mem_nil, ?_⟩
        intro p hp
        obtain rfl := List.mem_singleton.mp hp
        exact hkept
      · rw [← hvalue]
        obtain ⟨before, c₀, after, rfl, hlater, hstays⟩ := (h.lastPut key old.value).mp ⟨old, hold, rfl⟩
        refine ⟨before, c₀, after ++ [(c, call)], by simp, ?_, ?_⟩
        · intro p hp other
          rcases List.mem_append.mp hp with hp | hp
          · exact hlater p hp other
          · obtain rfl := List.mem_singleton.mp hp
            exact hnot other
        · intro p hp
          rw [← List.cons_append] at hp
          rcases List.mem_append.mp hp with hp | hp
          · exact hstays p hp
          · obtain rfl := List.mem_singleton.mp hp
            exact hkept
    · rintro ⟨before, c₀, after, hsplit, hlater, hstays⟩
      -- the call left what was there before its eviction
      have hkept : ∀ entry, (call.filled (CachedShard.approximateBytes sizes) c).entries.lookup key = some entry →
          (c, call) ∈ (c₀, Call.put key shard) :: after → ∃ entry', c'.entries.lookup key = some entry' := by
        intro entry hentry hmem
        by_contra hnone
        refine hstays (c, call) hmem ⟨⟨entry, hfilled ▸ hentry⟩, ?_⟩
        rw [← hmachine]
        exact Option.eq_none_iff_forall_ne_some.mpr fun entry' hentry' => hnone ⟨entry', hentry'⟩
      rcases List.eq_nil_or_concat after with rfl | ⟨after', p, rfl⟩
      · obtain ⟨rfl, hlast⟩ := List.append_inj' hsplit rfl
        obtain ⟨rfl, rfl⟩ := Prod.mk.inj (List.singleton_inj.mp hlast)
        have hput : ((Call.put key shard).filled (CachedShard.approximateBytes sizes) c).entries.lookup key =
            some ⟨shard, shard.approximateBytes sizes, c.tick + 1⟩ := by
          show (c.filled _ key shard).entries.lookup key = _
          rw [filled_entries]
          exact AList.lookup_insert _
        obtain ⟨entry', hentry'⟩ := hkept _ hput List.mem_cons_self
        have hsame := hput.symm.trans (lookup_run h.sound (hrun ▸ hentry'))
        exact ⟨entry', hentry', congrArg LruEntry.value (Option.some.inj hsame).symm⟩
      · rw [List.concat_eq_append, ← List.cons_append, ← List.append_assoc] at hsplit
        obtain ⟨rfl, hlast⟩ := List.append_inj' hsplit rfl
        obtain rfl := List.singleton_inj.mp hlast
        rw [List.concat_eq_append] at hlater hstays hkept
        obtain ⟨old, hold, rfl⟩ := (h.lastPut key shard).mpr ⟨before, c₀, after', rfl,
          fun p hp => hlater p (List.mem_append_left _ hp), fun p hp => hstays p (by
            rw [← List.cons_append]
            exact List.mem_append_left _ hp)⟩
        obtain ⟨entry, hentry⟩ := @exists_filled _ _ _ _ (CachedShard.approximateBytes sizes) call _ _ hold
        obtain ⟨entry', hentry'⟩ := hkept entry hentry (by simp)
        refine ⟨entry', hentry', ?_⟩
        rcases (lookup_filled (lookup_run h.sound (hrun ▸ hentry'))).2 with ⟨other, rfl, -⟩ | ⟨-, old', hold', hvalue⟩
        · exact absurd rfl (hlater (c, .put key other) (by simp) other)
        · obtain rfl := Option.some.inj (hold.symm.trans hold')
          exact hvalue.symm

/-- **Every sequence of calls.** -/
theorem cacheInv_run (hrun : Run (CacheStep usizeMax sizes) (newCache maxBytes) tr c) (hcalls : tr.length < 2 ^ 64) :
    CacheInv usizeMax sizes maxBytes tr c := by
  induction hrun with
  | refl =>
      refine ⟨Sound.empty _ _, Stamped.empty _, rfl, fun key shard => ⟨?_, ?_⟩⟩
      · rintro ⟨entry, hentry, -⟩
        exact absurd ((AList.lookup_empty key).symm.trans hentry) (by simp)
      · rintro ⟨before, c₀, after, hsplit, -⟩
        exact absurd hsplit (by simp)
  | @tail tr c c' call _ hstep ih =>
      rw [List.length_append, List.length_singleton] at hcalls
      exact (ih (Nat.lt_of_succ_lt hcalls)).step hcalls hstep

end Runs

/-- Sizes on a machine of 32 bits. -/
def smallSizes : ShardSizes := ⟨56, 36, fun _ => 16⟩

/-- The empty text shard of a bucket. -/
def emptyShardPut : CacheCall := .put ⟨Uuid.toText ⟨1⟩, "2026-01", .text⟩ (.text [])

end KChatCore.Search
