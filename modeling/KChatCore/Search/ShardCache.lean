import KChatCore.Lib.Lru
import KChatCore.LocalStore.Schema
import KChatCore.Formats

/-!
# `Search.ShardCache` — the shards of the archive, and the cache in front of them

A `ColdShardSource` fetches the text rows, the fuzzy rows and the bloom filter of a bucket. Each fetch asks the cache
first, and puts what the source returns into it.

A cache *agrees* with a source when every entry is what the source returns for its key. A fetch keeps that, and then
answers what the source answers, whatever was evicted in between.
-/

namespace KChatCore.Search

open Lib LocalStore

/-- `BloomFilter::maybe_contains`. -/
abbrev BloomFilter := String → Bool

/-- `ColdShardSource`. -/
structure ColdShardSource where
  coldBuckets : Except Error (List (IdText × String))
  fetchTextRows : IdText → String → Except Error (List FtsRow)
  fetchFuzzyRows : IdText → String → Except Error (List FuzzyRow)
  fetchBloomShard : IdText → String → Except Error (Option BloomFilter)

/-- `ShardCacheKey`. -/
structure ShardCacheKey where
  conversationId : IdText
  timeBucket : String
  indexType : IndexType
deriving DecidableEq

/-- `CachedShard`. -/
inductive CachedShard
  | text (rows : List FtsRow)
  | fuzzy (rows : List FuzzyRow)
  | bloom (filter : BloomFilter)

/-- `ShardCache`, and what a shard costs (`CachedShard::approximate_bytes`). -/
structure ShardCache where
  lru : Lru ShardCacheKey CachedShard
  approximateBytes : CachedShard → Nat

/-- One kind of shard in the cache. -/
structure ShardKind (α : Type) where
  indexType : IndexType
  wrap : α → CachedShard
  unwrap : CachedShard → Option α

/-- The text shards. -/
def textShard : ShardKind (List FtsRow) where
  indexType := .text
  wrap := .text
  unwrap shard := match shard with
    | .text rows => some rows
    | _ => none

/-- The fuzzy shards. -/
def fuzzyShard : ShardKind (List FuzzyRow) where
  indexType := .fuzzy
  wrap := .fuzzy
  unwrap shard := match shard with
    | .fuzzy rows => some rows
    | _ => none

/-- The bloom shards. -/
def bloomShard : ShardKind BloomFilter where
  indexType := .bloom
  wrap := .bloom
  unwrap shard := match shard with
    | .bloom filter => some filter
    | _ => none

variable {α : Type}

/-- `ShardCache::get`, where there is a cache. -/
def getShard (kind : ShardKind α) (cache : Option ShardCache) (conv : IdText) (bucket : String) :
    Option α × Option ShardCache :=
  match cache with
  | none => (none, none)
  | some c =>
      let (shard, lru) := c.lru.get ⟨conv, bucket, kind.indexType⟩
      (shard.bind kind.unwrap, some { c with lru := lru })

/-- `ShardCache::put`, where there is a cache. -/
def putShard (kind : ShardKind α) (cache : Option ShardCache) (conv : IdText) (bucket : String) (shard : α) :
    Option ShardCache :=
  cache.map fun c => { c with lru := c.lru.put c.approximateBytes ⟨conv, bucket, kind.indexType⟩ (kind.wrap shard) }

/-- A fetch through the cache. -/
def fetchWithCache (kind : ShardKind α) (fetch : Except Error α) (cache : Option ShardCache) (conv : IdText)
    (bucket : String) : Except Error α × Option ShardCache :=
  match getShard kind cache conv bucket with
  | (some shard, cache) => (.ok shard, cache)
  | (none, cache) =>
      match fetch with
      | .error e => (.error e, cache)
      | .ok shard => (.ok shard, putShard kind cache conv bucket shard)

/-- `cold_source_fetch_text_with_cache`. -/
def coldSourceFetchTextWithCache (src : ColdShardSource) (cache : Option ShardCache) (conv : IdText) (bucket : String) :
    Except Error (List FtsRow) × Option ShardCache :=
  fetchWithCache textShard (src.fetchTextRows conv bucket) cache conv bucket

/-- `cold_source_fetch_fuzzy_with_cache`. -/
def coldSourceFetchFuzzyWithCache (src : ColdShardSource) (cache : Option ShardCache) (conv : IdText) (bucket : String) :
    Except Error (List FuzzyRow) × Option ShardCache :=
  fetchWithCache fuzzyShard (src.fetchFuzzyRows conv bucket) cache conv bucket

/-- What a source without a cache knows of a bloom filter: one that fails has none. -/
def bloomOf (src : ColdShardSource) (conv : IdText) (bucket : String) : Option BloomFilter :=
  match src.fetchBloomShard conv bucket with
  | .ok result => result
  | .error _ => none

/-- `cold_source_fetch_bloom_with_cache`. -/
def coldSourceFetchBloomWithCache (src : ColdShardSource) (cache : Option ShardCache) (conv : IdText) (bucket : String) :
    Option BloomFilter × Option ShardCache :=
  match getShard bloomShard cache conv bucket with
  | (some filter, cache) => (some filter, cache)
  | (none, cache) =>
      match bloomOf src conv bucket with
      | some filter => (some filter, putShard bloomShard cache conv bucket filter)
      | none => (none, cache)

/-! ## What a cache holds -/

/-- Every entry of the cache satisfies `P`. -/
def CacheHolds (P : ShardCacheKey → CachedShard → Prop) (cache : Option ShardCache) : Prop := ∀ c ∈ cache, Lru.Holds P c.lru

section Holds

variable {P : ShardCacheKey → CachedShard → Prop} {cache : Option ShardCache} {kind : ShardKind α} {conv : IdText}
  {bucket : String}

theorem CacheHolds.getShard (h : CacheHolds P cache) (kind : ShardKind α) (conv : IdText) (bucket : String) :
    CacheHolds P (getShard kind cache conv bucket).2 := by
  cases cache with
  | none => exact h
  | some c =>
      intro c' hc'
      obtain rfl := Option.mem_some_iff.mp hc'
      exact (h c rfl).get _

/-- A hit is an entry under the key. -/
theorem CacheHolds.of_getShard (h : CacheHolds P cache) {a : α} (hget : (Search.getShard kind cache conv bucket).1 = some a) :
    ∃ shard, P ⟨conv, bucket, kind.indexType⟩ shard ∧ kind.unwrap shard = some a := by
  cases cache with
  | none => exact absurd hget (by simp [Search.getShard])
  | some c =>
      obtain ⟨shard, hshard, ha⟩ := Option.bind_eq_some_iff.mp hget
      exact ⟨shard, (h c rfl).of_get hshard, ha⟩

theorem CacheHolds.putShard (h : CacheHolds P cache) {a : α} (ha : P ⟨conv, bucket, kind.indexType⟩ (kind.wrap a)) :
    CacheHolds P (putShard kind cache conv bucket a) := by
  cases cache with
  | none => exact h
  | some c =>
      intro c' hc'
      obtain rfl := Option.mem_some_iff.mp hc'
      exact (h c rfl).put ha

end Holds

/-! ## Agreement -/

/-- A shard is what the source returns for its key. -/
def ColdShardSource.Returns (src : ColdShardSource) (key : ShardCacheKey) : CachedShard → Prop
  | .text rows => key.indexType = .text → src.fetchTextRows key.conversationId key.timeBucket = .ok rows
  | .fuzzy rows => key.indexType = .fuzzy → src.fetchFuzzyRows key.conversationId key.timeBucket = .ok rows
  | .bloom filter => key.indexType = .bloom → bloomOf src key.conversationId key.timeBucket = some filter

/-- **Every entry of the cache is what the source returns.** -/
def Agrees (src : ColdShardSource) (cache : Option ShardCache) : Prop := ∀ c ∈ cache, Lru.Holds src.Returns c.lru

section Agreement

variable {src : ColdShardSource} {cache : Option ShardCache} {kind : ShardKind α} {conv : IdText} {bucket : String}

theorem agrees_none : Agrees src none := by
  intro c hc
  exact absurd hc (by simp)

theorem Agrees.getShard (h : Agrees src cache) (kind : ShardKind α) (conv : IdText) (bucket : String) :
    Agrees src (getShard kind cache conv bucket).2 := CacheHolds.getShard h kind conv bucket

/-- A hit of the cache is what the source returns. -/
theorem Agrees.of_getShard (h : Agrees src cache) {a : α} (hget : (Search.getShard kind cache conv bucket).1 = some a) :
    ∃ shard, src.Returns ⟨conv, bucket, kind.indexType⟩ shard ∧ kind.unwrap shard = some a := CacheHolds.of_getShard h hget

theorem Agrees.putShard (h : Agrees src cache) {a : α} (ha : src.Returns ⟨conv, bucket, kind.indexType⟩ (kind.wrap a)) :
    Agrees src (putShard kind cache conv bucket a) := CacheHolds.putShard h ha

/-- A kind whose shards are what a fetch returns. -/
def ShardKind.Fetches (kind : ShardKind α) (src : ColdShardSource) (conv : IdText) (bucket : String)
    (fetch : Except Error α) : Prop :=
  (∀ shard a, src.Returns ⟨conv, bucket, kind.indexType⟩ shard → kind.unwrap shard = some a → fetch = .ok a) ∧
    ∀ a, fetch = .ok a → src.Returns ⟨conv, bucket, kind.indexType⟩ (kind.wrap a)

theorem textShard_fetches (conv : IdText) (bucket : String) :
    textShard.Fetches src conv bucket (src.fetchTextRows conv bucket) := by
  refine ⟨?_, fun rows hrows _ => hrows⟩
  intro shard rows hshard hrows
  cases shard with
  | text rows' => exact Option.some.inj hrows ▸ hshard rfl
  | fuzzy rows' => exact absurd hrows (by simp [textShard])
  | bloom filter => exact absurd hrows (by simp [textShard])

theorem fuzzyShard_fetches (conv : IdText) (bucket : String) :
    fuzzyShard.Fetches src conv bucket (src.fetchFuzzyRows conv bucket) := by
  refine ⟨?_, fun rows hrows _ => hrows⟩
  intro shard rows hshard hrows
  cases shard with
  | fuzzy rows' => exact Option.some.inj hrows ▸ hshard rfl
  | text rows' => exact absurd hrows (by simp [fuzzyShard])
  | bloom filter => exact absurd hrows (by simp [fuzzyShard])

/-- What the cache has is what a fetch returns. -/
theorem Agrees.fetch_of_getShard (h : Agrees src cache) {fetch : Except Error α} (hkind : kind.Fetches src conv bucket fetch)
    {a : α} (hget : (Search.getShard kind cache conv bucket).1 = some a) : fetch = .ok a := by
  obtain ⟨shard, hshard, ha⟩ := h.of_getShard hget
  exact hkind.1 shard a hshard ha

/-- **A fetch through a cache that agrees answers what the source answers**, and the cache still agrees. -/
theorem Agrees.fetchWithCache (h : Agrees src cache) {fetch : Except Error α}
    (hkind : kind.Fetches src conv bucket fetch) :
    (fetchWithCache kind fetch cache conv bucket).1 = fetch ∧
      Agrees src (fetchWithCache kind fetch cache conv bucket).2 := by
  have hagrees := h.getShard kind conv bucket
  unfold Search.fetchWithCache
  rcases hget : Search.getShard kind cache conv bucket with ⟨found, cache'⟩
  rw [hget] at hagrees
  cases found with
  | some a => exact ⟨(h.fetch_of_getShard hkind (by rw [hget])).symm, hagrees⟩
  | none =>
      cases hfetch : fetch with
      | error e => exact ⟨rfl, hagrees⟩
      | ok a => exact ⟨rfl, hagrees.putShard (hkind.2 a hfetch)⟩

theorem Agrees.fetchText (h : Agrees src cache) (conv : IdText) (bucket : String) :
    (coldSourceFetchTextWithCache src cache conv bucket).1 = src.fetchTextRows conv bucket ∧
      Agrees src (coldSourceFetchTextWithCache src cache conv bucket).2 :=
  h.fetchWithCache (textShard_fetches conv bucket)

theorem Agrees.fetchFuzzy (h : Agrees src cache) (conv : IdText) (bucket : String) :
    (coldSourceFetchFuzzyWithCache src cache conv bucket).1 = src.fetchFuzzyRows conv bucket ∧
      Agrees src (coldSourceFetchFuzzyWithCache src cache conv bucket).2 :=
  h.fetchWithCache (fuzzyShard_fetches conv bucket)

/-- A bloom filter the cache has is that of the source. -/
theorem Agrees.bloomOf_of_getShard (h : Agrees src cache) {filter : BloomFilter}
    (hget : (Search.getShard bloomShard cache conv bucket).1 = some filter) : bloomOf src conv bucket = some filter := by
  obtain ⟨shard, hshard, hfilter⟩ := h.of_getShard hget
  cases shard with
  | bloom filter' => exact Option.some.inj hfilter ▸ hshard rfl
  | text rows => exact absurd hfilter (by simp [bloomShard])
  | fuzzy rows => exact absurd hfilter (by simp [bloomShard])

theorem Agrees.fetchBloom (h : Agrees src cache) (conv : IdText) (bucket : String) :
    (coldSourceFetchBloomWithCache src cache conv bucket).1 = bloomOf src conv bucket ∧
      Agrees src (coldSourceFetchBloomWithCache src cache conv bucket).2 := by
  have hagrees := h.getShard bloomShard conv bucket
  unfold coldSourceFetchBloomWithCache
  rcases hget : Search.getShard bloomShard cache conv bucket with ⟨found, cache'⟩
  rw [hget] at hagrees
  cases found with
  | some filter => exact ⟨(h.bloomOf_of_getShard (by rw [hget])).symm, hagrees⟩
  | none =>
      cases hbloom : bloomOf src conv bucket with
      | none => exact ⟨rfl, hagrees⟩
      | some filter => exact ⟨rfl, hagrees.putShard fun _ => hbloom⟩

end Agreement

end KChatCore.Search
