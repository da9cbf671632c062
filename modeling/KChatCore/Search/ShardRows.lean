import KChatCore.Search.ColdLane
import KChatCore.Search.FuzzyAgreement

/-!
# `Search.ShardRows` — where a cold search has its rows from

A contribution is that of a text row of a shard. What holds of every text row that the source returns, and that the cache
has, holds of the row behind each contribution, in all three cold searches (`RowsHold`).

* `mem_coldHits`, `mem_parallelHits` — a contribution is of a bucket in scope, and of a row of one of its shards.
-/

namespace KChatCore.Search

open Lib LocalStore

/-- The rows of an entry under a text key. -/
def TextRows (P : IdText → String → FtsRow → Prop) (key : ShardCacheKey) (shard : CachedShard) : Prop :=
  key.indexType = .text → ∀ rows, textShard.unwrap shard = some rows → ∀ row ∈ rows, P key.conversationId key.timeBucket row

/-- **Every text row of the source, and of the cache, satisfies `P`**, by the bucket it is of. -/
structure RowsHold (P : IdText → String → FtsRow → Prop) (src : ColdShardSource) (cache : Option ShardCache) : Prop where
  source : ∀ conv bucket rows, src.fetchTextRows conv bucket = .ok rows → ∀ row ∈ rows, P conv bucket row
  cache : CacheHolds (TextRows P) cache

/-- **A row of a shard of a bucket**: the source returns it, or the cache has it. -/
inductive OfShard (src : ColdShardSource) (cache : Option ShardCache) (conv : IdText) (bucket : String) (row : FtsRow) : Prop
  | fetched {rows : List FtsRow} (hrows : src.fetchTextRows conv bucket = .ok rows) (hrow : row ∈ rows)
  | cached {c : ShardCache} {entry : LruEntry CachedShard} {rows : List FtsRow} (hc : cache = some c)
      (hentry : c.lru.entries.lookup ⟨conv, bucket, .text⟩ = some entry) (hrows : textShard.unwrap entry.value = some rows)
      (hrow : row ∈ rows)

theorem rowsHold_ofShard (src : ColdShardSource) (cache : Option ShardCache) : RowsHold (OfShard src cache) src cache where
  source _ _ _ hrows _ hrow := .fetched hrows hrow
  cache c hc key entry hentry htype rows hrows row hrow := by
    obtain ⟨conv, bucket, indexType⟩ := key
    obtain rfl : indexType = .text := htype
    exact .cached hc hentry hrows hrow

/-- A contribution of one of the rows of a bucket. -/
def OfRow (P : IdText → String → FtsRow → Prop) (bucket : IdText × String) (hit : ColdHit) : Prop :=
  ∃ row, P bucket.1 bucket.2 row ∧ hit = .ofRow row hit.rank

section Rows

variable {P : IdText → String → FtsRow → Prop} {E : SearchPlatform} {query : SearchQuery} {src : ColdShardSource}
  {policy : TenantSearchPolicy} {cache : Option ShardCache} {bucket : IdText × String} {ftsRows : List FtsRow}
  {fuzzyRows : List FuzzyRow} {hit : ColdHit}

/-- **A contribution of a bucket is that of one of its text rows.** -/
theorem exists_row_of_mem_bucketHits (h : hit ∈ bucketHits E query ftsRows fuzzyRows) :
    ∃ row ∈ ftsRows, hit = .ofRow row hit.rank := by
  rw [bucketHits_eq] at h
  rcases List.mem_append.mp h with htext | hfuzzy
  · obtain ⟨row, hrow, hhit⟩ := List.mem_filterMap.mp htext
    unfold textRowHit at hhit
    dsimp only at hhit
    split_ifs at hhit
    obtain rfl := Option.some.inj hhit
    exact ⟨row, hrow, rfl⟩
  · unfold fuzzyBranch at hfuzzy
    dsimp only at hfuzzy
    split_ifs at hfuzzy
    · exact absurd hfuzzy List.not_mem_nil
    · obtain ⟨id, -, hhit⟩ := List.mem_filterMap.mp hfuzzy
      unfold fuzzyRowsHit metaById at hhit
      obtain ⟨info, hinfo, hhit⟩ := Option.bind_eq_some_iff.mp hhit
      split_ifs at hhit
      obtain ⟨score, -, rfl⟩ := Option.map_eq_some_iff.mp hhit
      exact ⟨info, List.mem_reverse.mp (List.mem_of_find?_eq_some hinfo), rfl⟩

/-! ## Through the cache -/

theorem RowsHold.getShard {α : Type} (h : RowsHold P src cache) (kind : ShardKind α) (conv : IdText) (bucket : String) :
    RowsHold P src (getShard kind cache conv bucket).2 := ⟨h.source, h.cache.getShard kind conv bucket⟩

theorem RowsHold.of_getShard (h : RowsHold P src cache) {conv : IdText} {bucket : String} {rows : List FtsRow}
    (hget : (Search.getShard textShard cache conv bucket).1 = some rows) : ∀ row ∈ rows, P conv bucket row := by
  obtain ⟨shard, hshard, hrows⟩ := h.cache.of_getShard hget
  exact hshard rfl rows hrows

theorem RowsHold.putText (h : RowsHold P src cache) {conv : IdText} {bucket : String} {rows : List FtsRow}
    (hrows : ∀ row ∈ rows, P conv bucket row) : RowsHold P src (putShard textShard cache conv bucket rows) := by
  refine ⟨h.source, h.cache.putShard ?_⟩
  intro _ rows' hrows'
  obtain rfl := Option.some.inj hrows'
  exact hrows

/-- A shard of another kind has no text rows. -/
theorem RowsHold.putOther {α : Type} (h : RowsHold P src cache) {kind : ShardKind α} (hkind : kind.indexType ≠ .text)
    (conv : IdText) (bucket : String) (shard : α) : RowsHold P src (putShard kind cache conv bucket shard) :=
  ⟨h.source, h.cache.putShard fun htype => absurd htype hkind⟩

theorem RowsHold.fetchText (h : RowsHold P src cache) (conv : IdText) (bucket : String) :
    (∀ rows, (coldSourceFetchTextWithCache src cache conv bucket).1 = .ok rows → ∀ row ∈ rows, P conv bucket row) ∧
      RowsHold P src (coldSourceFetchTextWithCache src cache conv bucket).2 := by
  have hgot := h.getShard textShard conv bucket
  unfold coldSourceFetchTextWithCache fetchWithCache
  rcases hget : Search.getShard textShard cache conv bucket with ⟨found, cache'⟩
  rw [hget] at hgot
  cases found with
  | some rows =>
      refine ⟨?_, hgot⟩
      intro rows' hrows'
      obtain rfl := Except.ok.inj hrows'
      exact h.of_getShard (by rw [hget])
  | none =>
      cases hfetch : src.fetchTextRows conv bucket with
      | error fault => exact ⟨fun rows hrows => absurd hrows (by simp), hgot⟩
      | ok rows =>
          refine ⟨?_, hgot.putText (h.source conv bucket rows hfetch)⟩
          intro rows' hrows'
          obtain rfl := Except.ok.inj hrows'
          exact h.source conv bucket rows hfetch

theorem RowsHold.fetchFuzzy (h : RowsHold P src cache) (conv : IdText) (bucket : String) :
    RowsHold P src (coldSourceFetchFuzzyWithCache src cache conv bucket).2 := by
  have hgot := h.getShard fuzzyShard conv bucket
  unfold coldSourceFetchFuzzyWithCache fetchWithCache
  rcases hget : Search.getShard fuzzyShard cache conv bucket with ⟨found, cache'⟩
  rw [hget] at hgot
  cases found with
  | some rows => exact hgot
  | none =>
      cases src.fetchFuzzyRows conv bucket with
      | error fault => exact hgot
      | ok rows => exact hgot.putOther (by simp [fuzzyShard]) conv bucket rows

theorem RowsHold.fetchBloom (h : RowsHold P src cache) (conv : IdText) (bucket : String) :
    RowsHold P src (coldSourceFetchBloomWithCache src cache conv bucket).2 := by
  have hgot := h.getShard bloomShard conv bucket
  unfold coldSourceFetchBloomWithCache
  rcases hget : Search.getShard bloomShard cache conv bucket with ⟨found, cache'⟩
  rw [hget] at hgot
  cases found with
  | some filter => exact hgot
  | none =>
      cases bloomOf src conv bucket with
      | none => exact hgot
      | some filter => exact hgot.putOther (by simp [bloomShard]) conv bucket filter

/-! ## Bucket after bucket -/

/-- **One bucket.** -/
theorem RowsHold.readBucket (h : RowsHold P src cache) (bucket : IdText × String) :
    (∀ hit ∈ hitsOf [(readBucket E query src policy cache bucket).1], OfRow P bucket hit) ∧
      RowsHold P src (readBucket E query src policy cache bucket).2 := by
  have hbloom := h.fetchBloom bucket.1 bucket.2
  unfold Search.readBucket
  rcases hresult : coldSourceFetchBloomWithCache src cache bucket.1 bucket.2 with ⟨bloom, cache₁⟩
  rw [hresult] at hbloom
  dsimp only at hbloom ⊢
  split_ifs
  · exact ⟨fun hit hhit => absurd hhit (by simp [hitsOf]), hbloom⟩
  · obtain ⟨hrows, htext⟩ := hbloom.fetchText bucket.1 bucket.2
    rcases hresult : coldSourceFetchTextWithCache src cache₁ bucket.1 bucket.2 with ⟨text, cache₂⟩
    rw [hresult] at hrows htext
    cases text with
    | error fault => exact ⟨fun hit hhit => absurd hhit (by simp [hitsOf]), htext⟩
    | ok ftsRows =>
        have hfuzzy := htext.fetchFuzzy bucket.1 bucket.2
        dsimp only at hfuzzy ⊢
        rcases hresult : coldSourceFetchFuzzyWithCache src cache₂ bucket.1 bucket.2 with ⟨fuzzy, cache₃⟩
        rw [hresult] at hfuzzy
        cases fuzzy with
        | error fault => exact ⟨fun hit hhit => absurd hhit (by simp [hitsOf]), hfuzzy⟩
        | ok fuzzyRows =>
            refine ⟨?_, hfuzzy⟩
            intro hit hhit
            rw [hitsOf, List.flatMap_singleton] at hhit
            obtain ⟨row, hrow, hof⟩ := exists_row_of_mem_bucketHits hhit
            exact ⟨row, hrows ftsRows rfl row hrow, hof⟩

/-- **All buckets.** -/
theorem RowsHold.visitBuckets (h : RowsHold P src cache) (buckets : List (IdText × String)) :
    ∀ hit ∈ hitsOf (visitBuckets E query src policy cache buckets).1, ∃ bucket ∈ buckets, OfRow P bucket hit := by
  induction buckets generalizing cache with
  | nil =>
      intro hit hhit
      exact absurd hhit List.not_mem_nil
  | cons bucket buckets ih =>
      obtain ⟨hread, hcache⟩ := @RowsHold.readBucket P E query src policy _ h bucket
      unfold Search.visitBuckets
      rcases hresult : Search.readBucket E query src policy cache bucket with ⟨read, cache'⟩
      rw [hresult] at hread hcache
      dsimp only at hread hcache ⊢
      intro hit hhit
      rw [hitsOf_cons] at hhit
      rcases List.mem_append.mp hhit with hhit | hhit
      · exact ⟨bucket, List.mem_cons_self, hread hit hhit⟩
      · obtain ⟨bucket', hmem, hof⟩ := ih hcache hit hhit
        exact ⟨bucket', List.mem_cons_of_mem _ hmem, hof⟩

/-! ## The workers -/

/-- The text of a prefetched bucket. -/
def PrefetchRows (P : IdText → String → FtsRow → Prop) (buckets : List (IdText × String)) (prefetch : BucketPrefetch) : Prop :=
  ∃ bucket ∈ buckets, ∀ rows, prefetch.text = .ok rows → ∀ row ∈ rows, P bucket.1 bucket.2 row

/-- What a worker has in hand. -/
def Worker.Rows (P : IdText → String → FtsRow → Prop) (buckets : List (IdText × String)) : Worker → Prop
  | claim | exited => True
  | bloomGet _ bucket | bloomPut _ bucket _ | textGet _ bucket _ => bucket ∈ buckets
  | textPut _ bucket _ rows => bucket ∈ buckets ∧ ∀ row ∈ rows, P bucket.1 bucket.2 row
  | fuzzyGet _ bucket _ text | fuzzyPut _ bucket _ text _ =>
      bucket ∈ buckets ∧ ∀ rows, text = .ok rows → ∀ row ∈ rows, P bucket.1 bucket.2 row
  | fill _ prefetch => PrefetchRows P buckets prefetch

/-- What the workers share. -/
structure FetchRows (P : IdText → String → FtsRow → Prop) (src : ColdShardSource) (buckets : List (IdText × String))
    (s : FetchState) : Prop where
  cache : RowsHold P src s.cache
  slots : ∀ prefetch, some prefetch ∈ s.slots → PrefetchRows P buckets prefetch

variable {buckets : List (IdText × String)} {s : FetchState}

theorem FetchRows.withCache (h : FetchRows P src buckets s) {cache : Option ShardCache} (hcache : RowsHold P src cache) :
    FetchRows P src buckets { s with cache := cache } := ⟨hcache, h.slots⟩

theorem rows_afterBloom {i : Nat} (hbucket : bucket ∈ buckets) (bloom : Option BloomFilter) :
    (afterBloom E query policy i bucket bloom).Rows P buckets := by
  unfold afterBloom
  split_ifs
  · refine ⟨bucket, hbucket, ?_⟩
    intro rows hrows row hrow
    obtain rfl := Except.ok.inj hrows
    exact absurd hrow List.not_mem_nil
  · exact hbucket

/-- **A move of a worker.** -/
theorem FetchRows.move {w : Worker} (h : FetchRows P src buckets s) (hw : w.Rows P buckets) :
    FetchRows P src buckets (moveWorker E query src policy buckets s w).1 ∧
      (moveWorker E query src policy buckets s w).2.Rows P buckets := by
  cases w with
  | claim =>
      refine ⟨⟨h.cache, h.slots⟩, ?_⟩
      unfold moveWorker
      cases hbucket : buckets[s.cursor]? with
      | none => trivial
      | some bucket => exact List.mem_of_getElem? hbucket
  | bloomGet i bucket =>
      unfold moveWorker
      dsimp only
      refine ⟨h.withCache (h.cache.getShard _ _ _), ?_⟩
      cases (getShard bloomShard s.cache bucket.1 bucket.2).1 with
      | some filter => exact rows_afterBloom hw (some filter)
      | none =>
          cases bloomOf src bucket.1 bucket.2 with
          | some filter => exact hw
          | none => exact rows_afterBloom hw none
  | bloomPut i bucket filter =>
      -- a filter or a list of tokens is under another key than text rows
      have hput : RowsHold P src (putShard bloomShard s.cache bucket.1 bucket.2 filter) :=
        h.cache.putOther (by simp [bloomShard]) _ _ _
      unfold moveWorker
      dsimp only
      exact ⟨h.withCache hput, rows_afterBloom hw (some filter)⟩
  | textGet i bucket bloom =>
      unfold moveWorker
      dsimp only
      refine ⟨h.withCache (h.cache.getShard _ _ _), ?_⟩
      cases hfound : (getShard textShard s.cache bucket.1 bucket.2).1 with
      | some rows =>
          refine ⟨hw, ?_⟩
          intro rows' hrows'
          obtain rfl := Except.ok.inj hrows'
          exact h.cache.of_getShard hfound
      | none =>
          cases hrows : src.fetchTextRows bucket.1 bucket.2 with
          | ok rows => exact ⟨hw, h.cache.source _ _ rows hrows⟩
          | error fault => exact ⟨hw, fun rows hrows => absurd hrows (by simp)⟩
  | textPut i bucket bloom rows =>
      obtain ⟨hbucket, hrows⟩ := hw
      have hput : RowsHold P src (putShard textShard s.cache bucket.1 bucket.2 rows) := h.cache.putText hrows
      unfold moveWorker
      dsimp only
      refine ⟨h.withCache hput, hbucket, ?_⟩
      intro rows' hrows'
      obtain rfl := Except.ok.inj hrows'
      exact hrows
  | fuzzyGet i bucket bloom text =>
      obtain ⟨hbucket, htext⟩ := hw
      unfold moveWorker
      dsimp only
      refine ⟨h.withCache (h.cache.getShard _ _ _), ?_⟩
      cases (getShard fuzzyShard s.cache bucket.1 bucket.2).1 with
      | some rows => exact ⟨bucket, hbucket, htext⟩
      | none =>
          cases src.fetchFuzzyRows bucket.1 bucket.2 with
          | ok rows => exact ⟨hbucket, htext⟩
          | error fault => exact ⟨bucket, hbucket, htext⟩
  | fuzzyPut i bucket bloom text rows =>
      obtain ⟨hbucket, htext⟩ := hw
      have hput : RowsHold P src (putShard fuzzyShard s.cache bucket.1 bucket.2 rows) :=
        h.cache.putOther (by simp [fuzzyShard]) _ _ _
      unfold moveWorker
      dsimp only
      exact ⟨h.withCache hput, bucket, hbucket, htext⟩
  | fill i prefetch =>
      refine ⟨⟨h.cache, ?_⟩, trivial⟩
      intro p hp
      have hset : some p ∈ s.slots.set i (some prefetch) := hp
      rcases List.mem_or_eq_of_mem_set hset with hold | hnew
      · exact h.slots p hold
      · obtain rfl := Option.some.inj hnew
        exact hw
  | exited => exact ⟨h, trivial⟩

/-- **Under every schedule.** -/
theorem RowsHold.parallelFetchBuckets (h : RowsHold P src cache) (buckets : List (IdText × String)) (concurrency : Nat)
    (schedule : List Nat) : ∀ hit ∈ (parallelFetchBuckets E query src policy buckets cache concurrency schedule).1.flatMap
      (prefetchHits E query policy), ∃ bucket ∈ buckets, OfRow P bucket hit := by
  -- no slot is filled, and no worker has anything in hand
  have hstart : FetchRows P src buckets ⟨cache, 0, List.replicate buckets.length none⟩ := by
    refine ⟨h, ?_⟩
    intro prefetch hmem
    exact absurd (List.eq_of_mem_replicate hmem) (by simp)
  have hworkers : ∀ w ∈ (startWorkers buckets cache concurrency).locals, w.Rows P buckets := by
    intro w hw
    rw [List.eq_of_mem_replicate hw]
    trivial
  have hend : FetchRows P src buckets (runWorkers E query src policy buckets cache concurrency schedule).shared :=
    (Threads.runAll_holds (S := FetchRows P src buckets) (L := fun _ w => w.Rows P buckets)
      (fun s w h hw => h.move hw) (fun s w w' _ _ hw' => hw') hstart hworkers schedule).1
  intro hit hhit
  obtain ⟨prefetch, hprefetch, hhit⟩ := List.mem_flatMap.mp hhit
  obtain ⟨slot, hslot, hsome⟩ := List.mem_filterMap.mp hprefetch
  obtain rfl : slot = some prefetch := hsome
  obtain ⟨bucket, hbucket, hrows⟩ := hend.slots prefetch hslot
  refine ⟨bucket, hbucket, ?_⟩
  -- a bucket that was pruned, or failed, has no hits
  unfold prefetchHits at hhit
  split_ifs at hhit
  · exact absurd hhit List.not_mem_nil
  · cases htext : prefetch.text with
    | error fault =>
        rw [htext] at hhit
        exact absurd hhit List.not_mem_nil
    | ok ftsRows =>
        cases hfuzzy : prefetch.fuzzy with
        | error fault =>
            rw [htext, hfuzzy] at hhit
            exact absurd hhit List.not_mem_nil
        | ok fuzzyRows =>
            rw [htext, hfuzzy] at hhit
            obtain ⟨row, hrow, hof⟩ := exists_row_of_mem_bucketHits hhit
            exact ⟨row, hrows ftsRows htext row hrow, hof⟩

end Rows

/-! ## What the searches read -/

namespace QueryEngine

variable {P : IdText → String → FtsRow → Prop} {e : QueryEngine} {E : SearchPlatform} {query : SearchQuery}
  {scope : SearchScope} {src : ColdShardSource} {policy : TenantSearchPolicy} {cache : Option ShardCache} {hit : ColdHit}

theorem bucketInScope_of_mem {buckets : List (IdText × String)} (h : e.bucketsToRead query scope src policy = .ok buckets)
    {n : Nat} {bucket : IdText × String} (hbucket : bucket ∈ buckets.take n) : e.bucketInScope query bucket = true := by
  unfold bucketsToRead at h
  split_ifs at h
  · obtain rfl := Except.ok.inj h
    exact absurd (List.mem_of_mem_take hbucket) List.not_mem_nil
  · cases hall : src.coldBuckets with
    | error fault =>
        rw [hall] at h
        exact absurd h (by simp [Except.map])
    | ok all =>
        rw [hall] at h
        obtain rfl : all.filter (e.bucketInScope query) = buckets := Except.ok.inj h
        exact (List.mem_filter.mp (List.mem_of_mem_take hbucket)).2

/-- **A contribution to the sequential searches**: of a bucket in scope, and of a row of one of its shards. -/
theorem mem_coldHits (hrows : RowsHold P src cache) (h : hit ∈ e.coldHits E query scope src policy cache) :
    ∃ bucket, e.bucketInScope query bucket = true ∧ OfRow P bucket hit := by
  unfold coldHits at h
  cases hbuckets : e.bucketsToRead query scope src policy with
  | error fault =>
      rw [hbuckets] at h
      exact absurd h List.not_mem_nil
  | ok buckets =>
      rw [hbuckets] at h
      obtain ⟨bucket, hmem, hof⟩ := hrows.visitBuckets _ hit h
      exact ⟨bucket, bucketInScope_of_mem hbuckets hmem, hof⟩

/-- **A contribution to the parallel search.** -/
theorem mem_parallelHits {concurrency : Nat} {schedule : List Nat} (hrows : RowsHold P src cache)
    (h : hit ∈ e.parallelHits E query scope src policy cache concurrency schedule) :
    ∃ bucket, e.bucketInScope query bucket = true ∧ OfRow P bucket hit := by
  unfold parallelHits at h
  cases hbuckets : e.bucketsToRead query scope src policy with
  | error fault =>
      rw [hbuckets] at h
      exact absurd h List.not_mem_nil
  | ok buckets =>
      rw [hbuckets] at h
      obtain ⟨bucket, hmem, hof⟩ := hrows.parallelFetchBuckets _ concurrency schedule hit h
      exact ⟨bucket, bucketInScope_of_mem hbuckets hmem, hof⟩

end QueryEngine

end KChatCore.Search
