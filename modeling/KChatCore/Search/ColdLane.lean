import KChatCore.Search.Lanes
import KChatCore.Search.ParallelFetch

/-!
# `Search.ColdLane` — what a cold search adds to the local one

The three cold searches match rows of shards (`coldReads`, `parallelHits`, `coldHits`) and merge them one by one. What they add is described by names,
like the other lanes: a message the local search does not name is named once, by the first row that matches under its id
(`ColdNamed`).

* `coldNamed_full`, `coldNamed_parallel`, `coldNamed_streaming` — nothing else is returned or emitted;
* `exists_mem_full`, `exists_mem_parallel` — and with a limit that leaves room, all of it is returned.
-/

namespace KChatCore.Search

open Lib LocalStore

/-- The first contribution under its id. -/
def FirstHit (hits : List ColdHit) (hit : ColdHit) : Prop :=
  hits.find? (fun h => decide (h.messageId = hit.messageId)) = some hit

/-- What a contribution names. -/
def ColdHit.named (hit : ColdHit) : Named := (coldResult hit).named

/-- **What a cold search names**: what the local search names, and the first contribution under every other id. -/
inductive ColdNamed (found : List RankedResult) (hits : List ColdHit) : Named → Prop
  | here {r : RankedResult} (hr : r ∈ found) : ColdNamed found hits r.named
  | cold {hit : ColdHit} (hfirst : FirstHit hits hit) (hnew : ∀ r ∈ found, r.messageId.toText ≠ hit.messageId) :
      ColdNamed found hits hit.named

theorem FirstHit.mem {hits : List ColdHit} {hit : ColdHit} (h : FirstHit hits hit) : hit ∈ hits :=
  List.mem_of_find?_eq_some h

/-- Every contribution has a first one under its id. -/
theorem exists_firstHit {hits : List ColdHit} {hit : ColdHit} (h : hit ∈ hits) :
    ∃ first, FirstHit hits first ∧ first.messageId = hit.messageId := by
  cases hfound : hits.find? (fun h => decide (h.messageId = hit.messageId)) with
  | none => exact absurd (List.find?_eq_none.mp hfound hit h) (by simp)
  | some first =>
      have hid : first.messageId = hit.messageId := by simpa using List.find?_some hfound
      refine ⟨first, ?_, hid⟩
      unfold FirstHit
      rw [hid]
      exact hfound

theorem FirstHit.append {hits : List ColdHit} {hit : ColdHit} (h : FirstHit hits hit) (more : List ColdHit) :
    FirstHit (hits ++ more) hit := by
  unfold FirstHit at h ⊢
  rw [List.find?_append, h]
  rfl

theorem ColdNamed.append {found : List RankedResult} {hits : List ColdHit} {n : Named} (h : ColdNamed found hits n)
    (more : List ColdHit) : ColdNamed found (hits ++ more) n := by
  cases h with
  | here hr => exact .here hr
  | cold hfirst hnew => exact .cold (hfirst.append more) hnew

/-! ## The merge -/

section Merge

variable {e : QueryEngine} {E : SearchPlatform} {found : List RankedResult} {hits : List ColdHit} {hit : ColdHit}
  {id : IdText} {r : RankedResult} {limit : Nat}

/-- A message the local search does not name has no entry yet. -/
theorem localById_lookup_eq_none : (localById found).lookup id = none ↔ ∀ r ∈ found, r.messageId.toText ≠ id := by
  constructor
  · rintro hnone r hr rfl
    obtain ⟨r', -, -, hfound⟩ : ∃ r' ∈ found, r'.messageId.toText = r.messageId.toText ∧
        (localById found).lookup r.messageId.toText = some r' := lookup_insertHits_of_mem hr
    exact absurd (hnone.symm.trans hfound) (by simp)
  · intro hno
    by_contra hsome
    obtain ⟨r, hr⟩ := Option.ne_none_iff_exists'.mp hsome
    obtain ⟨r', hr', hid, -⟩ := of_lookup_insertHits hr
    exact hno r' hr' hid

theorem mem_of_localById_lookup (h : (localById found).lookup id = some r) : r ∈ found ∧ r.messageId.toText = id := by
  obtain ⟨r', hr', hid, rfl⟩ := of_lookup_insertHits h
  exact ⟨hr', hid⟩

/-- What an entry of the merge is named: by a local result, or by the first contribution. -/
theorem named_lookup_merged : ((hits.foldl mergeColdHit (localById found)).lookup id).map RankedResult.named =
    (((localById found).lookup id).map RankedResult.named).or
      ((hits.find? fun hit => decide (hit.messageId = id)).map ColdHit.named) := by
  have hadd : ∀ (r : RankedResult) (hit : ColdHit), (addRank r hit).named = r.named := fun r hit => rfl
  unfold mergeColdHit
  rw [lookup_foldl_mergeHit hadd]
  congr 1
  induction hits with
  | nil => rfl
  | cons hit hits ih =>
      rw [List.findSome?_cons, List.find?_cons]
      by_cases hid : hit.messageId = id
      · rw [if_pos hid, decide_eq_true hid]
        rfl
      · rw [if_neg hid, decide_eq_false hid]
        exact ih

/-- **An entry of the merge is named by what came first under its id.** -/
theorem coldNamed_of_lookup (h : (hits.foldl mergeColdHit (localById found)).lookup id = some r) :
    ColdNamed found hits r.named := by
  have hname := @named_lookup_merged found hits id
  rw [h] at hname
  cases hlocal : (localById found).lookup id with
  | some r' =>
      rw [hlocal] at hname
      obtain ⟨hr', -⟩ := mem_of_localById_lookup hlocal
      exact Option.some.inj hname ▸ ColdNamed.here hr'
  | none =>
      rw [hlocal] at hname
      obtain ⟨hit, hhit, hnamed⟩ := Option.map_eq_some_iff.mp hname.symm
      have hid : hit.messageId = id := by simpa using List.find?_some hhit
      subst hid
      exact hnamed ▸ ColdNamed.cold hhit (localById_lookup_eq_none.mp hlocal)

/-- **Every message that only the shards have gets its entry.** -/
theorem exists_lookup_merged (hfirst : FirstHit hits hit) (hnew : ∀ r ∈ found, r.messageId.toText ≠ hit.messageId) :
    ∃ r, (hits.foldl mergeColdHit (localById found)).lookup hit.messageId = some r ∧ r.named = hit.named := by
  have hname := @named_lookup_merged found hits hit.messageId
  rw [localById_lookup_eq_none.mpr hnew, hfirst] at hname
  exact Option.map_eq_some_iff.mp hname

theorem length_merged_le :
    (values (hits.foldl mergeColdHit (localById found))).length ≤ found.length + hits.length := by
  have hkeys : (values (hits.foldl mergeColdHit (localById found))).length ≤
      (found.map (fun r => r.messageId.toText) ++ hits.map ColdHit.messageId).length := by
    apply length_values_le
    intro id hid
    obtain ⟨r, hr⟩ := Option.ne_none_iff_exists'.mp hid
    have hname := @named_lookup_merged found hits id
    rw [hr] at hname
    cases hlocal : (localById found).lookup id with
    | some r' =>
        obtain ⟨hr', rfl⟩ := mem_of_localById_lookup hlocal
        exact List.mem_append_left _ (List.mem_map_of_mem hr')
    | none =>
        rw [hlocal] at hname
        obtain ⟨hit, hhit, -⟩ := Option.map_eq_some_iff.mp hname.symm
        have hid : hit.messageId = id := by simpa using List.find?_some hhit
        exact List.mem_append_right _ (hid ▸ List.mem_map_of_mem (List.mem_of_find?_eq_some hhit))
  rwa [List.length_append, List.length_map, List.length_map] at hkeys

theorem map_named_applyColdRecencyWeight (localIds : List IdText) (results : List RankedResult) :
    (applyColdRecencyWeight E localIds results).map RankedResult.named = results.map RankedResult.named := by
  unfold applyColdRecencyWeight
  dsimp only
  rw [List.map_map]
  apply List.map_congr_left
  intro r _
  show RankedResult.named (if _ then _ else _) = _
  split_ifs <;> rfl

/-- **Every merged result is accounted for.** -/
theorem coldNamed_of_mem_rankMerged (h : r ∈ e.rankMerged E found (hits.foldl mergeColdHit (localById found)) limit) :
    ColdNamed found hits r.named := by
  obtain ⟨r', hr', hnamed⟩ := QueryEngine.exists_named_of_map_eq (map_named_applyColdRecencyWeight _ _) (mem_of_mem_top h)
  obtain ⟨id, hid⟩ := mem_values.mp (QueryEngine.mem_intoValues.mp hr')
  exact hnamed ▸ coldNamed_of_lookup hid

/-- **With room, every contribution is merged.** -/
theorem exists_mem_rankMerged (hroom : found.length + hits.length ≤ limit) (hfirst : FirstHit hits hit)
    (hnew : ∀ r ∈ found, r.messageId.toText ≠ hit.messageId) :
    ∃ r ∈ e.rankMerged E found (hits.foldl mergeColdHit (localById found)) limit, r.named = hit.named := by
  obtain ⟨r, hr, hname⟩ := exists_lookup_merged hfirst hnew
  obtain ⟨r', hr', hnamed⟩ := QueryEngine.exists_named_of_map_eq (map_named_applyColdRecencyWeight
    (E := E) (localById found).keys _).symm (QueryEngine.mem_intoValues (e := e) |>.mpr (mem_values.mpr ⟨_, hr⟩))
  refine ⟨r', (mem_top ?_).mpr hr', hnamed.trans hname⟩
  unfold applyColdRecencyWeight
  rw [List.length_map, QueryEngine.length_intoValues]
  exact length_merged_le.trans hroom

end Merge

/-! ## What the searches read -/

/-- What is read of some buckets. -/
def hitsOf (reads : List BucketRead) : List ColdHit :=
  reads.flatMap fun read =>
    match read with
    | .ok hits => hits.getD []
    | .error _ => []

/-- Bucket after bucket, whatever each of them gives. -/
def visitBuckets (E : SearchPlatform) (query : SearchQuery) (src : ColdShardSource) (policy : TenantSearchPolicy) :
    Option ShardCache → List (IdText × String) → List BucketRead × Option ShardCache
  | cache, [] => ([], cache)
  | cache, bucket :: buckets =>
      let (read, cache) := readBucket E query src policy cache bucket
      let (reads, cache) := visitBuckets E query src policy cache buckets
      (read :: reads, cache)

section Visits

variable {E : SearchPlatform} {query : SearchQuery} {src : ColdShardSource} {policy : TenantSearchPolicy}
  {cache : Option ShardCache}

theorem hitsOf_cons (read : BucketRead) (reads : List BucketRead) : hitsOf (read :: reads) = hitsOf [read] ++ hitsOf reads := by
  unfold hitsOf
  rw [List.flatMap_cons, List.flatMap_singleton]

/-- **Where no bucket fails, it does not matter that one could.** -/
theorem visitBuckets_of_readBuckets {buckets : List (IdText × String)} {hits : List ColdHit}
    (h : (readBuckets E query src policy cache buckets).1 = .ok hits) :
    hitsOf (visitBuckets E query src policy cache buckets).1 = hits ∧
      (visitBuckets E query src policy cache buckets).2 = (readBuckets E query src policy cache buckets).2 := by
  induction buckets generalizing cache hits with
  | nil => exact ⟨Except.ok.inj h, rfl⟩
  | cons bucket buckets ih =>
      unfold readBuckets at h ⊢
      unfold visitBuckets
      rcases hread : readBucket E query src policy cache bucket with ⟨read, cache'⟩
      rw [hread] at h
      cases read with
      | error fault => exact absurd h (by simp)
      | ok read =>
          dsimp only at h ⊢
          rcases hrest : readBuckets E query src policy cache' buckets with ⟨rest, cache''⟩
          rw [hrest] at h
          cases rest with
          | error fault => exact absurd h (by simp)
          | ok hits' =>
              obtain ⟨hhits, hcache⟩ := @ih cache' hits' (by rw [hrest])
              rw [hrest] at hcache
              refine ⟨?_, hcache⟩
              rw [hitsOf_cons, hhits, hitsOf, List.flatMap_singleton]
              exact Except.ok.inj h

end Visits

namespace QueryEngine

variable {e : QueryEngine} {E : SearchPlatform} {query : SearchQuery} {scope : SearchScope} {src : ColdShardSource}
  {policy : TenantSearchPolicy} {cache : Option ShardCache} {limit : Nat} {out : List RankedResult} {concurrency : Nat}
  {schedule : List Nat}

/-- The buckets a search is about; none for one that stays local. -/
def bucketsToRead (e : QueryEngine) (query : SearchQuery) (scope : SearchScope) (src : ColdShardSource)
    (policy : TenantSearchPolicy) : Except Error (List (IdText × String)) :=
  if staysLocal query scope policy then .ok []
  else src.coldBuckets.map fun buckets => buckets.filter (e.bucketInScope query)

/-- What a cold search returns for the local results, the buckets and what they contribute. -/
def mergeCold (e : QueryEngine) (E : SearchPlatform) (found : List RankedResult) (buckets : List (IdText × String))
    (hits : List ColdHit) (limit : Nat) : List RankedResult :=
  if buckets.isEmpty then found else e.rankMerged E found (hits.foldl mergeColdHit (localById found)) limit

theorem coldNamed_of_mem_mergeCold {found : List RankedResult} {buckets : List (IdText × String)} {hits : List ColdHit}
    {r : RankedResult} (h : r ∈ e.mergeCold E found buckets hits limit) : ColdNamed found hits r.named := by
  unfold mergeCold at h
  split_ifs at h
  · exact .here h
  · exact coldNamed_of_mem_rankMerged h

/-- **The sequential search**, once the local pass has returned. -/
theorem executeSearchWithColdSourceFull_eq {found : List RankedResult}
    (hfound : e.executeSearchWithLimit E query scope limit = .ok found) :
    e.executeSearchWithColdSourceFull E query scope src policy cache limit =
      match e.bucketsToRead query scope src policy with
      | .error fault => (.error (.source fault), cache)
      | .ok buckets =>
          match readBuckets E query src policy cache (buckets.take policy.maxColdBucketsPerSearch) with
          | (.error fault, cache) => (.error (.source fault), cache)
          | (.ok hits, cache) => (.ok (e.mergeCold E found buckets hits limit), cache) := by
  unfold executeSearchWithColdSourceFull bucketsToRead
  rw [hfound]
  dsimp only
  split_ifs with hlocal
  · simp only [List.take_nil]
    rfl
  · cases src.coldBuckets with
    | error fault => rfl
    | ok all =>
        simp only [Except.map]
        split_ifs with hempty
        · rw [List.isEmpty_iff.mp hempty, List.take_nil]
          rfl
        · rcases readBuckets E query src policy cache _ with ⟨_ | hits, cache'⟩
          · rfl
          · exact Prod.ext (congrArg Except.ok (if_neg hempty).symm) rfl

/-- **The parallel search**, once the local pass has returned. -/
theorem executeSearchWithColdSourceFullParallel_eq {found : List RankedResult}
    (hfound : e.executeSearchWithLimit E query scope limit = .ok found) :
    e.executeSearchWithColdSourceFullParallel E query scope src policy cache limit concurrency schedule =
      match e.bucketsToRead query scope src policy with
      | .error fault => (.error (.source fault), cache)
      | .ok buckets =>
          if buckets.isEmpty then (.ok found, cache)
          else
            let fetched := parallelFetchBuckets E query src policy (buckets.take policy.maxColdBucketsPerSearch) cache
              concurrency schedule
            (.ok (e.mergeCold E found buckets (fetched.1.flatMap (prefetchHits E query policy)) limit), fetched.2) := by
  unfold executeSearchWithColdSourceFullParallel bucketsToRead
  rw [hfound]
  dsimp only
  split_ifs with hlocal
  · rfl
  · cases src.coldBuckets with
    | error fault => rfl
    | ok all =>
        simp only [Except.map]
        split_ifs with hempty
        · rfl
        · unfold mergeCold
          simp only [if_neg hempty]

/-- The bucket loop of the streaming search. -/
def streamBuckets (e : QueryEngine) (E : SearchPlatform) (query : SearchQuery) (src : ColdShardSource)
    (policy : TenantSearchPolicy) (cache : Option ShardCache) (found : List RankedResult) (buckets : List (IdText × String)) :
    StreamState :=
  buckets.foldl (e.streamBucket E query src policy) ⟨cache, localById found, [.localResults found], 0, 0⟩

/-- **The streaming search**, once the local pass has returned: it ends at once without a bucket to read. -/
theorem executeSearchStreaming_eq {found : List RankedResult}
    (hfound : e.executeSearchWithLimit E query scope limit = .ok found) :
    e.executeSearchStreaming E query scope src policy cache limit =
      match e.bucketsToRead query scope src policy with
      | .error fault => ⟨[.localResults found, .searchComplete found 0 0], .error (.source fault), cache⟩
      | .ok buckets =>
          if (buckets.take policy.maxColdBucketsPerSearch).isEmpty then
            ⟨[.localResults found, .searchComplete found 0 0], .ok found, cache⟩
          else
            let s := e.streamBuckets E query src policy cache found (buckets.take policy.maxColdBucketsPerSearch)
            let out := e.rankMerged E found s.byId limit
            ⟨s.events ++ [.searchComplete out s.fetched s.skipped], .ok out, s.cache⟩ := by
  unfold executeSearchStreaming bucketsToRead
  rw [hfound]
  dsimp only
  split_ifs with hlocal
  · simp only [List.take_nil, List.isEmpty_nil, if_true]
  · cases src.coldBuckets with
    | error fault => rfl
    | ok all => rfl

/-! ## What the shards contribute to each search -/

/-- **What the streaming search reads**: of each bucket that can be read. -/
def coldHits (e : QueryEngine) (E : SearchPlatform) (query : SearchQuery) (scope : SearchScope) (src : ColdShardSource)
    (policy : TenantSearchPolicy) (cache : Option ShardCache) : List ColdHit :=
  match e.bucketsToRead query scope src policy with
  | .ok buckets => hitsOf (visitBuckets E query src policy cache (buckets.take policy.maxColdBucketsPerSearch)).1
  | .error _ => []

/-- **What the sequential search reads**: of all buckets, or nothing. -/
def coldReads (e : QueryEngine) (E : SearchPlatform) (query : SearchQuery) (scope : SearchScope) (src : ColdShardSource)
    (policy : TenantSearchPolicy) (cache : Option ShardCache) : Except Error (List ColdHit) :=
  match e.bucketsToRead query scope src policy with
  | .ok buckets => (readBuckets E query src policy cache (buckets.take policy.maxColdBucketsPerSearch)).1
  | .error fault => .error fault

/-- **What the parallel search reads**, under a schedule. -/
def parallelHits (e : QueryEngine) (E : SearchPlatform) (query : SearchQuery) (scope : SearchScope) (src : ColdShardSource)
    (policy : TenantSearchPolicy) (cache : Option ShardCache) (concurrency : Nat) (schedule : List Nat) : List ColdHit :=
  match e.bucketsToRead query scope src policy with
  | .ok buckets =>
      (parallelFetchBuckets E query src policy (buckets.take policy.maxColdBucketsPerSearch) cache concurrency
        schedule).1.flatMap (prefetchHits E query policy)
  | .error _ => []

/-- Where all can be read, the sequential search reads what the streaming one reads. -/
theorem coldHits_of_coldReads {hits : List ColdHit} (h : e.coldReads E query scope src policy cache = .ok hits) :
    e.coldHits E query scope src policy cache = hits := by
  unfold coldReads at h
  unfold coldHits
  cases hbuckets : e.bucketsToRead query scope src policy with
  | error fault =>
      rw [hbuckets] at h
      exact absurd h (by simp)
  | ok buckets =>
      rw [hbuckets] at h
      exact (visitBuckets_of_readBuckets h).1

/-! ## Every result is accounted for -/

section Sound

variable {found : List RankedResult} {r : RankedResult}

/-- A search returns only after its local pass. -/
theorem local_of_full (h : (e.executeSearchWithColdSourceFull E query scope src policy cache limit).1 = .ok out) :
    ∃ found, e.executeSearchWithLimit E query scope limit = .ok found := by
  cases hfound : e.executeSearchWithLimit E query scope limit with
  | ok found => exact ⟨found, rfl⟩
  | error fault =>
      unfold executeSearchWithColdSourceFull at h
      rw [hfound] at h
      exact absurd h (by simp)

theorem local_of_parallel (h : (e.executeSearchWithColdSourceFullParallel E query scope src policy cache limit concurrency
    schedule).1 = .ok out) : ∃ found, e.executeSearchWithLimit E query scope limit = .ok found := by
  cases hfound : e.executeSearchWithLimit E query scope limit with
  | ok found => exact ⟨found, rfl⟩
  | error fault =>
      unfold executeSearchWithColdSourceFullParallel at h
      rw [hfound] at h
      exact absurd h (by simp)

/-- **The sequential search returns** what it merges, where all buckets can be read. -/
theorem full_eq_ok (hfound : e.executeSearchWithLimit E query scope limit = .ok found) :
    (e.executeSearchWithColdSourceFull E query scope src policy cache limit).1 = .ok out ↔
      ∃ buckets hits, e.bucketsToRead query scope src policy = .ok buckets ∧
        e.coldReads E query scope src policy cache = .ok hits ∧ out = e.mergeCold E found buckets hits limit := by
  rw [executeSearchWithColdSourceFull_eq hfound]
  unfold coldReads
  cases e.bucketsToRead query scope src policy with
  | error fault => simp
  | ok buckets =>
      dsimp only
      rcases hreads : readBuckets E query src policy cache (buckets.take policy.maxColdBucketsPerSearch) with ⟨reads, cache'⟩
      cases reads with
      | error fault => simp
      | ok hits =>
          constructor
          · intro hout
            exact ⟨buckets, hits, rfl, rfl, (Except.ok.inj hout).symm⟩
          · rintro ⟨buckets', hits', hbuckets, hhits, rfl⟩
            obtain rfl := Except.ok.inj hbuckets
            obtain rfl := Except.ok.inj hhits
            rfl

/-- **The parallel search returns** what it merges. -/
theorem parallel_eq_ok (hfound : e.executeSearchWithLimit E query scope limit = .ok found) :
    (e.executeSearchWithColdSourceFullParallel E query scope src policy cache limit concurrency schedule).1 = .ok out ↔
      ∃ buckets, e.bucketsToRead query scope src policy = .ok buckets ∧
        out = e.mergeCold E found buckets (e.parallelHits E query scope src policy cache concurrency schedule) limit := by
  rw [executeSearchWithColdSourceFullParallel_eq hfound]
  unfold parallelHits
  cases e.bucketsToRead query scope src policy with
  | error fault => simp
  | ok buckets =>
      have hmerge : ∀ hits, e.mergeCold E found buckets hits limit = out ↔ ∃ buckets', (Except.ok buckets : Except Error _) =
          .ok buckets' ∧ out = e.mergeCold E found buckets' hits limit := by
        intro hits
        constructor
        · intro h
          exact ⟨buckets, rfl, h.symm⟩
        · rintro ⟨buckets', hbuckets, rfl⟩
          rw [Except.ok.inj hbuckets]
      dsimp only
      rw [← hmerge]
      by_cases hempty : buckets.isEmpty = true
      · simp [hempty, mergeCold]
      · simp [hempty]

theorem coldNamed_full (h : (e.executeSearchWithColdSourceFull E query scope src policy cache limit).1 = .ok out)
    (hr : r ∈ out) : ∃ found, e.executeSearchWithLimit E query scope limit = .ok found ∧
      ∃ hits, e.coldReads E query scope src policy cache = .ok hits ∧ ColdNamed found hits r.named := by
  obtain ⟨found, hfound⟩ := local_of_full h
  obtain ⟨buckets, hits, -, hreads, rfl⟩ := (full_eq_ok hfound).mp h
  exact ⟨found, hfound, hits, hreads, coldNamed_of_mem_mergeCold hr⟩

theorem coldNamed_parallel (h : (e.executeSearchWithColdSourceFullParallel E query scope src policy cache limit concurrency
    schedule).1 = .ok out) (hr : r ∈ out) :
    ∃ found, e.executeSearchWithLimit E query scope limit = .ok found ∧
      ColdNamed found (e.parallelHits E query scope src policy cache concurrency schedule) r.named := by
  obtain ⟨found, hfound⟩ := local_of_parallel h
  obtain ⟨buckets, -, rfl⟩ := (parallel_eq_ok hfound).mp h
  exact ⟨found, hfound, coldNamed_of_mem_mergeCold hr⟩

/-! ### The streaming search -/

/-- The state of the bucket loop once `reads` were read. -/
structure Streamed (found : List RankedResult) (reads : List BucketRead) (s : StreamState) : Prop where
  byId : s.byId = (hitsOf reads).foldl mergeColdHit (localById found)
  events : ∀ event ∈ s.events, ∀ r ∈ event.results, ColdNamed found (hitsOf reads) r.named

theorem hitsOf_append (reads more : List BucketRead) : hitsOf (reads ++ more) = hitsOf reads ++ hitsOf more :=
  List.flatMap_append

/-- **One bucket.** -/
theorem Streamed.bucket {reads : List BucketRead} {s : StreamState} (h : Streamed found reads s) (bucket : IdText × String) :
    Streamed found (reads ++ [(readBucket E query src policy s.cache bucket).1]) (e.streamBucket E query src policy s bucket) ∧
      (e.streamBucket E query src policy s bucket).cache = (readBucket E query src policy s.cache bucket).2 := by
  -- a bucket that fails or is pruned contributes nothing, and its event has no results
  have hskip : ∀ (read : BucketRead) (cache : Option ShardCache), hitsOf [read] = [] → Streamed found (reads ++ [read])
      { s with
        cache := cache
        events := s.events ++ [.coldBucketComplete bucket.1 bucket.2 []]
        skipped := s.skipped + 1 } := by
    intro read cache hread
    have hsame : hitsOf (reads ++ [read]) = hitsOf reads := by rw [hitsOf_append, hread, List.append_nil]
    refine ⟨hsame ▸ h.byId, ?_⟩
    rw [hsame]
    intro event hevent
    rcases List.mem_append.mp hevent with hold | hnew
    · exact h.events event hold
    · obtain rfl := List.mem_singleton.mp hnew
      intro r hr
      exact absurd hr (by simp [SearchEvent.results])
  unfold streamBucket
  rcases readBucket E query src policy s.cache bucket with ⟨read, cache'⟩
  cases read with
  | error fault => exact ⟨hskip (.error fault) cache' rfl, rfl⟩
  | ok read =>
      cases read with
      | none => exact ⟨hskip (.ok none) cache' rfl, rfl⟩
      | some more =>
          have hmore : hitsOf (reads ++ [.ok (some more)]) = hitsOf reads ++ more := by
            rw [hitsOf_append, hitsOf, hitsOf, List.flatMap_singleton]
            rfl
          have hbyId : more.foldl mergeColdHit s.byId = (hitsOf reads ++ more).foldl mergeColdHit (localById found) := by
            rw [List.foldl_append, h.byId]
          refine ⟨⟨by rw [hmore]; exact hbyId, ?_⟩, rfl⟩
          rw [hmore]
          intro event hevent r hr
          rcases List.mem_append.mp hevent with hold | hnew
          · exact (h.events event hold r hr).append more
          · obtain rfl := List.mem_singleton.mp hnew
            -- an event shows entries of the merge so far
            obtain ⟨⟨id, r'⟩, hentry, rfl⟩ := List.mem_map.mp (mem_intoValues.mp hr)
            have hmem := (List.mem_filter.mp hentry).1
            rw [hbyId] at hmem
            exact coldNamed_of_lookup (AList.mem_lookup_iff.mpr hmem)

/-- **The bucket loop.** -/
theorem Streamed.buckets (buckets : List (IdText × String)) {reads : List BucketRead} {s : StreamState}
    (h : Streamed found reads s) :
    Streamed found (reads ++ (visitBuckets E query src policy s.cache buckets).1)
        (buckets.foldl (e.streamBucket E query src policy) s) ∧
      (buckets.foldl (e.streamBucket E query src policy) s).cache = (visitBuckets E query src policy s.cache buckets).2 := by
  induction buckets generalizing reads s with
  | nil =>
      refine ⟨?_, rfl⟩
      show Streamed found (reads ++ []) s
      rwa [List.append_nil]
  | cons bucket buckets ih =>
      obtain ⟨hstep, hcache⟩ := h.bucket bucket
      obtain ⟨hrest, hend⟩ := ih hstep
      rw [hcache, List.append_assoc] at hrest
      rw [hcache] at hend
      exact ⟨hrest, hend⟩

/-- The loop has merged what the buckets contribute. -/
theorem streamed_streamBuckets (buckets : List (IdText × String)) :
    Streamed found (visitBuckets E query src policy cache buckets).1
        (e.streamBuckets E query src policy cache found buckets) ∧
      (e.streamBuckets E query src policy cache found buckets).cache =
        (visitBuckets E query src policy cache buckets).2 := by
  have hstart : Streamed found [] ⟨cache, localById found, [.localResults found], 0, 0⟩ := by
    refine ⟨rfl, ?_⟩
    intro event hevent r hr
    obtain rfl := List.mem_singleton.mp hevent
    exact .here hr
  exact hstart.buckets buckets

/-- The results of a streaming search: those of its events, and those it returns. -/
def streamedResults (s : Streaming) : List RankedResult :=
  s.events.flatMap SearchEvent.results ++ (match s.returned with | .ok out => out | .error _ => [])

theorem coldNamed_streaming (hr : r ∈ streamedResults (e.executeSearchStreaming E query scope src policy cache limit)) :
    ∃ found, e.executeSearchWithLimit E query scope limit = .ok found ∧
      ColdNamed found (e.coldHits E query scope src policy cache) r.named := by
  cases hfound : e.executeSearchWithLimit E query scope limit with
  | error fault =>
      unfold executeSearchStreaming at hr
      rw [hfound] at hr
      exact absurd hr (by simp [streamedResults])
  | ok found =>
      refine ⟨found, rfl, ?_⟩
      rw [executeSearchStreaming_eq hfound] at hr
      unfold coldHits
      cases hbuckets : e.bucketsToRead query scope src policy with
      | error fault =>
          rw [hbuckets] at hr
          exact .here (by simpa [streamedResults, SearchEvent.results] using hr)
      | ok buckets =>
          rw [hbuckets] at hr
          dsimp only
          by_cases hempty : (buckets.take policy.maxColdBucketsPerSearch).isEmpty = true
          · simp only [hempty, if_true] at hr
            exact .here (by simpa [streamedResults, SearchEvent.results] using hr)
          · have hend : Streamed found _ (e.streamBuckets E query src policy cache found
                (buckets.take policy.maxColdBucketsPerSearch)) := (streamed_streamBuckets _).1
            simp only [hempty, if_false, Bool.false_eq_true] at hr
            unfold streamedResults at hr
            rw [List.flatMap_append] at hr
            rcases List.mem_append.mp hr with hr | hr
            · rcases List.mem_append.mp hr with hr | hr
              · obtain ⟨event, hevent, hr⟩ := List.mem_flatMap.mp hr
                exact hend.events event hevent r hr
              · rw [List.flatMap_singleton] at hr
                exact coldNamed_of_mem_rankMerged (hend.byId ▸ hr)
            · exact coldNamed_of_mem_rankMerged (hend.byId ▸ hr)

end Sound

/-! ## With room nothing is missing -/

section Complete

variable {found : List RankedResult} {hit : ColdHit}

theorem exists_mem_mergeCold {buckets : List (IdText × String)} {hits : List ColdHit} (hbuckets : buckets ≠ [])
    (hroom : found.length + hits.length ≤ limit) (hfirst : FirstHit hits hit)
    (hnew : ∀ r ∈ found, r.messageId.toText ≠ hit.messageId) :
    ∃ r ∈ e.mergeCold E found buckets hits limit, r.named = hit.named := by
  unfold mergeCold
  rw [if_neg (by simpa using hbuckets)]
  exact exists_mem_rankMerged hroom hfirst hnew

theorem exists_mem_parallel (hfound : e.executeSearchWithLimit E query scope limit = .ok found)
    (hroom : found.length + (e.parallelHits E query scope src policy cache concurrency schedule).length ≤ limit)
    (hfirst : FirstHit (e.parallelHits E query scope src policy cache concurrency schedule) hit)
    (hnew : ∀ r ∈ found, r.messageId.toText ≠ hit.messageId) :
    ∃ out, (e.executeSearchWithColdSourceFullParallel E query scope src policy cache limit concurrency schedule).1 =
      .ok out ∧ ∃ r ∈ out, r.named = hit.named := by
  have hmem := hfirst.mem
  cases hbuckets : e.bucketsToRead query scope src policy with
  | error fault =>
      unfold parallelHits at hmem
      rw [hbuckets] at hmem
      exact absurd hmem (by simp)
  | ok buckets =>
      have hne : buckets ≠ [] := by
        rintro rfl
        unfold parallelHits at hmem
        rw [hbuckets] at hmem
        simp only [List.take_nil, parallelFetchBuckets_nil] at hmem
        exact absurd hmem (by simp)
      exact ⟨_, (parallel_eq_ok hfound).mpr ⟨buckets, hbuckets, rfl⟩, exists_mem_mergeCold hne hroom hfirst hnew⟩

theorem exists_mem_full (hfound : e.executeSearchWithLimit E query scope limit = .ok found)
    {hits : List ColdHit} (hreads : e.coldReads E query scope src policy cache = .ok hits)
    (hroom : found.length + hits.length ≤ limit) (hfirst : FirstHit hits hit)
    (hnew : ∀ r ∈ found, r.messageId.toText ≠ hit.messageId) :
    ∃ out, (e.executeSearchWithColdSourceFull E query scope src policy cache limit).1 = .ok out ∧
      ∃ r ∈ out, r.named = hit.named := by
  cases hbuckets : e.bucketsToRead query scope src policy with
  | error fault =>
      unfold coldReads at hreads
      rw [hbuckets] at hreads
      exact absurd hreads (by simp)
  | ok buckets =>
      have hne : buckets ≠ [] := by
        rintro rfl
        unfold coldReads at hreads
        rw [hbuckets] at hreads
        simp only [List.take_nil] at hreads
        rw [← Except.ok.inj hreads] at hfirst
        exact absurd hfirst.mem (by simp)
      exact ⟨_, (full_eq_ok hfound).mpr ⟨buckets, hits, hbuckets, hreads, rfl⟩, exists_mem_mergeCold hne hroom hfirst hnew⟩

end Complete

end QueryEngine

end KChatCore.Search
