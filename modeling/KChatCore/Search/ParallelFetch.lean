import KChatCore.Lib.Threads
import KChatCore.Search.ColdSearch

/-!
# `Search.ParallelFetch` — the parallel cold search

Workers claim buckets through an atomic cursor. A worker fetches the three shards of its bucket through the shared cache,
writes them into the slot of the bucket and claims the next one. `Worker` is where a worker is between two accesses to
what is shared; a schedule says who moves next, and the scope waits until all workers have left (`joined`).

* `filled_of_joined` — then every slot is filled, whatever the schedule was;
* `parallelFetchBuckets_of_agrees` — and with a cache that agrees, by what the source returns for the bucket;
* `parallel_fetch_ends` — and it does come to that.
-/

namespace KChatCore.Search

open Lib LocalStore

/-- `BucketPrefetch`. -/
structure BucketPrefetch where
  conv : IdText
  bucket : String
  bloom : Option BloomFilter
  text : Except Error (List FtsRow)
  fuzzy : Except Error (List FuzzyRow)

/-- What the workers share. -/
structure FetchState where
  cache : Option ShardCache
  cursor : Nat
  slots : List (Option BucketPrefetch)

/-- A worker: before its next claim, or on the way through the bucket at `i`. -/
inductive Worker
  | claim
  | bloomGet (i : Nat) (bucket : IdText × String)
  | bloomPut (i : Nat) (bucket : IdText × String) (filter : BloomFilter)
  | textGet (i : Nat) (bucket : IdText × String) (bloom : Option BloomFilter)
  | textPut (i : Nat) (bucket : IdText × String) (bloom : Option BloomFilter) (rows : List FtsRow)
  | fuzzyGet (i : Nat) (bucket : IdText × String) (bloom : Option BloomFilter) (text : Except Error (List FtsRow))
  | fuzzyPut (i : Nat) (bucket : IdText × String) (bloom : Option BloomFilter) (text : Except Error (List FtsRow))
      (rows : List FuzzyRow)
  | fill (i : Nat) (prefetch : BucketPrefetch)
  | exited

/-- The slot a worker is busy with. -/
def Worker.slot : Worker → Option Nat
  | claim | exited => none
  | bloomGet i _ | bloomPut i _ _ | textGet i _ _ | textPut i _ _ _ | fuzzyGet i _ _ _ | fuzzyPut i _ _ _ _ | fill i _ => some i

/-- A worker that has left its loop. -/
def Worker.isExited : Worker → Bool
  | exited => true
  | _ => false

section Workers

variable (E : SearchPlatform) (query : SearchQuery) (src : ColdShardSource) (policy : TenantSearchPolicy)
  (buckets : List (IdText × String))

/-- After the bloom filter: a bucket it rules out is not fetched. -/
def afterBloom (i : Nat) (bucket : IdText × String) (bloom : Option BloomFilter) : Worker :=
  if bloomRejects E query policy bloom then .fill i ⟨bucket.1, bucket.2, bloom, .ok [], .ok []⟩
  else .textGet i bucket bloom

/-- **What a worker does next.** -/
def moveWorker (s : FetchState) : Worker → FetchState × Worker
  | .claim =>
      ({ s with cursor := s.cursor + 1 },
        match buckets[s.cursor]? with
        | none => .exited
        | some bucket => .bloomGet s.cursor bucket)
  | .bloomGet i bucket =>
      let (found, cache) := getShard bloomShard s.cache bucket.1 bucket.2
      ({ s with cache := cache },
        match found with
        | some filter => afterBloom E query policy i bucket (some filter)
        | none =>
            match bloomOf src bucket.1 bucket.2 with
            | some filter => .bloomPut i bucket filter
            | none => afterBloom E query policy i bucket none)
  | .bloomPut i bucket filter =>
      ({ s with cache := putShard bloomShard s.cache bucket.1 bucket.2 filter },
        afterBloom E query policy i bucket (some filter))
  | .textGet i bucket bloom =>
      let (found, cache) := getShard textShard s.cache bucket.1 bucket.2
      ({ s with cache := cache },
        match found with
        | some rows => .fuzzyGet i bucket bloom (.ok rows)
        | none =>
            match src.fetchTextRows bucket.1 bucket.2 with
            | .ok rows => .textPut i bucket bloom rows
            | .error e => .fuzzyGet i bucket bloom (.error e))
  | .textPut i bucket bloom rows =>
      ({ s with cache := putShard textShard s.cache bucket.1 bucket.2 rows }, .fuzzyGet i bucket bloom (.ok rows))
  | .fuzzyGet i bucket bloom text =>
      let (found, cache) := getShard fuzzyShard s.cache bucket.1 bucket.2
      ({ s with cache := cache },
        match found with
        | some rows => .fill i ⟨bucket.1, bucket.2, bloom, text, .ok rows⟩
        | none =>
            match src.fetchFuzzyRows bucket.1 bucket.2 with
            | .ok rows => .fuzzyPut i bucket bloom text rows
            | .error e => .fill i ⟨bucket.1, bucket.2, bloom, text, .error e⟩)
  | .fuzzyPut i bucket bloom text rows =>
      ({ s with cache := putShard fuzzyShard s.cache bucket.1 bucket.2 rows },
        .fill i ⟨bucket.1, bucket.2, bloom, text, .ok rows⟩)
  | .fill i prefetch => ({ s with slots := s.slots.set i (some prefetch) }, .claim)
  | .exited => (s, .exited)

/-- The workers at the start. -/
def startWorkers (cache : Option ShardCache) (concurrency : Nat) : Threads FetchState Worker where
  shared := ⟨cache, 0, List.replicate buckets.length none⟩
  locals := List.replicate (min (max concurrency 1) buckets.length) .claim

/-- The workers after a schedule. -/
def runWorkers (cache : Option ShardCache) (concurrency : Nat) (schedule : List Nat) : Threads FetchState Worker :=
  (startWorkers buckets cache concurrency).runAll (moveWorker E query src policy buckets) schedule

/-- All workers have left. -/
def joined (cache : Option ShardCache) (concurrency : Nat) (schedule : List Nat) : Bool :=
  (runWorkers E query src policy buckets cache concurrency schedule).locals.all Worker.isExited

/-- `parallel_fetch_buckets`, under a schedule. -/
def parallelFetchBuckets (cache : Option ShardCache) (concurrency : Nat) (schedule : List Nat) :
    List BucketPrefetch × Option ShardCache :=
  let final := (runWorkers E query src policy buckets cache concurrency schedule).shared
  (final.slots.filterMap id, final.cache)

end Workers

/-- What a fetched bucket contributes. -/
def prefetchHits (E : SearchPlatform) (query : SearchQuery) (policy : TenantSearchPolicy) (entry : BucketPrefetch) :
    List ColdHit :=
  if bloomRejects E query policy entry.bloom then []
  else
    match entry.text, entry.fuzzy with
    | .ok ftsRows, .ok fuzzyRows => bucketHits E query ftsRows fuzzyRows
    | _, _ => []

/-- `execute_search_with_cold_source_full_parallel`, under a schedule: a bucket that cannot be fetched is passed over. -/
def QueryEngine.executeSearchWithColdSourceFullParallel (e : QueryEngine) (E : SearchPlatform) (query : SearchQuery)
    (scope : SearchScope) (src : ColdShardSource) (policy : TenantSearchPolicy) (cache : Option ShardCache) (limit : Nat)
    (concurrency : Nat) (schedule : List Nat) : Except SearchError (List RankedResult) × Option ShardCache :=
  match e.executeSearchWithLimit E query scope limit with
  | .error fault => (.error fault, cache)
  | .ok found =>
      if staysLocal query scope policy then (.ok found, cache)
      else
        match src.coldBuckets with
        | .error fault => (.error (.source fault), cache)
        | .ok buckets =>
            let buckets := buckets.filter (e.bucketInScope query)
            if buckets.isEmpty then (.ok found, cache)
            else
              let (prefetched, cache) := parallelFetchBuckets E query src policy
                (buckets.take policy.maxColdBucketsPerSearch) cache concurrency schedule
              let hits := prefetched.flatMap (prefetchHits E query policy)
              (.ok (e.rankMerged E found (hits.foldl mergeColdHit (localById found)) limit), cache)

section Schedules

variable {E : SearchPlatform} {query : SearchQuery} {src : ColdShardSource} {policy : TenantSearchPolicy}
  {buckets : List (IdText × String)} {cache : Option ShardCache} {concurrency : Nat} {schedule : List Nat}

/-! ## What a move does -/

/-- How many moves are left before the next claim; the last one leaves. -/
def Worker.stage : Worker → Nat
  | exited => 0
  | claim => 1
  | fill _ _ => 2
  | fuzzyPut _ _ _ _ _ => 3
  | fuzzyGet _ _ _ _ => 4
  | textPut _ _ _ _ => 5
  | textGet _ _ _ => 6
  | bloomPut _ _ _ => 7
  | bloomGet _ _ => 8

/-- **A move**, by what it changes of the cursor and the slots. -/
inductive Moved (buckets : List (IdText × String)) (s : FetchState) : Worker → FetchState → Worker → Prop
  | claimed {bucket : IdText × String} (hbucket : buckets[s.cursor]? = some bucket) :
      Moved buckets s .claim { s with cursor := s.cursor + 1 } (.bloomGet s.cursor bucket)
  | left (hend : buckets[s.cursor]? = none) : Moved buckets s .claim { s with cursor := s.cursor + 1 } .exited
  | fetched {w w' : Worker} {i : Nat} {cache : Option ShardCache} (hw : w.slot = some i) (hw' : w'.slot = some i)
      (hdown : w'.stage < w.stage) : Moved buckets s w { s with cache := cache } w'
  | filled {i : Nat} {prefetch : BucketPrefetch} :
      Moved buckets s (.fill i prefetch) { s with slots := s.slots.set i (some prefetch) } .claim
  | stayed : Moved buckets s .exited s .exited

theorem slot_afterBloom (i : Nat) (bucket : IdText × String) (bloom : Option BloomFilter) :
    (afterBloom E query policy i bucket bloom).slot = some i := by
  unfold afterBloom
  split_ifs <;> rfl

theorem stage_afterBloom_le (i : Nat) (bucket : IdText × String) (bloom : Option BloomFilter) :
    (afterBloom E query policy i bucket bloom).stage ≤ 6 := by
  unfold afterBloom
  split_ifs <;> simp [Worker.stage]

theorem moved_moveWorker (s : FetchState) (w : Worker) :
    Moved buckets s w (moveWorker E query src policy buckets s w).1 (moveWorker E query src policy buckets s w).2 := by
  cases w with
  | claim =>
      unfold moveWorker
      cases hbucket : buckets[s.cursor]? with
      | none => exact .left hbucket
      | some bucket => exact .claimed hbucket
  | bloomGet i bucket =>
      -- a filter that rejects ends the bucket early; the stage goes down in any case
      have hafter : ∀ bloom, (afterBloom E query policy i bucket bloom).stage < 8 := by
        intro bloom
        exact (stage_afterBloom_le i bucket bloom).trans_lt (by omega)
      unfold moveWorker
      dsimp only
      cases (getShard bloomShard s.cache bucket.1 bucket.2).1 with
      | some filter => exact .fetched rfl (slot_afterBloom i bucket _) (hafter _)
      | none =>
          cases bloomOf src bucket.1 bucket.2 with
          | some filter => exact .fetched (i := i) rfl rfl (by simp [Worker.stage])
          | none => exact .fetched rfl (slot_afterBloom i bucket _) (hafter _)
  | bloomPut i bucket filter =>
      have hdown : (afterBloom E query policy i bucket (some filter)).stage < 7 :=
        (stage_afterBloom_le i bucket (some filter)).trans_lt (by omega)
      unfold moveWorker
      dsimp only
      generalize putShard bloomShard s.cache bucket.1 bucket.2 filter = cache
      exact .fetched rfl (slot_afterBloom i bucket _) hdown
  | textGet i bucket bloom =>
      unfold moveWorker
      dsimp only
      cases (getShard textShard s.cache bucket.1 bucket.2).1 with
      | some rows => exact .fetched (i := i) rfl rfl (by simp [Worker.stage])
      | none =>
          cases src.fetchTextRows bucket.1 bucket.2 with
          | ok rows => exact .fetched (i := i) rfl rfl (by simp [Worker.stage])
          | error fault => exact .fetched (i := i) rfl rfl (by simp [Worker.stage])
  | textPut i bucket bloom rows =>
      unfold moveWorker
      dsimp only
      generalize putShard textShard s.cache bucket.1 bucket.2 rows = cache
      exact .fetched (i := i) rfl rfl (by simp [Worker.stage])
  | fuzzyGet i bucket bloom text =>
      unfold moveWorker
      dsimp only
      cases (getShard fuzzyShard s.cache bucket.1 bucket.2).1 with
      | some rows => exact .fetched (i := i) rfl rfl (by simp [Worker.stage])
      | none =>
          cases src.fetchFuzzyRows bucket.1 bucket.2 with
          | ok rows => exact .fetched (i := i) rfl rfl (by simp [Worker.stage])
          | error fault => exact .fetched (i := i) rfl rfl (by simp [Worker.stage])
  | fuzzyPut i bucket bloom text rows =>
      unfold moveWorker
      dsimp only
      generalize putShard fuzzyShard s.cache bucket.1 bucket.2 rows = cache
      exact .fetched (i := i) rfl rfl (by simp [Worker.stage])
  | fill i prefetch => exact .filled
  | exited => exact .stayed

/-! ## Every slot is filled -/

/-- Each bucket that was claimed is fetched, or a worker is busy with it; who has left saw the end of the list. -/
structure Claimed (buckets : List (IdText × String)) (t : Threads FetchState Worker) : Prop where
  slots : t.shared.slots.length = buckets.length
  claimed : ∀ i < buckets.length, i < t.shared.cursor →
    (∃ prefetch, t.shared.slots[i]? = some (some prefetch)) ∨ ∃ w ∈ t.locals, w.slot = some i
  left : .exited ∈ t.locals → buckets.length ≤ t.shared.cursor

/-- A worker that moves while another one is busy: the other one stays. -/
theorem mem_set_of_slot {locals : List Worker} {w w' v : Worker} {k i : Nat} (hw : locals[k]? = some w) (hv : v ∈ locals)
    (hslot : v.slot = some i) (hne : w.slot ≠ some i) : v ∈ locals.set k w' := by
  obtain ⟨j, hj⟩ := List.getElem?_of_mem hv
  have hkj : k ≠ j := by
    rintro rfl
    obtain rfl := Option.some.inj (hw.symm.trans hj)
    exact hne hslot
  exact List.mem_of_getElem? (i := j) (by rw [List.getElem?_set_ne hkj, hj])

theorem mem_set_self {locals : List Worker} {w w' : Worker} {k : Nat} (hw : locals[k]? = some w) :
    w' ∈ locals.set k w' := by
  have hk : k < locals.length := (List.getElem?_eq_some_iff.mp hw).1
  exact List.mem_set hk w'

/-- **A move keeps the claims in order.** -/
theorem Claimed.move {t : Threads FetchState Worker} {k : Nat} {w : Worker} (h : Claimed buckets t)
    (hw : t.locals[k]? = some w) {s' : FetchState} {w' : Worker} (hmoved : Moved buckets t.shared w s' w') :
    Claimed buckets ⟨s', t.locals.set k w'⟩ := by
  have hwmem : w ∈ t.locals := List.mem_of_getElem? hw
  cases hmoved with
  | @claimed bucket hbucket =>
      refine ⟨h.slots, ?_, ?_⟩
      · intro i hi hcursor
        rcases Nat.lt_succ_iff_lt_or_eq.mp hcursor with hlt | rfl
        · rcases h.claimed i hi hlt with hfilled | ⟨v, hv, hslot⟩
          · exact .inl hfilled
          · exact .inr ⟨v, mem_set_of_slot hw hv hslot (by simp [Worker.slot]), hslot⟩
        · exact .inr ⟨_, mem_set_self hw, rfl⟩
      · intro hexited
        rcases List.mem_or_eq_of_mem_set hexited with hold | hnew
        · exact Nat.le_succ_of_le (h.left hold)
        · exact absurd hnew (by simp)
  | left hend =>
      have hle : buckets.length ≤ t.shared.cursor := List.getElem?_eq_none_iff.mp hend
      refine ⟨h.slots, ?_, ?_⟩
      · intro i hi hcursor
        rcases h.claimed i hi (by omega) with hfilled | ⟨v, hv, hslot⟩
        · exact .inl hfilled
        · exact .inr ⟨v, mem_set_of_slot hw hv hslot (by simp [Worker.slot]), hslot⟩
      · intro _
        exact Nat.le_succ_of_le hle
  | @fetched _ _ j cache hslot hslot' hdown =>
      refine ⟨h.slots, ?_, ?_⟩
      · intro i hi hcursor
        rcases h.claimed i hi hcursor with hfilled | ⟨v, hv, hvslot⟩
        · exact .inl hfilled
        · -- the slot is filled that was claimed
          by_cases hij : j = i
          · exact .inr ⟨w', mem_set_self hw, hij ▸ hslot'⟩
          · refine .inr ⟨v, mem_set_of_slot hw hv hvslot ?_, hvslot⟩
            rw [hslot]
            simpa using hij
      · intro hexited
        rcases List.mem_or_eq_of_mem_set hexited with hold | hnew
        · exact h.left hold
        · rw [← hnew] at hslot'
          exact absurd hslot' (by simp [Worker.slot])
  | @filled j prefetch =>
      refine ⟨by simpa using h.slots, ?_, ?_⟩
      · intro i hi hcursor
        by_cases hij : j = i
        · subst hij
          have hlt : j < t.shared.slots.length := h.slots ▸ hi
          exact .inl ⟨prefetch, by simp [hlt]⟩
        · rcases h.claimed i hi hcursor with ⟨p, hp⟩ | ⟨v, hv, hvslot⟩
          · exact .inl ⟨p, by simpa [List.getElem?_set_ne hij] using hp⟩
          · refine .inr ⟨v, mem_set_of_slot hw hv hvslot ?_, hvslot⟩
            simpa [Worker.slot] using hij
      · intro hexited
        rcases List.mem_or_eq_of_mem_set hexited with hold | hnew
        · exact h.left hold
        · exact absurd hnew (by simp)
  | stayed =>
      have hsame : t.locals.set k .exited = t.locals := by
        apply List.ext_getElem?
        intro i
        by_cases hik : k = i
        · subst hik
          rw [List.getElem?_set_self (List.getElem?_eq_some_iff.mp hw).1, hw]
        · rw [List.getElem?_set_ne hik]
      rw [hsame]
      exact h

theorem claimed_runWorkers :
    Claimed buckets (runWorkers E query src policy buckets cache concurrency schedule) := by
  apply Threads.runAll_invariant
  · intro t k w h hw
    unfold Threads.stepAt
    rw [hw]
    exact h.move hw (moved_moveWorker t.shared w)
  · refine ⟨List.length_replicate, ?_, ?_⟩
    · intro i _ hcursor
      exact absurd hcursor (Nat.not_lt_zero i)
    · intro hexited
      exact absurd (List.eq_of_mem_replicate hexited) (by simp)

/-- Without buckets nothing is fetched. -/
theorem parallelFetchBuckets_nil : (parallelFetchBuckets E query src policy [] cache concurrency schedule).1 = [] := by
  have hclaimed : Claimed [] (runWorkers E query src policy [] cache concurrency schedule) := claimed_runWorkers
  show (runWorkers E query src policy [] cache concurrency schedule).shared.slots.filterMap id = []
  rw [List.length_eq_zero_iff.mp hclaimed.slots]
  rfl

/-- **Once all workers have left, every slot is filled.** -/
theorem filled_of_joined (hjoined : joined E query src policy buckets cache concurrency schedule = true) {i : Nat}
    (hi : i < buckets.length) :
    ∃ prefetch, (runWorkers E query src policy buckets cache concurrency schedule).shared.slots[i]? = some (some prefetch) := by
  have hclaimed : Claimed buckets (runWorkers E query src policy buckets cache concurrency schedule) := claimed_runWorkers
  have hlength : (runWorkers E query src policy buckets cache concurrency schedule).locals.length =
      min (max concurrency 1) buckets.length := by
    unfold runWorkers
    rw [Threads.length_runAll]
    exact List.length_replicate
  have hexited : ∀ w ∈ (runWorkers E query src policy buckets cache concurrency schedule).locals, w = .exited := by
    intro w hw
    have hleft := List.all_eq_true.mp hjoined w hw
    cases w <;> simp_all [Worker.isExited]
  obtain ⟨w, hw⟩ : ∃ w, w ∈ (runWorkers E query src policy buckets cache concurrency schedule).locals := by
    apply List.exists_mem_of_length_pos
    omega
  have hcursor := hclaimed.left (hexited w hw ▸ hw)
  rcases hclaimed.claimed i hi (by omega) with hfilled | ⟨v, hv, hslot⟩
  · exact hfilled
  · rw [hexited v hv] at hslot
    exact absurd hslot (by simp [Worker.slot])

/-! ## A cache that agrees -/

/-- What is prefetched of a bucket, by what the source returns. -/
def prefetchOf (E : SearchPlatform) (query : SearchQuery) (src : ColdShardSource) (policy : TenantSearchPolicy)
    (bucket : IdText × String) : BucketPrefetch :=
  let bloom := bloomOf src bucket.1 bucket.2
  if bloomRejects E query policy bloom then ⟨bucket.1, bucket.2, bloom, .ok [], .ok []⟩
  else ⟨bucket.1, bucket.2, bloom, src.fetchTextRows bucket.1 bucket.2, src.fetchFuzzyRows bucket.1 bucket.2⟩

/-- What a worker has in hand is what the source returns for its bucket. -/
def Worker.Correct (E : SearchPlatform) (query : SearchQuery) (src : ColdShardSource) (policy : TenantSearchPolicy)
    (buckets : List (IdText × String)) : Worker → Prop
  | claim | exited => True
  | bloomGet i bucket => buckets[i]? = some bucket
  | bloomPut i bucket filter => buckets[i]? = some bucket ∧ bloomOf src bucket.1 bucket.2 = some filter
  | textGet i bucket bloom =>
      buckets[i]? = some bucket ∧ bloom = bloomOf src bucket.1 bucket.2 ∧ bloomRejects E query policy bloom = false
  | textPut i bucket bloom rows =>
      buckets[i]? = some bucket ∧ bloom = bloomOf src bucket.1 bucket.2 ∧ bloomRejects E query policy bloom = false ∧
        src.fetchTextRows bucket.1 bucket.2 = .ok rows
  | fuzzyGet i bucket bloom text =>
      buckets[i]? = some bucket ∧ bloom = bloomOf src bucket.1 bucket.2 ∧ bloomRejects E query policy bloom = false ∧
        text = src.fetchTextRows bucket.1 bucket.2
  | fuzzyPut i bucket bloom text rows =>
      buckets[i]? = some bucket ∧ bloom = bloomOf src bucket.1 bucket.2 ∧ bloomRejects E query policy bloom = false ∧
        text = src.fetchTextRows bucket.1 bucket.2 ∧ src.fetchFuzzyRows bucket.1 bucket.2 = .ok rows
  | fill i prefetch => ∃ bucket, buckets[i]? = some bucket ∧ prefetch = prefetchOf E query src policy bucket

/-- What is shared comes from the source. -/
structure FetchedFrom (E : SearchPlatform) (query : SearchQuery) (src : ColdShardSource) (policy : TenantSearchPolicy)
    (buckets : List (IdText × String)) (s : FetchState) : Prop where
  cache : Agrees src s.cache
  slots : ∀ (i : Nat) (prefetch : BucketPrefetch), s.slots[i]? = some (some prefetch) →
    ∃ bucket, buckets[i]? = some bucket ∧ prefetch = prefetchOf E query src policy bucket

theorem prefetchOf_of_accepts {bucket : IdText × String}
    (h : bloomRejects E query policy (bloomOf src bucket.1 bucket.2) = false) :
    prefetchOf E query src policy bucket = ⟨bucket.1, bucket.2, bloomOf src bucket.1 bucket.2,
      src.fetchTextRows bucket.1 bucket.2, src.fetchFuzzyRows bucket.1 bucket.2⟩ := by
  unfold prefetchOf
  dsimp only
  rw [if_neg (by simp [h])]

theorem correct_afterBloom {i : Nat} {bucket : IdText × String} (hbucket : buckets[i]? = some bucket)
    {bloom : Option BloomFilter} (hbloom : bloomOf src bucket.1 bucket.2 = bloom) :
    (afterBloom E query policy i bucket bloom).Correct E query src policy buckets := by
  subst hbloom
  unfold afterBloom
  split_ifs with hrejects
  · refine ⟨bucket, hbucket, ?_⟩
    unfold prefetchOf
    dsimp only
    rw [if_pos hrejects]
  · exact ⟨hbucket, rfl, Bool.eq_false_iff.mpr hrejects⟩

-- from here on `afterBloom` is known by its lemmas; unfolding it evaluates the filter
attribute [irreducible] afterBloom

/-- Another cache that agrees. -/
theorem FetchedFrom.withCache {s : FetchState} (h : FetchedFrom E query src policy buckets s) {cache : Option ShardCache}
    (hcache : Agrees src cache) : FetchedFrom E query src policy buckets { s with cache := cache } := ⟨hcache, h.slots⟩

/-- **A move of a correct worker.** -/
theorem FetchedFrom.move {s : FetchState} {w : Worker} (h : FetchedFrom E query src policy buckets s)
    (hw : w.Correct E query src policy buckets) :
    FetchedFrom E query src policy buckets (moveWorker E query src policy buckets s w).1 ∧
      (moveWorker E query src policy buckets s w).2.Correct E query src policy buckets := by
  cases w with
  | claim =>
      refine ⟨⟨h.cache, h.slots⟩, ?_⟩
      unfold moveWorker
      cases hbucket : buckets[s.cursor]? with
      | none => trivial
      | some bucket => exact hbucket
  | bloomGet i bucket =>
      unfold moveWorker
      dsimp only
      refine ⟨h.withCache (h.cache.getShard _ _ _), ?_⟩
      -- the cache agrees with the source, so a hit is what a fetch would return
      have hbucket : buckets[i]? = some bucket := hw
      cases hfound : (getShard bloomShard s.cache bucket.1 bucket.2).1 with
      | some filter =>
          dsimp only
          apply correct_afterBloom hbucket
          exact h.cache.bloomOf_of_getShard hfound
      | none =>
          cases hbloom : bloomOf src bucket.1 bucket.2 with
          | some filter => exact ⟨hbucket, hbloom⟩
          | none =>
              dsimp only
              exact correct_afterBloom hbucket hbloom
  | bloomPut i bucket filter =>
      obtain ⟨hbucket, hbloom⟩ := hw
      have hput : Agrees src (putShard bloomShard s.cache bucket.1 bucket.2 filter) := h.cache.putShard fun _ => hbloom
      unfold moveWorker
      dsimp only
      exact ⟨h.withCache hput, correct_afterBloom hbucket hbloom⟩
  | textGet i bucket bloom =>
      obtain ⟨hbucket, hbloom, haccepts⟩ := hw
      unfold moveWorker
      dsimp only
      refine ⟨h.withCache (h.cache.getShard _ _ _), ?_⟩
      cases hfound : (getShard textShard s.cache bucket.1 bucket.2).1 with
      | some rows => exact ⟨hbucket, hbloom, haccepts, (h.cache.fetch_of_getShard (textShard_fetches _ _) hfound).symm⟩
      | none =>
          cases hrows : src.fetchTextRows bucket.1 bucket.2 with
          | ok rows => exact ⟨hbucket, hbloom, haccepts, hrows⟩
          | error fault => exact ⟨hbucket, hbloom, haccepts, hrows.symm⟩
  | textPut i bucket bloom rows =>
      obtain ⟨hbucket, hbloom, haccepts, hrows⟩ := hw
      have hput : Agrees src (putShard textShard s.cache bucket.1 bucket.2 rows) := h.cache.putShard fun _ => hrows
      unfold moveWorker
      dsimp only
      exact ⟨h.withCache hput, hbucket, hbloom, haccepts, hrows.symm⟩
  | fuzzyGet i bucket bloom text =>
      obtain ⟨hbucket, rfl, haccepts, rfl⟩ := hw
      unfold moveWorker
      dsimp only
      refine ⟨h.withCache (h.cache.getShard _ _ _), ?_⟩
      cases hfound : (getShard fuzzyShard s.cache bucket.1 bucket.2).1 with
      | some rows =>
          refine ⟨bucket, hbucket, ?_⟩
          rw [prefetchOf_of_accepts haccepts, h.cache.fetch_of_getShard (fuzzyShard_fetches _ _) hfound]
      | none =>
          cases hrows : src.fetchFuzzyRows bucket.1 bucket.2 with
          | ok rows => exact ⟨hbucket, rfl, haccepts, rfl, hrows⟩
          | error fault =>
              refine ⟨bucket, hbucket, ?_⟩
              rw [prefetchOf_of_accepts haccepts, hrows]
  | fuzzyPut i bucket bloom text rows =>
      obtain ⟨hbucket, rfl, haccepts, rfl, hrows⟩ := hw
      have hput : Agrees src (putShard fuzzyShard s.cache bucket.1 bucket.2 rows) := h.cache.putShard fun _ => hrows
      unfold moveWorker
      dsimp only
      refine ⟨h.withCache hput, bucket, hbucket, ?_⟩
      rw [prefetchOf_of_accepts haccepts, hrows]
  | fill i prefetch =>
      refine ⟨⟨h.cache, ?_⟩, trivial⟩
      intro j p hp
      by_cases hij : i = j
      · subst hij
        -- the slot is that of the bucket the worker claimed
        have hset := List.mem_or_eq_of_mem_set (List.mem_of_getElem? hp)
        have hlt : i < s.slots.length := by
          have := (List.getElem?_eq_some_iff.mp hp).1
          rwa [show (moveWorker E query src policy buckets s (.fill i prefetch)).1.slots = s.slots.set i (some prefetch)
            from rfl, List.length_set] at this
        have hself : (s.slots.set i (some prefetch))[i]? = some (some prefetch) := List.getElem?_set_self hlt
        obtain rfl := Option.some.inj (Option.some.inj (hself.symm.trans hp))
        exact hw
      · refine h.slots j p ?_
        have hne : (s.slots.set i (some prefetch))[j]? = s.slots[j]? := List.getElem?_set_ne hij
        exact hne ▸ hp
  | exited => exact ⟨h, trivial⟩

/-- **Under every schedule the workers fetch what the source returns.** -/
theorem fetchedFrom_runWorkers (hagrees : Agrees src cache) :
    FetchedFrom E query src policy buckets (runWorkers E query src policy buckets cache concurrency schedule).shared := by
  have hstart : FetchedFrom E query src policy buckets ⟨cache, 0, List.replicate buckets.length none⟩ := by
    refine ⟨hagrees, ?_⟩
    intro i prefetch hslot
    exact absurd (List.eq_of_mem_replicate (List.mem_of_getElem? hslot)) (by simp)
  refine (Threads.runAll_holds (S := FetchedFrom E query src policy buckets)
    (L := fun _ w => w.Correct E query src policy buckets) (fun s w h hw => h.move hw) (fun s w w' _ _ hw' => hw') hstart ?_
    schedule).1
  intro w hw
  rw [List.eq_of_mem_replicate hw]
  trivial

/-- **The prefetched buckets**, when all workers have left: each in its place, as the source returns it. -/
theorem parallelFetchBuckets_of_agrees (hagrees : Agrees src cache)
    (hjoined : joined E query src policy buckets cache concurrency schedule = true) :
    (parallelFetchBuckets E query src policy buckets cache concurrency schedule).1 =
        buckets.map (prefetchOf E query src policy) ∧
      Agrees src (parallelFetchBuckets E query src policy buckets cache concurrency schedule).2 := by
  have hfetched : FetchedFrom E query src policy buckets
      (runWorkers E query src policy buckets cache concurrency schedule).shared := fetchedFrom_runWorkers hagrees
  refine ⟨?_, hfetched.cache⟩
  have hslots : (runWorkers E query src policy buckets cache concurrency schedule).shared.slots =
      buckets.map fun bucket => some (prefetchOf E query src policy bucket) := by
    apply List.ext_getElem?
    intro i
    rw [List.getElem?_map]
    by_cases hi : i < buckets.length
    · obtain ⟨prefetch, hslot⟩ := filled_of_joined hjoined hi
      obtain ⟨bucket, hbucket, rfl⟩ := hfetched.slots i prefetch hslot
      rw [hslot, hbucket]
      rfl
    · rw [List.getElem?_eq_none_iff.mpr (by rw [claimed_runWorkers.slots]; omega),
        List.getElem?_eq_none_iff.mpr (by omega)]
      rfl
  show (runWorkers E query src policy buckets cache concurrency schedule).shared.slots.filterMap id = _
  rw [hslots, List.filterMap_map]
  exact congrFun List.filterMap_eq_map' buckets

/-! ## The workers come to their end -/

/-- What the workers have still to do. -/
def remaining (buckets : List (IdText × String)) (t : Threads FetchState Worker) : Nat :=
  (t.locals.map Worker.stage).sum + 8 * (buckets.length - t.shared.cursor)

/-- **A move leaves less to do.** -/
theorem remaining_lt {t : Threads FetchState Worker} {k : Nat} {w w' : Worker} {s' : FetchState}
    (hw : t.locals[k]? = some w) (hrunning : ¬ w.isExited = true) (hmoved : Moved buckets t.shared w s' w') :
    remaining buckets ⟨s', t.locals.set k w'⟩ < remaining buckets t := by
  have hsum := Threads.sum_map_set Worker.stage hw w'
  unfold remaining
  cases hmoved with
  | claimed hbucket =>
      have hlt : t.shared.cursor < buckets.length := (List.getElem?_eq_some_iff.mp hbucket).1
      simp only [Worker.stage] at hsum ⊢
      omega
  | left hend =>
      simp only [Worker.stage] at hsum ⊢
      omega
  | fetched hslot hslot' hless =>
      simp only
      omega
  | filled =>
      simp only [Worker.stage] at hsum ⊢
      omega
  | stayed => exact absurd rfl hrunning

/-- **The parallel fetch comes to its end.** Whatever was scheduled so far, a worker that has not left does not wait and
does not turn in circles, and all of them can leave; then every bucket has been fetched, in its place, if the cache agrees with
the source. -/
theorem parallel_fetch_ends (cache : Option ShardCache) (concurrency : Nat) (schedule : List Nat) :
    let t := runWorkers E query src policy buckets cache concurrency schedule
    (∀ k w, t.locals[k]? = some w → ¬ w.isExited = true →
      remaining buckets (t.stepAt (moveWorker E query src policy buckets) k) < remaining buckets t) ∧
    (∃ more, joined E query src policy buckets cache concurrency (schedule ++ more) = true) ∧
    (Agrees src cache → joined E query src policy buckets cache concurrency schedule = true →
      (parallelFetchBuckets E query src policy buckets cache concurrency schedule).1 =
        buckets.map (prefetchOf E query src policy)) := by
  intro t
  have hdown : ∀ (t : Threads FetchState Worker) (k : Nat) (w : Worker), t.locals[k]? = some w → ¬ w.isExited = true →
      remaining buckets (t.stepAt (moveWorker E query src policy buckets) k) < remaining buckets t := by
    intro t k w hw hrunning
    unfold Threads.stepAt
    rw [hw]
    exact remaining_lt hw hrunning (moved_moveWorker t.shared w)
  refine ⟨hdown t, ?_, fun hagrees hjoined => (parallelFetchBuckets_of_agrees hagrees hjoined).1⟩
  obtain ⟨more, hended⟩ := Threads.exists_schedule hdown t
  refine ⟨more, ?_⟩
  unfold joined runWorkers
  rw [Threads.runAll_append]
  exact List.all_eq_true.mpr hended

end Schedules

end KChatCore.Search
