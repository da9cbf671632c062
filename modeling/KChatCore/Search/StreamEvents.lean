import KChatCore.Lib.Deltas
import KChatCore.Search.BucketReads
import KChatCore.Search.Completeness

/-!
# `Search.StreamEvents` — what a streaming search tells its listener

The events of a streaming search are the local results, one event for each bucket that is asked, and the final list. An
event of a bucket carries the entries that the bucket added to the merge. Entries are told apart by the id of their row,
but carry the message that the id parses to, and every id that is no UUID parses to the nil UUID.

* `streamTurns_spec` — the bucket loop, by what each bucket adds.
* `streaming_protocol_iff` — the protocol holds exactly where a row id that is new names a message that is new.
-/

namespace KChatCore.Search

open Lib LocalStore

/-! ## A source whose answers change

A source is asked for its list of buckets first, and then once for each shard of each bucket. So its answers over a search
are those of a source of its own for the list (`src 0`) and for each bucket in turn (`src 1`, `src 2`, …). -/

namespace QueryEngine

/-- The bucket loop, from the `i`-th question on. -/
def streamTurns (e : QueryEngine) (E : SearchPlatform) (query : SearchQuery) (src : Nat → ColdShardSource)
    (policy : TenantSearchPolicy) : Nat → StreamState → List (IdText × String) → StreamState
  | _, s, [] => s
  | i, s, bucket :: buckets =>
      e.streamTurns E query src policy (i + 1) (e.streamBucket E query (src i) policy s bucket) buckets

/-- `execute_search_streaming`, with a source whose answers change. -/
def executeSearchStreamingTurns (e : QueryEngine) (E : SearchPlatform) (query : SearchQuery) (scope : SearchScope)
    (src : Nat → ColdShardSource) (policy : TenantSearchPolicy) (cache : Option ShardCache) (limit : Nat) : Streaming :=
  match e.executeSearchWithLimit E query scope limit with
  | .error fault => ⟨[], .error fault, cache⟩
  | .ok found =>
      if staysLocal query scope policy then ⟨[.localResults found, .searchComplete found 0 0], .ok found, cache⟩
      else
        match (src 0).coldBuckets with
        | .error fault => ⟨[.localResults found, .searchComplete found 0 0], .error (.source fault), cache⟩
        | .ok buckets =>
            let buckets := (buckets.filter (e.bucketInScope query)).take policy.maxColdBucketsPerSearch
            if buckets.isEmpty then ⟨[.localResults found, .searchComplete found 0 0], .ok found, cache⟩
            else
              let s := e.streamTurns E query src policy 1 ⟨cache, localById found, [.localResults found], 0, 0⟩ buckets
              let out := e.rankMerged E found s.byId limit
              ⟨s.events ++ [.searchComplete out s.fetched s.skipped], .ok out, s.cache⟩

section Steady

variable {e : QueryEngine} {E : SearchPlatform} {query : SearchQuery} {src : ColdShardSource} {policy : TenantSearchPolicy}

theorem streamTurns_steady (i : Nat) (s : StreamState) (buckets : List (IdText × String)) :
    e.streamTurns E query (fun _ => src) policy i s buckets = buckets.foldl (e.streamBucket E query src policy) s := by
  induction buckets generalizing i s with
  | nil => rfl
  | cons bucket buckets ih => exact ih (i + 1) _

/-- **A source whose answers do not change.** -/
theorem executeSearchStreaming_eq_turns (scope : SearchScope) (cache : Option ShardCache) (limit : Nat) :
    e.executeSearchStreaming E query scope src policy cache limit =
      e.executeSearchStreamingTurns E query scope (fun _ => src) policy cache limit := by
  unfold executeSearchStreaming executeSearchStreamingTurns
  cases e.executeSearchWithLimit E query scope limit with
  | error fault => rfl
  | ok found =>
      cases src.coldBuckets with
      | error fault => rfl
      | ok buckets =>
          dsimp only
          rw [streamTurns_steady]

end Steady

/-- The buckets that are asked, in turn. -/
def bucketsAsked (e : QueryEngine) (query : SearchQuery) (scope : SearchScope) (src : ColdShardSource)
    (policy : TenantSearchPolicy) : List (IdText × String) :=
  match e.bucketsToRead query scope src policy with
  | .ok buckets => buckets.take policy.maxColdBucketsPerSearch
  | .error _ => []

end QueryEngine

/-- The rows that match in each bucket, from the `i`-th question on; none of a bucket that is skipped. -/
def matchesInTurn (E : SearchPlatform) (query : SearchQuery) (src : Nat → ColdShardSource) (policy : TenantSearchPolicy) :
    Nat → Option ShardCache → List (IdText × String) → List (List ColdHit)
  | _, _, [] => []
  | i, cache, bucket :: buckets =>
      let (read, cache) := readBucket E query (src i) policy cache bucket
      hitsOf [read] :: matchesInTurn E query src policy (i + 1) cache buckets

/-- The rows that match, in each bucket that is asked. -/
def QueryEngine.matchedInTurn (e : QueryEngine) (E : SearchPlatform) (query : SearchQuery) (scope : SearchScope)
    (src : Nat → ColdShardSource) (policy : TenantSearchPolicy) (cache : Option ShardCache) : List (List ColdHit) :=
  matchesInTurn E query src policy 1 cache (e.bucketsAsked query scope (src 0) policy)

/-! ## The protocol -/

/-- The event of a bucket. -/
def SearchEvent.ofBucket (bucket : IdText × String) (newHits : List RankedResult) : SearchEvent :=
  .coldBucketComplete bucket.1 bucket.2 newHits

/-- No message is in both lists. -/
def NoCommonMessage (results results' : List RankedResult) : Prop :=
  ∀ r ∈ results, ∀ r' ∈ results', r.messageId ≠ r'.messageId

/-- **The protocol of events**: the local results, an event for each bucket in order, and the final list. No message comes
with two events before the final one, all of whose messages came before; and each bucket was fetched or skipped. -/
def FollowsProtocol (found : List RankedResult) (buckets : List (IdText × String)) (events : List SearchEvent) : Prop :=
  ∃ newHits total fetched skipped, newHits.length = buckets.length ∧
    events = .localResults found :: (List.zipWith SearchEvent.ofBucket buckets newHits ++
      [.searchComplete total fetched skipped]) ∧
    (found :: newHits).Pairwise NoCommonMessage ∧
    (∀ r ∈ total, ∃ results ∈ found :: newHits, ∃ r' ∈ results, r'.messageId = r.messageId) ∧
    fetched + skipped = buckets.length

/-- The ids of the local results, and of the rows that match in each bucket. -/
def idsInTurn (found : List RankedResult) (matched : List (List ColdHit)) : List (List IdText) :=
  (found.map fun r => r.messageId.toText) :: matched.map fun hits => hits.map ColdHit.messageId

/-! ## What an event carries -/

section Events

variable {e : QueryEngine} {E : SearchPlatform} {query : SearchQuery} {scope : SearchScope} {src : Nat → ColdShardSource}
  {policy : TenantSearchPolicy} {cache : Option ShardCache} {limit : Nat} {found : List RankedResult}

/-- Results that carry the messages of some row ids. -/
def Carries (results : List RankedResult) (ids : List IdText) : Prop :=
  ∀ m, (∃ r ∈ results, r.messageId = m) ↔ ∃ id ∈ ids, QueryEngine.uuidOrNil id = m

/-- What some contributions add to a merge. -/
def addedBy (e : QueryEngine) (found : List RankedResult) (before hits : List ColdHit) : List RankedResult :=
  e.intoValues (newEntries (before.foldl mergeColdHit (localById found)) ((before ++ hits).foldl mergeColdHit (localById found)))

theorem mem_newEntries {pre byId : AList fun _ : IdText => RankedResult} {r : RankedResult} :
    r ∈ newEntries pre byId ↔ ∃ id, byId.lookup id = some r ∧ pre.lookup id = none := by
  unfold newEntries
  constructor
  · intro hr
    obtain ⟨⟨id, r⟩, hentry, rfl⟩ := List.mem_map.mp hr
    obtain ⟨hentry, hnew⟩ := List.mem_filter.mp hentry
    exact ⟨id, AList.mem_lookup_iff.mpr hentry, Option.isNone_iff_eq_none.mp hnew⟩
  · rintro ⟨id, hentry, hnew⟩
    refine List.mem_map.mpr ⟨⟨id, r⟩, List.mem_filter.mpr ⟨AList.mem_lookup_iff.mp hentry, ?_⟩, rfl⟩
    exact Option.isNone_iff_eq_none.mpr hnew

@[simp] theorem newEntries_self (byId : AList fun _ : IdText => RankedResult) : newEntries byId byId = [] := by
  apply List.eq_nil_iff_forall_not_mem.mpr
  intro r hr
  obtain ⟨id, hsome, hnone⟩ := mem_newEntries.mp hr
  exact absurd (hnone.symm.trans hsome) (by simp)

/-- A bucket that is skipped adds nothing. -/
@[simp] theorem addedBy_nil (before : List ColdHit) : addedBy e found before [] = [] := by
  unfold addedBy
  rw [List.append_nil, newEntries_self, QueryEngine.intoValues_nil]

/-- An id has an entry where a local result or a contribution is under it. -/
theorem lookup_merged_eq_none {hits : List ColdHit} {id : IdText} :
    (hits.foldl mergeColdHit (localById found)).lookup id = none ↔
      id ∉ (found.map fun r => r.messageId.toText) ++ hits.map ColdHit.messageId := by
  have hname := @named_lookup_merged found hits id
  constructor
  · intro hnone hid
    rw [hnone] at hname
    obtain ⟨hlocal, hcold⟩ := Option.or_eq_none_iff.mp hname.symm
    rcases List.mem_append.mp hid with hid | hid
    · obtain ⟨r, hr, hrid⟩ := List.mem_map.mp hid
      exact localById_lookup_eq_none.mp (Option.map_eq_none_iff.mp hlocal) r hr hrid
    · obtain ⟨hit, hhit, rfl⟩ := List.mem_map.mp hid
      exact absurd (List.find?_eq_none.mp (Option.map_eq_none_iff.mp hcold) hit hhit) (by simp)
  · intro hid
    rw [List.mem_append, not_or] at hid
    obtain ⟨hlocal, hcold⟩ := hid
    have hno : (localById found).lookup id = none := by
      refine localById_lookup_eq_none.mpr ?_
      intro r hr hrid
      exact hlocal (List.mem_map.mpr ⟨r, hr, hrid⟩)
    have hfind : hits.find? (fun hit => decide (hit.messageId = id)) = none := by
      refine List.find?_eq_none.mpr ?_
      intro hit hhit hhid
      exact hcold (List.mem_map.mpr ⟨hit, hhit, of_decide_eq_true hhid⟩)
    rw [hno, hfind] at hname
    exact Option.map_eq_none_iff.mp hname

/-- An entry that is new carries the message of its id. -/
theorem messageId_of_new {hits : List ColdHit} {id : IdText} {r : RankedResult}
    (hlocal : id ∉ found.map fun r => r.messageId.toText)
    (h : (hits.foldl mergeColdHit (localById found)).lookup id = some r) : r.messageId = QueryEngine.uuidOrNil id := by
  have hno : (localById found).lookup id = none := by
    refine localById_lookup_eq_none.mpr ?_
    intro r hr hrid
    exact hlocal (List.mem_map.mpr ⟨r, hr, hrid⟩)
  have hname := @named_lookup_merged found hits id
  rw [h, hno] at hname
  obtain ⟨hit, hhit, hnamed⟩ := Option.map_eq_some_iff.mp hname.symm
  have hid : hit.messageId = id := by simpa using List.find?_some hhit
  rw [← hid]
  exact (congrArg Named.messageId hnamed).symm

/-- **An event carries the messages of the row ids that are new.** -/
theorem carries_addedBy (before hits : List ColdHit) :
    Carries (addedBy e found before hits)
      (added ((found.map fun r => r.messageId.toText) ++ before.map ColdHit.messageId) (hits.map ColdHit.messageId)) := by
  have hentry : ∀ r, r ∈ addedBy e found before hits ↔
      ∃ id, ((before ++ hits).foldl mergeColdHit (localById found)).lookup id = some r ∧
        id ∉ (found.map fun r => r.messageId.toText) ++ before.map ColdHit.messageId := by
    intro r
    unfold addedBy
    rw [QueryEngine.mem_intoValues, mem_newEntries]
    simp only [lookup_merged_eq_none]
  intro m
  constructor
  · rintro ⟨r, hr, rfl⟩
    obtain ⟨id, hsome, hnew⟩ := (hentry r).mp hr
    have hlocal : id ∉ found.map fun r => r.messageId.toText := fun hid => hnew (List.mem_append_left _ hid)
    refine ⟨id, mem_added.mpr ⟨?_, hnew⟩, (messageId_of_new hlocal hsome).symm⟩
    by_contra hhits
    have hnone : ((before ++ hits).foldl mergeColdHit (localById found)).lookup id = none := by
      rw [lookup_merged_eq_none, List.map_append, ← List.append_assoc]
      exact fun hid => (List.mem_append.mp hid).elim hnew hhits
    exact absurd (hnone.symm.trans hsome) (by simp)
  · rintro ⟨id, hid, rfl⟩
    obtain ⟨hhits, hnew⟩ := mem_added.mp hid
    have hlocal : id ∉ found.map fun r => r.messageId.toText := fun hid => hnew (List.mem_append_left _ hid)
    have hsome : ((before ++ hits).foldl mergeColdHit (localById found)).lookup id ≠ none := by
      rw [Ne, lookup_merged_eq_none, List.map_append, not_not]
      exact List.mem_append_right _ (List.mem_append_right _ hhits)
    obtain ⟨r, hr⟩ := Option.ne_none_iff_exists'.mp hsome
    exact ⟨r, (hentry r).mpr ⟨id, hr, hnew⟩, messageId_of_new hlocal hr⟩

theorem carries_found : Carries found (found.map fun r => r.messageId.toText) := by
  intro m
  constructor
  · rintro ⟨r, hr, rfl⟩
    exact ⟨_, List.mem_map_of_mem hr, rfl⟩
  · rintro ⟨id, hid, rfl⟩
    obtain ⟨r, hr, rfl⟩ := List.mem_map.mp hid
    exact ⟨r, hr, rfl⟩

/-- Lists that carry the messages of ids have a message in common where the ids have a name in common. -/
theorem noCommonMessage_iff {results results' : List RankedResult} {ids ids' : List IdText} (h : Carries results ids)
    (h' : Carries results' ids') : NoCommonMessage results results' ↔ NoCommonName QueryEngine.uuidOrNil ids ids' := by
  constructor
  · intro hno id hid id' hid' hname
    obtain ⟨r, hr, hm⟩ := (h _).mpr ⟨id, hid, rfl⟩
    obtain ⟨r', hr', hm'⟩ := (h' _).mpr ⟨id', hid', rfl⟩
    exact hno r hr r' hr' (hm.trans (hname.trans hm'.symm))
  · intro hno r hr r' hr' hm
    obtain ⟨id, hid, hname⟩ := (h _).mp ⟨r, hr, rfl⟩
    obtain ⟨id', hid', hname'⟩ := (h' _).mp ⟨r', hr', rfl⟩
    exact hno id hid id' hid' (hname.trans (hm.trans hname'.symm))

theorem pairwise_noCommonMessage_iff {lists : List (List RankedResult)} {ids : List (List IdText)}
    (h : List.Forall₂ Carries lists ids) :
    lists.Pairwise NoCommonMessage ↔ ids.Pairwise (NoCommonName QueryEngine.uuidOrNil) := by
  induction h with
  | nil => exact iff_of_true List.Pairwise.nil List.Pairwise.nil
  | @cons results ids lists idss hfirst hrest ih =>
      have hone : (∀ results' ∈ lists, NoCommonMessage results results') ↔
          ∀ ids' ∈ idss, NoCommonName QueryEngine.uuidOrNil ids ids' := by
        clear ih
        induction hrest with
        | nil => simp
        | cons hsecond _ ih' => rw [List.forall_mem_cons, List.forall_mem_cons, noCommonMessage_iff hfirst hsecond, ih']
      rw [List.pairwise_cons, List.pairwise_cons, ih, hone]

/-! ## The bucket loop -/

/-- What each bucket adds, after some contributions. -/
def addedInTurn (e : QueryEngine) (found : List RankedResult) : List ColdHit → List (List ColdHit) → List (List RankedResult)
  | _, [] => []
  | before, hits :: matched => addedBy e found before hits :: addedInTurn e found (before ++ hits) matched

theorem carries_addedInTurn (before : List ColdHit) (matched : List (List ColdHit)) :
    List.Forall₂ Carries (addedInTurn e found before matched)
      (deltas ((found.map fun r => r.messageId.toText) ++ before.map ColdHit.messageId)
        (matched.map fun hits => hits.map ColdHit.messageId)) := by
  induction matched generalizing before with
  | nil => exact .nil
  | cons hits matched ih =>
      refine .cons (carries_addedBy before hits) ?_
      rw [List.append_assoc, ← List.map_append]
      exact ih (before ++ hits)

/-- The local results and what each bucket adds. -/
theorem carries_inTurn (matched : List (List ColdHit)) :
    List.Forall₂ Carries (found :: addedInTurn e found [] matched) (deltas [] (idsInTurn found matched)) := by
  have hrest := @carries_addedInTurn e found [] matched
  rw [List.map_nil, List.append_nil] at hrest
  have hfirst : added [] (found.map fun r => r.messageId.toText) = found.map fun r => r.messageId.toText := by
    unfold added
    simp
  refine .cons ?_ hrest
  rw [hfirst]
  exact carries_found

/-- **One bucket**: its event carries what it adds, and it counts once. -/
theorem streamBucket_spec {src : ColdShardSource} {s : StreamState} {before : List ColdHit}
    (hbyId : s.byId = before.foldl mergeColdHit (localById found)) (bucket : IdText × String) :
    let read := readBucket E query src policy s.cache bucket
    let s' := e.streamBucket E query src policy s bucket
    s'.cache = read.2 ∧ s'.byId = (before ++ hitsOf [read.1]).foldl mergeColdHit (localById found) ∧
      s'.events = s.events ++ [.ofBucket bucket (addedBy e found before (hitsOf [read.1]))] ∧
      s'.fetched + s'.skipped = s.fetched + s.skipped + 1 := by
  have hskip : hitsOf [(.ok none : BucketRead)] = [] := rfl
  unfold QueryEngine.streamBucket
  rcases readBucket E query src policy s.cache bucket with ⟨read, cache'⟩
  cases read with
  | error fault =>
      have hnone : hitsOf [(.error fault : BucketRead)] = [] := rfl
      dsimp only
      rw [hnone, addedBy_nil, List.append_nil]
      exact ⟨rfl, hbyId, rfl, rfl⟩
  | ok read =>
      cases read with
      | none =>
          dsimp only
          rw [hskip, addedBy_nil, List.append_nil]
          exact ⟨rfl, hbyId, rfl, rfl⟩
      | some hits =>
          have hhits : hitsOf [(.ok (some hits) : BucketRead)] = hits := by
            rw [hitsOf, List.flatMap_singleton]
            rfl
          dsimp only
          rw [hhits]
          unfold addedBy
          rw [List.foldl_append, ← hbyId]
          exact ⟨rfl, rfl, rfl, by omega⟩

/-- **The bucket loop.** -/
theorem streamTurns_spec (buckets : List (IdText × String)) {i : Nat} {s : StreamState} {before : List ColdHit}
    (hbyId : s.byId = before.foldl mergeColdHit (localById found)) :
    let matched := matchesInTurn E query src policy i s.cache buckets
    let s' := e.streamTurns E query src policy i s buckets
    s'.byId = (before ++ matched.flatten).foldl mergeColdHit (localById found) ∧
      s'.events = s.events ++ List.zipWith SearchEvent.ofBucket buckets (addedInTurn e found before matched) ∧
      s'.fetched + s'.skipped = s.fetched + s.skipped + buckets.length := by
  induction buckets generalizing i s before with
  | nil =>
      refine ⟨?_, (List.append_nil _).symm, rfl⟩
      show s.byId = (before ++ []).foldl mergeColdHit (localById found)
      rw [List.append_nil, hbyId]
  | cons bucket buckets ih =>
      obtain ⟨hcache, hmerged, hevents, hcount⟩ := @streamBucket_spec e E query policy found (src i) s before hbyId bucket
      obtain ⟨hmerged', hevents', hcount'⟩ := @ih (i + 1) _ _ hmerged
      rw [hcache] at hmerged' hevents'
      rw [hevents, List.append_assoc] at hevents'
      rw [List.append_assoc] at hmerged'
      refine ⟨hmerged', hevents', hcount'.trans ?_⟩
      rw [hcount, List.length_cons]
      omega

@[simp] theorem length_matchesInTurn (i : Nat) (cache : Option ShardCache) (buckets : List (IdText × String)) :
    (matchesInTurn E query src policy i cache buckets).length = buckets.length := by
  induction buckets generalizing i cache with
  | nil => rfl
  | cons bucket buckets ih => exact congrArg Nat.succ (ih _ _)

@[simp] theorem length_addedInTurn (before : List ColdHit) (matched : List (List ColdHit)) :
    (addedInTurn e found before matched).length = matched.length := by
  induction matched generalizing before with
  | nil => rfl
  | cons hits matched ih => exact congrArg Nat.succ (ih _)

/-! ## The whole search -/

/-- **A message of the final list came before.** -/
theorem told_of_coldNamed {matched : List (List ColdHit)} {n : Named} (h : ColdNamed found matched.flatten n) :
    ∃ results ∈ found :: addedInTurn e found [] matched, ∃ r ∈ results, r.messageId = n.messageId := by
  cases h with
  | here hr => exact ⟨found, List.mem_cons_self, _, hr, rfl⟩
  | @cold hit hfirst hnew =>
      -- the row id is new in some bucket
      obtain ⟨hits, hhits, hhit⟩ := List.mem_flatten.mp hfirst.mem
      have hlocal : hit.messageId ∉ (found.map fun r => r.messageId.toText) ++ [].map ColdHit.messageId := by
        rw [List.map_nil, List.append_nil]
        intro hid
        obtain ⟨r, hr, hrid⟩ := List.mem_map.mp hid
        exact hnew r hr hrid
      have hmem : hit.messageId ∈ (matched.map fun hits => hits.map ColdHit.messageId).flatten :=
        List.mem_flatten.mpr ⟨_, List.mem_map_of_mem hhits, List.mem_map_of_mem hhit⟩
      obtain ⟨ids, hids, hid⟩ := List.mem_flatten.mp (mem_flatten_deltas.mpr ⟨hmem, hlocal⟩)
      obtain ⟨results, hresults, hcarries⟩ := exists_of_forall₂ (@carries_addedInTurn e found [] matched).flip hids
      obtain ⟨r, hr, hm⟩ := (hcarries _).mpr ⟨_, hid, rfl⟩
      exact ⟨results, List.mem_cons_of_mem _ hresults, r, hr, hm⟩

/-- **What every streaming search emits**, once the local pass has returned. -/
theorem events_inTurn (hfound : e.executeSearchWithLimit E query scope limit = .ok found) :
    ∃ total fetched skipped,
      (e.executeSearchStreamingTurns E query scope src policy cache limit).events = .localResults found ::
        (List.zipWith SearchEvent.ofBucket (e.bucketsAsked query scope (src 0) policy)
          (addedInTurn e found [] (e.matchedInTurn E query scope src policy cache)) ++
          [.searchComplete total fetched skipped]) ∧
      (∀ r ∈ total, ∃ results ∈ found :: addedInTurn e found [] (e.matchedInTurn E query scope src policy cache),
        ∃ r' ∈ results, r'.messageId = r.messageId) ∧
      fetched + skipped = (e.bucketsAsked query scope (src 0) policy).length := by
  -- where nothing is asked of the archive the local results end the stream
  have hends : ∃ total fetched skipped, [SearchEvent.localResults found, .searchComplete found 0 0] = .localResults found ::
      (List.zipWith SearchEvent.ofBucket [] (addedInTurn e found [] (matchesInTurn E query src policy 1 cache [])) ++
        [.searchComplete total fetched skipped]) ∧
      (∀ r ∈ total, ∃ results ∈ found :: addedInTurn e found [] (matchesInTurn E query src policy 1 cache []),
        ∃ r' ∈ results, r'.messageId = r.messageId) ∧ fetched + skipped = ([] : List (IdText × String)).length := by
    refine ⟨found, 0, 0, rfl, ?_, rfl⟩
    intro r hr
    exact ⟨found, List.mem_cons_self, r, hr, rfl⟩
  unfold QueryEngine.executeSearchStreamingTurns QueryEngine.matchedInTurn QueryEngine.bucketsAsked QueryEngine.bucketsToRead
  rw [hfound]
  dsimp only
  by_cases hlocal : staysLocal query scope policy = true
  · simp only [if_pos hlocal, List.take_nil]
    exact hends
  · simp only [if_neg hlocal]
    cases (src 0).coldBuckets with
    | error fault => exact hends
    | ok all =>
        simp only [Except.map]
        generalize (all.filter (e.bucketInScope query)).take policy.maxColdBucketsPerSearch = buckets
        by_cases hempty : buckets.isEmpty = true
        · rw [if_pos hempty]
          obtain rfl := List.isEmpty_iff.mp hempty
          exact hends
        · rw [if_neg hempty]
          obtain ⟨hbyId, hevents, hcount⟩ := @streamTurns_spec e E query src policy found buckets 1
            ⟨cache, localById found, [.localResults found], 0, 0⟩ [] rfl
          rw [List.nil_append] at hbyId
          refine ⟨_, _, _, by rw [hevents]; rfl, ?_, by rw [hcount]; simp⟩
          intro r hr
          rw [hbyId] at hr
          -- a result of the end was local, or some bucket added it
          exact told_of_coldNamed (coldNamed_of_mem_rankMerged hr)

theorem zipWith_ofBucket_inj {buckets : List (IdText × String)} {lists lists' : List (List RankedResult)}
    (hlength : lists.length = buckets.length) (hlength' : lists'.length = buckets.length)
    (h : List.zipWith SearchEvent.ofBucket buckets lists = List.zipWith SearchEvent.ofBucket buckets lists') :
    lists = lists' := by
  induction buckets generalizing lists lists' with
  | nil => rw [List.length_eq_zero_iff.mp hlength, List.length_eq_zero_iff.mp hlength']
  | cons bucket buckets ih =>
      obtain ⟨first, rest, rfl⟩ := List.exists_cons_of_length_eq_add_one hlength
      obtain ⟨first', rest', rfl⟩ := List.exists_cons_of_length_eq_add_one hlength'
      obtain ⟨hfirst, hrest⟩ := List.cons.inj h
      obtain ⟨-, -, rfl⟩ := SearchEvent.coldBucketComplete.inj hfirst
      rw [ih (Nat.succ.inj hlength) (Nat.succ.inj hlength') hrest]

end Events

/-- Two buckets of a conversation, with one row that says "meet" in each, under an id of its own. -/
def pagesSource (january february : IdText) : ColdShardSource where
  coldBuckets := .ok [(Uuid.toText ⟨9⟩, "2026-01"), (Uuid.toText ⟨9⟩, "2026-02")]
  fetchTextRows _ bucket := .ok [⟨if bucket = "2026-01" then january else february, ⟨9⟩, "bob", 0, "meet"⟩]
  fetchFuzzyRows _ _ := .ok []
  fetchBloomShard _ _ := .ok none

/-- The first page of one document, and the first page of another. -/
def twoPages : ColdShardSource :=
  pagesSource (.malformed "00000000-0000-0000-0000-000000000001#page1")
    (.malformed "00000000-0000-0000-0000-000000000002#page1")

/-- What either event carries: the nil UUID. -/
def pageHit : RankedResult where
  messageId := Uuid.nil
  conversationId := ⟨9⟩
  senderId := "bob"
  createdAtMs := 0
  isCold := true
  snippet := none
  rankScore := 2
  semanticScore := none

end KChatCore.Search
