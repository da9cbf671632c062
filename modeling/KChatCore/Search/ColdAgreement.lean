import KChatCore.Lib.Ties
import KChatCore.Search.HashOrder
import KChatCore.Search.StreamEvents

/-!
# `Search.ColdAgreement` — one search in three ways

The sequential, the parallel and the streaming search read the same buckets, and through caches that agree with the source
they merge the same rows. What remains is the order in which a hash map gives out its entries. Different messages are sorted
in one way; but every row id that is no UUID carries the nil UUID, and two such entries may tie.

* `agree_of_noTieShows` — where no tie shows, the three searches return the same.
* `coldSearchesAgree_iff` — and only there.
-/

namespace KChatCore.Search

open Lib LocalStore

/-- **The three searches agree**: what the sequential one returns, the parallel one returns under every schedule and the
streaming one returns, with the hash maps in any order and through any cache that agrees; and caches still agree
afterwards. -/
def ColdSearchesAgree (e : QueryEngine) (E : SearchPlatform) (query : SearchQuery) (src : ColdShardSource)
    (policy : TenantSearchPolicy) (limit : Nat) : Prop :=
  ∀ scope cache, Agrees src cache → ∀ r,
    (e.executeSearchWithColdSourceFull E query scope src policy cache limit).1 = .ok r →
      Agrees src (e.executeSearchWithColdSourceFull E query scope src policy cache limit).2 ∧
        ∀ order horder cache', Agrees src cache' →
          (∀ concurrency schedule,
            joined E query src policy (e.bucketsAsked query scope src policy) cache' concurrency schedule = true →
              let parallel := (e.reordered order horder).executeSearchWithColdSourceFullParallel E query scope src policy cache'
                limit concurrency schedule
              parallel.1 = .ok r ∧ Agrees src parallel.2) ∧
          let streaming := (e.reordered order horder).executeSearchStreaming E query scope src policy cache' limit
          streaming.returned = .ok r ∧ Agrees src streaming.cache

namespace QueryEngine

/-! ## Entries that tie -/

/-- The entries of the local pass, weighed. -/
def weighedLocal (e : QueryEngine) (E : SearchPlatform) (query : SearchQuery) (limit : Nat) : List RankedResult :=
  e.applyRecencyAndKindWeight E (values (e.textLane E query (trim query.queryString) limit))

/-- The entries of a merge with rows of the archive, weighed. -/
def weighedMerged (E : SearchPlatform) (found : List RankedResult) (hits : List ColdHit) : List RankedResult :=
  applyColdRecencyWeight E (localById found).keys (values (hits.foldl mergeColdHit (localById found)))

/-- The local pass returns, and there are buckets in scope; those that are asked can all be read. -/
structure ReadsArchive (e : QueryEngine) (E : SearchPlatform) (query : SearchQuery) (src : ColdShardSource)
    (policy : TenantSearchPolicy) (limit : Nat) (found : List RankedResult) (buckets : List (IdText × String)) : Prop where
  returned : e.executeSearchWithLimit E query .includeCold limit = .ok found
  inScope : e.bucketsToRead query .includeCold src policy = .ok buckets
  nonempty : buckets ≠ []
  readable : ∀ bucket ∈ buckets.take policy.maxColdBucketsPerSearch, Readable E query src policy bucket

/-- **No tie shows**: entries that tie are the same or come after the limit, in the local pass and in the merge with the
archive. Where there are buckets in scope but none may be asked, the streaming search alone leaves out the merge; then the
local results have to be of different messages. -/
structure NoTieShows (e : QueryEngine) (E : SearchPlatform) (query : SearchQuery) (src : ColdShardSource)
    (policy : TenantSearchPolicy) (limit : Nat) : Prop where
  here : (trim query.queryString).isEmpty = false → E.accepts (trim query.queryString) = true →
    TiesCut resultLe limit (e.weighedLocal E query limit)
  merged : ∀ found buckets, e.ReadsArchive E query src policy limit found buckets → TiesCut resultLe limit
    (weighedMerged E found ((buckets.take policy.maxColdBucketsPerSearch).flatMap (hitsIn E query src policy)))
  unread : ∀ found buckets, e.ReadsArchive E query src policy limit found buckets → policy.maxColdBucketsPerSearch = 0 →
    (found.map fun r => r.messageId).Nodup

variable {e : QueryEngine} {E : SearchPlatform} {query : SearchQuery} {scope : SearchScope} {src : ColdShardSource}
  {policy : TenantSearchPolicy} {cache : Option ShardCache} {limit : Nat} {found r : List RankedResult} {hits : List ColdHit}
  {buckets : List (IdText × String)} {order : List RankedResult → List RankedResult}
  {horder : ∀ results, (order results).Perm results}

/-- Results of different messages do not tie. -/
theorem tiesCut_of_nodup {results : List RankedResult} (h : (results.map fun r => r.messageId).Nodup) :
    TiesCut resultLe limit results := by
  apply tiesCut_of_antisymm
  intro a ha b hb hab hba
  have hmessage : a.messageId = b.messageId := congrArg Standing.messageId (standing_eq_of_resultLe hab hba)
  exact List.inj_on_of_nodup_map h ha hb hmessage

/-- **The weights of a list do not depend on its order.** -/
theorem applyRecency_perm {results results' : List RankedResult} (h : results'.Perm results) :
    e.applyRecencyAndKindWeight E results' = results'.map fun r => { r with
      rankScore := r.rankScore * e.messageWeight E (newest (results.map fun r => r.createdAtMs)) r.messageId r.createdAtMs } := by
  unfold applyRecencyAndKindWeight
  rw [newest_perm (h.map fun r => r.createdAtMs)]

theorem applyCold_perm {localIds : List IdText} {results results' : List RankedResult} (h : results'.Perm results) :
    applyColdRecencyWeight E localIds results' = results'.map fun r => if r.messageId.toText ∈ localIds then r
      else { r with rankScore := r.rankScore * (recencyFactor E (newest (results.map fun r => r.createdAtMs) - r.createdAtMs) *
        textKindWeight) } := by
  unfold applyColdRecencyWeight
  rw [newest_perm (h.map fun r => r.createdAtMs)]

/-- **The best of some weighed entries** are the same in every order exactly where ties are cut. -/
theorem top_weighed_iff {weigh : List RankedResult → List RankedResult} {results : List RankedResult}
    {f : RankedResult → RankedResult} (hweigh : ∀ results', results'.Perm results → weigh results' = results'.map f) :
    (∀ results', results'.Perm results → top resultLe limit (weigh results') = top resultLe limit (weigh results)) ↔
      TiesCut resultLe limit (weigh results) := by
  rw [hweigh results (.refl _), ← top_map_unique_iff resultLe_trans resultLe_total]
  refine forall₂_congr fun results' hperm => ?_
  rw [hweigh results' hperm]

theorem top_weighedLocal_iff :
    (∀ results, results.Perm (values (e.textLane E query (trim query.queryString) limit)) →
      top resultLe limit (e.applyRecencyAndKindWeight E results) = top resultLe limit (e.weighedLocal E query limit)) ↔
      TiesCut resultLe limit (e.weighedLocal E query limit) :=
  top_weighed_iff fun _ hperm => applyRecency_perm hperm

theorem top_weighedMerged_iff :
    (∀ results, results.Perm (values (hits.foldl mergeColdHit (localById found))) →
      top resultLe limit (applyColdRecencyWeight E (localById found).keys results) =
        top resultLe limit (weighedMerged E found hits)) ↔
      TiesCut resultLe limit (weighedMerged E found hits) :=
  top_weighed_iff fun _ hperm => applyCold_perm hperm

/-! ## Where no tie shows -/

/-- **The local pass returns the same in every order of its hash map.** -/
theorem limit_reordered_eq (h : (trim query.queryString).isEmpty = false → E.accepts (trim query.queryString) = true →
    TiesCut resultLe limit (e.weighedLocal E query limit)) :
    (e.reordered order horder).executeSearchWithLimit E query scope limit = .ok found ↔
      e.executeSearchWithLimit E query scope limit = .ok found := by
  cases hblank : (trim query.queryString).isEmpty with
  | true =>
      rw [executeSearchWithLimit_of_blank hblank, executeSearchWithLimit_of_blank hblank]
      rfl
  | false =>
      rw [executeSearchWithLimit_of_text hblank, executeSearchWithLimit_of_text hblank]
      refine and_congr_right fun haccepts => ?_
      have hsame := top_weighedLocal_iff.mpr (h hblank haccepts)
      have hleft := hsame _ ((e.reordered order horder).intoValues_perm
        (values (e.textLane E query (trim query.queryString) limit)))
      have hright := hsame _ (e.intoValues_perm (values (e.textLane E query (trim query.queryString) limit)))
      have hboth : top resultLe limit ((e.reordered order horder).applyRecencyAndKindWeight E
          ((e.reordered order horder).intoValues
            (values ((e.reordered order horder).textLane E query (trim query.queryString) limit)))) =
          top resultLe limit (e.applyRecencyAndKindWeight E
            (e.intoValues (values (e.textLane E query (trim query.queryString) limit)))) := hleft.trans hright.symm
      rw [hboth]
      rfl

/-- **A merge returns the same in every order of its hash map.** -/
theorem rankMerged_reordered_eq (h : TiesCut resultLe limit (weighedMerged E found hits)) :
    (e.reordered order horder).rankMerged E found (hits.foldl mergeColdHit (localById found)) limit =
      e.rankMerged E found (hits.foldl mergeColdHit (localById found)) limit := by
  have hsame := top_weighedMerged_iff.mpr h
  have hleft := hsame _ ((e.reordered order horder).intoValues_perm (values (hits.foldl mergeColdHit (localById found))))
  exact hleft.trans (hsame _ (e.intoValues_perm _)).symm

/-- The local results come in order. -/
theorem pairwise_limit (hblank : (trim query.queryString).isEmpty = false)
    (hfound : e.executeSearchWithLimit E query scope limit = .ok found) :
    found.Pairwise fun a b => resultLe a b := by
  obtain ⟨-, rfl⟩ := (executeSearchWithLimit_of_text hblank).mp hfound
  have htop : (top resultLe limit (e.applyRecencyAndKindWeight E
      (e.intoValues (values (e.textLane E query (trim query.queryString) limit))))).Pairwise fun a b => resultLe a b :=
    (List.pairwise_mergeSort resultLe_trans resultLe_total _).sublist (List.take_sublist limit _)
  unfold markColdResults
  split_ifs
  · rw [List.pairwise_map]
    simp only [resultLe_eq_standingLe, standing_markCold]
    exact htop
  · exact htop

/-- Results of different messages are the entries of their map. -/
theorem values_localById_perm (hnodup : (found.map fun r => r.messageId).Nodup) : (values (localById found)).Perm found := by
  have hentry : ∀ id r, (localById found).lookup id = some r → r.messageId.toText = id := by
    intro id r h
    exact (mem_of_localById_lookup h).2
  refine (List.perm_ext_iff_of_nodup (nodup_map_values hentry).of_map hnodup.of_map).mpr ?_
  intro r
  rw [mem_values]
  constructor
  · rintro ⟨id, h⟩
    exact (mem_of_localById_lookup h).1
  · intro hr
    obtain ⟨r', hr', hid, hlookup⟩ : ∃ r' ∈ found, r'.messageId.toText = r.messageId.toText ∧
        (localById found).lookup r.messageId.toText = some r' := lookup_insertHits_of_mem hr
    rw [List.inj_on_of_nodup_map hnodup hr' hr (Uuid.toText_inj.mp hid)] at hlookup
    exact ⟨_, hlookup⟩

/-- **Without rows of the archive a merge returns the local results**, if they are of different messages. -/
theorem rankMerged_of_nodup (hfound : e.executeSearchWithLimit E query scope limit = .ok found)
    (hblank : (trim query.queryString).isEmpty = false) (hnodup : (found.map fun r => r.messageId).Nodup) :
    e.rankMerged E found (localById found) limit = found := by
  have hvalues : (e.intoValues (values (localById found))).Perm found :=
    (e.intoValues_perm _).trans (values_localById_perm hnodup)
  have hweighed : applyColdRecencyWeight E (localById found).keys (e.intoValues (values (localById found))) =
      e.intoValues (values (localById found)) := by
    unfold applyColdRecencyWeight
    refine (List.map_congr_left fun r hr => ?_).trans (List.map_id _)
    have hkey : r.messageId.toText ∈ (localById found).keys := by
      rw [mem_keys_localById, Option.isSome_iff_ne_none, Ne, localById_lookup_eq_none, not_forall]
      exact ⟨r, fun hno => hno (hvalues.mem_iff.mp hr) rfl⟩
    rw [if_pos hkey]
    rfl
  unfold rankMerged
  rw [hweighed, top_eq_of_nodup ((hvalues.map _).nodup_iff.mpr hnodup) hvalues]
  unfold top
  rw [List.mergeSort_of_pairwise (pairwise_limit hblank hfound),
    List.take_of_length_le (length_executeSearchWithLimit_le hfound)]

/-- What the sequential search reads. -/
theorem hits_of_coldReads (hagrees : Agrees src cache) (hbuckets : e.bucketsToRead query scope src policy = .ok buckets)
    (h : e.coldReads E query scope src policy cache = .ok hits) :
    (∀ bucket ∈ buckets.take policy.maxColdBucketsPerSearch, Readable E query src policy bucket) ∧
      hits = (buckets.take policy.maxColdBucketsPerSearch).flatMap (hitsIn E query src policy) := by
  unfold coldReads at h
  rw [hbuckets] at h
  exact ((@Agrees.readBuckets E query src policy cache hagrees _).1 hits).mp h

/-- What the parallel search reads, under every schedule. -/
theorem parallelHits_eq (hagrees : Agrees src cache) (hbuckets : e.bucketsToRead query scope src policy = .ok buckets)
    {concurrency : Nat} {schedule : List Nat}
    (hjoined : joined E query src policy (e.bucketsAsked query scope src policy) cache concurrency schedule = true) :
    e.parallelHits E query scope src policy cache concurrency schedule =
      (buckets.take policy.maxColdBucketsPerSearch).flatMap (hitsIn E query src policy) := by
  unfold bucketsAsked at hjoined
  unfold parallelHits
  rw [hbuckets] at hjoined ⊢
  dsimp only
  rw [(parallelFetchBuckets_of_agrees hagrees hjoined).1, List.flatMap_map]
  simp only [prefetchHits_prefetchOf]

/-- What the streaming search merges. -/
theorem streamBuckets_byId (hagrees : Agrees src cache) (buckets : List (IdText × String)) :
    (e.streamBuckets E query src policy cache found buckets).byId =
        (buckets.flatMap (hitsIn E query src policy)).foldl mergeColdHit (localById found) ∧
      Agrees src (e.streamBuckets E query src policy cache found buckets).cache := by
  obtain ⟨hreads, hend⟩ := @Agrees.visitBuckets E query src policy cache hagrees buckets
  obtain ⟨hstreamed, hcache⟩ := @streamed_streamBuckets e E query src policy cache found buckets
  rw [hcache, ← hitsOf_map, ← hreads]
  exact ⟨hstreamed.byId, hend⟩

/-- **The sequential search leaves a cache that agrees.** -/
theorem agrees_full (hagrees : Agrees src cache) :
    Agrees src (e.executeSearchWithColdSourceFull E query scope src policy cache limit).2 := by
  cases hfound : e.executeSearchWithLimit E query scope limit with
  | error fault =>
      unfold executeSearchWithColdSourceFull
      rw [hfound]
      exact hagrees
  | ok found =>
      rw [executeSearchWithColdSourceFull_eq hfound]
      cases e.bucketsToRead query scope src policy with
      | error fault => exact hagrees
      | ok buckets =>
          have hend := (@Agrees.readBuckets E query src policy cache hagrees
            (buckets.take policy.maxColdBucketsPerSearch)).2
          dsimp only
          rcases hreads : readBuckets E query src policy cache (buckets.take policy.maxColdBucketsPerSearch) with
            ⟨reads, cache'⟩
          rw [hreads] at hend
          cases reads with
          | error fault => exact hend
          | ok hits => exact hend

/-- A search that reads buckets is one over the archive. -/
theorem scope_of_bucketsToRead (h : e.bucketsToRead query scope src policy = .ok buckets) (hne : buckets ≠ []) :
    scope = .includeCold ∧ (trim query.queryString).isEmpty = false := by
  unfold bucketsToRead at h
  by_cases hlocal : staysLocal query scope policy = true
  · rw [if_pos hlocal] at h
    exact absurd (Except.ok.inj h).symm hne
  · unfold staysLocal at hlocal
    simp only [Bool.or_eq_true, not_or, decide_eq_true_eq, Bool.not_eq_true] at hlocal
    obtain ⟨⟨⟨hscope, hblank⟩, -⟩, -⟩ := hlocal
    exact ⟨by simpa using hscope, hblank⟩

/-- **The streaming search returns**: the merge, or the local results where no bucket is asked. -/
theorem streaming_eq_ok (hagrees : Agrees src cache) (hfound : e.executeSearchWithLimit E query scope limit = .ok found)
    (hbuckets : e.bucketsToRead query scope src policy = .ok buckets) :
    (e.executeSearchStreaming E query scope src policy cache limit).returned =
        .ok (if (buckets.take policy.maxColdBucketsPerSearch).isEmpty then found
          else e.rankMerged E found (((buckets.take policy.maxColdBucketsPerSearch).flatMap
            (hitsIn E query src policy)).foldl mergeColdHit (localById found)) limit) ∧
      Agrees src (e.executeSearchStreaming E query scope src policy cache limit).cache := by
  rw [executeSearchStreaming_eq hfound, hbuckets]
  dsimp only
  by_cases hempty : (buckets.take policy.maxColdBucketsPerSearch).isEmpty = true
  · rw [if_pos hempty, if_pos hempty]
    exact ⟨rfl, hagrees⟩
  · rw [if_neg hempty, if_neg hempty]
    obtain ⟨hbyId, hend⟩ := @streamBuckets_byId e E query src policy cache found hagrees
      (buckets.take policy.maxColdBucketsPerSearch)
    rw [← hbyId]
    exact ⟨rfl, hend⟩

/-- **The parallel search leaves a cache that agrees**, under every schedule. -/
theorem agrees_parallel (hagrees : Agrees src cache) (hfound : e.executeSearchWithLimit E query scope limit = .ok found)
    (concurrency : Nat) (schedule : List Nat) :
    Agrees src (e.executeSearchWithColdSourceFullParallel E query scope src policy cache limit concurrency schedule).2 := by
  rw [executeSearchWithColdSourceFullParallel_eq hfound]
  cases e.bucketsToRead query scope src policy with
  | error fault => exact hagrees
  | ok buckets =>
      dsimp only
      split_ifs
      · exact hagrees
      · exact (fetchedFrom_runWorkers hagrees).cache

/-- **Where no tie shows, the three searches agree.** -/
theorem agree_of_noTieShows (h : e.NoTieShows E query src policy limit) : ColdSearchesAgree e E query src policy limit := by
  intro scope cache hagrees r hfull
  refine ⟨agrees_full hagrees, ?_⟩
  intro order horder cache' hagrees'
  obtain ⟨found, hfound⟩ := local_of_full hfull
  obtain ⟨buckets, hits, hbuckets, hreads, rfl⟩ := (full_eq_ok hfound).mp hfull
  obtain ⟨hreadable, rfl⟩ := hits_of_coldReads hagrees hbuckets hreads
  have hfound' : (e.reordered order horder).executeSearchWithLimit E query scope limit = .ok found :=
    (limit_reordered_eq h.here).mpr hfound
  have hbuckets' : (e.reordered order horder).bucketsToRead query scope src policy = .ok buckets := hbuckets
  -- the merge does not depend on the hash map
  have hmerged : buckets ≠ [] → scope = .includeCold ∧ (trim query.queryString).isEmpty = false ∧
      e.ReadsArchive E query src policy limit found buckets := by
    intro hne
    obtain ⟨rfl, hblank⟩ := scope_of_bucketsToRead hbuckets hne
    exact ⟨rfl, hblank, hfound, hbuckets, hne, hreadable⟩
  constructor
  · intro concurrency schedule hjoined
    refine ⟨(parallel_eq_ok hfound').mpr ⟨buckets, hbuckets', ?_⟩, agrees_parallel hagrees' hfound' _ _⟩
    rw [parallelHits_eq hagrees' hbuckets' hjoined]
    unfold mergeCold
    by_cases hempty : buckets.isEmpty = true
    · rw [if_pos hempty, if_pos hempty]
    · rw [if_neg hempty, if_neg hempty]
      obtain ⟨-, -, hreads⟩ := hmerged (by simpa using hempty)
      exact (rankMerged_reordered_eq (h.merged found buckets hreads)).symm
  · obtain ⟨hreturned, hend⟩ := streaming_eq_ok hagrees' hfound' hbuckets'
    refine ⟨hreturned.trans (congrArg Except.ok ?_), hend⟩
    unfold mergeCold
    by_cases hempty : buckets.isEmpty = true
    · rw [if_pos hempty, List.isEmpty_iff.mp hempty, List.take_nil]
      rfl
    · obtain ⟨-, hblank, hreads⟩ := hmerged (by simpa using hempty)
      rw [if_neg hempty]
      by_cases hnone : (buckets.take policy.maxColdBucketsPerSearch).isEmpty = true
      · -- no bucket may be asked
        have hcap : policy.maxColdBucketsPerSearch = 0 := by
          rcases List.take_eq_nil_iff.mp (List.isEmpty_iff.mp hnone) with hcap | hnil
          · exact hcap
          · exact absurd hnil hreads.nonempty
        rw [if_pos hnone, List.isEmpty_iff.mp hnone]
        exact (rankMerged_of_nodup hfound hblank (h.unread found buckets hreads hcap)).symm
      · rw [if_neg hnone]
        exact rankMerged_reordered_eq (h.merged found buckets hreads)

/-! ## A tie that shows -/

/-- A hash map that gives out some entries in a given order. -/
def giving (entries results : List RankedResult) (l : List RankedResult) : List RankedResult :=
  if l = entries then results else l

theorem giving_perm {entries results : List RankedResult} (h : results.Perm entries) (l : List RankedResult) :
    (giving entries results l).Perm l := by
  unfold giving
  split_ifs with hl
  · exact hl ▸ h
  · exact .refl l

theorem giving_self (entries results : List RankedResult) : giving entries results entries = results := if_pos rfl

theorem bucketsToRead_localOnly : e.bucketsToRead query .localOnly src policy = .ok [] := rfl

/-- The local pass, by the order of its hash map. -/
theorem limit_localOnly (hblank : (trim query.queryString).isEmpty = false)
    (haccepts : E.accepts (trim query.queryString) = true) :
    (e.reordered order horder).executeSearchWithLimit E query .localOnly limit = .ok (top resultLe limit
      (e.applyRecencyAndKindWeight E (order (values (e.textLane E query (trim query.queryString) limit))))) :=
  (executeSearchWithLimit_of_text hblank).mpr ⟨haccepts, rfl⟩

/-- **Searches that stay local agree only where ties are cut.** -/
theorem tiesCut_here_of_agree (h : ColdSearchesAgree e E query src policy limit)
    (hblank : (trim query.queryString).isEmpty = false) (haccepts : E.accepts (trim query.queryString) = true) :
    TiesCut resultLe limit (e.weighedLocal E query limit) := by
  have hfound : e.executeSearchWithLimit E query .localOnly limit = .ok (top resultLe limit
      (e.applyRecencyAndKindWeight E (e.intoValues (values (e.textLane E query (trim query.queryString) limit))))) :=
    (executeSearchWithLimit_of_text hblank).mpr ⟨haccepts, rfl⟩
  have hreads : e.coldReads E query .localOnly src policy none = .ok [] := by
    unfold coldReads
    rw [bucketsToRead_localOnly]
    dsimp only
    rw [List.take_nil]
    rfl
  have hfull := (full_eq_ok hfound).mpr ⟨[], [], bucketsToRead_localOnly, hreads, rfl⟩
  obtain ⟨-, hagree⟩ := h .localOnly none agrees_none _ hfull
  have hall : ∀ results, results.Perm (values (e.textLane E query (trim query.queryString) limit)) →
      top resultLe limit (e.applyRecencyAndKindWeight E results) = top resultLe limit
        (e.applyRecencyAndKindWeight E (e.intoValues (values (e.textLane E query (trim query.queryString) limit)))) := by
    intro results hperm
    obtain ⟨-, hreturned, -⟩ := hagree (giving _ results) (giving_perm hperm) none agrees_none
    have hother := @limit_localOnly e E query limit (giving _ results) (giving_perm hperm) hblank haccepts
    rw [giving_self] at hother
    rw [(streaming_eq_ok agrees_none hother bucketsToRead_localOnly).1, List.take_nil] at hreturned
    exact Except.ok.inj hreturned
  refine top_weighedLocal_iff.mp ?_
  intro results hperm
  exact (hall results hperm).trans (hall _ (.refl _)).symm

/-- Entries under their own ids are of different messages. -/
theorem nodup_localById (found : List RankedResult) : ((values (localById found)).map fun r => r.messageId).Nodup := by
  have htexts : ((values (localById found)).map fun r => r.messageId.toText).Nodup := by
    apply nodup_map_values
    intro id r hr
    exact (mem_of_localById_lookup hr).2
  refine List.Nodup.of_map Uuid.toText ?_
  rwa [List.map_map]

theorem map_messageId_applyCold (localIds : List IdText) (results : List RankedResult) :
    (applyColdRecencyWeight E localIds results).map (fun r => r.messageId) = results.map fun r => r.messageId := by
  have hnamed := congrArg (List.map Named.messageId) (@map_named_applyColdRecencyWeight E localIds results)
  rw [List.map_map, List.map_map] at hnamed
  exact hnamed

/-- **Searches that read the archive agree only where ties are cut**, and the merge loses no local result. -/
theorem merged_of_agree (h : ColdSearchesAgree e E query src policy limit)
    (hreads : e.ReadsArchive E query src policy limit found buckets) :
    TiesCut resultLe limit
        (weighedMerged E found ((buckets.take policy.maxColdBucketsPerSearch).flatMap (hitsIn E query src policy))) ∧
      (policy.maxColdBucketsPerSearch = 0 → (found.map fun r => r.messageId).Nodup) := by
  obtain ⟨hfound, hbuckets, hne, hreadable⟩ := hreads
  obtain ⟨-, hblank⟩ := scope_of_bucketsToRead hbuckets hne
  have hreads : e.coldReads E query .includeCold src policy none =
      .ok ((buckets.take policy.maxColdBucketsPerSearch).flatMap (hitsIn E query src policy)) := by
    unfold coldReads
    rw [hbuckets]
    exact ((@Agrees.readBuckets E query src policy none agrees_none _).1 _).mpr ⟨hreadable, rfl⟩
  have hfull := (full_eq_ok hfound).mpr ⟨buckets, _, hbuckets, hreads, rfl⟩
  obtain ⟨-, hagree⟩ := h .includeCold none agrees_none _ hfull
  have haccepts : E.accepts (trim query.queryString) = true := ((executeSearchWithLimit_of_text hblank).mp hfound).1
  have hstream : ∀ order horder, (if (buckets.take policy.maxColdBucketsPerSearch).isEmpty then found
      else (e.reordered order horder).rankMerged E found (((buckets.take policy.maxColdBucketsPerSearch).flatMap
        (hitsIn E query src policy)).foldl mergeColdHit (localById found)) limit) =
      e.rankMerged E found (((buckets.take policy.maxColdBucketsPerSearch).flatMap
        (hitsIn E query src policy)).foldl mergeColdHit (localById found)) limit := by
    intro order horder
    obtain ⟨-, hreturned, -⟩ := hagree order horder none agrees_none
    have hfound' : (e.reordered order horder).executeSearchWithLimit E query .includeCold limit = .ok found :=
      (limit_reordered_eq fun _ _ => tiesCut_here_of_agree h hblank haccepts).mpr hfound
    rw [(streaming_eq_ok agrees_none hfound' hbuckets).1] at hreturned
    refine (Except.ok.inj hreturned).trans ?_
    unfold mergeCold
    rw [if_neg (by simpa using hne)]
  by_cases hcap : policy.maxColdBucketsPerSearch = 0
  · -- the streaming search returns the local results
    have hnone : buckets.take policy.maxColdBucketsPerSearch = [] := by rw [hcap, List.take_zero]
    rw [hnone] at hstream ⊢
    have hsame : found = e.rankMerged E found (localById found) limit := hstream id .refl
    refine ⟨tiesCut_of_nodup ?_, fun _ => ?_⟩
    · unfold weighedMerged
      rw [map_messageId_applyCold]
      exact nodup_localById found
    · rw [hsame]
      refine nodup_map_top ?_
      rw [map_messageId_applyCold]
      exact (((e.intoValues_perm _).map _).nodup_iff).mpr (nodup_localById found)
  · have hsome : ¬ (buckets.take policy.maxColdBucketsPerSearch).isEmpty = true := by
      simpa [List.take_eq_nil_iff] using ⟨hcap, hne⟩
    refine ⟨?_, fun hzero => absurd hzero hcap⟩
    generalize (buckets.take policy.maxColdBucketsPerSearch).flatMap (hitsIn E query src policy) = hits at hstream ⊢
    simp only [if_neg hsome] at hstream
    have hall : ∀ results, results.Perm (values (hits.foldl mergeColdHit (localById found))) →
        top resultLe limit (applyColdRecencyWeight E (localById found).keys results) =
          e.rankMerged E found (hits.foldl mergeColdHit (localById found)) limit := by
      intro results hperm
      have hgiven := hstream (giving _ results) (giving_perm hperm)
      have hresults : (e.reordered _ (giving_perm hperm)).rankMerged E found (hits.foldl mergeColdHit (localById found)) limit =
          top resultLe limit (applyColdRecencyWeight E (localById found).keys results) := by
        show top resultLe limit (applyColdRecencyWeight E (localById found).keys
          (giving (values (hits.foldl mergeColdHit (localById found))) results
            (values (hits.foldl mergeColdHit (localById found))))) = _
        rw [giving_self]
      exact hresults.symm.trans hgiven
    refine top_weighedMerged_iff.mp ?_
    intro results hperm
    exact (hall results hperm).trans (hall _ (.refl _)).symm

end QueryEngine

/-- One bucket, with the first pages of two documents of the same time; both say "meet". -/
def tiedPages : ColdShardSource where
  coldBuckets := .ok [(Uuid.toText ⟨9⟩, "2026-01")]
  fetchTextRows _ _ := .ok [⟨.malformed "00000000-0000-0000-0000-000000000001#page1", ⟨9⟩, "alice", 0, "meet"⟩,
    ⟨.malformed "00000000-0000-0000-0000-000000000002#page1", ⟨9⟩, "bob", 0, "meet"⟩]
  fetchFuzzyRows _ _ := .ok []
  fetchBloomShard _ _ := .ok none

end KChatCore.Search
