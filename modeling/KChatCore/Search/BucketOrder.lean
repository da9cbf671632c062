import KChatCore.Search.BucketReads
import KChatCore.Search.DeletedResults
import KChatCore.Search.HashOrder

/-!
# `Search.BucketOrder` — buckets in another order, and buckets listed twice

The rows of a bucket are merged each time the bucket is listed, and each time they add to the score of their message. So
a search does not depend on the order of the buckets, as long as rows under one id agree on the time of their message. But
a bucket with a row that matches must not be listed twice.

* `sameResults_of_perm` — buckets in another order.
* `searchesOnce_iff` — repetitions do not matter exactly where no bucket in scope has a row that matches.
-/

namespace KChatCore.Search

open Lib LocalStore

/-- The source, with a list of buckets. -/
def ColdShardSource.listing (src : ColdShardSource) (buckets : List (IdText × String)) : ColdShardSource :=
  { src with coldBuckets := .ok buckets }

/-- A message with its score. -/
def RankedResult.scored (r : RankedResult) : Uuid × Rat := (r.messageId, r.rankScore)

/-- **Two lists of buckets give the same results**, through whatever caches that agree and with the hash maps in any
order. -/
def SameResults (e : QueryEngine) (E : SearchPlatform) (query : SearchQuery) (src : ColdShardSource)
    (policy : TenantSearchPolicy) (buckets buckets' : List (IdText × String)) : Prop :=
  ∀ scope limit cache cache' order horder, Agrees src cache → Agrees src cache' → ∀ out,
    (e.executeSearchWithColdSourceFull E query scope (src.listing buckets) policy cache limit).1 = .ok out →
      ∃ out', ((e.reordered order horder).executeSearchWithColdSourceFull E query scope (src.listing buckets') policy cache'
        limit).1 = .ok out' ∧ out'.map RankedResult.scored = out.map RankedResult.scored

/-- The buckets in scope do not exceed the number of buckets of a search. -/
def WithinCap (e : QueryEngine) (query : SearchQuery) (policy : TenantSearchPolicy) (buckets : List (IdText × String)) : Prop :=
  (buckets.filter (e.bucketInScope query)).length ≤ policy.maxColdBucketsPerSearch

theorem withinCap_of_length {e : QueryEngine} {query : SearchQuery} {policy : TenantSearchPolicy}
    {buckets : List (IdText × String)} (h : buckets.length ≤ policy.maxColdBucketsPerSearch) :
    WithinCap e query policy buckets := (List.length_filter_le _ _).trans h

/-- **Neither the order nor the repetition of buckets matters.** -/
def SearchesOnce (e : QueryEngine) (E : SearchPlatform) (query : SearchQuery) (src : ColdShardSource)
    (policy : TenantSearchPolicy) : Prop :=
  ∀ buckets buckets', (∀ bucket, bucket ∈ buckets ↔ bucket ∈ buckets') → WithinCap e query policy buckets →
    WithinCap e query policy buckets' → SameResults e E query src policy buckets buckets'

/-- **Where a search reads two buckets, no bucket in scope has a row that matches.** -/
def NothingMatchesInScope (e : QueryEngine) (E : SearchPlatform) (query : SearchQuery) (src : ColdShardSource)
    (policy : TenantSearchPolicy) : Prop :=
  2 ≤ policy.maxColdBucketsPerSearch → E.accepts (trim query.queryString) = true →
    staysLocal query .includeCold policy = false → ∀ bucket, e.bucketInScope query bucket = true →
      hitsIn E query src policy bucket = []

/-- The rows that match in the buckets in scope agree, under one id, on the time of their message. -/
def Dated (e : QueryEngine) (E : SearchPlatform) (query : SearchQuery) (src : ColdShardSource) (policy : TenantSearchPolicy)
    (buckets : List (IdText × String)) : Prop :=
  ∀ hit ∈ (buckets.filter (e.bucketInScope query)).flatMap (hitsIn E query src policy),
    ∀ hit' ∈ (buckets.filter (e.bucketInScope query)).flatMap (hitsIn E query src policy),
      hit.messageId = hit'.messageId → hit.createdAtMs = hit'.createdAtMs

/-- **A bucket in scope with a row that matches is listed as often in both lists.** -/
def ListedAlike (e : QueryEngine) (E : SearchPlatform) (query : SearchQuery) (src : ColdShardSource)
    (policy : TenantSearchPolicy) (buckets buckets' : List (IdText × String)) : Prop :=
  ∀ bucket, e.bucketInScope query bucket = true → hitsIn E query src policy bucket ≠ [] →
    buckets.count bucket = buckets'.count bucket

namespace QueryEngine

variable {e : QueryEngine} {E : SearchPlatform} {query : SearchQuery} {scope : SearchScope} {src : ColdShardSource}
  {policy : TenantSearchPolicy} {cache : Option ShardCache} {limit : Nat} {found found' : List RankedResult}
  {hits hits' : List ColdHit} {buckets buckets' : List (IdText × String)}
  {order : List RankedResult → List RankedResult} {horder : ∀ results, (order results).Perm results}

/-! ## The same contributions -/

/-- The time of the first row under an id. -/
def firstTime (hits : List ColdHit) (id : IdText) : Option Int :=
  (hits.find? fun hit => decide (hit.messageId = id)).map ColdHit.createdAtMs

/-- **Contributions that add up to the same leave entries of the same standings.** -/
theorem standing_merged (hfound : found.map RankedResult.standing = found'.map RankedResult.standing)
    (hrank : ∀ id, rankOf hits id = rankOf hits' id) (htime : ∀ id, firstTime hits id = firstTime hits' id) (id : IdText) :
    ((hits.foldl mergeColdHit (localById found)).lookup id).map RankedResult.standing =
      ((hits'.foldl mergeColdHit (localById found')).lookup id).map RankedResult.standing := by
  have hstart := standing_localById hfound id
  rw [lookup_merged, lookup_merged, ← hrank id]
  cases hold : (localById found).lookup id with
  | some r =>
      rw [hold, Option.map_some, eq_comm, Option.map_eq_some_iff] at hstart
      obtain ⟨r', hold', hsame⟩ := hstart
      rw [hold']
      have hscore : r'.rankScore = r.rankScore := congrArg Standing.rankScore hsame
      have hcreated : r'.createdAtMs = r.createdAtMs := congrArg Standing.createdAtMs hsame
      have hmessage : r'.messageId = r.messageId := congrArg Standing.messageId hsame
      simp only [Option.map_some, RankedResult.standing, hscore, hcreated, hmessage]
  | none =>
      rw [hold, Option.map_none, eq_comm, Option.map_eq_none_iff] at hstart
      rw [hstart]
      -- a contribution alone is known by its id, the time of the first row and the sum
      have hstanding : ∀ hits : List ColdHit, ((hits.find? fun hit => decide (hit.messageId = id)).map fun hit =>
          RankedResult.standing { coldResult hit with rankScore := rankOf hits' id }) =
          (firstTime hits id).map fun createdAtMs => ⟨rankOf hits' id, createdAtMs, uuidOrNil id⟩ := by
        intro hits
        unfold firstTime
        cases hfirst : hits.find? fun hit => decide (hit.messageId = id) with
        | none => rfl
        | some hit =>
            have hid : hit.messageId = id := by simpa using List.find?_some hfirst
            simp [RankedResult.standing, coldResult, hid]
      rw [Option.map_map, Option.map_map, hrank id]
      exact (hstanding hits).trans ((congrArg _ (htime id)).trans (hstanding hits').symm)

/-- Contributions in another order. -/
theorem firstTime_perm (hperm : hits.Perm hits') (hdated : ∀ hit ∈ hits, ∀ hit' ∈ hits, hit.messageId = hit'.messageId →
    hit.createdAtMs = hit'.createdAtMs) (id : IdText) : firstTime hits id = firstTime hits' id := by
  unfold firstTime
  cases hfirst : hits.find? fun hit => decide (hit.messageId = id) with
  | none =>
      have hnone : hits'.find? (fun hit => decide (hit.messageId = id)) = none := by
        rw [List.find?_eq_none] at hfirst ⊢
        intro hit hhit
        exact hfirst hit (hperm.mem_iff.mpr hhit)
      rw [hnone]
  | some hit =>
      have hid : hit.messageId = id := by simpa using List.find?_some hfirst
      have hmem := List.mem_of_find?_eq_some hfirst
      cases hfirst' : hits'.find? fun hit => decide (hit.messageId = id) with
      | none => exact absurd hid (by simpa using List.find?_eq_none.mp hfirst' hit (hperm.mem_iff.mp hmem))
      | some hit' =>
          have hid' : hit'.messageId = id := by simpa using List.find?_some hfirst'
          have hmem' := hperm.mem_iff.mpr (List.mem_of_find?_eq_some hfirst')
          exact congrArg some (hdated hit hmem hit' hmem' (hid.trans hid'.symm))

/-! ## The searches over a list of buckets -/

/-- **The buckets of a list that a search reads**; none for one that stays local. -/
def listed (e : QueryEngine) (query : SearchQuery) (scope : SearchScope) (policy : TenantSearchPolicy)
    (buckets : List (IdText × String)) : List (IdText × String) :=
  if staysLocal query scope policy then [] else buckets.filter (e.bucketInScope query)

theorem bucketsToRead_listing :
    e.bucketsToRead query scope (src.listing buckets) policy = .ok (e.listed query scope policy buckets) := by
  unfold bucketsToRead listed
  split_ifs <;> rfl

theorem length_listed_le (hcap : WithinCap e query policy buckets) :
    (e.listed query scope policy buckets).length ≤ policy.maxColdBucketsPerSearch := by
  unfold listed
  split_ifs
  · exact Nat.zero_le _
  · exact hcap

/-- **What a search over a list of buckets returns.** -/
theorem full_listing (hagrees : Agrees src cache) (hcap : WithinCap e query policy buckets)
    (hfound : e.executeSearchWithLimit E query scope limit = .ok found) {out : List RankedResult} :
    (e.executeSearchWithColdSourceFull E query scope (src.listing buckets) policy cache limit).1 = .ok out ↔
      (∀ bucket ∈ e.listed query scope policy buckets, Readable E query src policy bucket) ∧
        out = e.mergeCold E found (e.listed query scope policy buckets)
          ((e.listed query scope policy buckets).flatMap (hitsIn E query src policy)) limit := by
  have hread : e.bucketsToRead query scope (src.listing buckets) policy = _ := bucketsToRead_listing
  have htake := List.take_of_length_le (@length_listed_le e query scope policy buckets hcap)
  have hreads : ∀ hits, e.coldReads E query scope (src.listing buckets) policy cache = .ok hits ↔
      (∀ bucket ∈ e.listed query scope policy buckets, Readable E query src policy bucket) ∧
        hits = (e.listed query scope policy buckets).flatMap (hitsIn E query src policy) := by
    intro hits
    unfold coldReads
    rw [hread]
    dsimp only
    rw [htake]
    exact (@Agrees.readBuckets E query (src.listing buckets) policy _ hagrees _).1 hits
  rw [full_eq_ok hfound]
  constructor
  · rintro ⟨read', hits, hread', hhits, rfl⟩
    obtain rfl := Except.ok.inj (hread.symm.trans hread')
    obtain ⟨hall, rfl⟩ := (hreads hits).mp hhits
    exact ⟨hall, rfl⟩
  · rintro ⟨hall, rfl⟩
    exact ⟨_, _, hread, (hreads _).mpr ⟨hall, rfl⟩, rfl⟩

theorem map_scored (results : List RankedResult) : results.map RankedResult.scored =
    (results.map RankedResult.standing).map fun s => (s.messageId, s.rankScore) := by
  rw [List.map_map]
  rfl

/-- The merge, where there is something to read in both lists or in none. -/
theorem map_standing_mergeCold (hfound : found.map RankedResult.standing = found'.map RankedResult.standing)
    (hempty : buckets.isEmpty = buckets'.isEmpty) (hrank : ∀ id, rankOf hits id = rankOf hits' id)
    (htime : ∀ id, firstTime hits id = firstTime hits' id) :
    ((e.reordered order horder).mergeCold E found' buckets' hits' limit).map RankedResult.standing =
      (e.mergeCold E found buckets hits limit).map RankedResult.standing := by
  unfold mergeCold
  rw [← hempty]
  split_ifs
  · exact hfound.symm
  · exact map_standing_rankMerged hfound (standing_merged hfound hrank htime)

/-- What a search that goes on in the archive has passed. -/
theorem of_goes (hgoes : staysLocal query scope policy = false)
    (hfound : e.executeSearchWithLimit E query scope limit = .ok found) :
    scope = .includeCold ∧ E.accepts (trim query.queryString) = true := by
  unfold staysLocal at hgoes
  simp only [Bool.or_eq_false_iff, decide_eq_false_iff_not, not_not] at hgoes
  obtain ⟨⟨⟨hscope, htext⟩, -⟩, -⟩ := hgoes
  exact ⟨hscope, ((executeSearchWithLimit_of_text htext).mp hfound).1⟩

/-- **Lists that have the same buckets, which contribute the same.** -/
theorem sameResults_of_hits (hcap : WithinCap e query policy buckets) (hcap' : WithinCap e query policy buckets')
    (hsame : ∀ bucket, bucket ∈ buckets ↔ bucket ∈ buckets')
    (hhits : staysLocal query .includeCold policy = false → E.accepts (trim query.queryString) = true →
      ∀ id, rankOf ((buckets.filter (e.bucketInScope query)).flatMap (hitsIn E query src policy)) id =
          rankOf ((buckets'.filter (e.bucketInScope query)).flatMap (hitsIn E query src policy)) id ∧
        firstTime ((buckets.filter (e.bucketInScope query)).flatMap (hitsIn E query src policy)) id =
          firstTime ((buckets'.filter (e.bucketInScope query)).flatMap (hitsIn E query src policy)) id) :
    SameResults e E query src policy buckets buckets' := by
  intro scope limit cache cache' order horder hagrees hagrees' out hout
  obtain ⟨found, hfound⟩ := local_of_full hout
  obtain ⟨found', hfound', hstanding⟩ : ∃ found', (e.reordered order horder).executeSearchWithLimit E query scope limit =
      .ok found' ∧ found'.map RankedResult.standing = found.map RankedResult.standing := limit_reordered hfound
  obtain ⟨hall, rfl⟩ := (full_listing hagrees hcap hfound).mp hout
  have hmem : ∀ bucket, bucket ∈ e.listed query scope policy buckets ↔ bucket ∈ e.listed query scope policy buckets' := by
    intro bucket
    unfold listed
    split_ifs
    · exact Iff.rfl
    · rw [List.mem_filter, List.mem_filter, hsame]
  have hcapReordered : WithinCap (e.reordered order horder) query policy buckets' := hcap'
  refine ⟨_, (full_listing hagrees' hcapReordered hfound').mpr ⟨fun bucket hbucket => hall bucket ((hmem bucket).mpr hbucket),
    rfl⟩, ?_⟩
  -- both lists have something to read, or neither
  have hempty : (e.listed query scope policy buckets).isEmpty = (e.listed query scope policy buckets').isEmpty := by
    rw [Bool.eq_iff_iff, List.isEmpty_iff, List.isEmpty_iff, List.eq_nil_iff_forall_not_mem, List.eq_nil_iff_forall_not_mem]
    exact forall_congr' fun bucket => not_congr (hmem bucket)
  -- and per message the same rank and time
  have hcontributes : ∀ id,
      rankOf ((e.listed query scope policy buckets).flatMap (hitsIn E query src policy)) id =
          rankOf ((e.listed query scope policy buckets').flatMap (hitsIn E query src policy)) id ∧
        firstTime ((e.listed query scope policy buckets).flatMap (hitsIn E query src policy)) id =
          firstTime ((e.listed query scope policy buckets').flatMap (hitsIn E query src policy)) id := by
    intro id
    unfold listed
    split_ifs with hlocal
    · exact ⟨rfl, rfl⟩
    · rw [Bool.not_eq_true] at hlocal
      obtain ⟨rfl, haccepts⟩ := of_goes hlocal hfound
      exact hhits hlocal haccepts id
  rw [map_scored, map_scored]
  apply congrArg (List.map fun s : Standing => (s.messageId, s.rankScore))
  exact map_standing_mergeCold hstanding.symm hempty (fun id => (hcontributes id).1) fun id => (hcontributes id).2

/-- A bucket in scope with a row that matches. -/
def contributes (e : QueryEngine) (E : SearchPlatform) (query : SearchQuery) (src : ColdShardSource)
    (policy : TenantSearchPolicy) (bucket : IdText × String) : Bool :=
  e.bucketInScope query bucket && !(hitsIn E query src policy bucket).isEmpty

theorem flatMap_hitsIn (buckets : List (IdText × String)) :
    (buckets.filter (e.bucketInScope query)).flatMap (hitsIn E query src policy) =
      (buckets.filter (e.contributes E query src policy)).flatMap (hitsIn E query src policy) := by
  induction buckets with
  | nil => rfl
  | cons bucket buckets ih =>
      rw [List.filter_cons, List.filter_cons]
      unfold contributes
      cases e.bucketInScope query bucket with
      | false => exact ih
      | true =>
          cases hhits : hitsIn E query src policy bucket with
          | nil =>
              rw [if_pos rfl, List.flatMap_cons, hhits]
              exact ih
          | cons hit hits =>
              rw [if_pos rfl, List.flatMap_cons, ih]
              rfl

/-- **Buckets in another order**, and those without a row that matches as often as one likes. -/
theorem perm_hitsIn (halike : ListedAlike e E query src policy buckets buckets') :
    ((buckets.filter (e.bucketInScope query)).flatMap (hitsIn E query src policy)).Perm
      ((buckets'.filter (e.bucketInScope query)).flatMap (hitsIn E query src policy)) := by
  rw [flatMap_hitsIn, flatMap_hitsIn]
  refine List.Perm.flatMap_right _ (List.perm_iff_count.mpr ?_)
  intro bucket
  by_cases hcontributes : e.contributes E query src policy bucket = true
  · rw [List.count_filter hcontributes, List.count_filter hcontributes]
    unfold contributes at hcontributes
    rw [Bool.and_eq_true, Bool.not_eq_true', List.isEmpty_eq_false_iff] at hcontributes
    exact halike bucket hcontributes.1 hcontributes.2
  · have hnone : ∀ buckets : List (IdText × String), (buckets.filter (e.contributes E query src policy)).count bucket = 0 := by
      intro buckets
      exact List.count_eq_zero_of_not_mem fun h => hcontributes (List.mem_filter.mp h).2
    rw [hnone, hnone]

/-- **Lists that list alike what contributes.** -/
theorem sameResults_of_listedAlike (hcap : WithinCap e query policy buckets) (hcap' : WithinCap e query policy buckets')
    (hsame : ∀ bucket, bucket ∈ buckets ↔ bucket ∈ buckets')
    (halike : staysLocal query .includeCold policy = false → E.accepts (trim query.queryString) = true →
      ListedAlike e E query src policy buckets buckets' ∧ Dated e E query src policy buckets) :
    SameResults e E query src policy buckets buckets' := by
  apply sameResults_of_hits hcap hcap' hsame
  intro hgoes haccepts id
  obtain ⟨hcounts, hdated⟩ := halike hgoes haccepts
  exact ⟨rankOf_perm (perm_hitsIn hcounts) id, firstTime_perm (perm_hitsIn hcounts) hdated id⟩

/-! ## A bucket listed twice -/

/-- Every contribution counts. -/
theorem rank_pos_of_mem_bucketHits {ftsRows : List FtsRow} {fuzzyRows : List FuzzyRow} {hit : ColdHit}
    (h : hit ∈ bucketHits E query ftsRows fuzzyRows) : 0 < hit.rank := by
  rw [bucketHits_eq] at h
  rcases List.mem_append.mp h with htext | hfuzzy
  · obtain ⟨row, -, hrow⟩ := List.mem_filterMap.mp htext
    unfold textRowHit at hrow
    dsimp only at hrow
    split_ifs at hrow with _ hmatched
    obtain rfl := Option.some.inj hrow
    have hpos : (0 : Rat) < ((lowercaseWordSet E (trim query.queryString)).filter fun w =>
        strContains (E.lowercase row.textContent) w).length := Nat.cast_pos.mpr (Nat.pos_of_ne_zero hmatched)
    exact mul_pos hpos (by decide)
  · unfold fuzzyBranch at hfuzzy
    dsimp only at hfuzzy
    split_ifs at hfuzzy
    · exact absurd hfuzzy List.not_mem_nil
    · obtain ⟨id, -, hid⟩ := List.mem_filterMap.mp hfuzzy
      unfold fuzzyRowsHit at hid
      obtain ⟨info, -, hid⟩ := Option.bind_eq_some_iff.mp hid
      split_ifs at hid
      obtain ⟨score, hscore, rfl⟩ := Option.map_eq_some_iff.mp hid
      exact mul_pos (overlapScore_pos hscore) (by decide)

theorem rank_pos_of_mem_hitsIn {bucket : IdText × String} {hit : ColdHit} (h : hit ∈ hitsIn E query src policy bucket) :
    0 < hit.rank := by
  unfold hitsIn readOf hitsOf at h
  rw [List.flatMap_singleton] at h
  split_ifs at h
  · exact absurd h (by simp)
  · cases htext : src.fetchTextRows bucket.1 bucket.2 with
    | error fault => simp [htext] at h
    | ok ftsRows =>
        cases hfuzzy : src.fetchFuzzyRows bucket.1 bucket.2 with
        | error fault => simp [htext, hfuzzy] at h
        | ok fuzzyRows =>
            simp only [htext, hfuzzy, Option.getD_some] at h
            exact rank_pos_of_mem_bucketHits h

/-- A bucket with a row that matches can be read. -/
theorem readable_of_hitsIn {bucket : IdText × String} (h : hitsIn E query src policy bucket ≠ []) :
    Readable E query src policy bucket := by
  unfold Readable
  unfold hitsIn at h
  cases hread : readOf E query src policy bucket with
  | ok read => exact ⟨read, rfl⟩
  | error fault =>
      rw [hread] at h
      exact absurd rfl h

theorem rankOf_nonneg (hpos : ∀ hit ∈ hits, 0 < hit.rank) (id : IdText) : 0 ≤ rankOf hits id := by
  unfold rankOf
  apply List.sum_nonneg
  intro rank hrank
  obtain ⟨hit, hhit, rfl⟩ := List.mem_map.mp hrank
  exact (hpos hit (List.mem_filter.mp hhit).1).le

theorem rankOf_pos (hpos : ∀ hit ∈ hits, 0 < hit.rank) {hit : ColdHit} (hhit : hit ∈ hits) :
    0 < rankOf hits hit.messageId := by
  have hmem : hit ∈ hits.filter fun h => decide (h.messageId = hit.messageId) :=
    List.mem_filter.mpr ⟨hhit, decide_eq_true rfl⟩
  refine (hpos hit hhit).trans_le (List.single_le_sum ?_ _ (List.mem_map_of_mem hmem))
  intro rank hrank
  obtain ⟨hit', hhit', rfl⟩ := List.mem_map.mp hrank
  exact (hpos hit' (List.mem_filter.mp hhit').1).le

/-- The score of an entry of the merge, weighed. -/
def coldScore (E : SearchPlatform) (localIds : List IdText) (nowMs : Int) (r : RankedResult) : Rat :=
  (weighCold E localIds nowMs r.standing).rankScore

/-- **A greater score stays greater**, weighed. -/
theorem coldScore_lt (hrecency : ∀ ageMs, 0 ≤ ageMs → 0 ≤ E.recencyScore ageMs) (localIds : List IdText) (nowMs : Int)
    {r : RankedResult} {score score' : Rat} (h : score < score') :
    coldScore E localIds nowMs { r with rankScore := score } < coldScore E localIds nowMs { r with rankScore := score' } := by
  have hfactor : 0 < recencyFactor E (nowMs - r.createdAtMs) * textKindWeight := by
    have hscore := hrecency (max (nowMs - r.createdAtMs) 0) (le_max_right _ _)
    unfold recencyFactor recencyWeight textKindWeight
    linarith
  show (weighCold E localIds nowMs ⟨score, r.createdAtMs, r.messageId⟩).rankScore <
    (weighCold E localIds nowMs ⟨score', r.createdAtMs, r.messageId⟩).rankScore
  unfold weighCold
  dsimp only
  split_ifs
  · exact h
  · exact mul_lt_mul_of_pos_right h hfactor

/-- The scores that a merge returns add up to those of its entries, with enough room. -/
theorem sum_rankMerged {byId : AList fun _ : IdText => RankedResult} (hroom : (values byId).length ≤ limit) :
    ((e.rankMerged E found byId limit).map fun r => r.rankScore).sum =
      ((values byId).map (coldScore E (localById found).keys (newest ((values byId).map fun r => r.createdAtMs)))).sum := by
  have hlength : (applyColdRecencyWeight E (localById found).keys (e.intoValues (values byId))).length ≤ limit := by
    unfold applyColdRecencyWeight
    rwa [List.length_map, length_intoValues]
  have hvalues := e.intoValues_perm (values byId)
  have hweighed := congrArg (List.map Standing.rankScore)
    (@map_standing_applyCold E (e.intoValues (values byId)) (localById found).keys)
  rw [List.map_map, List.map_map, List.map_map, newest_perm (hvalues.map _)] at hweighed
  unfold rankMerged
  rw [((top_perm hlength).map _).sum_eq]
  exact (congrArg List.sum hweighed).trans (hvalues.map _).sum_eq

/-- **What a bucket contributes twice adds up to more.** -/
theorem sum_rankMerged_lt (hrecency : ∀ ageMs, 0 ≤ ageMs → 0 ≤ E.recencyScore ageMs) (hne : hits ≠ [])
    (hpos : ∀ hit ∈ hits, 0 < hit.rank) (hroom : found.length + (hits ++ hits).length ≤ limit) :
    ((e.rankMerged E found (hits.foldl mergeColdHit (localById found)) limit).map fun r => r.rankScore).sum <
      ((e.rankMerged E found ((hits ++ hits).foldl mergeColdHit (localById found)) limit).map fun r => r.rankScore).sum := by
  have hshort : found.length + hits.length ≤ limit := by
    rw [List.length_append] at hroom
    omega
  rw [sum_rankMerged (length_merged_le.trans hshort), sum_rankMerged (length_merged_le.trans hroom)]
  -- the entries are the same, up to their scores
  have hentry : ∀ id, ((hits.foldl mergeColdHit (localById found)).lookup id = none ∧
      ((hits ++ hits).foldl mergeColdHit (localById found)).lookup id = none) ∨
      ∃ r : RankedResult, ∃ score, (hits.foldl mergeColdHit (localById found)).lookup id =
          some { r with rankScore := score + rankOf hits id } ∧
        ((hits ++ hits).foldl mergeColdHit (localById found)).lookup id =
          some { r with rankScore := score + (rankOf hits id + rankOf hits id) } := by
    intro id
    rw [lookup_merged, lookup_merged, rankOf_append, List.find?_append, Option.or_self]
    cases (localById found).lookup id with
    | some r => exact .inr ⟨r, r.rankScore, rfl, rfl⟩
    | none =>
        cases hits.find? fun hit => decide (hit.messageId = id) with
        | none => exact .inl ⟨rfl, rfl⟩
        | some hit =>
            refine .inr ⟨coldResult hit, 0, ?_, ?_⟩
            all_goals
              rw [zero_add]
              rfl
  have hnewest : newest ((values ((hits ++ hits).foldl mergeColdHit (localById found))).map fun r => r.createdAtMs) =
      newest ((values (hits.foldl mergeColdHit (localById found))).map fun r => r.createdAtMs) := by
    refine newest_perm (perm_map_values fun id => ?_)
    rcases hentry id with ⟨hnone, hnone'⟩ | ⟨r, score, hsome, hsome'⟩
    · rw [hnone, hnone']
    · rw [hsome, hsome']
      rfl
  rw [hnewest]
  apply sum_values_lt
  · intro id
    rcases hentry id with hnone | ⟨r, score, hsome, hsome'⟩
    · exact .inl hnone
    · refine .inr ⟨_, _, hsome, hsome', ?_⟩
      rcases (rankOf_nonneg hpos id).eq_or_lt with hzero | hlt
      · rw [← hzero, add_zero, add_zero, add_zero]
      · exact (coldScore_lt hrecency _ _ (by linarith)).le
  · obtain ⟨hit, hhit⟩ := List.exists_mem_of_ne_nil _ hne
    have hrank := rankOf_pos hpos hhit
    rcases hentry hit.messageId with ⟨hnone, -⟩ | ⟨r, score, hsome, hsome'⟩
    · rw [lookup_merged] at hnone
      cases hlocal : (localById found).lookup hit.messageId with
      | some r => exact absurd hnone (by simp [hlocal])
      | none =>
          rw [hlocal, Option.map_eq_none_iff] at hnone
          exact absurd (List.find?_eq_none.mp hnone hit hhit) (by simp)
    · exact ⟨_, _, _, hsome, hsome', coldScore_lt hrecency _ _ (by linarith)⟩

/-- **A bucket with a row that matches, listed twice, gives other scores.** -/
theorem not_sameResults_twice (hrecency : ∀ ageMs, 0 ≤ ageMs → 0 ≤ E.recencyScore ageMs)
    (haccepts : E.accepts (trim query.queryString) = true) (hgoes : staysLocal query .includeCold policy = false)
    (hcap : 2 ≤ policy.maxColdBucketsPerSearch) {bucket : IdText × String} (hscope : e.bucketInScope query bucket = true)
    (hne : hitsIn E query src policy bucket ≠ []) : ¬ SameResults e E query src policy [bucket] [bucket, bucket] := by
  intro hsame
  have hlisted : e.listed query .includeCold policy [bucket] = [bucket] := by
    simp [listed, hgoes, hscope]
  have hlisted' : e.listed query .includeCold policy [bucket, bucket] = [bucket, bucket] := by
    simp [listed, hgoes, hscope]
  have hwithin : WithinCap e query policy [bucket] := by
    simp only [WithinCap, List.filter_cons_of_pos hscope, List.filter_nil, List.length_singleton]
    omega
  have hwithin' : WithinCap e query policy [bucket, bucket] := by
    simp only [WithinCap, List.filter_cons_of_pos hscope, List.filter_nil, List.length_cons, List.length_nil]
    omega
  generalize hhits : hitsIn E query src policy bucket = hits at hne
  obtain ⟨found, hfound⟩ : ∃ found, e.executeSearchWithLimit E query .includeCold
      (selectedCount e E (trim query.queryString) + (hits ++ hits).length) = .ok found := executeSearchWithLimit_isOk haccepts
  have hblank : (trim query.queryString).isEmpty = false := by
    unfold staysLocal at hgoes
    simp only [Bool.or_eq_false_iff] at hgoes
    exact hgoes.1.1.2
  have hroom : found.length + (hits ++ hits).length ≤ selectedCount e E (trim query.queryString) + (hits ++ hits).length :=
    Nat.add_le_add_right (length_found_le hblank hfound) _
  have hreadable : Readable E query src policy bucket := readable_of_hitsIn (by rwa [hhits])
  -- listed once, the bucket contributes its hits; listed twice, it contributes them twice
  have honce := (@full_listing e E query _ src policy none _ found _ agrees_none hwithin hfound
    (e.mergeCold E found [bucket] hits _)).mpr
    ⟨fun b hb => by
      rw [hlisted, List.mem_singleton] at hb
      exact hb ▸ hreadable, by rw [hlisted, List.flatMap_singleton, hhits]⟩
  obtain ⟨out', htwice, hscored⟩ := hsame _ _ none none e.intoValues e.intoValues_perm agrees_none agrees_none _ honce
  obtain ⟨-, rfl⟩ := (@full_listing e E query _ src policy none _ found _ agrees_none hwithin' hfound _).mp htwice
  rw [hlisted', List.flatMap_cons, List.flatMap_singleton, hhits] at hscored
  -- so the sums of the scores differ
  have hscores := congrArg (fun scored : List (Uuid × Rat) => (scored.map Prod.snd).sum) hscored
  simp only [List.map_map] at hscores
  have hpos : ∀ hit ∈ hits, 0 < hit.rank := by
    intro hit hhit
    rw [← hhits] at hhit
    exact rank_pos_of_mem_hitsIn hhit
  exact absurd hscores.symm (ne_of_lt (sum_rankMerged_lt hrecency hne hpos hroom))

end QueryEngine

/-- Lists of at most one element with the same members are equal. -/
theorem eq_of_mem_iff {α : Type} {l l' : List α} (hl : l.length ≤ 1) (hl' : l'.length ≤ 1) (hmem : ∀ a, a ∈ l ↔ a ∈ l') :
    l = l' := by
  cases l with
  | nil => exact (List.eq_nil_iff_forall_not_mem.mpr fun a ha => List.not_mem_nil ((hmem a).mpr ha)).symm
  | cons a rest =>
    obtain rfl : rest = [] := List.length_eq_zero_iff.mp (Nat.le_zero.mp (Nat.le_of_succ_le_succ hl))
    obtain ⟨b, rfl⟩ := List.length_eq_one_iff.mp
      (Nat.le_antisymm hl' (List.length_pos_of_mem ((hmem a).mp List.mem_cons_self)))
    rw [List.mem_singleton.mp ((hmem a).mp List.mem_cons_self)]

/-- **Order and repetition do not matter exactly where no bucket in scope has a row that matches**, if two buckets may be
read at all. Lists that list alike what contributes give the same results. -/
theorem searchesOnce_iff (e : QueryEngine) {E : SearchPlatform} (hrecency : ∀ ageMs, 0 ≤ ageMs → 0 ≤ E.recencyScore ageMs)
    (query : SearchQuery) (src : ColdShardSource) (policy : TenantSearchPolicy) :
    (SearchesOnce e E query src policy ↔ NothingMatchesInScope e E query src policy) ∧
      ∀ buckets buckets', (∀ bucket, bucket ∈ buckets ↔ bucket ∈ buckets') → WithinCap e query policy buckets →
        WithinCap e query policy buckets' →
        (staysLocal query .includeCold policy = false → E.accepts (trim query.queryString) = true →
          ListedAlike e E query src policy buckets buckets' ∧ Dated e E query src policy buckets) →
        SameResults e E query src policy buckets buckets' := by
  refine ⟨⟨?_, ?_⟩, ?_⟩
  · intro honce hcap haccepts hgoes bucket hscope
    by_contra hne
    have hone : [bucket].length ≤ policy.maxColdBucketsPerSearch := (Nat.le_succ 1).trans hcap
    exact QueryEngine.not_sameResults_twice hrecency haccepts hgoes hcap hscope hne
      (honce [bucket] [bucket, bucket] (by simp) (withinCap_of_length hone) (withinCap_of_length hcap))
  · intro hnothing buckets buckets' hsame hcap hcap'
    by_cases htwo : 2 ≤ policy.maxColdBucketsPerSearch
    · -- nothing is read that matches
      refine QueryEngine.sameResults_of_listedAlike hcap hcap' hsame fun hgoes haccepts => ⟨?_, ?_⟩
      · intro bucket hscope hne
        exact absurd (hnothing htwo haccepts hgoes bucket hscope) hne
      · intro hit hhit
        obtain ⟨bucket, hbucket, hhit⟩ := List.mem_flatMap.mp hhit
        rw [hnothing htwo haccepts hgoes bucket (List.mem_filter.mp hbucket).2] at hhit
        exact absurd hhit List.not_mem_nil
    · -- at most one bucket is read
      have hequal : buckets.filter (e.bucketInScope query) = buckets'.filter (e.bucketInScope query) := by
        have hmem : ∀ bucket, bucket ∈ buckets.filter (e.bucketInScope query) ↔
            bucket ∈ buckets'.filter (e.bucketInScope query) := by
          intro bucket
          rw [List.mem_filter, List.mem_filter, hsame]
        unfold WithinCap at hcap hcap'
        generalize buckets.filter (e.bucketInScope query) = l at hcap hmem ⊢
        generalize buckets'.filter (e.bucketInScope query) = l' at hcap' hmem ⊢
        exact eq_of_mem_iff (Nat.le_of_lt_succ (hcap.trans_lt (Nat.lt_of_not_le htwo)))
          (Nat.le_of_lt_succ (hcap'.trans_lt (Nat.lt_of_not_le htwo))) hmem
      refine QueryEngine.sameResults_of_hits hcap hcap' hsame fun _ _ id => ?_
      rw [hequal]
      exact ⟨rfl, rfl⟩
  · intro buckets buckets' hsame hcap hcap' halike
    exact QueryEngine.sameResults_of_listedAlike hcap hcap' hsame halike

/-! A bucket with one row that says "meet". -/

/-- The source. -/
def meetSource : ColdShardSource :=
  ⟨.ok [], fun _ _ => .ok [⟨Uuid.toText ⟨1⟩, ⟨2⟩, "bob", 0, "meet"⟩], fun _ _ => .ok [], fun _ _ => .ok none⟩

/-- The bucket. -/
def meetBucket : IdText × String := (Uuid.toText ⟨2⟩, "2026-01")

theorem searchesOnce_iff_meet :
    (SearchesOnce (.plain (.fresh Message.oneConversation)) .plain meetQuery meetSource .default ↔
      NothingMatchesInScope (.plain (.fresh Message.oneConversation)) .plain meetQuery meetSource .default) ∧
      SameResults (.plain (.fresh Message.oneConversation)) .plain meetQuery meetSource .default
        [meetBucket, (Uuid.toText ⟨3⟩, "2026-01")] [(Uuid.toText ⟨3⟩, "2026-01"), meetBucket] := by
  have hrecency : ∀ ageMs, 0 ≤ ageMs → 0 ≤ SearchPlatform.plain.recencyScore ageMs := by
    intro ageMs _
    show (0 : Rat) ≤ 1
    decide
  obtain ⟨honce, hsame⟩ :=
    searchesOnce_iff (.plain (.fresh Message.oneConversation)) hrecency meetQuery meetSource .default
  refine ⟨honce, hsame _ _ ?_ (withinCap_of_length (by decide)) (withinCap_of_length (by decide)) fun _ _ => ⟨?_, ?_⟩⟩
  · intro bucket
    exact (List.Perm.swap _ _ []).mem_iff
  · intro bucket _ _
    exact (List.Perm.swap _ _ []).count_eq bucket
  · unfold Dated
    decide +kernel

/-- **A bucket listed twice counts twice.** -/
theorem bucket_listed_twice_counts_twice :
    ¬ SearchesOnce (.plain (.fresh Message.oneConversation)) .plain meetQuery meetSource .default := by
  intro honce
  have hrecency : ∀ ageMs, 0 ≤ ageMs → 0 ≤ SearchPlatform.plain.recencyScore ageMs := by
    intro ageMs _
    show (0 : Rat) ≤ 1
    decide
  exact QueryEngine.not_sameResults_twice hrecency (by decide +kernel) (by decide +kernel) (by decide) (by decide +kernel)
    (by decide +kernel) (honce [meetBucket] [meetBucket, meetBucket] (by simp) (withinCap_of_length (by decide))
      (withinCap_of_length (by decide)))

end KChatCore.Search
