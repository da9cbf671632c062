import KChatCore.Search.ColdLane
import KChatCore.Search.FuzzyAgreement

/-!
# `Search.BucketReads` — what a bucket contributes, without the cache

Through a cache that agrees with the source, each cold search reads of a bucket what the source returns for it (`readOf`),
whatever was read before. What is merged under an id is then the sum of what the rows under it contribute (`rankOf`),
named by the first of them.
-/

namespace KChatCore.Search

open Lib LocalStore

/-- **What is read of a bucket**, by what the source returns. -/
def readOf (E : SearchPlatform) (query : SearchQuery) (src : ColdShardSource) (policy : TenantSearchPolicy)
    (bucket : IdText × String) : BucketRead :=
  if bloomRejects E query policy (bloomOf src bucket.1 bucket.2) then .ok none
  else
    match src.fetchTextRows bucket.1 bucket.2 with
    | .error e => .error e
    | .ok ftsRows =>
        match src.fetchFuzzyRows bucket.1 bucket.2 with
        | .error e => .error e
        | .ok fuzzyRows => .ok (some (bucketHits E query ftsRows fuzzyRows))

/-- The contributions of a bucket; none where it cannot be read. -/
def hitsIn (E : SearchPlatform) (query : SearchQuery) (src : ColdShardSource) (policy : TenantSearchPolicy)
    (bucket : IdText × String) : List ColdHit := hitsOf [readOf E query src policy bucket]

/-- A bucket that can be read. -/
def Readable (E : SearchPlatform) (query : SearchQuery) (src : ColdShardSource) (policy : TenantSearchPolicy)
    (bucket : IdText × String) : Prop := ∃ read, readOf E query src policy bucket = .ok read

section Reads

variable {E : SearchPlatform} {query : SearchQuery} {src : ColdShardSource} {policy : TenantSearchPolicy}
  {cache : Option ShardCache}

theorem hitsOf_map (buckets : List (IdText × String)) :
    hitsOf (buckets.map (readOf E query src policy)) = buckets.flatMap (hitsIn E query src policy) := by
  unfold hitsIn hitsOf
  rw [List.flatMap_map]
  simp only [List.flatMap_singleton]

/-- **One bucket.** -/
theorem Agrees.readBucket (h : Agrees src cache) (bucket : IdText × String) :
    (readBucket E query src policy cache bucket).1 = readOf E query src policy bucket ∧
      Agrees src (readBucket E query src policy cache bucket).2 := by
  obtain ⟨hbloom, hagrees⟩ := h.fetchBloom bucket.1 bucket.2
  unfold Search.readBucket readOf
  rcases hresult : coldSourceFetchBloomWithCache src cache bucket.1 bucket.2 with ⟨bloom, cache₁⟩
  rw [hresult] at hbloom hagrees
  dsimp only at hbloom hagrees ⊢
  rw [← hbloom]
  split_ifs
  · exact ⟨rfl, hagrees⟩
  · obtain ⟨htext, hagrees⟩ := hagrees.fetchText bucket.1 bucket.2
    rcases hresult : coldSourceFetchTextWithCache src cache₁ bucket.1 bucket.2 with ⟨text, cache₂⟩
    rw [hresult] at htext hagrees
    dsimp only at htext hagrees
    rw [← htext]
    cases text with
    | error fault => exact ⟨rfl, hagrees⟩
    | ok ftsRows =>
        obtain ⟨hfuzzy, hagrees⟩ := hagrees.fetchFuzzy bucket.1 bucket.2
        dsimp only
        rcases hresult : coldSourceFetchFuzzyWithCache src cache₂ bucket.1 bucket.2 with ⟨fuzzy, cache₃⟩
        rw [hresult] at hfuzzy hagrees
        dsimp only at hfuzzy hagrees
        rw [← hfuzzy]
        cases fuzzy with
        | error fault => exact ⟨rfl, hagrees⟩
        | ok fuzzyRows => exact ⟨rfl, hagrees⟩

/-- **All buckets**, whatever each of them gives. -/
theorem Agrees.visitBuckets (h : Agrees src cache) (buckets : List (IdText × String)) :
    (visitBuckets E query src policy cache buckets).1 = buckets.map (readOf E query src policy) ∧
      Agrees src (visitBuckets E query src policy cache buckets).2 := by
  induction buckets generalizing cache with
  | nil => exact ⟨rfl, h⟩
  | cons bucket buckets ih =>
      obtain ⟨hread, hagrees⟩ := @Agrees.readBucket E query src policy _ h bucket
      unfold Search.visitBuckets
      rcases hresult : Search.readBucket E query src policy cache bucket with ⟨read, cache'⟩
      rw [hresult] at hread hagrees
      obtain ⟨hreads, hend⟩ := ih hagrees
      dsimp only at hread ⊢
      rw [List.map_cons, hread, hreads]
      exact ⟨rfl, hend⟩

/-- **All buckets**, where each of them can be read. -/
theorem Agrees.readBuckets (h : Agrees src cache) (buckets : List (IdText × String)) :
    (∀ hits, (readBuckets E query src policy cache buckets).1 = .ok hits ↔
      (∀ bucket ∈ buckets, Readable E query src policy bucket) ∧ hits = buckets.flatMap (hitsIn E query src policy)) ∧
      Agrees src (readBuckets E query src policy cache buckets).2 := by
  induction buckets generalizing cache with
  | nil =>
      refine ⟨?_, h⟩
      intro hits
      simp [Search.readBuckets, eq_comm]
  | cons bucket buckets ih =>
      -- a cache that agrees with the source answers as the source would, and still agrees afterwards
      obtain ⟨hread, hagrees⟩ := @Agrees.readBucket E query src policy _ h bucket
      unfold Search.readBuckets
      rcases hresult : Search.readBucket E query src policy cache bucket with ⟨read, cache'⟩
      rw [hresult] at hread hagrees
      dsimp only at hread hagrees
      cases read with
      | error fault =>
          refine ⟨?_, hagrees⟩
          intro hits
          constructor
          · intro hok
            exact absurd hok (by simp)
          · rintro ⟨hall, -⟩
            obtain ⟨read, hok⟩ := hall bucket List.mem_cons_self
            exact absurd (hread.trans hok) (by simp)
      | ok read =>
          have hhits : hitsIn E query src policy bucket = read.getD [] := by
            unfold hitsIn
            rw [← hread, hitsOf, List.flatMap_singleton]
          have hreadable : Readable E query src policy bucket := ⟨read, hread.symm⟩
          obtain ⟨hrest, hend⟩ := ih hagrees
          dsimp only
          rcases hresult' : Search.readBuckets E query src policy cache' buckets with ⟨rest, cache''⟩
          rw [hresult'] at hrest hend
          dsimp only at hrest hend
          rw [List.flatMap_cons, hhits, List.forall_mem_cons]
          cases rest with
          | error fault =>
              refine ⟨?_, hend⟩
              intro hits
              constructor
              · intro hok
                exact absurd hok (by simp)
              · rintro ⟨⟨-, hall⟩, -⟩
                exact absurd ((hrest _).mpr ⟨hall, rfl⟩) (by simp)
          | ok rest =>
              obtain ⟨hall, rfl⟩ := (hrest rest).mp rfl
              refine ⟨?_, hend⟩
              intro hits
              rw [Except.ok.injEq, eq_comm, and_iff_right ⟨hreadable, hall⟩]

/-- What is fetched ahead contributes the same. -/
theorem prefetchHits_prefetchOf (bucket : IdText × String) :
    prefetchHits E query policy (prefetchOf E query src policy bucket) = hitsIn E query src policy bucket := by
  unfold prefetchHits hitsIn readOf prefetchOf
  dsimp only
  by_cases hrejects : bloomRejects E query policy (bloomOf src bucket.1 bucket.2) = true
  · simp only [if_pos hrejects]
    rfl
  · simp only [if_neg hrejects]
    cases src.fetchTextRows bucket.1 bucket.2 with
    | error fault => rfl
    | ok ftsRows =>
        cases src.fetchFuzzyRows bucket.1 bucket.2 with
        | error fault => rfl
        | ok fuzzyRows =>
            rw [hitsOf, List.flatMap_singleton]
            rfl

end Reads

/-! ## What is merged under an id -/

/-- **What the rows under an id contribute.** -/
def rankOf (hits : List ColdHit) (id : IdText) : Rat :=
  ((hits.filter fun hit => decide (hit.messageId = id)).map ColdHit.rank).sum

theorem rankOf_append (hits more : List ColdHit) (id : IdText) : rankOf (hits ++ more) id = rankOf hits id + rankOf more id := by
  unfold rankOf
  rw [List.filter_append, List.map_append, List.sum_append]

theorem rankOf_perm {hits hits' : List ColdHit} (h : hits.Perm hits') (id : IdText) : rankOf hits id = rankOf hits' id :=
  ((h.filter _).map _).sum_eq

/-- **The entry under an id**, after the merge: the one that was there, or the first contribution, with all of them. -/
theorem lookup_merged (hits : List ColdHit) (byId : AList fun _ : IdText => RankedResult) (id : IdText) :
    (hits.foldl mergeColdHit byId).lookup id =
      match byId.lookup id with
      | some r => some { r with rankScore := r.rankScore + rankOf hits id }
      | none => (hits.find? fun hit => decide (hit.messageId = id)).map fun hit =>
          { coldResult hit with rankScore := rankOf hits id } := by
  induction hits generalizing byId with
  | nil => cases h : byId.lookup id <;> simp [rankOf, h]
  | cons hit hits ih =>
      rw [List.foldl_cons, ih]
      by_cases hid : hit.messageId = id
      · subst hid
        have hrank : rankOf (hit :: hits) hit.messageId = hit.rank + rankOf hits hit.messageId := by simp [rankOf]
        cases hold : byId.lookup hit.messageId with
        | some r =>
            have hentry : (mergeColdHit byId hit).lookup hit.messageId = some (addRank r hit) := by
              unfold mergeColdHit
              rw [lookup_mergeHit_self, hold]
            rw [hentry, hrank]
            dsimp only
            rw [addRank, add_assoc]
        | none =>
            have hentry : (mergeColdHit byId hit).lookup hit.messageId = some (coldResult hit) := by
              unfold mergeColdHit
              rw [lookup_mergeHit_self, hold]
            rw [hentry, hrank]
            simp [coldResult]
      · have hentry : (mergeColdHit byId hit).lookup id = byId.lookup id := lookup_mergeHit_of_ne hid
        have hrank : rankOf (hit :: hits) id = rankOf hits id := by simp [rankOf, hid]
        rw [hentry, hrank, List.find?_cons_of_neg (by simpa using hid)]

end KChatCore.Search
