import KChatCore.Search.Completeness
import KChatCore.Search.IndexedRows
import KChatCore.Search.ShardRows

/-!
# `Search.TargetConfinement` — a search stays in its target

A query with a target is about the conversations that the target resolves to. The local lanes filter by them, and select
nothing where the lookup fails. The cold searches filter the buckets: a bucket is read where its conversation is in the set
that the lookup after the local pass gives, and where that lookup fails the target restricts no bucket. The rows of a
shard are taken under the conversation they carry.

* `Within` — a result of a message that is in the target; `FromShard` — a result of a row of a bucket that is read.
* `searches_confined` — every result is one or the other, and of the target where the lookup does not fail and the rows
  carry the conversation of their bucket.
-/

namespace KChatCore.Search

open Lib LocalStore

/-- **A conversation the query is about**: that of its filter, and one of those its target resolves to, at one of the
lookups of the search. -/
structure InTarget (e : QueryEngine) (pass : LookupPass) (resolver : ConversationGroupResolver) (query : SearchQuery)
    (conversationId : Uuid) : Prop where
  filter : ∀ conv, query.conversationFilter = some conv → conv = conversationId
  target : ∃ set, e.resolveTargetToConversationSetWithResolver pass resolver query.effectiveTarget = .ok (some set) ∧
    ∃ id ∈ set, Uuid.parseStr id = some conversationId

/-- **A result of a message in the target.** -/
def Within (e : QueryEngine) (pass : LookupPass) (resolver : ConversationGroupResolver) (query : SearchQuery)
    (r : RankedResult) : Prop :=
  ∃ skel, e.db.skeletons.find? skel.messageId = some skel ∧ r.named = named skel ∧
    InTarget e pass resolver query skel.conversationId

/-- **A result of the archive**: of a row of a shard, in a bucket of the filter and of the set that the later lookup
gives. -/
def FromShard (e : QueryEngine) (query : SearchQuery) (src : ColdShardSource) (cache : Option ShardCache)
    (r : RankedResult) : Prop :=
  ∃ (bucket : IdText × String) (row : FtsRow), (∀ conv, query.conversationFilter = some conv → conv.toText = bucket.1) ∧
    (∀ set, e.resolveTargetToConversationSet .later query.effectiveTarget = .ok (some set) → bucket.1 ∈ set) ∧
    OfShard src cache bucket.1 bucket.2 row ∧ r.named = (ColdHit.ofRow row 0).named

/-- A result of one of the three cold searches. -/
inductive ColdResult (e : QueryEngine) (E : SearchPlatform) (query : SearchQuery) (src : ColdShardSource)
    (cache : Option ShardCache) (r : RankedResult) : Prop
  | full {scope : SearchScope} {policy : TenantSearchPolicy} {limit : Nat} {out : List RankedResult}
      (hout : (e.executeSearchWithColdSourceFull E query scope src policy cache limit).1 = .ok out) (hr : r ∈ out)
  | parallel {scope : SearchScope} {policy : TenantSearchPolicy} {limit concurrency : Nat} {schedule : List Nat}
      {out : List RankedResult} (hout : (e.executeSearchWithColdSourceFullParallel E query scope src policy cache limit
        concurrency schedule).1 = .ok out) (hr : r ∈ out)
  | streaming {scope : SearchScope} {policy : TenantSearchPolicy} {limit : Nat}
      (hr : r ∈ QueryEngine.streamedResults (e.executeSearchStreaming E query scope src policy cache limit))

theorem Within.of_named {e : QueryEngine} {pass : LookupPass} {resolver : ConversationGroupResolver} {query : SearchQuery}
    {r r' : RankedResult} (h : Within e pass resolver query r') (hn : r'.named = r.named) : Within e pass resolver query r := by
  obtain ⟨skel, hskel, hname, hin⟩ := h
  exact ⟨skel, hskel, hn.symm.trans hname, hin⟩

/-- Every text row carries the conversation of its bucket. -/
def Labelled (src : ColdShardSource) (cache : Option ShardCache) : Prop :=
  RowsHold (fun conv _ row => row.conversationId.toText = conv) src cache

namespace QueryEngine

variable {e : QueryEngine} {E : SearchPlatform} {query : SearchQuery} {pass : LookupPass} {scope : SearchScope}
  {limit : Nat} {out : List RankedResult} {r : RankedResult} {resolver : ConversationGroupResolver} {src : ColdShardSource}
  {cache : Option ShardCache}

/-! ## What a target resolves to -/

/-- **Only the global target resolves to no set.** -/
theorem eq_global_of_resolve {target : SearchTarget}
    (h : e.resolveTargetToConversationSetWithResolver pass resolver target = .ok none) : target = .global := by
  have hset : ∀ column value context, e.conversationSet pass column value context ≠ .ok none := by
    intro column value context
    unfold conversationSet
    cases e.readListConversationsByColumn pass column value with
    | error fault => simp
    | ok convs => simp
  have hresolver : ∀ result : Except Error (List IdText), (result.mapError SearchError.source).map some ≠ .ok none := by
    intro result
    cases result with
    | error fault => simp [Except.mapError, Except.map]
    | ok set => simp [Except.mapError, Except.map]
  cases target with
  | global => rfl
  | conversation c => exact absurd h (by simp [resolveTargetToConversationSetWithResolver])
  | conversationGroup group => exact absurd h (by simp [resolveTargetToConversationSetWithResolver])
  | channel channelId => exact absurd h (hresolver _)
  | community community => exact absurd h (hset _ _ _)
  | domain domain => exact absurd h (hset _ _ _)
  | tenant tenant => exact absurd h (hset _ _ _)
  | b2cAll => exact absurd h (hset _ _ _)
  | starred => exact absurd h (hresolver _)
  | unread => exact absurd h (hresolver _)

theorem effectiveTarget_of_ne (h : query.target ≠ .global) : query.effectiveTarget = query.target := if_neg h

/-- A query with a target has a clause for it. -/
theorem clauses_ne_nil (htarget : query.effectiveTarget ≠ .global) : e.clauses pass query ≠ [] := by
  intro hnil
  obtain ⟨-, hnone⟩ := List.append_eq_nil_iff.mp hnil
  unfold targetFilter at hnone
  rw [if_neg htarget] at hnone
  cases hresolved : e.resolveTargetToConversationSet pass query.effectiveTarget with
  | error fault =>
      rw [hresolved] at hnone
      exact absurd hnone (by simp)
  | ok set =>
      cases set with
      | none => exact htarget (eq_global_of_resolve hresolved)
      | some set =>
          rw [hresolved] at hnone
          dsimp only at hnone
          split_ifs at hnone

/-- **What the clauses admit is in the target.** -/
theorem inTarget_of_admits (htarget : query.effectiveTarget ≠ .global) {skel : MessageSkeleton}
    (h : e.admits pass query skel = true) :
    InTarget e pass noopConversationGroupResolver query skel.conversationId := by
  have hall : ∀ clause ∈ e.clauses pass query, clause skel = true := List.all_eq_true.mp h
  constructor
  · intro conv hconv
    have hmem : (fun skel : MessageSkeleton => decide (skel.conversationId = conv)) ∈ e.clauses pass query := by
      unfold clauses structuredFilters
      rw [hconv]
      simp
    exact (of_decide_eq_true (hall _ hmem)).symm
  · have hfilter : ∀ clause ∈ e.targetFilter pass query.effectiveTarget, clause skel = true := by
      intro clause hclause
      exact hall clause (List.mem_append_right _ hclause)
    unfold targetFilter at hfilter
    rw [if_neg htarget] at hfilter
    cases hresolved : e.resolveTargetToConversationSet pass query.effectiveTarget with
    | error fault =>
        rw [hresolved] at hfilter
        exact absurd (hfilter _ (List.mem_singleton_self _)) (by simp)
    | ok set =>
        cases set with
        | none => exact absurd (eq_global_of_resolve hresolved) htarget
        | some set =>
            rw [hresolved] at hfilter
            dsimp only at hfilter
            split_ifs at hfilter
            · exact absurd (hfilter _ (List.mem_singleton_self _)) (by simp)
            · have hin := of_decide_eq_true (hfilter _ (List.mem_singleton_self _))
              exact ⟨set, hresolved, _, hin, Uuid.parseStr_toText _⟩

/-! ## The local lanes -/

theorem within_of_localHit (hindexed : IndexedRows e.db) (htarget : query.effectiveTarget ≠ .global)
    (h : LocalHit e E query r.named) : Within e .first noopConversationGroupResolver query r := by
  generalize hn : r.named = n at h
  cases h with
  | structured hblank hskel hadmits => exact ⟨_, hskel, hn, inTarget_of_admits htarget hadmits⟩
  | @text id _ htext hhit =>
      obtain ⟨skel, hskel, hadmits⟩ := hhit.allowed.resolve_left (clauses_ne_nil htarget)
      obtain ⟨rfl, hfound⟩ := LocalStoreDb.skeletonOf_eq_some.mp hskel
      refine ⟨skel, hfound, hn.trans ?_, inTarget_of_admits htarget hadmits⟩
      cases hhit.selected with
      | @text row hrow hselects hid =>
          -- the row says what the skeleton says
          obtain ⟨skel', hskel', hrow'⟩ := hindexed.row hrow hid
          obtain rfl := Option.some.inj (hfound.symm.trans hskel')
          rw [hrow']
          rfl
      | @fuzzy skel' hit hhit hid hskel' =>
          obtain rfl := Option.some.inj (hskel.symm.trans hskel')
          rfl

theorem within_of_limit (hindexed : IndexedRows e.db) (htarget : query.effectiveTarget ≠ .global)
    (h : e.executeSearchWithLimit E query scope limit = .ok out) (hr : r ∈ out) :
    Within e .first noopConversationGroupResolver query r :=
  within_of_localHit hindexed htarget (localHit_of_mem h hr)

theorem within_of_semantic {embed : String → Except Error (List Rat)} {modelVersion : Option String}
    (hindexed : IndexedRows e.db) (htarget : query.effectiveTarget ≠ .global)
    (h : e.executeSearchWithSemantic E query scope embed modelVersion limit = .ok out) (hr : r ∈ out) :
    ∃ pass, Within e pass noopConversationGroupResolver query r := by
  rcases hit_of_mem_semantic h hr with hlocal | ⟨skel, hvector, hn⟩
  · exact ⟨.first, within_of_localHit hindexed htarget hlocal⟩
  · have hadmits := hvector.allowed.resolve_left (clauses_ne_nil htarget)
    exact ⟨.later, skel, hvector.skeleton, hn, inTarget_of_admits htarget hadmits⟩

/-- **A search with a target of its own** resolves it first, and then is one of a group of conversations. -/
theorem within_of_target {target : SearchTarget} (hindexed : IndexedRows e.db)
    (htarget : ({ query with target := target } : SearchQuery).effectiveTarget ≠ .global)
    (h : e.executeSearchWithTarget E query scope target resolver limit = .ok out) (hr : r ∈ out) :
    Within e .first resolver { query with target := target } r := by
  unfold executeSearchWithTarget at h
  obtain ⟨resolved, hresolved, hsearch⟩ := except_bind_eq_ok.mp h
  cases resolved with
  | none =>
      obtain rfl := eq_global_of_resolve hresolved
      obtain ⟨skel, hskel, hn, hin⟩ := within_of_limit hindexed htarget hsearch hr
      refine ⟨skel, hskel, hn, hin.filter, ?_⟩
      -- what is left of the target is the filter, which no resolver is asked about
      have hfilter : ∃ conv, ({ query with target := .global } : SearchQuery).effectiveTarget = .conversation conv := by
        unfold SearchQuery.effectiveTarget at htarget ⊢
        rw [if_pos rfl] at htarget ⊢
        cases hconv : query.conversationFilter with
        | none =>
            rw [hconv] at htarget
            exact absurd rfl htarget
        | some conv => exact ⟨conv, rfl⟩
      obtain ⟨conv, hconv⟩ := hfilter
      obtain ⟨set, hset, hmem⟩ := hin.target
      rw [hconv] at hset ⊢
      exact ⟨set, hset, hmem⟩
  | some set =>
      have hne : target ≠ .global := by
        rintro rfl
        exact absurd hresolved (by simp [resolveTargetToConversationSetWithResolver])
      have hgroup : ({ query with target := .conversationGroup (set.filterMap Uuid.parseStr) } : SearchQuery).effectiveTarget =
          .conversationGroup (set.filterMap Uuid.parseStr) := effectiveTarget_of_ne (by simp)
      obtain ⟨skel, hskel, hn, hin⟩ := within_of_limit hindexed (by rw [hgroup]; simp) hsearch hr
      refine ⟨skel, hskel, hn, hin.filter, ?_⟩
      obtain ⟨set', hset', id, hid, hparse⟩ := hin.target
      rw [hgroup] at hset'
      obtain rfl := Option.some.inj (Except.ok.inj hset')
      obtain ⟨conv, hconv, rfl⟩ := List.mem_map.mp hid
      obtain rfl := Option.some.inj hparse
      obtain ⟨id', hid', hparse'⟩ := List.mem_filterMap.mp hconv
      rw [@effectiveTarget_of_ne { query with target := target } hne]
      exact ⟨set, hresolved, id', hid', hparse'⟩

/-! ## The archive -/

theorem filter_of_bucketInScope {bucket : IdText × String} (h : e.bucketInScope query bucket = true) {conv : Uuid}
    (hconv : query.conversationFilter = some conv) : conv.toText = bucket.1 := by
  unfold bucketInScope at h
  rw [hconv, Bool.and_eq_true, Bool.and_eq_true] at h
  exact of_decide_eq_true h.1.1

theorem target_of_bucketInScope {bucket : IdText × String} (h : e.bucketInScope query bucket = true) {set : List IdText}
    (hset : e.resolveTargetToConversationSet .later query.effectiveTarget = .ok (some set)) : bucket.1 ∈ set := by
  have hall : e.coldTargetSet query = some set := by
    unfold coldTargetSet
    rw [hset]
  unfold bucketInScope at h
  rw [hall, Bool.and_eq_true, Bool.and_eq_true] at h
  exact of_decide_eq_true h.1.2

/-- **What a cold search names** is named by the local search, or by a row of a bucket in scope. -/
theorem exists_of_coldResult {P : IdText → String → FtsRow → Prop} (hrows : RowsHold P src cache)
    (h : ColdResult e E query src cache r) :
    (∃ scope limit found, e.executeSearchWithLimit E query scope limit = .ok found ∧ ∃ r' ∈ found, r'.named = r.named) ∨
      ∃ bucket row, e.bucketInScope query bucket = true ∧ P bucket.1 bucket.2 row ∧ r.named = (ColdHit.ofRow row 0).named := by
  have hof : ∀ {scope : SearchScope} {limit : Nat} {found : List RankedResult} {hits : List ColdHit},
      e.executeSearchWithLimit E query scope limit = .ok found →
      (∀ hit ∈ hits, ∃ bucket, e.bucketInScope query bucket = true ∧ OfRow P bucket hit) → ColdNamed found hits r.named →
      (∃ scope limit found, e.executeSearchWithLimit E query scope limit = .ok found ∧ ∃ r' ∈ found, r'.named = r.named) ∨
        ∃ bucket row, e.bucketInScope query bucket = true ∧ P bucket.1 bucket.2 row ∧
          r.named = (ColdHit.ofRow row 0).named := by
    intro scope limit found hits hfound hhits hnamed
    generalize hn : r.named = n at hnamed
    cases hnamed with
    | @here r' hr' => exact .inl ⟨scope, limit, found, hfound, r', hr', rfl⟩
    | @cold hit hfirst hnew =>
        obtain ⟨bucket, hscope, row, hrow, hhit⟩ := hhits hit hfirst.mem
        rw [hhit]
        exact .inr ⟨bucket, row, hscope, hrow, rfl⟩
  cases h with
  | full hout hr =>
      obtain ⟨found, hfound, hits, hreads, hnamed⟩ := coldNamed_full hout hr
      refine hof hfound (fun hit hhit => ?_) hnamed
      rw [← coldHits_of_coldReads hreads] at hhit
      exact mem_coldHits hrows hhit
  | parallel hout hr =>
      obtain ⟨found, hfound, hnamed⟩ := coldNamed_parallel hout hr
      exact hof hfound (fun hit hhit => mem_parallelHits hrows hhit) hnamed
  | streaming hr =>
      obtain ⟨found, hfound, hnamed⟩ := coldNamed_streaming hr
      exact hof hfound (fun hit hhit => mem_coldHits hrows hhit) hnamed

/-- **A cold result is of a message in the target, or of a row of a bucket that is read.** -/
theorem within_or_fromShard (hindexed : IndexedRows e.db) (htarget : query.effectiveTarget ≠ .global)
    (h : ColdResult e E query src cache r) :
    Within e .first noopConversationGroupResolver query r ∨ FromShard e query src cache r := by
  rcases exists_of_coldResult (rowsHold_ofShard src cache) h with ⟨scope, limit, found, hfound, r', hr', hn⟩ |
    ⟨bucket, row, hscope, hrow, hn⟩
  · exact .inl ((within_of_limit hindexed htarget hfound hr').of_named hn)
  · exact .inr ⟨bucket, row, fun conv hconv => filter_of_bucketInScope hscope hconv,
      fun set hset => target_of_bucketInScope hscope hset, hrow, hn⟩

/-- **Where the lookup does not fail and the rows are labelled, it is of the target.** -/
theorem inTarget_of_coldResult (hindexed : IndexedRows e.db) (htarget : query.effectiveTarget ≠ .global)
    (hlabelled : Labelled src cache) {set : Option (List IdText)}
    (hset : e.resolveTargetToConversationSet .later query.effectiveTarget = .ok set) (h : ColdResult e E query src cache r) :
    ∃ pass, InTarget e pass noopConversationGroupResolver query r.conversationId := by
  rcases exists_of_coldResult hlabelled h with ⟨scope, limit, found, hfound, r', hr', hn⟩ | ⟨bucket, row, hscope, hrow, hn⟩
  · obtain ⟨skel, -, hname, hin⟩ := (within_of_limit hindexed htarget hfound hr').of_named hn
    have hconversation : r.conversationId = skel.conversationId := congrArg Named.conversationId hname
    rw [hconversation]
    exact ⟨.first, hin⟩
  · have hconversation : r.conversationId = row.conversationId := congrArg Named.conversationId hn
    rw [hconversation]
    cases set with
    | none => exact absurd (eq_global_of_resolve hset) htarget
    | some set =>
        refine ⟨.later, fun conv hconv => ?_, set, hset, _, target_of_bucketInScope hscope hset, ?_⟩
        · exact Uuid.toText_inj.mp ((filter_of_bucketInScope hscope hconv).trans hrow.symm)
        · rw [← hrow]
          exact Uuid.parseStr_toText _

end QueryEngine

/-- **Every search stays in its target**, the cold ones up to what the lookup after the local pass restricts the buckets
to. -/
structure Confined (e : QueryEngine) (E : SearchPlatform) : Prop where
  limit : ∀ query : SearchQuery, query.effectiveTarget ≠ .global → ∀ scope limit out,
    e.executeSearchWithLimit E query scope limit = .ok out →
      ∀ r ∈ out, Within e .first noopConversationGroupResolver query r
  semantic : ∀ query : SearchQuery, query.effectiveTarget ≠ .global → ∀ scope embed modelVersion limit out,
    e.executeSearchWithSemantic E query scope embed modelVersion limit = .ok out →
      ∀ r ∈ out, ∃ pass, Within e pass noopConversationGroupResolver query r
  target : ∀ (query : SearchQuery) (target : SearchTarget) (resolver : ConversationGroupResolver),
    ({ query with target := target } : SearchQuery).effectiveTarget ≠ .global → ∀ scope limit out,
      e.executeSearchWithTarget E query scope target resolver limit = .ok out →
        ∀ r ∈ out, Within e .first resolver { query with target := target } r
  cold : ∀ query : SearchQuery, query.effectiveTarget ≠ .global → ∀ src cache r, ColdResult e E query src cache r →
    Within e .first noopConversationGroupResolver query r ∨ FromShard e query src cache r
  labelled : ∀ query : SearchQuery, query.effectiveTarget ≠ .global → ∀ src cache, Labelled src cache →
    (∃ set, e.resolveTargetToConversationSet .later query.effectiveTarget = .ok set) → ∀ r, ColdResult e E query src cache r →
      ∃ pass, InTarget e pass noopConversationGroupResolver query r.conversationId

theorem searches_confined {F : Message.Platform} {conversations : Table Conversation.conversationId}
    {tr : List (LocalStoreDb × StoreCall)} {e : QueryEngine} (hrun : StoreHistory F (.fresh conversations) tr e.db)
    (hrestores : ∀ p ∈ tr, p.2.Restores) (E : SearchPlatform) : Confined e E := by
  have hindexed : IndexedRows e.db := indexedRows_history hrun hrestores
  constructor
  · intro query htarget scope limit out hout r hr
    exact QueryEngine.within_of_limit hindexed htarget hout hr
  · intro query htarget scope embed modelVersion limit out hout r hr
    exact QueryEngine.within_of_semantic hindexed htarget hout hr
  · intro query target resolver htarget scope limit out hout r hr
    exact QueryEngine.within_of_target hindexed htarget hout hr
  · intro query htarget src cache r hr
    exact QueryEngine.within_or_fromShard hindexed htarget hr
  · rintro query htarget src cache hlabelled ⟨set, hset⟩ r hr
    exact QueryEngine.inTarget_of_coldResult hindexed htarget hlabelled hset hr

theorem searches_confined_hi : ∃ db tr, StoreHistory .bare (.fresh Message.oneConversation) tr db ∧
    Confined (.plain db) .plain := by
  obtain ⟨db, hstep⟩ : ∃ db, StoreCall.Step .bare (.fresh Message.oneConversation)
      (.core (.ingestMessages [⟨Message.aliceSays "hi", 1001, 1002⟩])) db := ⟨_, rfl⟩
  refine ⟨db, _, Run.single hstep, searches_confined (e := .plain db) (Run.single hstep) ?_ .plain⟩
  intro p hp
  rw [List.mem_singleton.mp hp]
  exact trivial

/-! ## A row of another conversation -/

/-- A connection whose lookups of conversations fail. -/
def QueryEngine.locked (db : LocalStoreDb) : QueryEngine :=
  ⟨db, fun _ => some (.rusqlite "database is locked"), id, List.Perm.refl⟩

/-- One bucket of one conversation, with "hi" from "alice" in another one. -/
def straySource (conv rowConv : Uuid) : ColdShardSource where
  coldBuckets := .ok [(conv.toText, "2026-01")]
  fetchTextRows _ _ := .ok [⟨Uuid.toText ⟨2⟩, rowConv, "alice", 1000, "hi"⟩]
  fetchFuzzyRows _ _ := .ok []
  fetchBloomShard _ _ := .ok none

/-- "hi", in a target. -/
def hiIn (target : SearchTarget) : SearchQuery := ⟨"hi", none, none, none, none, none, target⟩

/-- What the row contributes. -/
def strayHit (rowConv : Uuid) : ColdHit := ⟨Uuid.toText ⟨2⟩, rowConv, "alice", 1000, 2⟩

/-- **The row of a bucket that is read is a result**, whatever its conversation is. -/
theorem stray_result {e : QueryEngine} {target : SearchTarget} {conv rowConv : Uuid} (hempty : e.db.fts = [])
    (hgrams : SearchPlatform.plain.fuzzyMatches "hi" e.db = [])
    (hreads : e.coldReads .plain (hiIn target) .includeCold (straySource conv rowConv) .default none = .ok [strayHit rowConv]) :
    ∃ r, ColdResult e .plain (hiIn target) (straySource conv rowConv) none r ∧ r.conversationId = rowConv := by
  have htrim : trim "hi" = "hi" := by decide +kernel
  have hquery : (hiIn target).queryString = "hi" := rfl
  have haccepts : SearchPlatform.plain.accepts (trim (hiIn target).queryString) = true := by
    rw [hquery]
    decide +kernel
  have htext : (trim (hiIn target).queryString).isEmpty = false := by
    rw [hquery]
    decide +kernel
  obtain ⟨found, hfound⟩ : ∃ found, e.executeSearchWithLimit .plain (hiIn target) .includeCold 1 = .ok found :=
    QueryEngine.executeSearchWithLimit_isOk haccepts
  -- nothing is indexed
  have hnone : ∀ r, r ∉ found := by
    intro r hr
    have hlocal := QueryEngine.localHit_of_mem hfound hr
    generalize r.named = n at hlocal
    cases hlocal with
    | structured hblank _ _ => exact absurd (hblank.symm.trans htext) (by simp)
    | text _ hhit =>
        cases hhit.selected with
        | text hrow _ _ => exact absurd (hempty ▸ hrow) List.not_mem_nil
        | fuzzy hmatch _ _ =>
            rw [hquery, htrim, hgrams] at hmatch
            exact absurd hmatch List.not_mem_nil
  obtain rfl := List.eq_nil_iff_forall_not_mem.mpr hnone
  have hfirst : FirstHit [strayHit rowConv] (strayHit rowConv) := by simp [FirstHit]
  obtain ⟨out, hout, r, hr, hn⟩ := QueryEngine.exists_mem_full hfound hreads (by simp) hfirst (by simp)
  exact ⟨r, .full hout hr, congrArg Named.conversationId hn⟩

/-- **A result outside of the target**: the lookup fails, or the row is not of the conversation of its bucket. -/
theorem coldSearch_leaves_target :
    (∃ r, ColdResult (.locked (.fresh Message.oneConversation)) .plain (hiIn (.tenant "acme")) (straySource ⟨1⟩ ⟨1⟩) none r ∧
      ¬ ∃ pass, InTarget (.locked (.fresh Message.oneConversation)) pass noopConversationGroupResolver (hiIn (.tenant "acme"))
        r.conversationId) ∧
    ∃ r, ColdResult (.plain (.fresh Message.oneConversation)) .plain (hiIn (.conversation ⟨1⟩)) (straySource ⟨1⟩ ⟨7⟩) none r ∧
      ¬ ∃ pass, InTarget (.plain (.fresh Message.oneConversation)) pass noopConversationGroupResolver
        (hiIn (.conversation ⟨1⟩)) r.conversationId := by
  have hgrams : SearchPlatform.plain.fuzzyMatches "hi" (.fresh Message.oneConversation) = [] := by decide +kernel
  constructor
  · obtain ⟨r, hr, -⟩ := @stray_result (.locked (.fresh Message.oneConversation)) (.tenant "acme") ⟨1⟩ ⟨1⟩ rfl hgrams
      (by decide +kernel)
    refine ⟨r, hr, ?_⟩
    -- the resolver fails, so no set is there
    rintro ⟨pass, -, set, hset, -⟩
    exact absurd hset (by simp [hiIn, SearchQuery.effectiveTarget, QueryEngine.resolveTargetToConversationSetWithResolver,
      QueryEngine.conversationSet, QueryEngine.readListConversationsByColumn, QueryEngine.locked])
  · obtain ⟨r, hr, hconv⟩ := @stray_result (.plain (.fresh Message.oneConversation)) (.conversation ⟨1⟩) ⟨1⟩ ⟨7⟩ rfl hgrams
      (by decide +kernel)
    refine ⟨r, hr, ?_⟩
    rw [hconv]
    -- the set has the one conversation, and the result another
    rintro ⟨pass, -, set, hset, id, hid, hparse⟩
    obtain rfl := Option.some.inj (Except.ok.inj hset)
    rw [List.mem_singleton.mp hid] at hparse
    exact absurd (Option.some.inj hparse) (by decide)

end KChatCore.Search
