import KChatCore.Lib.Run
import KChatCore.Message.Calls
import KChatCore.Search.SemanticIndex

/-!
# `Search.SemanticAuto` — the graph of a slot, cached until its invalidation

`search_semantic_auto` takes the graph that is cached for its conversation and model, or fetches the candidates and, where
there are enough of them, builds a graph and caches it. A write to `search_vector` is followed by the invalidation of one
slot, that of the written message's conversation and model; calls and writes interleave.

* `KeepsFresh` — a step after which no graph stays behind that was built from other candidates.
* `searchSemanticAuto_agrees` — in runs of such steps, a call that no write overtakes answers as the scan does.
-/

namespace KChatCore.Search.SemanticEngine

open Lib LocalStore

variable {K : Type} [Field K] [LinearOrder K]

/-! ## The calls -/

/-- `HnswCacheKey`: the slot of a graph; either part may be open. -/
structure HnswCacheKey where
  conversationId : Option Uuid
  modelVersion : Option String
deriving DecidableEq

/-- What a search is called with. -/
structure SearchArgs (K : Type) where
  queryEmbedding : List K
  conversationId : Option Uuid
  limit : Nat
  modelVersion : Option String

/-- The slot of a call. -/
def SearchArgs.key (args : SearchArgs K) : HnswCacheKey := ⟨args.conversationId, args.modelVersion⟩

/-- `HNSW_FALLBACK_THRESHOLD`. -/
def hnswFallbackThreshold : Nat := 1000

/-- `fetch_candidates`, as ids and embeddings. -/
def candidatesOf (db : LocalStoreDb) (key : HnswCacheKey) : List (String × Bytes) :=
  (fetchCandidates db key.conversationId key.modelVersion).map fun r => (r.messageId.text, r.embedding)

/-- `search_semantic`. -/
def searchSemantic (R : ExactSqrt K) (db : LocalStoreDb) (args : SearchArgs K) : List (CosineMatch K) :=
  if args.limit = 0 ∨ args.queryEmbedding.isEmpty then []
  else scoreCandidatesBruteForce R args.queryEmbedding (candidatesOf db args.key) args.limit

/-- What is left of `search_semantic_auto` after a miss and the fetch: the answer, and the graph it caches. -/
def answerMiss (R : ExactSqrt K) (nearest : GraphSearch K) (args : SearchArgs K) (raw : List (String × Bytes)) :
    List (CosineMatch K) × Option (HnswIndex K) :=
  if raw.length < hnswFallbackThreshold then
    (scoreCandidatesBruteForce R args.queryEmbedding raw args.limit, none)
  else
    match HnswIndex.build R (decodedRows K raw) with
    | none => (scoreCandidatesBruteForce R args.queryEmbedding raw args.limit, none)
    | some idx => (idx.search R nearest args.queryEmbedding args.limit, some idx)

/-- Where a call of `search_semantic_auto` stands. -/
inductive CallState (K : Type)
  | idle
  | missed (args : SearchArgs K)
  | fetched (args : SearchArgs K) (raw : List (String × Bytes))
  | done (args : SearchArgs K) (hits : List (CosineMatch K))

/-! ## The system -/

/-- The store, the cache, the invalidations that writes still owe, and the calls. -/
structure AutoState (K : Type) where
  db : LocalStoreDb
  cache : HnswCacheKey → Option (HnswIndex K)
  owed : List HnswCacheKey
  calls : Nat → CallState K

/-- What a thread does next. -/
inductive AutoAction (K : Type)
  | put (messageId : IdText) (modelVersion : String) (embedding : Bytes)
  | delete (messageId : IdText) (modelVersion : String)
  | invalidate (key : HnswCacheKey)
  | lookup (call : Nat) (args : SearchArgs K)
  | fetch (call : Nat)
  | finish (call : Nat)

/-- Whether the action writes to `search_vector`. -/
def AutoAction.isWrite : AutoAction K → Bool
  | .put _ _ _ => true
  | .delete _ _ => true
  | _ => false

/-- The slot of a written message: its own conversation and the model. -/
def writtenKey (db : LocalStoreDb) (messageId : IdText) (modelVersion : String) : Option HnswCacheKey :=
  (db.skeletonOf messageId).map fun skel => ⟨some skel.conversationId, some modelVersion⟩

namespace AutoState

/-- A write, which owes the invalidation of its slot. -/
def write (s : AutoState K) (db : LocalStoreDb) (key : HnswCacheKey) : AutoState K := { s with db := db, owed := key :: s.owed }

/-- `HnswIndexCache::invalidate`. -/
def invalidate (s : AutoState K) (key : HnswCacheKey) : AutoState K :=
  { s with cache := Function.update s.cache key none, owed := s.owed.erase key }

/-- A call up to the cache lookup; a hit is answered from the graph at once. -/
def lookup (R : ExactSqrt K) (nearest : GraphSearch K) (s : AutoState K) (call : Nat) (args : SearchArgs K) : AutoState K :=
  let next :=
    if args.limit = 0 ∨ args.queryEmbedding.isEmpty then CallState.done args []
    else
      match s.cache args.key with
      | some idx => CallState.done args (idx.search R nearest args.queryEmbedding args.limit)
      | none => CallState.missed args
  { s with calls := Function.update s.calls call next }

/-- The fetch of a call that missed. -/
def fetch (s : AutoState K) (call : Nat) (args : SearchArgs K) : AutoState K :=
  { s with calls := Function.update s.calls call (.fetched args (candidatesOf s.db args.key)) }

/-- The rest of such a call: a graph that was built is cached, over whatever is there. -/
def finish (R : ExactSqrt K) (nearest : GraphSearch K) (s : AutoState K) (call : Nat) (args : SearchArgs K)
    (raw : List (String × Bytes)) : AutoState K :=
  let answer := answerMiss R nearest args raw
  { s with
    cache := match answer.2 with
      | some idx => Function.update s.cache args.key (some idx)
      | none => s.cache
    calls := Function.update s.calls call (.done args answer.1) }

end AutoState

/-- **One step of the system.** -/
def AutoStep (R : ExactSqrt K) (nearest : GraphSearch K) (s : AutoState K) (action : AutoAction K) (s' : AutoState K) : Prop :=
  match action with
  | .put messageId modelVersion embedding => ∃ key, writtenKey s.db messageId modelVersion = some key ∧
      s' = s.write (s.db.putVector messageId modelVersion embedding) key
  | .delete messageId modelVersion => ∃ key, writtenKey s.db messageId modelVersion = some key ∧
      s' = s.write (s.db.deleteVectorRow messageId) key
  | .invalidate key => key ∈ s.owed ∧ s' = s.invalidate key
  | .lookup call args => s.calls call = .idle ∧ s' = s.lookup R nearest call args
  | .fetch call => ∃ args, s.calls call = .missed args ∧ s' = s.fetch call args
  | .finish call => ∃ args raw, s.calls call = .fetched args raw ∧ s' = s.finish R nearest call args raw

/-- No graph is cached, no invalidation is owed and no call has started. -/
structure Initial (s : AutoState K) : Prop where
  cache : ∀ key, s.cache key = none
  owed : s.owed = []
  calls : ∀ call, s.calls call = .idle

/-! ## Graphs of the current candidates -/

/-- The write leaves the candidates of a slot as they are. -/
def LeavesAlone (db db' : LocalStoreDb) (key : HnswCacheKey) : Prop := candidatesOf db' key = candidatesOf db key

/-- **The step leaves no stale graph behind.** A write changes the candidates of no slot that has a graph, except slots whose
own invalidation is owed; a miss caches a graph only of candidates that are still the slot's, or into a slot whose
invalidation is owed. -/
def KeepsFresh (s : AutoState K) : AutoAction K → Prop
  | .put messageId modelVersion embedding => ∀ key, s.cache key ≠ none → key ∈ s.owed ∨
      writtenKey s.db messageId modelVersion = some key ∨
        LeavesAlone s.db (s.db.putVector messageId modelVersion embedding) key
  | .delete messageId modelVersion => ∀ key, s.cache key ≠ none → key ∈ s.owed ∨
      writtenKey s.db messageId modelVersion = some key ∨ LeavesAlone s.db (s.db.deleteVectorRow messageId) key
  | .finish call => ∀ args raw, s.calls call = .fetched args raw → hnswFallbackThreshold ≤ raw.length →
      args.key ∈ s.owed ∨ raw = candidatesOf s.db args.key
  | _ => True

/-- **Every cached graph is the graph of its slot's candidates**, or its invalidation is owed. -/
def Fresh (R : ExactSqrt K) (s : AutoState K) : Prop :=
  ∀ key idx, s.cache key = some idx → key ∈ s.owed ∨
    hnswFallbackThreshold ≤ (candidatesOf s.db key).length ∧
      HnswIndex.build R (decodedRows K (candidatesOf s.db key)) = some idx

section Freshness

variable {R : ExactSqrt K} {nearest : GraphSearch K} {s s' : AutoState K}

theorem Initial.fresh (h : Initial s) : Fresh R s := by
  intro key idx hidx
  rw [h.cache] at hidx
  exact absurd hidx (by simp)

/-- A graph that a miss caches was built from enough candidates. -/
theorem answerMiss_index {args : SearchArgs K} {raw : List (String × Bytes)} {idx : HnswIndex K}
    (h : (answerMiss R nearest args raw).2 = some idx) :
    hnswFallbackThreshold ≤ raw.length ∧ HnswIndex.build R (decodedRows K raw) = some idx := by
  unfold answerMiss at h
  split_ifs at h with hlen
  cases hbuild : HnswIndex.build R (decodedRows K raw) with
  | none =>
      simp only [hbuild] at h
      exact absurd h (by simp)
  | some built =>
      simp only [hbuild] at h
      exact ⟨not_lt.mp hlen, h⟩

/-- A write that leaves every other graph's candidates alone. -/
theorem Fresh.write (hfresh : Fresh R s) {db : LocalStoreDb} {written : HnswCacheKey}
    (h : ∀ key, s.cache key ≠ none → key ∈ s.owed ∨ written = key ∨ LeavesAlone s.db db key) :
    Fresh R (s.write db written) := by
  intro key idx hidx
  have hcached : s.cache key = some idx := hidx
  rcases h key (by rw [hcached]; simp) with howed | rfl | hsame
  · exact Or.inl (List.mem_cons_of_mem _ howed)
  · exact Or.inl List.mem_cons_self
  · show _ ∨ hnswFallbackThreshold ≤ (candidatesOf db key).length ∧
      HnswIndex.build R (decodedRows K (candidatesOf db key)) = some idx
    rw [hsame]
    exact (hfresh key idx hcached).imp_left (List.mem_cons_of_mem _)

/-- An invalidation drops the graph whose invalidation it no longer owes. -/
theorem Fresh.invalidate (hfresh : Fresh R s) (key : HnswCacheKey) : Fresh R (s.invalidate key) := by
  intro key' idx hidx
  have hcache : Function.update s.cache key none key' = some idx := hidx
  by_cases hkey : key' = key
  · rw [hkey, Function.update_self] at hcache
    exact absurd hcache (by simp)
  · rw [Function.update_of_ne hkey] at hcache
    exact (hfresh key' idx hcache).imp_left fun h => (List.mem_erase_of_ne hkey).mpr h

/-- A miss that may cache its graph. -/
theorem Fresh.finish (hfresh : Fresh R s) {call : Nat} {args : SearchArgs K} {raw : List (String × Bytes)}
    (h : hnswFallbackThreshold ≤ raw.length → args.key ∈ s.owed ∨ raw = candidatesOf s.db args.key) :
    Fresh R (s.finish R nearest call args raw) := by
  intro key idx hidx
  have hcache : (match (answerMiss R nearest args raw).2 with
      | some idx => Function.update s.cache args.key (some idx)
      | none => s.cache) key = some idx := hidx
  cases hanswer : (answerMiss R nearest args raw).2 with
  | none =>
      simp only [hanswer] at hcache
      exact hfresh key idx hcache
  | some built =>
      simp only [hanswer] at hcache
      by_cases hkey : key = args.key
      · rw [hkey, Function.update_self] at hcache
        obtain rfl := Option.some.inj hcache
        obtain ⟨hlen, hbuild⟩ := answerMiss_index hanswer
        rw [hkey]
        rcases h hlen with howed | rfl
        · exact Or.inl howed
        · exact Or.inr ⟨hlen, hbuild⟩
      · rw [Function.update_of_ne hkey] at hcache
        exact hfresh key idx hcache

/-- **A step that leaves no stale graph behind keeps the graphs fresh.** -/
theorem Fresh.step (hfresh : Fresh R s) {action : AutoAction K} (hkeeps : KeepsFresh s action)
    (hstep : AutoStep R nearest s action s') : Fresh R s' := by
  cases action with
  | put messageId modelVersion embedding =>
      obtain ⟨key, hkey, rfl⟩ := hstep
      refine hfresh.write fun key' hcached => ?_
      rcases hkeeps key' hcached with h | h | h
      · exact Or.inl h
      · exact Or.inr (Or.inl (Option.some.inj (hkey.symm.trans h)))
      · exact Or.inr (Or.inr h)
  | delete messageId modelVersion =>
      obtain ⟨key, hkey, rfl⟩ := hstep
      refine hfresh.write fun key' hcached => ?_
      rcases hkeeps key' hcached with h | h | h
      · exact Or.inl h
      · exact Or.inr (Or.inl (Option.some.inj (hkey.symm.trans h)))
      · exact Or.inr (Or.inr h)
  | invalidate key =>
      obtain ⟨-, rfl⟩ := hstep
      exact hfresh.invalidate key
  | lookup call args =>
      obtain ⟨-, rfl⟩ := hstep
      exact hfresh
  | fetch call =>
      obtain ⟨args, -, rfl⟩ := hstep
      exact hfresh
  | finish call =>
      obtain ⟨args, raw, hcall, rfl⟩ := hstep
      exact hfresh.finish (hkeeps args raw hcall)

end Freshness

/-! ## A call that no write overtakes -/

/-- **The call can be answered from a graph**: no invalidation of its slot is owed, and a graph of its candidates, where there
are enough for one, sees what the scan would answer. -/
def Answerable (R : ExactSqrt K) (s : AutoState K) (args : SearchArgs K) : Prop :=
  args.key ∉ s.owed ∧ (hnswFallbackThreshold ≤ (candidatesOf s.db args.key).length →
    GraphSees R args.queryEmbedding (candidatesOf s.db args.key) args.limit)

/-- What the call has asked for. -/
def Asks (R : ExactSqrt K) (db : LocalStoreDb) (args : SearchArgs K) : Prop :=
  args.limit ≠ 0 ∧ args.queryEmbedding ≠ [] ∧ (hnswFallbackThreshold ≤ (candidatesOf db args.key).length →
    GraphSees R args.queryEmbedding (candidatesOf db args.key) args.limit)

/-- **A call that is on its way to the scan's answer**, or has it. -/
def Sound (R : ExactSqrt K) (db : LocalStoreDb) : CallState K → Prop
  | .idle => True
  | .missed args => Asks R db args
  | .fetched args raw => Asks R db args ∧ raw = candidatesOf db args.key
  | .done args hits => hits = searchSemantic R db args

section Agreement

variable [IsStrictOrderedRing K] {R : ExactSqrt K} {nearest : GraphSearch K} {s s' : AutoState K} {args : SearchArgs K}

omit [IsStrictOrderedRing K] in
theorem searchSemantic_of_asks {db : LocalStoreDb} (hlimit : args.limit ≠ 0) (hquery : args.queryEmbedding ≠ []) :
    searchSemantic R db args = scoreCandidatesBruteForce R args.queryEmbedding (candidatesOf db args.key) args.limit :=
  if_neg (not_or.mpr ⟨hlimit, by simpa using hquery⟩)

/-- **The answer of a miss** is the scan's. -/
theorem answerMiss_eq (hnearest : ExactNearest R nearest) {db : LocalStoreDb} (h : Asks R db args) :
    (answerMiss R nearest args (candidatesOf db args.key)).1 = searchSemantic R db args := by
  obtain ⟨hlimit, hquery, hsees⟩ := h
  rw [searchSemantic_of_asks hlimit hquery]
  unfold answerMiss
  split_ifs with hlen
  · rfl
  · cases hbuild : HnswIndex.build R (decodedRows K (candidatesOf db args.key)) with
    | none => simp only
    | some idx =>
        simp only
        exact search_build hnearest hlimit hquery hbuild (hsees (not_lt.mp hlen))

omit [IsStrictOrderedRing K] in
/-- A lookup that finds a graph answers from it. -/
theorem calls_lookup_hit {idx : HnswIndex K} (hlimit : args.limit ≠ 0) (hquery : args.queryEmbedding ≠ [])
    (hcache : s.cache args.key = some idx) (call : Nat) : (s.lookup R nearest call args).calls call =
      .done args (idx.search R nearest args.queryEmbedding args.limit) := by
  unfold AutoState.lookup
  simp only [hcache, Function.update_self]
  exact if_neg (not_or.mpr ⟨hlimit, by simpa using hquery⟩)

omit [IsStrictOrderedRing K] in
/-- A lookup that finds none is a miss. -/
theorem calls_lookup_miss (hlimit : args.limit ≠ 0) (hquery : args.queryEmbedding ≠ []) (hcache : s.cache args.key = none)
    (call : Nat) : (s.lookup R nearest call args).calls call = .missed args := by
  unfold AutoState.lookup
  simp only [hcache, Function.update_self]
  exact if_neg (not_or.mpr ⟨hlimit, by simpa using hquery⟩)

omit [IsStrictOrderedRing K] in
/-- A lookup of nothing is answered at once. -/
theorem calls_lookup_nothing (h : args.limit = 0 ∨ args.queryEmbedding.isEmpty) (call : Nat) :
    (s.lookup R nearest call args).calls call = .done args [] := by
  unfold AutoState.lookup
  simp only [Function.update_self]
  exact if_pos h

omit [Field K] [LinearOrder K] [IsStrictOrderedRing K] in
theorem calls_fetch (call : Nat) : (s.fetch call args).calls call = .fetched args (candidatesOf s.db args.key) := by
  unfold AutoState.fetch
  simp only [Function.update_self]

omit [IsStrictOrderedRing K] in
theorem calls_finish (call : Nat) (raw : List (String × Bytes)) :
    (s.finish R nearest call args raw).calls call = .done args (answerMiss R nearest args raw).1 := by
  unfold AutoState.finish
  simp only [Function.update_self]

omit [Field K] [LinearOrder K] [IsStrictOrderedRing K] in
/-- An invalidation leaves the other slots. -/
theorem cache_invalidate_of_ne {key key' : HnswCacheKey} (h : key' ≠ key) : (s.invalidate key).cache key' = s.cache key' := by
  unfold AutoState.invalidate
  simp only [Function.update_of_ne h]

omit [IsStrictOrderedRing K] in
/-- What a miss has built is cached. -/
theorem cache_finish {idx : HnswIndex K} {raw : List (String × Bytes)} (h : (answerMiss R nearest args raw).2 = some idx)
    (call : Nat) : (s.finish R nearest call args raw).cache args.key = some idx := by
  unfold AutoState.finish
  simp only [h, Function.update_self]

/-- **The lookup of a call that can be answered**: what it finds answers it, and otherwise it asks. -/
theorem sound_lookup (hnearest : ExactNearest R nearest) (hfresh : Fresh R s) (h : Answerable R s args) (call : Nat) :
    Sound R s.db ((s.lookup R nearest call args).calls call) := by
  obtain ⟨howed, hsees⟩ := h
  by_cases hnothing : args.limit = 0 ∨ args.queryEmbedding.isEmpty
  · rw [calls_lookup_nothing hnothing]
    exact (if_pos hnothing).symm
  · obtain ⟨hlimit, hquery⟩ := not_or.mp hnothing
    have hquery' : args.queryEmbedding ≠ [] := by simpa using hquery
    cases hcache : s.cache args.key with
    | none =>
        rw [calls_lookup_miss hlimit hquery' hcache]
        exact ⟨hlimit, hquery', hsees⟩
    | some idx =>
        -- the graph that is cached is the current one, for nothing is owed to its slot
        obtain ⟨hlen, hbuild⟩ := (hfresh args.key idx hcache).resolve_left howed
        rw [calls_lookup_hit hlimit hquery' hcache]
        show idx.search R nearest args.queryEmbedding args.limit = searchSemantic R s.db args
        rw [searchSemantic_of_asks hlimit hquery']
        exact search_build hnearest hlimit hquery' hbuild (hsees hlen)

omit [IsStrictOrderedRing K] in
/-- A step that does not write leaves the store. -/
theorem db_of_step {action : AutoAction K} (hread : action.isWrite = false) (hstep : AutoStep R nearest s action s') :
    s'.db = s.db := by
  cases action with
  | put messageId modelVersion embedding => exact absurd hread (by simp [AutoAction.isWrite])
  | delete messageId modelVersion => exact absurd hread (by simp [AutoAction.isWrite])
  | invalidate key =>
      obtain ⟨-, rfl⟩ := hstep
      rfl
  | lookup call args =>
      obtain ⟨-, rfl⟩ := hstep
      rfl
  | fetch call =>
      obtain ⟨args, -, rfl⟩ := hstep
      rfl
  | finish call =>
      obtain ⟨args, raw, -, rfl⟩ := hstep
      rfl

/-- **A step that does not write keeps a call sound**, if it is not the lookup of a call that cannot be answered. -/
theorem Sound.step (hnearest : ExactNearest R nearest) (hfresh : Fresh R s) {call : Nat}
    (hsound : Sound R s.db (s.calls call)) {action : AutoAction K} (hread : action.isWrite = false)
    (hanswer : ∀ args, action = .lookup call args → Answerable R s args) (hstep : AutoStep R nearest s action s') :
    Sound R s'.db (s'.calls call) := by
  -- a step that is no write leaves the store; another call than this leaves its state
  rw [db_of_step hread hstep]
  cases action with
  | put messageId modelVersion embedding => exact absurd hread (by simp [AutoAction.isWrite])
  | delete messageId modelVersion => exact absurd hread (by simp [AutoAction.isWrite])
  | invalidate key =>
      obtain ⟨-, rfl⟩ := hstep
      exact hsound
  | lookup call' args =>
      obtain ⟨-, rfl⟩ := hstep
      by_cases hsame : call' = call
      · rw [hsame]
        exact sound_lookup hnearest hfresh (hanswer args (by rw [hsame])) call
      · have hother : (s.lookup R nearest call' args).calls call = s.calls call := Function.update_of_ne (Ne.symm hsame) _ _
        rwa [hother]
  | fetch call' =>
      obtain ⟨args, hcall, rfl⟩ := hstep
      by_cases hsame : call' = call
      · rw [hsame] at hcall ⊢
        rw [hcall] at hsound
        rw [calls_fetch]
        exact ⟨hsound, rfl⟩
      · have hother : (s.fetch call' args).calls call = s.calls call := Function.update_of_ne (Ne.symm hsame) _ _
        rwa [hother]
  | finish call' =>
      obtain ⟨args, raw, hcall, rfl⟩ := hstep
      by_cases hsame : call' = call
      · rw [hsame] at hcall ⊢
        rw [hcall] at hsound
        obtain ⟨hasks, rfl⟩ := hsound
        rw [calls_finish]
        exact answerMiss_eq hnearest hasks
      · have hother : (s.finish R nearest call' args raw).calls call = s.calls call :=
          Function.update_of_ne (Ne.symm hsame) _ _
        rwa [hother]

/-- **The cached path agrees with the scan**: in every run whose steps leave no stale graph behind, a call that starts after
the last write, when it can be answered from a graph, ends with what `search_semantic` returns. -/
theorem searchSemanticAuto_agrees (hnearest : ExactNearest R nearest) {s₀ s₁ s₂ : AutoState K}
    {tr tr' : List (AutoState K × AutoAction K)} (hinit : Initial s₀) (hbefore : Run (AutoStep R nearest) s₀ tr s₁)
    (hafter : Run (AutoStep R nearest) s₁ tr' s₂) (hkeeps : ∀ p ∈ tr ++ tr', KeepsFresh p.1 p.2)
    (hreads : ∀ p ∈ tr', p.2.isWrite = false) {call : Nat} (hidle : s₁.calls call = .idle)
    (hanswer : ∀ p ∈ tr', ∀ args, p.2 = .lookup call args → Answerable R p.1 args) {hits : List (CosineMatch K)}
    (hdone : s₂.calls call = .done args hits) : hits = searchSemantic R s₂.db args := by
  have hfresh₁ : Fresh R s₁ := hbefore.invariant_of_guarded (fun s action s' hfresh hk hstep => hfresh.step hk hstep)
    (fun p hp => hkeeps p (List.mem_append_left _ hp)) hinit.fresh
  -- from the idle call on: the index stays fresh, and what the call has is of this store
  have hsound : Fresh R s₂ ∧ Sound R s₂.db (s₂.calls call) := by
    refine hafter.invariant_of_guarded
      (I := fun s => Fresh R s ∧ Sound R s.db (s.calls call))
      (G := fun s action => KeepsFresh s action ∧ action.isWrite = false ∧
        ∀ args, action = .lookup call args → Answerable R s args) ?_ ?_ ⟨hfresh₁, by rw [hidle]; trivial⟩
    · rintro s action s' ⟨hfresh, hsound⟩ ⟨hk, hread, hans⟩ hstep
      exact ⟨hfresh.step hk hstep, Sound.step hnearest hfresh hsound hread hans hstep⟩
    · exact fun p hp => ⟨hkeeps p (List.mem_append_right _ hp), hreads p hp, hanswer p hp⟩
  have hlast := hsound.2
  rw [hdone] at hlast
  exact hlast

end Agreement

/-! ## A graph of all conversations -/

/-- The square roots of the reals. -/
noncomputable def realSqrt : ExactSqrt ℝ := ⟨Real.sqrt, Real.sqrt_nonneg, fun _ h => Real.mul_self_sqrt h⟩

/-- Whether a point is at least as near as another. -/
noncomputable def nearerLe (query : List ℝ) (a b : String × List ℝ) : Bool :=
  decide (cosineDistance realSqrt query a.2 ≤ cosineDistance realSqrt query b.2)

/-- All points, nearest first, and cut. -/
noncomputable def nearestFirst : GraphSearch ℝ := fun width points query => top (nearerLe query) width points

theorem nearestFirst_exact : ExactNearest realSqrt nearestFirst := by
  intro width points query
  have htrans : ∀ a b c, nearerLe query a b → nearerLe query b c → nearerLe query a c := by
    intro a b c hab hbc
    simp only [nearerLe, decide_eq_true_eq] at hab hbc ⊢
    exact hab.trans hbc
  have htotal : ∀ a b, nearerLe query a b || nearerLe query b a := by
    intro a b
    simp only [nearerLe, Bool.or_eq_true, decide_eq_true_eq]
    exact le_total _ _
  refine ⟨cut (nearerLe query) width points, ?_, ?_, ?_⟩
  · show (top (nearerLe query) width points ++ cut (nearerLe query) width points).Perm points
    rw [top_append_cut]
    exact List.mergeSort_perm points _
  · show ((points.mergeSort (nearerLe query)).take width).length = min width points.length
    rw [List.length_take, List.length_mergeSort]
  · have hsorted := List.pairwise_mergeSort htrans htotal points
    rw [← top_append_cut (n := width), List.pairwise_append] at hsorted
    exact fun near hnear far hfar => of_decide_eq_true (hsorted.2.2 near hnear far hfar)

/-- The embedding `[-1]`, with the scale one. -/
def oppositeBlob : Bytes := [0, 0, 128, 63, 255]

/-- The embedding `[1]`. -/
def alignedBlob : Bytes := [0, 0, 128, 63, 1]

theorem f32FromLeBytes_one : f32FromLeBytes [0, 0, 128, 63] = 1 := by
  have hbits : Nat.ofDigits 256 (([0, 0, 128, 63] : Bytes).map UInt8.toNat) = 1065353216 := by decide
  unfold f32FromLeBytes
  rw [hbits]
  norm_num

theorem dequantize_opposite : dequantizeInt8 ℝ oppositeBlob = [-1] := by
  have hbyte : i8OfByte 255 = -1 := by decide
  simp [dequantizeInt8, oppositeBlob, f32FromLeBytes_one, hbyte]

theorem dequantize_aligned : dequantizeInt8 ℝ alignedBlob = [1] := by
  have hbyte : i8OfByte 1 = 1 := by decide
  simp [dequantizeInt8, alignedBlob, f32FromLeBytes_one, hbyte]

theorem cosine_one (y : ℝ) (hy : y * y = 1) : cosine realSqrt [1] [y] = y := by
  have hnorm : ∀ z : ℝ, z * z = 1 → norm realSqrt [z] = 1 := by
    intro z hz
    have hsum : (([z] : List ℝ).map fun x => x * x).sum = 1 := by simp [hz]
    unfold norm
    rw [hsum]
    exact sqrt_one realSqrt
  unfold cosine
  rw [hnorm 1 (one_mul 1), hnorm y hy, if_neg (by simp [normEps_lt_one.le])]
  simp [dot]

theorem l2Normalize_one : l2Normalize realSqrt [1] = [1] := by
  have hnorm : norm realSqrt [1] = 1 := by
    unfold norm
    simpa using sqrt_one realSqrt
  unfold l2Normalize
  rw [hnorm, if_neg (not_lt.mpr normEps_lt_one.le)]
  simp

/-- A thousand rows that point away from the query. -/
@[irreducible] def crowdRows : List VectorRow := (List.range 1000).map fun i => ⟨(⟨i + 3⟩ : Uuid).toText, oppositeBlob, "v1"⟩

theorem exists_of_mem_crowd {r : VectorRow} (h : r ∈ crowdRows) : ∃ i, r = ⟨(⟨i + 3⟩ : Uuid).toText, oppositeBlob, "v1"⟩ := by
  unfold crowdRows at h
  obtain ⟨i, -, rfl⟩ := List.mem_map.mp h
  exact ⟨i, rfl⟩

theorem length_crowdRows : crowdRows.length = 1000 := by
  unfold crowdRows
  rw [List.length_map, List.length_range]

theorem crowdRows_keyed : (crowdRows.map VectorRow.key).Nodup := by
  unfold crowdRows
  rw [List.map_map]
  refine List.Nodup.map (fun i j h => ?_) List.nodup_range
  have hid : (⟨i + 3⟩ : Uuid).toText = (⟨j + 3⟩ : Uuid).toText := congrArg Prod.fst h
  have hval := congrArg Uuid.val (Uuid.toText_inj.mp hid)
  exact Nat.add_right_cancel hval

theorem fresh_free : (LocalStoreDb.fresh Message.oneConversation).skeletons.has Message.aliceSkeleton.messageId = false := by
  decide

theorem fresh_registered :
    (LocalStoreDb.fresh Message.oneConversation).conversations.has Message.aliceSkeleton.conversationId = true := by
  decide

/-- A store with one message of "alice", which has no vector yet. -/
def crowdDb : LocalStoreDb :=
  { (LocalStoreDb.fresh Message.oneConversation).addSkeleton Message.aliceSkeleton fresh_free fresh_registered with
    vectors := ⟨crowdRows, crowdRows_keyed⟩ }

/-- The nearest message of all conversations. -/
def nearestOfAll : SearchArgs ℝ := ⟨[1], none, 1, some "v1"⟩

/-- The slot of "alice"'s conversation. -/
def aliceKey : HnswCacheKey := ⟨some ⟨1⟩, some "v1"⟩

/-- The store after the vector of "alice"'s message is put. -/
def alignedDb : LocalStoreDb := crowdDb.putVector Message.aliceSkeleton.messageId.toText "v1" alignedBlob

theorem candidatesOf_crowd :
    candidatesOf crowdDb nearestOfAll.key = crowdRows.map fun r => (r.messageId.text, r.embedding) := by
  unfold candidatesOf fetchCandidates
  refine congrArg (List.map _) (List.filter_eq_self.mpr fun r hr => ?_)
  obtain ⟨i, rfl⟩ := exists_of_mem_crowd hr
  rfl

/-- Every candidate of the crowd decodes to the opposite vector. -/
theorem dequantize_crowd {c : String × Bytes} (hc : c ∈ candidatesOf crowdDb nearestOfAll.key) :
    dequantizeInt8 ℝ c.2 = [-1] := by
  rw [candidatesOf_crowd] at hc
  obtain ⟨r, hr, rfl⟩ := List.mem_map.mp hc
  obtain ⟨i, rfl⟩ := exists_of_mem_crowd hr
  exact dequantize_opposite

theorem length_crowd : (candidatesOf crowdDb nearestOfAll.key).length = 1000 := by
  rw [candidatesOf_crowd, List.length_map, length_crowdRows]

/-- A graph is built of the crowd. -/
theorem build_crowd : ∃ idx, HnswIndex.build realSqrt (decodedRows ℝ (candidatesOf crowdDb nearestOfAll.key)) = some idx := by
  have hrow : ∀ row ∈ decodedRows ℝ (candidatesOf crowdDb nearestOfAll.key), row.2 = [-1] := by
    intro row hrow
    obtain ⟨c, hc, hdecode⟩ := List.mem_filterMap.mp hrow
    rw [dequantize_crowd hc] at hdecode
    rw [← Option.some.inj hdecode]
  have hlen : (decodedRows ℝ (candidatesOf crowdDb nearestOfAll.key)).length = 1000 := by
    have hall : decodedRows ℝ (candidatesOf crowdDb nearestOfAll.key) =
        (candidatesOf crowdDb nearestOfAll.key).map fun c => (c.1, [-1]) := by
      unfold decodedRows
      rw [← List.filterMap_eq_map]
      refine List.filterMap_congr fun c hc => ?_
      rw [dequantize_crowd hc]
      rfl
    rw [hall, List.length_map, length_crowd]
  cases hrows : decodedRows ℝ (candidatesOf crowdDb nearestOfAll.key) with
  | nil =>
      rw [hrows] at hlen
      exact absurd hlen (by simp)
  | cons row rows =>
      have hfirst : row.2 = [-1] := hrow row (hrows ▸ List.mem_cons_self)
      exact ⟨_, if_neg (by rw [hfirst]; simp)⟩

/-- Nothing the crowd's graph finds points along the query. -/
theorem search_crowd {idx : HnswIndex ℝ}
    (hidx : HnswIndex.build realSqrt (decodedRows ℝ (candidatesOf crowdDb nearestOfAll.key)) = some idx)
    {m : CosineMatch ℝ} (hm : m ∈ idx.search realSqrt nearestFirst nearestOfAll.queryEmbedding nearestOfAll.limit) :
    m.similarity = -1 := by
  unfold HnswIndex.search at hm
  split_ifs at hm with hnothing
  · exact absurd hm (by simp)
  · obtain ⟨p, hp, rfl⟩ := List.mem_map.mp (mem_of_mem_top hm)
    have hpoint : p ∈ idx.points := mem_of_mem_top hp
    rw [(build_eq_some hidx).2] at hpoint
    obtain ⟨row, hrow, hpoint⟩ := List.mem_filterMap.mp hpoint
    obtain ⟨c, hc, hdecode⟩ := List.mem_filterMap.mp hrow
    rw [dequantize_crowd hc] at hdecode
    obtain rfl := Option.some.inj hdecode
    unfold indexPoint at hpoint
    split_ifs at hpoint with hdim
    obtain rfl := Option.some.inj hpoint
    show 1 - (1 - cosine realSqrt (l2Normalize realSqrt [1]) (l2Normalize realSqrt [-1])) = -1
    rw [cosine_l2Normalize, l2Normalize_one, cosine_one (-1) (by norm_num)]
    norm_num

/-- The new vector is a candidate of the scan. -/
theorem aligned_candidate :
    (Message.aliceSkeleton.messageId.toText.text, alignedBlob) ∈ candidatesOf alignedDb nearestOfAll.key := by
  have hfree : ∀ r ∈ crowdDb.vectors.rows, VectorRow.key r ≠ (Message.aliceSkeleton.messageId.toText, "v1") := by
    intro r hr h
    obtain ⟨i, rfl⟩ := exists_of_mem_crowd hr
    have hid : (⟨i + 3⟩ : Uuid).toText = Message.aliceSkeleton.messageId.toText := congrArg Prod.fst h
    have hval : i + 3 = 2 := congrArg Uuid.val (Uuid.toText_inj.mp hid)
    omega
  refine List.mem_map.mpr ⟨⟨Message.aliceSkeleton.messageId.toText, alignedBlob, "v1"⟩, List.mem_filter.mpr ⟨?_, rfl⟩, rfl⟩
  refine Table.mem_insertOrIgnore.mpr (Or.inr ⟨rfl, ?_⟩)
  exact (Table.has_update _ _ _ _ _).trans (Table.has_eq_false.mpr hfree)

/-- The scan's answer points along the query. -/
theorem scan_aligned : ∃ m ∈ searchSemantic realSqrt alignedDb nearestOfAll, 1 ≤ m.similarity := by
  have hnew : (⟨Message.aliceSkeleton.messageId.toText.text, 1⟩ : CosineMatch ℝ) ∈
      (candidatesOf alignedDb nearestOfAll.key).filterMap (scored realSqrt [1]) := by
    refine List.mem_filterMap.mpr ⟨_, aligned_candidate, ?_⟩
    have hcosine := cosine_one 1 (one_mul 1)
    simp [scored, dequantize_aligned, l2Normalize_one, hcosine]
  obtain ⟨m, hm, hle⟩ := exists_mem_top_le (n := 1) cosineLe_trans cosineLe_total Nat.one_pos hnew
  refine ⟨m, ?_, similarity_le_of_cosineLe hle⟩
  rw [searchSemantic_of_asks (by decide) (by simp [nearestOfAll])]
  exact hm

/-- No call yet. -/
def crowdState : AutoState ℝ := ⟨crowdDb, fun _ => none, [], fun _ => .idle⟩

theorem crowdState_initial : Initial crowdState := ⟨fun _ => rfl, rfl, fun _ => rfl⟩

/-- After one call of the nearest of all, which missed. -/
noncomputable def cachedState : AutoState ℝ :=
  (((crowdState.lookup realSqrt nearestFirst 0 nearestOfAll).fetch 0 nearestOfAll).finish realSqrt nearestFirst 0 nearestOfAll
    (candidatesOf crowdDb nearestOfAll.key))

/-- After the vector of "alice" is put and its slot is invalidated. -/
noncomputable def staleState : AutoState ℝ := (cachedState.write alignedDb aliceKey).invalidate aliceKey

theorem nearestOfAll_asks : nearestOfAll.limit ≠ 0 ∧ nearestOfAll.queryEmbedding ≠ [] :=
  ⟨by decide, List.cons_ne_nil _ _⟩

theorem cachedState_run : ∃ tr, Run (AutoStep realSqrt nearestFirst) crowdState tr cachedState := by
  have hlookup : AutoStep realSqrt nearestFirst crowdState (.lookup 0 nearestOfAll)
      (crowdState.lookup realSqrt nearestFirst 0 nearestOfAll) := ⟨rfl, rfl⟩
  have hfetch : AutoStep realSqrt nearestFirst (crowdState.lookup realSqrt nearestFirst 0 nearestOfAll) (.fetch 0)
      ((crowdState.lookup realSqrt nearestFirst 0 nearestOfAll).fetch 0 nearestOfAll) :=
    ⟨nearestOfAll, calls_lookup_miss nearestOfAll_asks.1 nearestOfAll_asks.2 rfl 0, rfl⟩
  have hfinish : AutoStep realSqrt nearestFirst
      ((crowdState.lookup realSqrt nearestFirst 0 nearestOfAll).fetch 0 nearestOfAll) (.finish 0) cachedState :=
    ⟨nearestOfAll, candidatesOf crowdDb nearestOfAll.key, calls_fetch 0, rfl⟩
  exact ⟨_, ((Run.single hlookup).trans (Run.single hfetch)).trans (Run.single hfinish)⟩

/-- The graph of all conversations is cached. -/
theorem cachedState_cache {idx : HnswIndex ℝ}
    (hidx : HnswIndex.build realSqrt (decodedRows ℝ (candidatesOf crowdDb nearestOfAll.key)) = some idx) :
    cachedState.cache nearestOfAll.key = some idx := by
  refine cache_finish ?_ 0
  unfold answerMiss
  rw [if_neg (by rw [length_crowd]; decide), hidx]

/-- **A graph of all conversations outlives a write**: its slot is not the one that is invalidated, and the call that starts
afterwards misses the new vector. -/
theorem searchSemanticAuto_stale : ∃ (s₁ s₂ : AutoState ℝ) (tr tr' : List (AutoState ℝ × AutoAction ℝ))
    (hits : List (CosineMatch ℝ)), ExactNearest realSqrt nearestFirst ∧ Initial crowdState ∧
      Run (AutoStep realSqrt nearestFirst) crowdState tr s₁ ∧ s₁.owed = [] ∧ s₁.calls 1 = .idle ∧
        Run (AutoStep realSqrt nearestFirst) s₁ tr' s₂ ∧ tr'.map Prod.snd = [.lookup 1 nearestOfAll] ∧
          s₂.calls 1 = .done nearestOfAll hits ∧ hits ≠ searchSemantic realSqrt s₂.db nearestOfAll := by
  obtain ⟨tr, hrun⟩ := cachedState_run
  obtain ⟨idx, hidx⟩ := build_crowd
  have hput : AutoStep realSqrt nearestFirst cachedState (.put Message.aliceSkeleton.messageId.toText "v1" alignedBlob)
      (cachedState.write alignedDb aliceKey) := ⟨aliceKey, rfl, rfl⟩
  have hinvalidate : AutoStep realSqrt nearestFirst (cachedState.write alignedDb aliceKey) (.invalidate aliceKey) staleState :=
    ⟨List.mem_cons_self, rfl⟩
  have hlookup : AutoStep realSqrt nearestFirst staleState (.lookup 1 nearestOfAll)
      (staleState.lookup realSqrt nearestFirst 1 nearestOfAll) := ⟨rfl, rfl⟩
  -- the invalidation hits the key of the conversation, not that of all
  have hcache : staleState.cache nearestOfAll.key = some idx := by
    have hother : nearestOfAll.key ≠ aliceKey := by decide
    exact (cache_invalidate_of_ne hother).trans (cachedState_cache hidx)
  have howed : staleState.owed = [] := List.erase_cons_head aliceKey []
  refine ⟨staleState, staleState.lookup realSqrt nearestFirst 1 nearestOfAll, _, _,
    idx.search realSqrt nearestFirst nearestOfAll.queryEmbedding nearestOfAll.limit, nearestFirst_exact, crowdState_initial,
    (hrun.trans (Run.single hput)).trans (Run.single hinvalidate), howed, rfl, Run.single hlookup, rfl,
    calls_lookup_hit nearestOfAll_asks.1 nearestOfAll_asks.2 hcache 1, fun hsame => ?_⟩
  obtain ⟨m, hm, hle⟩ := scan_aligned
  have hmem : m ∈ idx.search realSqrt nearestFirst nearestOfAll.queryEmbedding nearestOfAll.limit := hsame ▸ hm
  rw [search_crowd hidx hmem] at hle
  norm_num at hle

/-- A store without vectors, and no call yet. -/
def quietState : AutoState ℝ :=
  ⟨(LocalStoreDb.fresh Message.oneConversation).addSkeleton Message.aliceSkeleton fresh_free fresh_registered, fun _ => none, [],
    fun _ => .idle⟩

/-- After the vector of "alice" is put and its slot is invalidated. -/
def writtenState : AutoState ℝ :=
  (quietState.write (quietState.db.putVector Message.aliceSkeleton.messageId.toText "v1" alignedBlob) aliceKey).invalidate aliceKey

theorem length_written : (candidatesOf writtenState.db nearestOfAll.key).length < hnswFallbackThreshold := by
  have hone : writtenState.db.vectors.rows.length < hnswFallbackThreshold := by decide
  unfold candidatesOf
  rw [List.length_map]
  exact (List.length_filter_le _ _).trans_lt hone

/-- A call of few candidates, after the write. -/
theorem searchSemanticAuto_agrees_written :
    (answerMiss realSqrt nearestFirst nearestOfAll (candidatesOf writtenState.db nearestOfAll.key)).1 =
      searchSemantic realSqrt writtenState.db nearestOfAll := by
  have hput : AutoStep realSqrt nearestFirst quietState (.put Message.aliceSkeleton.messageId.toText "v1" alignedBlob)
      (quietState.write (quietState.db.putVector Message.aliceSkeleton.messageId.toText "v1" alignedBlob) aliceKey) :=
    ⟨aliceKey, rfl, rfl⟩
  have hinvalidate : AutoStep realSqrt nearestFirst
      (quietState.write (quietState.db.putVector Message.aliceSkeleton.messageId.toText "v1" alignedBlob) aliceKey)
      (.invalidate aliceKey) writtenState := ⟨List.mem_cons_self, rfl⟩
  have hlookup : AutoStep realSqrt nearestFirst writtenState (.lookup 0 nearestOfAll)
      (writtenState.lookup realSqrt nearestFirst 0 nearestOfAll) := ⟨rfl, rfl⟩
  have hmissed : (writtenState.lookup realSqrt nearestFirst 0 nearestOfAll).calls 0 = .missed nearestOfAll :=
    calls_lookup_miss nearestOfAll_asks.1 nearestOfAll_asks.2 rfl 0
  have hfetch : AutoStep realSqrt nearestFirst (writtenState.lookup realSqrt nearestFirst 0 nearestOfAll) (.fetch 0)
      ((writtenState.lookup realSqrt nearestFirst 0 nearestOfAll).fetch 0 nearestOfAll) := ⟨nearestOfAll, hmissed, rfl⟩
  have hfinish : AutoStep realSqrt nearestFirst
      ((writtenState.lookup realSqrt nearestFirst 0 nearestOfAll).fetch 0 nearestOfAll) (.finish 0)
      (((writtenState.lookup realSqrt nearestFirst 0 nearestOfAll).fetch 0 nearestOfAll).finish realSqrt nearestFirst 0
        nearestOfAll (candidatesOf writtenState.db nearestOfAll.key)) :=
    ⟨nearestOfAll, candidatesOf writtenState.db nearestOfAll.key, calls_fetch 0, rfl⟩
  have hinit : Initial quietState := ⟨fun _ => rfl, rfl, fun _ => rfl⟩
  have hidle : writtenState.calls 0 = .idle := rfl
  -- two writes before the call, which looks up, fetches and finishes
  refine searchSemanticAuto_agrees nearestFirst_exact hinit ((Run.single hput).trans (Run.single hinvalidate))
    (((Run.single hlookup).trans (Run.single hfetch)).trans (Run.single hfinish)) ?_ ?_ hidle ?_ (calls_finish 0 _)
  · intro p hp
    fin_cases hp
    · exact fun key h => absurd rfl h
    · trivial
    · trivial
    · trivial
    · intro args raw hcall hlen
      obtain ⟨rfl, rfl⟩ := CallState.fetched.inj ((calls_fetch 0).symm.trans hcall)
      exact Or.inr rfl
  · intro p hp
    fin_cases hp <;> rfl
  · intro p hp args h
    fin_cases hp
    · obtain ⟨-, rfl⟩ := AutoAction.lookup.inj h
      exact ⟨List.not_mem_nil, fun hlen => absurd length_written (not_lt.mpr hlen)⟩
    · exact absurd h (by simp)
    · exact absurd h (by simp)

end KChatCore.Search.SemanticEngine
