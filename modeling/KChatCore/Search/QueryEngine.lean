import KChatCore.Archive.Rehydration
import KChatCore.Message.Media
import KChatCore.Search.Engines

/-!
# `Search.QueryEngine` — one query over the local indexes

A query without text scans the skeletons. A query with text merges the hits of FTS5 and of the fuzzy index by row id,
weighs them and orders them; the semantic variant stacks the vector hits on top.

Filters are clauses on skeletons. The hits of an index are filtered by id: `allowedSkeletonIds` are the candidates whose
skeleton meets all clauses, and there is no such set where the query has no clause.

The target of a query is resolved to a set of conversations each time the clauses are built. The lookup of conversations
behind that may fail; `LookupPass` tells the first one of a search from the one after the local pass.
-/

namespace KChatCore.Search

open Lib LocalStore

/-! ## Queries -/

/-- `ContentKind`. -/
inductive ContentKind
  | any
  | text
  | image
  | video
  | audio
  | document
deriving DecidableEq, Repr

/-- `content_kind_to_sql`. -/
def contentKindToSql : ContentKind → Option String
  | .text => some "text"
  | .image | .video | .audio | .document => some "media"
  | .any => none

/-- `SearchTarget`. -/
inductive SearchTarget
  | conversation (c : Uuid)
  | conversationGroup (group : List Uuid)
  | channel (channelId : Uuid)
  | community (community : Uuid)
  | domain (domain : Uuid)
  | tenant (tenant : String)
  | b2cAll
  | starred
  | unread
  | global
deriving DecidableEq, Repr

/-- `SearchQuery`. -/
structure SearchQuery where
  queryString : String
  senderFilter : Option String
  conversationFilter : Option Uuid
  dateFrom : Option Int
  dateTo : Option Int
  contentKind : Option ContentKind
  target : SearchTarget
deriving DecidableEq, Repr

/-- `SearchQuery::effective_target`. -/
def SearchQuery.effectiveTarget (query : SearchQuery) : SearchTarget :=
  if query.target = .global then
    match query.conversationFilter with
    | some c => .conversation c
    | none => query.target
  else query.target

/-- `SearchScope`. -/
inductive SearchScope
  | localOnly
  | includeCold
deriving DecidableEq, Repr

/-- `SearchResult`, with its snippet and scores. -/
structure RankedResult extends Archive.SearchResult where
  snippet : Option String
  rankScore : Rat
  semanticScore : Option Rat
deriving DecidableEq

/-- The message a result names, and what it says of it. -/
structure Named where
  messageId : Uuid
  conversationId : Uuid
  senderId : String
  createdAtMs : Int
deriving DecidableEq, Repr

/-- What a result says of its message. -/
def RankedResult.named (r : RankedResult) : Named := ⟨r.messageId, r.conversationId, r.senderId, r.createdAtMs⟩

/-- What a result says of the message of a skeleton. -/
def named (skel : MessageSkeleton) : Named := ⟨skel.messageId, skel.conversationId, skel.senderId, skel.createdAtMs⟩

/-- `SearchError`; a conversion into it keeps the error it wraps. -/
inductive SearchError
  | sqlite (e : DbError)
  | custom (msg : String)
  | source (e : Error)
deriving DecidableEq, Repr

/-! ## The target of a query -/

/-- Which lookup of a search it is: that of the local pass, or a later one. -/
inductive LookupPass
  | first
  | later
deriving DecidableEq, Repr

/-- **A connection**: the store it reads, what its lookups of conversations fail with, and the order in which its hash
maps give out their entries. -/
structure QueryEngine where
  db : LocalStoreDb
  lookupFault : LookupPass → Option DbError
  /-- `HashMap::into_values`, given the entries in the order of their insertion. -/
  intoValues : List RankedResult → List RankedResult
  intoValues_perm : ∀ results, (intoValues results).Perm results

/-- `ConversationFilterColumn`, as the column it names. -/
inductive ConversationFilterColumn
  | community
  | domain
  | tenant
  | scope
deriving DecidableEq, Repr

/-- The value of a column. -/
def ConversationFilterColumn.value : ConversationFilterColumn → Conversation → String
  | community => Conversation.communityId
  | domain => Conversation.domainId
  | tenant => Conversation.tenantId
  | scope => Conversation.scope

/-- `ConversationGroupResolver`. -/
structure ConversationGroupResolver where
  resolveChannel : Uuid → Except Error (List IdText)
  resolveStarred : Except Error (List IdText)
  resolveUnread : Except Error (List IdText)

/-- `NoopConversationGroupResolver`. -/
def noopConversationGroupResolver : ConversationGroupResolver where
  resolveChannel channelId := .ok [channelId.toText]
  resolveStarred := .ok []
  resolveUnread := .ok []

namespace QueryEngine

/-- `read_list_conversations_by_column`. -/
def readListConversationsByColumn (e : QueryEngine) (pass : LookupPass) (column : ConversationFilterColumn) (value : String) :
    Except DbError (List Conversation) :=
  match e.lookupFault pass with
  | some fault => .error fault
  | none => .ok (e.db.conversations.rows.filter fun c => column.value c = value)

/-- The conversations of a column, as the set a target resolves to. -/
def conversationSet (e : QueryEngine) (pass : LookupPass) (column : ConversationFilterColumn) (value context : String) :
    Except SearchError (Option (List IdText)) :=
  match e.readListConversationsByColumn pass column value with
  | .error fault => .error (.custom (context ++ ": " ++ fault.display))
  | .ok convs => .ok (some (convs.map fun c => c.conversationId.toText))

/-- `resolve_target_to_conversation_set_with_resolver`. -/
def resolveTargetToConversationSetWithResolver (e : QueryEngine) (pass : LookupPass) (resolver : ConversationGroupResolver) :
    SearchTarget → Except SearchError (Option (List IdText))
  | .global => .ok none
  | .conversation c => .ok (some [c.toText])
  | .conversationGroup group => .ok (some (group.map Uuid.toText))
  | .channel channelId => ((resolver.resolveChannel channelId).mapError .source).map some
  | .community community => e.conversationSet pass .community community.hyphenated "list community convs"
  | .domain domain => e.conversationSet pass .domain domain.hyphenated "list domain convs"
  | .tenant tenant => e.conversationSet pass .tenant tenant "list tenant convs"
  | .b2cAll => e.conversationSet pass .scope "b2c" "list b2c convs"
  | .starred => (resolver.resolveStarred.mapError .source).map some
  | .unread => (resolver.resolveUnread.mapError .source).map some

/-- `resolve_target_to_conversation_set`. -/
def resolveTargetToConversationSet (e : QueryEngine) (pass : LookupPass) (target : SearchTarget) :
    Except SearchError (Option (List IdText)) :=
  e.resolveTargetToConversationSetWithResolver pass noopConversationGroupResolver target

end QueryEngine

/-! ## Clauses -/

/-- A clause of a `WHERE`. -/
abbrev Clause := MessageSkeleton → Bool

/-- `push_structured_filters`. -/
def structuredFilters (query : SearchQuery) : List Clause :=
  (query.senderFilter.toList.map fun sender skel => decide (skel.senderId = sender)) ++
    (query.conversationFilter.toList.map fun conv skel => decide (skel.conversationId = conv)) ++
    (query.dateFrom.toList.map fun dateFrom skel => decide (dateFrom ≤ skel.createdAtMs)) ++
    (query.dateTo.toList.map fun dateTo skel => decide (skel.createdAtMs ≤ dateTo)) ++
    ((query.contentKind.bind contentKindToSql).toList.map fun kind skel => decide (skel.kind.asStr = kind))

namespace QueryEngine

/-- `push_target_filter`: a target that cannot be resolved, or resolves to nothing, selects no row. -/
def targetFilter (e : QueryEngine) (pass : LookupPass) (target : SearchTarget) : List Clause :=
  if target = .global then []
  else
    match e.resolveTargetToConversationSet pass target with
    | .error _ => [fun _ => false]
    | .ok none => []
    | .ok (some set) => if set.isEmpty then [fun _ => false] else [fun skel => decide (skel.conversationId.toText ∈ set)]

/-- The clauses of a query. -/
def clauses (e : QueryEngine) (pass : LookupPass) (query : SearchQuery) : List Clause :=
  structuredFilters query ++ e.targetFilter pass query.effectiveTarget

/-- A skeleton meets all clauses of a query. -/
def admits (e : QueryEngine) (pass : LookupPass) (query : SearchQuery) (skel : MessageSkeleton) : Bool :=
  (e.clauses pass query).all fun clause => clause skel

/-- `allowed_skeleton_ids`. -/
def allowedSkeletonIds (e : QueryEngine) (pass : LookupPass) (query : SearchQuery) (candidates : List IdText) :
    Option (List IdText) :=
  if (e.clauses pass query).isEmpty then none
  else if candidates.isEmpty then some []
  else some ((e.db.skeletons.rows.filter fun skel =>
    e.admits pass query skel && decide (skel.messageId.toText ∈ candidates)).map fun skel => skel.messageId.toText)

/-- `fetch_skeleton_basic_info`, and its twin for vector hits. -/
def fetchSkeletonBasicInfo (e : QueryEngine) (ids : List IdText) (id : IdText) : Option MessageSkeleton :=
  if id ∈ ids then e.db.skeletonOf id else none

end QueryEngine

/-- An id passes where there is no set, or it is in it. -/
def isAllowed (allowed : Option (List IdText)) (id : IdText) : Bool :=
  match allowed with
  | none => true
  | some ids => decide (id ∈ ids)

/-! ## Ranking -/

/-- `BM25_WEIGHT`. -/
def bm25Weight : Rat := 2

/-- `FUZZY_WEIGHT`. -/
def fuzzyWeight : Rat := 1

/-- `SEMANTIC_WEIGHT`. -/
def semanticWeight : Rat := 3 / 2

/-- `RECENCY_WEIGHT`. -/
def recencyWeight : Rat := 1 / 2

/-- `TEXT_KIND_WEIGHT`. -/
def textKindWeight : Rat := 1

/-- `MEDIA_KIND_WEIGHT`. -/
def mediaKindWeight : Rat := 4 / 5

/-- `kind_str_to_weight`. -/
def kindStrToWeight (kind : String) : Rat :=
  if kind = "text" then textKindWeight else if kind = "media" then mediaKindWeight else textKindWeight

/-- The recency factor of an age. -/
def recencyFactor (E : SearchPlatform) (ageMs : Int) : Rat :=
  (1 - recencyWeight) + recencyWeight * E.recencyScore (max ageMs 0)

/-- The newest of some timestamps, or 0. -/
def newest (timestamps : List Int) : Int := timestamps.max?.getD 0

theorem newest_perm {l l' : List Int} (h : l.Perm l') : newest l = newest l' := by
  have hmax : l.max? = l'.max? := by
    apply Option.ext
    intro t
    rw [List.max?_eq_some_iff, List.max?_eq_some_iff]
    exact and_congr h.mem_iff (forall_congr' fun b => imp_congr_left h.mem_iff)
  unfold newest
  rw [hmax]

/-- The order of results: score, then age, then id. -/
def resultLe (a b : RankedResult) : Bool :=
  b.rankScore < a.rankScore || (a.rankScore = b.rankScore &&
    (b.createdAtMs < a.createdAtMs || (a.createdAtMs = b.createdAtMs && a.messageId.val ≤ b.messageId.val)))

namespace QueryEngine

/-- The content-kind weight of a message. -/
def kindWeight (e : QueryEngine) (m : Uuid) : Rat :=
  ((e.db.skeletons.find? m).map fun skel => kindStrToWeight skel.kind.asStr).getD textKindWeight

/-- The weight of a message among results the newest of which is of `nowMs`. -/
def messageWeight (e : QueryEngine) (E : SearchPlatform) (nowMs : Int) (m : Uuid) (createdAtMs : Int) : Rat :=
  recencyFactor E (nowMs - createdAtMs) * e.kindWeight m

/-- `apply_recency_and_kind_weight`. -/
def applyRecencyAndKindWeight (e : QueryEngine) (E : SearchPlatform) (results : List RankedResult) : List RankedResult :=
  let nowMs := newest (results.map fun r => r.createdAtMs)
  results.map fun r => { r with rankScore := r.rankScore * e.messageWeight E nowMs r.messageId r.createdAtMs }

/-- One result of `mark_cold_results`. -/
def markCold (e : QueryEngine) (r : RankedResult) : RankedResult :=
  if (e.db.skeletons.find? r.messageId).map MessageSkeleton.bodyState = some .remoteArchiveOnly then
    { r with isCold := true }
  else r

/-- `mark_cold_results`, where the scope asks for it. -/
def markColdResults (e : QueryEngine) (scope : SearchScope) (results : List RankedResult) : List RankedResult :=
  if scope = .includeCold then results.map e.markCold else results

/-! ## Without text -/

/-- The result of a skeleton. -/
def skeletonResult (skel : MessageSkeleton) (rankScore : Rat) (semanticScore : Option Rat) : RankedResult where
  messageId := skel.messageId
  conversationId := skel.conversationId
  senderId := skel.senderId
  createdAtMs := skel.createdAtMs
  isCold := false
  snippet := none
  rankScore := rankScore
  semanticScore := semanticScore

/-- `execute_structured_only`. -/
def executeStructuredOnly (e : QueryEngine) (query : SearchQuery) (limit : Nat) : List RankedResult :=
  (top (fun a b => decide (b.createdAtMs ≤ a.createdAtMs)) limit
    (e.db.skeletons.rows.filter fun skel => e.admits .first query skel)).map fun skel => skeletonResult skel 0 none

/-! ## With text -/

/-- `Uuid::parse_str(id).unwrap_or(Uuid::nil())`. -/
def uuidOrNil (id : IdText) : Uuid := (Uuid.parseStr id).getD Uuid.nil

/-- The result of a text match. -/
def ftsResult (hit : FtsMatch) : RankedResult where
  messageId := uuidOrNil hit.messageId
  conversationId := hit.conversationId
  senderId := hit.senderId
  createdAtMs := hit.createdAtMs
  isCold := false
  snippet := some hit.snippet
  rankScore := -hit.bm25Score * bm25Weight
  semanticScore := none

/-- A fuzzy hit on a result that is there. -/
def addFuzzy (r : RankedResult) (hit : FuzzyMatch) : RankedResult :=
  { r with rankScore := r.rankScore + hit.score * fuzzyWeight }

/-- The text hits, by row id. -/
def textById (allowed : Option (List IdText)) (ftsHits : List FtsMatch) : AList fun _ : IdText => RankedResult :=
  insertHits FtsMatch.messageId ftsResult ∅ (ftsHits.filter fun hit => isAllowed allowed hit.messageId)

/-- The ids only the fuzzy index has. -/
def fuzzyOnlyIds (byId : AList fun _ : IdText => RankedResult) (fuzzyHits : List FuzzyMatch) : List IdText :=
  (fuzzyHits.filter fun hit => (byId.lookup hit.messageId).isNone).map FuzzyMatch.messageId

/-- The result of a fuzzy hit alone, where there is a skeleton for it. -/
def fuzzyResult (e : QueryEngine) (fuzzyOnlyIds : List IdText) (hit : FuzzyMatch) : Option RankedResult :=
  (e.fetchSkeletonBasicInfo fuzzyOnlyIds hit.messageId).map fun skel => skeletonResult skel (hit.score * fuzzyWeight) none

/-- The text and the fuzzy hits, by row id. -/
def mergeTextHits (e : QueryEngine) (allowed : Option (List IdText)) (ftsHits : List FtsMatch) (fuzzyHits : List FuzzyMatch) :
    AList fun _ : IdText => RankedResult :=
  let byId := textById allowed ftsHits
  (fuzzyHits.filter fun hit => isAllowed allowed hit.messageId).foldl
    (mergeHit FuzzyMatch.messageId (e.fuzzyResult (fuzzyOnlyIds byId fuzzyHits)) addFuzzy) byId

/-- `execute_fts_and_fuzzy_with_filters`. -/
def executeFtsAndFuzzyWithFilters (e : QueryEngine) (E : SearchPlatform) (query : SearchQuery) (queryString : String)
    (limit : Nat) : Except SearchError (List RankedResult) := do
  let fetch := max (limit * 4) limit
  let ftsHits ← (searchFts E e.db queryString fetch).mapError .sqlite
  let fuzzyHits := searchFuzzy E e.db queryString fetch
  if ftsHits.isEmpty && fuzzyHits.isEmpty then return []
  let candidates := ftsHits.map FtsMatch.messageId ++ fuzzyHits.map FuzzyMatch.messageId
  let byId := e.mergeTextHits (e.allowedSkeletonIds .first query candidates) ftsHits fuzzyHits
  return top resultLe limit (e.applyRecencyAndKindWeight E (e.intoValues (values byId)))

/-- `execute_search_with_limit`. -/
def executeSearchWithLimit (e : QueryEngine) (E : SearchPlatform) (query : SearchQuery) (scope : SearchScope) (limit : Nat) :
    Except SearchError (List RankedResult) := do
  let trimmed := trim query.queryString
  let out ← if trimmed.isEmpty then .ok (e.executeStructuredOnly query limit)
    else e.executeFtsAndFuzzyWithFilters E query trimmed limit
  return e.markColdResults scope out

/-- `execute_search_with_target`. -/
def executeSearchWithTarget (e : QueryEngine) (E : SearchPlatform) (query : SearchQuery) (scope : SearchScope)
    (target : SearchTarget) (resolver : ConversationGroupResolver) (limit : Nat) : Except SearchError (List RankedResult) := do
  let resolved ← e.resolveTargetToConversationSetWithResolver .first resolver target
  let narrowed := match resolved with
    | none => SearchTarget.global
    | some set => .conversationGroup (set.filterMap Uuid.parseStr)
  e.executeSearchWithLimit E { query with target := narrowed } scope limit

/-! ## With vectors -/

/-- Where each message is among the results. -/
def indexById (results : List RankedResult) : AList fun _ : IdText => Nat :=
  insertHits (fun r => r.1.messageId.toText) Prod.snd ∅ results.zipIdx

/-- The vector contribution to a result that is there. -/
def addSimilarity (similarity : Rat) (r : RankedResult) : RankedResult :=
  { r with
    rankScore := r.rankScore + similarity * semanticWeight
    semanticScore := some similarity }

/-- One vector hit: on a result that is there, or a new one where there is a skeleton for it. -/
def addSemanticHit (e : QueryEngine) (E : SearchPlatform) (byId : AList fun _ : IdText => Nat)
    (skeletons : IdText → Option MessageSkeleton) (nowMs : Int) (results : List RankedResult) (hit : SemanticMatch) :
    List RankedResult :=
  match byId.lookup hit.messageId with
  | some i => results.modify i (addSimilarity hit.similarity)
  | none =>
      match skeletons hit.messageId with
      | none => results
      | some skel =>
          let weighted := hit.similarity * semanticWeight * e.messageWeight E nowMs skel.messageId skel.createdAtMs
          results ++ [skeletonResult skel weighted (some hit.similarity)]

/-- The merge of vector hits into the local results. -/
def mergeSemanticHits (e : QueryEngine) (E : SearchPlatform) (query : SearchQuery) (found : List RankedResult)
    (hits : List SemanticMatch) : List RankedResult :=
  let byId := indexById found
  let newIds := (hits.filter fun hit => (byId.lookup hit.messageId).isNone).map SemanticMatch.messageId
  let newIds := newIds.filter (isAllowed (e.allowedSkeletonIds .later query newIds))
  let skeletons := e.fetchSkeletonBasicInfo newIds
  let nowMs := newest ((found.map fun r => r.createdAtMs) ++ (newIds.filterMap skeletons).map MessageSkeleton.createdAtMs)
  hits.foldl (e.addSemanticHit E byId skeletons nowMs) found

/-- `execute_search_with_semantic`. -/
def executeSearchWithSemantic (e : QueryEngine) (E : SearchPlatform) (query : SearchQuery) (scope : SearchScope)
    (embed : String → Except Error (List Rat)) (modelVersion : Option String) (limit : Nat) :
    Except SearchError (List RankedResult) := do
  let found ← e.executeSearchWithLimit E query scope limit
  let trimmed := trim query.queryString
  if trimmed.isEmpty then return found
  match embed trimmed with
  | .error _ => return found
  | .ok embedding =>
      let version := modelVersion.getD Message.xlmrModelVersion
      let hits := searchSemantic E e.db embedding query.conversationFilter (max limit 1) (some version)
      if hits.isEmpty then return found
      return e.markColdResults scope (top resultLe limit (e.mergeSemanticHits E query found hits))

end QueryEngine

end KChatCore.Search
