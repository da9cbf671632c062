import KChatCore.Search.QueryEngine
import KChatCore.Search.ShardCache

/-!
# `Search.ColdSearch` — a search that goes on in the archive

A search of scope `IncludeCold` reads, after the local pass, the text and fuzzy shards of the buckets whose bodies are
offloaded. The rows of a shard are matched in memory, and what matches is merged into the local results by message id.

There are three such searches. They choose the same buckets and match the same rows; they differ in what a failing fetch
does, in how they fetch (the parallel one is in `Search.ParallelFetch`), and in that the streaming one reports each
bucket. Each passes the cache of shards on.
-/

namespace KChatCore.Search

open Lib LocalStore

/-- `TenantSearchPolicy`. -/
structure TenantSearchPolicy where
  allowGlobalSearch : Bool
  allowCrossTenantResults : Bool
  maxColdBucketsPerSearch : Nat
  requireBloomShards : Bool
deriving DecidableEq, Repr

/-- `TenantSearchPolicy::default`. -/
def TenantSearchPolicy.default : TenantSearchPolicy := ⟨true, false, 50, false⟩

/-! ## Which buckets are read -/

/-- `days_from_civil`. -/
def daysFromCivil (y : Int) (m d : Nat) : Int :=
  let y := if m ≤ 2 then y - 1 else y
  let era := if 0 ≤ y then y.tdiv 400 else (y - 399).tdiv 400
  let yoe := y - era * 400
  let doy := (153 * ((m : Int) + if 2 < m then -3 else 9) + 2).tdiv 5 + d - 1
  let doe := yoe * 365 + yoe.tdiv 4 - yoe.tdiv 100 + doy
  era * 146097 + doe - 719468

/-- `str::parse` of an unsigned number: a sign may stand before the digits. -/
def parseUnsigned (s : List Char) : Option Nat :=
  let digits := if s.head? = some '+' then s.tail else s
  if digits.isEmpty || !digits.all Char.isDigit then none
  else some (digits.foldl (fun n c => n * 10 + (c.toNat - 48)) 0)

/-- `parse_bucket_range_ms`: from the first millisecond of the month to the first after it. -/
def parseBucketRangeMs (bucket : String) : Option (Int × Int) :=
  let yearStr := bucket.toList.takeWhile fun c => c ≠ '-'
  match bucket.toList.dropWhile fun c => c ≠ '-' with
  | [] => none
  | _ :: monthStr =>
      if yearStr.length ≠ 4 || monthStr.length ≠ 2 then none
      else
        match parseUnsigned yearStr, parseUnsigned monthStr with
        | some year, some month =>
            if month < 1 || 12 < month then none
            else
              let next := if month = 12 then (year + 1, 1) else (year, month + 1)
              some (daysFromCivil year month 1 * 86400000, daysFromCivil next.1 next.2 1 * 86400000)
        | _, _ => none

example : parseBucketRangeMs "2026-12" = some (1796083200000, 1798761600000) := by decide +kernel

/-- `bucket_overlaps_date_range`: a bucket that names no month is read. -/
def bucketOverlapsDateRange (bucket : String) (dateFrom dateTo : Option Int) : Bool :=
  match parseBucketRangeMs bucket with
  | none => true
  | some (startMs, endMsExclusive) =>
      dateTo.all (fun dateTo => decide (startMs ≤ dateTo)) && dateFrom.all fun dateFrom => decide (dateFrom < endMsExclusive)

/-- The kinds of content that have no cold shards. -/
def kindBlocksCold (query : SearchQuery) : Bool :=
  match query.contentKind with
  | some .image | some .video | some .audio | some .document => true
  | _ => false

/-- The searches that do not ask the cold source. -/
def staysLocal (query : SearchQuery) (scope : SearchScope) (policy : TenantSearchPolicy) : Bool :=
  scope ≠ .includeCold || (trim query.queryString).isEmpty || kindBlocksCold query ||
    (query.effectiveTarget = .global && !policy.allowGlobalSearch)

namespace QueryEngine

/-- The conversations the target restricts the buckets to; a target that cannot be resolved restricts nothing. -/
def coldTargetSet (e : QueryEngine) (query : SearchQuery) : Option (List IdText) :=
  match e.resolveTargetToConversationSet .later query.effectiveTarget with
  | .ok set => set
  | .error _ => none

/-- A bucket survives the filters of the query. -/
def bucketInScope (e : QueryEngine) (query : SearchQuery) (bucket : IdText × String) : Bool :=
  (query.conversationFilter.all fun conv => decide (conv.toText = bucket.1)) &&
    isAllowed (e.coldTargetSet query) bucket.1 &&
    bucketOverlapsDateRange bucket.2 query.dateFrom query.dateTo

end QueryEngine

/-! ## What matches in a bucket -/

/-- `lowercase_word_set`. -/
def lowercaseWordSet (E : SearchPlatform) (query : String) : List String :=
  let raws := (query.toList.splitOnP fun c => isWhitespace c || isAsciiPunctuation c).filter fun raw => !raw.isEmpty
  (((raws.map fun raw => raw.flatMap E.toLowercase).filter fun lower => !lower.isEmpty).map String.ofList).eraseDups

/-- `sender_filter_matches`. -/
def senderFilterMatches (query : SearchQuery) (senderId : String) : Bool :=
  query.senderFilter.all fun s => decide (s = senderId)

/-- `date_filter_matches`. -/
def dateFilterMatches (query : SearchQuery) (createdAtMs : Int) : Bool :=
  (query.dateFrom.all fun dateFrom => decide (dateFrom ≤ createdAtMs)) &&
    query.dateTo.all fun dateTo => decide (createdAtMs ≤ dateTo)

/-- The filters a row of a shard has to pass. -/
def rowPasses (query : SearchQuery) (row : FtsRow) : Bool :=
  senderFilterMatches query row.senderId && dateFilterMatches query row.createdAtMs

/-- What a shard contributes to a message. -/
structure ColdHit where
  messageId : IdText
  conversationId : Uuid
  senderId : String
  createdAtMs : Int
  rank : Rat
deriving DecidableEq

/-- A contribution under what a text row says. -/
def ColdHit.ofRow (row : FtsRow) (rank : Rat) : ColdHit :=
  ⟨row.messageId, row.conversationId, row.senderId, row.createdAtMs, rank⟩

/-- `str::contains`. -/
def strContains (s pattern : String) : Bool := decide (pattern.toList <:+: s.toList)

/-- The contribution of a text row: how many of the words it has. -/
def textRowHit (E : SearchPlatform) (query : SearchQuery) (qWords : List String) (row : FtsRow) : Option ColdHit :=
  if rowPasses query row then
    let lower := E.lowercase row.textContent
    let matched := (qWords.filter fun w => strContains lower w).length
    if matched = 0 then none else some (.ofRow row (matched * bm25Weight))
  else none

/-- A fuzzy row is of one of the tokens of the query. -/
def isQueried (byScript : List (ScriptClass × List String)) (fr : FuzzyRow) : Bool :=
  byScript.any fun s => s.1 = ScriptClass.fromIso15924 fr.script && decide (fr.token ∈ s.2)

/-- How many of the fuzzy rows of an id are of a token of the query, in a script. -/
def matchedTokens (byScript : List (ScriptClass × List String)) (fuzzyRows : List FuzzyRow) (id : IdText)
    (script : ScriptClass) : Nat :=
  (fuzzyRows.filter fun fr =>
    isQueried byScript fr && decide (fr.messageId = id) && decide (ScriptClass.fromIso15924 fr.script = script)).length

/-- What the text rows of the bucket say of an id; the last row wins. -/
def metaById (ftsRows : List FtsRow) (id : IdText) : Option FtsRow := ftsRows.reverse.find? fun row => row.messageId = id

/-- The contribution of the fuzzy rows of an id. -/
def fuzzyRowsHit (query : SearchQuery) (byScript : List (ScriptClass × List String)) (ftsRows : List FtsRow)
    (fuzzyRows : List FuzzyRow) (id : IdText) : Option ColdHit :=
  (metaById ftsRows id).bind fun info =>
    if rowPasses query info then
      (overlapScore byScript (matchedTokens byScript fuzzyRows id)).map fun score => .ofRow info (score * fuzzyWeight)
    else none

/-- `merge_bucket_rows_into_by_id`, as the contributions it merges. -/
def bucketHits (E : SearchPlatform) (query : SearchQuery) (ftsRows : List FtsRow) (fuzzyRows : List FuzzyRow) :
    List ColdHit :=
  let trimmed := trim query.queryString
  let byScript := tokensByScript (generateTokens E.toLowercase trimmed)
  ftsRows.filterMap (textRowHit E query (lowercaseWordSet E trimmed)) ++
    if tokenCount byScript = 0 then []
    else (((fuzzyRows.filter (isQueried byScript)).map FuzzyRow.messageId).dedup).filterMap
      (fuzzyRowsHit query byScript ftsRows fuzzyRows)

/-- The filter of a bucket rules the query out. -/
def bloomRejects (E : SearchPlatform) (query : SearchQuery) (policy : TenantSearchPolicy) : Option BloomFilter → Bool
  | none => policy.requireBloomShards
  | some maybeContains =>
      let qWords := lowercaseWordSet E (trim query.queryString)
      !qWords.isEmpty && !qWords.any maybeContains

/-- What reading a bucket gives: its contributions, or none where its filter rules the query out. -/
abbrev BucketRead := Except Error (Option (List ColdHit))

/-- One bucket. -/
def readBucket (E : SearchPlatform) (query : SearchQuery) (src : ColdShardSource) (policy : TenantSearchPolicy)
    (cache : Option ShardCache) (bucket : IdText × String) : BucketRead × Option ShardCache :=
  let (bloom, cache) := coldSourceFetchBloomWithCache src cache bucket.1 bucket.2
  if bloomRejects E query policy bloom then (.ok none, cache)
  else
    match coldSourceFetchTextWithCache src cache bucket.1 bucket.2 with
    | (.error e, cache) => (.error e, cache)
    | (.ok ftsRows, cache) =>
        match coldSourceFetchFuzzyWithCache src cache bucket.1 bucket.2 with
        | (.error e, cache) => (.error e, cache)
        | (.ok fuzzyRows, cache) => (.ok (some (bucketHits E query ftsRows fuzzyRows)), cache)

/-- Bucket after bucket, up to the first that cannot be read. -/
def readBuckets (E : SearchPlatform) (query : SearchQuery) (src : ColdShardSource) (policy : TenantSearchPolicy) :
    Option ShardCache → List (IdText × String) → Except Error (List ColdHit) × Option ShardCache
  | cache, [] => (.ok [], cache)
  | cache, bucket :: buckets =>
      match readBucket E query src policy cache bucket with
      | (.error e, cache) => (.error e, cache)
      | (.ok read, cache) =>
          match readBuckets E query src policy cache buckets with
          | (.error e, cache) => (.error e, cache)
          | (.ok hits, cache) => (.ok (read.getD [] ++ hits), cache)

/-! ## The merge -/

/-- A contribution alone, as a result. -/
def coldResult (hit : ColdHit) : RankedResult where
  messageId := QueryEngine.uuidOrNil hit.messageId
  conversationId := hit.conversationId
  senderId := hit.senderId
  createdAtMs := hit.createdAtMs
  isCold := true
  snippet := none
  rankScore := hit.rank
  semanticScore := none

/-- A contribution to a result that is there. -/
def addRank (r : RankedResult) (hit : ColdHit) : RankedResult := { r with rankScore := r.rankScore + hit.rank }

/-- `merge_cold_hit`. -/
def mergeColdHit : (AList fun _ : IdText => RankedResult) → ColdHit → AList fun _ : IdText => RankedResult :=
  mergeHit ColdHit.messageId (fun hit => some (coldResult hit)) addRank

/-- The local results, by message id. -/
def localById (found : List RankedResult) : AList fun _ : IdText => RankedResult :=
  insertHits (fun r => r.messageId.toText) id ∅ found

/-- `apply_cold_recency_weight`: the local results are weighed already. -/
def applyColdRecencyWeight (E : SearchPlatform) (localIds : List IdText) (results : List RankedResult) :
    List RankedResult :=
  let nowMs := newest (results.map fun r => r.createdAtMs)
  results.map fun r =>
    if r.messageId.toText ∈ localIds then r
    else { r with rankScore := r.rankScore * (recencyFactor E (nowMs - r.createdAtMs) * textKindWeight) }

namespace QueryEngine

/-- The end of a cold search. -/
def rankMerged (e : QueryEngine) (E : SearchPlatform) (found : List RankedResult)
    (byId : AList fun _ : IdText => RankedResult) (limit : Nat) : List RankedResult :=
  top resultLe limit (applyColdRecencyWeight E (localById found).keys (e.intoValues (values byId)))

/-- `execute_search_with_cold_source_full`: a fetch that fails fails the search. -/
def executeSearchWithColdSourceFull (e : QueryEngine) (E : SearchPlatform) (query : SearchQuery) (scope : SearchScope)
    (src : ColdShardSource) (policy : TenantSearchPolicy) (cache : Option ShardCache) (limit : Nat) :
    Except SearchError (List RankedResult) × Option ShardCache :=
  match e.executeSearchWithLimit E query scope limit with
  | .error fault => (.error fault, cache)
  | .ok found =>
      if staysLocal query scope policy then (.ok found, cache)
      else
        match src.coldBuckets with
        | .error fault => (.error (.source fault), cache)
        | .ok buckets =>
            let buckets := buckets.filter (e.bucketInScope query)
            if buckets.isEmpty then (.ok found, cache)
            else
              match readBuckets E query src policy cache (buckets.take policy.maxColdBucketsPerSearch) with
              | (.error fault, cache) => (.error (.source fault), cache)
              | (.ok hits, cache) => (.ok (e.rankMerged E found (hits.foldl mergeColdHit (localById found)) limit), cache)

end QueryEngine

/-! ## The streaming search -/

/-- `SearchEvent`. -/
inductive SearchEvent
  | localResults (results : List RankedResult)
  | coldBucketComplete (conversationId : IdText) (timeBucket : String) (newHits : List RankedResult)
  | searchComplete (totalResults : List RankedResult) (coldBucketsFetched coldBucketsSkipped : Nat)
deriving DecidableEq

/-- The results an event carries. -/
def SearchEvent.results : SearchEvent → List RankedResult
  | localResults results => results
  | coldBucketComplete _ _ newHits => newHits
  | searchComplete totalResults _ _ => totalResults

/-- The state of the bucket loop. -/
structure StreamState where
  cache : Option ShardCache
  byId : AList fun _ : IdText => RankedResult
  events : List SearchEvent
  fetched : Nat
  skipped : Nat

/-- The entries that are new. -/
def newEntries (pre byId : AList fun _ : IdText => RankedResult) : List RankedResult :=
  (byId.entries.filter fun entry => (pre.lookup entry.1).isNone).map Sigma.snd

/-- One pass of the bucket loop. -/
def QueryEngine.streamBucket (e : QueryEngine) (E : SearchPlatform) (query : SearchQuery) (src : ColdShardSource)
    (policy : TenantSearchPolicy) (s : StreamState) (bucket : IdText × String) : StreamState :=
  match readBucket E query src policy s.cache bucket with
  | (.ok (some hits), cache) =>
      let byId := hits.foldl mergeColdHit s.byId
      { cache := cache
        byId := byId
        events := s.events ++ [.coldBucketComplete bucket.1 bucket.2 (e.intoValues (newEntries s.byId byId))]
        fetched := s.fetched + 1
        skipped := s.skipped }
  | (.ok none, cache) | (.error _, cache) =>
      { s with
        cache := cache
        events := s.events ++ [.coldBucketComplete bucket.1 bucket.2 []]
        skipped := s.skipped + 1 }

/-- What a streaming search leaves: the events it emitted, what it returned, and the cache. -/
structure Streaming where
  events : List SearchEvent
  returned : Except SearchError (List RankedResult)
  cache : Option ShardCache

/-- `execute_search_streaming`. -/
def QueryEngine.executeSearchStreaming (e : QueryEngine) (E : SearchPlatform) (query : SearchQuery) (scope : SearchScope)
    (src : ColdShardSource) (policy : TenantSearchPolicy) (cache : Option ShardCache) (limit : Nat) : Streaming :=
  match e.executeSearchWithLimit E query scope limit with
  | .error fault => ⟨[], .error fault, cache⟩
  | .ok found =>
      if staysLocal query scope policy then ⟨[.localResults found, .searchComplete found 0 0], .ok found, cache⟩
      else
        match src.coldBuckets with
        | .error fault => ⟨[.localResults found, .searchComplete found 0 0], .error (.source fault), cache⟩
        | .ok buckets =>
            let buckets := (buckets.filter (e.bucketInScope query)).take policy.maxColdBucketsPerSearch
            if buckets.isEmpty then ⟨[.localResults found, .searchComplete found 0 0], .ok found, cache⟩
            else
              let s := buckets.foldl (e.streamBucket E query src policy) ⟨cache, localById found, [.localResults found], 0, 0⟩
              let out := e.rankMerged E found s.byId limit
              ⟨s.events ++ [.searchComplete out s.fetched s.skipped], .ok out, s.cache⟩

end KChatCore.Search
