import KChatCore.Lib.Ranking
import KChatCore.LocalStore.Db
import KChatCore.Message.Platform

/-!
# `Search.Engines` — the three indexes of the local store, searched

`searchFts` asks FTS5 for the rows a `MATCH` expression selects, `searchFuzzy` counts the n-grams a message shares with
the query, script by script, and `searchSemantic` compares vectors. Each orders its hits and cuts them at a limit.

FTS5 itself, the Unicode tables and the float functions are a `SearchPlatform`; scores are exact fractions.
-/

namespace KChatCore

/-- The text of an id column, as it is compared. -/
def IdText.text : IdText → String
  | uuid u => u.hyphenated
  | malformed s => s

namespace LocalStore

/-- The skeleton an id column names. -/
def LocalStoreDb.skeletonOf (db : LocalStoreDb) (id : IdText) : Option MessageSkeleton :=
  (Uuid.parseStr id).bind db.skeletons.find?

theorem LocalStoreDb.skeletonOf_eq_some {db : LocalStoreDb} {id : IdText} {skel : MessageSkeleton} :
    db.skeletonOf id = some skel ↔ id = skel.messageId.toText ∧ db.skeletons.find? skel.messageId = some skel := by
  unfold skeletonOf
  cases id with
  | malformed s => simp [Uuid.parseStr, Uuid.toText]
  | uuid u =>
      show db.skeletons.find? u = some skel ↔ u.toText = skel.messageId.toText ∧ _
      rw [Uuid.toText_inj]
      constructor
      · intro h
        obtain rfl := Lib.Table.key_of_find? h
        exact ⟨rfl, h⟩
      · rintro ⟨rfl, h⟩
        exact h

@[simp] theorem LocalStoreDb.skeletonOf_toText (db : LocalStoreDb) (m : Uuid) :
    db.skeletonOf m.toText = db.skeletons.find? m := rfl

end LocalStore

namespace Search

open Lib LocalStore

/-- **What a search gets from outside.** -/
structure SearchPlatform where
  /-- `char::to_lowercase`. -/
  toLowercase : Char → List Char
  /-- `str::to_lowercase`. -/
  lowercase : String → String
  /-- `search_fts MATCH ?`: the expression parsed, and what it makes of a text. -/
  ftsMatch : String → Except DbError (String → Bool)
  /-- `bm25(search_fts)` of a row of the table. -/
  bm25 : String → List FtsRow → FtsRow → Rat
  /-- `snippet(search_fts, ...)`. -/
  snippet : String → FtsRow → String
  /-- The cosine of a query vector and a stored one; `none` where the dimensions differ. -/
  similarity : List Rat → Bytes → Option Rat
  /-- `(-lambda * age_days).exp()`, by the age in milliseconds. -/
  recencyScore : Int → Rat

/-! ## FTS5 -/

/-- `RawFtsToken`. -/
inductive RawFtsToken
  | term (s : String)
  | operator (s : String)
deriving DecidableEq, Repr

/-- `RawFtsToken::Term(_)`. -/
def RawFtsToken.isTerm : RawFtsToken → Bool
  | term _ => true
  | operator _ => false

/-- `escape_fts_quote`. -/
def escapeFtsQuote (s : List Char) : String := String.ofList (s.flatMap fun c => if c = '"' then [c, c] else [c])

/-- A chunk as a phrase. -/
def ftsPhrase (s : List Char) : String := "\"" ++ escapeFtsQuote s ++ "\""

/-- The first pass over one chunk. -/
def rawFtsToken (raw : List Char) : Option RawFtsToken :=
  if raw.getLast? = some '*' then
    if raw.dropLast.isEmpty then none else some (.term (ftsPhrase raw.dropLast ++ "*"))
  else if String.ofList raw ∈ ["AND", "OR", "NOT", "NEAR"] then some (.operator (String.ofList raw))
  else some (.term (ftsPhrase raw))

/-- The second pass: an operator between two terms stays one. -/
def ftsTokens (raw : List RawFtsToken) : List String :=
  raw.zipIdx.map fun (tok, i) =>
    match tok with
    | .term s => s
    | .operator s =>
        let prevIsTerm := decide (i ≠ 0) && ((raw[i - 1]?).map RawFtsToken.isTerm).getD false
        let nextIsTerm := ((raw[i + 1]?).map RawFtsToken.isTerm).getD false
        if prevIsTerm && nextIsTerm then s else ftsPhrase s.toList

/-- `build_fts_query`. -/
def buildFtsQuery (input : String) : String :=
  let trimmed := trim input
  let cs := trimmed.toList
  if trimmed.isEmpty then ""
  else if cs.head? = some '"' && cs.getLast? = some '"' && 2 ≤ cs.length then trimmed
  else " ".intercalate (ftsTokens (((cs.splitOnP isWhitespace).filter fun raw => !raw.isEmpty).filterMap rawFtsToken))

/-- `FtsMatch`. -/
structure FtsMatch where
  messageId : IdText
  conversationId : Uuid
  senderId : String
  createdAtMs : Int
  snippet : String
  bm25Score : Rat
deriving DecidableEq

/-- A selected row as a match. -/
def SearchPlatform.ftsMatchOf (E : SearchPlatform) (expr : String) (table : List FtsRow) (row : FtsRow) : FtsMatch :=
  ⟨row.messageId, row.conversationId, row.senderId, row.createdAtMs, E.snippet expr row, E.bm25 expr table row⟩

/-- `ORDER BY rank`. -/
def rankLe (a b : FtsMatch) : Bool := a.bm25Score ≤ b.bm25Score

/-- `TextSearchEngine::search_fts`. -/
def searchFts (E : SearchPlatform) (db : LocalStoreDb) (query : String) (limit : Nat) : Except DbError (List FtsMatch) :=
  let trimmed := trim query
  let expr := buildFtsQuery trimmed
  if trimmed.isEmpty then .ok []
  else if expr.isEmpty then .ok []
  else do
    let selects ← E.ftsMatch expr
    return top rankLe limit ((db.fts.filter fun r => selects r.textContent).map (E.ftsMatchOf expr db.fts))

namespace SearchPlatform

variable (E : SearchPlatform) (query : String)

/-- FTS5 parses the expression of the query, or is not asked. -/
def accepts : Bool :=
  (trim query).isEmpty || (buildFtsQuery (trim query)).isEmpty || (E.ftsMatch (buildFtsQuery (trim query))).isOk

/-- The query selects a text. -/
def selects (text : String) : Bool :=
  if (trim query).isEmpty || (buildFtsQuery (trim query)).isEmpty then false
  else
    match E.ftsMatch (buildFtsQuery (trim query)) with
    | .ok selects => selects text
    | .error _ => false

/-- **The matches of a query**, in the order of the table. -/
def ftsMatches (db : LocalStoreDb) : List FtsMatch :=
  (db.fts.filter fun r => E.selects query r.textContent).map (E.ftsMatchOf (buildFtsQuery (trim query)) db.fts)

end SearchPlatform

variable {E : SearchPlatform} {db : LocalStoreDb} {query : String} {limit : Nat}

/-- **`searchFts` returns the best matches**, wherever FTS5 takes the expression. -/
theorem searchFts_eq_ok {hits : List FtsMatch} :
    searchFts E db query limit = .ok hits ↔ E.accepts query = true ∧ hits = top rankLe limit (E.ftsMatches query db) := by
  have hempty : top rankLe limit ([] : List FtsMatch) = [] := by simp [top]
  unfold searchFts SearchPlatform.accepts SearchPlatform.ftsMatches SearchPlatform.selects
  by_cases hblank : (trim query).isEmpty = true
  · simp [hblank, hempty, eq_comm]
  · by_cases hexpr : (buildFtsQuery (trim query)).isEmpty = true
    · simp [hblank, hexpr, hempty, eq_comm]
    · simp only [Bool.eq_false_iff.mpr hblank, Bool.eq_false_iff.mpr hexpr, Bool.false_or, if_false, Bool.false_eq_true]
      cases E.ftsMatch (buildFtsQuery (trim query)) with
      | error e => simp [bind, Except.bind, Except.isOk, Except.toBool]
      | ok selects =>
          simp [bind, Except.bind, pure, Except.pure, Except.isOk, Except.toBool, eq_comm]

theorem mem_ftsMatches {hit : FtsMatch} : hit ∈ E.ftsMatches query db ↔
    ∃ row ∈ db.fts, E.selects query row.textContent = true ∧
      E.ftsMatchOf (buildFtsQuery (trim query)) db.fts row = hit := by
  unfold SearchPlatform.ftsMatches
  simp only [List.mem_map, List.mem_filter, and_assoc]

/-! ## Fuzzy -/

/-- `FuzzyMatch`. -/
structure FuzzyMatch where
  messageId : IdText
  score : Rat
deriving DecidableEq

/-- The distinct tokens of a query, by script. -/
def tokensByScript (tokens : List FuzzyToken) : List (ScriptClass × List String) :=
  (tokens.map FuzzyToken.script).dedup.map fun script =>
    (script, ((tokens.filter fun t => t.script = script).map FuzzyToken.token).dedup)

/-- The number of distinct tokens. -/
def tokenCount (byScript : List (ScriptClass × List String)) : Nat := (byScript.map fun s => s.2.length).sum

/-- The score of a message that shares `shared script` tokens with the query: there is one if the overlap in some script
reaches its threshold. -/
def overlapScore (byScript : List (ScriptClass × List String)) (shared : ScriptClass → Nat) : Option Rat :=
  let counted := byScript.filter fun s => !s.2.isEmpty
  let accepted := counted.any fun s => fuzzyMinOverlap s.1 ≤ (shared s.1 : Rat) / (s.2.length : Rat)
  if accepted then some (((counted.map fun s => shared s.1).sum : Nat) / (tokenCount byScript : Rat)) else none

/-- Highest score first, then by id. -/
def scoreLe {α : Type} (score : α → Rat) (id : α → IdText) (a b : α) : Bool :=
  score b < score a || (score a = score b && (id a).text ≤ (id b).text)

/-- The rows of one token. -/
def fuzzyRowsOf (db : LocalStoreDb) (script : ScriptClass) (token : String) : List IdText :=
  (db.fuzzy.rows.filter fun r => r.token = token && r.script = script.toIso15924).map FuzzyRow.messageId

/-- How many of the tokens of a script an id has. -/
def sharedTokens (db : LocalStoreDb) (byScript : List (ScriptClass × List String)) (id : IdText) (script : ScriptClass) :
    Nat :=
  ((byScript.filter fun s => s.1 = script).flatMap fun s => s.2.filter fun token => id ∈ fuzzyRowsOf db s.1 token).length

/-- **The fuzzy matches of a query**, one for each id that shares a token. -/
def fuzzyMatches (db : LocalStoreDb) (byScript : List (ScriptClass × List String)) : List FuzzyMatch :=
  (byScript.flatMap fun s => s.2.flatMap (fuzzyRowsOf db s.1)).dedup.filterMap fun id =>
    (overlapScore byScript (sharedTokens db byScript id)).map fun score => ⟨id, score⟩

/-- `FuzzySearchEngine::search_fuzzy`. -/
def searchFuzzy (E : SearchPlatform) (db : LocalStoreDb) (query : String) (limit : Nat) : List FuzzyMatch :=
  let tokens := generateTokens E.toLowercase query
  if tokens.isEmpty || limit = 0 then []
  else if tokenCount (tokensByScript tokens) = 0 then []
  else top (scoreLe FuzzyMatch.score FuzzyMatch.messageId) limit (fuzzyMatches db (tokensByScript tokens))

/-- The fuzzy matches of a query text. -/
def SearchPlatform.fuzzyMatches (E : SearchPlatform) (query : String) (db : LocalStoreDb) : List FuzzyMatch :=
  Search.fuzzyMatches db (tokensByScript (generateTokens E.toLowercase query))

theorem mem_fuzzyMatches {byScript : List (ScriptClass × List String)} {hit : FuzzyMatch}
    (h : hit ∈ fuzzyMatches db byScript) :
    (∃ r ∈ db.fuzzy.rows, r.messageId = hit.messageId) ∧
      overlapScore byScript (sharedTokens db byScript hit.messageId) = some hit.score := by
  unfold fuzzyMatches at h
  obtain ⟨id, hid, hhit⟩ := List.mem_filterMap.mp h
  obtain ⟨score, hscore, rfl⟩ := Option.map_eq_some_iff.mp hhit
  refine ⟨?_, hscore⟩
  obtain ⟨s, -, hid⟩ := List.mem_flatMap.mp (List.mem_dedup.mp hid)
  obtain ⟨token, -, hid⟩ := List.mem_flatMap.mp hid
  obtain ⟨r, hr, hid⟩ := List.mem_map.mp hid
  exact ⟨r, (List.mem_filter.mp hr).1, hid⟩

/-- An id matches once. -/
theorem nodup_fuzzyMatches (byScript : List (ScriptClass × List String)) :
    ((fuzzyMatches db byScript).map FuzzyMatch.messageId).Nodup := by
  unfold fuzzyMatches
  refine nodup_map_filterMap (fun id hit h => ?_) ((List.map_id _).symm ▸ List.nodup_dedup _ : (List.map id _).Nodup)
  obtain ⟨score, -, rfl⟩ := Option.map_eq_some_iff.mp h
  rfl

theorem fuzzyMinOverlap_pos (script : ScriptClass) : 0 < fuzzyMinOverlap script := by
  unfold fuzzyMinOverlap
  cases fuzzyGranularity script <;> norm_num

/-- **A score is positive**: a threshold was reached. -/
theorem overlapScore_pos {byScript : List (ScriptClass × List String)} {shared : ScriptClass → Nat} {score : Rat}
    (h : overlapScore byScript shared = some score) : 0 < score := by
  unfold overlapScore at h
  dsimp only at h
  split_ifs at h with haccepted
  obtain ⟨s, hs, hreached⟩ := List.any_eq_true.mp haccepted
  have hne : s.2 ≠ [] := by simpa using (List.mem_filter.mp hs).2
  have hlength : 0 < s.2.length := List.length_pos_iff.mpr hne
  have hshared : 0 < shared s.1 := by
    have hquot : (0 : Rat) < shared s.1 / s.2.length := (fuzzyMinOverlap_pos s.1).trans_le (of_decide_eq_true hreached)
    exact Nat.pos_of_ne_zero fun hzero => by simp [hzero] at hquot
  have hsum : shared s.1 ≤ ((byScript.filter fun s => !s.2.isEmpty).map fun s => shared s.1).sum :=
    List.single_le_sum (by simp) _ (List.mem_map_of_mem hs)
  have hcount : s.2.length ≤ tokenCount byScript :=
    List.single_le_sum (by simp) _ (List.mem_map_of_mem (List.mem_filter.mp hs).1)
  rw [← Option.some.inj h]
  exact div_pos (Nat.cast_pos.mpr (by omega)) (Nat.cast_pos.mpr (by omega))

/-- Without tokens nothing matches. -/
theorem fuzzyMatches_eq_nil {byScript : List (ScriptClass × List String)} (h : tokenCount byScript = 0) :
    fuzzyMatches db byScript = [] := by
  have hnone : ∀ s ∈ byScript, s.2 = [] := by
    intro s hs
    have hle : s.2.length ≤ tokenCount byScript := List.single_le_sum (by simp) _ (List.mem_map_of_mem hs)
    exact List.length_eq_zero_iff.mp (by omega)
  have hids : (byScript.flatMap fun s => s.2.flatMap (fuzzyRowsOf db s.1)) = [] := by
    rw [List.flatMap_eq_nil_iff]
    intro s hs
    rw [hnone s hs]
    rfl
  unfold fuzzyMatches
  rw [hids]
  rfl

/-- **`searchFuzzy` returns the best matches**; a query without tokens has none. -/
theorem searchFuzzy_eq_top :
    searchFuzzy E db query limit = top (scoreLe FuzzyMatch.score FuzzyMatch.messageId) limit (E.fuzzyMatches query db) := by
  unfold searchFuzzy SearchPlatform.fuzzyMatches
  dsimp only
  split_ifs with hempty hcount
  · rw [Bool.or_eq_true, List.isEmpty_iff, decide_eq_true_iff] at hempty
    rcases hempty with hempty | rfl
    · rw [hempty, fuzzyMatches_eq_nil rfl]
      simp [top]
    · rfl
  · rw [fuzzyMatches_eq_nil hcount]
    simp [top]
  · rfl

theorem mem_searchFuzzy {hit : FuzzyMatch} (h : hit ∈ searchFuzzy E db query limit) : hit ∈ E.fuzzyMatches query db := by
  rw [searchFuzzy_eq_top] at h
  exact mem_of_mem_top h

theorem nodup_searchFuzzy : ((searchFuzzy E db query limit).map FuzzyMatch.messageId).Nodup := by
  rw [searchFuzzy_eq_top]
  exact nodup_map_top (nodup_fuzzyMatches _)

theorem length_searchFuzzy_le : (searchFuzzy E db query limit).length ≤ (E.fuzzyMatches query db).length := by
  rw [searchFuzzy_eq_top]
  exact length_top_le_length

/-- **`searchFuzzy` returns all matches** where the limit leaves room for them. -/
theorem searchFuzzy_complete (h : (E.fuzzyMatches query db).length ≤ limit) {hit : FuzzyMatch} :
    hit ∈ searchFuzzy E db query limit ↔ hit ∈ E.fuzzyMatches query db := by
  rw [searchFuzzy_eq_top]
  exact mem_top h

/-! ## Vectors -/

/-- `SemanticMatch`. -/
structure SemanticMatch where
  messageId : IdText
  similarity : Rat
deriving DecidableEq

/-- `fetch_candidates`. -/
def fetchCandidates (db : LocalStoreDb) (conversationId : Option Uuid) (modelVersion : Option String) : List VectorRow :=
  db.vectors.rows.filter fun r =>
    (match conversationId with
      | some c => ((db.skeletonOf r.messageId).map fun skel => decide (skel.conversationId = c)).getD false
      | none => true) &&
    match modelVersion with
    | some version => decide (r.modelVersion = version)
    | none => true

/-- `SemanticSearchEngine::search_semantic`. -/
def searchSemantic (E : SearchPlatform) (db : LocalStoreDb) (queryEmbedding : List Rat) (conversationId : Option Uuid)
    (limit : Nat) (modelVersion : Option String) : List SemanticMatch :=
  if limit = 0 || queryEmbedding.isEmpty then []
  else
    top (scoreLe SemanticMatch.similarity SemanticMatch.messageId) limit
      ((fetchCandidates db conversationId modelVersion).filterMap fun r =>
        (E.similarity queryEmbedding r.embedding).map fun similarity => ⟨r.messageId, similarity⟩)

section Semantic

variable {queryEmbedding : List Rat} {conversationId : Option Uuid} {modelVersion : Option String}

/-- A semantic hit has a vector. -/
theorem mem_searchSemantic {hit : SemanticMatch}
    (h : hit ∈ searchSemantic E db queryEmbedding conversationId limit modelVersion) :
    ∃ r ∈ db.vectors.rows, r.messageId = hit.messageId := by
  unfold searchSemantic at h
  split_ifs at h
  · exact absurd h (by simp)
  · obtain ⟨r, hr, hhit⟩ := List.mem_filterMap.mp (mem_of_mem_top h)
    obtain ⟨similarity, -, rfl⟩ := Option.map_eq_some_iff.mp hhit
    exact ⟨r, (List.mem_filter.mp hr).1, rfl⟩

/-- **One model version gives a message one hit.** -/
theorem nodup_searchSemantic {version : String} :
    ((searchSemantic E db queryEmbedding conversationId limit (some version)).map SemanticMatch.messageId).Nodup := by
  unfold searchSemantic
  split_ifs
  · simp
  · apply nodup_map_top
    -- the vectors of one version have distinct ids, and each gives at most one hit
    have hids : ((fetchCandidates db conversationId (some version)).map VectorRow.messageId).Nodup := by
      apply List.Nodup.map_on
      · intro r hr r' hr' heq
        obtain ⟨hmem, hkept⟩ := List.mem_filter.mp hr
        obtain ⟨hmem', hkept'⟩ := List.mem_filter.mp hr'
        have hversion := of_decide_eq_true (Bool.and_eq_true_iff.mp hkept).2
        have hversion' := of_decide_eq_true (Bool.and_eq_true_iff.mp hkept').2
        apply db.vectors.eq_of_key hmem hmem'
        rw [VectorRow.key, VectorRow.key, heq, hversion, hversion']
      · exact List.Nodup.filter _ (List.Nodup.of_map _ db.vectors.keyed)
    refine nodup_map_filterMap (fun r hit h => ?_) hids
    obtain ⟨similarity, -, rfl⟩ := Option.map_eq_some_iff.mp h
    rfl

end Semantic

/-! ## A reference platform -/

/-- **An executable platform** for plain ASCII: `MATCH` takes one phrase and selects the texts that have it as a word. -/
def SearchPlatform.plain : SearchPlatform where
  toLowercase c := [c.toLower]
  lowercase s := String.ofList (s.toList.map Char.toLower)
  ftsMatch expr := .ok fun text =>
    let phrase := (expr.toList.filter fun c => c ≠ '"').map Char.toLower
    ((text.toList.map Char.toLower).splitOnP fun c => !c.isAlphanum).contains phrase
  bm25 _ _ _ := -1
  snippet _ row := row.textContent
  similarity a b := if a.length = b.length then some 1 else none
  recencyScore _ := 1

end Search

end KChatCore
