import KChatCore.Search.ColdSearch

/-!
# `Search.FuzzyAgreement` — two ways to count shared n-grams

`searchFuzzy` asks the local table for the rows of every token of the query; a cold search goes through the rows of a
fuzzy shard and keeps those that are of a token. Both count, for each message and script, the tokens it shares.

* `mem_tokensByScript`, `exists_queried` — the tokens of a query, by script.
* `matchedTokens_eq` — the two counts agree, over the same rows.
* `coldFuzzy_agrees` — so the two searches admit the same messages with the same scores.
-/

namespace KChatCore.Search

open Lib LocalStore

/-! ## The tokens of a query -/

section Tokens

variable {tokens : List FuzzyToken}

/-- The distinct tokens of one script. -/
def tokensOf (tokens : List FuzzyToken) (script : ScriptClass) : List String :=
  ((tokens.filter fun t => t.script = script).map FuzzyToken.token).dedup

theorem mem_tokensOf {token : String} {script : ScriptClass} :
    token ∈ tokensOf tokens script ↔ (⟨token, script⟩ : FuzzyToken) ∈ tokens := by
  unfold tokensOf
  rw [List.mem_dedup, List.mem_map]
  constructor
  · rintro ⟨⟨token', script'⟩, ht, rfl⟩
    rw [List.mem_filter, decide_eq_true_iff] at ht
    obtain ⟨ht, rfl⟩ := ht
    exact ht
  · intro ht
    exact ⟨_, List.mem_filter.mpr ⟨ht, decide_eq_true rfl⟩, rfl⟩

theorem nodup_tokensOf (script : ScriptClass) : (tokensOf tokens script).Nodup := List.nodup_dedup _

theorem mem_tokensByScript {s : ScriptClass × List String} :
    s ∈ tokensByScript tokens ↔ (∃ t ∈ tokens, t.script = s.1) ∧ s.2 = tokensOf tokens s.1 := by
  unfold tokensByScript
  rw [List.mem_map]
  simp only [List.mem_dedup, List.mem_map]
  constructor
  · rintro ⟨script, ⟨t, ht, rfl⟩, rfl⟩
    exact ⟨⟨t, ht, rfl⟩, rfl⟩
  · rintro ⟨⟨t, ht, hscript⟩, hset⟩
    exact ⟨s.1, ⟨t, ht, hscript⟩, Prod.ext rfl hset.symm⟩

/-- A script has one entry. -/
theorem filter_tokensByScript {s : ScriptClass × List String} (hs : s ∈ tokensByScript tokens) :
    (tokensByScript tokens).filter (fun s' => s'.1 = s.1) = [s] := by
  obtain ⟨hscript, hset⟩ := mem_tokensByScript.mp hs
  have hmem : s.1 ∈ tokens.map FuzzyToken.script := List.mem_map.mpr hscript
  have hone : (tokens.map FuzzyToken.script).dedup.filter (fun c => c = s.1) = [s.1] := by
    rw [List.filter_eq, List.count_dedup, if_pos hmem]
    rfl
  unfold tokensByScript
  rw [List.filter_map]
  show ((tokens.map FuzzyToken.script).dedup.filter fun c => c = s.1).map _ = [s]
  rw [hone, List.map_singleton]
  exact congrArg (fun s => [s]) (Prod.ext rfl hset.symm)

/-- No token is of an unknown script. -/
theorem script_ne_unknown {toLowercase : Char → List Char} {text : String} {t : FuzzyToken}
    (ht : t ∈ generateTokens toLowercase text) : t.script ≠ .unknown := by
  unfold generateTokens at ht
  obtain ⟨⟨script, run⟩, -, ht⟩ := List.mem_flatMap.mp ht
  dsimp only at ht
  split_ifs at ht with hunknown
  · exact absurd ht List.not_mem_nil
  · obtain ⟨word, -, ht⟩ := List.mem_flatMap.mp ht
    obtain ⟨window, -, rfl⟩ := List.mem_map.mp ht
    exact hunknown

end Tokens

/-- A known script has one code. -/
theorem fromIso15924_eq_iff {code : String} {c : ScriptClass} (hc : c ≠ .unknown) :
    ScriptClass.fromIso15924 code = c ↔ code = c.toIso15924 := by
  constructor
  · intro h
    unfold ScriptClass.fromIso15924 at h
    cases hfind : ([.latn, .cyrl, .grek, .hani, .hira, .kana, .hang, .arab, .hebr, .deva, .beng, .thai, .khmr, .laoo,
        .mymr] : List ScriptClass).find? fun c => c.toIso15924 == code with
    | none =>
        rw [hfind] at h
        exact absurd h.symm hc
    | some c' =>
        rw [hfind] at h
        obtain rfl : c' = c := h
        have hcode := List.find?_some hfind
        rw [beq_iff_eq] at hcode
        exact hcode.symm
  · rintro rfl
    exact ScriptClass.fromIso15924_toIso15924 c

/-! ## Counting -/

section Counting

variable {E : SearchPlatform} {text : String} {db : LocalStoreDb} {fuzzyRows : List FuzzyRow}

/-- A row of a shard is counted when the query has its token, in its script. -/
theorem isQueried_iff {fr : FuzzyRow} :
    isQueried (tokensByScript (generateTokens E.toLowercase text)) fr = true ↔
      ∃ script, (⟨fr.token, script⟩ : FuzzyToken) ∈ generateTokens E.toLowercase text ∧ fr.script = script.toIso15924 := by
  unfold isQueried
  simp only [List.any_eq_true, Bool.and_eq_true, decide_eq_true_eq]
  constructor
  · rintro ⟨s, hs, hscript, htoken⟩
    obtain ⟨-, hset⟩ := mem_tokensByScript.mp hs
    rw [hset] at htoken
    have ht := mem_tokensOf.mp htoken
    exact ⟨s.1, ht, (fromIso15924_eq_iff (script_ne_unknown ht)).mp hscript.symm⟩
  · rintro ⟨script, ht, hscript⟩
    refine ⟨(script, tokensOf _ script), mem_tokensByScript.mpr ⟨⟨_, ht, rfl⟩, rfl⟩, ?_, mem_tokensOf.mpr ht⟩
    exact ((fromIso15924_eq_iff (script_ne_unknown ht)).mpr hscript).symm

theorem mem_fuzzyRowsOf {script : ScriptClass} {token : String} {id : IdText} :
    id ∈ fuzzyRowsOf db script token ↔ (⟨token, script.toIso15924, id⟩ : FuzzyRow) ∈ db.fuzzy.rows := by
  unfold fuzzyRowsOf
  simp only [List.mem_map, List.mem_filter, Bool.and_eq_true, decide_eq_true_eq]
  constructor
  · rintro ⟨⟨token', script', id'⟩, ⟨hr, rfl, rfl⟩, rfl⟩
    exact hr
  · intro hr
    exact ⟨_, ⟨hr, rfl, rfl⟩, rfl⟩

/-- **The two counts agree**: with distinct rows, the rows of a message that are of a token of the script are as many as
the tokens the message has a row for. -/
theorem matchedTokens_eq (hdistinct : fuzzyRows.Nodup) (hsame : ∀ r, r ∈ db.fuzzy.rows ↔ r ∈ fuzzyRows) (id : IdText)
    {s : ScriptClass × List String} (hs : s ∈ tokensByScript (generateTokens E.toLowercase text)) :
    matchedTokens (tokensByScript (generateTokens E.toLowercase text)) fuzzyRows id s.1 =
      sharedTokens db (tokensByScript (generateTokens E.toLowercase text)) id s.1 := by
  obtain ⟨⟨t, ht, hscript⟩, hset⟩ := mem_tokensByScript.mp hs
  have hknown : s.1 ≠ .unknown := hscript ▸ script_ne_unknown ht
  unfold matchedTokens sharedTokens
  rw [filter_tokensByScript hs, List.flatMap_singleton, hset]
  have hinj : Function.Injective fun token : String => (⟨token, s.1.toIso15924, id⟩ : FuzzyRow) :=
    fun _ _ h => congrArg FuzzyRow.token h
  have hperm : (fuzzyRows.filter fun fr => isQueried (tokensByScript (generateTokens E.toLowercase text)) fr &&
      decide (fr.messageId = id) && decide (ScriptClass.fromIso15924 fr.script = s.1)).Perm
      (((tokensOf (generateTokens E.toLowercase text) s.1).filter fun token =>
        id ∈ fuzzyRowsOf db s.1 token).map fun token => ⟨token, s.1.toIso15924, id⟩) := by
    refine (List.perm_ext_iff_of_nodup (hdistinct.filter _) (((nodup_tokensOf _).filter _).map hinj)).mpr fun fr => ?_
    simp only [List.mem_filter, List.mem_map, Bool.and_eq_true, decide_eq_true_eq, isQueried_iff, mem_fuzzyRowsOf,
      fromIso15924_eq_iff hknown, mem_tokensOf]
    constructor
    · rintro ⟨hfr, ⟨⟨script, htoken, hcode⟩, rfl⟩, hcode'⟩
      obtain rfl : script = s.1 := by
        rw [← ScriptClass.fromIso15924_toIso15924 script, ← hcode, hcode', ScriptClass.fromIso15924_toIso15924]
      have hrow : fr = ⟨fr.token, s.1.toIso15924, fr.messageId⟩ := by
        cases fr
        simp_all
      exact ⟨fr.token, ⟨htoken, (hsame _).mpr (hrow ▸ hfr)⟩, hrow.symm⟩
    · rintro ⟨token, ⟨htoken, hrow⟩, rfl⟩
      exact ⟨(hsame _).mp hrow, ⟨⟨s.1, htoken, rfl⟩, rfl⟩, rfl⟩
  rw [hperm.length_eq, List.length_map]

/-- The overlap of a message is the same, counted either way. -/
theorem overlapScore_agrees (hdistinct : fuzzyRows.Nodup) (hsame : ∀ r, r ∈ db.fuzzy.rows ↔ r ∈ fuzzyRows) (id : IdText) :
    overlapScore (tokensByScript (generateTokens E.toLowercase text))
        (matchedTokens (tokensByScript (generateTokens E.toLowercase text)) fuzzyRows id) =
      overlapScore (tokensByScript (generateTokens E.toLowercase text))
        (sharedTokens db (tokensByScript (generateTokens E.toLowercase text)) id) := by
  have hcount : ∀ s ∈ (tokensByScript (generateTokens E.toLowercase text)).filter fun s => !s.2.isEmpty,
      matchedTokens (tokensByScript (generateTokens E.toLowercase text)) fuzzyRows id s.1 =
        sharedTokens db (tokensByScript (generateTokens E.toLowercase text)) id s.1 :=
    fun s hs => matchedTokens_eq hdistinct hsame id (List.mem_filter.mp hs).1
  generalize matchedTokens (tokensByScript (generateTokens E.toLowercase text)) fuzzyRows id = matched at hcount ⊢
  generalize sharedTokens db (tokensByScript (generateTokens E.toLowercase text)) id = shared at hcount ⊢
  unfold overlapScore
  generalize (tokensByScript (generateTokens E.toLowercase text)).filter (fun s => !s.2.isEmpty) = counted at hcount ⊢
  have haccepted : (counted.any fun s => fuzzyMinOverlap s.1 ≤ (matched s.1 : Rat) / (s.2.length : Rat)) =
      counted.any fun s => fuzzyMinOverlap s.1 ≤ (shared s.1 : Rat) / (s.2.length : Rat) := by
    rw [Bool.eq_iff_iff, List.any_eq_true, List.any_eq_true]
    refine exists_congr fun s => and_congr_right fun hs => ?_
    rw [hcount s hs]
  dsimp only
  rw [haccepted, List.map_congr_left hcount]

end Counting

/-! ## The two searches -/

section Agreement

variable {E : SearchPlatform} {query : SearchQuery} {db : LocalStoreDb} {ftsRows : List FtsRow} {fuzzyRows : List FuzzyRow}

/-- The text row has none of the words of the query. -/
def MatchesNoWord (E : SearchPlatform) (query : SearchQuery) (row : FtsRow) : Prop :=
  ∀ w ∈ lowercaseWordSet E (trim query.queryString), strContains (E.lowercase row.textContent) w = false

/-- The messages of the fuzzy rows have text rows, which pass the filters and have none of the words. -/
def BackedByText (E : SearchPlatform) (query : SearchQuery) (ftsRows : List FtsRow) (fuzzyRows : List FuzzyRow) : Prop :=
  ∀ fr ∈ fuzzyRows, (∃ row ∈ ftsRows, row.messageId = fr.messageId) ∧
    ∀ row ∈ ftsRows, row.messageId = fr.messageId → rowPasses query row = true ∧ MatchesNoWord E query row

theorem textRowHit_none {row : FtsRow} (h : MatchesNoWord E query row) :
    textRowHit E query (lowercaseWordSet E (trim query.queryString)) row = none := by
  have hmatched : (lowercaseWordSet E (trim query.queryString)).filter
      (fun w => strContains (E.lowercase row.textContent) w) = [] :=
    List.filter_eq_nil_iff.mpr fun w hw => by rw [h w hw]; decide
  unfold textRowHit
  split_ifs
  · simp only [hmatched, List.length_nil, if_true]
  · rfl

/-- The contribution of a message's fuzzy rows, when its text row passes the filters. -/
theorem fuzzyRowsHit_eq_some_iff {byScript : List (ScriptClass × List String)} {id : IdText}
    (hmeta : ∃ row ∈ ftsRows, row.messageId = id)
    (hpasses : ∀ row ∈ ftsRows, row.messageId = id → rowPasses query row = true) {rank : Rat} :
    (∃ hit, fuzzyRowsHit query byScript ftsRows fuzzyRows id = some hit ∧ (hit.messageId, hit.rank) = (id, rank)) ↔
      ∃ score, overlapScore byScript (matchedTokens byScript fuzzyRows id) = some score ∧ score * fuzzyWeight = rank := by
  obtain ⟨info, hinfo⟩ : ∃ info, metaById ftsRows id = some info := by
    obtain ⟨row, hrow, hid⟩ := hmeta
    refine Option.isSome_iff_exists.mp (List.find?_isSome.mpr ⟨row, List.mem_reverse.mpr hrow, decide_eq_true hid⟩)
  have hmem : info ∈ ftsRows := List.mem_reverse.mp (List.mem_of_find?_eq_some hinfo)
  have hid : info.messageId = id := by
    unfold metaById at hinfo
    have hfound := List.find?_some hinfo
    exact of_decide_eq_true hfound
  unfold fuzzyRowsHit
  rw [hinfo, Option.bind_some, if_pos (hpasses info hmem hid)]
  simp only [Option.map_eq_some_iff, Prod.mk.injEq]
  constructor
  · rintro ⟨hit, ⟨score, hscore, rfl⟩, -, hrank⟩
    exact ⟨score, hscore, hrank⟩
  · rintro ⟨score, hscore, hrank⟩
    exact ⟨_, ⟨score, hscore, rfl⟩, hid, hrank⟩

/-- The fuzzy branch of `merge_bucket_rows_into_by_id`. -/
def fuzzyBranch (E : SearchPlatform) (query : SearchQuery) (ftsRows : List FtsRow) (fuzzyRows : List FuzzyRow) :
    List ColdHit :=
  let byScript := tokensByScript (generateTokens E.toLowercase (trim query.queryString))
  if tokenCount byScript = 0 then []
  else (((fuzzyRows.filter (isQueried byScript)).map FuzzyRow.messageId).dedup).filterMap
    (fuzzyRowsHit query byScript ftsRows fuzzyRows)

theorem bucketHits_eq : bucketHits E query ftsRows fuzzyRows =
    ftsRows.filterMap (textRowHit E query (lowercaseWordSet E (trim query.queryString))) ++
      fuzzyBranch E query ftsRows fuzzyRows := rfl

/-- A contribution of the fuzzy branch is under the id it was counted for. -/
theorem messageId_of_fuzzyRowsHit {byScript : List (ScriptClass × List String)} {id : IdText} {hit : ColdHit}
    (h : fuzzyRowsHit query byScript ftsRows fuzzyRows id = some hit) : hit.messageId = id := by
  unfold fuzzyRowsHit at h
  obtain ⟨info, hinfo, h⟩ := Option.bind_eq_some_iff.mp h
  split_ifs at h
  obtain ⟨score, -, rfl⟩ := Option.map_eq_some_iff.mp h
  unfold metaById at hinfo
  have hfound := List.find?_some hinfo
  exact of_decide_eq_true hfound

/-- The ids a shard has rows of a token for. -/
theorem mem_queriedIds {text : String} {id : IdText} :
    id ∈ ((fuzzyRows.filter (isQueried (tokensByScript (generateTokens E.toLowercase text)))).map
        FuzzyRow.messageId).dedup ↔
      ∃ token script, (⟨token, script⟩ : FuzzyToken) ∈ generateTokens E.toLowercase text ∧
        (⟨token, script.toIso15924, id⟩ : FuzzyRow) ∈ fuzzyRows := by
  simp only [List.mem_dedup, List.mem_map, List.mem_filter, isQueried_iff]
  constructor
  · rintro ⟨⟨token, code, id⟩, ⟨hfr, script, ht, rfl⟩, rfl⟩
    exact ⟨token, script, ht, hfr⟩
  · rintro ⟨token, script, ht, hfr⟩
    exact ⟨_, ⟨hfr, script, ht, rfl⟩, rfl⟩

/-- The ids the local table has rows of a token for. -/
theorem mem_localIds {text : String} {id : IdText} :
    id ∈ ((tokensByScript (generateTokens E.toLowercase text)).flatMap fun s =>
        s.2.flatMap (fuzzyRowsOf db s.1)).dedup ↔
      ∃ token script, (⟨token, script⟩ : FuzzyToken) ∈ generateTokens E.toLowercase text ∧
        (⟨token, script.toIso15924, id⟩ : FuzzyRow) ∈ db.fuzzy.rows := by
  simp only [List.mem_dedup, List.mem_flatMap, mem_fuzzyRowsOf]
  constructor
  · rintro ⟨s, hs, token, htoken, hrow⟩
    obtain ⟨-, hset⟩ := mem_tokensByScript.mp hs
    rw [hset] at htoken
    exact ⟨token, s.1, mem_tokensOf.mp htoken, hrow⟩
  · rintro ⟨token, script, ht, hrow⟩
    exact ⟨(script, tokensOf _ script), mem_tokensByScript.mpr ⟨⟨_, ht, rfl⟩, rfl⟩, token, mem_tokensOf.mpr ht, hrow⟩

/-- **What the local index matches**, as ids with their scores. -/
theorem mem_fuzzyMatches_iff {text : String} {id : IdText} {score : Rat} :
    (⟨id, score⟩ : FuzzyMatch) ∈ E.fuzzyMatches text db ↔
      (∃ token script, (⟨token, script⟩ : FuzzyToken) ∈ generateTokens E.toLowercase text ∧
        (⟨token, script.toIso15924, id⟩ : FuzzyRow) ∈ db.fuzzy.rows) ∧
      overlapScore (tokensByScript (generateTokens E.toLowercase text))
        (sharedTokens db (tokensByScript (generateTokens E.toLowercase text)) id) = some score := by
  unfold SearchPlatform.fuzzyMatches fuzzyMatches
  rw [List.mem_filterMap]
  simp only [mem_localIds, Option.map_eq_some_iff, FuzzyMatch.mk.injEq]
  constructor
  · rintro ⟨id', hid, score', hscore, rfl, rfl⟩
    exact ⟨hid, hscore⟩
  · rintro ⟨hid, hscore⟩
    exact ⟨id, hid, score, hscore, rfl, rfl⟩

/-- **The fuzzy branch admits what the local index matches**, with the same score. -/
theorem fuzzyBranch_perm (hdistinct : fuzzyRows.Nodup) (hsame : ∀ r, r ∈ db.fuzzy.rows ↔ r ∈ fuzzyRows)
    (hbacked : BackedByText E query ftsRows fuzzyRows) :
    ((fuzzyBranch E query ftsRows fuzzyRows).map fun hit => (hit.messageId, hit.rank)).Perm
      ((E.fuzzyMatches (trim query.queryString) db).map fun m => (m.messageId, m.score * fuzzyWeight)) := by
  unfold fuzzyBranch
  dsimp only
  split_ifs with hnone
  · have hnothing : E.fuzzyMatches (trim query.queryString) db = [] := fuzzyMatches_eq_nil hnone
    rw [hnothing, List.map_nil, List.map_nil]
  · set byScript := tokensByScript (generateTokens E.toLowercase (trim query.queryString)) with hby
    set ids := ((fuzzyRows.filter (isQueried byScript)).map FuzzyRow.messageId).dedup with hids
    have hcold : ((ids.filterMap (fuzzyRowsHit query byScript ftsRows fuzzyRows)).map
        fun hit => (hit.messageId, hit.rank)).Nodup := by
      refine List.Nodup.of_map Prod.fst ?_
      rw [List.map_map]
      have hids : (ids.map id).Nodup := (List.map_id ids).symm ▸ List.nodup_dedup _
      exact nodup_map_filterMap (fun _ _ h => messageId_of_fuzzyRowsHit h) hids
    have hlocal : ((E.fuzzyMatches (trim query.queryString) db).map fun m => (m.messageId, m.score * fuzzyWeight)).Nodup := by
      refine List.Nodup.of_map Prod.fst ?_
      rw [List.map_map]
      exact nodup_fuzzyMatches _
    -- two lists without repetition: it is enough that their members agree
    refine (List.perm_ext_iff_of_nodup hcold hlocal).mpr ?_
    rintro ⟨id, rank⟩
    have hadmits : (id, rank) ∈ (ids.filterMap (fuzzyRowsHit query byScript ftsRows fuzzyRows)).map
          (fun hit => (hit.messageId, hit.rank)) ↔
        id ∈ ids ∧ ∃ hit, fuzzyRowsHit query byScript ftsRows fuzzyRows id = some hit ∧
          (hit.messageId, hit.rank) = (id, rank) := by
      simp only [List.mem_map, List.mem_filterMap]
      constructor
      · rintro ⟨hit, ⟨id', hid', hhit⟩, heq⟩
        obtain rfl : id' = id := (messageId_of_fuzzyRowsHit hhit).symm.trans (congrArg Prod.fst heq)
        exact ⟨hid', hit, hhit, heq⟩
      · rintro ⟨hid, hit, hhit, heq⟩
        exact ⟨hit, ⟨id, hid, hhit⟩, heq⟩
    have hmatches : (id, rank) ∈ (E.fuzzyMatches (trim query.queryString) db).map
          (fun m => (m.messageId, m.score * fuzzyWeight)) ↔
        ∃ score, (⟨id, score⟩ : FuzzyMatch) ∈ E.fuzzyMatches (trim query.queryString) db ∧
          score * fuzzyWeight = rank := by
      simp only [List.mem_map, Prod.mk.injEq]
      constructor
      · rintro ⟨⟨id', score⟩, hm, rfl, hrank⟩
        exact ⟨score, hm, hrank⟩
      · rintro ⟨score, hm, hrank⟩
        exact ⟨⟨id, score⟩, hm, rfl, hrank⟩
    rw [hadmits, hmatches]
    simp only [mem_fuzzyMatches_iff, and_assoc, exists_and_left]
    -- a candidate has a row with a token of the query
    have hin : id ∈ ids ↔ ∃ token script,
        (⟨token, script⟩ : FuzzyToken) ∈ generateTokens E.toLowercase (trim query.queryString) ∧
          (⟨token, script.toIso15924, id⟩ : FuzzyRow) ∈ db.fuzzy.rows := by
      rw [hids, mem_queriedIds]
      simp only [hsame]
    rw [← hin]
    refine and_congr_right fun hid => ?_
    obtain ⟨token, script, -, hrow⟩ := mem_queriedIds.mp hid
    obtain ⟨hmeta, hpasses⟩ := hbacked _ hrow
    rw [fuzzyRowsHit_eq_some_iff hmeta fun row hr hid => (hpasses row hr hid).1, overlapScore_agrees hdistinct hsame]

theorem messageId_of_textRowHit {qWords : List String} {row : FtsRow} {hit : ColdHit}
    (h : textRowHit E query qWords row = some hit) : hit.messageId = row.messageId := by
  unfold textRowHit at h
  dsimp only at h
  split_ifs at h
  rw [← Option.some.inj h]
  rfl

/-- The text branch has nothing to say of the messages of the fuzzy rows. -/
theorem textBranch_silent (hbacked : BackedByText E query ftsRows fuzzyRows) :
    (ftsRows.filterMap (textRowHit E query (lowercaseWordSet E (trim query.queryString)))).filter
      (fun hit => decide (hit.messageId ∈ fuzzyRows.map FuzzyRow.messageId)) = [] := by
  rw [List.filter_eq_nil_iff]
  intro hit hhit hin
  obtain ⟨row, hrow, hhit⟩ := List.mem_filterMap.mp hhit
  obtain ⟨fr, hfr, hid⟩ := List.mem_map.mp (of_decide_eq_true hin)
  have hown := messageId_of_textRowHit hhit
  have hnone := textRowHit_none ((hbacked fr hfr).2 row hrow (hid.trans hown).symm).2
  rw [hnone] at hhit
  cases hhit

/-- **Cold and local fuzzy scoring agree**: over the same rows, a bucket admits for the messages of its fuzzy rows exactly
what `searchFuzzy` returns without a limit, with the same scores under the fuzzy weight. -/
theorem coldFuzzy_agrees (hdistinct : fuzzyRows.Nodup) (hsame : ∀ r, r ∈ db.fuzzy.rows ↔ r ∈ fuzzyRows)
    (hbacked : BackedByText E query ftsRows fuzzyRows) {limit : Nat} (hlimit : fuzzyRows.length ≤ limit) :
    (((bucketHits E query ftsRows fuzzyRows).filter
        fun hit => decide (hit.messageId ∈ fuzzyRows.map FuzzyRow.messageId)).map
      fun hit => (hit.messageId, hit.rank)).Perm
      ((searchFuzzy E db (trim query.queryString) limit).map fun m => (m.messageId, m.score * fuzzyWeight)) := by
  have hown : (fuzzyBranch E query ftsRows fuzzyRows).filter
      (fun hit => decide (hit.messageId ∈ fuzzyRows.map FuzzyRow.messageId)) = fuzzyBranch E query ftsRows fuzzyRows := by
    refine List.filter_eq_self.mpr fun hit hhit => decide_eq_true ?_
    unfold fuzzyBranch at hhit
    dsimp only at hhit
    split_ifs at hhit
    · exact absurd hhit List.not_mem_nil
    · obtain ⟨id, hid, hhit⟩ := List.mem_filterMap.mp hhit
      obtain ⟨token, script, -, hrow⟩ := mem_queriedIds.mp hid
      rw [messageId_of_fuzzyRowsHit hhit]
      exact List.mem_map.mpr ⟨_, hrow, rfl⟩
  have hperm := fuzzyBranch_perm hdistinct hsame hbacked
  rw [bucketHits_eq, List.filter_append, textBranch_silent hbacked, List.nil_append, hown]
  refine hperm.trans ?_
  -- the limit leaves room for every match: there are at most as many as rows
  have hroom : (E.fuzzyMatches (trim query.queryString) db).length ≤ limit := by
    refine le_trans ?_ hlimit
    have hids : (E.fuzzyMatches (trim query.queryString) db).map FuzzyMatch.messageId ⊆
        fuzzyRows.map FuzzyRow.messageId := by
      intro id hid
      obtain ⟨m, hm, rfl⟩ := List.mem_map.mp hid
      obtain ⟨r, hr, hid⟩ := (mem_fuzzyMatches hm).1
      exact List.mem_map.mpr ⟨r, (hsame r).mp hr, hid⟩
    have hlength := ((nodup_fuzzyMatches _).subperm hids).length_le
    rwa [List.length_map, List.length_map] at hlength
  refine List.Perm.map _ ((List.perm_ext_iff_of_nodup ?_ ?_).mpr fun m => (searchFuzzy_complete hroom).symm)
  · exact List.Nodup.of_map _ (nodup_fuzzyMatches _)
  · exact List.Nodup.of_map _ nodup_searchFuzzy

end Agreement

/-- A fuzzy row of a message. -/
def meeRow : FuzzyRow := ⟨"mee", "Latn", Uuid.toText ⟨1⟩⟩

/-- The text row of the message, which has no word of the query. -/
def noteRow : FtsRow := ⟨Uuid.toText ⟨1⟩, ⟨2⟩, "bob", 0, "note"⟩

/-- The query. -/
def meetQuery : SearchQuery := ⟨"meet", none, none, none, none, none, .global⟩

/-- The local store with the row. -/
def meeStore : LocalStoreDb :=
  { LocalStoreDb.fresh Table.empty with fuzzy := Table.empty.insertOrIgnore meeRow }

theorem coldFuzzy_agrees_meet :
    (((bucketHits .plain meetQuery [noteRow] [meeRow]).filter
        fun hit => decide (hit.messageId ∈ [meeRow].map FuzzyRow.messageId)).map
      fun hit => (hit.messageId, hit.rank)).Perm
      ((searchFuzzy .plain meeStore (trim meetQuery.queryString) 1).map fun m => (m.messageId, m.score * fuzzyWeight)) := by
  have hbacked : BackedByText .plain meetQuery [noteRow] [meeRow] := by
    unfold BackedByText MatchesNoWord
    simp only [List.mem_singleton, forall_eq, exists_eq_left]
    decide +kernel
  exact coldFuzzy_agrees (List.nodup_singleton _) (fun r => Iff.rfl) hbacked le_rfl

end KChatCore.Search
