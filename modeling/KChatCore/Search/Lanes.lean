import KChatCore.Search.QueryEngine

/-!
# `Search.Lanes` — what each lane of a search returns

A result says something of a message (`named`); weighing, marking and sorting change nothing of it. So each lane is
described by the messages it names:

* the structured lane names the skeletons that meet the clauses;
* the text lane has one result for each row id that some index selects and the filter lets through (`TextHit`);
* the vector lane names skeletons that meet the clauses, under ids of vectors.

Each description is exact as long as the limit leaves room.
-/

namespace KChatCore.Search

open Lib LocalStore

namespace QueryEngine

variable {e : QueryEngine} {E : SearchPlatform} {query : SearchQuery} {scope : SearchScope} {limit : Nat}
  {out : List RankedResult} {pass : LookupPass}

/-! ## The order of a hash map -/

theorem mem_intoValues {results : List RankedResult} {r : RankedResult} : r ∈ e.intoValues results ↔ r ∈ results :=
  (e.intoValues_perm results).mem_iff

@[simp] theorem intoValues_nil : e.intoValues [] = [] := (e.intoValues_perm []).eq_nil

@[simp] theorem length_intoValues (results : List RankedResult) : (e.intoValues results).length = results.length :=
  (e.intoValues_perm results).length_eq

/-! ## What stays of a result -/

@[simp] theorem named_markCold (e : QueryEngine) (r : RankedResult) : (e.markCold r).named = r.named := by
  unfold markCold
  split_ifs <;> rfl

@[simp] theorem named_addFuzzy (r : RankedResult) (hit : FuzzyMatch) : (addFuzzy r hit).named = r.named := rfl

@[simp] theorem named_addSimilarity (similarity : Rat) (r : RankedResult) :
    (addSimilarity similarity r).named = r.named := rfl

@[simp] theorem named_skeletonResult (skel : MessageSkeleton) (rankScore : Rat) (semanticScore : Option Rat) :
    (skeletonResult skel rankScore semanticScore).named = named skel := rfl

/-- Marking changes no name. -/
theorem map_named_markColdResults (results : List RankedResult) :
    (e.markColdResults scope results).map RankedResult.named = results.map RankedResult.named := by
  unfold markColdResults
  split_ifs
  · rw [List.map_map]
    apply List.map_congr_left
    intro r _
    exact named_markCold e r
  · rfl

theorem map_named_applyRecencyAndKindWeight (results : List RankedResult) :
    (e.applyRecencyAndKindWeight E results).map RankedResult.named = results.map RankedResult.named := by
  unfold applyRecencyAndKindWeight
  rw [List.map_map]
  rfl

/-- A member of a list with the same names. -/
theorem exists_named_of_map_eq {l l' : List RankedResult} (h : l.map RankedResult.named = l'.map RankedResult.named)
    {r : RankedResult} (hr : r ∈ l) : ∃ r' ∈ l', r'.named = r.named := by
  have hmem : r.named ∈ l'.map RankedResult.named := h ▸ List.mem_map_of_mem hr
  exact List.mem_map.mp hmem

/-! ## Clauses -/

/-- **What the filter lets through**, of the ids it was asked about. -/
theorem isAllowed_iff {candidates : List IdText} {id : IdText} (hid : id ∈ candidates) :
    isAllowed (e.allowedSkeletonIds pass query candidates) id = true ↔
      e.clauses pass query = [] ∨ ∃ skel, e.db.skeletonOf id = some skel ∧ e.admits pass query skel = true := by
  unfold allowedSkeletonIds
  by_cases hnone : (e.clauses pass query).isEmpty = true
  · rw [if_pos hnone]
    exact iff_of_true rfl (.inl (List.isEmpty_iff.mp hnone))
  · have hcandidates : ¬ candidates.isEmpty = true := by
      intro hempty
      rw [List.isEmpty_iff.mp hempty] at hid
      exact absurd hid (by simp)
    rw [if_neg hnone, if_neg hcandidates]
    rw [List.isEmpty_iff] at hnone
    simp only [isAllowed, decide_eq_true_eq, List.mem_map, List.mem_filter, Bool.and_eq_true, hnone, false_or]
    constructor
    · rintro ⟨skel, ⟨hmem, hadmits, -⟩, rfl⟩
      exact ⟨skel, Table.find?_of_mem hmem, hadmits⟩
    · rintro ⟨skel, hskel, hadmits⟩
      obtain ⟨rfl, hfound⟩ := LocalStoreDb.skeletonOf_eq_some.mp hskel
      exact ⟨skel, ⟨Table.mem_of_find? hfound, hadmits, hid⟩, rfl⟩

/-- Without clauses every skeleton is admitted. -/
theorem admits_of_clauses_eq_nil (h : e.clauses pass query = []) (skel : MessageSkeleton) :
    e.admits pass query skel = true := by
  unfold admits
  rw [h]
  rfl

/-! ## The text lane -/

/-- What an index selects an id for: a row of the text index, or the n-grams of a message that is there. -/
inductive Selected (e : QueryEngine) (E : SearchPlatform) (queryString : String) (id : IdText) : Named → Prop
  | text {row : FtsRow} (hrow : row ∈ e.db.fts) (hselects : E.selects queryString row.textContent = true)
      (hid : row.messageId = id) :
      Selected e E queryString id ⟨uuidOrNil id, row.conversationId, row.senderId, row.createdAtMs⟩
  | fuzzy {skel : MessageSkeleton} {hit : FuzzyMatch} (hhit : hit ∈ E.fuzzyMatches queryString e.db)
      (hid : hit.messageId = id) (hskel : e.db.skeletonOf id = some skel) : Selected e E queryString id (named skel)

/-- **A hit of the text lane**: selected, and let through. -/
structure TextHit (e : QueryEngine) (E : SearchPlatform) (query : SearchQuery) (id : IdText) (n : Named) : Prop where
  selected : Selected e E (trim query.queryString) id n
  allowed : e.clauses .first query = [] ∨
    ∃ skel, e.db.skeletonOf id = some skel ∧ e.admits .first query skel = true

/-- A name under the id it was selected for. -/
theorem Selected.messageId {queryString : String} {id : IdText} {n : Named} (h : Selected e E queryString id n) :
    n.messageId = uuidOrNil id := by
  cases h with
  | text hrow hselects hid => rfl
  | fuzzy hhit hid hskel =>
      obtain ⟨rfl, -⟩ := LocalStoreDb.skeletonOf_eq_some.mp hskel
      rfl

section Merge

variable {allowed : Option (List IdText)} {ftsHits : List FtsMatch} {fuzzyHits : List FuzzyMatch} {id : IdText}

/-- What an entry of the merge is named: by the text hit that was inserted last, or by the skeleton. -/
theorem named_lookup_mergeTextHits :
    ((e.mergeTextHits allowed ftsHits fuzzyHits).lookup id).map RankedResult.named =
      (((textById allowed ftsHits).lookup id).map RankedResult.named).or
        ((fuzzyHits.filter fun hit => isAllowed allowed hit.messageId).findSome? fun hit =>
          if hit.messageId = id then
            (e.fuzzyResult (fuzzyOnlyIds (textById allowed ftsHits) fuzzyHits) hit).map RankedResult.named
          else none) :=
  lookup_foldl_mergeHit named_addFuzzy _ id

/-- **An entry of the merge** is under an allowed id, and named by a text hit or by a skeleton. -/
theorem of_lookup_mergeTextHits {r : RankedResult} (h : (e.mergeTextHits allowed ftsHits fuzzyHits).lookup id = some r) :
    isAllowed allowed id = true ∧ ((∃ hit ∈ ftsHits, hit.messageId = id ∧ r.named = (ftsResult hit).named) ∨
      ∃ hit ∈ fuzzyHits, hit.messageId = id ∧ ∃ skel, e.db.skeletonOf id = some skel ∧ r.named = named skel) := by
  have hname := @named_lookup_mergeTextHits e allowed ftsHits fuzzyHits id
  rw [h] at hname
  cases htext : (textById allowed ftsHits).lookup id with
  | some r₀ =>
      rw [htext] at hname
      obtain ⟨hit, hhit, rfl, rfl⟩ := of_lookup_insertHits htext
      obtain ⟨hmem, hallowed⟩ := List.mem_filter.mp hhit
      exact ⟨hallowed, .inl ⟨hit, hmem, rfl, Option.some.inj hname⟩⟩
  | none =>
      rw [htext] at hname
      obtain ⟨hit, hhit, hnew⟩ := List.exists_of_findSome?_eq_some hname.symm
      obtain ⟨hmem, hallowed⟩ := List.mem_filter.mp hhit
      by_cases hid : hit.messageId = id
      · subst hid
        rw [if_pos rfl] at hnew
        unfold fuzzyResult fetchSkeletonBasicInfo at hnew
        split_ifs at hnew
        · rw [Option.map_map, Option.map_eq_some_iff] at hnew
          obtain ⟨skel, hskel, hnamed⟩ := hnew
          exact ⟨hallowed, .inr ⟨hit, hmem, rfl, skel, hskel, hnamed.symm⟩⟩
        · exact absurd hnew (by simp)
      · rw [if_neg hid] at hnew
        exact absurd hnew (by simp)

/-- **Every allowed hit has its entry.** -/
theorem exists_lookup_mergeTextHits (hallowed : isAllowed allowed id = true)
    (h : (∃ hit ∈ ftsHits, hit.messageId = id) ∨
      ∃ hit ∈ fuzzyHits, hit.messageId = id ∧ ∃ skel, e.db.skeletonOf id = some skel) :
    ∃ r, (e.mergeTextHits allowed ftsHits fuzzyHits).lookup id = some r := by
  apply Option.isSome_iff_exists.mp
  rw [← Option.isSome_map (f := RankedResult.named), named_lookup_mergeTextHits]
  cases htext : (textById allowed ftsHits).lookup id with
  | some r => rfl
  | none =>
      rcases h with ⟨hit, hhit, rfl⟩ | ⟨hit, hhit, rfl, skel, hskel⟩
      · have hmem : hit ∈ ftsHits.filter fun hit => isAllowed allowed hit.messageId :=
          List.mem_filter.mpr ⟨hhit, hallowed⟩
        obtain ⟨hit', -, -, hfound⟩ : ∃ hit' ∈ _, FtsMatch.messageId hit' = hit.messageId ∧
            (textById allowed ftsHits).lookup hit.messageId = some (ftsResult hit') := lookup_insertHits_of_mem hmem
        exact absurd (htext.symm.trans hfound) (by simp)
      · show (List.findSome? _ _).isSome = true
        have hmem : hit ∈ fuzzyHits.filter fun hit => isAllowed allowed hit.messageId :=
          List.mem_filter.mpr ⟨hhit, hallowed⟩
        have honly : hit.messageId ∈ fuzzyOnlyIds (textById allowed ftsHits) fuzzyHits :=
          List.mem_map.mpr ⟨hit, List.mem_filter.mpr ⟨hhit, by rw [htext]; rfl⟩, rfl⟩
        rw [List.findSome?_isSome_iff]
        exact ⟨hit, hmem, by simp [fuzzyResult, fetchSkeletonBasicInfo, honly, hskel]⟩

end Merge

/-! ### What the lane merges -/

section TextLane

variable {queryString : String} {id : IdText} {n : Named} {r : RankedResult}

/-- **The text lane**, before it is weighed: the hits of both indexes, by row id. -/
def textLane (e : QueryEngine) (E : SearchPlatform) (query : SearchQuery) (queryString : String) (limit : Nat) :
    AList fun _ : IdText => RankedResult :=
  let ftsHits := top rankLe (max (limit * 4) limit) (E.ftsMatches queryString e.db)
  let fuzzyHits := searchFuzzy E e.db queryString (max (limit * 4) limit)
  e.mergeTextHits (e.allowedSkeletonIds .first query (ftsHits.map FtsMatch.messageId ++ fuzzyHits.map FuzzyMatch.messageId))
    ftsHits fuzzyHits

/-- **The lane fails exactly when FTS5 does not take the expression.** -/
theorem executeFts_eq_ok : e.executeFtsAndFuzzyWithFilters E query queryString limit = .ok out ↔
    E.accepts queryString = true ∧
      out = top resultLe limit (e.applyRecencyAndKindWeight E (e.intoValues (values (e.textLane E query queryString limit)))) := by
  unfold executeFtsAndFuzzyWithFilters
  dsimp only
  cases hfts : searchFts E e.db queryString (max (limit * 4) limit) with
  | error fault =>
      have hrejected : ¬ E.accepts queryString = true := by
        intro haccepts
        exact absurd (hfts.symm.trans (searchFts_eq_ok.mpr ⟨haccepts, rfl⟩)) (by simp)
      simp [bind, Except.bind, Except.mapError, hrejected]
  | ok ftsHits =>
      obtain ⟨haccepts, rfl⟩ := searchFts_eq_ok.mp hfts
      simp only [bind, Except.bind, Except.mapError, pure, Except.pure, haccepts, true_and]
      unfold textLane
      dsimp only
      generalize top rankLe (max (limit * 4) limit) (E.ftsMatches queryString e.db) = ftsHits
      generalize searchFuzzy E e.db queryString (max (limit * 4) limit) = fuzzyHits
      by_cases hempty : (ftsHits.isEmpty && fuzzyHits.isEmpty) = true
      · rw [if_pos hempty]
        obtain ⟨hnofts, hnofuzzy⟩ := Bool.and_eq_true_iff.mp hempty
        rw [List.isEmpty_iff.mp hnofts, List.isEmpty_iff.mp hnofuzzy]
        simp [mergeTextHits, textById, insertHits, values, applyRecencyAndKindWeight, top, eq_comm]
      · rw [if_neg hempty, Except.ok.injEq, eq_comm]

/-- A text match names what its row says. -/
theorem selected_of_mem_ftsMatches {hit : FtsMatch} (h : hit ∈ E.ftsMatches queryString e.db) :
    Selected e E queryString hit.messageId (ftsResult hit).named := by
  obtain ⟨row, hrow, hselects, rfl⟩ := mem_ftsMatches.mp h
  exact Selected.text hrow hselects rfl

/-- **Every entry of the lane is a hit.** -/
theorem textHit_of_lookup (h : (e.textLane E query (trim query.queryString) limit).lookup id = some r) :
    TextHit e E query id r.named := by
  obtain ⟨hallowed, hhit⟩ := of_lookup_mergeTextHits h
  rcases hhit with ⟨hit, hhit, rfl, hname⟩ | ⟨hit, hhit, rfl, skel, hskel, hname⟩
  · rw [hname]
    refine ⟨selected_of_mem_ftsMatches (mem_of_mem_top hhit), (isAllowed_iff ?_).mp hallowed⟩
    exact List.mem_append_left _ (List.mem_map_of_mem hhit)
  · rw [hname]
    refine ⟨Selected.fuzzy (mem_searchFuzzy hhit) rfl hskel, (isAllowed_iff ?_).mp hallowed⟩
    exact List.mem_append_right _ (List.mem_map_of_mem hhit)

/-- How much the indexes select. -/
def selectedCount (e : QueryEngine) (E : SearchPlatform) (queryString : String) : Nat :=
  (E.ftsMatches queryString e.db).length + (E.fuzzyMatches queryString e.db).length

/-- The lane has at most as many entries. -/
theorem length_textLane_le : (values (e.textLane E query queryString limit)).length ≤ selectedCount e E queryString := by
  unfold textLane
  dsimp only
  generalize hfts : top rankLe (max (limit * 4) limit) (E.ftsMatches queryString e.db) = ftsHits
  generalize hfuzzy : searchFuzzy E e.db queryString (max (limit * 4) limit) = fuzzyHits
  generalize e.allowedSkeletonIds .first query _ = allowed
  have hkeys : (values (e.mergeTextHits allowed ftsHits fuzzyHits)).length ≤
      (ftsHits.map FtsMatch.messageId ++ fuzzyHits.map FuzzyMatch.messageId).length := by
    apply length_values_le
    intro id hid
    obtain ⟨r, hfound⟩ := Option.ne_none_iff_exists'.mp hid
    obtain ⟨-, ⟨hit, hhit, rfl, -⟩ | ⟨hit, hhit, rfl, -⟩⟩ := of_lookup_mergeTextHits hfound
    · exact List.mem_append_left _ (List.mem_map_of_mem hhit)
    · exact List.mem_append_right _ (List.mem_map_of_mem hhit)
  have hleft : ftsHits.length ≤ (E.ftsMatches queryString e.db).length := hfts ▸ length_top_le_length
  have hright : fuzzyHits.length ≤ (E.fuzzyMatches queryString e.db).length := hfuzzy ▸ length_searchFuzzy_le
  rw [List.length_append, List.length_map, List.length_map] at hkeys
  unfold selectedCount
  omega

/-- **Where the limit leaves room, every hit has its entry.** -/
theorem exists_lookup_textLane (hroom : selectedCount e E (trim query.queryString) ≤ limit) (hhit : TextHit e E query id n) :
    ∃ r, (e.textLane E query (trim query.queryString) limit).lookup id = some r := by
  unfold selectedCount at hroom
  have hfts : (E.ftsMatches (trim query.queryString) e.db).length ≤ max (limit * 4) limit := by omega
  have hfuzzy : (E.fuzzyMatches (trim query.queryString) e.db).length ≤ max (limit * 4) limit := by omega
  unfold textLane
  dsimp only
  -- what was selected is among the hits that were fetched
  have hfetched : (∃ hit ∈ top rankLe (max (limit * 4) limit) (E.ftsMatches (trim query.queryString) e.db),
      hit.messageId = id) ∨ ∃ hit ∈ searchFuzzy E e.db (trim query.queryString) (max (limit * 4) limit),
        hit.messageId = id ∧ ∃ skel, e.db.skeletonOf id = some skel := by
    cases hhit.selected with
    | @text row hrow hselects hid =>
        exact .inl ⟨E.ftsMatchOf _ e.db.fts row, (mem_top hfts).mpr (mem_ftsMatches.mpr ⟨row, hrow, hselects, rfl⟩), hid⟩
    | @fuzzy skel hit hmatch hid hskel =>
        exact .inr ⟨hit, (searchFuzzy_complete hfuzzy).mpr hmatch, hid, skel, hskel⟩
  apply exists_lookup_mergeTextHits _ hfetched
  apply (isAllowed_iff _).mpr hhit.allowed
  rcases hfetched with ⟨hit, hmem, rfl⟩ | ⟨hit, hmem, rfl, -⟩
  · exact List.mem_append_left _ (List.mem_map_of_mem hmem)
  · exact List.mem_append_right _ (List.mem_map_of_mem hmem)

/-- **Every result of the lane is named by a hit.** -/
theorem textHit_of_mem (h : e.executeFtsAndFuzzyWithFilters E query (trim query.queryString) limit = .ok out)
    (hr : r ∈ out) : ∃ id, TextHit e E query id r.named := by
  obtain ⟨-, rfl⟩ := executeFts_eq_ok.mp h
  obtain ⟨r', hr', hnamed⟩ := exists_named_of_map_eq (map_named_applyRecencyAndKindWeight _) (mem_of_mem_top hr)
  obtain ⟨id, hfound⟩ := mem_values.mp (mem_intoValues.mp hr')
  exact ⟨id, hnamed ▸ textHit_of_lookup hfound⟩

/-- Nothing of the lane is cut where the limit leaves room. -/
theorem mem_top_textLane (hroom : selectedCount e E queryString ≤ limit) :
    r ∈ top resultLe limit (e.applyRecencyAndKindWeight E (e.intoValues (values (e.textLane E query queryString limit)))) ↔
      r ∈ e.applyRecencyAndKindWeight E (e.intoValues (values (e.textLane E query queryString limit))) := by
  apply mem_top
  unfold applyRecencyAndKindWeight
  rw [List.length_map, length_intoValues]
  exact length_textLane_le.trans hroom

/-- **Where the limit leaves room, the lane has a result under the id of every hit.** -/
theorem exists_mem_of_textHit (h : e.executeFtsAndFuzzyWithFilters E query (trim query.queryString) limit = .ok out)
    (hroom : selectedCount e E (trim query.queryString) ≤ limit) (hhit : TextHit e E query id n) :
    ∃ r ∈ out, r.messageId = uuidOrNil id := by
  obtain ⟨-, rfl⟩ := executeFts_eq_ok.mp h
  obtain ⟨r, hfound⟩ := exists_lookup_textLane hroom hhit
  obtain ⟨r', hr', hnamed⟩ := exists_named_of_map_eq (map_named_applyRecencyAndKindWeight (e := e) (E := E) _).symm
    (mem_intoValues.mpr (mem_values.mpr ⟨id, hfound⟩))
  refine ⟨r', (mem_top_textLane hroom).mpr hr', ?_⟩
  rw [← (textHit_of_lookup hfound).selected.messageId]
  exact congrArg Named.messageId hnamed

end TextLane

/-! ## The local search -/

/-- What the local search names: by its text, or without text by its clauses. -/
inductive LocalHit (e : QueryEngine) (E : SearchPlatform) (query : SearchQuery) : Named → Prop
  | structured {skel : MessageSkeleton} (hblank : (trim query.queryString).isEmpty = true)
      (hskel : e.db.skeletons.find? skel.messageId = some skel) (hadmits : e.admits .first query skel = true) :
      LocalHit e E query (named skel)
  | text {id : IdText} {n : Named} (htext : (trim query.queryString).isEmpty = false) (hhit : TextHit e E query id n) :
      LocalHit e E query n

/-- The local search without text. -/
theorem executeSearchWithLimit_of_blank (h : (trim query.queryString).isEmpty = true) :
    e.executeSearchWithLimit E query scope limit = .ok (e.markColdResults scope (e.executeStructuredOnly query limit)) := by
  unfold executeSearchWithLimit
  simp only [h, if_true]
  rfl

/-- The local search with text. -/
theorem executeSearchWithLimit_of_text (h : (trim query.queryString).isEmpty = false) :
    e.executeSearchWithLimit E query scope limit = .ok out ↔ E.accepts (trim query.queryString) = true ∧
      out = e.markColdResults scope (top resultLe limit (e.applyRecencyAndKindWeight E
        (e.intoValues (values (e.textLane E query (trim query.queryString) limit))))) := by
  unfold executeSearchWithLimit
  simp only [h, Bool.false_eq_true, if_false]
  rw [except_bind_eq_ok]
  constructor
  · rintro ⟨found, hfound, hout⟩
    obtain ⟨haccepts, rfl⟩ := executeFts_eq_ok.mp hfound
    exact ⟨haccepts, (Except.ok.inj hout).symm⟩
  · rintro ⟨haccepts, rfl⟩
    exact ⟨_, executeFts_eq_ok.mpr ⟨haccepts, rfl⟩, rfl⟩

theorem mem_executeStructuredOnly {r : RankedResult} (h : r ∈ e.executeStructuredOnly query limit) :
    ∃ skel, e.db.skeletons.find? skel.messageId = some skel ∧ e.admits .first query skel = true ∧
      r = skeletonResult skel 0 none := by
  unfold executeStructuredOnly at h
  obtain ⟨skel, hskel, rfl⟩ := List.mem_map.mp h
  obtain ⟨hmem, hadmits⟩ := List.mem_filter.mp (mem_of_mem_top hskel)
  exact ⟨skel, Table.find?_of_mem hmem, hadmits, rfl⟩

/-- **Every result of the local search is a hit.** -/
theorem localHit_of_mem (h : e.executeSearchWithLimit E query scope limit = .ok out) {r : RankedResult} (hr : r ∈ out) :
    LocalHit e E query r.named := by
  cases hblank : (trim query.queryString).isEmpty with
  | true =>
      rw [executeSearchWithLimit_of_blank hblank] at h
      obtain rfl := Except.ok.inj h
      obtain ⟨r', hr', hnamed⟩ := exists_named_of_map_eq (map_named_markColdResults _) hr
      obtain ⟨skel, hskel, hadmits, rfl⟩ := mem_executeStructuredOnly hr'
      exact hnamed ▸ LocalHit.structured hblank hskel hadmits
  | false =>
      obtain ⟨haccepts, rfl⟩ := (executeSearchWithLimit_of_text hblank).mp h
      obtain ⟨r', hr', hnamed⟩ := exists_named_of_map_eq (map_named_markColdResults _) hr
      obtain ⟨id, hhit⟩ := textHit_of_mem (executeFts_eq_ok.mpr ⟨haccepts, rfl⟩) hr'
      exact hnamed ▸ LocalHit.text hblank hhit

/-- The local search returns wherever FTS5 takes the expression. -/
theorem executeSearchWithLimit_isOk (h : E.accepts (trim query.queryString) = true) :
    ∃ out, e.executeSearchWithLimit E query scope limit = .ok out := by
  cases hblank : (trim query.queryString).isEmpty with
  | true => exact ⟨_, executeSearchWithLimit_of_blank hblank⟩
  | false => exact ⟨_, (executeSearchWithLimit_of_text hblank).mpr ⟨h, rfl⟩⟩

/-! ## The vector lane -/

/-- A name the vector lane adds: of a skeleton that meets the clauses, under the id of a vector. -/
structure VectorHit (e : QueryEngine) (query : SearchQuery) (skel : MessageSkeleton) : Prop where
  skeleton : e.db.skeletons.find? skel.messageId = some skel
  allowed : e.clauses .later query = [] ∨ e.admits .later query skel = true
  vector : ∃ r ∈ e.db.vectors.rows, r.messageId = skel.messageId.toText

section Vectors

variable {byId : AList fun _ : IdText => Nat} {skeletons : IdText → Option MessageSkeleton} {nowMs : Int}

/-- What one vector hit changes of the names: nothing, or one more. -/
theorem map_named_addSemanticHit (results : List RankedResult) (hit : SemanticMatch) :
    (e.addSemanticHit E byId skeletons nowMs results hit).map RankedResult.named =
      results.map RankedResult.named ++
        (if (byId.lookup hit.messageId).isSome then [] else ((skeletons hit.messageId).map named).toList) := by
  unfold addSemanticHit
  cases byId.lookup hit.messageId with
  | some i =>
      show (results.modify i (addSimilarity hit.similarity)).map RankedResult.named = _
      rw [Option.isSome_some, if_pos rfl, List.append_nil]
      apply List.ext_getElem?
      intro j
      rw [List.getElem?_map, List.getElem?_map, List.getElem?_modify]
      cases results[j]? with
      | none => rfl
      | some r =>
          show some (RankedResult.named _) = some r.named
          split_ifs <;> rfl
  | none =>
      cases hskel : skeletons hit.messageId with
      | none => simp
      | some skel => simp

/-- **The names after the vector hits**: the local ones, then one for each skeleton that was fetched. -/
theorem map_named_mergeSemanticHits (found : List RankedResult) (hits : List SemanticMatch) :
    (hits.foldl (e.addSemanticHit E byId skeletons nowMs) found).map RankedResult.named =
      found.map RankedResult.named ++ (((hits.filter fun hit => (byId.lookup hit.messageId).isNone).map
        SemanticMatch.messageId).filterMap skeletons).map named := by
  induction hits generalizing found with
  | nil => simp
  | cons hit hits ih =>
      rw [List.foldl_cons, ih, map_named_addSemanticHit]
      cases hknown : byId.lookup hit.messageId with
      | some i => simp [hknown]
      | none =>
          cases hskel : skeletons hit.messageId with
          | none => simp [hknown, hskel]
          | some skel => simp [hknown, hskel]

/-- A message without a place among the results has none of them. -/
theorem indexById_lookup_eq_none {found : List RankedResult} {id : IdText} :
    (indexById found).lookup id = none ↔ ∀ r ∈ found, r.messageId.toText ≠ id := by
  constructor
  · rintro hnone r hr rfl
    obtain ⟨i, hi⟩ := List.getElem?_of_mem hr
    have hmem : (r, i) ∈ found.zipIdx := List.mem_zipIdx_iff_getElem?.mpr hi
    obtain ⟨p, -, -, hfound⟩ : ∃ p ∈ found.zipIdx, p.1.messageId.toText = r.messageId.toText ∧
        (indexById found).lookup r.messageId.toText = some p.2 := lookup_insertHits_of_mem hmem
    exact absurd (hnone.symm.trans hfound) (by simp)
  · intro hno
    by_contra hsome
    obtain ⟨i, hi⟩ := Option.ne_none_iff_exists'.mp hsome
    obtain ⟨p, hp, hid, -⟩ := of_lookup_insertHits hi
    exact hno p.1 (List.fst_mem_of_mem_zipIdx hp) hid

/-- The vector hits of a search; there are none without text or without an embedding. -/
def vectorHits (e : QueryEngine) (E : SearchPlatform) (query : SearchQuery) (embed : String → Except Error (List Rat))
    (modelVersion : Option String) (limit : Nat) : List SemanticMatch :=
  if (trim query.queryString).isEmpty then []
  else
    match embed (trim query.queryString) with
    | .error _ => []
    | .ok embedding => searchSemantic E e.db embedding query.conversationFilter (max limit 1)
        (some (modelVersion.getD Message.xlmrModelVersion))

/-- The ids of the vector hits that are not among the results. -/
def newIds (found : List RankedResult) (hits : List SemanticMatch) : List IdText :=
  (hits.filter fun hit => ((indexById found).lookup hit.messageId).isNone).map SemanticMatch.messageId

/-- **The skeletons the vector hits add.** -/
def newSkeletons (e : QueryEngine) (query : SearchQuery) (found : List RankedResult) (hits : List SemanticMatch) :
    List MessageSkeleton :=
  (newIds found hits).filterMap (e.fetchSkeletonBasicInfo
    ((newIds found hits).filter (isAllowed (e.allowedSkeletonIds .later query (newIds found hits)))))

theorem map_named_merge (found : List RankedResult) (hits : List SemanticMatch) :
    (e.mergeSemanticHits E query found hits).map RankedResult.named =
      found.map RankedResult.named ++ (e.newSkeletons query found hits).map named :=
  map_named_mergeSemanticHits found hits

/-- **A skeleton that is added** is named by a hit that no result has, and meets the clauses. -/
theorem mem_newSkeletons {found : List RankedResult} {hits : List SemanticMatch} {skel : MessageSkeleton}
    (h : skel ∈ e.newSkeletons query found hits) :
    e.db.skeletons.find? skel.messageId = some skel ∧ (e.clauses .later query = [] ∨ e.admits .later query skel = true) ∧
      (∃ hit ∈ hits, hit.messageId = skel.messageId.toText) ∧ ∀ r ∈ found, r.messageId ≠ skel.messageId := by
  obtain ⟨id, hid, hfetched⟩ := List.mem_filterMap.mp h
  unfold fetchSkeletonBasicInfo at hfetched
  split_ifs at hfetched with hmem
  obtain ⟨rfl, hskel⟩ := LocalStoreDb.skeletonOf_eq_some.mp hfetched
  obtain ⟨hit, hhit, hname⟩ := List.mem_map.mp hid
  obtain ⟨hhit, hnone⟩ := List.mem_filter.mp hhit
  refine ⟨hskel, ?_, ⟨hit, hhit, hname⟩, ?_⟩
  · refine ((isAllowed_iff hid).mp (List.mem_filter.mp hmem).2).imp_right ?_
    rintro ⟨skel', hskel', hadmits⟩
    obtain rfl := Option.some.inj (hfetched.symm.trans hskel')
    exact hadmits
  · intro r hr heq
    rw [Option.isNone_iff_eq_none, hname] at hnone
    exact indexById_lookup_eq_none.mp hnone r hr (congrArg Uuid.toText heq)

end Vectors

/-- **The semantic search**: the local one where no vector hits, else the merge. -/
theorem executeSearchWithSemantic_eq_ok {embed : String → Except Error (List Rat)} {modelVersion : Option String} :
    e.executeSearchWithSemantic E query scope embed modelVersion limit = .ok out ↔
      ∃ found, e.executeSearchWithLimit E query scope limit = .ok found ∧
        out = if (e.vectorHits E query embed modelVersion limit).isEmpty = true then found
          else e.markColdResults scope (top resultLe limit
            (e.mergeSemanticHits E query found (e.vectorHits E query embed modelVersion limit))) := by
  unfold executeSearchWithSemantic vectorHits
  rw [except_bind_eq_ok]
  dsimp only
  apply exists_congr
  intro found
  apply and_congr_right
  intro _
  by_cases hblank : (trim query.queryString).isEmpty = true
  · simp [hblank, pure, Except.pure, eq_comm]
  · rw [if_neg hblank, if_neg hblank]
    cases embed (trim query.queryString) with
    | error fault => simp [pure, Except.pure, eq_comm]
    | ok embedding =>
        simp only [pure, Except.pure]
        by_cases hnone : (searchSemantic E e.db embedding query.conversationFilter (max limit 1)
            (some (modelVersion.getD Message.xlmrModelVersion))).isEmpty = true
        · rw [if_pos hnone, if_pos hnone, Except.ok.injEq, eq_comm]
        · rw [if_neg hnone, if_neg hnone, Except.ok.injEq, eq_comm]

section VectorLane

variable {embed : String → Except Error (List Rat)} {modelVersion : Option String}

theorem nodup_vectorHits : ((e.vectorHits E query embed modelVersion limit).map SemanticMatch.messageId).Nodup := by
  unfold vectorHits
  split_ifs
  · simp
  · cases embed (trim query.queryString) with
    | error fault => simp
    | ok embedding => exact nodup_searchSemantic

theorem vector_of_mem_vectorHits {hit : SemanticMatch} (h : hit ∈ e.vectorHits E query embed modelVersion limit) :
    ∃ r ∈ e.db.vectors.rows, r.messageId = hit.messageId := by
  unfold vectorHits at h
  split_ifs at h
  · exact absurd h (by simp)
  · cases hembed : embed (trim query.queryString) with
    | error fault =>
        rw [hembed] at h
        exact absurd h (by simp)
    | ok embedding =>
        rw [hembed] at h
        exact mem_searchSemantic h

/-- **Every result of the semantic search** is one of the local search, or of a skeleton the vector lane adds. -/
theorem hit_of_mem_semantic (h : e.executeSearchWithSemantic E query scope embed modelVersion limit = .ok out)
    {r : RankedResult} (hr : r ∈ out) :
    LocalHit e E query r.named ∨ ∃ skel, VectorHit e query skel ∧ r.named = named skel := by
  obtain ⟨found, hfound, rfl⟩ := executeSearchWithSemantic_eq_ok.mp h
  split_ifs at hr
  · exact .inl (localHit_of_mem hfound hr)
  · obtain ⟨r', hr', hnamed⟩ := exists_named_of_map_eq (map_named_markColdResults _) hr
    have hmem : r'.named ∈ (e.mergeSemanticHits E query found _).map RankedResult.named :=
      List.mem_map_of_mem (mem_of_mem_top hr')
    rw [map_named_merge, hnamed] at hmem
    rcases List.mem_append.mp hmem with hlocal | hnew
    · obtain ⟨r'', hr'', hnamed'⟩ := List.mem_map.mp hlocal
      exact .inl (hnamed' ▸ localHit_of_mem hfound hr'')
    · obtain ⟨skel, hskel, hnamed'⟩ := List.mem_map.mp hnew
      obtain ⟨hthere, hallowed, ⟨hit, hhit, hid⟩, -⟩ := mem_newSkeletons hskel
      obtain ⟨row, hrow, hrowid⟩ := vector_of_mem_vectorHits hhit
      exact .inr ⟨skel, ⟨hthere, hallowed, row, hrow, hrowid.trans hid⟩, hnamed'.symm⟩

end VectorLane

end QueryEngine

end KChatCore.Search
