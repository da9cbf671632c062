import KChatCore.Search.DeletedResults
import KChatCore.Search.RowNames

/-!
# `Search.NamedResults` — search results and the messages they name

A message owns rows of several ids: its own, under which its caption and a text extracted from it both stand, and one for
each page of a document. The engine merges hits by row id, reads a row id as the id of a message, and reads what is none
as the nil id.

* `SearchNamesMessages` — results name messages that are there, each once, and every message with a matching row is found
  by its best one.
* `RowsNameMessages` — the condition on the rows that match.
* `searchNamesMessages_iff` — in every history that drops no conversation, the one is the other.
-/

namespace KChatCore.Search

open Lib LocalStore Message

namespace QueryEngine

variable {e : QueryEngine} {E : SearchPlatform} {query : SearchQuery} {scope : SearchScope} {limit : Nat}
  {out : List RankedResult} {id : IdText} {r : RankedResult}

/-! ## The rows of an id -/

/-- What a matching row scores by itself, before it is weighed. -/
inductive RowScore (e : QueryEngine) (E : SearchPlatform) (query : SearchQuery) (id : IdText) : Rat → Prop
  | text {hit : FtsMatch} (hhit : hit ∈ E.ftsMatches (trim query.queryString) e.db) (hid : hit.messageId = id) :
      RowScore e E query id (-hit.bm25Score * bm25Weight)
  | fuzzy {hit : FuzzyMatch} (hhit : hit ∈ E.fuzzyMatches (trim query.queryString) e.db) (hid : hit.messageId = id) :
      RowScore e E query id (hit.score * fuzzyWeight)

/-- Of the text rows of an id that match, the one that ranks last. -/
def lowestMatch (e : QueryEngine) (E : SearchPlatform) (query : SearchQuery) (id : IdText) : Option FtsMatch :=
  ((E.ftsMatches (trim query.queryString) e.db).mergeSort rankLe).reverse.find? fun hit => hit.messageId = id

/-- The fuzzy match of an id. -/
def fuzzyMatch (e : QueryEngine) (E : SearchPlatform) (query : SearchQuery) (id : IdText) : Option FuzzyMatch :=
  (E.fuzzyMatches (trim query.queryString) e.db).find? fun hit => hit.messageId = id

/-- The score of that text row, and the fuzzy score. -/
def mergedScore (e : QueryEngine) (E : SearchPlatform) (query : SearchQuery) (id : IdText) : Rat :=
  ((e.lowestMatch E query id).map fun hit => -hit.bm25Score * bm25Weight).getD 0 +
    ((e.fuzzyMatch E query id).map fun hit => hit.score * fuzzyWeight).getD 0

/-- The hits of an allowed id are those of the id. -/
theorem find?_filter_allowed {α : Type} {allowed : Option (List IdText)} {messageId : α → IdText} {hits : List α}
    (hallowed : isAllowed allowed id = true) :
    ((hits.filter fun hit => isAllowed allowed (messageId hit)).find? fun hit => messageId hit = id) =
      hits.find? fun hit => messageId hit = id := by
  rw [List.find?_filter]
  congr 1
  funext hit
  by_cases hid : messageId hit = id
  · simp [hid, hallowed]
  · simp [hid]

/-- **An entry of the merge**: the text hit that was inserted last, with the fuzzy hit. -/
theorem lookup_mergeTextHits {allowed : Option (List IdText)} {ftsHits : List FtsMatch} {fuzzyHits : List FuzzyMatch}
    (hallowed : isAllowed allowed id = true) (hnodup : (fuzzyHits.map FuzzyMatch.messageId).Nodup) :
    (e.mergeTextHits allowed ftsHits fuzzyHits).lookup id =
      (fuzzyHits.find? fun hit => hit.messageId = id).elim
        ((ftsHits.reverse.find? fun hit => hit.messageId = id).map ftsResult) fun hit =>
          ((ftsHits.reverse.find? fun hit => hit.messageId = id).map ftsResult).elim
            (e.fuzzyResult (fuzzyOnlyIds (textById allowed ftsHits) fuzzyHits) hit) fun r => some (addFuzzy r hit) := by
  have htext : (textById allowed ftsHits).lookup id =
      (ftsHits.reverse.find? fun hit => hit.messageId = id).map ftsResult := by
    unfold textById
    rw [lookup_insertHits, AList.lookup_empty, Option.or_none, ← List.filter_reverse, find?_filter_allowed hallowed]
  have hdistinct : ((fuzzyHits.filter fun hit => isAllowed allowed hit.messageId).map FuzzyMatch.messageId).Nodup :=
    hnodup.sublist (List.filter_sublist.map _)
  unfold mergeTextHits
  dsimp only
  rw [lookup_foldl_mergeHit_of_nodup hdistinct, find?_filter_allowed hallowed, htext]

/-- **The text lane scores a row id by the lowest of its text rows**, and its fuzzy match. -/
theorem rankScore_of_lookup (h : (e.fullLane E query).lookup id = some r) : r.rankScore = e.mergedScore E query id := by
  have hroom : ∀ n : Nat, n ≤ max (n * 4) n := fun n => le_max_right _ _
  have hftsRoom : (E.ftsMatches (trim query.queryString) e.db).length ≤
      max (selectedCount e E (trim query.queryString) * 4) (selectedCount e E (trim query.queryString)) :=
    (Nat.le_add_right _ _).trans (hroom _)
  have hfuzzyRoom : (E.fuzzyMatches (trim query.queryString) e.db).length ≤
      max (selectedCount e E (trim query.queryString) * 4) (selectedCount e E (trim query.queryString)) :=
    (Nat.le_add_left _ _).trans (hroom _)
  unfold fullLane textLane at h
  dsimp only at h
  rw [searchFuzzy_eq_top, top_of_length_le hftsRoom, top_of_length_le hfuzzyRoom] at h
  obtain ⟨hallowed, -⟩ := of_lookup_mergeTextHits h
  -- the fuzzy index gives an id one hit; of several text hits the last one inserted stands
  have hsorted : (((E.fuzzyMatches (trim query.queryString) e.db).mergeSort
      (scoreLe FuzzyMatch.score FuzzyMatch.messageId)).map FuzzyMatch.messageId).Nodup :=
    ((List.mergeSort_perm _ _).map _).nodup_iff.mpr (nodup_fuzzyMatches _)
  rw [lookup_mergeTextHits hallowed hsorted, find?_eq_of_perm (List.mergeSort_perm _ _) hsorted] at h
  unfold mergedScore lowestMatch fuzzyMatch
  -- text only, fuzzy only, or both
  cases hfuzzy : (E.fuzzyMatches (trim query.queryString) e.db).find? fun hit => hit.messageId = id with
  | none =>
      rw [hfuzzy, Option.elim_none] at h
      obtain ⟨hit, hlowest, rfl⟩ := Option.map_eq_some_iff.mp h
      rw [hlowest]
      exact (add_zero _).symm
  | some fuzzy =>
      rw [hfuzzy, Option.elim_some] at h
      cases hlowest : ((E.ftsMatches (trim query.queryString) e.db).mergeSort rankLe).reverse.find? fun hit =>
          hit.messageId = id with
      | none =>
          rw [hlowest, Option.map_none, Option.elim_none] at h
          obtain ⟨skel, -, rfl⟩ := Option.map_eq_some_iff.mp h
          exact (zero_add _).symm
      | some hit =>
          rw [hlowest, Option.map_some, Option.elim_some] at h
          obtain rfl := Option.some.inj h
          rfl

/-- **What the lane names**, by its row ids. -/
theorem map_messageId_textLane : (values (e.textLane E query (trim query.queryString) limit)).map (fun r => r.messageId) =
    (e.textLane E query (trim query.queryString) limit).keys.map uuidOrNil := by
  unfold values AList.keys List.keys
  rw [List.map_map, List.map_map]
  apply List.map_congr_left
  rintro ⟨id, r⟩ hmem
  exact (textHit_of_lookup (AList.mem_lookup_iff.mpr hmem)).selected.messageId

/-! ## Weights -/

theorem kindWeight_pos (m : Uuid) : 0 < e.kindWeight m := by
  unfold kindWeight
  cases e.db.skeletons.find? m with
  | none => norm_num [textKindWeight]
  | some skel =>
      show 0 < kindStrToWeight skel.kind.asStr
      unfold kindStrToWeight
      split_ifs <;> norm_num [textKindWeight, mediaKindWeight]

/-- No message weighs nothing: age takes at most half of a score. -/
theorem messageWeight_pos (hrecency : ∀ ageMs, 0 ≤ E.recencyScore ageMs) (nowMs : Int) (m : Uuid) (createdAtMs : Int) :
    0 < e.messageWeight E nowMs m createdAtMs := by
  have hfactor : 0 < recencyFactor E (nowMs - createdAtMs) := by
    have hscore := hrecency (max (nowMs - createdAtMs) 0)
    unfold recencyFactor recencyWeight
    linarith
  exact mul_pos hfactor (kindWeight_pos m)

/-- The time that the text lane counts ages from. -/
def anchor (e : QueryEngine) (E : SearchPlatform) (query : SearchQuery) : Int :=
  newest ((values (e.fullLane E query)).map fun r => r.createdAtMs)

/-- A name and a score. -/
def scored (r : RankedResult) : Named × Rat := (r.named, r.rankScore)

theorem map_scored_markColdResults (results : List RankedResult) :
    (e.markColdResults scope results).map scored = results.map scored := by
  unfold markColdResults
  split_ifs
  · rw [List.map_map]
    apply List.map_congr_left
    intro r _
    simp [scored]
  · rfl

theorem exists_scored_markColdResults (scope : SearchScope) {results : List RankedResult} (hr : r ∈ results) :
    ∃ r' ∈ e.markColdResults scope results, scored r' = scored r := by
  have hmem : scored r ∈ (e.markColdResults scope results).map scored := by
    rw [map_scored_markColdResults]
    exact List.mem_map_of_mem hr
  exact List.mem_map.mp hmem

/-- **The local matches are the entries of the lane, weighed.** -/
theorem perm_scored_localMatches (scope : SearchScope) (htext : (trim query.queryString).isEmpty = false) :
    ((e.localMatches E query scope).map scored).Perm ((values (e.fullLane E query)).map fun r =>
      (r.named, r.rankScore * e.messageWeight E (e.anchor E query) r.messageId r.createdAtMs)) := by
  have hanchor : newest ((e.intoValues (values (e.fullLane E query))).map fun r => r.createdAtMs) = e.anchor E query :=
    newest_perm ((e.intoValues_perm _).map _)
  unfold localMatches
  rw [map_scored_markColdResults, htext, if_neg Bool.false_ne_true]
  refine ((List.mergeSort_perm _ _).map scored).trans ?_
  unfold applyRecencyAndKindWeight
  dsimp only
  rw [List.map_map, hanchor]
  exact (e.intoValues_perm _).map _

/-- Ages count from the newest of the local matches. -/
theorem newest_localMatches (htext : (trim query.queryString).isEmpty = false) :
    newest ((e.localMatches E query scope).map fun r => r.createdAtMs) = e.anchor E query := by
  apply newest_perm
  have hperm := (perm_scored_localMatches (e := e) (E := E) scope htext).map fun p => p.1.createdAtMs
  rw [List.map_map, List.map_map] at hperm
  exact hperm

/-- A local match is an entry of the lane. -/
theorem exists_lookup_of_mem (htext : (trim query.queryString).isEmpty = false) (hr : r ∈ e.localMatches E query scope) :
    ∃ id r₀, (e.fullLane E query).lookup id = some r₀ ∧ r.named = r₀.named ∧
      r.rankScore = e.mergedScore E query id * e.messageWeight E (e.anchor E query) r.messageId r.createdAtMs := by
  have hmem := (perm_scored_localMatches scope htext).mem_iff.mp (List.mem_map_of_mem (f := scored) hr)
  obtain ⟨r₀, hr₀, hscored⟩ := List.mem_map.mp hmem
  obtain ⟨id, hfound⟩ := mem_values.mp hr₀
  obtain ⟨hnamed, hscore⟩ := Prod.mk.inj hscored
  have hmessage : r₀.messageId = r.messageId := congrArg Named.messageId hnamed
  have hcreated : r₀.createdAtMs = r.createdAtMs := congrArg Named.createdAtMs hnamed
  refine ⟨id, r₀, hfound, hnamed.symm, ?_⟩
  rw [← hscore, hmessage, hcreated, rankScore_of_lookup hfound]

/-- An entry of the lane is a local match. -/
theorem exists_mem_of_lookup (scope : SearchScope) (htext : (trim query.queryString).isEmpty = false) {r₀ : RankedResult}
    (h : (e.fullLane E query).lookup id = some r₀) : ∃ r ∈ e.localMatches E query scope, r.named = r₀.named ∧
      r.rankScore = e.mergedScore E query id * e.messageWeight E (e.anchor E query) r₀.messageId r₀.createdAtMs := by
  have hmem : (r₀.named, r₀.rankScore * e.messageWeight E (e.anchor E query) r₀.messageId r₀.createdAtMs) ∈
      (values (e.fullLane E query)).map fun r =>
        (r.named, r.rankScore * e.messageWeight E (e.anchor E query) r.messageId r.createdAtMs) :=
    List.mem_map.mpr ⟨r₀, mem_values.mpr ⟨id, h⟩, rfl⟩
  obtain ⟨r, hr, hscored⟩ := List.mem_map.mp ((perm_scored_localMatches scope htext).mem_iff.mpr hmem)
  obtain ⟨hnamed, hscore⟩ := Prod.mk.inj hscored
  exact ⟨r, hr, hnamed, by rw [hscore, rankScore_of_lookup h]⟩

/-- **A limit with room for all that is selected** cuts nothing. -/
theorem textLanesKeep_of_room (hroom : selectedCount e E (trim query.queryString) ≤ limit) :
    TextLanesKeep e E query limit := by
  unfold selectedCount at hroom
  constructor
  · intro hit hhit
    have hcut : cut rankLe (max (limit * 4) limit) (E.ftsMatches (trim query.queryString) e.db) = [] :=
      List.drop_eq_nil_of_le (by rw [List.length_mergeSort]; omega)
    exact absurd (hcut ▸ hhit) List.not_mem_nil
  · intro hit hhit
    have hcut : cut (scoreLe FuzzyMatch.score FuzzyMatch.messageId) (max (limit * 4) limit)
        (E.fuzzyMatches (trim query.queryString) e.db) = [] :=
      List.drop_eq_nil_of_le (by rw [List.length_mergeSort]; omega)
    exact absurd (hcut ▸ hhit) List.not_mem_nil

theorem length_localMatches_le (htext : (trim query.queryString).isEmpty = false) :
    (e.localMatches E query scope).length ≤ selectedCount e E (trim query.queryString) := by
  have hlength := (perm_scored_localMatches (e := e) (E := E) scope htext).length_eq
  rw [List.length_map, List.length_map] at hlength
  rw [hlength]
  exact length_textLane_le

/-- **With room the local search returns all its matches.** -/
theorem eq_localMatches_of_room (htext : (trim query.queryString).isEmpty = false)
    (hroom : selectedCount e E (trim query.queryString) ≤ limit)
    (hout : e.executeSearchWithLimit E query scope limit = .ok out) : out = e.localMatches E query scope := by
  obtain ⟨haccepts, -⟩ := (executeSearchWithLimit_of_text htext).mp hout
  have hall : e.executeSearchWithLimit E query scope limit = .ok ((e.localMatches E query scope).take limit) :=
    executeSearchWithLimit_of_keeps haccepts (textLanesKeep_of_room hroom)
  rw [List.take_of_length_le ((length_localMatches_le htext).trans hroom)] at hall
  exact Except.ok.inj (hout.symm.trans hall)

/-! ## Without text -/

theorem ftsMatches_of_blank {queryString : String} (h : queryString.isEmpty = true) : E.ftsMatches queryString e.db = [] := by
  rw [String.isEmpty_iff] at h
  subst h
  have hnone : ∀ text, E.selects "" text = false := fun _ => rfl
  unfold SearchPlatform.ftsMatches
  simp [hnone]

theorem fuzzyMatches_of_blank {queryString : String} (h : queryString.isEmpty = true) :
    E.fuzzyMatches queryString e.db = [] := by
  rw [String.isEmpty_iff] at h
  subst h
  exact fuzzyMatches_eq_nil rfl

/-- A query without text matches no row. -/
theorem not_rowScore_of_blank (h : (trim query.queryString).isEmpty = true) {score : Rat} : ¬ RowScore e E query id score := by
  rintro (⟨hhit, -⟩ | ⟨hhit, -⟩)
  · rw [ftsMatches_of_blank h] at hhit
    exact absurd hhit List.not_mem_nil
  · rw [fuzzyMatches_of_blank h] at hhit
    exact absurd hhit List.not_mem_nil

/-! ## Names and scores after the vectors -/

section Vectors

variable {byId : AList fun _ : IdText => Nat} {skeletons : IdText → Option MessageSkeleton} {nowMs : Int}
  {found : List RankedResult} {embed : String → Except Error (List Rat)} {modelVersion : Option String}

/-- **What the vectors add to a result that is there**, by its place. -/
theorem getElem?_foldl_addSemanticHit (hits : List SemanticMatch) {results : List RankedResult} {i : Nat}
    (h : results[i]? = some r) :
    ∃ r', (hits.foldl (e.addSemanticHit E byId skeletons nowMs) results)[i]? = some r' ∧ r'.named = r.named ∧
      r'.rankScore = r.rankScore + ((hits.filter fun hit => byId.lookup hit.messageId = some i).map fun hit =>
        hit.similarity * semanticWeight).sum := by
  induction hits generalizing results r with
  | nil => exact ⟨r, h, rfl, (add_zero _).symm⟩
  | cons hit hits ih =>
      rw [List.foldl_cons, List.filter_cons]
      by_cases hhere : byId.lookup hit.messageId = some i
      · have hnext : (e.addSemanticHit E byId skeletons nowMs results hit)[i]? = some (addSimilarity hit.similarity r) := by
          unfold addSemanticHit
          rw [hhere]
          show (results.modify i _)[i]? = _
          rw [List.getElem?_modify_eq, h]
          rfl
        obtain ⟨r', hr', hnamed, hscore⟩ := ih hnext
        refine ⟨r', hr', hnamed, ?_⟩
        rw [hscore, if_pos (decide_eq_true hhere), List.map_cons, List.sum_cons, ← add_assoc]
        rfl
      · -- the hit is of another place, or appends
        have hnext : (e.addSemanticHit E byId skeletons nowMs results hit)[i]? = some r := by
          obtain ⟨hlt, -⟩ := List.getElem?_eq_some_iff.mp h
          unfold addSemanticHit
          cases hknown : byId.lookup hit.messageId with
          | some j =>
              have hne : j ≠ i := fun hj => hhere (hj ▸ hknown)
              show (results.modify j _)[i]? = _
              rw [List.getElem?_modify, h]
              exact congrArg some (if_neg hne)
          | none =>
              cases hskel : skeletons hit.messageId with
              | none => exact h
              | some skel =>
                  show (results ++ [_])[i]? = _
                  rw [List.getElem?_append_left hlt, h]
        rw [if_neg (by simpa using hhere)]
        exact ih hnext

/-- Where results name each message once, the place of a message is that of its result. -/
theorem indexById_lookup_eq_some (hdistinct : (found.map fun r => r.messageId).Nodup) {i : Nat} (h : found[i]? = some r) :
    (indexById found).lookup id = some i ↔ id = r.messageId.toText := by
  constructor
  · intro hi
    obtain ⟨p, hp, rfl, hplace⟩ := of_lookup_insertHits hi
    have hget : found[p.2]? = some p.1 := List.mem_zipIdx_iff_getElem?.mp hp
    rw [hplace, h] at hget
    rw [Option.some.inj hget]
  · rintro rfl
    have hmem : (r, i) ∈ found.zipIdx := List.mem_zipIdx_iff_getElem?.mpr h
    obtain ⟨p, hp, hid, hfound⟩ : ∃ p ∈ found.zipIdx, p.1.messageId.toText = r.messageId.toText ∧
        (indexById found).lookup r.messageId.toText = some p.2 := lookup_insertHits_of_mem hmem
    have hget : found[p.2]? = some p.1 := List.mem_zipIdx_iff_getElem?.mp hp
    have hsame : (found.map fun r => r.messageId)[p.2]? = (found.map fun r => r.messageId)[i]? := by
      rw [List.getElem?_map, List.getElem?_map, hget, h, Option.map_some, Option.map_some, Uuid.toText_inj.mp hid]
    have hlt : p.2 < (found.map fun r => r.messageId).length := by
      rw [List.length_map]
      exact (List.getElem?_eq_some_iff.mp hget).1
    rw [hfound, (List.getElem?_inj hlt hdistinct).mp hsame]

/-- What the vector of a message adds to its score. -/
def vectorScore (e : QueryEngine) (E : SearchPlatform) (query : SearchQuery) (embed : String → Except Error (List Rat))
    (modelVersion : Option String) (m : Uuid) : Rat :=
  (((e.vectorMatches E query embed modelVersion).filter fun hit => hit.messageId = m.toText).map fun hit =>
    hit.similarity * semanticWeight).sum

/-- **A result that is there keeps its name**, and gets the score of its vector on top. -/
theorem exists_mem_mergeSemanticHits {hits : List SemanticMatch}
    (hperm : hits.Perm (e.vectorMatches E query embed modelVersion))
    (hdistinct : (found.map fun r => r.messageId).Nodup) (hr : r ∈ found) :
    ∃ r' ∈ e.mergeSemanticHits E query found hits, r'.named = r.named ∧
      r'.rankScore = r.rankScore + e.vectorScore E query embed modelVersion r.messageId := by
  obtain ⟨i, hi⟩ := List.getElem?_of_mem hr
  rw [mergeSemanticHits_eq]
  obtain ⟨r', hr', hnamed, hscore⟩ := getElem?_foldl_addSemanticHit hits hi
  refine ⟨r', List.mem_of_getElem? hr', hnamed, ?_⟩
  have hplace : (hits.filter fun hit => (indexById found).lookup hit.messageId = some i) =
      hits.filter fun hit => hit.messageId = r.messageId.toText :=
    List.filter_congr fun hit _ => decide_eq_decide.mpr (indexById_lookup_eq_some hdistinct hi)
  have hsum := ((hperm.filter fun hit => hit.messageId = r.messageId.toText).map fun hit =>
    hit.similarity * semanticWeight).sum_eq
  rw [hscore, hplace, hsum]
  rfl

/-- **The merge names each message once**, if the local results do. -/
theorem nodup_mergeSemanticHits {hits : List SemanticMatch} (hids : (hits.map SemanticMatch.messageId).Nodup)
    (hdistinct : (found.map fun r => r.messageId).Nodup) :
    ((e.mergeSemanticHits E query found hits).map fun r => r.messageId).Nodup := by
  have hnames : (e.mergeSemanticHits E query found hits).map (fun r => r.messageId) =
      found.map (fun r => r.messageId) ++ (e.newSkeletons query found hits).map MessageSkeleton.messageId := by
    have hmerge : (e.mergeSemanticHits E query found hits).map RankedResult.named = _ := map_named_merge found hits
    have hmap := congrArg (List.map Named.messageId) hmerge
    rw [List.map_append, List.map_map, List.map_map, List.map_map] at hmap
    exact hmap
  have hnew : ((e.newSkeletons query found hits).map MessageSkeleton.messageId).Nodup := by
    have hfresh : ((newIds found hits).map id).Nodup := by
      rw [List.map_id]
      exact hids.sublist (List.filter_sublist.map SemanticMatch.messageId)
    have htexts : ((e.newSkeletons query found hits).map fun skel => skel.messageId.toText).Nodup := by
      refine nodup_map_filterMap (fun id skel hfetched => ?_) hfresh
      unfold fetchSkeletonBasicInfo at hfetched
      split_ifs at hfetched
      exact (LocalStoreDb.skeletonOf_eq_some.mp hfetched).1.symm
    exact List.Nodup.of_map Uuid.toText (by rwa [List.map_map])
  rw [hnames, List.nodup_append']
  refine ⟨hdistinct, hnew, ?_⟩
  intro m hm hm'
  obtain ⟨r, hr, rfl⟩ := List.mem_map.mp hm
  obtain ⟨skel, hskel, hid⟩ := List.mem_map.mp hm'
  obtain ⟨-, -, -, hother⟩ := mem_newSkeletons hskel
  exact hother r hr hid.symm

end Vectors

/-! ## Results and rows -/

/-- **Results that name messages, each once**: messages that are there and satisfy the filters, with their conversation,
sender and time. -/
structure NamesMessages (e : QueryEngine) (satisfies : MessageSkeleton → Prop) (out : List RankedResult) : Prop where
  distinct : (out.map fun r => r.messageId).Nodup
  real : ∀ r ∈ out, ∃ skel, e.db.skeletons.find? r.messageId = some skel ∧ r.named = named skel ∧ satisfies skel

/-- **Every message with a matching row is found**, where it satisfies the filters, and none of its rows scores better.
Ages count from the newest of the local results, `found`; `extra` is what the vector of a message adds. -/
def FindsMessages (e : QueryEngine) (E : SearchPlatform) (query : SearchQuery) (found out : List RankedResult)
    (extra : Uuid → Rat) : Prop :=
  ∀ m skel id score, e.db.skeletons.find? m = some skel → e.admits .first query skel = true → OwnRow m id →
    RowScore e E query id score → ∃ r ∈ out, r.messageId = m ∧
      score * e.messageWeight E (newest (found.map fun r => r.createdAtMs)) m skel.createdAtMs + extra m ≤ r.rankScore

/-- **Search results name real messages, each once**, at every limit; and where the limit leaves room for all rows that
are selected, the messages of these rows are found. -/
structure SearchNamesMessages (e : QueryEngine) (E : SearchPlatform) (query : SearchQuery) : Prop where
  limit : ∀ scope limit out, e.executeSearchWithLimit E query scope limit = .ok out →
    NamesMessages e (fun skel => e.admits .first query skel = true) out ∧
      (selectedCount e E (trim query.queryString) ≤ limit → FindsMessages e E query out out fun _ => 0)
  semantic : ∀ scope embed modelVersion limit found out, e.executeSearchWithLimit E query scope limit = .ok found →
    e.executeSearchWithSemantic E query scope embed modelVersion limit = .ok out →
    NamesMessages e (fun skel => ∃ pass, e.admits pass query skel = true) out ∧
      (selectedCount e E (trim query.queryString) + e.db.vectors.rows.length ≤ limit →
        FindsMessages e E query found out (e.vectorScore E query embed modelVersion))

/-- **The rows that match name messages.** A row that the filters let through is under an id that reads as that of a
message that is there, and says of it what its skeleton says; no two row ids read as one message; and of a message that
satisfies the filters, no matching row scores above what is merged under an id that reads as its own. -/
structure RowsNameMessages (e : QueryEngine) (E : SearchPlatform) (query : SearchQuery) : Prop where
  named : ∀ id n, TextHit e E query id n → ∃ skel, e.db.skeletons.find? n.messageId = some skel ∧ n = named skel
  single : ∀ id id' n n', TextHit e E query id n → TextHit e E query id' n' → n.messageId = n'.messageId → id = id'
  best : ∀ m skel id score, e.db.skeletons.find? m = some skel → e.admits .first query skel = true → OwnRow m id →
    RowScore e E query id score →
    ∃ id' n, TextHit e E query id' n ∧ n.messageId = m ∧ score ≤ e.mergedScore E query id'

/-! ## Rows that name messages give results that do -/

/-- A hit of a message satisfies the filters as its skeleton does. -/
theorem TextHit.admits {n : Named} {skel : MessageSkeleton} (h : TextHit e E query id n)
    (hskel : e.db.skeletons.find? n.messageId = some skel) : e.admits .first query skel = true := by
  rcases h.allowed with hnone | ⟨skel', hskel', hadmits⟩
  · exact admits_of_clauses_eq_nil hnone skel
  · obtain ⟨rfl, hfound⟩ := LocalStoreDb.skeletonOf_eq_some.mp hskel'
    have hid : n.messageId = skel'.messageId := h.selected.messageId
    rw [hid] at hskel
    obtain rfl := Option.some.inj (hfound.symm.trans hskel)
    exact hadmits

/-- Results of the same names are of the same messages. -/
theorem map_messageId_of_named {l l' : List RankedResult} (h : l.map RankedResult.named = l'.map RankedResult.named) :
    (l.map fun r => r.messageId) = l'.map fun r => r.messageId := by
  have hmap := congrArg (List.map Named.messageId) h
  rw [List.map_map, List.map_map] at hmap
  exact hmap

/-- Sorting, cutting and marking keep messages apart. -/
theorem nodup_top {results : List RankedResult} (h : (results.map fun r => r.messageId).Nodup) :
    ((e.markColdResults scope (top resultLe limit results)).map fun r => r.messageId).Nodup := by
  rw [map_messageId_of_named (map_named_markColdResults _)]
  exact nodup_map_top h

/-- Without text every skeleton gives one result. -/
theorem nodup_executeStructuredOnly : ((e.executeStructuredOnly query limit).map fun r => r.messageId).Nodup := by
  unfold executeStructuredOnly
  rw [List.map_map]
  exact nodup_map_top (e.db.skeletons.keyed.sublist (List.filter_sublist.map _))

/-- **The lane names each message once**, where no two row ids read as one. -/
theorem RowsNameMessages.nodup_textLane (h : RowsNameMessages e E query) (limit : Nat) :
    ((e.applyRecencyAndKindWeight E (e.intoValues (values (e.textLane E query (trim query.queryString) limit)))).map
      fun r => r.messageId).Nodup := by
  rw [map_messageId_of_named (map_named_applyRecencyAndKindWeight _), ((e.intoValues_perm _).map _).nodup_iff,
    map_messageId_textLane]
  refine List.Nodup.map_on ?_ (AList.keys_nodup _)
  intro id hid id' hid' hsame
  have hhit : ∀ id ∈ (e.textLane E query (trim query.queryString) limit).keys, ∃ n, TextHit e E query id n := by
    intro id hid
    obtain ⟨r, hr⟩ := Option.isSome_iff_exists.mp (AList.lookup_isSome.mpr (AList.mem_keys.mpr hid))
    exact ⟨_, textHit_of_lookup hr⟩
  obtain ⟨n, hn⟩ := hhit id hid
  obtain ⟨n', hn'⟩ := hhit id' hid'
  exact h.single id id' n n' hn hn' (hn.selected.messageId.trans (hsame.trans hn'.selected.messageId.symm))

/-- **The local search**, at every limit. -/
theorem RowsNameMessages.namesMessages (h : RowsNameMessages e E query)
    (hout : e.executeSearchWithLimit E query scope limit = .ok out) :
    NamesMessages e (fun skel => e.admits .first query skel = true) out := by
  cases hblank : (trim query.queryString).isEmpty with
  | true =>
      rw [executeSearchWithLimit_of_blank hblank] at hout
      obtain rfl := Except.ok.inj hout
      constructor
      · rw [map_messageId_of_named (map_named_markColdResults _)]
        exact nodup_executeStructuredOnly
      · intro r hr
        obtain ⟨r', hr', hnamed⟩ := exists_named_of_map_eq (map_named_markColdResults _) hr
        obtain ⟨skel, hskel, hadmits, rfl⟩ := mem_executeStructuredOnly hr'
        have hid : r.messageId = skel.messageId := congrArg Named.messageId hnamed.symm
        exact ⟨skel, hid ▸ hskel, hnamed.symm, hadmits⟩
  | false =>
      obtain ⟨haccepts, rfl⟩ := (executeSearchWithLimit_of_text hblank).mp hout
      constructor
      · exact nodup_top (h.nodup_textLane limit)
      · intro r hr
        obtain ⟨r', hr', hnamed⟩ := exists_named_of_map_eq (map_named_markColdResults _) hr
        obtain ⟨id, hhit⟩ := textHit_of_mem (executeFts_eq_ok.mpr ⟨haccepts, rfl⟩) hr'
        rw [hnamed] at hhit
        obtain ⟨skel, hskel, hcarries⟩ := h.named id _ hhit
        exact ⟨skel, hskel, hcarries, hhit.admits hskel⟩

/-- **The messages of the rows that match are found**, with room. -/
theorem RowsNameMessages.findsMessages (h : RowsNameMessages e E query) (hrecency : ∀ ageMs, 0 ≤ E.recencyScore ageMs)
    (hroom : selectedCount e E (trim query.queryString) ≤ limit)
    (hout : e.executeSearchWithLimit E query scope limit = .ok out) : FindsMessages e E query out out fun _ => 0 := by
  intro m skel id score hskel hadmits hown hscore
  cases htext : (trim query.queryString).isEmpty with
  | true => exact absurd hscore (not_rowScore_of_blank htext)
  | false =>
      have hall := eq_localMatches_of_room htext hroom hout
      subst hall
      obtain ⟨id', n, hhit, rfl, hle⟩ := h.best m skel id score hskel hadmits hown hscore
      obtain ⟨r₀, hfound⟩ : ∃ r₀, (e.fullLane E query).lookup id' = some r₀ := exists_lookup_textLane le_rfl hhit
      obtain ⟨r, hr, hnamed, hmerged⟩ := exists_mem_of_lookup scope htext hfound
      have hentry := textHit_of_lookup hfound
      have hid : r₀.messageId = n.messageId := hentry.selected.messageId.trans hhit.selected.messageId.symm
      obtain ⟨skel', hskel', hcarries⟩ := h.named id' _ hentry
      have hsame : r₀.named.messageId = n.messageId := hid
      rw [hsame, hskel] at hskel'
      obtain rfl := Option.some.inj hskel'
      have hcreated : r₀.createdAtMs = skel.createdAtMs := congrArg Named.createdAtMs hcarries
      have hresult : r.messageId = r₀.messageId := congrArg Named.messageId hnamed
      refine ⟨r, hr, hresult.trans hid, ?_⟩
      rw [newest_localMatches htext, add_zero, hmerged, hid, hcreated]
      exact mul_le_mul_of_nonneg_right hle (messageWeight_pos hrecency _ _ _).le

section Semantic

variable {found : List RankedResult} {embed : String → Except Error (List Rat)} {modelVersion : Option String}

/-- **The semantic search** names messages where the local one does. -/
theorem NamesMessages.semantic (h : NamesMessages e (fun skel => e.admits .first query skel = true) found)
    (hfound : e.executeSearchWithLimit E query scope limit = .ok found)
    (hout : e.executeSearchWithSemantic E query scope embed modelVersion limit = .ok out) :
    NamesMessages e (fun skel => ∃ pass, e.admits pass query skel = true) out := by
  obtain ⟨found', hfound', hmerged⟩ := executeSearchWithSemantic_eq_ok.mp hout
  obtain rfl := Except.ok.inj (hfound.symm.trans hfound')
  rw [hmerged]
  have hlocal : ∀ r ∈ found, ∃ skel, e.db.skeletons.find? r.messageId = some skel ∧ r.named = named skel ∧
      ∃ pass, e.admits pass query skel = true := by
    intro r hr
    obtain ⟨skel, hskel, hcarries, hadmits⟩ := h.real r hr
    exact ⟨skel, hskel, hcarries, .first, hadmits⟩
  split_ifs
  · exact ⟨h.distinct, hlocal⟩
  · refine ⟨nodup_top (nodup_mergeSemanticHits nodup_vectorHits h.distinct), ?_⟩
    intro r hr
    obtain ⟨r', hr', hnamed⟩ := exists_named_of_map_eq (map_named_markColdResults _) hr
    have hid : r'.messageId = r.messageId := congrArg Named.messageId hnamed
    have hmem : r'.named ∈ (e.mergeSemanticHits E query found _).map RankedResult.named :=
      List.mem_map_of_mem (mem_of_mem_top hr')
    rw [map_named_merge, hnamed] at hmem
    rcases List.mem_append.mp hmem with hold | hnew
    · obtain ⟨r'', hr'', hnamed'⟩ := List.mem_map.mp hold
      obtain ⟨skel, hskel, hcarries, hpass⟩ := hlocal r'' hr''
      have hid' : r''.messageId = r.messageId := congrArg Named.messageId hnamed'
      exact ⟨skel, hid' ▸ hskel, hnamed'.symm.trans hcarries, hpass⟩
    · obtain ⟨skel, hskel, hnamed'⟩ := List.mem_map.mp hnew
      obtain ⟨hthere, hallowed, -, -⟩ := mem_newSkeletons hskel
      have hid' : skel.messageId = r.messageId := congrArg Named.messageId hnamed'
      refine ⟨skel, hid' ▸ hthere, hnamed'.symm, .later, ?_⟩
      exact hallowed.elim (fun hnone => admits_of_clauses_eq_nil hnone skel) id

/-- A query is compared with at most all vectors. -/
theorem length_vectorMatches_le : (e.vectorMatches E query embed modelVersion).length ≤ e.db.vectors.rows.length := by
  unfold vectorMatches
  split_ifs
  · exact Nat.zero_le _
  · cases embed (trim query.queryString) with
    | error fault => exact Nat.zero_le _
    | ok embedding =>
        dsimp only
        split_ifs
        · exact Nat.zero_le _
        · unfold fetchCandidates
          exact (List.length_filterMap_le _ _).trans (List.length_filter_le _ _)

/-- A vector brings at most one result. -/
theorem length_mergeSemanticHits_le (found : List RankedResult) {hits : List SemanticMatch}
    (hperm : hits.Perm (e.vectorMatches E query embed modelVersion)) :
    (e.mergeSemanticHits E query found hits).length ≤ found.length + e.db.vectors.rows.length := by
  have hlength : (e.mergeSemanticHits E query found hits).length =
      found.length + (e.newSkeletons query found hits).length := by
    have hmap : (e.mergeSemanticHits E query found hits).map RankedResult.named = _ := map_named_merge found hits
    have hlengths := congrArg List.length hmap
    rwa [List.length_append, List.length_map, List.length_map, List.length_map] at hlengths
  have hnew : (e.newSkeletons query found hits).length ≤ hits.length := by
    have hids : (newIds found hits).length ≤ hits.length := by
      unfold newIds
      rw [List.length_map]
      exact List.length_filter_le _ _
    unfold newSkeletons
    exact (List.length_filterMap_le _ _).trans hids
  have hall : hits.length ≤ e.db.vectors.rows.length := by
    rw [hperm.length_eq]
    exact length_vectorMatches_le
  omega

/-- **Found by the local search is found by the semantic one**, with the score of the vector on top. -/
theorem FindsMessages.semantic (h : FindsMessages e E query found found fun _ => 0)
    (hdistinct : (found.map fun r => r.messageId).Nodup)
    (hroom : selectedCount e E (trim query.queryString) + e.db.vectors.rows.length ≤ limit)
    (hfound : e.executeSearchWithLimit E query scope limit = .ok found)
    (hout : e.executeSearchWithSemantic E query scope embed modelVersion limit = .ok out) :
    FindsMessages e E query found out (e.vectorScore E query embed modelVersion) := by
  intro m skel id score hskel hadmits hown hscore
  obtain ⟨r, hr, rfl, hle⟩ := h m skel id score hskel hadmits hown hscore
  have htext : (trim query.queryString).isEmpty = false := by
    by_contra hblank
    exact not_rowScore_of_blank (Bool.not_eq_false _ ▸ hblank) hscore
  have hvectors : (e.vectorMatches E query embed modelVersion).length ≤ max limit 1 :=
    length_vectorMatches_le.trans (by omega)
  -- with room for all vectors the lane leaves none out
  have hperm : (e.vectorHits E query embed modelVersion limit).Perm (e.vectorMatches E query embed modelVersion) := by
    rw [vectorHits_eq_top]
    exact top_perm hvectors
  obtain ⟨found', hfound', hmerged⟩ := executeSearchWithSemantic_eq_ok.mp hout
  obtain rfl := Except.ok.inj (hfound.symm.trans hfound')
  rw [hmerged]
  by_cases hnone : (e.vectorHits E query embed modelVersion limit).isEmpty = true
  · have hscoreless : e.vectorScore E query embed modelVersion r.messageId = 0 := by
      rw [List.isEmpty_iff.mp hnone] at hperm
      unfold vectorScore
      rw [hperm.symm.eq_nil]
      rfl
    rw [if_pos hnone, hscoreless]
    exact ⟨r, hr, rfl, hle⟩
  · obtain ⟨r', hr', hnamed, hmerged⟩ := exists_mem_mergeSemanticHits (e := e) (E := E) hperm hdistinct hr
    -- and with room for all results the merge is not cut
    have hcount : (e.mergeSemanticHits E query found _).length ≤ found.length + e.db.vectors.rows.length :=
      length_mergeSemanticHits_le found hperm
    have hlocal : found.length ≤ selectedCount e E (trim query.queryString) := by
      rw [eq_localMatches_of_room htext (by omega) hfound]
      exact length_localMatches_le htext
    have hkept : r' ∈ top resultLe limit (e.mergeSemanticHits E query found
        (e.vectorHits E query embed modelVersion limit)) := (mem_top (by omega)).mpr hr'
    obtain ⟨r'', hr'', hscored⟩ := exists_scored_markColdResults scope hkept
    obtain ⟨hnamed', hscore'⟩ := Prod.mk.inj hscored
    rw [if_neg hnone]
    refine ⟨r'', hr'', congrArg Named.messageId (hnamed'.trans hnamed), ?_⟩
    rw [hscore', hmerged, ← add_zero (score * _)]
    exact add_le_add hle le_rfl

end Semantic

/-- **Rows that name messages give results that do.** -/
theorem RowsNameMessages.searchNamesMessages (h : E.accepts (trim query.queryString) = true → RowsNameMessages e E query)
    (hrecency : ∀ ageMs, 0 ≤ E.recencyScore ageMs) : SearchNamesMessages e E query := by
  have haccepted : ∀ {scope limit out}, e.executeSearchWithLimit E query scope limit = .ok out →
      E.accepts (trim query.queryString) = true := by
    intro scope limit out hout
    cases hblank : (trim query.queryString).isEmpty with
    | true =>
        rw [String.isEmpty_iff.mp hblank]
        rfl
    | false => exact ((executeSearchWithLimit_of_text hblank).mp hout).1
  constructor
  · intro scope limit out hout
    have hrows := h (haccepted hout)
    exact ⟨hrows.namesMessages hout, fun hroom => hrows.findsMessages hrecency hroom hout⟩
  · intro scope embed modelVersion limit found out hfound hout
    have hrows := h (haccepted hfound)
    have hnames := hrows.namesMessages hfound
    refine ⟨hnames.semantic hfound hout, fun hroom => ?_⟩
    have hfinds := hrows.findsMessages hrecency ((Nat.le_add_right _ _).trans hroom) hfound
    exact hfinds.semantic hnames.distinct hroom hfound hout

/-! ## Results that name messages come of rows that do -/

/-- **What is selected for a row id says one thing**, in a store whose rows are of its messages. -/
theorem Selected.unique {queryString : String} {n n' : Named} (hrows : OwnedRows e.db)
    (h128 : ∀ m, e.db.skeletons.has m = true → Is128 m) (h : Selected e E queryString id n)
    (h' : Selected e E queryString id n') : n = n' := by
  -- a text row under the id of a message says what its skeleton says
  have howned : ∀ {row : FtsRow} {skel : MessageSkeleton}, row ∈ e.db.fts → row.messageId = id →
      e.db.skeletonOf id = some skel →
      (⟨uuidOrNil id, row.conversationId, row.senderId, row.createdAtMs⟩ : Named) = named skel := by
    rintro row skel hrow rfl hskel
    obtain ⟨hid, hfound⟩ := LocalStoreDb.skeletonOf_eq_some.mp hskel
    obtain ⟨m, skel', hown, hskel', hcarries⟩ := hrows row hrow
    rw [hid] at hown
    have hm : m = skel.messageId := by
      rcases hown with htext | ⟨n, hpage⟩
      · exact (Uuid.toText_inj.mp htext).symm
      · exact absurd hpage.symm (pageRowId_ne_toText m skel.messageId n)
    subst hm
    obtain rfl := Option.some.inj (hfound.symm.trans hskel')
    rw [hid]
    rw [hcarries]
    rfl
  cases h with
  | @text row hrow hselects hid =>
      cases h' with
      | @text row' hrow' hselects' hid' =>
          obtain ⟨hconv, hsender, hcreated⟩ := hrows.agree h128 hrow hrow' (hid.trans hid'.symm)
          rw [hconv, hsender, hcreated]
      | fuzzy hhit' hid' hskel' => exact howned hrow hid hskel'
  | fuzzy hhit hid hskel =>
      cases h' with
      | text hrow' hselects' hid' => exact (howned hrow' hid' hskel).symm
      | fuzzy hhit' hid' hskel' =>
          obtain rfl := Option.some.inj (hskel.symm.trans hskel')
          rfl

/-- A hit is of a query with a text. -/
theorem TextHit.text {n : Named} (h : TextHit e E query id n) : (trim query.queryString).isEmpty = false := by
  by_contra hblank
  rw [Bool.not_eq_false] at hblank
  cases h.selected with
  | text hrow hselects hid =>
      have hmem := mem_ftsMatches.mpr ⟨_, hrow, hselects, rfl⟩
      rw [ftsMatches_of_blank hblank] at hmem
      exact absurd hmem List.not_mem_nil
  | fuzzy hhit hid hskel =>
      rw [fuzzyMatches_of_blank hblank] at hhit
      exact absurd hhit List.not_mem_nil

/-- **Results that name messages come of rows that do.** -/
theorem SearchNamesMessages.rowsNameMessages (h : SearchNamesMessages e E query)
    (haccepts : E.accepts (trim query.queryString) = true) (hrows : OwnedRows e.db)
    (h128 : ∀ m, e.db.skeletons.has m = true → Is128 m) (hrecency : ∀ ageMs, 0 ≤ E.recencyScore ageMs) :
    RowsNameMessages e E query := by
  -- the local search with room for all that is selected
  obtain ⟨out, hout⟩ : ∃ out, e.executeSearchWithLimit E query .localOnly (selectedCount e E (trim query.queryString)) =
    .ok out := executeSearchWithLimit_isOk haccepts
  have hlocal : (trim query.queryString).isEmpty = false →
      NamesMessages e (fun skel => e.admits .first query skel = true) (e.localMatches E query .localOnly) ∧
        FindsMessages e E query (e.localMatches E query .localOnly) (e.localMatches E query .localOnly) fun _ => 0 := by
    intro htext
    obtain ⟨hnames, hfinds⟩ := h.limit _ _ out hout
    rw [← eq_localMatches_of_room htext le_rfl hout]
    exact ⟨hnames, hfinds le_rfl⟩
  constructor
  · intro id n hhit
    have htext := hhit.text
    obtain ⟨hnames, -⟩ := hlocal htext
    obtain ⟨r₀, hfound⟩ : ∃ r₀, (e.fullLane E query).lookup id = some r₀ := exists_lookup_textLane le_rfl hhit
    obtain ⟨r, hr, hnamed, -⟩ := exists_mem_of_lookup .localOnly htext hfound
    obtain ⟨skel, hskel, hcarries, -⟩ := hnames.real r hr
    have hn : n = r.named := (hhit.selected.unique hrows h128 (textHit_of_lookup hfound).selected).trans hnamed.symm
    exact ⟨skel, by rw [hn]; exact hskel, hn.trans hcarries⟩
  · intro id id' n n' hhit hhit' hsame
    have htext := hhit.text
    obtain ⟨hnames, -⟩ := hlocal htext
    have hkeys : ((e.fullLane E query).keys.map uuidOrNil).Nodup := by
      have hperm := (perm_scored_localMatches (e := e) (E := E) .localOnly htext).map fun p => p.1.messageId
      rw [List.map_map, List.map_map] at hperm
      rw [fullLane, ← map_messageId_textLane]
      exact hperm.nodup_iff.mp hnames.distinct
    have hkey : ∀ {id n}, TextHit e E query id n → id ∈ (e.fullLane E query).keys := by
      intro id n hhit
      obtain ⟨r, hr⟩ : ∃ r, (e.fullLane E query).lookup id = some r := exists_lookup_textLane le_rfl hhit
      exact AList.mem_keys.mp (AList.lookup_isSome.mp (by rw [hr]; rfl))
    apply List.inj_on_of_nodup_map hkeys (hkey hhit) (hkey hhit')
    rw [← hhit.selected.messageId, ← hhit'.selected.messageId, hsame]
  · intro m skel id score hskel hadmits hown hscore
    have htext : (trim query.queryString).isEmpty = false := by
      by_contra hblank
      exact not_rowScore_of_blank (Bool.not_eq_false _ ▸ hblank) hscore
    obtain ⟨hnames, hfinds⟩ := hlocal htext
    obtain ⟨r, hr, rfl, hle⟩ := hfinds m skel id score hskel hadmits hown hscore
    obtain ⟨id', r₀, hfound, hnamed, hmerged⟩ := exists_lookup_of_mem htext hr
    obtain ⟨skel', hskel', hcarries, -⟩ := hnames.real r hr
    obtain rfl := Option.some.inj (hskel.symm.trans hskel')
    have hcreated : r.createdAtMs = skel.createdAtMs := congrArg Named.createdAtMs hcarries
    refine ⟨id', _, textHit_of_lookup hfound, congrArg Named.messageId hnamed.symm, ?_⟩
    rw [newest_localMatches htext, add_zero, hmerged, hcreated] at hle
    exact le_of_mul_le_mul_right hle (messageWeight_pos hrecency _ _ _)

end QueryEngine

open QueryEngine in
/-- **In every history that drops no conversation, search results name messages exactly where the rows that match do.** -/
theorem searchNamesMessages_iff {F : Platform} {conversations : Table Conversation.conversationId}
    {tr : List (LocalStoreDb × StoreCall)} {e : QueryEngine} (hrun : StoreHistory F (.fresh conversations) tr e.db)
    (hrestores : ∀ p ∈ tr, p.2.Restores) (hkeeps : ∀ p ∈ tr, KeepsConversations p.2)
    (h128 : ∀ m, e.db.skeletons.has m = true → Is128 m) (E : SearchPlatform)
    (hrecency : ∀ ageMs, 0 ≤ E.recencyScore ageMs) (query : SearchQuery) :
    SearchNamesMessages e E query ↔ (E.accepts (trim query.queryString) = true → RowsNameMessages e E query) := by
  have hrows : OwnedRows e.db := ownedRows_history hrun hrestores hkeeps
  constructor
  · intro h haccepts
    exact h.rowsNameMessages haccepts hrows h128 hrecency
  · intro h
    exact RowsNameMessages.searchNamesMessages h hrecency

/-! "hi" arrives, and is searched for; a document with a page is sent, and its page is searched for. -/

/-- The word of the message. -/
def hiQuery : SearchQuery := ⟨"hi", none, none, none, none, none, .global⟩

/-- The word of the page. -/
def pageQuery : SearchQuery := ⟨"page", none, none, none, none, none, .global⟩

theorem searchNamesMessages_iff_hi : ∃ db tr, StoreHistory .bare (.fresh oneConversation) tr db ∧
    db.skeletons.has ⟨2⟩ = true ∧
    (QueryEngine.SearchNamesMessages (.plain db) .plain hiQuery ↔
      (SearchPlatform.plain.accepts (trim hiQuery.queryString) = true →
        QueryEngine.RowsNameMessages (.plain db) .plain hiQuery)) := by
  have htext : "hi".isEmpty = false := by decide
  obtain ⟨db, hok, hcreate, -⟩ := aliceSays_ingested htext
  have hstep : StoreCall.Step .bare (.fresh oneConversation)
      (.core (.message (.persistIngestedMessage (aliceSays "hi") 1001 1002))) db := step_persistIngestedMessage hok
  have h128 : ∀ m, db.skeletons.has m = true → Is128 m := by
    intro m hm
    by_cases hsame : m = aliceSkeleton.messageId
    · subst hsame
      show (2 : Nat) < 2 ^ 128
      norm_num
    · rw [Table.has, show db.skeletons.find? m = none from congrArg MessageView.skeleton (hcreate.others m hsame)] at hm
      exact absurd hm (by simp)
  have hthere : db.skeletons.has ⟨2⟩ = true := by
    rw [Table.has, show db.skeletons.find? ⟨2⟩ = some aliceSkeleton from hcreate.skeleton]
    rfl
  refine ⟨db, _, Run.single hstep, hthere,
    searchNamesMessages_iff (e := .plain db) (Run.single hstep) ?_ ?_ h128 .plain (fun _ => zero_le_one) hiQuery⟩
  · intro p hp
    rw [List.mem_singleton.mp hp]
    exact trivial
  · intro p hp
    rw [List.mem_singleton.mp hp]
    intro c hc
    exact absurd hc (by simp)

/-- **The result for a page names no message.** -/
theorem result_of_page_unnamed : ∃ tr db, StoreHistory onePagePlatform (.fresh oneConversation) tr db ∧
    (∀ p ∈ tr, p.2.Restores) ∧ (∀ p ∈ tr, KeepsConversations p.2) ∧ (∃ limit out,
      (QueryEngine.plain db).executeSearchWithLimit .plain pageQuery .localOnly limit = .ok out ∧
        ∃ r ∈ out, db.skeletons.find? r.messageId = none) ∧
    ¬ QueryEngine.SearchNamesMessages (.plain db) .plain pageQuery := by
  obtain ⟨db, hok, rows, hfts⟩ := oneDocument_sent
  obtain ⟨hcreate, -⟩ := sendMedia_eq_ok hok
  have hstep : StoreCall.Step onePagePlatform (.fresh oneConversation)
      (.core (.message (.sendMedia oneDocument (.ok pictureDescriptor) 2000))) db := by
    show settle (sendMedia onePagePlatform (.fresh oneConversation) oneDocument (.ok pictureDescriptor) 2000)
      (.fresh oneConversation) = db
    rw [hok, settle_ok]
  have hrow : textRow (oneDocument.skeleton 2000) (pageRowId ⟨2⟩ 1) "page" ∈ db.fts := by
    rw [hfts]
    exact List.mem_append_right _ List.mem_cons_self
  have hselects : SearchPlatform.plain.selects (trim pageQuery.queryString) "page" = true := by
    have hword : trim "page" = "page" := by decide +kernel
    rw [show trim pageQuery.queryString = "page" from hword]
    decide +kernel
  obtain ⟨htext, haccepts⟩ := QueryEngine.accepts_of_selects hselects
  have hmatch : QueryEngine.LocalMatch (.plain db) .plain pageQuery (pageRowId ⟨2⟩ 1) _ :=
    .text htext ⟨.text hrow hselects rfl, .inl rfl⟩
  obtain ⟨limit, out, hout, r, hr, hname⟩ := QueryEngine.exists_result_of_match (fun _ => haccepts) hmatch
  -- the id of the page reads as the nil id, and the only message is another one
  have hunnamed : db.skeletons.find? r.messageId = none := by
    rw [hname]
    exact congrArg MessageView.skeleton (hcreate.others Uuid.nil (by decide))
  refine ⟨_, db, Run.single hstep, ?_, ?_, ⟨limit, out, hout, r, hr, hunnamed⟩, ?_⟩
  · intro p hp
    rw [List.mem_singleton.mp hp]
    exact trivial
  · intro p hp
    rw [List.mem_singleton.mp hp]
    intro c hc
    exact absurd hc (by simp)
  · intro h
    obtain ⟨skel, hskel, -⟩ := (h.limit _ _ _ hout).1.real r hr
    rw [show (QueryEngine.plain db).db.skeletons.find? r.messageId = none from hunnamed] at hskel
    exact absurd hskel (by simp)

end KChatCore.Search
