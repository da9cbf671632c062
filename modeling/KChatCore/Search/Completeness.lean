import KChatCore.Message.Calls
import KChatCore.Search.Lanes

/-!
# `Search.Completeness` — what a limit leaves out

Each lane cuts its hits before the filters see them: FTS5 and the fuzzy index after four times the limit, the vectors
after the limit. So a search is complete as long as nothing that is cut passes the filters.

* `Lists` — a list of results that has every match once.
* `localMatches`, `semanticMatches` — the matches of a query with their rank scores, best first.
* `textLane_of_keeps` — where the lanes cut nothing that passes, the merge is that of all hits.
* `filteredSearch_complete` — then the search returns the best of all matches.
-/

namespace KChatCore.Search

open Lib LocalStore

/-! ## Complete results -/

/-- **A list of all matches**: each id once, and with the name it matches under. -/
def Lists (P : IdText → Named → Prop) (rows : List RankedResult) : Prop :=
  ∃ ids : List IdText, ids.Nodup ∧ (∀ id, id ∈ ids ↔ ∃ n, P id n) ∧ List.Forall₂ (fun id r => P id r.named) ids rows

/-- **The best `limit` of some matches**: as many as there are, and none left out is better than one that is there. -/
structure Complete (limit : Nat) (found out : List RankedResult) : Prop where
  length : out.length = min limit found.length
  subset : ∀ r ∈ out, r ∈ found
  best : ∀ r ∈ found, r ∉ out → ∀ r' ∈ out, r.rankScore ≤ r'.rankScore

theorem complete_take {limit : Nat} {found : List RankedResult}
    (h : found.Pairwise fun a b => b.rankScore ≤ a.rankScore) : Complete limit found (found.take limit) where
  length := List.length_take
  subset r hr := List.mem_of_mem_take hr
  best r hr hout r' hr' := by
    rw [← List.take_append_drop limit found] at h hr
    exact (List.pairwise_append.mp h).2.2 r' hr' r ((List.mem_append.mp hr).resolve_left hout)

section Lists

variable {P Q : IdText → Named → Prop} {rows rows' : List RankedResult}

/-- What is related to a list element by element has a partner for each element. -/
theorem exists_of_forall₂ {α β : Type} {R : α → β → Prop} {l : List α} {l' : List β} (h : List.Forall₂ R l l') {a : α}
    (ha : a ∈ l) : ∃ b ∈ l', R a b := by
  induction h with
  | nil => exact absurd ha List.not_mem_nil
  | @cons x y l l' hxy _ ih =>
      rcases List.mem_cons.mp ha with rfl | ha
      · exact ⟨y, List.mem_cons_self, hxy⟩
      · obtain ⟨b, hb, hab⟩ := ih ha
        exact ⟨b, List.mem_cons_of_mem _ hb, hab⟩

theorem Lists.of_mem (h : Lists P rows) {r : RankedResult} (hr : r ∈ rows) : ∃ id, P id r.named := by
  obtain ⟨ids, -, -, hrows⟩ := h
  obtain ⟨id, -, hid⟩ := exists_of_forall₂ hrows.flip hr
  exact ⟨id, hid⟩

theorem Lists.exists_mem (h : Lists P rows) {id : IdText} {n : Named} (hn : P id n) : ∃ r ∈ rows, P id r.named := by
  obtain ⟨ids, -, hmem, hrows⟩ := h
  exact exists_of_forall₂ hrows ((hmem id).mpr ⟨n, hn⟩)

theorem lists_values {m : AList fun _ : IdText => RankedResult} (hname : ∀ id r, m.lookup id = some r → P id r.named)
    (hall : ∀ id n, P id n → ∃ r, m.lookup id = some r) : Lists P (values m) := by
  refine ⟨m.keys, m.keys_nodup, fun id => ?_, ?_⟩
  · rw [← AList.mem_keys, ← AList.lookup_isSome, Option.isSome_iff_exists]
    constructor
    · rintro ⟨r, hr⟩
      exact ⟨_, hname id r hr⟩
    · rintro ⟨n, hn⟩
      exact hall id n hn
  · unfold values AList.keys List.keys
    rw [List.forall₂_map_left_iff, List.forall₂_map_right_iff]
    refine List.forall₂_same.mpr fun p hp => ?_
    exact hname p.1 p.2 (AList.mem_lookup_iff.mpr hp)

/-- The order does not matter. -/
theorem Lists.perm (h : Lists P rows) (hperm : rows.Perm rows') : Lists P rows' := by
  obtain ⟨ids, hnodup, hmem, hrows⟩ := h
  obtain ⟨ids', hrows', hids⟩ := List.perm_comp_forall₂ hperm.symm hrows.flip
  exact ⟨ids', hids.nodup_iff.mpr hnodup, fun id => hids.mem_iff.trans (hmem id), hrows'.flip⟩

/-- Only the names matter. -/
theorem Lists.of_named (h : Lists P rows) (hnamed : rows'.map RankedResult.named = rows.map RankedResult.named) :
    Lists P rows' := by
  obtain ⟨ids, hnodup, hmem, hrows⟩ := h
  refine ⟨ids, hnodup, hmem, ?_⟩
  have hnames : List.Forall₂ P ids (rows.map RankedResult.named) := List.forall₂_map_right_iff.mpr hrows
  rw [← hnamed] at hnames
  exact List.forall₂_map_right_iff.mp hnames

/-- More matches, of skeletons under new ids. -/
theorem Lists.append (h : Lists P rows) {skels : List MessageSkeleton}
    (hnamed : rows'.map RankedResult.named = rows.map RankedResult.named ++ skels.map named)
    (hnodup : (skels.map fun skel => skel.messageId.toText).Nodup)
    (hnew : ∀ skel ∈ skels, ¬ ∃ n, P skel.messageId.toText n)
    (hQ : ∀ id n, Q id n ↔ P id n ∨ ∃ skel ∈ skels, skel.messageId.toText = id ∧ named skel = n) : Lists Q rows' := by
  obtain ⟨ids, hids, hmem, hrows⟩ := h
  refine ⟨ids ++ skels.map fun skel => skel.messageId.toText, ?_, fun id => ?_, ?_⟩
  · refine List.nodup_append'.mpr ⟨hids, hnodup, fun id hid hid' => ?_⟩
    obtain ⟨skel, hskel, rfl⟩ := List.mem_map.mp hid'
    exact hnew skel hskel ((hmem _).mp hid)
  · simp only [List.mem_append, List.mem_map, hmem, hQ, exists_or]
    apply or_congr_right
    constructor
    · rintro ⟨skel, hskel, rfl⟩
      exact ⟨_, skel, hskel, rfl, rfl⟩
    · rintro ⟨_, skel, hskel, rfl, -⟩
      exact ⟨skel, hskel, rfl⟩
  · have hold : List.Forall₂ Q ids (rows.map RankedResult.named) :=
      List.forall₂_map_right_iff.mpr (hrows.imp fun id r hr => (hQ _ _).mpr (.inl hr))
    have hmore : List.Forall₂ Q (skels.map fun skel => skel.messageId.toText) (skels.map named) := by
      rw [List.forall₂_map_left_iff, List.forall₂_map_right_iff]
      exact List.forall₂_same.mpr fun skel hskel => (hQ _ _).mpr (.inr ⟨skel, hskel, rfl, rfl⟩)
    have hall : List.Forall₂ Q (ids ++ skels.map fun skel => skel.messageId.toText) (rows'.map RankedResult.named) := by
      rw [hnamed]
      exact List.rel_append hold hmore
    exact List.forall₂_map_right_iff.mp hall

end Lists

/-! ## The order of results -/

theorem resultLe_iff {a b : RankedResult} : resultLe a b = true ↔ b.rankScore < a.rankScore ∨
    a.rankScore = b.rankScore ∧ (b.createdAtMs < a.createdAtMs ∨
      a.createdAtMs = b.createdAtMs ∧ a.messageId.val ≤ b.messageId.val) := by
  unfold resultLe
  simp only [Bool.or_eq_true, Bool.and_eq_true, decide_eq_true_eq]

theorem resultLe_trans (a b c : RankedResult) (hab : resultLe a b = true) (hbc : resultLe b c = true) :
    resultLe a c = true := by
  rw [resultLe_iff] at hab hbc ⊢
  rcases hab with hab | ⟨hab, hage⟩
  · rcases hbc with hbc | ⟨hbc, -⟩
    · exact .inl (hbc.trans hab)
    · exact .inl (hbc ▸ hab)
  · rcases hbc with hbc | ⟨hbc, hage'⟩
    · exact .inl (hab ▸ hbc)
    · exact .inr ⟨hab.trans hbc, by omega⟩

theorem resultLe_total (a b : RankedResult) : (resultLe a b || resultLe b a) = true := by
  rw [Bool.or_eq_true, resultLe_iff, resultLe_iff]
  rcases lt_trichotomy a.rankScore b.rankScore with hlt | heq | hlt
  · exact .inr (.inl hlt)
  · by_cases hle : b.createdAtMs < a.createdAtMs ∨ a.createdAtMs = b.createdAtMs ∧ a.messageId.val ≤ b.messageId.val
    · exact .inl (.inr ⟨heq, hle⟩)
    · exact .inr (.inr ⟨heq.symm, by omega⟩)
  · exact .inl (.inl hlt)

theorem rankScore_le_of_resultLe {a b : RankedResult} (h : resultLe a b = true) : b.rankScore ≤ a.rankScore := by
  rcases resultLe_iff.mp h with hlt | ⟨heq, -⟩
  · exact hlt.le
  · exact heq.ge

/-- Sorted results are best first. -/
theorem pairwise_rankScore (l : List RankedResult) :
    (l.mergeSort resultLe).Pairwise fun a b => b.rankScore ≤ a.rankScore :=
  (List.pairwise_mergeSort resultLe_trans resultLe_total l).imp rankScore_le_of_resultLe

namespace QueryEngine

variable {e : QueryEngine} {E : SearchPlatform} {query : SearchQuery} {scope : SearchScope} {limit : Nat}
  {pass : LookupPass}

/-! ## What a limit of a lane leaves -/

/-- **A row id passes the filters of a query**: there are none, or its skeleton meets them. -/
def passes (e : QueryEngine) (pass : LookupPass) (query : SearchQuery) (id : IdText) : Bool :=
  (e.clauses pass query).isEmpty || ((e.db.skeletonOf id).map (e.admits pass query)).getD false

theorem passes_iff {id : IdText} : e.passes pass query id = true ↔
    e.clauses pass query = [] ∨ ∃ skel, e.db.skeletonOf id = some skel ∧ e.admits pass query skel = true := by
  unfold passes
  rw [Bool.or_eq_true, List.isEmpty_iff]
  apply or_congr_right
  cases e.db.skeletonOf id with
  | none => simp
  | some skel => simp

theorem isAllowed_eq_passes {candidates : List IdText} {id : IdText} (hid : id ∈ candidates) :
    isAllowed (e.allowedSkeletonIds pass query candidates) id = e.passes pass query id :=
  Bool.eq_iff_iff.mpr ((isAllowed_iff hid).trans passes_iff.symm)

theorem mem_fuzzyOnlyIds {byId : AList fun _ : IdText => RankedResult} {fuzzyHits : List FuzzyMatch} {hit : FuzzyMatch}
    (hhit : hit ∈ fuzzyHits) : hit.messageId ∈ fuzzyOnlyIds byId fuzzyHits ↔ byId.lookup hit.messageId = none := by
  unfold fuzzyOnlyIds
  rw [List.mem_map]
  constructor
  · rintro ⟨hit', hmem, heq⟩
    rw [← heq]
    exact Option.isNone_iff_eq_none.mp (List.mem_filter.mp hmem).2
  · intro hnone
    exact ⟨hit, List.mem_filter.mpr ⟨hhit, by rw [hnone]; rfl⟩, rfl⟩

/-- **The merge is one of the hits that pass.** -/
theorem mergeTextHits_congr {allowed allowed' : Option (List IdText)} {ftsHits ftsHits' : List FtsMatch}
    {fuzzyHits fuzzyHits' : List FuzzyMatch}
    (hfts : (ftsHits.filter fun hit => isAllowed allowed hit.messageId) =
      ftsHits'.filter fun hit => isAllowed allowed' hit.messageId)
    (hfuzzy : (fuzzyHits.filter fun hit => isAllowed allowed hit.messageId) =
      fuzzyHits'.filter fun hit => isAllowed allowed' hit.messageId) :
    e.mergeTextHits allowed ftsHits fuzzyHits = e.mergeTextHits allowed' ftsHits' fuzzyHits' := by
  have htext : textById allowed ftsHits = textById allowed' ftsHits' := by
    unfold textById
    rw [hfts]
  unfold mergeTextHits
  dsimp only
  rw [htext, ← hfuzzy]
  refine List.foldl_ext _ _ _ fun byId hit hhit => ?_
  have hmem := (List.mem_filter.mp hhit).1
  have hmem' := (List.mem_filter.mp (hfuzzy ▸ hhit)).1
  have hids : hit.messageId ∈ fuzzyOnlyIds (textById allowed' ftsHits') fuzzyHits ↔
      hit.messageId ∈ fuzzyOnlyIds (textById allowed' ftsHits') fuzzyHits' :=
    (mem_fuzzyOnlyIds hmem).trans (mem_fuzzyOnlyIds hmem').symm
  unfold mergeHit fuzzyResult fetchSkeletonBasicInfo
  simp only [hids]

/-- **Neither text lane cuts a hit that passes.** -/
structure TextLanesKeep (e : QueryEngine) (E : SearchPlatform) (query : SearchQuery) (limit : Nat) : Prop where
  fts : ∀ hit ∈ cut rankLe (max (limit * 4) limit) (E.ftsMatches (trim query.queryString) e.db),
    e.passes .first query hit.messageId = false
  fuzzy : ∀ hit ∈ cut (scoreLe FuzzyMatch.score FuzzyMatch.messageId) (max (limit * 4) limit)
    (E.fuzzyMatches (trim query.queryString) e.db), e.passes .first query hit.messageId = false

/-- **The text lane with room for every hit.** -/
def fullLane (e : QueryEngine) (E : SearchPlatform) (query : SearchQuery) : AList fun _ : IdText => RankedResult :=
  e.textLane E query (trim query.queryString) (selectedCount e E (trim query.queryString))

/-- **Where nothing that passes is cut, the merge is that of all hits.** -/
theorem textLane_of_keeps (h : TextLanesKeep e E query limit) :
    e.textLane E query (trim query.queryString) limit = e.fullLane E query := by
  have hroom : ∀ n : Nat, n ≤ max (n * 4) n := fun n => le_max_right _ _
  have hftsRoom : (E.ftsMatches (trim query.queryString) e.db).length ≤
      max (selectedCount e E (trim query.queryString) * 4) (selectedCount e E (trim query.queryString)) :=
    (Nat.le_add_right _ _).trans (hroom _)
  have hfuzzyRoom : (E.fuzzyMatches (trim query.queryString) e.db).length ≤
      max (selectedCount e E (trim query.queryString) * 4) (selectedCount e E (trim query.queryString)) :=
    (Nat.le_add_left _ _).trans (hroom _)
  unfold fullLane textLane
  dsimp only
  rw [searchFuzzy_eq_top, searchFuzzy_eq_top, top_of_length_le hftsRoom, top_of_length_le hfuzzyRoom]
  refine mergeTextHits_congr ?_ ?_
  · -- the filter asks for the same of a hit, whatever else it is asked about
    rw [List.filter_congr fun hit hhit => isAllowed_eq_passes (List.mem_append_left _ (List.mem_map_of_mem hhit)),
      filter_top h.fts]
    exact List.filter_congr fun hit hhit =>
      (isAllowed_eq_passes (List.mem_append_left _ (List.mem_map_of_mem hhit))).symm
  · rw [List.filter_congr fun hit hhit => isAllowed_eq_passes (List.mem_append_right _ (List.mem_map_of_mem hhit)),
      filter_top h.fuzzy]
    exact List.filter_congr fun hit hhit =>
      (isAllowed_eq_passes (List.mem_append_right _ (List.mem_map_of_mem hhit))).symm

/-! ## The matches of the local search -/

/-- **A message that matches the text of a query**, or any message where there is no text, **and meets its filters.** -/
inductive LocalMatch (e : QueryEngine) (E : SearchPlatform) (query : SearchQuery) (id : IdText) : Named → Prop
  | structured {skel : MessageSkeleton} (hblank : (trim query.queryString).isEmpty = true)
      (hskel : e.db.skeletonOf id = some skel) (hadmits : e.admits .first query skel = true) :
      LocalMatch e E query id (named skel)
  | text {n : Named} (htext : (trim query.queryString).isEmpty = false) (hhit : TextHit e E query id n) :
      LocalMatch e E query id n

/-- **The local matches with their rank scores**, best first. -/
def localMatches (e : QueryEngine) (E : SearchPlatform) (query : SearchQuery) (scope : SearchScope) : List RankedResult :=
  e.markColdResults scope
    (if (trim query.queryString).isEmpty then e.executeStructuredOnly query e.db.skeletons.rows.length
    else (e.applyRecencyAndKindWeight E (e.intoValues (values (e.fullLane E query)))).mergeSort resultLe)

@[simp] theorem rankScore_markCold (r : RankedResult) : (e.markCold r).rankScore = r.rankScore := by
  unfold markCold
  split_ifs <;> rfl

theorem markColdResults_take (results : List RankedResult) (n : Nat) :
    e.markColdResults scope (results.take n) = (e.markColdResults scope results).take n := by
  unfold markColdResults
  split_ifs
  · exact List.map_take
  · rfl

theorem pairwise_markColdResults {results : List RankedResult} (h : results.Pairwise fun a b => b.rankScore ≤ a.rankScore) :
    (e.markColdResults scope results).Pairwise fun a b => b.rankScore ≤ a.rankScore := by
  unfold markColdResults
  split_ifs
  · rw [List.pairwise_map]
    simpa only [rankScore_markCold] using h
  · exact h

theorem executeStructuredOnly_eq_take : e.executeStructuredOnly query limit =
    (e.executeStructuredOnly query e.db.skeletons.rows.length).take limit := by
  have hroom : (e.db.skeletons.rows.filter fun skel => e.admits .first query skel).length ≤ e.db.skeletons.rows.length :=
    List.length_filter_le _ _
  unfold executeStructuredOnly
  rw [top_of_length_le hroom, ← List.map_take]
  rfl

theorem pairwise_executeStructuredOnly :
    (e.executeStructuredOnly query limit).Pairwise fun a b => b.rankScore ≤ a.rankScore := by
  unfold executeStructuredOnly
  rw [List.pairwise_map]
  exact List.pairwise_of_forall fun _ _ => le_rfl

theorem pairwise_localMatches : (e.localMatches E query scope).Pairwise fun a b => b.rankScore ≤ a.rankScore := by
  unfold localMatches
  apply pairwise_markColdResults
  split_ifs
  · exact pairwise_executeStructuredOnly
  · exact pairwise_rankScore _

/-- **The local search returns the first of its matches**, where the text lanes cut none. -/
theorem executeSearchWithLimit_of_keeps (haccepts : E.accepts (trim query.queryString) = true)
    (h : TextLanesKeep e E query limit) :
    e.executeSearchWithLimit E query scope limit = .ok ((e.localMatches E query scope).take limit) := by
  unfold localMatches
  rw [← markColdResults_take]
  cases hblank : (trim query.queryString).isEmpty with
  | true =>
      rw [executeSearchWithLimit_of_blank hblank, executeStructuredOnly_eq_take]
      rfl
  | false => exact (executeSearchWithLimit_of_text hblank).mpr ⟨haccepts, by rw [textLane_of_keeps h]; rfl⟩

/-- The skeletons that meet the filters match a query without text. -/
theorem lists_structured (hblank : (trim query.queryString).isEmpty = true) :
    Lists (LocalMatch e E query) (e.executeStructuredOnly query e.db.skeletons.rows.length) := by
  have hlists : Lists (LocalMatch e E query) ((e.db.skeletons.rows.filter fun skel => e.admits .first query skel).map
      fun skel => skeletonResult skel 0 none) := by
    refine ⟨(e.db.skeletons.rows.filter fun skel => e.admits .first query skel).map fun skel => skel.messageId.toText,
      ?_, fun id => ?_, ?_⟩
    · have hids : ((e.db.skeletons.rows.filter fun skel => e.admits .first query skel).map
          MessageSkeleton.messageId).Nodup := e.db.skeletons.keyed.sublist (List.filter_sublist.map _)
      have htexts := hids.map fun a b hab => Uuid.toText_inj.mp hab
      rwa [List.map_map] at htexts
    · rw [List.mem_map]
      constructor
      · rintro ⟨skel, hskel, rfl⟩
        obtain ⟨hmem, hadmits⟩ := List.mem_filter.mp hskel
        exact ⟨_, .structured hblank (Table.find?_of_mem hmem) hadmits⟩
      · rintro ⟨n, hmatch⟩
        cases hmatch with
        | structured _ hskel hadmits =>
            obtain ⟨rfl, hfound⟩ := LocalStoreDb.skeletonOf_eq_some.mp hskel
            exact ⟨_, List.mem_filter.mpr ⟨Table.mem_of_find? hfound, hadmits⟩, rfl⟩
        | text htext _ => exact absurd (hblank.symm.trans htext) (by simp)
    · rw [List.forall₂_map_left_iff, List.forall₂_map_right_iff]
      refine List.forall₂_same.mpr fun skel hskel => ?_
      obtain ⟨hmem, hadmits⟩ := List.mem_filter.mp hskel
      exact .structured hblank (Table.find?_of_mem hmem) hadmits
  refine hlists.perm ?_
  unfold executeStructuredOnly
  exact ((top_perm (List.length_filter_le _ _)).map _).symm

/-- **`localMatches` has every match once.** -/
theorem lists_localMatches : Lists (LocalMatch e E query) (e.localMatches E query scope) := by
  unfold localMatches
  refine Lists.of_named ?_ (map_named_markColdResults _)
  cases hblank : (trim query.queryString).isEmpty with
  | true => exact lists_structured hblank
  | false =>
      have hlane : Lists (LocalMatch e E query) (values (e.fullLane E query)) := by
        refine lists_values (fun id r hfound => .text hblank (textHit_of_lookup hfound)) fun id n hmatch => ?_
        cases hmatch with
        | structured hempty _ _ => exact absurd (hempty.symm.trans hblank) (by simp)
        | text _ hhit => exact exists_lookup_textLane le_rfl hhit
      have hvalues := hlane.perm (e.intoValues_perm _).symm
      exact (hvalues.of_named (map_named_applyRecencyAndKindWeight _)).perm (List.mergeSort_perm _ _).symm

theorem LocalMatch.messageId {id : IdText} {n : Named} (h : LocalMatch e E query id n) : n.messageId = uuidOrNil id := by
  cases h with
  | structured _ hskel _ =>
      obtain ⟨rfl, -⟩ := LocalStoreDb.skeletonOf_eq_some.mp hskel
      rfl
  | text _ hhit => exact hhit.selected.messageId

theorem LocalHit.localMatch {n : Named} (h : LocalHit e E query n) : ∃ id, LocalMatch e E query id n := by
  cases h with
  | @structured skel hblank hskel hadmits =>
      rw [← LocalStoreDb.skeletonOf_toText] at hskel
      exact ⟨_, .structured hblank hskel hadmits⟩
  | text htext hhit => exact ⟨_, .text htext hhit⟩

/-! ## The matches of the semantic search -/

section Vectors

variable {embed : String → Except Error (List Rat)} {modelVersion : Option String}

/-- `ORDER BY` similarity. -/
def similarityLe : SemanticMatch → SemanticMatch → Bool := scoreLe SemanticMatch.similarity SemanticMatch.messageId

/-- **The vectors a query is compared with**, and how near they are. -/
def vectorMatches (e : QueryEngine) (E : SearchPlatform) (query : SearchQuery) (embed : String → Except Error (List Rat))
    (modelVersion : Option String) : List SemanticMatch :=
  if (trim query.queryString).isEmpty then []
  else
    match embed (trim query.queryString) with
    | .error _ => []
    | .ok embedding =>
        if embedding.isEmpty then []
        else (fetchCandidates e.db query.conversationFilter (some (modelVersion.getD Message.xlmrModelVersion))).filterMap
          fun r => (E.similarity embedding r.embedding).map fun similarity => ⟨r.messageId, similarity⟩

theorem vectorHits_eq_top : e.vectorHits E query embed modelVersion limit =
    top similarityLe (max limit 1) (e.vectorMatches E query embed modelVersion) := by
  have hpos : ¬ max limit 1 = 0 := by omega
  unfold vectorHits vectorMatches
  split_ifs with hblank
  · rw [top_nil]
  · cases embed (trim query.queryString) with
    | error fault => exact top_nil.symm
    | ok embedding =>
        dsimp only
        unfold searchSemantic
        by_cases hempty : embedding.isEmpty = true
        · simp [hempty]
        · simp [hempty, hpos, similarityLe]

theorem nodup_vectorMatches : ((e.vectorMatches E query embed modelVersion).map SemanticMatch.messageId).Nodup := by
  have hnodup : ((e.vectorHits E query embed modelVersion (e.vectorMatches E query embed modelVersion).length).map
      SemanticMatch.messageId).Nodup := nodup_vectorHits
  rw [vectorHits_eq_top] at hnodup
  exact (((top_perm (le_max_left _ 1)).map SemanticMatch.messageId).nodup_iff).mp hnodup

/-- **A match of the semantic search**: a local one, or a message with a vector that passes the filters; a message that
matches both ways counts once. -/
inductive SearchMatch (e : QueryEngine) (E : SearchPlatform) (query : SearchQuery) (embed : String → Except Error (List Rat))
    (modelVersion : Option String) (id : IdText) : Named → Prop
  | found {n : Named} (hmatch : LocalMatch e E query id n) : SearchMatch e E query embed modelVersion id n
  | vector {skel : MessageSkeleton} {hit : SemanticMatch} (hhit : hit ∈ e.vectorMatches E query embed modelVersion)
      (hid : hit.messageId = id) (hskel : e.db.skeletonOf id = some skel) (hpasses : e.passes .later query id = true)
      (hnew : ∀ id' n, LocalMatch e E query id' n → n.messageId ≠ skel.messageId) :
      SearchMatch e E query embed modelVersion id (named skel)

/-- **The matches with their rank scores**, best first. -/
def semanticMatches (e : QueryEngine) (E : SearchPlatform) (query : SearchQuery) (scope : SearchScope)
    (embed : String → Except Error (List Rat)) (modelVersion : Option String) : List RankedResult :=
  let found := e.localMatches E query scope
  let hits := (e.vectorMatches E query embed modelVersion).mergeSort similarityLe
  if hits.isEmpty then found
  else e.markColdResults scope ((e.mergeSemanticHits E query found hits).mergeSort resultLe)

/-- **No lane cuts a match that passes**: neither the text lanes, nor the limit between the lanes, nor the vectors. -/
structure LanesKeep (e : QueryEngine) (E : SearchPlatform) (query : SearchQuery) (scope : SearchScope)
    (embed : String → Except Error (List Rat)) (modelVersion : Option String) (limit : Nat) : Prop
    extends TextLanesKeep e E query limit where
  room : (e.localMatches E query scope).length ≤ limit
  vectors : ∀ hit ∈ cut similarityLe (max limit 1) (e.vectorMatches E query embed modelVersion),
    e.passes .later query hit.messageId = false ∧ ∀ r ∈ e.localMatches E query scope, r.messageId.toText ≠ hit.messageId

theorem newIds_append (found : List RankedResult) (hits more : List SemanticMatch) :
    newIds found (hits ++ more) = newIds found hits ++ newIds found more := by
  unfold newIds
  rw [List.filter_append, List.map_append]

/-- The ids whose skeletons are fetched: new ones that pass. -/
def fetchedIds (e : QueryEngine) (query : SearchQuery) (found : List RankedResult) (hits : List SemanticMatch) :
    List IdText :=
  (newIds found hits).filter (e.passes .later query)

theorem filter_newIds (found : List RankedResult) (hits : List SemanticMatch) :
    (newIds found hits).filter (isAllowed (e.allowedSkeletonIds .later query (newIds found hits))) =
      e.fetchedIds query found hits :=
  List.filter_congr fun _ hid => isAllowed_eq_passes hid

theorem mergeSemanticHits_eq (found : List RankedResult) (hits : List SemanticMatch) :
    e.mergeSemanticHits E query found hits =
      hits.foldl (e.addSemanticHit E (indexById found) (e.fetchSkeletonBasicInfo (e.fetchedIds query found hits))
        (newest ((found.map fun r => r.createdAtMs) ++ ((e.fetchedIds query found hits).filterMap
          (e.fetchSkeletonBasicInfo (e.fetchedIds query found hits))).map MessageSkeleton.createdAtMs))) found := by
  rw [← filter_newIds]
  rfl

/-- **Vectors that do not pass and belong to no result** change nothing. -/
theorem mergeSemanticHits_append {found : List RankedResult} {hits more : List SemanticMatch}
    (h : ∀ hit ∈ more, e.passes .later query hit.messageId = false ∧ ∀ r ∈ found, r.messageId.toText ≠ hit.messageId) :
    e.mergeSemanticHits E query found (hits ++ more) = e.mergeSemanticHits E query found hits := by
  have hids : e.fetchedIds query found (hits ++ more) = e.fetchedIds query found hits := by
    have hnone : (newIds found more).filter (e.passes .later query) = [] := by
      refine List.filter_eq_nil_iff.mpr fun id hid => ?_
      obtain ⟨hit, hhit, rfl⟩ := List.mem_map.mp hid
      simp [(h hit (List.mem_filter.mp hhit).1).1]
    unfold fetchedIds
    rw [newIds_append, List.filter_append, hnone, List.append_nil]
  rw [mergeSemanticHits_eq, mergeSemanticHits_eq, hids, List.foldl_append]
  refine (List.foldl_ext _ (fun results _ => results) _ fun results hit hhit => ?_).trans (List.foldl_fixed _)
  obtain ⟨hblocked, hother⟩ := h hit hhit
  have hfetched : hit.messageId ∉ e.fetchedIds query found hits := by
    intro hmem
    rw [(List.mem_filter.mp hmem).2] at hblocked
    exact absurd hblocked (by simp)
  unfold addSemanticHit fetchSkeletonBasicInfo
  rw [indexById_lookup_eq_none.mpr hother, if_neg hfetched]

theorem executeSearchWithSemantic_of_keeps (haccepts : E.accepts (trim query.queryString) = true)
    (h : LanesKeep e E query scope embed modelVersion limit) :
    e.executeSearchWithSemantic E query scope embed modelVersion limit =
      .ok ((e.semanticMatches E query scope embed modelVersion).take limit) := by
  refine executeSearchWithSemantic_eq_ok.mpr ⟨_, executeSearchWithLimit_of_keeps haccepts h.toTextLanesKeep, ?_⟩
  rw [List.take_of_length_le h.room, vectorHits_eq_top]
  unfold semanticMatches
  dsimp only
  rw [← top_append_cut (n := max limit 1)]
  by_cases hnone : e.vectorMatches E query embed modelVersion = []
  · rw [hnone, top_nil, cut_nil]
    exact List.take_of_length_le h.room
  · have htop : top similarityLe (max limit 1) (e.vectorMatches E query embed modelVersion) ≠ [] :=
      fun htop => hnone ((top_eq_nil_iff (by omega)).mp htop)
    rw [if_neg (by simp [htop]), if_neg (by simpa using htop), mergeSemanticHits_append h.vectors, ← markColdResults_take]
    rfl

theorem pairwise_semanticMatches :
    (e.semanticMatches E query scope embed modelVersion).Pairwise fun a b => b.rankScore ≤ a.rankScore := by
  unfold semanticMatches
  dsimp only
  split_ifs
  · exact pairwise_localMatches
  · exact pairwise_markColdResults (pairwise_rankScore _)

theorem exists_localMatches (scope : SearchScope) {id : IdText} {n : Named} (h : LocalMatch e E query id n) :
    ∃ r ∈ e.localMatches E query scope, r.messageId = n.messageId := by
  obtain ⟨r, hr, hid⟩ := lists_localMatches.exists_mem h
  exact ⟨r, hr, hid.messageId.trans h.messageId.symm⟩

/-- **What the vectors add to the local matches.** -/
theorem searchMatch_iff {hits : List SemanticMatch} (hhits : hits.Perm (e.vectorMatches E query embed modelVersion))
    (id : IdText) (n : Named) : SearchMatch e E query embed modelVersion id n ↔ LocalMatch e E query id n ∨
      ∃ skel ∈ e.newSkeletons query (e.localMatches E query scope) hits, skel.messageId.toText = id ∧ named skel = n := by
  constructor
  · intro h
    cases h with
    | found hmatch => exact .inl hmatch
    | @vector skel hit hhit hid hskel hpasses hnew =>
        have hname := (LocalStoreDb.skeletonOf_eq_some.mp hskel).1
        have hidNew : id ∈ newIds (e.localMatches E query scope) hits := by
          refine List.mem_map.mpr ⟨hit, List.mem_filter.mpr ⟨hhits.mem_iff.mpr hhit, ?_⟩, hid⟩
          rw [Option.isNone_iff_eq_none, indexById_lookup_eq_none, hid, hname]
          intro r hr heq
          obtain ⟨id', hmatch⟩ := lists_localMatches.of_mem hr
          exact hnew id' _ hmatch (Uuid.toText_inj.mp heq)
        refine .inr ⟨skel, List.mem_filterMap.mpr ⟨id, hidNew, ?_⟩, hname.symm, rfl⟩
        unfold fetchSkeletonBasicInfo
        rw [if_pos (List.mem_filter.mpr ⟨hidNew, (isAllowed_eq_passes hidNew).trans hpasses⟩), hskel]
  · rintro (hmatch | ⟨skel, hskel, rfl, rfl⟩)
    · exact .found hmatch
    · obtain ⟨hfound, hadmits, ⟨hit, hhit, hid⟩, hnew⟩ := mem_newSkeletons hskel
      rw [← LocalStoreDb.skeletonOf_toText] at hfound
      refine .vector (hhits.mem_iff.mp hhit) hid hfound
        (passes_iff.mpr (hadmits.imp_right fun hadmits => ⟨skel, hfound, hadmits⟩)) fun id' n' hmatch heq => ?_
      obtain ⟨r, hr, hname⟩ := exists_localMatches scope hmatch
      exact hnew r hr (hname.trans heq)

/-- **The merge of all vectors has every match once.** -/
theorem lists_merge {hits : List SemanticMatch} (hhits : hits.Perm (e.vectorMatches E query embed modelVersion)) :
    Lists (SearchMatch e E query embed modelVersion) (e.mergeSemanticHits E query (e.localMatches E query scope) hits) := by
  refine lists_localMatches.append (map_named_merge _ hits) ?_ (fun skel hskel => ?_) (searchMatch_iff hhits)
  · -- a skeleton is added under the id of its vector, and the ids of the vectors are distinct
    have hids : ((newIds (e.localMatches E query scope) hits).map id).Nodup := by
      rw [List.map_id]
      exact ((hhits.map SemanticMatch.messageId).nodup_iff.mpr nodup_vectorMatches).sublist
        (List.filter_sublist.map SemanticMatch.messageId)
    refine nodup_map_filterMap (fun id skel hfetched => ?_) hids
    unfold fetchSkeletonBasicInfo at hfetched
    split_ifs at hfetched
    exact (LocalStoreDb.skeletonOf_eq_some.mp hfetched).1.symm
  · rintro ⟨n, hmatch⟩
    obtain ⟨r, hr, hname⟩ := exists_localMatches scope hmatch
    exact (mem_newSkeletons hskel).2.2.2 r hr (hname.trans hmatch.messageId)

theorem lists_semanticMatches :
    Lists (SearchMatch e E query embed modelVersion) (e.semanticMatches E query scope embed modelVersion) := by
  have hlists : Lists (SearchMatch e E query embed modelVersion) (e.mergeSemanticHits E query (e.localMatches E query scope)
      ((e.vectorMatches E query embed modelVersion).mergeSort similarityLe)) := lists_merge (List.mergeSort_perm _ _)
  unfold semanticMatches
  dsimp only
  split_ifs with hnone
  · rwa [List.isEmpty_iff.mp hnone] at hlists
  · exact (hlists.perm (List.mergeSort_perm _ _).symm).of_named (map_named_markColdResults _)

/-! ## Every result is a match -/

theorem localMatch_of_mem {out : List RankedResult} (h : e.executeSearchWithLimit E query scope limit = .ok out)
    {r : RankedResult} (hr : r ∈ out) : ∃ id, LocalMatch e E query id r.named :=
  (localHit_of_mem h hr).localMatch

theorem searchMatch_of_mem {out : List RankedResult}
    (h : e.executeSearchWithSemantic E query scope embed modelVersion limit = .ok out) {r : RankedResult} (hr : r ∈ out) :
    ∃ id n, SearchMatch e E query embed modelVersion id n ∧ n.messageId = r.messageId := by
  obtain ⟨found, hfound, rfl⟩ := executeSearchWithSemantic_eq_ok.mp h
  split_ifs at hr
  · obtain ⟨id, hmatch⟩ := localMatch_of_mem hfound hr
    exact ⟨id, _, .found hmatch, rfl⟩
  · obtain ⟨r', hr', hnamed⟩ := exists_named_of_map_eq (map_named_markColdResults _) hr
    have hmem : r'.named ∈ (e.mergeSemanticHits E query found _).map RankedResult.named :=
      List.mem_map_of_mem (mem_of_mem_top hr')
    rw [map_named_merge, hnamed] at hmem
    rcases List.mem_append.mp hmem with hlocal | hnew
    · obtain ⟨r'', hr'', hnamed'⟩ := List.mem_map.mp hlocal
      obtain ⟨id, hmatch⟩ := localMatch_of_mem hfound hr''
      exact ⟨id, _, .found hmatch, congrArg Named.messageId hnamed'⟩
    · obtain ⟨skel, hskel, hnamed'⟩ := List.mem_map.mp hnew
      obtain ⟨hthere, hadmits, ⟨hit, hhit, hid⟩, -⟩ := mem_newSkeletons hskel
      have hmessage : skel.messageId = r.messageId := congrArg Named.messageId hnamed'
      rw [← LocalStoreDb.skeletonOf_toText] at hthere
      rw [vectorHits_eq_top] at hhit
      -- the limit between the lanes may have cut the text match of a message that is found by its vector
      by_cases hmatch : ∃ id n, LocalMatch e E query id n ∧ n.messageId = skel.messageId
      · obtain ⟨id, n, hmatch, heq⟩ := hmatch
        exact ⟨id, n, .found hmatch, heq.trans hmessage⟩
      · refine ⟨_, _, .vector (mem_of_mem_top hhit) hid hthere
          (passes_iff.mpr (hadmits.imp_right fun hadmits => ⟨skel, hthere, hadmits⟩)) fun id n hn heq => ?_, hmessage⟩
        exact hmatch ⟨id, n, hn, heq⟩

theorem length_markColdResults (results : List RankedResult) :
    (e.markColdResults scope results).length = results.length := by
  unfold markColdResults
  split_ifs
  · exact List.length_map _
  · rfl

theorem length_executeSearchWithLimit_le {out : List RankedResult}
    (h : e.executeSearchWithLimit E query scope limit = .ok out) : out.length ≤ limit := by
  cases hblank : (trim query.queryString).isEmpty with
  | true =>
      rw [executeSearchWithLimit_of_blank hblank] at h
      obtain rfl := Except.ok.inj h
      rw [length_markColdResults, executeStructuredOnly_eq_take]
      exact List.length_take_le _ _
  | false =>
      obtain ⟨-, rfl⟩ := (executeSearchWithLimit_of_text hblank).mp h
      rw [length_markColdResults]
      exact length_top_le

theorem length_executeSearchWithSemantic_le {out : List RankedResult}
    (h : e.executeSearchWithSemantic E query scope embed modelVersion limit = .ok out) : out.length ≤ limit := by
  obtain ⟨found, hfound, rfl⟩ := executeSearchWithSemantic_eq_ok.mp h
  split_ifs
  · exact length_executeSearchWithLimit_le hfound
  · rw [length_markColdResults]
    exact length_top_le

end Vectors

end QueryEngine

/-! ## Four longer greetings -/

/-- A connection without faults. -/
def QueryEngine.plain (db : LocalStoreDb) : QueryEngine := ⟨db, fun _ => none, id, fun _ => .refl _⟩

@[simp] theorem QueryEngine.db_plain (db : LocalStoreDb) : (QueryEngine.plain db).db = db := rfl

/-- Short texts rank higher. -/
def SearchPlatform.shortFirst : SearchPlatform :=
  { SearchPlatform.plain with bm25 := fun _ _ row => -1 / (row.textContent.length : Rat) }

/-- A message of "bob". -/
def bobSkeleton (i : Nat) : MessageSkeleton := { Message.aliceSkeleton with messageId := ⟨i⟩, senderId := "bob" }

/-- Four times "hi" from "bob", and a longer text from "alice". -/
def greetings : LocalStoreDb :=
  { LocalStoreDb.fresh Message.oneConversation with
    skeletons := ⟨[bobSkeleton 3, bobSkeleton 4, bobSkeleton 5, bobSkeleton 6, Message.aliceSkeleton], by decide⟩
    skeletonRefers := fun skel hskel => ⟨⟨⟨1⟩, none, 0, "direct", "", "", ""⟩, List.mem_singleton_self _, by
      fin_cases hskel <;> rfl⟩
    bodyRefers := Table.refers_empty
    assetRefers := Table.refers_empty
    fts := [bobSkeleton 3, bobSkeleton 4, bobSkeleton 5, bobSkeleton 6, Message.aliceSkeleton].map fun skel =>
      ⟨skel.messageId.toText, skel.conversationId, skel.senderId, skel.createdAtMs,
        if skel.senderId = "bob" then "hi" else "hi there"⟩ }

/-- What "alice" said of "hi". -/
def hiFromAlice : SearchQuery := ⟨"hi", some "alice", none, none, none, none, .global⟩

end KChatCore.Search
