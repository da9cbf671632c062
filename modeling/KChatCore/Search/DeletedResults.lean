import KChatCore.Search.ColdLane
import KChatCore.Search.Completeness
import KChatCore.Search.IndexedRows

/-!
# `Search.DeletedResults` — deleted messages and the results of a search

A delete drops the rows of a message from the three indexes and leaves its skeleton. So the text lane and the vector lane
know nothing of a deleted message. But a query without text scans the skeletons, and no clause asks for their state; and
the rows of a shard are older than the delete, and are merged without a look at the skeleton.

* `ShowsNoDeleted` — no result names a deleted message.
* `NoneDeleted` — no message that the filters select by themselves is deleted, and no row that matches is of a deleted
  message.
* `showsNoDeleted_iff` — in every history of a store, the one is the other.
-/

namespace KChatCore.Search

open Lib LocalStore Message

/-- **No search returns a deleted message.** -/
structure ShowsNoDeleted (e : QueryEngine) (E : SearchPlatform) (query : SearchQuery) (src : ColdShardSource)
    (policy : TenantSearchPolicy) (cache : Option ShardCache) : Prop where
  limit : ∀ scope limit out, e.executeSearchWithLimit E query scope limit = .ok out →
    ∀ r ∈ out, e.db.isDeleted r.messageId = false
  semantic : ∀ scope embed modelVersion limit out, e.executeSearchWithSemantic E query scope embed modelVersion limit = .ok out →
    ∀ r ∈ out, e.db.isDeleted r.messageId = false
  cold : ∀ scope limit out, (e.executeSearchWithColdSourceFull E query scope src policy cache limit).1 = .ok out →
    ∀ r ∈ out, e.db.isDeleted r.messageId = false

/-- **Nothing that is selected is deleted**: no skeleton that meets the filters of a query without text, no message that a
matching row of a shard names, and not the message with the nil id where a row under another id than a message's matches. -/
structure NoneDeleted (e : QueryEngine) (E : SearchPlatform) (query : SearchQuery) (src : ColdShardSource)
    (policy : TenantSearchPolicy) (cache : Option ShardCache) : Prop where
  structured : (trim query.queryString).isEmpty = true → ∀ skel ∈ e.db.skeletons.rows, e.admits .first query skel = true →
    skel.bodyState.deleted = false
  nil : e.clauses .first query = [] → e.db.isDeleted Uuid.nil = true → ∀ row ∈ e.db.fts,
    E.selects (trim query.queryString) row.textContent = true → Uuid.parseStr row.messageId ≠ none
  cold : E.accepts (trim query.queryString) = true → ∀ hits, e.coldReads E query .includeCold src policy cache = .ok hits →
    ∀ hit ∈ hits, e.db.isDeleted (QueryEngine.uuidOrNil hit.messageId) = false

namespace QueryEngine

variable {e : QueryEngine} {E : SearchPlatform} {query : SearchQuery} {scope : SearchScope} {limit : Nat}
  {out : List RankedResult} {r : RankedResult} {src : ColdShardSource} {policy : TenantSearchPolicy}
  {cache : Option ShardCache}

theorem isDeleted_of_skeleton {skel : MessageSkeleton} (h : e.db.skeletons.find? skel.messageId = some skel) :
    e.db.isDeleted skel.messageId = skel.bodyState.deleted := by
  unfold LocalStoreDb.isDeleted
  rw [h]
  rfl

/-- An id that is not that of a message has no skeleton. -/
theorem skeletonOf_eq_none {id : IdText} (h : Uuid.parseStr id = none) : e.db.skeletonOf id = none := by
  cases hskel : e.db.skeletonOf id with
  | none => rfl
  | some skel =>
      obtain ⟨rfl, -⟩ := LocalStoreDb.skeletonOf_eq_some.mp hskel
      exact absurd h (by simp)

theorem uuidOrNil_of_parseStr {id : IdText} {m : Uuid} (h : Uuid.parseStr id = some m) : uuidOrNil id = m ∧ id = m.toText := by
  cases id with
  | uuid u =>
      obtain rfl := Option.some.inj h
      exact ⟨rfl, rfl⟩
  | malformed s => exact absurd h (by simp [Uuid.parseStr])

theorem uuidOrNil_eq_nil {id : IdText} (h : Uuid.parseStr id = none) : uuidOrNil id = Uuid.nil := by
  unfold uuidOrNil
  rw [h]
  rfl

/-! ## Nothing else shows a deleted message -/

/-- **A message the fuzzy index selects is not deleted**; nor one that a text row under its id selects. -/
theorem isDeleted_of_textHit (hindexed : IndexedRows e.db) {id : IdText} {n : Named} (hhit : TextHit e E query id n)
    (hnil : e.clauses .first query = [] → e.db.isDeleted Uuid.nil = true → ∀ row ∈ e.db.fts,
      E.selects (trim query.queryString) row.textContent = true → Uuid.parseStr row.messageId ≠ none) :
    e.db.isDeleted n.messageId = false := by
  by_contra hdeleted
  rw [Bool.not_eq_false] at hdeleted
  have hunindexed := hindexed.unindexed hdeleted
  cases hhit.selected with
  | @text row hrow hselects hid =>
      subst hid
      cases hparse : Uuid.parseStr row.messageId with
      | some m =>
          obtain ⟨hm, htext⟩ := uuidOrNil_of_parseStr hparse
          rw [show Named.messageId ⟨uuidOrNil row.messageId, row.conversationId, row.senderId, row.createdAtMs⟩ = m from hm]
            at hunindexed
          exact hunindexed.1 row hrow htext
      | none =>
          have hclauses : e.clauses .first query = [] := by
            refine hhit.allowed.resolve_right ?_
            rintro ⟨skel, hskel, -⟩
            rw [skeletonOf_eq_none hparse] at hskel
            exact absurd hskel (by simp)
          rw [show Named.messageId ⟨uuidOrNil row.messageId, row.conversationId, row.senderId, row.createdAtMs⟩ = Uuid.nil from
            uuidOrNil_eq_nil hparse] at hdeleted
          exact hnil hclauses hdeleted row hrow hselects hparse
  | @fuzzy skel hit hmatch hid hskel =>
      obtain ⟨rfl, -⟩ := LocalStoreDb.skeletonOf_eq_some.mp hskel
      obtain ⟨⟨row, hrow, hrowid⟩, -⟩ := mem_fuzzyMatches hmatch
      exact hunindexed.2.1 row hrow (hrowid.trans hid)

theorem isDeleted_of_localHit (hindexed : IndexedRows e.db) (h : NoneDeleted e E query src policy cache)
    (hhit : LocalHit e E query r.named) : e.db.isDeleted r.messageId = false := by
  show e.db.isDeleted r.named.messageId = false
  generalize r.named = n at hhit ⊢
  cases hhit with
  | structured hblank hskel hadmits =>
      refine (isDeleted_of_skeleton hskel).trans (h.structured hblank _ ?_ hadmits)
      exact Table.mem_of_find? hskel
  | text _ hhit => exact isDeleted_of_textHit hindexed hhit h.nil

theorem isDeleted_of_limit (hindexed : IndexedRows e.db) (h : NoneDeleted e E query src policy cache)
    (hout : e.executeSearchWithLimit E query scope limit = .ok out) (hr : r ∈ out) : e.db.isDeleted r.messageId = false :=
  isDeleted_of_localHit hindexed h (localHit_of_mem hout hr)

theorem isDeleted_of_semantic {embed : String → Except Error (List Rat)} {modelVersion : Option String}
    (hindexed : IndexedRows e.db) (h : NoneDeleted e E query src policy cache)
    (hout : e.executeSearchWithSemantic E query scope embed modelVersion limit = .ok out) (hr : r ∈ out) :
    e.db.isDeleted r.messageId = false := by
  rcases hit_of_mem_semantic hout hr with hlocal | ⟨skel, hvector, hn⟩
  · exact isDeleted_of_localHit hindexed h hlocal
  · have hmessage : r.messageId = skel.messageId := congrArg Named.messageId hn
    rw [hmessage]
    by_contra hdeleted
    rw [Bool.not_eq_false] at hdeleted
    obtain ⟨row, hrow, hrowid⟩ := hvector.vector
    exact (hindexed.unindexed hdeleted).2.2 row hrow hrowid

/-- A search that stays local reads nothing. -/
theorem coldReads_of_staysLocal (h : staysLocal query scope policy = true) :
    e.coldReads E query scope src policy cache = .ok [] := by
  unfold coldReads bucketsToRead
  rw [if_pos h]
  simp only [List.take_nil]
  rfl

/-- A search that reads something has a text, and asks for the archive. -/
theorem of_mem_coldReads {hits : List ColdHit} (hreads : e.coldReads E query scope src policy cache = .ok hits)
    {hit : ColdHit} (hhit : hit ∈ hits) : (trim query.queryString).isEmpty = false ∧ scope = .includeCold := by
  have hgoes : staysLocal query scope policy = false := by
    by_contra hstays
    rw [coldReads_of_staysLocal (Bool.not_eq_false _ ▸ hstays)] at hreads
    obtain rfl := Except.ok.inj hreads
    exact absurd hhit List.not_mem_nil
  unfold staysLocal at hgoes
  simp only [Bool.or_eq_false_iff, decide_eq_false_iff_not, not_not] at hgoes
  exact ⟨hgoes.1.1.2, hgoes.1.1.1⟩

theorem isDeleted_of_full (hindexed : IndexedRows e.db) (h : NoneDeleted e E query src policy cache)
    (hout : (e.executeSearchWithColdSourceFull E query scope src policy cache limit).1 = .ok out) (hr : r ∈ out) :
    e.db.isDeleted r.messageId = false := by
  obtain ⟨found, hfound, hits, hreads, hnamed⟩ := coldNamed_full hout hr
  show e.db.isDeleted r.named.messageId = false
  generalize r.named = n at hnamed ⊢
  cases hnamed with
  | here hr' => exact isDeleted_of_limit hindexed h hfound hr'
  | @cold hit hfirst _ =>
      obtain ⟨htext, rfl⟩ := of_mem_coldReads hreads hfirst.mem
      obtain ⟨haccepts, -⟩ := (executeSearchWithLimit_of_text htext).mp hfound
      exact h.cold haccepts hits hreads hit hfirst.mem

/-! ## What is deleted and selected is shown -/

theorem markColdResults_localOnly (results : List RankedResult) : e.markColdResults .localOnly results = results :=
  if_neg (by decide)

/-- FTS5 takes the expression of a query that selects something. -/
theorem accepts_of_selects {queryString text : String} (h : E.selects (trim queryString) text = true) :
    (trim queryString).isEmpty = false ∧ E.accepts (trim queryString) = true := by
  unfold SearchPlatform.selects at h
  unfold SearchPlatform.accepts
  split_ifs at h with hnone
  rw [Bool.or_eq_true, not_or] at hnone
  constructor
  · by_contra hblank
    rw [Bool.not_eq_false, String.isEmpty_iff] at hblank
    rw [hblank] at hnone
    exact hnone.1 (by decide +kernel)
  · cases hmatch : E.ftsMatch (buildFtsQuery (trim (trim queryString))) with
    | error fault =>
        rw [hmatch] at h
        exact absurd h (by simp)
    | ok selects => simp [Except.isOk, Except.toBool]

/-- A message that matches and meets the filters is a result, with enough room. -/
theorem exists_result_of_match {id : IdText} {n : Named}
    (haccepts : (trim query.queryString).isEmpty = false → E.accepts (trim query.queryString) = true)
    (h : LocalMatch e E query id n) :
    ∃ limit out, e.executeSearchWithLimit E query .localOnly limit = .ok out ∧ ∃ r ∈ out, r.messageId = n.messageId := by
  cases hblank : (trim query.queryString).isEmpty with
  | true =>
      obtain ⟨r, hr, hname⟩ := exists_localMatches .localOnly h
      unfold localMatches at hr
      rw [if_pos hblank] at hr
      exact ⟨_, _, executeSearchWithLimit_of_blank hblank, r, hr, hname⟩
  | false =>
      cases h with
      | structured hempty _ _ => exact absurd (hempty.symm.trans hblank) (by simp)
      | text _ hhit =>
          obtain ⟨out, hout⟩ : ∃ out, e.executeFtsAndFuzzyWithFilters E query (trim query.queryString)
              (selectedCount e E (trim query.queryString)) = .ok out :=
            ⟨_, executeFts_eq_ok.mpr ⟨haccepts hblank, rfl⟩⟩
          obtain ⟨r, hr, hname⟩ := exists_mem_of_textHit hout le_rfl hhit
          obtain ⟨-, hlane⟩ := executeFts_eq_ok.mp hout
          have hsearch : e.executeSearchWithLimit E query .localOnly (selectedCount e E (trim query.queryString)) = .ok out :=
            (executeSearchWithLimit_of_text hblank).mpr ⟨haccepts hblank, hlane.trans (markColdResults_localOnly _).symm⟩
          exact ⟨_, out, hsearch, r, hr, hname.trans hhit.selected.messageId.symm⟩

/-- A search for a text has no more results than the indexes select. -/
theorem length_found_le (htext : (trim query.queryString).isEmpty = false)
    (hout : e.executeSearchWithLimit E query scope limit = .ok out) :
    out.length ≤ selectedCount e E (trim query.queryString) := by
  obtain ⟨-, rfl⟩ := (executeSearchWithLimit_of_text htext).mp hout
  rw [length_markColdResults]
  refine length_top_le_length.trans ?_
  unfold applyRecencyAndKindWeight
  rw [List.length_map, length_intoValues]
  exact length_textLane_le

/-- **A message that a row of a shard names is a result**, with enough room. -/
theorem exists_result_of_coldReads {hits : List ColdHit} (haccepts : E.accepts (trim query.queryString) = true)
    (hreads : e.coldReads E query scope src policy cache = .ok hits) {hit : ColdHit} (hhit : hit ∈ hits) :
    ∃ limit out, (e.executeSearchWithColdSourceFull E query scope src policy cache limit).1 = .ok out ∧
        (∃ r ∈ out, r.messageId = uuidOrNil hit.messageId) ∨
      e.executeSearchWithLimit E query scope limit = .ok out ∧ ∃ r ∈ out, r.messageId = uuidOrNil hit.messageId := by
  obtain ⟨first, hfirst, hid⟩ := exists_firstHit hhit
  obtain ⟨found, hfound⟩ : ∃ found, e.executeSearchWithLimit E query scope
      (selectedCount e E (trim query.queryString) + hits.length) = .ok found := executeSearchWithLimit_isOk haccepts
  by_cases hnew : ∀ r ∈ found, r.messageId.toText ≠ first.messageId
  · have hroom : found.length + hits.length ≤ selectedCount e E (trim query.queryString) + hits.length :=
      Nat.add_le_add_right (length_found_le (of_mem_coldReads hreads hhit).1 hfound) _
    obtain ⟨out, hout, r, hr, hn⟩ := exists_mem_full hfound hreads hroom hfirst hnew
    refine ⟨_, out, .inl ⟨hout, r, hr, ?_⟩⟩
    rw [← hid]
    exact congrArg Named.messageId hn
  · -- the local search names it already
    push Not at hnew
    obtain ⟨r, hr, htext⟩ := hnew
    refine ⟨_, found, .inr ⟨hfound, r, hr, ?_⟩⟩
    rw [← hid, ← htext]
    rfl

end QueryEngine

/-- **In every history the searches show no deleted message exactly where nothing that is selected is deleted.** -/
theorem showsNoDeleted_iff {F : Platform} {conversations : Table Conversation.conversationId}
    {tr : List (LocalStoreDb × CoreCall)} {e : QueryEngine} (hrun : CoreHistory F (.fresh conversations) tr e.db)
    (E : SearchPlatform) (query : SearchQuery) (src : ColdShardSource) (policy : TenantSearchPolicy)
    (cache : Option ShardCache) : ShowsNoDeleted e E query src policy cache ↔ NoneDeleted e E query src policy cache := by
  have hindexed : IndexedRows e.db := indexedRows_coreHistory hrun
  constructor
  · intro h
    constructor
    · -- without text the skeleton itself is a result
      intro hblank skel hskel hadmits
      have hfound := Table.find?_of_mem hskel
      have hmatch : QueryEngine.LocalMatch e E query skel.messageId.toText (named skel) :=
        .structured hblank ((LocalStoreDb.skeletonOf_toText _ _).trans hfound) hadmits
      have haccepts : (trim query.queryString).isEmpty = false → E.accepts (trim query.queryString) = true := by
        intro htext
        exact absurd (hblank.symm.trans htext) (by simp)
      obtain ⟨limit, out, hout, r, hr, hname⟩ := QueryEngine.exists_result_of_match haccepts hmatch
      have hmessage : r.messageId = skel.messageId := hname
      rw [← QueryEngine.isDeleted_of_skeleton hfound, ← hmessage]
      exact h.limit _ _ _ hout r hr
    · -- a row whose id is no id of a message is shown under the nil id
      intro hclauses hdeleted row hrow hselects hparse
      obtain ⟨htext, haccepts⟩ := QueryEngine.accepts_of_selects hselects
      have hmatch : QueryEngine.LocalMatch e E query row.messageId _ := .text htext ⟨.text hrow hselects rfl, .inl hclauses⟩
      obtain ⟨limit, out, hout, r, hr, hname⟩ := QueryEngine.exists_result_of_match (fun _ => haccepts) hmatch
      have hnil : r.messageId = Uuid.nil := hname.trans (QueryEngine.uuidOrNil_eq_nil hparse)
      have hlive := h.limit _ _ _ hout r hr
      rw [hnil, hdeleted] at hlive
      exact absurd hlive (by simp)
    · -- a row of a shard is shown by one of the two searches
      intro haccepts hits hreads hit hhit
      obtain ⟨limit, out, ⟨hout, r, hr, hname⟩ | ⟨hout, r, hr, hname⟩⟩ :=
        QueryEngine.exists_result_of_coldReads haccepts hreads hhit
      · rw [← hname]
        exact h.cold _ _ _ hout r hr
      · rw [← hname]
        exact h.limit _ _ _ hout r hr
  · intro h
    constructor
    · intro scope limit out hout r hr
      exact QueryEngine.isDeleted_of_limit hindexed h hout hr
    · intro scope embed modelVersion limit out hout r hr
      exact QueryEngine.isDeleted_of_semantic hindexed h hout hr
    · intro scope limit out hout r hr
      exact QueryEngine.isDeleted_of_full hindexed h hout hr

/-! "hi" arrives, is deleted for me, and is a result of a query without text. -/

/-- No text, no filter. -/
def everything : SearchQuery := ⟨"", none, none, none, none, none, .global⟩

/-- No bucket is offloaded. -/
def noColdShards : ColdShardSource := ⟨.ok [], fun _ _ => .ok [], fun _ _ => .ok [], fun _ _ => .ok none⟩

theorem showsNoDeleted_iff_hi : ∃ db tr, CoreHistory .bare (.fresh oneConversation) tr db ∧
    (ShowsNoDeleted (.plain db) .plain everything noColdShards .default none ↔
      NoneDeleted (.plain db) .plain everything noColdShards .default none) := by
  obtain ⟨db, hstep⟩ : ∃ db, CoreCall.Step .bare (.fresh oneConversation)
      (.ingestMessages [⟨aliceSays "hi", 1001, 1002⟩]) db := ⟨_, rfl⟩
  exact ⟨db, _, Run.single hstep,
    showsNoDeleted_iff (e := .plain db) (Run.single hstep) .plain everything noColdShards .default none⟩

/-- **A deleted message is a result.** -/
theorem deleted_message_shown : ∃ tr db, CoreHistory .bare (.fresh oneConversation) tr db ∧
    db.deletedAs ⟨2⟩ .deletedForMe ∧ ∃ limit out,
      (QueryEngine.plain db).executeSearchWithLimit .plain everything .localOnly limit = .ok out ∧
        ∃ r ∈ out, r.messageId = ⟨2⟩ := by
  have htext : "hi".isEmpty = false := by decide
  obtain ⟨db, hok, hcreate, -⟩ := aliceSays_ingested htext
  have hskel : db.skeletons.find? aliceSkeleton.messageId = some aliceSkeleton := hcreate.skeleton
  have hdelete : deleteForMe db ⟨2⟩ 2000 = .ok (deleteInnerTx db aliceSkeleton .forMe 2000) :=
    deleteInner_eq_ok.mpr ⟨aliceSkeleton, hskel, rfl, rfl⟩
  have harrives : CoreCall.Step .bare (.fresh oneConversation)
      (.message (.persistIngestedMessage (aliceSays "hi") 1001 1002)) db := step_persistIngestedMessage hok
  have hgoes : CoreCall.Step .bare db (.message (.deleteForMe ⟨2⟩ 2000)) (deleteInnerTx db aliceSkeleton .forMe 2000) :=
    step_deleteForMe .bare hdelete
  have htombstone := congrArg MessageView.skeleton (view_deleteInnerTx .forMe 2000 hskel)
  refine ⟨_, _, (Run.single harrives).trans (Run.single hgoes), ⟨rfl, _, htombstone, rfl⟩, ?_⟩
  -- without text and without a filter every skeleton is selected
  have hblank : (trim everything.queryString).isEmpty = true := by decide +kernel
  have hthere := (LocalStoreDb.skeletonOf_toText (deleteInnerTx db aliceSkeleton .forMe 2000) _).trans htombstone
  have hmatch : QueryEngine.LocalMatch (.plain (deleteInnerTx db aliceSkeleton .forMe 2000)) .plain everything _ _ :=
    .structured hblank hthere (QueryEngine.admits_of_clauses_eq_nil rfl _)
  exact QueryEngine.exists_result_of_match (fun htext => absurd (hblank.symm.trans htext) (by simp)) hmatch

end KChatCore.Search
