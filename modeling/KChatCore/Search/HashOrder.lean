import KChatCore.Search.ColdLane
import KChatCore.Search.Completeness

/-!
# `Search.HashOrder` — what the order of a hash map can change

Each search collects its results from a hash map, which gives them out in any order, and sorts them. The order of results
looks at score, age and id (`Standing`), and a stable sort leaves results of one standing as it finds them. So another
order of the map changes nothing of the standings that a search returns.

* `limit_reordered` — the standings of the local search.
* `map_standing_rankMerged` — those of a merge with rows of the archive.
-/

namespace KChatCore.Search

open Lib LocalStore

/-- The connection, with hash maps that give out their entries in another order. -/
def QueryEngine.reordered (e : QueryEngine) (order : List RankedResult → List RankedResult)
    (horder : ∀ results, (order results).Perm results) : QueryEngine :=
  { e with intoValues := order, intoValues_perm := horder }

/-- **What the order of results looks at.** -/
structure Standing where
  rankScore : Rat
  createdAtMs : Int
  messageId : Uuid
deriving DecidableEq

/-- The standing of a result. -/
def RankedResult.standing (r : RankedResult) : Standing := ⟨r.rankScore, r.createdAtMs, r.messageId⟩

/-- A result with a standing. -/
def Standing.result (s : Standing) : RankedResult where
  messageId := s.messageId
  conversationId := Uuid.nil
  senderId := ""
  createdAtMs := s.createdAtMs
  isCold := false
  snippet := none
  rankScore := s.rankScore
  semanticScore := none

/-- The order of standings. -/
def standingLe (s t : Standing) : Bool := resultLe s.result t.result

theorem resultLe_eq_standingLe (a b : RankedResult) : resultLe a b = standingLe a.standing b.standing := rfl

/-- **The order tells standings apart.** -/
theorem standing_eq_of_resultLe {a b : RankedResult} (hab : resultLe a b = true) (hba : resultLe b a = true) :
    a.standing = b.standing := by
  rcases resultLe_iff.mp hab with hlt | ⟨hrank, hage⟩
  · exact absurd (rankScore_le_of_resultLe hba) (not_le_of_gt hlt)
  · rcases resultLe_iff.mp hba with hlt | ⟨-, hage'⟩
    · exact absurd hrank (ne_of_lt hlt)
    · have hcreated : a.createdAtMs = b.createdAtMs := by omega
      have hval : a.messageId.val = b.messageId.val := by omega
      have hmessage : a.messageId = b.messageId := congrArg Uuid.mk hval
      unfold RankedResult.standing
      rw [hrank, hcreated, hmessage]

section Sorting

variable {results results' : List RankedResult} {n : Nat}

/-- **The best results have the same standings in every order of the list.** -/
theorem map_standing_top (h : (results.map RankedResult.standing).Perm (results'.map RankedResult.standing)) :
    (top resultLe n results).map RankedResult.standing = (top resultLe n results').map RankedResult.standing := by
  rw [map_top resultLe_eq_standingLe, map_top resultLe_eq_standingLe]
  refine top_eq_of_perm ?_ ?_ ?_ h
  · intro s t u
    exact resultLe_trans s.result t.result u.result
  · intro s t
    exact resultLe_total s.result t.result
  · intro s _ t _ hst hts
    exact standing_eq_of_resultLe hst hts

/-- **Results of different messages are sorted in one way.** -/
theorem top_eq_of_nodup (hids : (results.map fun r => r.messageId).Nodup) (h : results.Perm results') :
    top resultLe n results = top resultLe n results' := by
  refine top_eq_of_perm resultLe_trans resultLe_total ?_ h
  intro a ha b hb hab hba
  have hmessage : a.messageId = b.messageId := congrArg Standing.messageId (standing_eq_of_resultLe hab hba)
  exact List.inj_on_of_nodup_map hids ha hb hmessage

theorem newest_of_standings (h : (results.map RankedResult.standing).Perm (results'.map RankedResult.standing)) :
    newest (results.map fun r => r.createdAtMs) = newest (results'.map fun r => r.createdAtMs) := by
  have hcreated := h.map Standing.createdAtMs
  rw [List.map_map, List.map_map] at hcreated
  exact newest_perm hcreated

end Sorting

namespace QueryEngine

variable {e : QueryEngine} {E : SearchPlatform} {query : SearchQuery} {scope : SearchScope} {limit : Nat}
  {results results' found found' : List RankedResult} {order : List RankedResult → List RankedResult}
  {horder : ∀ results, (order results).Perm results}

/-! ## The local search -/

/-- A standing, weighed. -/
def weigh (e : QueryEngine) (E : SearchPlatform) (nowMs : Int) (s : Standing) : Standing :=
  { s with rankScore := s.rankScore * e.messageWeight E nowMs s.messageId s.createdAtMs }

theorem map_standing_applyRecency : (e.applyRecencyAndKindWeight E results).map RankedResult.standing =
    (results.map RankedResult.standing).map (e.weigh E (newest (results.map fun r => r.createdAtMs))) := by
  unfold applyRecencyAndKindWeight
  rw [List.map_map, List.map_map]
  rfl

@[simp] theorem standing_markCold (r : RankedResult) : (e.markCold r).standing = r.standing := by
  unfold markCold
  split_ifs <;> rfl

theorem map_standing_markColdResults :
    (e.markColdResults scope results).map RankedResult.standing = results.map RankedResult.standing := by
  unfold markColdResults
  split_ifs
  · rw [List.map_map]
    apply List.map_congr_left
    intro r _
    exact standing_markCold r
  · rfl

/-- **The standings of the local search do not depend on the order of the hash map.** -/
theorem limit_reordered (hfound : e.executeSearchWithLimit E query scope limit = .ok found) :
    ∃ found', (e.reordered order horder).executeSearchWithLimit E query scope limit = .ok found' ∧
      found'.map RankedResult.standing = found.map RankedResult.standing := by
  cases hblank : (trim query.queryString).isEmpty with
  | true =>
      rw [executeSearchWithLimit_of_blank hblank] at hfound ⊢
      obtain rfl := Except.ok.inj hfound
      exact ⟨_, rfl, rfl⟩
  | false =>
      obtain ⟨haccepts, rfl⟩ := (executeSearchWithLimit_of_text hblank).mp hfound
      refine ⟨_, (executeSearchWithLimit_of_text hblank).mpr ⟨haccepts, rfl⟩, ?_⟩
      rw [map_standing_markColdResults, map_standing_markColdResults]
      -- the map has the same entries
      have hlane : (e.reordered order horder).textLane E query (trim query.queryString) limit =
          e.textLane E query (trim query.queryString) limit := rfl
      rw [hlane]
      generalize values (e.textLane E query (trim query.queryString) limit) = entries
      have hperm : ((e.reordered order horder).intoValues entries).Perm (e.intoValues entries) :=
        ((e.reordered order horder).intoValues_perm entries).trans (e.intoValues_perm entries).symm
      apply map_standing_top
      rw [map_standing_applyRecency, map_standing_applyRecency,
        newest_of_standings (hperm.map RankedResult.standing)]
      exact (hperm.map RankedResult.standing).map _

/-! ## The merge -/

section Merge

variable {byId byId' : AList fun _ : IdText => RankedResult}

/-- **The local results by id, up to their standings.** -/
theorem standing_localById (h : found.map RankedResult.standing = found'.map RankedResult.standing) (id : IdText) :
    ((localById found).lookup id).map RankedResult.standing = ((localById found').lookup id).map RankedResult.standing := by
  have hlookup : ∀ found : List RankedResult, ((localById found).lookup id).map RankedResult.standing =
      (found.map RankedResult.standing).reverse.find? fun s => decide (s.messageId.toText = id) := by
    intro found
    unfold localById
    rw [lookup_insertHits, AList.lookup_empty, Option.or_none, Option.map_id, ← List.map_reverse, List.find?_map]
    rfl
  rw [hlookup, hlookup, h]

theorem mem_keys_localById {id : IdText} :
    id ∈ (localById found).keys ↔ ((localById found).lookup id).isSome = true := by
  rw [AList.lookup_isSome]
  exact AList.mem_keys.symm

/-- A standing of the merge, weighed. -/
def weighCold (E : SearchPlatform) (localIds : List IdText) (nowMs : Int) (s : Standing) : Standing :=
  if s.messageId.toText ∈ localIds then s
  else { s with rankScore := s.rankScore * (recencyFactor E (nowMs - s.createdAtMs) * textKindWeight) }

theorem map_standing_applyCold {localIds : List IdText} :
    (applyColdRecencyWeight E localIds results).map RankedResult.standing =
      (results.map RankedResult.standing).map (weighCold E localIds (newest (results.map fun r => r.createdAtMs))) := by
  unfold applyColdRecencyWeight
  dsimp only
  rw [List.map_map, List.map_map]
  apply List.map_congr_left
  intro r _
  show RankedResult.standing (if r.messageId.toText ∈ localIds then r else _) =
    weighCold E localIds (newest (results.map fun r => r.createdAtMs)) r.standing
  unfold weighCold
  by_cases hlocal : r.messageId.toText ∈ localIds
  · rw [if_pos hlocal, if_pos (show r.standing.messageId.toText ∈ localIds from hlocal)]
  · rw [if_neg hlocal, if_neg (show ¬ r.standing.messageId.toText ∈ localIds from hlocal)]
    rfl

theorem weighCold_congr {localIds localIds' : List IdText} (h : ∀ id, id ∈ localIds ↔ id ∈ localIds') (nowMs : Int)
    (s : Standing) : weighCold E localIds nowMs s = weighCold E localIds' nowMs s := by
  unfold weighCold
  simp only [h]

/-- **The standings of a merge** depend on those of its entries. -/
theorem map_standing_rankMerged (hfound : found.map RankedResult.standing = found'.map RankedResult.standing)
    (hbyId : ∀ id, (byId.lookup id).map RankedResult.standing = (byId'.lookup id).map RankedResult.standing) :
    ((e.reordered order horder).rankMerged E found' byId' limit).map RankedResult.standing =
      (e.rankMerged E found byId limit).map RankedResult.standing := by
  have hvalues : (((e.reordered order horder).intoValues (values byId')).map RankedResult.standing).Perm
      ((e.intoValues (values byId)).map RankedResult.standing) :=
    (((e.reordered order horder).intoValues_perm _).map _).trans
      ((perm_map_values hbyId).symm.trans ((e.intoValues_perm _).map _).symm)
  have hids : ∀ id, id ∈ (localById found').keys ↔ id ∈ (localById found).keys := by
    intro id
    have hsome := congrArg Option.isSome (standing_localById hfound id)
    rw [Option.isSome_map, Option.isSome_map] at hsome
    rw [mem_keys_localById, mem_keys_localById, hsome]
  unfold rankMerged
  apply map_standing_top
  rw [map_standing_applyCold, map_standing_applyCold, newest_of_standings hvalues,
    List.map_congr_left fun s _ => weighCold_congr hids _ s]
  exact hvalues.map _

end Merge

end QueryEngine

end KChatCore.Search
