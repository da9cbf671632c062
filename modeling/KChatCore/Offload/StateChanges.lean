import KChatCore.Lib.Run
import KChatCore.Media.Download
import KChatCore.Offload.Enforcement

/-!
# `Offload.StateChanges` — who changes `media_state`, and to what

`transitionMediaState` checks the state it is told against the row and the pair against the diagram; `commitRehydration`
goes through it twice. An eviction writes `evicted` whatever the row says. Between the moment candidates are collected and
the moment a plan over them is executed, the other calls may come.

`MediaCall.stores` are the stores a call leaves, one after each of its statements.

* `evictions_legal_iff` — when every change an eviction makes is one of the diagram;
* `evictAll_bytes` — what an eviction takes off the sum of `bytes_local`;
* `stateChanges_lawful` — a run in which no plan is out of date and `evicted` is set only on empty rows is lawful.
-/

namespace KChatCore.Offload

open Lib LocalStore Media

/-- `SUM(bytes_local)`. -/
def localBytes (db : LocalStoreDb) : Int := (db.assets.rows.map MediaAsset.bytesLocal).sum

/-- **Every state that has changed has changed as the diagram allows.** -/
def ChangesLegally (db db' : LocalStoreDb) : Prop :=
  ∀ assetId row', db'.getMediaAsset assetId = some row' → ∃ row, db.getMediaAsset assetId = some row ∧
    (row'.mediaState = row.mediaState ∨ row.mediaState.legal row'.mediaState = true)

/-- **An evicted asset has nothing left on the device.** -/
def EvictedEmpty (db : LocalStoreDb) : Prop :=
  ∀ assetId row, db.getMediaAsset assetId = some row → row.mediaState = .evicted → row.bytesLocal = 0

/-- No row counts less than nothing. -/
def CountsBytes (db : LocalStoreDb) : Prop :=
  ∀ assetId row, db.getMediaAsset assetId = some row → 0 ≤ row.bytesLocal

/-! ## One `UPDATE` -/

section Update

variable {db : LocalStoreDb} {assetId k : Uuid} {row : MediaAsset} {f : MediaAsset → MediaAsset}
  {hid : ∀ r, (f r).assetId = r.assetId} {hmessage : ∀ r, (f r).messageId = r.messageId}

theorem getMediaAsset_updateAsset : (db.updateAsset assetId f hid hmessage).getMediaAsset k =
    if k = assetId then (db.getMediaAsset k).map f else db.getMediaAsset k :=
  LocalStoreDb.find?_updateAsset _ _ _ _ _

/-- A row after an `UPDATE` comes from a row before it. -/
theorem updateAsset_cases {row' : MediaAsset}
    (h : (db.updateAsset assetId f hid hmessage).getMediaAsset k = some row') :
    ∃ row, db.getMediaAsset k = some row ∧ ((k = assetId ∧ row' = f row) ∨ (k ≠ assetId ∧ row' = row)) := by
  rw [getMediaAsset_updateAsset] at h
  by_cases hk : k = assetId
  · rw [if_pos hk] at h
    obtain ⟨row, hrow, rfl⟩ := Option.map_eq_some_iff.mp h
    exact ⟨row, hrow, Or.inl ⟨hk, rfl⟩⟩
  · rw [if_neg hk] at h
    exact ⟨row', h, Or.inr ⟨hk, rfl⟩⟩

/-- The sum over some rows once the row of one id has changed. -/
theorem sum_bytesLocal_update {l : List MediaAsset} (hnodup : (l.map MediaAsset.assetId).Nodup) (hrow : row ∈ l) :
    ((l.map fun r => if r.assetId = row.assetId then f r else r).map MediaAsset.bytesLocal).sum =
      (l.map MediaAsset.bytesLocal).sum - row.bytesLocal + (f row).bytesLocal := by
  induction l with
  | nil => exact absurd hrow (by simp)
  | cons a l ih =>
      simp only [List.map_cons, List.nodup_cons] at hnodup
      simp only [List.map_cons, List.sum_cons]
      rcases List.mem_cons.mp hrow with rfl | hmem
      · -- the row stands here, and no other has its id
        have hrest : l.map (fun r => if r.assetId = row.assetId then f r else r) = l := by
          conv_rhs => rw [← List.map_id l]
          refine List.map_congr_left fun r hr => if_neg fun heq => hnodup.1 ?_
          exact heq ▸ List.mem_map_of_mem hr
        rw [if_pos rfl, hrest]
        omega
      · have hne : a.assetId ≠ row.assetId := fun heq => hnodup.1 (heq ▸ List.mem_map_of_mem hmem)
        rw [if_neg hne, ih hnodup.2 hmem]
        omega

theorem localBytes_updateAsset (h : db.getMediaAsset assetId = some row) :
    localBytes (db.updateAsset assetId f hid hmessage) = localBytes db - row.bytesLocal + (f row).bytesLocal := by
  obtain ⟨hmem, rfl⟩ := Table.find?_eq_some.mp h
  have hsum := sum_bytesLocal_update (f := f) db.assets.keyed hmem
  simp only [localBytes, LocalStoreDb.updateAsset, Table.update, decide_eq_true_eq]
  exact hsum

theorem localBytes_updateAsset_of_none (h : db.getMediaAsset assetId = none) :
    localBytes (db.updateAsset assetId f hid hmessage) = localBytes db := by
  have hrows : db.assets.rows.map (fun r => if r.assetId = assetId then f r else r) = db.assets.rows := by
    conv_rhs => rw [← List.map_id db.assets.rows]
    exact List.map_congr_left fun r hr => if_neg (Table.find?_eq_none.mp h r hr)
  simp only [localBytes, LocalStoreDb.updateAsset, Table.update, decide_eq_true_eq]
  rw [hrows]

theorem localBytes_nonneg (h : CountsBytes db) : 0 ≤ localBytes db := by
  refine List.sum_nonneg fun n hn => ?_
  obtain ⟨row, hrow, rfl⟩ := List.mem_map.mp hn
  exact h row.assetId row (Table.find?_of_mem hrow)

/-- No row counts more than the sum. -/
theorem bytesLocal_le (h : CountsBytes db) (hrow : db.getMediaAsset k = some row) : row.bytesLocal ≤ localBytes db := by
  refine List.single_le_sum (fun n hn => ?_) _ (List.mem_map_of_mem (Table.mem_of_find? hrow))
  obtain ⟨r, hr, rfl⟩ := List.mem_map.mp hn
  exact h r.assetId r (Table.find?_of_mem hr)

theorem CountsBytes.updateAsset (h : CountsBytes db) (hf : ∀ r, 0 ≤ r.bytesLocal → 0 ≤ (f r).bytesLocal) :
    CountsBytes (db.updateAsset assetId f hid hmessage) := by
  intro k row' hrow'
  obtain ⟨row, hrow, ⟨-, rfl⟩ | ⟨-, rfl⟩⟩ := updateAsset_cases hrow'
  · exact hf row (h k row hrow)
  · exact h k _ hrow

end Update

/-! ## The `UPDATE`s of an eviction -/

/-- The stores after each `UPDATE`. -/
def evictions : LocalStoreDb → List EvictionCandidate → List LocalStoreDb
  | _, [] => []
  | db, cand :: cands => evictAsset db cand.assetId :: evictions (evictAsset db cand.assetId) cands

/-- The row a candidate names, if it is there, may be evicted. -/
def MayEvict (db : LocalStoreDb) (cand : EvictionCandidate) : Prop :=
  ∀ row, db.getMediaAsset cand.assetId = some row → row.mediaState = .originalLocal ∨ row.mediaState = .evicted

/-- **The bytes recorded are the bytes there**, and no asset that has some is named twice. -/
structure Counted (db : LocalStoreDb) (cands : List EvictionCandidate) : Prop where
  current : ∀ cand ∈ cands, ∀ row, db.getMediaAsset cand.assetId = some row → row.bytesLocal = cand.bytes.toNat
  once : cands.Pairwise fun a b => a.assetId = b.assetId → ∀ row, db.getMediaAsset a.assetId = some row → a.bytes = 0

section Evictions

variable {db : LocalStoreDb} {cand : EvictionCandidate} {cands cands' : List EvictionCandidate}

theorem evictAll_append : evictAll db (cands ++ cands') = evictAll (evictAll db cands) cands' :=
  List.foldl_append

theorem evictions_getLastD : (evictions db cands).getLastD db = evictAll db cands := by
  induction cands generalizing db with
  | nil => rfl
  | cons cand cands ih =>
      show ((evictAsset db cand.assetId :: evictions (evictAsset db cand.assetId) cands).getLastD db) = _
      rw [List.getLastD_cons]
      exact ih

theorem legal_evicted_iff {state : MediaState} : state.legal .evicted = true ↔ state = .originalLocal := by
  cases state <;> decide

/-- When the one `UPDATE` changes the state as the diagram allows. -/
theorem evictAsset_legal_iff : ChangesLegally db (evictAsset db cand.assetId) ↔ MayEvict db cand := by
  constructor
  · intro h row hrow
    have hrow' : (evictAsset db cand.assetId).getMediaAsset cand.assetId =
        some { row with mediaState := .evicted, bytesLocal := 0 } := by
      rw [getMediaAsset_evictAsset, if_pos rfl, hrow]
      rfl
    obtain ⟨row₁, hrow₁, hchange⟩ := h cand.assetId _ hrow'
    obtain rfl := Option.some.inj (hrow.symm.trans hrow₁)
    rcases hchange with hsame | hlegal
    · exact Or.inr hsame.symm
    · exact Or.inl (legal_evicted_iff.mp hlegal)
  · intro h k row' hrow'
    obtain ⟨row, hrow, ⟨rfl, rfl⟩ | ⟨-, rfl⟩⟩ := updateAsset_cases hrow'
    · refine ⟨row, hrow, ?_⟩
      rcases h row hrow with hlocal | hevicted
      · exact Or.inr (by rw [hlocal]; rfl)
      · exact Or.inl hevicted.symm
    · exact ⟨row', hrow, Or.inl rfl⟩

/-- An eviction leaves the other candidates' rows as they may be. -/
theorem mayEvict_evictAsset_iff {other : EvictionCandidate} (h : MayEvict db cand) :
    MayEvict (evictAsset db cand.assetId) other ↔ MayEvict db other := by
  unfold MayEvict
  rw [getMediaAsset_evictAsset]
  by_cases hsame : other.assetId = cand.assetId
  · rw [if_pos hsame]
    constructor
    · intro _ row hrow
      exact h row (hsame ▸ hrow)
    · intro _ row hrow
      obtain ⟨_, -, rfl⟩ := Option.map_eq_some_iff.mp hrow
      exact Or.inr rfl
  · rw [if_neg hsame]

/-- **When every change of an eviction is one of the diagram**: all the assets it finds are local or evicted already. -/
theorem evictions_legal_iff : List.IsChain ChangesLegally (db :: evictions db cands) ↔ ∀ cand ∈ cands, MayEvict db cand := by
  induction cands generalizing db with
  | nil => simp [evictions]
  | cons cand cands ih =>
      show List.IsChain ChangesLegally (db :: evictAsset db cand.assetId :: evictions (evictAsset db cand.assetId) cands) ↔ _
      rw [List.isChain_cons_cons, evictAsset_legal_iff, List.forall_mem_cons, ih]
      refine and_congr_right fun hmay => ?_
      simp only [mayEvict_evictAsset_iff hmay]

theorem EvictedEmpty.evictAsset (h : EvictedEmpty db) (assetId : Uuid) : EvictedEmpty (evictAsset db assetId) := by
  intro k row' hrow' hevicted
  obtain ⟨row, hrow, ⟨-, rfl⟩ | ⟨-, rfl⟩⟩ := updateAsset_cases hrow'
  · rfl
  · exact h k _ hrow hevicted

theorem EvictedEmpty.evictions (h : EvictedEmpty db) : ∀ db' ∈ evictions db cands, EvictedEmpty db' := by
  induction cands generalizing db with
  | nil => exact fun _ hmem => absurd hmem (by simp [Offload.evictions])
  | cons cand cands ih =>
      intro db' hmem
      rcases List.mem_cons.mp hmem with rfl | hmem
      · exact h.evictAsset _
      · exact ih (h.evictAsset _) db' hmem

theorem CountsBytes.evictAll (h : CountsBytes db) : CountsBytes (evictAll db cands) := by
  induction cands generalizing db with
  | nil => exact h
  | cons cand cands ih => exact ih (h.updateAsset fun _ _ => le_rfl)

/-- What is recorded for the rest stays true. -/
theorem Counted.tail (h : Counted db (cand :: cands)) : Counted (evictAsset db cand.assetId) cands := by
  have hzero : ∀ other ∈ cands, other.assetId = cand.assetId → ∀ row, db.getMediaAsset other.assetId = some row →
      other.bytes = 0 := by
    intro other hother hsame row hrow
    have hbytes := h.current other (List.mem_cons_of_mem _ hother) row hrow
    have hfirst := h.current cand List.mem_cons_self row (hsame ▸ hrow)
    have hcand : cand.bytes = 0 := (List.pairwise_cons.mp h.once).1 other hother hsame.symm row (hsame ▸ hrow)
    have heq : other.bytes.toNat = cand.bytes.toNat := by omega
    rw [UInt64.toNat_inj.mp heq, hcand]
  refine ⟨fun other hother row' hrow' => ?_, ?_⟩
  · obtain ⟨row, hrow, ⟨hsame, rfl⟩ | ⟨-, rfl⟩⟩ := updateAsset_cases hrow'
    · rw [hzero other hother hsame row hrow]
      rfl
    · exact h.current other (List.mem_cons_of_mem _ hother) _ hrow
  · refine (List.pairwise_cons.mp h.once).2.imp fun {a b} himp hsame row' hrow' => ?_
    obtain ⟨row, hrow, -⟩ := updateAsset_cases hrow'
    exact himp hsame row hrow

/-- **What an eviction takes off the sum** is what was recorded for the assets it finds. -/
theorem evictAll_bytes (h : Counted db cands) : localBytes db = localBytes (evictAll db cands) + presentBytes db cands := by
  induction cands generalizing db with
  | nil => exact (add_zero _).symm
  | cons cand cands ih =>
      have hrest := ih h.tail
      rw [presentBytes_evictAsset] at hrest
      show localBytes db = localBytes (evictAll (evictAsset db cand.assetId) cands) + _
      rw [presentBytes_cons]
      cases hrow : db.getMediaAsset cand.assetId with
      | none =>
          have hthere : ¬ db.assets.has cand.assetId = true := by
            show ¬ (db.getMediaAsset cand.assetId).isSome = true
            simp [hrow]
          have hsame : localBytes (evictAsset db cand.assetId) = localBytes db := localBytes_updateAsset_of_none hrow
          rw [if_neg hthere]
          omega
      | some row =>
          have hthere : db.assets.has cand.assetId = true := by
            show (db.getMediaAsset cand.assetId).isSome = true
            simp [hrow]
          have hbytes := h.current cand List.mem_cons_self row hrow
          have hless : localBytes (evictAsset db cand.assetId) = localBytes db - row.bytesLocal + 0 :=
            localBytes_updateAsset hrow
          rw [if_pos hthere]
          push_cast
          omega

end Evictions

/-! ## The plan of the budget -/

section Enforcement

variable {halfPow : Rat → Rat} {checks : OverflowChecks} {pinned : Uuid → Bool} {nowMs : Int} {db : LocalStoreDb}
  {tiered : TieredEvictionPlan} {cloudFault fullFault : Option Nat} {result : EvictionResult}

theorem addI64_eq_ok {a b v : Int} (h : addI64 a b = .ok v) : v = a + b ∧ v < 2 ^ 63 := by
  unfold addI64 at h
  by_cases hfits : -(2 ^ 63) ≤ a + b ∧ a + b < 2 ^ 63
  · rw [if_pos hfits] at h
    obtain rfl := Except.ok.inj h
    exact ⟨rfl, hfits.2⟩
  · rw [if_neg hfits] at h
    exact absurd h (by simp)

/-- **A sum that the database returns is the sum**, and fits in an `i64`. -/
theorem sqlSum_eq_ok {column : List Int} {acc v : Int} (hacc : acc < 2 ^ 63) (h : column.foldlM addI64 acc = .ok v) :
    v = acc + column.sum ∧ v < 2 ^ 63 := by
  induction column generalizing acc with
  | nil =>
      obtain rfl := Except.ok.inj h
      simpa using hacc
  | cons a column ih =>
      rw [List.foldlM_cons] at h
      obtain ⟨acc', hadd, hrest⟩ := except_bind_eq_ok.mp h
      obtain ⟨rfl, hfits⟩ := addI64_eq_ok hadd
      obtain ⟨rfl, hlt⟩ := ih hfits hrest
      rw [List.sum_cons, ← add_assoc]
      exact ⟨rfl, add_assoc acc a _ ▸ hlt⟩

/-- Where the tables can be measured, `SUM(bytes_local)` fits in an `i64`. -/
theorem localBytes_lt_of_collected {usage : Option StorageUsage} (h : collectStorageUsage checks db = .ok usage) :
    localBytes db < 2 ^ 63 := by
  unfold collectStorageUsage at h
  obtain ⟨_, _, h⟩ := except_bind_eq_ok.mp h
  obtain ⟨_, _, h⟩ := except_bind_eq_ok.mp h
  obtain ⟨mediaBytes, hmedia, _⟩ := except_bind_eq_ok.mp h
  obtain ⟨hsum, hlt⟩ := sqlSum_eq_ok (by norm_num) hmedia
  rw [zero_add] at hsum
  show (db.assets.rows.map MediaAsset.bytesLocal).sum < 2 ^ 63
  rw [← hsum]
  exact hlt

/-- What a plan of the budget is made of. -/
theorem enforcementPlan_eq_ok (h : enforcementPlan halfPow checks pinned nowMs db = .ok (some (some tiered))) :
    localBytes db < 2 ^ 63 ∧ ∃ targetBytes pressure, tiered = planTieredEviction halfPow
      (collectEvictionCandidates pinned db minOffloadAgeMs nowMs) targetBytes nowMs pressure := by
  unfold enforcementPlan assess at h
  obtain ⟨assessment, hassess, hplan⟩ := except_bind_eq_ok.mp h
  obtain ⟨usage, husage, -⟩ := except_bind_eq_ok.mp hassess
  refine ⟨localBytes_lt_of_collected husage, ?_⟩
  obtain ⟨a, -, hplan⟩ := Option.bind_eq_some_iff.mp (Except.ok.inj hplan)
  by_cases hpressure : a.pressureLevel.requiresEviction = true
  · rw [if_pos hpressure] at hplan
    obtain ⟨targetBytes, -, hplan⟩ := Option.bind_eq_some_iff.mp hplan
    exact ⟨targetBytes, a.pressureLevel, (Option.some.inj (Option.some.inj hplan)).symm⟩
  · rw [if_neg hpressure] at hplan
    exact absurd (Option.some.inj hplan) (by simp)

/-- A row of the query is an asset of the store that is local. -/
theorem mayGo_eq_some {cutoffMs : Int} {asset : MediaAsset} {row : MediaAsset × MessageSkeleton}
    (h : mayGo pinned cutoffMs db asset = some row) : row.1 = asset ∧ asset.mediaState = .originalLocal := by
  unfold mayGo at h
  obtain ⟨skel, -, h⟩ := Option.bind_eq_some_iff.mp h
  obtain ⟨conversation, -, h⟩ := Option.bind_eq_some_iff.mp h
  by_cases hwhere : skel.archiveState = .archiveVerified ∧ pinned conversation.conversationId = false ∧
      asset.mediaState = .originalLocal ∧ skel.createdAtMs < cutoffMs
  · rw [if_pos hwhere] at h
    obtain rfl := Option.some.inj h
    exact ⟨rfl, hwhere.2.2.1⟩
  · rw [if_neg hwhere] at h
    exact absurd h (by simp)

variable {minAgeMs : Int}

/-- **A candidate is a local asset with its bytes**, as they are when it is collected. -/
theorem mem_collected {cand : EvictionCandidate} (h : cand ∈ collectEvictionCandidates pinned db minAgeMs nowMs) :
    ∃ row, db.getMediaAsset cand.assetId = some row ∧ row.mediaState = .originalLocal ∧
      cand.bytes = scalarU64 row.bytesLocal := by
  obtain ⟨row, hrow, rfl⟩ := List.mem_map.mp h
  obtain ⟨asset, hasset, hgo⟩ := List.mem_filterMap.mp (List.mem_mergeSort.mp hrow)
  obtain ⟨rfl, hlocal⟩ := mayGo_eq_some hgo
  exact ⟨row.1, Table.find?_of_mem hasset, hlocal, rfl⟩

/-- An asset is collected once. -/
theorem collected_nodup : ((collectEvictionCandidates pinned db minAgeMs nowMs).map EvictionCandidate.assetId).Nodup := by
  unfold collectEvictionCandidates
  rw [List.map_map]
  refine (((List.mergeSort_perm _ _).map _).nodup_iff).mpr ?_
  refine List.Nodup.sublist ?_ db.assets.keyed
  generalize db.assets.rows = rows
  induction rows with
  | nil => exact List.Sublist.refl _
  | cons asset rows ih =>
      rw [List.filterMap_cons]
      cases hgo : mayGo pinned (satSubI64 nowMs minAgeMs) db asset with
      | none => exact ih.cons _
      | some row =>
          obtain ⟨rfl, -⟩ := mayGo_eq_some hgo
          exact ih.cons_cons _

/-- **A plan over what was just collected is up to date.** -/
theorem tiered_current (hcounts : CountsBytes db) (hfits : localBytes db < 2 ^ 63) {targetBytes : UInt64}
    {pressure : PressureLevel} (htiered : tiered = planTieredEviction halfPow
      (collectEvictionCandidates pinned db minAgeMs nowMs) targetBytes nowMs pressure) :
    (∀ cand ∈ tiered.selected, MayEvict db cand) ∧ Counted db tiered.selected := by
  obtain rfl := htiered
  have hsub := (tiered_selected_subperm halfPow (collectEvictionCandidates pinned db minAgeMs nowMs) targetBytes nowMs
    pressure).trans List.filter_sublist.subperm
  refine ⟨fun cand hcand row hrow => ?_, ⟨fun cand hcand row hrow => ?_, ?_⟩⟩
  · obtain ⟨row', hrow', hlocal, -⟩ := mem_collected (hsub.subset hcand)
    obtain rfl := Option.some.inj (hrow.symm.trans hrow')
    exact Or.inl hlocal
  · obtain ⟨row', hrow', -, hbytes⟩ := mem_collected (hsub.subset hcand)
    obtain rfl := Option.some.inj (hrow.symm.trans hrow')
    have hpos := hcounts _ _ hrow
    have hle := bytesLocal_le hcounts hrow
    rw [hbytes, scalarU64, UInt64.toNat_ofNat', Nat.mod_eq_of_lt (by omega)]
    omega
  · have hnodup : ((planTieredEviction halfPow (collectEvictionCandidates pinned db minAgeMs nowMs) targetBytes nowMs
        pressure).selected.map EvictionCandidate.assetId).Nodup := by
      obtain ⟨l, hperm, hsublist⟩ := hsub
      exact ((hperm.map _).nodup_iff).mp ((hsublist.map _).nodup collected_nodup)
    exact (List.pairwise_map.mp hnodup).imp fun hne hsame => absurd hsame hne

end Enforcement

/-! ## The two passes -/

/-- The candidates a tiered plan reaches: a first pass that fails is the last. -/
def tieredReached (cloudFault fullFault : Option Nat) (db : LocalStoreDb) (tiered : TieredEvictionPlan) :
    List EvictionCandidate :=
  match (executeEviction cloudFault db tiered.cloudOffload).1 with
  | .error _ => reached cloudFault tiered.cloudOffload.selected
  | .ok _ => tiered.cloudOffload.selected ++ reached fullFault tiered.fullEviction.selected

section Passes

variable {db : LocalStoreDb} {tiered : TieredEvictionPlan} {cloudFault fullFault : Option Nat} {result : EvictionResult}
  {cands cands' : List EvictionCandidate}

theorem reached_subset {fault : Option Nat} : reached fault cands ⊆ cands := by
  cases fault with
  | none => exact List.Subset.refl _
  | some n => exact List.take_subset n cands

theorem presentBytes_append : presentBytes db (cands ++ cands') = presentBytes db cands + presentBytes db cands' := by
  unfold presentBytes
  rw [List.filter_append, freedBytes_append]

theorem presentBytes_evictAll : presentBytes (evictAll db cands) cands' = presentBytes db cands' := by
  induction cands generalizing db with
  | nil => rfl
  | cons cand cands ih => exact ih.trans (presentBytes_evictAsset cand.assetId)

theorem tieredReached_subset : tieredReached cloudFault fullFault db tiered ⊆ tiered.selected := by
  unfold tieredReached TieredEvictionPlan.selected
  cases (executeEviction cloudFault db tiered.cloudOffload).1 with
  | error e => exact List.subset_append_of_subset_left _ reached_subset
  | ok cloud =>
      exact List.append_subset.mpr
        ⟨List.subset_append_left _ _, List.subset_append_of_subset_right _ reached_subset⟩

/-- **The store the two passes leave.** -/
theorem executeTiered_store :
    (executeTiered cloudFault fullFault db tiered).2 = evictAll db (tieredReached cloudFault fullFault db tiered) := by
  unfold executeTiered tieredReached
  have hcloud := @executeEviction_store db cloudFault tiered.cloudOffload
  cases hpass : executeEviction cloudFault db tiered.cloudOffload with
  | mk result db₁ =>
      rw [hpass] at hcloud
      obtain rfl : db₁ = _ := hcloud
      cases result with
      | error e => rfl
      | ok cloud =>
          have hall := (executeEviction_eq_ok (congrArg Prod.fst hpass)).1
          have hfull := @executeEviction_store (evictAll db (reached cloudFault tiered.cloudOffload.selected)) fullFault
            tiered.fullEviction
          rw [hall] at hfull ⊢
          simp only
          rw [evictAll_append, ← hfull]
          cases hsecond : executeEviction fullFault (evictAll db tiered.cloudOffload.selected) tiered.fullEviction with
          | mk result db₂ => cases result <;> rfl

/-- **When the two passes report, and what.** -/
theorem executeTiered_eq_ok (h : (executeTiered cloudFault fullFault db tiered).1 = .ok result) :
    tieredReached cloudFault fullFault db tiered = tiered.selected ∧
      result.freedBytes = min u64Max (presentBytes db tiered.selected) := by
  unfold executeTiered at h
  unfold tieredReached
  have hcloud := @executeEviction_store db cloudFault tiered.cloudOffload
  cases hpass : executeEviction cloudFault db tiered.cloudOffload with
  | mk first db₁ =>
      rw [hpass] at hcloud h
      obtain rfl : db₁ = _ := hcloud
      cases first with
      | error e => exact absurd h (by simp)
      | ok cloud =>
          obtain ⟨hall, hfreed⟩ := executeEviction_eq_ok (congrArg Prod.fst hpass)
          rw [hall] at h
          simp only at h
          cases hsecond : executeEviction fullFault (evictAll db tiered.cloudOffload.selected) tiered.fullEviction with
          | mk second db₂ =>
              rw [hsecond] at h
              cases second with
              | error e => exact absurd h (by simp)
              | ok full =>
                  obtain rfl := Except.ok.inj h
                  obtain ⟨hall', hfreed'⟩ := executeEviction_eq_ok (congrArg Prod.fst hsecond)
                  rw [presentBytes_evictAll] at hfreed'
                  refine ⟨congrArg (tiered.cloudOffload.selected ++ ·) hall', ?_⟩
                  show min u64Max (cloud.freedBytes + full.freedBytes) = _
                  unfold TieredEvictionPlan.selected
                  rw [hfreed, hfreed', presentBytes_append]
                  omega

end Passes

/-! ## Calls -/

/-- **A call that may change `media_state`.** The faults of an eviction count the statements that go through. -/
inductive MediaCall
  | transitionMediaState (assetId : Uuid) (source target : MediaState)
  | collectEvictionCandidates (pinned : Uuid → Bool) (minOffloadAgeMs nowMs : Int)
  | executeEviction (plan : EvictionPlan) (fault : Option Nat)
  | enforceStorageBudget (pinned : Uuid → Bool) (nowMs : Int) (cloudFault fullFault : Option Nat)
  | commitRehydration (assetId : Uuid) (fromState : MediaState) (plaintextLen : Nat)

section Calls

variable (halfPow : Rat → Rat) (checks : OverflowChecks)

/-- The bytes a call reports as freed, and the store it leaves. -/
def MediaCall.run : MediaCall → LocalStoreDb → Option Nat × LocalStoreDb
  | .transitionMediaState assetId source target, db =>
      (none, (Media.transitionMediaState db assetId source target).toOption.getD db)
  | .collectEvictionCandidates _ _ _, db => (none, db)
  | .executeEviction plan fault, db =>
      ((Offload.executeEviction fault db plan).1.toOption.map EvictionResult.freedBytes,
        (Offload.executeEviction fault db plan).2)
  | .enforceStorageBudget pinned nowMs cloudFault fullFault, db =>
      let (result, db) := Offload.enforceStorageBudget halfPow checks pinned nowMs cloudFault fullFault db
      (result.bind fun result => result.toOption.map EvictionResult.freedBytes, db)
  | .commitRehydration assetId fromState plaintextLen, db =>
      (none, (Media.commitRehydration db assetId fromState plaintextLen).toOption.getD db)

/-- The stores of `enforce_storage_budget`. -/
def budgetStores (pinned : Uuid → Bool) (nowMs : Int) (cloudFault fullFault : Option Nat) (db : LocalStoreDb) :
    List LocalStoreDb :=
  match enforcementPlan halfPow checks pinned nowMs db with
  | .ok (some (some tiered)) => evictions db (tieredReached cloudFault fullFault db tiered)
  | _ => []

/-- The stores of `commit_rehydration`. -/
def rehydrationStores (db : LocalStoreDb) (assetId : Uuid) (fromState : MediaState) (plaintextLen : Nat) :
    List LocalStoreDb :=
  match Media.commitRehydration db assetId fromState plaintextLen with
  | .error _ => []
  | .ok db' =>
      let started := db.updateMediaState assetId .downloadInProgress
      [started, started.updateMediaState assetId .originalLocal, db']

/-- **The stores a call leaves**, one after each statement; what is rolled back has left none. -/
def MediaCall.stores : MediaCall → LocalStoreDb → List LocalStoreDb
  | .transitionMediaState assetId source target, db =>
      (Media.transitionMediaState db assetId source target).toOption.toList
  | .collectEvictionCandidates _ _ _, _ => []
  | .executeEviction plan fault, db => evictions db (reached fault plan.selected)
  | .enforceStorageBudget pinned nowMs cloudFault fullFault, db =>
      budgetStores halfPow checks pinned nowMs cloudFault fullFault db
  | .commitRehydration assetId fromState plaintextLen, db => rehydrationStores db assetId fromState plaintextLen

/-- **A call that keeps to the diagram and to its word**: every change is one of the diagram, what is evicted is empty, and
what is reported as freed has gone from the sum. -/
structure MediaCall.Lawful (db : LocalStoreDb) (call : MediaCall) : Prop where
  legal : List.IsChain ChangesLegally (db :: call.stores halfPow checks db)
  empty : ∀ db' ∈ call.stores halfPow checks db, EvictedEmpty db'
  freed : ∀ n, (call.run halfPow checks db).1 = some n → (n : Int) = localBytes db - localBytes (call.run halfPow checks db).2

/-- **The call is not out of date.** A state is set to `evicted` where nothing is left on the device; a plan that is
executed names assets that may be evicted, as far as it gets, and if it gets to its end the bytes are those there. -/
def MediaCall.UpToDate (db : LocalStoreDb) : MediaCall → Prop
  | .transitionMediaState assetId source target => source = .originalLocal → target = .evicted →
      ∀ row, db.getMediaAsset assetId = some row → row.mediaState = source → row.bytesLocal = 0
  | .executeEviction plan fault => (∀ cand ∈ reached fault plan.selected, MayEvict db cand) ∧
      (reached fault plan.selected = plan.selected → Counted db plan.selected ∧ presentBytes db plan.selected ≤ u64Max)
  | _ => True

variable {halfPow checks} {db db' : LocalStoreDb} {call : MediaCall}

/-! ## What one call keeps -/

theorem enforceStorageBudget_of_plan {pinned : Uuid → Bool} {nowMs : Int} {cloudFault fullFault : Option Nat}
    {tiered : TieredEvictionPlan} (h : enforcementPlan halfPow checks pinned nowMs db = .ok (some (some tiered))) :
    enforceStorageBudget halfPow checks pinned nowMs cloudFault fullFault db =
      (some (executeTiered cloudFault fullFault db tiered).1, (executeTiered cloudFault fullFault db tiered).2) := by
  unfold enforceStorageBudget
  rw [h]

/-- Without a plan the budget's store stays, and nothing is reported but nothing. -/
theorem enforceStorageBudget_of_no_plan {pinned : Uuid → Bool} {nowMs : Int} {cloudFault fullFault : Option Nat}
    (h : ∀ tiered, enforcementPlan halfPow checks pinned nowMs db ≠ .ok (some (some tiered))) :
    (enforceStorageBudget halfPow checks pinned nowMs cloudFault fullFault db).2 = db ∧
      ∀ result, (enforceStorageBudget halfPow checks pinned nowMs cloudFault fullFault db).1 = some (.ok result) →
        result.freedBytes = 0 := by
  unfold enforceStorageBudget
  rcases hplan : enforcementPlan halfPow checks pinned nowMs db with e | _ | _ | tiered
  · exact ⟨rfl, fun result hr => absurd (Option.some.inj hr) (by simp)⟩
  · exact ⟨rfl, fun result hr => absurd hr (by simp)⟩
  · refine ⟨rfl, fun result hr => ?_⟩
    obtain rfl := Except.ok.inj (Option.some.inj hr)
    rfl
  · exact absurd hplan (h tiered)

/-- What a committed rehydration has done. -/
theorem commitRehydration_eq_ok {assetId : Uuid} {fromState : MediaState} {n : Nat}
    (h : commitRehydration db assetId fromState n = .ok db') :
    fromState.legal .downloadInProgress = true ∧
      (∃ row, db.getMediaAsset assetId = some row ∧ row.mediaState = fromState) ∧
      db' = ((db.updateMediaState assetId .downloadInProgress).updateMediaState assetId .originalLocal).updateBytesLocal
        assetId n := by
  unfold commitRehydration at h
  obtain ⟨db₁, hstart, h⟩ := except_bind_eq_ok.mp h
  obtain ⟨db₂, hdone, h⟩ := except_bind_eq_ok.mp h
  obtain ⟨hlegal, hrow, rfl⟩ := transitionMediaState_eq_ok.mp hstart
  obtain ⟨-, -, rfl⟩ := transitionMediaState_eq_ok.mp hdone
  by_cases hlen : 2 ^ 63 ≤ n
  · rw [if_pos hlen] at h
    exact absurd h (by simp)
  · rw [if_neg hlen] at h
    exact ⟨hlegal, hrow, (Except.ok.inj h).symm⟩

/-- **The last of the stores is the one the call leaves.** -/
theorem MediaCall.stores_getLastD : (call.stores halfPow checks db).getLastD db = (call.run halfPow checks db).2 := by
  cases call with
  | transitionMediaState assetId source target =>
      show (Media.transitionMediaState db assetId source target).toOption.toList.getLastD db =
        (Media.transitionMediaState db assetId source target).toOption.getD db
      cases Media.transitionMediaState db assetId source target <;> rfl
  | collectEvictionCandidates pinned minAgeMs nowMs => rfl
  | executeEviction plan fault => exact evictions_getLastD.trans executeEviction_store.symm
  | enforceStorageBudget pinned nowMs cloudFault fullFault =>
      show (budgetStores halfPow checks pinned nowMs cloudFault fullFault db).getLastD db =
        (Offload.enforceStorageBudget halfPow checks pinned nowMs cloudFault fullFault db).2
      unfold budgetStores
      by_cases hplan : ∃ tiered, enforcementPlan halfPow checks pinned nowMs db = .ok (some (some tiered))
      · obtain ⟨tiered, hplan⟩ := hplan
        rw [enforceStorageBudget_of_plan hplan, hplan]
        exact evictions_getLastD.trans executeTiered_store.symm
      · have hnone : ∀ tiered, enforcementPlan halfPow checks pinned nowMs db ≠ .ok (some (some tiered)) :=
          fun tiered heq => hplan ⟨tiered, heq⟩
        rw [(enforceStorageBudget_of_no_plan hnone).1]
        split
        · exact absurd ‹_› (hnone _)
        · rfl
  | commitRehydration assetId fromState plaintextLen =>
      show (rehydrationStores db assetId fromState plaintextLen).getLastD db =
        (Media.commitRehydration db assetId fromState plaintextLen).toOption.getD db
      unfold rehydrationStores
      cases Media.commitRehydration db assetId fromState plaintextLen <;> rfl

theorem updateMediaState_legal {assetId : Uuid} {target : MediaState}
    (h : ∀ row, db.getMediaAsset assetId = some row → row.mediaState.legal target = true) :
    ChangesLegally db (db.updateMediaState assetId target) := by
  intro k row' hrow'
  obtain ⟨row, hrow, ⟨rfl, rfl⟩ | ⟨-, rfl⟩⟩ := updateAsset_cases hrow'
  · exact ⟨row, hrow, Or.inr (h row hrow)⟩
  · exact ⟨row', hrow, Or.inl rfl⟩

theorem updateBytesLocal_legal {assetId : Uuid} {n : Int} : ChangesLegally db (db.updateBytesLocal assetId n) := by
  intro k row' hrow'
  obtain ⟨row, hrow, ⟨-, rfl⟩ | ⟨-, rfl⟩⟩ := updateAsset_cases hrow'
  · exact ⟨row, hrow, Or.inl rfl⟩
  · exact ⟨row', hrow, Or.inl rfl⟩

theorem EvictedEmpty.updateMediaState {assetId : Uuid} {target : MediaState} (h : EvictedEmpty db)
    (hrow : target = .evicted → ∀ row, db.getMediaAsset assetId = some row → row.bytesLocal = 0) :
    EvictedEmpty (db.updateMediaState assetId target) := by
  intro k row' hrow' hevicted
  obtain ⟨row, hget, ⟨rfl, rfl⟩ | ⟨-, rfl⟩⟩ := updateAsset_cases hrow'
  · exact hrow hevicted row hget
  · exact h k _ hget hevicted

/-- A transition that goes through, by its row. -/
theorem transitionMediaState_legal {assetId : Uuid} {source target : MediaState}
    (h : Media.transitionMediaState db assetId source target = .ok db') : ChangesLegally db db' := by
  obtain ⟨hlegal, ⟨asset, hasset, hstate⟩, rfl⟩ := transitionMediaState_eq_ok.mp h
  refine updateMediaState_legal fun row hrow => ?_
  obtain rfl := Option.some.inj (hasset.symm.trans hrow)
  exact hstate ▸ hlegal

/-- **A transition of one asset.** -/
theorem transitionMediaState_lawful {assetId : Uuid} {source target : MediaState} (hempty : EvictedEmpty db)
    (hup : (MediaCall.transitionMediaState assetId source target).UpToDate db) :
    MediaCall.Lawful halfPow checks db (.transitionMediaState assetId source target) := by
  have hstores : MediaCall.stores halfPow checks (.transitionMediaState assetId source target) db =
      (Media.transitionMediaState db assetId source target).toOption.toList := rfl
  cases htransition : Media.transitionMediaState db assetId source target with
  | error e =>
      rw [htransition] at hstores
      refine ⟨?_, fun db' hmem => ?_, fun n hn => absurd hn (by simp [MediaCall.run])⟩ <;> rw [hstores] at *
      · exact List.isChain_singleton _
      · exact absurd hmem (by simp [Except.toOption])
  | ok db' =>
      rw [htransition] at hstores
      have hone : MediaCall.stores halfPow checks (.transitionMediaState assetId source target) db = [db'] := hstores
      refine ⟨?_, fun db'' hmem => ?_, fun n hn => absurd hn (by simp [MediaCall.run])⟩
      · rw [hone, List.isChain_cons_cons]
        exact ⟨transitionMediaState_legal htransition, List.isChain_singleton _⟩
      · rw [hone] at hmem
        obtain rfl := List.mem_singleton.mp hmem
        obtain ⟨hlegal, ⟨asset, hasset, hstate⟩, rfl⟩ := transitionMediaState_eq_ok.mp htransition
        refine hempty.updateMediaState fun hevicted row hrow => ?_
        obtain rfl := Option.some.inj (hasset.symm.trans hrow)
        exact hup (legal_evicted_iff.mp (hevicted ▸ hlegal)) hevicted asset hasset hstate

/-- **A pass over a plan that is up to date.** -/
theorem executeEviction_lawful {plan : EvictionPlan} {fault : Option Nat} (hempty : EvictedEmpty db)
    (hup : (MediaCall.executeEviction plan fault).UpToDate db) :
    MediaCall.Lawful halfPow checks db (.executeEviction plan fault) := by
  refine ⟨evictions_legal_iff.mpr hup.1, hempty.evictions, fun n hn => ?_⟩
  obtain ⟨result, hresult, rfl⟩ := Option.map_eq_some_iff.mp hn
  have hok : (Offload.executeEviction fault db plan).1 = .ok result := by
    cases h : (Offload.executeEviction fault db plan).1 with
    | error e =>
        rw [h] at hresult
        exact absurd hresult (by simp [Except.toOption])
    | ok result' =>
        rw [h] at hresult
        exact congrArg Except.ok (Option.some.inj hresult)
  obtain ⟨hall, hfreed⟩ := executeEviction_eq_ok hok
  obtain ⟨hcounted, hfits⟩ := hup.2 hall
  have hbytes := evictAll_bytes hcounted
  show (result.freedBytes : Int) = localBytes db - localBytes (Offload.executeEviction fault db plan).2
  rw [executeEviction_store, hall, hfreed, Nat.min_eq_right hfits]
  omega

/-- **The budget is always up to date**: it executes its plans before anyone else has a turn. -/
theorem enforceStorageBudget_lawful {pinned : Uuid → Bool} {nowMs : Int} {cloudFault fullFault : Option Nat}
    (hempty : EvictedEmpty db) (hcounts : CountsBytes db) :
    MediaCall.Lawful halfPow checks db (.enforceStorageBudget pinned nowMs cloudFault fullFault) := by
  have hstores : MediaCall.stores halfPow checks (.enforceStorageBudget pinned nowMs cloudFault fullFault) db =
      budgetStores halfPow checks pinned nowMs cloudFault fullFault db := rfl
  have hfreed : ∀ n, (MediaCall.run halfPow checks (.enforceStorageBudget pinned nowMs cloudFault fullFault) db).1 = some n →
      ∃ result, (Offload.enforceStorageBudget halfPow checks pinned nowMs cloudFault fullFault db).1 = some (.ok result) ∧
        result.freedBytes = n := by
    intro n hn
    obtain ⟨r, hr, hmap⟩ := Option.bind_eq_some_iff.mp hn
    obtain ⟨result, hresult, hn⟩ := Option.map_eq_some_iff.mp hmap
    cases r with
    | error e => exact absurd hresult (by simp [Except.toOption])
    | ok result' =>
        obtain rfl := Option.some.inj hresult
        exact ⟨result', hr, hn⟩
  -- with a plan the writes are its evictions; without one nothing is written
  by_cases hplan : ∃ tiered, enforcementPlan halfPow checks pinned nowMs db = .ok (some (some tiered))
  · obtain ⟨tiered, hplan⟩ := hplan
    obtain ⟨hfits, targetBytes, pressure, htiered⟩ := enforcementPlan_eq_ok hplan
    obtain ⟨hmay, hcounted⟩ := tiered_current hcounts hfits htiered
    have hlist : budgetStores halfPow checks pinned nowMs cloudFault fullFault db =
        evictions db (tieredReached cloudFault fullFault db tiered) := by
      unfold budgetStores
      rw [hplan]
    refine ⟨?_, ?_, fun n hn => ?_⟩
    · rw [hstores, hlist]
      exact evictions_legal_iff.mpr fun cand hcand => hmay cand (tieredReached_subset hcand)
    · rw [hstores, hlist]
      exact hempty.evictions
    · obtain ⟨result, hresult, rfl⟩ := hfreed n hn
      rw [enforceStorageBudget_of_plan hplan] at hresult
      obtain ⟨hall, hreport⟩ := executeTiered_eq_ok (Option.some.inj hresult)
      have hbytes := evictAll_bytes hcounted
      have hleft : 0 ≤ localBytes (evictAll db tiered.selected) := localBytes_nonneg hcounts.evictAll
      -- the saturating sum does not saturate: the bytes were local
      have hcap : presentBytes db tiered.selected ≤ u64Max := by
        unfold u64Max
        omega
      show (result.freedBytes : Int) = localBytes db -
        localBytes (Offload.enforceStorageBudget halfPow checks pinned nowMs cloudFault fullFault db).2
      rw [enforceStorageBudget_of_plan hplan]
      show _ = localBytes db - localBytes (executeTiered cloudFault fullFault db tiered).2
      rw [executeTiered_store, hall, hreport, Nat.min_eq_right hcap]
      omega
  · have hnone : ∀ tiered, enforcementPlan halfPow checks pinned nowMs db ≠ .ok (some (some tiered)) :=
      fun tiered heq => hplan ⟨tiered, heq⟩
    have hlist : budgetStores halfPow checks pinned nowMs cloudFault fullFault db = [] := by
      unfold budgetStores
      split
      · exact absurd ‹_› (hnone _)
      · rfl
    obtain ⟨hstays, hnothing⟩ := enforceStorageBudget_of_no_plan hnone
    refine ⟨?_, ?_, fun n hn => ?_⟩
    · rw [hstores, hlist]
      exact List.isChain_singleton _
    · rw [hstores, hlist]
      exact fun db' hmem => absurd hmem (by simp)
    · obtain ⟨result, hresult, rfl⟩ := hfreed n hn
      show (result.freedBytes : Int) = localBytes db -
        localBytes (Offload.enforceStorageBudget halfPow checks pinned nowMs cloudFault fullFault db).2
      rw [hnothing result hresult, hstays]
      simp

/-- **A rehydration** goes by the diagram or is rolled back. -/
theorem commitRehydration_lawful {assetId : Uuid} {fromState : MediaState} {n : Nat} (hempty : EvictedEmpty db) :
    MediaCall.Lawful halfPow checks db (.commitRehydration assetId fromState n) := by
  have hstores : MediaCall.stores halfPow checks (.commitRehydration assetId fromState n) db =
      rehydrationStores db assetId fromState n := rfl
  unfold rehydrationStores at hstores
  cases hcommit : Media.commitRehydration db assetId fromState n with
  | error e =>
      rw [hcommit] at hstores
      refine ⟨?_, fun db' hmem => ?_, fun n hn => absurd hn (by simp [MediaCall.run])⟩ <;> rw [hstores] at *
      · exact List.isChain_singleton _
      · exact absurd hmem (by simp)
  | ok db' =>
      rw [hcommit] at hstores
      obtain ⟨hlegal, ⟨row, hrow, hstate⟩, rfl⟩ := commitRehydration_eq_ok hcommit
      have hstarted : EvictedEmpty (db.updateMediaState assetId .downloadInProgress) :=
        hempty.updateMediaState fun h => absurd h (by decide)
      have hdone : EvictedEmpty ((db.updateMediaState assetId .downloadInProgress).updateMediaState assetId .originalLocal) :=
        hstarted.updateMediaState fun h => absurd h (by decide)
      refine ⟨?_, fun db'' hmem => ?_, fun n hn => absurd hn (by simp [MediaCall.run])⟩
      · rw [hstores, List.isChain_cons_cons, List.isChain_cons_cons, List.isChain_cons_cons]
        refine ⟨updateMediaState_legal fun r hr => ?_, updateMediaState_legal fun r hr => ?_, updateBytesLocal_legal,
          List.isChain_singleton _⟩
        · obtain rfl := Option.some.inj (hrow.symm.trans hr)
          exact hstate ▸ hlegal
        · obtain ⟨_, -, ⟨-, rfl⟩ | ⟨hne, -⟩⟩ := updateAsset_cases hr
          · rfl
          · exact absurd rfl hne
      · rw [hstores] at hmem
        simp only [List.mem_cons, List.not_mem_nil, or_false] at hmem
        rcases hmem with rfl | rfl | rfl
        · exact hstarted
        · exact hdone
        · intro k r' hr' hevicted
          obtain ⟨r, hr, ⟨rfl, rfl⟩ | ⟨-, rfl⟩⟩ := updateAsset_cases hr'
          · -- the row was just set to `original_local`
            obtain ⟨_, -, ⟨-, rfl⟩ | ⟨hne, -⟩⟩ := updateAsset_cases hr
            · exact absurd hevicted (by simp)
            · exact absurd rfl hne
          · exact hdone k _ hr hevicted

/-- **A call that is up to date is lawful.** -/
theorem MediaCall.UpToDate.lawful (hempty : EvictedEmpty db) (hcounts : CountsBytes db) (h : call.UpToDate db) :
    call.Lawful halfPow checks db := by
  cases call with
  | transitionMediaState assetId source target => exact transitionMediaState_lawful hempty h
  | collectEvictionCandidates pinned minAgeMs nowMs =>
      exact ⟨List.isChain_singleton _, fun db' hmem => absurd hmem (by simp [MediaCall.stores]),
        fun n hn => absurd hn (by simp [MediaCall.run])⟩
  | executeEviction plan fault => exact executeEviction_lawful hempty h
  | enforceStorageBudget pinned nowMs cloudFault fullFault => exact enforceStorageBudget_lawful hempty hcounts
  | commitRehydration assetId fromState plaintextLen => exact commitRehydration_lawful hempty

/-- A lawful call leaves its evicted assets empty. -/
theorem MediaCall.Lawful.evictedEmpty (hempty : EvictedEmpty db) (h : call.Lawful halfPow checks db) :
    EvictedEmpty (call.run halfPow checks db).2 := by
  rw [← MediaCall.stores_getLastD]
  rcases List.eq_nil_or_concat (call.stores halfPow checks db) with hnil | ⟨stores, last, hlast⟩
  · rw [hnil]
    exact hempty
  · rw [hlast, List.concat_eq_append, List.getLastD_concat]
    exact h.empty last (by simp [hlast])

theorem CountsBytes.updateMediaState {assetId : Uuid} {target : MediaState} (h : CountsBytes db) :
    CountsBytes (db.updateMediaState assetId target) := by
  unfold LocalStoreDb.updateMediaState
  exact h.updateAsset fun _ hrow => hrow

theorem CountsBytes.updateBytesLocal {assetId : Uuid} {n : Nat} (h : CountsBytes db) :
    CountsBytes (db.updateBytesLocal assetId n) := by
  unfold LocalStoreDb.updateBytesLocal
  exact h.updateAsset fun _ _ => Int.natCast_nonneg _

/-- **No call counts less than nothing.** -/
theorem MediaCall.countsBytes (hcounts : CountsBytes db) : CountsBytes (call.run halfPow checks db).2 := by
  cases call with
  | transitionMediaState assetId source target =>
      show CountsBytes ((Media.transitionMediaState db assetId source target).toOption.getD db)
      cases htransition : Media.transitionMediaState db assetId source target with
      | error e => exact hcounts
      | ok db' =>
          obtain ⟨-, -, rfl⟩ := transitionMediaState_eq_ok.mp htransition
          exact hcounts.updateMediaState
  | collectEvictionCandidates pinned minAgeMs nowMs => exact hcounts
  | executeEviction plan fault =>
      show CountsBytes (Offload.executeEviction fault db plan).2
      rw [executeEviction_store]
      exact hcounts.evictAll
  | enforceStorageBudget pinned nowMs cloudFault fullFault =>
      show CountsBytes (Offload.enforceStorageBudget halfPow checks pinned nowMs cloudFault fullFault db).2
      by_cases hplan : ∃ tiered, enforcementPlan halfPow checks pinned nowMs db = .ok (some (some tiered))
      · obtain ⟨tiered, hplan⟩ := hplan
        rw [enforceStorageBudget_of_plan hplan]
        show CountsBytes (executeTiered cloudFault fullFault db tiered).2
        rw [executeTiered_store]
        exact hcounts.evictAll
      · rw [(enforceStorageBudget_of_no_plan fun tiered heq => hplan ⟨tiered, heq⟩).1]
        exact hcounts
  | commitRehydration assetId fromState plaintextLen =>
      show CountsBytes ((Media.commitRehydration db assetId fromState plaintextLen).toOption.getD db)
      cases hcommit : Media.commitRehydration db assetId fromState plaintextLen with
      | error e => exact hcounts
      | ok db' =>
          obtain ⟨-, -, rfl⟩ := commitRehydration_eq_ok hcommit
          exact hcounts.updateMediaState.updateMediaState.updateBytesLocal

end Calls

/-! ## Runs -/

section Runs

variable {halfPow : Rat → Rat} {checks : OverflowChecks} {db₀ db : LocalStoreDb} {tr : List (LocalStoreDb × MediaCall)}

/-- Calls one after the other. -/
def MediaStep (halfPow : Rat → Rat) (checks : OverflowChecks) (db : LocalStoreDb) (call : MediaCall) (db' : LocalStoreDb) :
    Prop :=
  (call.run halfPow checks db).2 = db'

/-- **In a run whose calls are all up to date, every call is lawful**, and in the end what is evicted is empty. -/
theorem stateChanges_lawful (hempty : EvictedEmpty db₀) (hcounts : CountsBytes db₀)
    (hrun : Run (MediaStep halfPow checks) db₀ tr db) (hup : ∀ p ∈ tr, p.2.UpToDate p.1) :
    (∀ p ∈ tr, p.2.Lawful halfPow checks p.1) ∧ EvictedEmpty db := by
  have hkept : (∀ p ∈ tr, EvictedEmpty p.1 ∧ CountsBytes p.1) ∧ EvictedEmpty db ∧ CountsBytes db := by
    refine hrun.invariant_throughout (I := fun db => EvictedEmpty db ∧ CountsBytes db)
      (G := fun db call => call.UpToDate db) ?_ hup ⟨hempty, hcounts⟩
    rintro db call _ ⟨hempty, hcounts⟩ hup rfl
    exact ⟨MediaCall.Lawful.evictedEmpty hempty (hup.lawful hempty hcounts), MediaCall.countsBytes hcounts⟩
  exact ⟨fun p hp => (hup p hp).lawful (hkept.1 p hp).1 (hkept.1 p hp).2, hkept.2.1⟩

end Runs

/-! ## A plan that is out of date -/

/-- A picture of a hundred bytes. -/
def localPicture : MediaAsset :=
  ⟨⟨3⟩, ⟨2⟩, "image/png", 100, 100, .originalLocal, [], 1, [], ⟨4⟩, "kchat_backend"⟩

/-- Its message, which is archived. -/
def archivedMessage : MessageSkeleton :=
  ⟨⟨2⟩, ⟨1⟩, "", 0, 0, .media, .localPlainAvailable, none, .archiveVerified, .notBackedUp, none, none, none⟩

/-- The conversation of the message. -/
def itsConversation : Table Conversation.conversationId := Table.empty.insertOrIgnore ⟨⟨1⟩, none, 0, "", "", "", ""⟩

/-- A store with one picture. -/
def pictureStore : LocalStoreDb :=
  ((LocalStoreDb.fresh itsConversation).addSkeleton archivedMessage rfl rfl).addAsset localPicture rfl rfl

/-- What is collected while the picture is local. -/
def collectedPicture : List EvictionCandidate := collectEvictionCandidates (fun _ => false) pictureStore 0 1

/-- A plan over it. -/
def picturePlan : EvictionPlan := planEvictionWithPressure (fun _ => 0) collectedPicture 1 1 .extreme

theorem getMediaAsset_pictureStore {k : Uuid} {row : MediaAsset} (h : pictureStore.getMediaAsset k = some row) :
    row = localPicture := by
  have hmem := Table.mem_of_find? h
  exact List.mem_singleton.mp hmem

theorem pictureStore_empty : EvictedEmpty pictureStore := by
  intro k row hrow hevicted
  rw [getMediaAsset_pictureStore hrow] at hevicted
  exact absurd hevicted (by decide)

theorem pictureStore_counts : CountsBytes pictureStore := by
  intro k row hrow
  rw [getMediaAsset_pictureStore hrow]
  decide

theorem collectedPicture_eq : collectedPicture = [candidateOf (localPicture, archivedMessage)] := by
  have hgo : mayGo (fun _ => false) 1 pictureStore localPicture = some (localPicture, archivedMessage) := by decide
  show ((List.filterMap (mayGo (fun _ => false) 1 pictureStore) [localPicture]).mergeSort rowBefore).map candidateOf = _
  rw [List.filterMap_cons_some hgo, List.filterMap_nil, List.mergeSort_singleton]
  rfl

theorem picturePlan_selected : picturePlan.selected = [candidateOf (localPicture, archivedMessage)] := by
  have hkind : classifyMimeType "image/png" = .image := by decide +kernel
  have heligible : isEligible .extreme (candidateOf (localPicture, archivedMessage)) = true := by
    show (!false && decide (ArchiveState.archiveVerified = .archiveVerified) &&
      (classifyMimeType "image/png").isEligibleForPressure .extreme) = true
    rw [hkind]
    decide
  unfold picturePlan planEvictionWithPressure scoredCandidates
  rw [collectedPicture_eq, List.filter_cons_of_pos heligible, List.filter_nil, List.map_singleton, List.mergeSort_singleton]
  rfl

/-- **Two ways off the diagram**: a plan is executed after its asset was deleted, and an asset is marked as evicted that
still has its bytes. -/
theorem stateChanges_unlawful : EvictedEmpty pictureStore ∧ CountsBytes pictureStore ∧
    (∃ tr db, Run (MediaStep (fun _ => 0) .on) pictureStore tr db ∧
      tr.map Prod.snd = [.collectEvictionCandidates (fun _ => false) 0 1, .transitionMediaState ⟨3⟩ .originalLocal .deleted,
        .executeEviction picturePlan none] ∧
      ∃ p ∈ tr, ¬ List.IsChain ChangesLegally (p.1 :: p.2.stores (fun _ => 0) .on p.1)) ∧
    ∃ tr db, Run (MediaStep (fun _ => 0) .on) pictureStore tr db ∧
      tr.map Prod.snd = [.transitionMediaState ⟨3⟩ .originalLocal .evicted] ∧ ¬ EvictedEmpty db := by
  have hrun : Run (MediaStep (fun _ => 0) .on) pictureStore
      [(pictureStore, .collectEvictionCandidates (fun _ => false) 0 1),
        (pictureStore, .transitionMediaState ⟨3⟩ .originalLocal .deleted),
        (pictureStore.updateMediaState ⟨3⟩ .deleted, .executeEviction picturePlan none)]
      (evictAll (pictureStore.updateMediaState ⟨3⟩ .deleted) picturePlan.selected) :=
    ((Run.single rfl).trans (Run.single rfl)).trans (Run.single executeEviction_store)
  refine ⟨pictureStore_empty, pictureStore_counts, ⟨_, _, hrun, rfl, _, List.mem_of_getLast? rfl, ?_⟩,
    [(pictureStore, .transitionMediaState ⟨3⟩ .originalLocal .evicted)], pictureStore.updateMediaState ⟨3⟩ .evicted,
    Run.single rfl, rfl, ?_⟩
  · -- the plan is older than the delete
    intro hlegal
    have hmay := evictions_legal_iff.mp hlegal (candidateOf (localPicture, archivedMessage)) (by
      rw [reached_none, picturePlan_selected]
      exact List.mem_singleton_self _)
    rcases hmay { localPicture with mediaState := .deleted } rfl with h | h <;> exact absurd h (by decide)
  · -- the transition sets the state and leaves the bytes
    intro hempty
    exact absurd (hempty ⟨3⟩ { localPicture with mediaState := .evicted } rfl rfl) (by decide)

/-- A plan that is executed at once. -/
theorem stateChanges_lawful_picture :
    (∀ p ∈ [(pictureStore, MediaCall.executeEviction picturePlan none)], p.2.Lawful (fun _ => 0) .on p.1) ∧
      EvictedEmpty (evictAll pictureStore picturePlan.selected) := by
  refine stateChanges_lawful pictureStore_empty pictureStore_counts (Run.single executeEviction_store) fun p hp => ?_
  obtain rfl := List.mem_singleton.mp hp
  show (∀ cand ∈ picturePlan.selected, MayEvict pictureStore cand) ∧ (_ → _)
  rw [picturePlan_selected]
  refine ⟨fun cand hmem row hrow => ?_, fun _ => ⟨⟨fun cand hmem row hrow => ?_, List.pairwise_singleton _ _⟩, by decide +kernel⟩⟩
  · rw [getMediaAsset_pictureStore hrow]
    exact Or.inl rfl
  · rw [getMediaAsset_pictureStore hrow, List.mem_singleton.mp hmem]
    rfl

end KChatCore.Offload
