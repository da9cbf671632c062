import KChatCore.Base
import KChatCore.Lib.Run
import KChatCore.Lib.Weighted

/-!
# `Media.Cache` — the index of the media originals on disk

The cache keeps the size of every resident asset, and the assets in the order of their last use; it evicts from the front of
that order. The order stays the order of use, and every residency ends with one report. But the counter of bytes saturates,
and what it loses then it never gets back.

* `evictLoop_spec` — what an eviction takes: the front of the order.
* `tidy_run` — the order, the reports and the evictions, over every sequence of calls.
* `mediaCache_books_iff` — the counter is right all along exactly where no insert saturates it, unless that empties the
  cache.
-/

namespace KChatCore.Media

open Lib

/-- `MediaCache`. -/
structure MediaCache where
  entries : AList fun _ : String => UInt64
  /-- Least recently used first. -/
  order : List String
  currentBytes : Nat
  maxBytes : UInt64

namespace MediaCache

/-- `MediaCache::new`. -/
def new (maxBytes : UInt64) : MediaCache := ⟨∅, [], 0, maxBytes⟩

/-- `MediaCache::contains`. -/
def contains (c : MediaCache) (assetId : String) : Bool := (c.entries.lookup assetId).isSome

/-- The loop of `evict_to_budget`, over the order that is left. -/
def evictLoop (c : MediaCache) : List String → List String × MediaCache
  | [] => ([], { c with order := [] })
  | assetId :: order =>
      if c.currentBytes ≤ c.maxBytes.toNat then ([], { c with order := assetId :: order })
      else
        match c.entries.lookup assetId with
        | none => evictLoop c order
        | some sizeBytes =>
            let (evicted, c') := evictLoop
              { c with
                entries := c.entries.erase assetId
                currentBytes := c.currentBytes - sizeBytes.toNat } order
            (assetId :: evicted, c')

/-- `MediaCache::evict_to_budget`. -/
def evictToBudget (c : MediaCache) : List String × MediaCache := c.evictLoop c.order

/-- `MediaCache::remove`: the bytes that are freed. -/
def remove (c : MediaCache) (assetId : String) : UInt64 × MediaCache :=
  match c.entries.lookup assetId with
  | some sizeBytes =>
      (sizeBytes,
        { c with
          entries := c.entries.erase assetId
          -- `remove_from_order`
          order := c.order.erase assetId
          currentBytes := c.currentBytes - sizeBytes.toNat })
  | none => (0, c)

/-- `MediaCache::insert`, up to its eviction. -/
def inserted (c : MediaCache) (assetId : String) (sizeBytes : UInt64) : MediaCache :=
  let c := (c.remove assetId).2
  { c with
    entries := c.entries.insert assetId sizeBytes
    order := c.order ++ [assetId]
    currentBytes := min (c.currentBytes + sizeBytes.toNat) u64Max }

/-- `MediaCache::insert`: the assets that are evicted. -/
def insert (c : MediaCache) (assetId : String) (sizeBytes : UInt64) : List String × MediaCache :=
  (c.inserted assetId sizeBytes).evictToBudget

/-- `MediaCache::touch`. -/
def touch (c : MediaCache) (assetId : String) : MediaCache :=
  if c.contains assetId then { c with order := c.order.erase assetId ++ [assetId] } else c

end MediaCache

/-- A call of the cache. -/
inductive MediaCacheCall
  | insert (assetId : String) (sizeBytes : UInt64)
  | touch (assetId : String)
  | remove (assetId : String)
  | evictToBudget
deriving DecidableEq

namespace MediaCacheCall

/-- The cache after a call. -/
def run : MediaCacheCall → MediaCache → MediaCache
  | insert assetId sizeBytes, c => (c.insert assetId sizeBytes).2
  | touch assetId, c => c.touch assetId
  | remove assetId, c => (c.remove assetId).2
  | evictToBudget, c => c.evictToBudget.2

/-- The assets that a call returns as evicted. -/
def evicted : MediaCacheCall → MediaCache → List String
  | insert assetId sizeBytes, c => (c.insert assetId sizeBytes).1
  | evictToBudget, c => c.evictToBudget.1
  | touch _, _ | remove _, _ => []

/-- The assets that a call reports as gone: evicted, or resident and removed. -/
def reported : MediaCacheCall → MediaCache → List String
  | remove assetId, c => if c.contains assetId then [assetId] else []
  | call, c => call.evicted c

/-- A call that begins a residency of an asset. -/
def begins (assetId : String) : MediaCacheCall → MediaCache → Bool
  | insert assetId' _, c => assetId' = assetId && !c.contains assetId
  | _, _ => false

/-- A call that uses an asset. -/
def uses (assetId : String) : MediaCacheCall → Bool
  | insert assetId' _ | touch assetId' => assetId' = assetId
  | remove _ | evictToBudget => false

/-- A step. -/
def Step (c : MediaCache) (call : MediaCacheCall) (c' : MediaCache) : Prop := c' = call.run c

end MediaCacheCall

/-- When an asset was used last, among calls the newest of which comes first. -/
def lastUse (assetId : String) : List MediaCacheCall → Nat
  | [] => 0
  | call :: older => if call.uses assetId then older.length + 1 else lastUse assetId older

/-- The calls of a trace, the newest first. -/
def callsOf (tr : List (MediaCache × MediaCacheCall)) : List MediaCacheCall := (tr.map Prod.snd).reverse

/-- How many residencies of an asset have begun. -/
def residencies (tr : List (MediaCache × MediaCacheCall)) (assetId : String) : Nat :=
  tr.countP fun p => p.2.begins assetId p.1

/-- How often an asset was reported as gone. -/
def reports (tr : List (MediaCache × MediaCacheCall)) (assetId : String) : Nat :=
  (tr.map fun p => (p.2.reported p.1).count assetId).sum

/-- The sum of the sizes of the resident assets. -/
def MediaCache.residentBytes (c : MediaCache) : Nat := total (fun _ sizeBytes => sizeBytes.toNat) c.entries

/-- **The counter is right.** -/
def CountsResident (c : MediaCache) : Prop := c.currentBytes = c.residentBytes

/-- **The books but for the counter**, after the calls of a trace. -/
structure Tidy (tr : List (MediaCache × MediaCacheCall)) (c : MediaCache) : Prop where
  once : c.order.Nodup
  resident : ∀ assetId, assetId ∈ c.order ↔ c.contains assetId = true
  reported : ∀ assetId, residencies tr assetId = reports tr assetId + if c.contains assetId then 1 else 0
  within : ∀ assetId sizeBytes, ((MediaCacheCall.insert assetId sizeBytes).run c).currentBytes ≤ c.maxBytes.toNat
  evictsOldest : ∀ call : MediaCacheCall, (call.evicted c).Pairwise fun a b =>
    lastUse a (call :: callsOf tr) < lastUse b (call :: callsOf tr)
  evictsBefore : ∀ (call : MediaCacheCall), ∀ a ∈ call.evicted c, ∀ b, (call.run c).contains b = true →
    lastUse a (call :: callsOf tr) < lastUse b (call :: callsOf tr)

/-- **The books are right in every state of a run.** -/
def Books (tr : List (MediaCache × MediaCacheCall)) (c : MediaCache) : Prop :=
  (∀ before c₀ call after, tr = before ++ (c₀, call) :: after → Tidy before c₀ ∧ CountsResident c₀) ∧ Tidy tr c ∧ CountsResident c

/-- **An insert does not saturate the counter**, or is of so much that nothing stays. -/
def CountsOn (c : MediaCache) (call : MediaCacheCall) : Prop :=
  ∀ assetId sizeBytes, call = .insert assetId sizeBytes →
    (c.remove assetId).2.residentBytes + sizeBytes.toNat ≤ u64Max ∨
      c.maxBytes.toNat + (c.remove assetId).2.residentBytes < u64Max

namespace MediaCache

variable {c : MediaCache} {assetId : String} {sizeBytes : UInt64}

theorem contains_iff : c.contains assetId = true ↔ ∃ sizeBytes, c.entries.lookup assetId = some sizeBytes :=
  Option.isSome_iff_exists

/-! ## An eviction -/

/-- What some assets take, as the entries say. -/
def sizesOf (entries : AList fun _ : String => UInt64) (assetIds : List String) : Nat :=
  (assetIds.map fun assetId => ((entries.lookup assetId).map UInt64.toNat).getD 0).sum

theorem sizesOf_append (entries : AList fun _ : String => UInt64) (front back : List String) :
    sizesOf entries (front ++ back) = sizesOf entries front + sizesOf entries back := by
  simp [sizesOf]

theorem sizesOf_cons (entries : AList fun _ : String => UInt64) (assetId : String) (assetIds : List String) :
    sizesOf entries (assetId :: assetIds) = ((entries.lookup assetId).map UInt64.toNat).getD 0 + sizesOf entries assetIds := by
  simp [sizesOf]

theorem sizesOf_congr {entries entries' : AList fun _ : String => UInt64} {assetIds : List String}
    (h : ∀ assetId ∈ assetIds, entries.lookup assetId = entries'.lookup assetId) :
    sizesOf entries assetIds = sizesOf entries' assetIds := by
  unfold sizesOf
  rw [List.map_congr_left fun assetId hmem => by rw [h assetId hmem]]

/-- **What an eviction takes**: the front of the order (`gone`), until the counter is within the budget or nothing is left;
before each of them the counter was over it. -/
structure Evicts (c : MediaCache) (order gone kept : List String) (result : List String × MediaCache) : Prop where
  split : order = gone ++ kept
  evicted : result.1 = gone
  entries : result.2.entries = gone.foldl (fun m assetId => m.erase assetId) c.entries
  order : result.2.order = kept
  current : result.2.currentBytes = c.currentBytes - sizesOf c.entries gone
  max : result.2.maxBytes = c.maxBytes
  stops : kept = [] ∨ c.currentBytes - sizesOf c.entries gone ≤ c.maxBytes.toNat
  goes : ∀ front assetId back, gone = front ++ assetId :: back →
    c.maxBytes.toNat < c.currentBytes - sizesOf c.entries front

theorem evictLoop_spec {order : List String} (hnodup : order.Nodup) (hresident : ∀ assetId ∈ order, c.contains assetId = true) :
    ∃ gone kept, Evicts c order gone kept (c.evictLoop order) := by
  induction order generalizing c with
  | nil =>
      refine ⟨[], [], rfl, rfl, rfl, rfl, ?_, rfl, .inl rfl, fun front assetId back h => absurd h (by simp)⟩
      simp [evictLoop, sizesOf]
  | cons assetId order ih =>
      unfold evictLoop
      by_cases hfits : c.currentBytes ≤ c.maxBytes.toNat
      · rw [if_pos hfits]
        refine ⟨[], assetId :: order, rfl, rfl, rfl, rfl, ?_, rfl, .inr ?_, fun front assetId back h => absurd h (by simp)⟩
        · simp [sizesOf]
        · simpa [sizesOf] using hfits
      · rw [if_neg hfits]
        obtain ⟨sizeBytes, hsize⟩ := contains_iff.mp (hresident assetId List.mem_cons_self)
        rw [hsize]
        obtain ⟨hfresh, hrest⟩ := List.nodup_cons.mp hnodup
        -- the others stay where they are
        have hothers : ∀ other ∈ order, (c.entries.erase assetId).lookup other = c.entries.lookup other := by
          intro other hother
          exact AList.lookup_erase_ne fun h => hfresh (h ▸ hother)
        obtain ⟨gone, kept, h⟩ := @ih { c with
            entries := c.entries.erase assetId
            currentBytes := c.currentBytes - sizeBytes.toNat } hrest (by
          intro other hother
          have hthere := hresident other (List.mem_cons_of_mem _ hother)
          unfold contains at hthere ⊢
          rwa [hothers other hother])
        have hsizes : ∀ front back, gone = front ++ back →
            sizesOf c.entries (assetId :: front) = sizeBytes.toNat + sizesOf (c.entries.erase assetId) front := by
          intro front back hgone
          rw [sizesOf_cons, hsize]
          refine congrArg (sizeBytes.toNat + ·) (sizesOf_congr fun other hother => ?_)
          refine (hothers other ?_).symm
          rw [h.split, hgone]
          exact List.mem_append_left _ (List.mem_append_left _ hother)
        refine ⟨assetId :: gone, kept, congrArg _ h.split, congrArg _ h.evicted, h.entries, h.order, ?_, h.max, ?_, ?_⟩
        · rw [hsizes gone [] (by simp), ← Nat.sub_sub]
          exact h.current
        · rw [hsizes gone [] (by simp), ← Nat.sub_sub]
          exact h.stops
        · intro front other back hsplit
          cases front with
          | nil => simpa [sizesOf] using hfits
          | cons first front =>
              obtain ⟨rfl, hgone⟩ := List.cons_eq_cons.mp hsplit
              rw [hsizes front (other :: back) hgone, ← Nat.sub_sub]
              exact h.goes front other back hgone

/-- The entries that an eviction leaves. -/
theorem Evicts.lookup {order gone kept : List String} {result : List String × MediaCache}
    (h : Evicts c order gone kept result) (assetId : String) :
    result.2.entries.lookup assetId = if assetId ∈ gone then none else c.entries.lookup assetId := by
  rw [h.entries]
  exact lookup_eraseAll gone assetId

/-! ## The order -/

/-- **The order has every resident asset once.** -/
structure Ordered (c : MediaCache) : Prop where
  once : c.order.Nodup
  resident : ∀ assetId, assetId ∈ c.order ↔ c.contains assetId = true

theorem Ordered.residentBytes (h : Ordered c) : c.residentBytes = sizesOf c.entries c.order := by
  unfold MediaCache.residentBytes sizesOf
  rw [total_eq_sum h.once fun assetId => (h.resident assetId).trans contains_iff]

theorem Ordered.remove (h : Ordered c) (assetId : String) : Ordered (c.remove assetId).2 ∧
    (c.remove assetId).2.order = c.order.erase assetId ∧ (c.remove assetId).2.entries = c.entries.erase assetId := by
  unfold MediaCache.remove
  cases hsize : c.entries.lookup assetId with
  | none =>
      have hout : assetId ∉ c.order := by
        rw [h.resident, contains_iff, hsize]
        simp
      have hentries : c.entries.erase assetId = c.entries :=
        AList.ext (List.kerase_of_notMem_keys (AList.lookup_eq_none.mp hsize))
      exact ⟨h, (List.erase_of_not_mem hout).symm, hentries.symm⟩
  | some sizeBytes =>
      refine ⟨⟨h.once.erase _, fun other => ?_⟩, rfl, rfl⟩
      rw [h.once.mem_erase_iff, h.resident]
      show _ ↔ ((c.entries.erase assetId).lookup other).isSome = true
      by_cases hother : other = assetId
      · subst hother
        simp
      · rw [AList.lookup_erase_ne hother, and_iff_right hother]
        rfl

theorem Ordered.inserted (h : Ordered c) (assetId : String) (sizeBytes : UInt64) :
    Ordered (c.inserted assetId sizeBytes) ∧ (c.inserted assetId sizeBytes).order = c.order.erase assetId ++ [assetId] := by
  obtain ⟨hremoved, horder, hentries⟩ := h.remove assetId
  unfold MediaCache.inserted
  dsimp only
  rw [horder, hentries]
  refine ⟨⟨?_, fun other => ?_⟩, rfl⟩
  · rw [List.nodup_append_comm]
    exact List.nodup_cons.mpr ⟨h.once.not_mem_erase, h.once.erase _⟩
  · have hold := hremoved.resident other
    rw [horder, contains_iff, hentries] at hold
    rw [List.mem_append, List.mem_singleton, contains_iff, hold]
    by_cases hother : other = assetId
    · subst hother
      simp
    · rw [AList.lookup_insert_ne hother, or_iff_left hother]

theorem Ordered.touch (h : Ordered c) (assetId : String) : Ordered (c.touch assetId) := by
  unfold MediaCache.touch
  split_ifs with hthere
  · refine ⟨?_, fun other => ?_⟩
    · rw [List.nodup_append_comm]
      exact List.nodup_cons.mpr ⟨h.once.not_mem_erase, h.once.erase _⟩
    · show other ∈ c.order.erase assetId ++ [assetId] ↔ c.contains other = true
      rw [List.mem_append, List.mem_singleton, h.once.mem_erase_iff, ← h.resident]
      by_cases hother : other = assetId
      · subst hother
        simpa using (h.resident other).mpr hthere
      · simp [hother]
  · exact h

theorem Ordered.evictToBudget (h : Ordered c) :
    (∃ gone kept, Evicts c c.order gone kept c.evictToBudget) ∧ Ordered c.evictToBudget.2 := by
  obtain ⟨gone, kept, hevicts⟩ := evictLoop_spec h.once fun assetId => (h.resident assetId).mp
  have hsplit := hevicts.split
  refine ⟨⟨gone, kept, hevicts⟩, ?_, fun assetId => ?_⟩
  · show (c.evictLoop c.order).2.order.Nodup
    rw [hevicts.order]
    have honce := h.once
    rw [hsplit] at honce
    exact (List.nodup_append.mp honce).2.1
  · show assetId ∈ (c.evictLoop c.order).2.order ↔ (c.evictLoop c.order).2.contains assetId = true
    have honce := h.once
    have hres := h.resident assetId
    rw [hsplit] at honce hres
    rw [List.nodup_append] at honce
    unfold contains at hres ⊢
    rw [hevicts.order, hevicts.lookup]
    by_cases hgone : assetId ∈ gone
    · rw [if_pos hgone]
      simpa using fun hkept => honce.2.2 assetId hgone assetId hkept rfl
    · rw [if_neg hgone, ← hres, List.mem_append, or_iff_right hgone]

/-! ## The counter -/

theorem remove_maxBytes (c : MediaCache) (assetId : String) : (c.remove assetId).2.maxBytes = c.maxBytes := by
  unfold MediaCache.remove
  split <;> rfl

theorem residentBytes_remove (h : Ordered c) :
    c.residentBytes = (c.remove assetId).1.toNat + (c.remove assetId).2.residentBytes ∧
      (c.remove assetId).2.currentBytes = c.currentBytes - (c.remove assetId).1.toNat := by
  have hentries := (h.remove assetId).2.2
  unfold MediaCache.residentBytes
  rw [hentries]
  unfold MediaCache.remove
  cases hsize : c.entries.lookup assetId with
  | none =>
      rw [total_erase_of_none hsize]
      exact ⟨(Nat.zero_add _).symm, rfl⟩
  | some sizeBytes => exact ⟨total_erase hsize, rfl⟩

theorem residentBytes_inserted (h : Ordered c) :
    (c.inserted assetId sizeBytes).residentBytes = (c.remove assetId).2.residentBytes + sizeBytes.toNat := by
  have hentries := (h.remove assetId).2.2
  show total _ ((c.remove assetId).2.entries.insert assetId sizeBytes) = total _ (c.remove assetId).2.entries + _
  rw [hentries, total_insert_erase, Nat.add_comm]
  congr 1
  show total _ ((c.entries.erase assetId).erase assetId) = _
  exact total_erase_of_none (AList.lookup_erase _ _)

theorem residentBytes_evicted (h : Ordered c) {gone kept : List String} (hevicts : Evicts c c.order gone kept c.evictToBudget) :
    c.residentBytes = sizesOf c.entries gone + sizesOf c.entries kept ∧
      c.evictToBudget.2.residentBytes = sizesOf c.entries kept := by
  have honce := h.once
  rw [hevicts.split, List.nodup_append] at honce
  rw [h.residentBytes, h.evictToBudget.2.residentBytes, hevicts.order, hevicts.split, sizesOf_append]
  refine ⟨rfl, sizesOf_congr fun assetId hkept => ?_⟩
  rw [hevicts.lookup, if_neg fun hgone => honce.2.2 assetId hgone assetId hkept rfl]

/-- The counter says no more than what is resident. -/
structure Bounded (c : MediaCache) : Prop where
  ordered : Ordered c
  below : c.currentBytes ≤ c.residentBytes
  u64 : c.currentBytes ≤ u64Max

theorem Bounded.remove (h : Bounded c) (assetId : String) : Bounded (c.remove assetId).2 := by
  obtain ⟨hsplit, hcurrent⟩ := @residentBytes_remove c assetId h.ordered
  have hbelow := h.below
  have hu64 := h.u64
  exact ⟨(h.ordered.remove assetId).1, by omega, by omega⟩

theorem Bounded.inserted (h : Bounded c) (assetId : String) (sizeBytes : UInt64) : Bounded (c.inserted assetId sizeBytes) := by
  have hremoved := (h.remove assetId).below
  refine ⟨(h.ordered.inserted assetId sizeBytes).1, ?_, Nat.min_le_right _ _⟩
  rw [residentBytes_inserted h.ordered]
  exact (Nat.min_le_left _ _).trans (Nat.add_le_add_right hremoved _)

theorem Bounded.evictToBudget (h : Bounded c) : Bounded c.evictToBudget.2 := by
  obtain ⟨⟨gone, kept, hevicts⟩, hordered⟩ := h.ordered.evictToBudget
  obtain ⟨hall, hleft⟩ := residentBytes_evicted h.ordered hevicts
  have hcurrent : c.evictToBudget.2.currentBytes = _ := hevicts.current
  have hbelow := h.below
  have hu64 := h.u64
  exact ⟨hordered, by omega, by omega⟩

/-- A use changes the order only. -/
theorem touch_eq (c : MediaCache) (assetId : String) : (c.touch assetId).entries = c.entries ∧
    (c.touch assetId).currentBytes = c.currentBytes ∧ (c.touch assetId).maxBytes = c.maxBytes := by
  unfold MediaCache.touch
  split_ifs <;> exact ⟨rfl, rfl, rfl⟩

theorem residentBytes_touch (c : MediaCache) (assetId : String) : (c.touch assetId).residentBytes = c.residentBytes := by
  unfold MediaCache.residentBytes
  rw [(touch_eq c assetId).1]

theorem Bounded.run (h : Bounded c) (call : MediaCacheCall) : Bounded (call.run c) := by
  cases call with
  | insert assetId sizeBytes => exact (h.inserted assetId sizeBytes).evictToBudget
  | touch assetId =>
      have hcurrent := (touch_eq c assetId).2.1
      refine ⟨h.ordered.touch assetId, ?_, ?_⟩
      · exact hcurrent.le.trans (h.below.trans (residentBytes_touch c assetId).ge)
      · exact hcurrent.le.trans h.u64
  | remove assetId => exact h.remove assetId
  | evictToBudget => exact h.evictToBudget

/-- **After an eviction the counter is within the budget.** -/
theorem Bounded.evict_le (h : Bounded c) : c.evictToBudget.2.currentBytes ≤ c.maxBytes.toNat := by
  obtain ⟨⟨gone, kept, hevicts⟩, -⟩ := h.ordered.evictToBudget
  have hcurrent : c.evictToBudget.2.currentBytes = _ := hevicts.current
  rcases hevicts.stops with hnone | hstops
  · have hbelow := h.evictToBudget.below
    rw [(residentBytes_evicted h.ordered hevicts).2, hnone] at hbelow
    exact hbelow.trans (Nat.zero_le _)
  · rw [hcurrent]
    exact hstops

/-- **One insert**: where the counter was right, it is right again exactly if it did not saturate or nothing stays. -/
theorem counted_insert (h : Bounded c) (hcounted : CountsResident c) :
    CountsResident (c.insert assetId sizeBytes).2 ↔
      (c.remove assetId).2.residentBytes + sizeBytes.toNat ≤ u64Max ∨
        c.maxBytes.toNat + (c.remove assetId).2.residentBytes < u64Max := by
  obtain ⟨hsplit, hremoved⟩ := @residentBytes_remove c assetId h.ordered
  obtain ⟨hordered, horder⟩ := h.ordered.inserted assetId sizeBytes
  have hresident := @residentBytes_inserted c assetId sizeBytes h.ordered
  have hu64 := h.u64
  have hcurrent : (c.inserted assetId sizeBytes).currentBytes = min ((c.remove assetId).2.currentBytes + sizeBytes.toNat) u64Max :=
    rfl
  have hmax : (c.inserted assetId sizeBytes).maxBytes = c.maxBytes := remove_maxBytes c assetId
  obtain ⟨⟨gone, kept, hevicts⟩, -⟩ := hordered.evictToBudget
  obtain ⟨hall, hleft⟩ := residentBytes_evicted hordered hevicts
  have hend : (c.inserted assetId sizeBytes).evictToBudget.2.currentBytes = _ := hevicts.current
  have hstops := hevicts.stops
  have hsize : sizesOf (c.inserted assetId sizeBytes).entries [assetId] = sizeBytes.toNat := by
    have hlookup : (c.inserted assetId sizeBytes).entries.lookup assetId = some sizeBytes := AList.lookup_insert _
    simp [sizesOf, hlookup]
  show (c.inserted assetId sizeBytes).evictToBudget.2.currentBytes = (c.inserted assetId sizeBytes).evictToBudget.2.residentBytes ↔ _
  unfold CountsResident at hcounted
  rw [hend, hleft, hcurrent]
  rw [hcurrent, hmax] at hstops
  have hgoes := hevicts.goes
  rw [hcurrent, hmax] at hgoes
  -- the asset that is inserted is the last of the order
  have hlast := hevicts.split.symm.trans horder
  rcases List.eq_nil_or_concat kept with rfl | ⟨front, last, rfl⟩
  · rw [List.append_nil] at hlast
    have hover := hgoes (c.order.erase assetId) assetId [] hlast
    have hrest : sizesOf (c.inserted assetId sizeBytes).entries gone =
        sizesOf (c.inserted assetId sizeBytes).entries (c.order.erase assetId) + sizeBytes.toNat := by
      rw [hlast, sizesOf_append, hsize]
    have hnil : sizesOf (c.inserted assetId sizeBytes).entries [] = 0 := rfl
    omega
  · rw [List.concat_eq_append, ← List.append_assoc] at hlast
    obtain ⟨hfront, hlast⟩ := List.append_inj' hlast rfl
    obtain rfl := List.singleton_inj.mp hlast
    have hkept : sizesOf (c.inserted last sizeBytes).entries (front.concat last) =
        sizesOf (c.inserted last sizeBytes).entries front + sizeBytes.toNat := by
      rw [List.concat_eq_append, sizesOf_append, hsize]
    have hstop := hstops.resolve_left (by simp)
    omega

theorem counted_run (h : Bounded c) (hcounted : CountsResident c) (call : MediaCacheCall) :
    CountsResident (call.run c) ↔ CountsOn c call := by
  cases call with
  | insert assetId sizeBytes =>
      refine (counted_insert h hcounted).trans ⟨?_, fun hall => hall assetId sizeBytes rfl⟩
      rintro hfits other size hsame
      injection hsame with hid hsize
      subst hid hsize
      exact hfits
  | touch assetId =>
      refine iff_of_true ?_ (by simp [CountsOn])
      exact (touch_eq c assetId).2.1.trans (hcounted.trans (residentBytes_touch c assetId).symm)
  | remove assetId =>
      refine iff_of_true ?_ (by simp [CountsOn])
      obtain ⟨hsplit, hcurrent⟩ := @residentBytes_remove c assetId h.ordered
      show (c.remove assetId).2.currentBytes = (c.remove assetId).2.residentBytes
      unfold CountsResident at hcounted
      omega
  | evictToBudget =>
      refine iff_of_true ?_ (by simp [CountsOn])
      obtain ⟨⟨gone, kept, hevicts⟩, -⟩ := h.ordered.evictToBudget
      obtain ⟨hall, hleft⟩ := residentBytes_evicted h.ordered hevicts
      have hcurrent : c.evictToBudget.2.currentBytes = _ := hevicts.current
      show c.evictToBudget.2.currentBytes = c.evictToBudget.2.residentBytes
      unfold CountsResident at hcounted
      omega

/-! ## The history -/

section History

variable {calls : List MediaCacheCall} {call : MediaCacheCall}

theorem lastUse_le_length (assetId : String) (calls : List MediaCacheCall) : lastUse assetId calls ≤ calls.length := by
  induction calls with
  | nil => exact le_rfl
  | cons call older ih =>
      unfold lastUse
      split_ifs
      · exact le_rfl
      · exact ih.trans (Nat.le_succ _)

/-- **The order is the order of the last uses.** -/
def ByUse (calls : List MediaCacheCall) (c : MediaCache) : Prop :=
  c.order.Pairwise fun a b => lastUse a calls < lastUse b calls

/-- A call that uses none of the order keeps it. -/
theorem ByUse.of_unused {order : List String} (h : order.Pairwise fun a b => lastUse a calls < lastUse b calls)
    (hunused : ∀ assetId ∈ order, call.uses assetId = false) :
    order.Pairwise fun a b => lastUse a (call :: calls) < lastUse b (call :: calls) := by
  refine h.imp_of_mem fun {a b} ha hb hlt => ?_
  unfold lastUse
  rwa [if_neg (by simp [hunused a ha]), if_neg (by simp [hunused b hb])]

/-- An asset that is used goes to the end. -/
theorem ByUse.toEnd (h : ByUse calls c) (honce : c.order.Nodup) (huses : ∀ other, call.uses other = decide (assetId = other)) :
    (c.order.erase assetId ++ [assetId]).Pairwise fun a b => lastUse a (call :: calls) < lastUse b (call :: calls) := by
  have hothers : ∀ other ∈ c.order.erase assetId, call.uses other = false := by
    intro other hother
    rw [huses, decide_eq_false_iff_not]
    rintro rfl
    exact honce.not_mem_erase hother
  rw [List.pairwise_append]
  refine ⟨ByUse.of_unused (h.sublist List.erase_sublist) hothers, List.pairwise_singleton _ _, ?_⟩
  intro other hother last hlast
  obtain rfl := List.mem_singleton.mp hlast
  have hold := lastUse_le_length other calls
  have hfirst : lastUse other (call :: calls) = lastUse other calls := if_neg (by simp [hothers other hother])
  have hlast : lastUse last (call :: calls) = calls.length + 1 := if_pos (by simp [huses])
  omega

/-- **An eviction takes the assets in the order of their last uses**, and leaves later ones. -/
theorem evicts_byUse (h : Ordered c) (hbyUse : ByUse calls c) :
    (c.evictToBudget.1.Pairwise fun a b => lastUse a calls < lastUse b calls) ∧
      (∀ a ∈ c.evictToBudget.1, ∀ b, c.evictToBudget.2.contains b = true → lastUse a calls < lastUse b calls) ∧
      ByUse calls c.evictToBudget.2 := by
  obtain ⟨⟨gone, kept, hevicts⟩, hordered⟩ := h.evictToBudget
  have hsorted : (gone ++ kept).Pairwise fun a b => lastUse a calls < lastUse b calls := hevicts.split ▸ hbyUse
  obtain ⟨hgone, hkept, hcross⟩ := List.pairwise_append.mp hsorted
  have horder := hevicts.order
  unfold ByUse
  rw [hevicts.evicted, horder]
  refine ⟨hgone, fun a ha b hb => hcross a ha b ?_, hkept⟩
  have hb' := (hordered.resident b).mpr hb
  rwa [horder] at hb'

/-- **One call**, by the history. -/
theorem ByUse.run (hbyUse : ByUse calls c) (h : Ordered c) (call : MediaCacheCall) :
    ((call.evicted c).Pairwise fun a b => lastUse a (call :: calls) < lastUse b (call :: calls)) ∧
      (∀ a ∈ call.evicted c, ∀ b, (call.run c).contains b = true → lastUse a (call :: calls) < lastUse b (call :: calls)) ∧
      ByUse (call :: calls) (call.run c) := by
  cases call with
  | insert assetId sizeBytes =>
      obtain ⟨hordered, horder⟩ := h.inserted assetId sizeBytes
      refine evicts_byUse hordered ?_
      unfold ByUse
      rw [horder]
      exact hbyUse.toEnd h.once fun other => rfl
  | touch assetId =>
      refine ⟨List.Pairwise.nil, fun a ha => absurd ha List.not_mem_nil, ?_⟩
      show ByUse _ (c.touch assetId)
      unfold MediaCache.touch
      split_ifs with hthere
      · exact hbyUse.toEnd h.once fun other => rfl
      · refine ByUse.of_unused hbyUse fun other hother => decide_eq_false ?_
        rintro rfl
        exact hthere ((h.resident assetId).mp hother)
  | remove assetId =>
      refine ⟨List.Pairwise.nil, fun a ha => absurd ha List.not_mem_nil, ?_⟩
      show (c.remove assetId).2.order.Pairwise _
      rw [(h.remove assetId).2.1]
      exact ByUse.of_unused (hbyUse.sublist List.erase_sublist) fun _ _ => rfl
  | evictToBudget => exact evicts_byUse h (ByUse.of_unused hbyUse fun _ _ => rfl)

/-! ## The reports -/

/-- How often an asset is resident. -/
def resides (c : MediaCache) (assetId : String) : Nat := if c.contains assetId then 1 else 0

/-- An eviction reports every asset that it ends the residency of, once. -/
theorem resides_evictToBudget (h : Ordered c) (assetId : String) :
    resides c assetId = c.evictToBudget.1.count assetId + resides c.evictToBudget.2 assetId := by
  obtain ⟨⟨gone, kept, hevicts⟩, -⟩ := h.evictToBudget
  have honce := h.once
  have hres := h.resident assetId
  rw [hevicts.split, List.nodup_append] at honce
  rw [hevicts.split, List.mem_append] at hres
  unfold resides
  have hafter : c.evictToBudget.2.contains assetId = if assetId ∈ gone then false else c.contains assetId := by
    unfold contains
    rw [hevicts.lookup]
    split_ifs <;> rfl
  rw [hevicts.evicted, honce.1.count, hafter]
  by_cases hgone : assetId ∈ gone
  · have hthere := hres.mp (.inl hgone)
    simp [hgone, hthere]
  · simp [hgone]

/-- **One call**: residencies that begin and end. -/
theorem resides_run (h : Ordered c) (call : MediaCacheCall) (assetId : String) :
    resides c assetId + (if call.begins assetId c then 1 else 0) =
      (call.reported c).count assetId + resides (call.run c) assetId := by
  cases call with
  | insert other sizeBytes =>
      -- an insert begins a residence, unless the asset resides already
      have hinserted : resides (c.inserted other sizeBytes) assetId =
          resides c assetId + if (MediaCacheCall.insert other sizeBytes).begins assetId c then 1 else 0 := by
        have hentries := (h.remove other).2.2
        have hcontains : (c.inserted other sizeBytes).contains assetId = (decide (assetId = other) || c.contains assetId) := by
          show (((c.remove other).2.entries.insert other sizeBytes).lookup assetId).isSome = _
          rw [hentries]
          by_cases hsame : assetId = other
          · subst hsame
            simp
          · rw [AList.lookup_insert_ne hsame, AList.lookup_erase_ne hsame]
            simp [hsame, contains]
        unfold resides MediaCacheCall.begins
        rw [hcontains]
        by_cases hsame : assetId = other
        · subst hsame
          cases hthere : c.contains assetId <;> simp [hthere]
        · simp [hsame, Ne.symm hsame]
      exact hinserted.symm.trans (resides_evictToBudget (h.inserted other sizeBytes).1 assetId)
  | touch other =>
      have hentries := (touch_eq c other).1
      show resides c assetId + 0 = 0 + resides (c.touch other) assetId
      unfold resides contains
      rw [hentries]
      omega
  | remove other =>
      have hentries := (h.remove other).2.2
      -- a removed asset is reported exactly when it resided
      have hcontains : (c.remove other).2.contains assetId = (decide (assetId ≠ other) && c.contains assetId) := by
        unfold contains
        rw [hentries]
        by_cases hsame : assetId = other
        · subst hsame
          simp
        · rw [AList.lookup_erase_ne hsame]
          simp [hsame]
      show resides c assetId + 0 = (if c.contains other then [other] else []).count assetId + resides (c.remove other).2 assetId
      unfold resides
      rw [hcontains]
      by_cases hsame : assetId = other
      · subst hsame
        cases c.contains assetId <;> simp
      · cases c.contains other <;> simp [hsame, Ne.symm hsame]
  | evictToBudget => exact resides_evictToBudget h assetId

end History

end MediaCache

/-! ## Every sequence of calls -/

section Runs

variable {maxBytes : UInt64} {tr : List (MediaCache × MediaCacheCall)} {c : MediaCache}

open MediaCache

/-- What holds of the cache after the calls of a trace, whatever the counter says. -/
structure Bookkeeping (tr : List (MediaCache × MediaCacheCall)) (c : MediaCache) : Prop where
  bounded : Bounded c
  byUse : ByUse (callsOf tr) c
  reported : ∀ assetId, residencies tr assetId = reports tr assetId + resides c assetId

theorem Bookkeeping.step (h : Bookkeeping tr c) (call : MediaCacheCall) : Bookkeeping (tr ++ [(c, call)]) (call.run c) := by
  have hcalls : callsOf (tr ++ [(c, call)]) = call :: callsOf tr := by simp [callsOf]
  refine ⟨h.bounded.run call, ?_, fun assetId => ?_⟩
  · rw [hcalls]
    exact (h.byUse.run h.bounded.ordered call).2.2
  · have hone := resides_run h.bounded.ordered call assetId
    have hbefore := h.reported assetId
    have hbegun : residencies (tr ++ [(c, call)]) assetId =
        residencies tr assetId + if call.begins assetId c then 1 else 0 := by
      simp [residencies, List.countP_append, List.countP_singleton]
    have hsaid : reports (tr ++ [(c, call)]) assetId = reports tr assetId + (call.reported c).count assetId := by
      simp [reports]
    omega

theorem bookkeeping_run (hrun : Run MediaCacheCall.Step (.new maxBytes) tr c) : Bookkeeping tr c := by
  induction hrun with
  | refl =>
      refine ⟨⟨⟨List.nodup_nil, fun assetId => ?_⟩, Nat.zero_le _, Nat.zero_le _⟩, List.Pairwise.nil, fun assetId => ?_⟩
      · simp [MediaCache.new, contains]
      · simp [residencies, reports, resides, MediaCache.new, contains]
  | tail _ hstep ih => exact hstep ▸ ih.step _

/-- **The books but for the counter are right after every sequence of calls.** -/
theorem tidy_run (hrun : Run MediaCacheCall.Step (.new maxBytes) tr c) : Tidy tr c := by
  have h := bookkeeping_run hrun
  refine ⟨h.bounded.ordered.once, h.bounded.ordered.resident, h.reported, fun assetId sizeBytes => ?_, fun call => ?_,
    fun call => ?_⟩
  · exact (h.bounded.inserted assetId sizeBytes).evict_le.trans
      (congrArg UInt64.toNat (remove_maxBytes c assetId : (c.inserted assetId sizeBytes).maxBytes = c.maxBytes)).le
  · exact (h.byUse.run h.bounded.ordered call).1
  · exact (h.byUse.run h.bounded.ordered call).2.1

end Runs

/-- **The books are right all along a run exactly where every insert counts on.** -/
theorem mediaCache_books_iff {maxBytes : UInt64} {tr : List (MediaCache × MediaCacheCall)} {c : MediaCache}
    (hrun : Run MediaCacheCall.Step (.new maxBytes) tr c) : Books tr c ↔ ∀ p ∈ tr, CountsOn p.1 p.2 := by
  -- the bookkeeping holds in every history; what the counter says is the question
  have hexact : ((∀ p ∈ tr, CountsResident p.1) ∧ CountsResident c) ↔ ∀ p ∈ tr, CountsOn p.1 p.2 := by
    refine hrun.throughout_iff (J := MediaCache.Bounded) ?_ ?_ (bookkeeping_run Run.refl).bounded rfl
    · intro s call s' hs _ hstep
      exact hstep ▸ hs.run call
    · intro s call s' hs hcounted hstep
      exact hstep ▸ MediaCache.counted_run hs hcounted call
  rw [← hexact]
  constructor
  · rintro ⟨hbefore, -, hcounted⟩
    refine ⟨fun p hp => ?_, hcounted⟩
    obtain ⟨before, after, htr⟩ := List.append_of_mem hp
    exact (hbefore before p.1 p.2 after htr).2
  · rintro ⟨hall, hcounted⟩
    refine ⟨fun before c₀ call after htr => ⟨tidy_run (hrun.split htr).1, hall (c₀, call) ?_⟩, tidy_run hrun, hcounted⟩
    rw [htr]
    exact List.mem_append_right _ List.mem_cons_self

/-- The empty cache gets an asset of ten bytes. -/
theorem mediaCache_books_ten : ∃ tr c, Run MediaCacheCall.Step (.new 100) tr c ∧ tr.length = 1 ∧
    (Books tr c ↔ ∀ p ∈ tr, CountsOn p.1 p.2) := by
  have hstep : MediaCacheCall.Step (.new 100) (.insert "a" 10) ((MediaCacheCall.insert "a" 10).run (.new 100)) := rfl
  exact ⟨_, _, Run.single hstep, rfl, mediaCache_books_iff (Run.single hstep)⟩

/-- **Two assets are too large for the counter together**, and both stay. -/
theorem mediaCache_loses_count : ∃ tr c, Run MediaCacheCall.Step (.new 18446744073709551615) tr c ∧ ¬ CountsResident c := by
  have hfirst : MediaCacheCall.Step (.new 18446744073709551615) (.insert "a" 18446744073709551615)
      ((MediaCacheCall.insert "a" 18446744073709551615).run (.new 18446744073709551615)) := rfl
  have hsecond : MediaCacheCall.Step ((MediaCacheCall.insert "a" 18446744073709551615).run (.new 18446744073709551615))
      (.insert "b" 1) ((MediaCacheCall.insert "b" 1).run ((MediaCacheCall.insert "a" 18446744073709551615).run
        (.new 18446744073709551615))) := rfl
  refine ⟨_, _, (Run.single hfirst).trans (Run.single hsecond), ?_⟩
  unfold CountsResident
  decide +kernel

end KChatCore.Media
