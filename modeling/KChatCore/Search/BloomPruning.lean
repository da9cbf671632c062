import KChatCore.Search.CaseFolding
import KChatCore.Search.FuzzyAgreement

/-!
# `Search.BloomPruning` — buckets skipped by their bloom filter

A bucket's bloom filter holds the words of its texts. A cold search skips the bucket when the query has words and the
filter has none of them; but a text matches a query word that stands anywhere in it, and the fuzzy rows match n-grams.

* `maybeContains_fromWords` — the filter never denies a word it was built from.
* `bloomPruning_safe_iff` — skipping a bucket loses nothing exactly when the filter lets the query through, or nothing in
  the bucket matches.
* `bloomPruning_safe_of_word` — so a query with one whole word of the bucket is safe.
-/

namespace KChatCore.Search

open Lib LocalStore

/-! ## The filter -/

/-- `BLOOM_HASH_COUNT`. -/
def bloomHashCount : Nat := 3

/-- `BLOOM_MIN_BITS`. -/
def bloomMinBits : Nat := 64

/-- `BLOOM_BITS_PER_ELEMENT`. -/
def bloomBitsPerElement : Nat := 12

/-- `BloomFilter`, with its bytes as a list of bits. -/
structure BloomBits where
  bitCount : Nat
  hashCount : Nat
  bits : List Bool
deriving DecidableEq

namespace BloomBits

/-- `BloomFilter::for_expected_count`. -/
def forExpectedCount (expectedCount hashCount : Nat) : BloomBits :=
  let bitsNeeded := min u64Max (expectedCount * bloomBitsPerElement)
  let bitCount := (max bitsNeeded bloomMinBits + 7) / 8 * 8
  ⟨bitCount, max hashCount 1, List.replicate bitCount false⟩

variable (hash : Nat → String → Nat)

/-- `BloomFilter::position`; `hash` is the keyed hash of a word under the key of a slot. -/
def position (f : BloomBits) (word : String) (slot : Nat) : Nat :=
  if f.bitCount = 0 then 0 else hash slot word % f.bitCount

/-- `set_bit`. -/
def setBit (f : BloomBits) (pos : Nat) : BloomBits := { f with bits := f.bits.set pos true }

/-- `get_bit`. -/
def getBit (f : BloomBits) (pos : Nat) : Bool := f.bits.getD pos false

/-- `BloomFilter::insert_word`. -/
def insertWord (f : BloomBits) (word : String) : BloomBits :=
  (List.range f.hashCount).foldl (fun f slot => f.setBit (f.position hash word slot)) f

/-- `BloomFilter::maybe_contains`. -/
def maybeContains (f : BloomBits) (word : String) : Bool :=
  (List.range f.hashCount).all fun slot => f.getBit (f.position hash word slot)

/-- `BloomFilter::from_words`. -/
def fromWords (words : List String) (expectedCount : Nat) : BloomBits :=
  words.foldl (insertWord hash) (forExpectedCount (max expectedCount words.length) bloomHashCount)

/-- The filter `g` has the shape of `f`, and every bit of `f`. -/
structure Extends (f g : BloomBits) : Prop where
  bitCount : g.bitCount = f.bitCount
  hashCount : g.hashCount = f.hashCount
  length : g.bits.length = f.bits.length
  bits : ∀ pos, f.getBit pos = true → g.getBit pos = true

variable {hash} {f g : BloomBits}

theorem Extends.refl (f : BloomBits) : Extends f f := ⟨rfl, rfl, rfl, fun _ h => h⟩

theorem Extends.trans {h : BloomBits} (hfg : Extends f g) (hgh : Extends g h) : Extends f h where
  bitCount := hgh.bitCount.trans hfg.bitCount
  hashCount := hgh.hashCount.trans hfg.hashCount
  length := hgh.length.trans hfg.length
  bits pos hpos := hgh.bits pos (hfg.bits pos hpos)

theorem getBit_setBit (f : BloomBits) (pos pos' : Nat) :
    (f.setBit pos).getBit pos' = if pos = pos' ∧ pos < f.bits.length then true else f.getBit pos' := by
  unfold setBit getBit
  simp only [List.getD_eq_getElem?_getD, List.getElem?_set]
  by_cases hpos : pos = pos'
  · subst hpos
    by_cases hin : pos < f.bits.length
    · simp [hin]
    · simp [hin]
  · simp [hpos]

theorem extends_setBit (f : BloomBits) (pos : Nat) : Extends f (f.setBit pos) where
  bitCount := rfl
  hashCount := rfl
  length := List.length_set
  bits pos' h := by
    rw [getBit_setBit, h]
    exact ite_self _

/-- Setting the bits of some slots. -/
theorem extends_slots (word : String) (slots : List Nat) (f : BloomBits) :
    Extends f (slots.foldl (fun f slot => f.setBit (f.position hash word slot)) f) := by
  induction slots generalizing f with
  | nil => exact Extends.refl f
  | cons slot slots ih => exact (extends_setBit f _).trans (ih _)

theorem position_extends (h : Extends f g) (word : String) (slot : Nat) :
    g.position hash word slot = f.position hash word slot := by
  unfold position
  rw [h.bitCount]

/-- The bits of the slots that were set. -/
theorem getBit_slots {word : String} {slots : List Nat} {slot : Nat} (hslot : slot ∈ slots)
    (hfull : f.bits.length = f.bitCount) (hbits : 0 < f.bitCount) :
    (slots.foldl (fun f slot => f.setBit (f.position hash word slot)) f).getBit (f.position hash word slot) = true := by
  induction slots generalizing f with
  | nil => exact absurd hslot List.not_mem_nil
  | cons slot' slots ih =>
      rw [List.foldl_cons]
      have hstep := extends_setBit f (f.position hash word slot')
      rcases List.mem_cons.mp hslot with rfl | hslot
      · refine (extends_slots word slots _).bits _ ?_
        have hin : f.position hash word slot < f.bits.length := by
          unfold position
          rw [if_neg (by omega), hfull]
          exact Nat.mod_lt _ hbits
        rw [getBit_setBit, if_pos ⟨rfl, hin⟩]
      · have hrest := ih hslot (hstep.length.trans (hfull.trans hstep.bitCount.symm)) (hstep.bitCount ▸ hbits)
        rwa [position_extends hstep] at hrest

theorem extends_insertWord (f : BloomBits) (word : String) : Extends f (f.insertWord hash word) :=
  extends_slots word _ f

theorem extends_words (words : List String) (f : BloomBits) : Extends f (words.foldl (insertWord hash) f) := by
  induction words generalizing f with
  | nil => exact Extends.refl f
  | cons word words ih => exact (extends_insertWord f word).trans (ih _)

/-- A word that is in a filter is in every filter that extends it. -/
theorem maybeContains_extends (h : Extends f g) {word : String} (hword : f.maybeContains hash word = true) :
    g.maybeContains hash word = true := by
  unfold maybeContains at hword ⊢
  rw [h.hashCount]
  refine List.all_eq_true.mpr fun slot hslot => ?_
  rw [position_extends h]
  exact h.bits _ (List.all_eq_true.mp hword slot hslot)

theorem maybeContains_insertWord (word : String) (hfull : f.bits.length = f.bitCount) (hbits : 0 < f.bitCount) :
    (f.insertWord hash word).maybeContains hash word = true := by
  have hext : Extends f (f.insertWord hash word) := extends_insertWord f word
  unfold maybeContains
  rw [hext.hashCount]
  refine List.all_eq_true.mpr fun slot hslot => ?_
  rw [position_extends hext]
  exact getBit_slots hslot hfull hbits

/-- **No word that was inserted is denied.** -/
theorem maybeContains_fromWords {words : List String} {expectedCount : Nat} {word : String} (h : word ∈ words) :
    (fromWords hash words expectedCount).maybeContains hash word = true := by
  have hall : ∀ (words : List String) (f : BloomBits), f.bits.length = f.bitCount → 0 < f.bitCount → word ∈ words →
      (words.foldl (insertWord hash) f).maybeContains hash word = true := by
    intro words
    induction words with
    | nil => exact fun _ _ _ h => absurd h List.not_mem_nil
    | cons word' words ih =>
        intro f hfull hbits h
        have hext : Extends f (f.insertWord hash word') := extends_insertWord f word'
        rcases List.mem_cons.mp h with rfl | h
        · exact maybeContains_extends (extends_words words _) (maybeContains_insertWord word hfull hbits)
        · exact ih _ (hext.length.trans (hfull.trans hext.bitCount.symm)) (hext.bitCount ▸ hbits) h
  refine hall words _ (List.length_replicate) ?_ h
  have hmin : 64 ≤ max (min u64Max (max expectedCount words.length * bloomBitsPerElement)) bloomMinBits :=
    Nat.le_max_right _ _
  show 0 < (max (min u64Max (max expectedCount words.length * bloomBitsPerElement)) bloomMinBits + 7) / 8 * 8
  omega

end BloomBits

/-! ## Skipping a bucket -/

section Pruning

variable (E : SearchPlatform) (hash : Nat → String → Nat) (expectedCount : Nat) (query : SearchQuery)
  (ftsRows : List FtsRow) (fuzzyRows : List FuzzyRow)

/-- The lowercase words of all texts of a bucket. -/
def bucketWords : List String := (ftsRows.flatMap fun row => lowercaseWordSet E row.textContent).eraseDups

/-- The bloom filter of a bucket. -/
def bucketBloom : BloomBits := BloomBits.fromWords hash (bucketWords E ftsRows) expectedCount

/-- The words of the query. -/
def queryWords : List String := lowercaseWordSet E (trim query.queryString)

/-- `merge_bucket_rows_into_by_id`. -/
def mergeBucketRowsIntoById (byId : AList fun _ : IdText => RankedResult) : AList fun _ : IdText => RankedResult :=
  (bucketHits E query ftsRows fuzzyRows).foldl mergeColdHit byId

/-- **Skipping the bucket loses nothing**: where its filter rules the query out, merging its rows changes no result. -/
def PruningSafe : Prop :=
  ∀ policy, bloomRejects E query policy (some ((bucketBloom E hash expectedCount ftsRows).maybeContains hash)) = true →
    ∀ byId, mergeBucketRowsIntoById E query ftsRows fuzzyRows byId = byId

/-- No text that passes the filters has a word of the query in it, and no message whose text passes them shares enough
n-grams with the query. -/
structure NothingMatches : Prop where
  text : ∀ row ∈ ftsRows, rowPasses query row = true → ∀ w ∈ queryWords E query,
    strContains (E.lowercase row.textContent) w = false
  fuzzy : ∀ info ∈ ftsRows, metaById ftsRows info.messageId = some info → rowPasses query info = true →
    overlapScore (tokensByScript (generateTokens E.toLowercase (trim query.queryString)))
      (matchedTokens (tokensByScript (generateTokens E.toLowercase (trim query.queryString))) fuzzyRows info.messageId) = none

end Pruning

section Safe

variable {E : SearchPlatform} {hash : Nat → String → Nat} {expectedCount : Nat} {query : SearchQuery}
  {ftsRows : List FtsRow} {fuzzyRows : List FuzzyRow}

/-- When the filter of a bucket rules the query out. -/
theorem bloomRejects_iff (policy : TenantSearchPolicy) :
    bloomRejects E query policy (some ((bucketBloom E hash expectedCount ftsRows).maybeContains hash)) = true ↔
      queryWords E query ≠ [] ∧
        ∀ w ∈ queryWords E query, (bucketBloom E hash expectedCount ftsRows).maybeContains hash w = false := by
  unfold bloomRejects queryWords
  simp only [Bool.and_eq_true, Bool.not_eq_true', List.isEmpty_eq_false_iff, List.any_eq_false, Bool.not_eq_true]

/-- Merging leaves every map alone exactly when there is nothing to merge. -/
theorem merge_unchanged_iff :
    (∀ byId, mergeBucketRowsIntoById E query ftsRows fuzzyRows byId = byId) ↔ bucketHits E query ftsRows fuzzyRows = [] := by
  unfold mergeBucketRowsIntoById
  constructor
  · intro h
    cases hhits : bucketHits E query ftsRows fuzzyRows with
    | nil => rfl
    | cons hit hits =>
        -- the first contribution is found in what an empty map becomes
        have hsame : (hit :: hits).foldl (mergeHit ColdHit.messageId (fun hit => some (coldResult hit)) addRank) ∅ = ∅ :=
          hhits ▸ h ∅
        have hentry : (((hit :: hits).foldl (mergeHit ColdHit.messageId (fun hit => some (coldResult hit)) addRank)
            ∅).lookup hit.messageId).map (fun _ => ()) = _ :=
          lookup_foldl_mergeHit (by intro r hit; rfl) (hit :: hits) hit.messageId
        rw [hsame, List.findSome?_cons, if_pos rfl] at hentry
        simp at hentry
  · intro h byId
    rw [h]
    rfl

theorem textRowHit_eq_none_iff {row : FtsRow} : textRowHit E query (queryWords E query) row = none ↔
    (rowPasses query row = true → ∀ w ∈ queryWords E query, strContains (E.lowercase row.textContent) w = false) := by
  unfold textRowHit
  dsimp only
  split_ifs with hpasses hnone
  · simp only [true_iff]
    intro _ w hw
    have hempty := List.filter_eq_nil_iff.mp (List.length_eq_zero_iff.mp hnone) w hw
    exact Bool.eq_false_iff.mpr hempty
  · simp only [false_iff]
    intro h
    refine hnone (List.length_eq_zero_iff.mpr (List.filter_eq_nil_iff.mpr fun w hw => ?_))
    rw [h hpasses w hw]
    decide
  · exact ⟨fun _ h => absurd h hpasses, fun _ => rfl⟩

/-- Without a row of a token, nothing is shared. -/
theorem overlapScore_eq_none {byScript : List (ScriptClass × List String)} {shared : ScriptClass → Nat}
    (h : ∀ s, shared s = 0) : overlapScore byScript shared = none := by
  unfold overlapScore
  dsimp only
  rw [if_neg]
  rw [List.any_eq_true]
  rintro ⟨s, -, hs⟩
  rw [decide_eq_true_iff, h, Nat.cast_zero, zero_div] at hs
  exact absurd hs (not_le.mpr (fuzzyMinOverlap_pos s.1))

/-- The script counts of an id are zero when no row of a token has it. -/
theorem matchedTokens_eq_zero {byScript : List (ScriptClass × List String)} {id : IdText}
    (h : id ∉ (fuzzyRows.filter (isQueried byScript)).map FuzzyRow.messageId) (script : ScriptClass) :
    matchedTokens byScript fuzzyRows id script = 0 := by
  unfold matchedTokens
  rw [List.length_eq_zero_iff, List.filter_eq_nil_iff]
  intro fr hfr hcounted
  simp only [Bool.and_eq_true, decide_eq_true_eq] at hcounted
  exact h (List.mem_map.mpr ⟨fr, List.mem_filter.mpr ⟨hfr, hcounted.1.1⟩, hcounted.1.2⟩)

/-- Without tokens no row is of a token. -/
theorem isQueried_eq_false {byScript : List (ScriptClass × List String)} (h : tokenCount byScript = 0) (fr : FuzzyRow) :
    isQueried byScript fr = false := by
  unfold isQueried
  refine List.any_eq_false.mpr fun s hs hqueried => ?_
  have hle : s.2.length ≤ tokenCount byScript := List.single_le_sum (by simp) _ (List.mem_map_of_mem hs)
  have hnone : s.2 = [] := List.length_eq_zero_iff.mp (by omega)
  rw [hnone] at hqueried
  simp at hqueried

/-- The fuzzy rows contribute exactly when some message shares enough n-grams and its text passes the filters. -/
theorem fuzzyBranch_eq_nil_iff : fuzzyBranch E query ftsRows fuzzyRows = [] ↔
    ∀ info ∈ ftsRows, metaById ftsRows info.messageId = some info → rowPasses query info = true →
      overlapScore (tokensByScript (generateTokens E.toLowercase (trim query.queryString)))
        (matchedTokens (tokensByScript (generateTokens E.toLowercase (trim query.queryString))) fuzzyRows
          info.messageId) = none := by
  unfold fuzzyBranch
  generalize tokensByScript (generateTokens E.toLowercase (trim query.queryString)) = byScript
  dsimp only
  -- a query without tokens scores no row
  split_ifs with hcount
  · simp only [true_iff]
    intro info _ _ _
    refine overlapScore_eq_none (matchedTokens_eq_zero fun hmem => ?_)
    obtain ⟨fr, hfr, -⟩ := List.mem_map.mp hmem
    have hqueried := (List.mem_filter.mp hfr).2
    rw [isQueried_eq_false hcount] at hqueried
    exact absurd hqueried (by decide)
  · rw [List.filterMap_eq_nil_iff]
    constructor
    · intro h info hinfo hmeta hpasses
      -- a message with a queried token gets a candidate; one without scores nothing anyway
      by_cases hmem : info.messageId ∈ (fuzzyRows.filter (isQueried byScript)).map FuzzyRow.messageId
      · have hnone := h _ (List.mem_dedup.mpr hmem)
        unfold fuzzyRowsHit at hnone
        rw [hmeta, Option.bind_some, if_pos hpasses, Option.map_eq_none_iff] at hnone
        exact hnone
      · exact overlapScore_eq_none (matchedTokens_eq_zero hmem)
    · intro h id _
      unfold fuzzyRowsHit
      cases hmeta : metaById ftsRows id with
      | none => rfl
      | some info =>
          have hmem : info ∈ ftsRows := List.mem_reverse.mp (List.mem_of_find?_eq_some hmeta)
          obtain rfl : info.messageId = id := by
            unfold metaById at hmeta
            have hfound := List.find?_some hmeta
            exact of_decide_eq_true hfound
          rw [Option.bind_some]
          split_ifs with hpasses
          · rw [h info hmem hmeta hpasses]
            rfl
          · rfl

/-- **A bucket contributes nothing** exactly when nothing in it matches. -/
theorem bucketHits_eq_nil_iff : bucketHits E query ftsRows fuzzyRows = [] ↔ NothingMatches E query ftsRows fuzzyRows := by
  rw [bucketHits_eq, List.append_eq_nil_iff, List.filterMap_eq_nil_iff, fuzzyBranch_eq_nil_iff]
  constructor
  · rintro ⟨htext, hfuzzy⟩
    exact ⟨fun row hrow => textRowHit_eq_none_iff.mp (htext row hrow), hfuzzy⟩
  · rintro ⟨htext, hfuzzy⟩
    exact ⟨fun row hrow => textRowHit_eq_none_iff.mpr (htext row hrow), hfuzzy⟩

end Safe

/-- **When the bloom filter of a bucket loses nothing.** -/
theorem bloomPruning_safe_iff (E : SearchPlatform) (hash : Nat → String → Nat) (expectedCount : Nat) (query : SearchQuery)
    (ftsRows : List FtsRow) (fuzzyRows : List FuzzyRow) :
    PruningSafe E hash expectedCount query ftsRows fuzzyRows ↔
      queryWords E query = [] ∨
      (∃ w ∈ queryWords E query, (bucketBloom E hash expectedCount ftsRows).maybeContains hash w = true) ∨
      NothingMatches E query ftsRows fuzzyRows := by
  unfold PruningSafe
  simp only [bloomRejects_iff, merge_unchanged_iff, bucketHits_eq_nil_iff]
  constructor
  · intro h
    by_cases hwords : queryWords E query = []
    · exact .inl hwords
    · refine .inr ?_
      by_cases hlets : ∃ w ∈ queryWords E query, (bucketBloom E hash expectedCount ftsRows).maybeContains hash w = true
      · exact .inl hlets
      · -- the filter rejects, so nothing may match
        refine .inr (h .default ⟨hwords, fun w hw => ?_⟩)
        exact Bool.eq_false_iff.mpr fun hin => hlets ⟨w, hw, hin⟩
  · rintro (hwords | ⟨w, hw, hin⟩ | hnothing) policy ⟨hne, hnone⟩
    · exact absurd hwords hne
    · rw [hnone w hw] at hin
      exact absurd hin (by decide)
    · exact hnothing

/-- A query with one whole word of the bucket is safe: the filter does not deny it. -/
theorem bloomPruning_safe_of_word {E : SearchPlatform} {hash : Nat → String → Nat} {expectedCount : Nat} {query : SearchQuery}
    {ftsRows : List FtsRow} {row : FtsRow} (hrow : row ∈ ftsRows) {w : String}
    (hw : w ∈ queryWords E query) (hword : w ∈ lowercaseWordSet E row.textContent) (policy : TenantSearchPolicy) :
    bloomRejects E query policy (some ((bucketBloom E hash expectedCount ftsRows).maybeContains hash)) = false := by
  have hin : (bucketBloom E hash expectedCount ftsRows).maybeContains hash w = true :=
    BloomBits.maybeContains_fromWords (List.mem_eraseDups.mpr (List.mem_flatMap.mpr ⟨row, hrow, hword⟩))
  refine Bool.eq_false_iff.mpr fun hrejects => ?_
  have hdenied := (bloomRejects_iff policy).mp hrejects
  rw [hdenied.2 w hw] at hin
  exact absurd hin (by decide)

/-- A text with a longer word than the one that is searched for. -/
def meetingRow : FtsRow := ⟨Uuid.toText ⟨1⟩, ⟨2⟩, "bob", 0, "meeting"⟩

/-- The filter knows the word of the text; the word that is searched for is a part of it. -/
theorem bloomPruning_fails : ¬ ∀ (E : SearchPlatform) (hash : Nat → String → Nat) (expectedCount : Nat) (query : SearchQuery)
    (ftsRows : List FtsRow) (fuzzyRows : List FuzzyRow), PruningSafe E hash expectedCount query ftsRows fuzzyRows := by
  intro h
  have hrejects : bloomRejects .plain meetQuery .default (some ((bucketBloom .plain
      (fun slot w => if w = "meeting" then slot else slot + 3) 8 [meetingRow]).maybeContains
        fun slot w => if w = "meeting" then slot else slot + 3)) = true := by decide +kernel
  have hnothing := merge_unchanged_iff.mp
    (h .plain (fun slot w => if w = "meeting" then slot else slot + 3) 8 meetQuery [meetingRow] [] .default hrejects)
  have hmatch : bucketHits .plain meetQuery [meetingRow] [] ≠ [] := by decide +kernel
  exact hmatch hnothing

end KChatCore.Search
