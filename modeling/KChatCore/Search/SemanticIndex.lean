import KChatCore.Search.Engines

/-!
# `Search.SemanticIndex` — cosine similarity, by a scan and by a graph

A scan compares the query with every candidate of its dimension. A graph holds the candidates that have the dimension of the
first one, normalised, and its search looks at no more than `efSearch` of them. Floats are exact numbers of a field with
square roots, and the graph's search is a parameter that finds the nearest points exactly.

* `cosine_l2Normalize` — normalising a vector does not change its cosine.
* `search_build` — when a graph answers as the scan does.
-/

namespace KChatCore.Search

open Lib LocalStore

variable {K : Type} [Field K] [LinearOrder K]

/-! ## Numbers and vectors -/

/-- **Square roots of exact numbers.** -/
structure ExactSqrt (K : Type) [Field K] [LinearOrder K] where
  sqrt : K → K
  sqrt_nonneg : ∀ x, 0 ≤ sqrt x
  mul_self_sqrt : ∀ x, 0 ≤ x → sqrt x * sqrt x = x

/-- `f32::from_le_bytes` of four bytes that stand for a number. -/
def f32FromLeBytes (b : Bytes) : Rat :=
  let bits := Nat.ofDigits 256 (b.map UInt8.toNat)
  let sign : Rat := if bits / 2 ^ 31 % 2 = 1 then -1 else 1
  let exponent := bits / 2 ^ 23 % 2 ^ 8
  let fraction : Rat := (bits % 2 ^ 23 : Nat)
  if exponent = 0 then sign * fraction / 2 ^ 149 else sign * (2 ^ 23 + fraction) * 2 ^ exponent / 2 ^ 150

/-- `b as i8`. -/
def i8OfByte (b : UInt8) : Int := if b.toNat < 128 then b.toNat else b.toNat - 256

/-- `dequantize_int8`: a scale, and one byte for each dimension. -/
def dequantizeInt8 (K : Type) [Field K] (blob : Bytes) : List K :=
  if blob.length < 4 then []
  else (blob.drop 4).map fun b => (((i8OfByte b : Rat) * f32FromLeBytes (blob.take 4) : Rat) : K)

/-- The sum of the products. -/
def dot (a b : List K) : K := (List.zipWith (fun x y => x * y) a b).sum

/-- The square root of the sum of the squares. -/
def norm (R : ExactSqrt K) (v : List K) : K := R.sqrt (v.map fun x => x * x).sum

/-- `1e-12`, below which a norm counts as zero. -/
def normEps (K : Type) [Field K] : K := 1 / 10 ^ 12

/-- `l2_normalize`. -/
def l2Normalize (R : ExactSqrt K) (v : List K) : List K :=
  if norm R v < normEps K then v else v.map fun x => x / norm R v

/-- `cosine`. -/
def cosine (R : ExactSqrt K) (a b : List K) : K :=
  if norm R a < normEps K ∨ norm R b < normEps K then 0 else dot a b / (norm R a * norm R b)

/-- `CosinePoint::distance`. -/
def cosineDistance (R : ExactSqrt K) (a b : List K) : K := 1 - cosine R a b

@[simp] theorem length_l2Normalize (R : ExactSqrt K) (v : List K) : (l2Normalize R v).length = v.length := by
  unfold l2Normalize
  split_ifs <;> simp

omit [LinearOrder K] in
theorem sum_map_sq_div (v : List K) (n : K) :
    ((v.map fun x => x / n).map fun x => x * x).sum = (v.map fun x => x * x).sum / (n * n) := by
  induction v with
  | nil => simp
  | cons x v ih =>
      simp only [List.map_cons, List.sum_cons] at ih ⊢
      rw [ih, div_mul_div_comm, add_div]

omit [LinearOrder K] in
theorem dot_map_div (a v : List K) (n : K) : dot a (v.map fun x => x / n) = dot a v / n := by
  unfold dot
  induction v generalizing a with
  | nil => simp
  | cons x v ih =>
      cases a with
      | nil => simp
      | cons y a =>
          simp only [List.map_cons, List.zipWith_cons_cons, List.sum_cons]
          rw [ih, ← mul_div_assoc, add_div]

section Cosine

variable [IsStrictOrderedRing K] {R : ExactSqrt K}

theorem sum_sq_nonneg (v : List K) : 0 ≤ (v.map fun x => x * x).sum :=
  List.sum_nonneg fun y hy => by
    obtain ⟨x, -, rfl⟩ := List.mem_map.mp hy
    exact mul_self_nonneg x

/-- The root of one is one. -/
theorem sqrt_one (R : ExactSqrt K) : R.sqrt 1 = 1 := by
  have hsq := R.mul_self_sqrt 1 zero_le_one
  rcases mul_self_eq_one_iff.mp hsq with h | h
  · exact h
  · have hneg := R.sqrt_nonneg 1
    rw [h] at hneg
    exact absurd hneg (by simp)

theorem normEps_pos : (0 : K) < normEps K := by
  unfold normEps
  positivity

theorem normEps_lt_one : normEps K < 1 := by
  unfold normEps
  rw [div_lt_one (by positivity)]
  norm_num

/-- A normalised vector that was not zero has norm one. -/
theorem norm_l2Normalize {v : List K} (h : ¬ norm R v < normEps K) : norm R (l2Normalize R v) = 1 := by
  have hpos : 0 < norm R v := normEps_pos.trans_le (not_lt.mp h)
  have hsq : norm R v * norm R v = (v.map fun x => x * x).sum := R.mul_self_sqrt _ (sum_sq_nonneg v)
  unfold l2Normalize
  rw [if_neg h]
  show R.sqrt (((v.map fun x => x / norm R v).map fun x => x * x).sum) = 1
  rw [sum_map_sq_div, hsq, div_self (by rw [← hsq]; positivity), sqrt_one]

/-- **Normalising does not change a cosine.** -/
theorem cosine_l2Normalize (a v : List K) : cosine R a (l2Normalize R v) = cosine R a v := by
  by_cases h : norm R v < normEps K
  · unfold l2Normalize
    rw [if_pos h]
  · have hone := norm_l2Normalize h
    unfold cosine
    by_cases ha : norm R a < normEps K
    · rw [if_pos (Or.inl ha), if_pos (Or.inl ha)]
    · rw [if_neg (not_or.mpr ⟨ha, h⟩), if_neg (not_or.mpr ⟨ha, by rw [hone]; exact not_lt.mpr normEps_lt_one.le⟩), hone]
      unfold l2Normalize
      rw [if_neg h, dot_map_div, mul_one, div_div, mul_comm (norm R v)]

end Cosine

/-! ## The scan -/

/-- A `SemanticMatch`, with an exact similarity. -/
structure CosineMatch (K : Type) where
  messageId : String
  similarity : K
deriving DecidableEq

/-- Descending similarity, then the message id. -/
def cosineLe (a b : CosineMatch K) : Bool :=
  decide (b.similarity < a.similarity) || (decide (a.similarity = b.similarity) && decide (a.messageId ≤ b.messageId))

omit [Field K] in
theorem cosineLe_trans (a b c : CosineMatch K) (hab : cosineLe a b) (hbc : cosineLe b c) : cosineLe a c := by
  simp only [cosineLe, Bool.or_eq_true, Bool.and_eq_true, decide_eq_true_eq] at hab hbc ⊢
  rcases hab with hab | ⟨hab, hid⟩ <;> rcases hbc with hbc | ⟨hbc, hid'⟩
  · exact Or.inl (hbc.trans hab)
  · exact Or.inl (hbc ▸ hab)
  · exact Or.inl (hab ▸ hbc)
  · exact Or.inr ⟨hab.trans hbc, hid.trans hid'⟩

omit [Field K] in
theorem cosineLe_total (a b : CosineMatch K) : cosineLe a b || cosineLe b a := by
  simp only [cosineLe, Bool.or_eq_true, Bool.and_eq_true, decide_eq_true_eq]
  rcases lt_trichotomy a.similarity b.similarity with h | h | h
  · exact Or.inr (Or.inl h)
  · rcases le_total a.messageId b.messageId with hid | hid
    · exact Or.inl (Or.inr ⟨h, hid⟩)
    · exact Or.inr (Or.inr ⟨h.symm, hid⟩)
  · exact Or.inl (Or.inl h)

omit [Field K] in
theorem cosineLe_antisymm (a b : CosineMatch K) (hab : cosineLe a b) (hba : cosineLe b a) : a = b := by
  simp only [cosineLe, Bool.or_eq_true, Bool.and_eq_true, decide_eq_true_eq] at hab hba
  obtain ⟨id, sim⟩ := a
  obtain ⟨id', sim'⟩ := b
  rcases hab with hab | ⟨hab, hid⟩ <;> rcases hba with hba | ⟨hba, hid'⟩
  · exact absurd hba hab.not_gt
  · exact absurd hba hab.ne
  · exact absurd hab hba.ne
  · exact congrArg₂ CosineMatch.mk (le_antisymm hid hid') hab

omit [Field K] in
theorem similarity_le_of_cosineLe {a b : CosineMatch K} (h : cosineLe a b) : b.similarity ≤ a.similarity := by
  simp only [cosineLe, Bool.or_eq_true, Bool.and_eq_true, decide_eq_true_eq] at h
  rcases h with h | ⟨h, -⟩
  · exact h.le
  · exact h.ge

/-- What the scan makes of one candidate. -/
def scored (R : ExactSqrt K) (queryEmbedding : List K) (candidate : String × Bytes) : Option (CosineMatch K) :=
  let stored := dequantizeInt8 K candidate.2
  if stored.isEmpty ∨ stored.length ≠ (l2Normalize R queryEmbedding).length then none
  else some ⟨candidate.1, cosine R (l2Normalize R queryEmbedding) stored⟩

/-- `score_candidates_brute_force`. -/
def scoreCandidatesBruteForce (R : ExactSqrt K) (queryEmbedding : List K) (candidates : List (String × Bytes)) (limit : Nat) :
    List (CosineMatch K) :=
  top cosineLe limit (candidates.filterMap (scored R queryEmbedding))

/-! ## The graph -/

/-- `HnswIndex`: the points of the graph, each with its message id. -/
structure HnswIndex (K : Type) where
  points : List (String × List K)
  pointDim : Nat

/-- The search of a graph: how many points it looks at, the points, and the query. -/
abbrev GraphSearch (K : Type) := Nat → List (String × List K) → List K → List (String × List K)

/-- **An exact search**: it finds as many points as it looks at, and none of the others is nearer. -/
def ExactNearest (R : ExactSqrt K) (nearest : GraphSearch K) : Prop :=
  ∀ width points query, ∃ others, (nearest width points query ++ others).Perm points ∧
    (nearest width points query).length = min width points.length ∧
      ∀ near ∈ nearest width points query, ∀ far ∈ others, cosineDistance R query near.2 ≤ cosineDistance R query far.2

/-- `.ef_search(128)`. -/
def efSearch : Nat := 128

/-- A row as a point, if it has the dimension of the graph. -/
def indexPoint (R : ExactSqrt K) (pointDim : Nat) (row : String × List K) : Option (String × List K) :=
  if row.2.length ≠ pointDim then none else some (row.1, l2Normalize R row.2)

/-- `HnswIndex::build`: the first row's dimension is the graph's, and rows of other dimensions are left out. -/
def HnswIndex.build (R : ExactSqrt K) : List (String × List K) → Option (HnswIndex K)
  | [] => none
  | row :: rows =>
      if row.2.length = 0 then none
      else some ⟨(row :: rows).filterMap (indexPoint R row.2.length), row.2.length⟩

/-- A point that was found, as a match. -/
def pointMatch (R : ExactSqrt K) (query : List K) (point : String × List K) : CosineMatch K :=
  ⟨point.1, 1 - cosineDistance R query point.2⟩

/-- `HnswIndex::search`. -/
def HnswIndex.search (R : ExactSqrt K) (nearest : GraphSearch K) (idx : HnswIndex K) (query : List K) (limit : Nat) :
    List (CosineMatch K) :=
  if limit = 0 ∨ query.isEmpty ∨ query.length ≠ idx.pointDim then []
  else top cosineLe limit ((nearest efSearch idx.points (l2Normalize R query)).map (pointMatch R (l2Normalize R query)))

/-- The candidates that decode to a vector. -/
def decodedRows (K : Type) [Field K] (candidates : List (String × Bytes)) : List (String × List K) :=
  candidates.filterMap fun c => if (dequantizeInt8 K c.2).isEmpty then none else some (c.1, dequantizeInt8 K c.2)

/-! ## When the graph answers as the scan does -/

/-- **The graph sees what the scan would answer**: no candidate has the query's dimension, or the first one that decodes has
it and no more candidates are as similar to the query as the last one within the limit than the search looks at. -/
def GraphSees (R : ExactSqrt K) (query : List K) (candidates : List (String × Bytes)) (limit : Nat) : Prop :=
  candidates.filterMap (scored R query) = [] ∨
    ((decodedRows K candidates).head?.map fun row => row.2.length) = some query.length ∧
      ∀ hit ∈ scoreCandidatesBruteForce R query candidates limit,
        ((candidates.filterMap (scored R query)).filter fun m => hit.similarity ≤ m.similarity).length ≤ efSearch

theorem build_eq_some {R : ExactSqrt K} {rows : List (String × List K)} {idx : HnswIndex K}
    (h : HnswIndex.build R rows = some idx) : (rows.head?.map fun row => row.2.length) = some idx.pointDim ∧
      idx.points = rows.filterMap (indexPoint R idx.pointDim) := by
  cases rows with
  | nil => exact absurd h (by simp [HnswIndex.build])
  | cons row rows =>
      simp only [HnswIndex.build] at h
      split_ifs at h with hdim
      obtain rfl := Option.some.inj h
      exact ⟨rfl, rfl⟩

section Agreement

variable [IsStrictOrderedRing K] {R : ExactSqrt K} {nearest : GraphSearch K} {query : List K}
  {candidates : List (String × Bytes)} {limit : Nat} {idx : HnswIndex K}

/-- The points of a graph of the query's dimension are the matches of the scan. -/
theorem map_pointMatch (hidx : idx.points = (decodedRows K candidates).filterMap (indexPoint R query.length)) :
    idx.points.map (pointMatch R (l2Normalize R query)) = candidates.filterMap (scored R query) := by
  rw [hidx, decodedRows, List.filterMap_filterMap, List.map_filterMap]
  refine List.filterMap_congr fun c _ => ?_
  by_cases hempty : (dequantizeInt8 K c.2).isEmpty
  · simp [scored, hempty]
  · by_cases hdim : (dequantizeInt8 K c.2).length = query.length
    · simp [scored, indexPoint, pointMatch, cosineDistance, cosine_l2Normalize, hempty, hdim]
    · simp [scored, indexPoint, hempty, hdim]

omit [IsStrictOrderedRing K] in
/-- The first row is a point of the graph. -/
theorem points_ne_nil {rows : List (String × List K)} (h : HnswIndex.build R rows = some idx) : idx.points ≠ [] := by
  obtain ⟨hdim, hpoints⟩ := build_eq_some h
  obtain ⟨row, hrow, hlen⟩ := Option.map_eq_some_iff.mp hdim
  have hpoint : (row.1, l2Normalize R row.2) ∈ idx.points := by
    rw [hpoints]
    exact List.mem_filterMap.mpr ⟨row, List.mem_of_head? hrow, by simp [indexPoint, hlen]⟩
  exact List.ne_nil_of_mem hpoint

omit [Field K] [IsStrictOrderedRing K] in
/-- **What the search leaves is not among the best**: otherwise the last of these would have more than `efSearch` matches
as similar as it is. -/
theorem not_mem_top_of_left {limit : Nat} {all kept others : List (CosineMatch K)} (hperm : (kept ++ others).Perm all)
    (hlen : kept.length = min efSearch all.length) (hnear : ∀ near ∈ kept, ∀ far ∈ others, far.similarity ≤ near.similarity)
    (hwidth : ∀ hit ∈ top cosineLe limit all, (all.filter fun m => hit.similarity ≤ m.similarity).length ≤ efSearch) :
    ∀ far ∈ others, far ∉ top cosineLe limit all := by
  intro far hfar htop
  have hcount := hwidth far htop
  have hkept : kept.filter (fun m => far.similarity ≤ m.similarity) = kept :=
    List.filter_eq_self.mpr fun near h => decide_eq_true (hnear near h far hfar)
  have hself : 0 < (others.filter fun m => far.similarity ≤ m.similarity).length :=
    List.length_pos_of_mem (List.mem_filter.mpr ⟨hfar, decide_eq_true le_rfl⟩)
  rw [← (hperm.filter _).length_eq, List.filter_append, hkept, List.length_append] at hcount
  have hall := hperm.length_eq
  rw [List.length_append] at hall
  have hothers := List.length_pos_of_mem hfar
  omega

/-- **A graph that sees the answer gives it.** -/
theorem search_build (hnearest : ExactNearest R nearest) (hlimit : limit ≠ 0) (hquery : query ≠ [])
    (hbuild : HnswIndex.build R (decodedRows K candidates) = some idx) (hsees : GraphSees R query candidates limit) :
    idx.search R nearest query limit = scoreCandidatesBruteForce R query candidates limit := by
  obtain ⟨hdim, hpoints⟩ := build_eq_some hbuild
  unfold HnswIndex.search
  rcases hsees with hnone | ⟨hfirst, hwidth⟩
  · have hbrute : scoreCandidatesBruteForce R query candidates limit = [] := by
      unfold scoreCandidatesBruteForce
      rw [hnone, top_nil]
    rw [hbrute, if_pos]
    -- the first row that decodes would be scored if it had the query's dimension
    refine Or.inr (Or.inr fun hsame => points_ne_nil hbuild ?_)
    rw [← hsame] at hpoints
    exact List.map_eq_nil_iff.mp ((map_pointMatch hpoints).trans hnone)
  · obtain hsame : query.length = idx.pointDim := Option.some.inj (hfirst.symm.trans hdim)
    rw [← hsame] at hpoints
    have hmap := map_pointMatch hpoints
    have hquery' : ¬ query.isEmpty = true := by simpa using hquery
    rw [if_neg (not_or.mpr ⟨hlimit, not_or.mpr ⟨hquery', not_not.mpr hsame⟩⟩)]
    obtain ⟨others, hperm, hlen, hnear⟩ := hnearest efSearch idx.points (l2Normalize R query)
    have hperm' := hperm.map (pointMatch R (l2Normalize R query))
    rw [List.map_append, hmap] at hperm'
    refine top_eq_of_dropped cosineLe_trans cosineLe_total cosineLe_antisymm hperm' ?_
    refine not_mem_top_of_left hperm' ?_ ?_ hwidth
    · rw [List.length_map, hlen, ← hmap, List.length_map]
    · intro near hnear' far hfar
      obtain ⟨p, hp, rfl⟩ := List.mem_map.mp hnear'
      obtain ⟨q, hq, rfl⟩ := List.mem_map.mp hfar
      exact sub_le_sub_left (hnear p hp q hq) 1

end Agreement

end KChatCore.Search
