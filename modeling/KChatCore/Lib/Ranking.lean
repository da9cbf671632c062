import Mathlib

/-!
# `Lib.Ranking` — hits merged under their keys, and the best of them

* `top le n l` — `ORDER BY … LIMIT n`: sorted, and cut after `n`.
* `cut le n l` — what a limit of `n` leaves out; `filter_top` — nothing is lost by it where nothing of it passes.
* `stable_mergeSort` — what sorting keeps of the order it finds.
* `mergeHit` — a loop body over hits that keeps one entry for each key: a later hit adds to the entry that is there.
* `insertHits` — the loop in which a later hit replaces the entry.
* `values` — the entries without their keys; `perm_map_values`, `sum_values_lt` compare those of two maps key by key.
* `top_eq_of_perm` — the best `n` of a list in any order; `top_eq_of_dropped` — of a list from which others were dropped.

What a loop leaves is said by `lookup`, key by key.
-/

namespace KChatCore.Lib

universe u v w

variable {α : Type u}

/-! ## The best `n` -/

/-- **The first `n` in the order `le`.** -/
def top (le : α → α → Bool) (n : Nat) (l : List α) : List α := (l.mergeSort le).take n

section Top

variable {le : α → α → Bool} {n : Nat} {l : List α}

@[simp] theorem top_nil : top le n [] = [] := by simp [top]

theorem mem_of_mem_top {a : α} (h : a ∈ top le n l) : a ∈ l := List.mem_mergeSort.mp (List.mem_of_mem_take h)

/-- Nothing is cut where there are at most `n`. -/
theorem top_perm (h : l.length ≤ n) : (top le n l).Perm l := by
  unfold top
  rw [List.take_of_length_le (by rwa [List.length_mergeSort])]
  exact List.mergeSort_perm l le

theorem mem_top (h : l.length ≤ n) {a : α} : a ∈ top le n l ↔ a ∈ l := (top_perm h).mem_iff

theorem length_top_le : (top le n l).length ≤ n := List.length_take_le n _

theorem length_top_le_length : (top le n l).length ≤ l.length := by
  unfold top
  refine (List.length_take_le' _ _).trans ?_
  rw [List.length_mergeSort]

theorem nodup_map_top {β : Type v} {f : α → β} (h : (l.map f).Nodup) : ((top le n l).map f).Nodup := by
  have hsorted : ((l.mergeSort le).map f).Nodup := ((List.mergeSort_perm l le).map f).nodup_iff.mpr h
  exact hsorted.sublist ((List.take_sublist n _).map f)

/-- **The best `n` do not depend on the order in which the list is given**, where the order tells its elements apart. -/
theorem top_eq_of_perm {l' : List α} (htrans : ∀ a b c, le a b → le b c → le a c) (htotal : ∀ a b, le a b || le b a)
    (hanti : ∀ a ∈ l, ∀ b ∈ l, le a b → le b a → a = b) (h : l.Perm l') : top le n l = top le n l' := by
  have hsorted : l.mergeSort le = l'.mergeSort le := by
    have hperm : (l.mergeSort le).Perm (l'.mergeSort le) :=
      ((List.mergeSort_perm l le).trans h).trans (List.mergeSort_perm l' le).symm
    refine List.Perm.eq_of_pairwise (fun a b ha hb hab hba => ?_) (List.pairwise_mergeSort htrans htotal l)
      (List.pairwise_mergeSort htrans htotal l') hperm
    exact hanti a (List.mem_mergeSort.mp ha) b (List.mem_mergeSort.mp (hperm.mem_iff.mpr hb)) hab hba
  unfold top
  rw [hsorted]

/-- An order that looks at an image only. -/
theorem map_top {β : Type v} {le' : β → β → Bool} {f : α → β} (h : ∀ a b, le a b = le' (f a) (f b)) :
    (top le n l).map f = top le' n (l.map f) := by
  unfold top
  rw [List.map_take, List.map_mergeSort fun a _ b _ => h a b]

/-- **What comes after the first `n`.** -/
def cut (le : α → α → Bool) (n : Nat) (l : List α) : List α := (l.mergeSort le).drop n

theorem top_append_cut : top le n l ++ cut le n l = l.mergeSort le := List.take_append_drop n _

theorem top_of_length_le (h : l.length ≤ n) : top le n l = l.mergeSort le := by
  unfold top
  rw [List.take_of_length_le (by rwa [List.length_mergeSort])]

@[simp] theorem cut_nil : cut le n [] = [] := by simp [cut]

/-- A limit that leaves room for one has nothing only of nothing. -/
theorem top_eq_nil_iff (hn : 0 < n) : top le n l = [] ↔ l = [] := by
  unfold top
  rw [List.take_eq_nil_iff, or_iff_right (by omega), ← List.length_eq_zero_iff, List.length_mergeSort,
    List.length_eq_zero_iff]

/-- **A filter after a limit** is a filter without one, where nothing that is cut passes it. -/
theorem filter_top {p : α → Bool} (h : ∀ a ∈ cut le n l, p a = false) :
    (top le n l).filter p = (l.mergeSort le).filter p := by
  have hnone : (cut le n l).filter p = [] := List.filter_eq_nil_iff.mpr fun a ha => by simp [h a ha]
  rw [← top_append_cut (n := n), List.filter_append, hnone, List.append_nil]

/-- **Nothing is lost by dropping what is not among the best `n`.** -/
theorem top_eq_of_dropped [DecidableEq α] {kept dropped : List α} (htrans : ∀ a b c, le a b → le b c → le a c)
    (htotal : ∀ a b, le a b || le b a) (hanti : ∀ a b, le a b → le b a → a = b) (hperm : (kept ++ dropped).Perm l)
    (hapart : ∀ d ∈ dropped, d ∉ top le n l) : top le n kept = top le n l := by
  have hsort : (kept ++ dropped).Perm (top le n l ++ cut le n l) := by
    rw [top_append_cut]
    exact hperm.trans (List.mergeSort_perm l le).symm
  -- what is dropped is cut, so what is kept is the best `n` and the rest of what is cut
  have hcount : ∀ d ∈ dropped, dropped.count d ≤ (cut le n l).count d := by
    intro d hd
    have hcount := hsort.count_eq d
    rw [List.count_append, List.count_append, List.count_eq_zero.mpr (hapart d hd)] at hcount
    omega
  obtain ⟨rest, hrest⟩ : ∃ rest, (dropped ++ rest).Perm (cut le n l) := ⟨_, List.subperm_append_diff_self_of_count_le hcount⟩
  have hkept : kept.Perm (top le n l ++ rest) := by
    have hall : (kept ++ dropped).Perm ((top le n l ++ rest) ++ dropped) := by
      refine hsort.trans ((hrest.symm.append_left (top le n l)).trans ?_)
      rw [List.append_assoc]
      exact List.perm_append_comm.append_left _
    exact (List.perm_append_right_iff dropped).mp hall
  have hsorted := List.pairwise_mergeSort htrans htotal l
  rw [← top_append_cut (n := n), List.pairwise_append] at hsorted
  obtain ⟨htop, -, hcross⟩ := hsorted
  have hmerge : kept.mergeSort le = top le n l ++ rest.mergeSort le := by
    refine List.Perm.eq_of_pairwise (fun a b _ _ => hanti a b) (List.pairwise_mergeSort htrans htotal kept) ?_
      ((List.mergeSort_perm kept le).trans (hkept.trans ((List.mergeSort_perm rest le).symm.append_left _)))
    rw [List.pairwise_append]
    refine ⟨htop, List.pairwise_mergeSort htrans htotal rest, fun a ha b hb => hcross a ha b ?_⟩
    exact hrest.subset (List.mem_append_right _ (List.mem_mergeSort.mp hb))
  show (kept.mergeSort le).take n = top le n l
  rw [hmerge]
  by_cases hn : n ≤ l.length
  · have hlen : (top le n l).length = n := by
      show ((l.mergeSort le).take n).length = n
      rw [List.length_take, List.length_mergeSort]
      exact min_eq_left hn
    rw [List.take_append_of_le_length (le_of_eq hlen.symm), List.take_of_length_le (le_of_eq hlen)]
  · have hcut : cut le n l = [] := by
      show (l.mergeSort le).drop n = []
      exact List.drop_eq_nil_of_le (by rw [List.length_mergeSort]; omega)
    have hnil : rest = [] := by
      rw [hcut] at hrest
      exact (List.append_eq_nil_iff.mp (List.perm_nil.mp hrest)).2
    rw [hnil, List.mergeSort_nil, List.append_nil]
    exact List.take_of_length_le length_top_le

/-- **One of the best is before each**, where the limit leaves room for one. -/
theorem exists_mem_top_le (htrans : ∀ a b c, le a b → le b c → le a c) (htotal : ∀ a b, le a b || le b a) (hn : 0 < n)
    {a : α} (ha : a ∈ l) : ∃ b ∈ top le n l, le b a := by
  have hall : a ∈ top le n l ++ cut le n l := by
    rw [top_append_cut]
    exact List.mem_mergeSort.mpr ha
  rcases List.mem_append.mp hall with htop | hcut
  · exact ⟨a, htop, by simpa using htotal a a⟩
  · have hsorted := List.pairwise_mergeSort htrans htotal l
    rw [← top_append_cut (n := n), List.pairwise_append] at hsorted
    obtain ⟨b, hb⟩ := List.exists_mem_of_ne_nil _ ((top_eq_nil_iff hn).not.mpr (List.ne_nil_of_mem ha))
    exact ⟨b, hb, hsorted.2.2 b hb a hcut⟩

/-- **Sorting is stable**: what holds between elements the order cannot tell apart, in the list's own order, holds after
sorting. -/
theorem stable_mergeSort {R : α → α → Prop} (htrans : ∀ a b c, le a b → le b c → le a c)
    (htotal : ∀ a b, le a b || le b a) (h : l.Pairwise fun a b => le a b → le b a → R a b) :
    (l.mergeSort le).Pairwise fun a b => le a b ∧ (le a b → le b a → R a b) := by
  refine (List.pairwise_mergeSort htrans htotal l).and ?_
  induction l with
  | nil => simp
  | cons a l ih =>
      rw [List.pairwise_cons] at h
      obtain ⟨hhead, htail⟩ := h
      obtain ⟨before, after, hsorted, hrest, hgt⟩ := List.mergeSort_cons htrans htotal a l
      have hih := ih htail
      rw [hrest, List.pairwise_append] at hih
      obtain ⟨hbefore, hafter, hcross⟩ := hih
      rw [hsorted, List.pairwise_append, List.pairwise_cons]
      refine ⟨hbefore, ⟨fun b hb => hhead b ?_, hafter⟩, fun b hb c hc => ?_⟩
      · have hmem : b ∈ l.mergeSort le := by rw [hrest]; exact List.mem_append_right _ hb
        exact List.mem_mergeSort.mp hmem
      · rcases List.mem_cons.mp hc with rfl | hc
        · -- what comes before the head of the list is strictly smaller
          intro _ hle
          have hlt := hgt b hb
          rw [hle] at hlt
          exact absurd hlt (by simp)
        · exact hcross b hb c hc

end Top

/-- A partial function that keeps the key of its argument keeps the keys of a list distinct. -/
theorem nodup_map_filterMap {β : Type v} {κ : Type w} {f : α → Option β} {key : β → κ} {key' : α → κ}
    (hkey : ∀ a b, f a = some b → key b = key' a) {l : List α} (h : (l.map key').Nodup) :
    ((l.filterMap f).map key).Nodup := by
  have hsub : ((l.filterMap f).map key).Sublist (l.map key') := by
    clear h
    induction l with
    | nil => exact List.Sublist.slnil
    | cons a l ih =>
        rw [List.filterMap_cons, List.map_cons]
        cases hf : f a with
        | none => exact ih.cons _
        | some b =>
            rw [List.map_cons, hkey a b hf]
            exact ih.cons_cons _
  exact h.sublist hsub

/-! ## Values -/

variable {β : Type v} {κ : Type v} [DecidableEq κ]

/-- `HashMap::into_values`. -/
def values (m : AList fun _ : κ => β) : List β := m.entries.map Sigma.snd

theorem mem_values {m : AList fun _ : κ => β} {b : β} : b ∈ values m ↔ ∃ k, m.lookup k = some b := by
  unfold values
  rw [List.mem_map]
  constructor
  · rintro ⟨⟨k, b⟩, hmem, rfl⟩
    exact ⟨k, AList.mem_lookup_iff.mpr hmem⟩
  · rintro ⟨k, hk⟩
    exact ⟨⟨k, b⟩, AList.mem_lookup_iff.mp hk, rfl⟩

/-- Values that carry their key are as distinct as the keys. -/
theorem nodup_map_values {m : AList fun _ : κ => β} {name : β → κ} (h : ∀ k b, m.lookup k = some b → name b = k) :
    ((values m).map name).Nodup := by
  have hkeys : (values m).map name = m.keys := by
    unfold values AList.keys List.keys
    rw [List.map_map]
    apply List.map_congr_left
    rintro ⟨k, b⟩ hmem
    exact h k b (AList.mem_lookup_iff.mpr hmem)
  rw [hkeys]
  exact m.keys_nodup

/-- There are at most as many values as keys to choose from. -/
theorem length_values_le {m : AList fun _ : κ => β} {ks : List κ} (h : ∀ k, m.lookup k ≠ none → k ∈ ks) :
    (values m).length ≤ ks.length := by
  have hlength : (values m).length = m.keys.length := by simp [values, AList.keys, List.keys]
  rw [hlength]
  apply (m.keys_nodup.subperm _).length_le
  intro k hk
  apply h k
  rw [Ne, AList.lookup_eq_none, not_not]
  exact hk

/-- The values, by the keys. -/
theorem map_values {γ : Type w} (f : β → γ) (m : AList fun _ : κ => β) :
    (values m).map f = m.keys.filterMap fun k => (m.lookup k).map f := by
  have hentry : ∀ p ∈ m.entries, m.lookup p.1 = some p.2 := fun p hp => AList.mem_lookup_iff.mpr hp
  unfold values AList.keys List.keys
  rw [List.map_map, List.filterMap_map, ← List.filterMap_eq_map]
  apply List.filterMap_congr
  intro p hp
  simp [hentry p hp]

/-- **Maps that agree on an image, key by key, have the same values up to it**, in some order. -/
theorem perm_map_values {γ : Type w} {f : β → γ} {m m' : AList fun _ : κ => β}
    (h : ∀ k, (m.lookup k).map f = (m'.lookup k).map f) : ((values m).map f).Perm ((values m').map f) := by
  have hkeys : m.keys.Perm m'.keys := by
    rw [List.perm_ext_iff_of_nodup m.keys_nodup m'.keys_nodup]
    intro k
    rw [← AList.mem_keys, ← AList.mem_keys, ← AList.lookup_isSome, ← AList.lookup_isSome]
    have hsome := congrArg Option.isSome (h k)
    rw [Option.isSome_map, Option.isSome_map] at hsome
    rw [hsome]
  rw [map_values, map_values, List.filterMap_congr fun k _ => h k]
  exact hkeys.filterMap _

/-- **Values that grow**, key by key, and one of them strictly, have a greater sum. -/
theorem sum_values_lt {M : Type w} [AddCommMonoid M] [PartialOrder M] [IsOrderedCancelAddMonoid M] {f : β → M}
    {m m' : AList fun _ : κ => β}
    (hle : ∀ k, (m.lookup k = none ∧ m'.lookup k = none) ∨
      ∃ b b', m.lookup k = some b ∧ m'.lookup k = some b' ∧ f b ≤ f b')
    (hlt : ∃ k b b', m.lookup k = some b ∧ m'.lookup k = some b' ∧ f b < f b') :
    ((values m).map f).sum < ((values m').map f).sum := by
  have hvalues : ∀ m : AList fun _ : κ => β, (values m).map f = m.keys.map fun k => ((m.lookup k).map f).getD 0 := by
    intro m
    rw [map_values, ← List.filterMap_eq_map]
    apply List.filterMap_congr
    intro k hk
    obtain ⟨b, hb⟩ := Option.isSome_iff_exists.mp (AList.lookup_isSome.mpr (AList.mem_keys.mpr hk))
    simp [hb]
  have hkeys : m'.keys.Perm m.keys := by
    rw [List.perm_ext_iff_of_nodup m'.keys_nodup m.keys_nodup]
    intro k
    rw [← AList.mem_keys, ← AList.mem_keys, ← AList.lookup_isSome, ← AList.lookup_isSome]
    rcases hle k with ⟨hnone, hnone'⟩ | ⟨b, b', hb, hb', -⟩
    · rw [hnone, hnone']
    · rw [hb, hb']
      simp
  rw [hvalues m, hvalues m', (hkeys.map _).sum_eq]
  apply List.sum_lt_sum
  · intro k _
    rcases hle k with ⟨hnone, hnone'⟩ | ⟨b, b', hb, hb', hfb⟩
    · rw [hnone, hnone']
    · rw [hb, hb']
      exact hfb
  · obtain ⟨k, b, b', hb, hb', hfb⟩ := hlt
    refine ⟨k, AList.mem_keys.mp (AList.lookup_isSome.mp (by rw [hb]; rfl)), ?_⟩
    rw [hb, hb']
    exact hfb

/-! ## A later hit replaces the entry -/

/-- Hit after hit, each inserted under its key. -/
def insertHits (key : α → κ) (new : α → β) (m : AList fun _ : κ => β) (as : List α) : AList fun _ : κ => β :=
  as.foldl (fun m a => m.insert (key a) (new a)) m

theorem lookup_insertHits (key : α → κ) (new : α → β) (m : AList fun _ : κ => β) (as : List α) (k : κ) :
    (insertHits key new m as).lookup k = ((as.reverse.find? fun a => key a = k).map new).or (m.lookup k) := by
  unfold insertHits
  induction as generalizing m with
  | nil => simp
  | cons a as ih =>
      rw [List.foldl_cons, ih, List.reverse_cons, List.find?_append]
      by_cases hk : key a = k
      · subst hk
        cases as.reverse.find? fun a' => key a' = key a <;> simp [AList.lookup_insert]
      · rw [AList.lookup_insert_ne (Ne.symm hk)]
        cases as.reverse.find? fun a' => key a' = k <;> simp [hk]

/-- What is found was inserted. -/
theorem of_lookup_insertHits {key : α → κ} {new : α → β} {as : List α} {k : κ} {b : β}
    (h : (insertHits key new ∅ as).lookup k = some b) : ∃ a ∈ as, key a = k ∧ new a = b := by
  rw [lookup_insertHits, AList.lookup_empty, Option.or_none] at h
  obtain ⟨a, hfound, rfl⟩ := Option.map_eq_some_iff.mp h
  exact ⟨a, List.mem_reverse.mp (List.mem_of_find?_eq_some hfound), by simpa using List.find?_some hfound, rfl⟩

/-- Every inserted key is found. -/
theorem lookup_insertHits_of_mem {key : α → κ} {new : α → β} {as : List α} {a : α} (ha : a ∈ as) :
    ∃ a' ∈ as, key a' = key a ∧ (insertHits key new ∅ as).lookup (key a) = some (new a') := by
  rw [lookup_insertHits, AList.lookup_empty, Option.or_none]
  cases hfound : as.reverse.find? fun a' => key a' = key a with
  | none => exact absurd (List.find?_eq_none.mp hfound a (List.mem_reverse.mpr ha)) (by simp)
  | some a' =>
      exact ⟨a', List.mem_reverse.mp (List.mem_of_find?_eq_some hfound), by simpa using List.find?_some hfound, rfl⟩

/-! ## A later hit adds to the entry -/

/-- **One hit**: added to the entry of its key, or a new entry where the hit makes one. -/
def mergeHit (key : α → κ) (new : α → Option β) (add : β → α → β) (m : AList fun _ : κ => β) (a : α) :
    AList fun _ : κ => β :=
  match m.lookup (key a) with
  | some b => m.insert (key a) (add b a)
  | none =>
      match new a with
      | some b => m.insert (key a) b
      | none => m

section Merge

variable {key : α → κ} {new : α → Option β} {add : β → α → β} {m : AList fun _ : κ => β}

theorem lookup_mergeHit_of_ne {a : α} {k : κ} (h : key a ≠ k) : (mergeHit key new add m a).lookup k = m.lookup k := by
  unfold mergeHit
  cases m.lookup (key a) with
  | some b => exact AList.lookup_insert_ne (Ne.symm h)
  | none =>
      cases new a with
      | some b => exact AList.lookup_insert_ne (Ne.symm h)
      | none => rfl

theorem lookup_mergeHit_self (a : α) :
    (mergeHit key new add m a).lookup (key a) =
      match m.lookup (key a) with
      | some b => some (add b a)
      | none => new a := by
  unfold mergeHit
  cases hold : m.lookup (key a) with
  | some b => exact AList.lookup_insert m
  | none =>
      cases hnew : new a with
      | some b => exact AList.lookup_insert m
      | none => exact hold

/-- **What stays of an entry when hits are added**: its name is that of the entry before, or of the first hit. -/
theorem lookup_foldl_mergeHit {γ : Type w} {name : β → γ} (hadd : ∀ b a, name (add b a) = name b) (as : List α) (k : κ) :
    ((as.foldl (mergeHit key new add) m).lookup k).map name =
      ((m.lookup k).map name).or (as.findSome? fun a => if key a = k then (new a).map name else none) := by
  induction as generalizing m with
  | nil => simp
  | cons a as ih =>
      rw [List.foldl_cons, ih, List.findSome?_cons]
      by_cases hk : key a = k
      · subst hk
        rw [lookup_mergeHit_self, if_pos rfl]
        cases m.lookup (key a) with
        | some b => simp [hadd]
        | none => cases new a <;> simp
      · rw [lookup_mergeHit_of_ne hk, if_neg hk]

/-- **Hits of distinct keys**: the entry of a key is the one before, with the one hit there is for it. -/
theorem lookup_foldl_mergeHit_of_nodup {as : List α} (hnodup : (as.map key).Nodup) (k : κ) :
    (as.foldl (mergeHit key new add) m).lookup k =
      (as.find? fun a => key a = k).elim (m.lookup k) fun a => (m.lookup k).elim (new a) fun b => some (add b a) := by
  induction as generalizing m with
  | nil => rfl
  | cons a as ih =>
      rw [List.map_cons, List.nodup_cons] at hnodup
      obtain ⟨hfirst, hrest⟩ := hnodup
      rw [List.foldl_cons, ih hrest]
      by_cases hk : key a = k
      · subst hk
        have hnone : (as.find? fun a' => key a' = key a) = none :=
          List.find?_eq_none.mpr fun a' ha' heq => hfirst (List.mem_map.mpr ⟨a', ha', by simpa using heq⟩)
        rw [hnone, List.find?_cons_of_pos (by simp), Option.elim_none, Option.elim_some, lookup_mergeHit_self]
        cases m.lookup (key a) <;> rfl
      · rw [List.find?_cons_of_neg (by simpa using hk), lookup_mergeHit_of_ne hk]

end Merge

/-- Where keys are distinct, the order of a list does not matter to a search by key. -/
theorem find?_eq_of_perm {key : α → κ} {l l' : List α} (hperm : l.Perm l') (hnodup : (l.map key).Nodup) (k : κ) :
    (l.find? fun a => key a = k) = l'.find? fun a => key a = k := by
  cases hfound : l'.find? fun a => key a = k with
  | none =>
      rw [List.find?_eq_none] at hfound ⊢
      exact fun a ha => hfound a (hperm.mem_iff.mp ha)
  | some a =>
      have ha : a ∈ l := hperm.mem_iff.mpr (List.mem_of_find?_eq_some hfound)
      have hkey : key a = k := by simpa using List.find?_some hfound
      cases hfound' : l.find? fun a => key a = k with
      | none => exact absurd (List.find?_eq_none.mp hfound' a ha) (by simpa using hkey)
      | some a' =>
          have hkey' : key a' = k := by simpa using List.find?_some hfound'
          rw [List.inj_on_of_nodup_map hnodup (List.mem_of_find?_eq_some hfound') ha (hkey'.trans hkey.symm)]

end KChatCore.Lib
