import Mathlib

/-!
# `Lib.Buckets` — grouping a list by a key, in key order

`buckets le key l` is what a loop pushing each `a` into an ordered map at `key a` leaves behind: the keys in
order, each with its elements in the order of `l`; elements without a key are skipped.

`lookup_buckets` says what a key finds, `buckets_sorted` in which order the buckets come. Whatever is done to the buckets next (dropping some, reordering inside
one) only ever selects elements of `l`, each at most once: `selected_nodup`, `mem_of_mem_selected`.
-/

namespace KChatCore.Lib

universe u v w

variable {α : Type u} {κ : Type v} {γ : Type w} [DecidableEq κ]

/-- **The buckets of `l` under `key`**, in key order. -/
def buckets (le : κ → κ → Bool) (key : α → Option κ) (l : List α) : List (κ × List α) :=
  ((l.filterMap key).dedup.insertionSort fun a b => le a b).map fun k => (k, l.filter fun a => key a = some k)

variable {le : κ → κ → Bool} {key : α → Option κ} {l : List α}

theorem mem_buckets {k : κ} {as : List α} (h : (k, as) ∈ buckets le key l) {a : α} :
    a ∈ as ↔ a ∈ l ∧ key a = some k := by
  unfold buckets at h
  obtain ⟨k', _, hk'⟩ := List.mem_map.mp h
  rw [Prod.mk.injEq] at hk'
  obtain ⟨rfl, rfl⟩ := hk'
  simp

/-- Every bucket has its own key. -/
theorem buckets_keys_nodup : ((buckets le key l).map Prod.fst).Nodup := by
  unfold buckets
  rw [List.map_map]
  show (List.map id _).Nodup
  rw [List.map_id]
  exact (List.perm_insertionSort _ _).nodup_iff.mpr (List.nodup_dedup _)

/-- **The buckets come in the order of their keys**, and two buckets have two keys. -/
theorem buckets_sorted [Std.Total fun a b => (le a b : Prop)] [IsTrans κ fun a b => le a b] :
    (buckets le key l).Pairwise fun p q => le p.1 q.1 ∧ p.1 ≠ q.1 := by
  have hsorted : ((buckets le key l).map Prod.fst).Pairwise fun a b => le a b := by
    unfold buckets
    rw [List.map_map]
    show (List.map id _).Pairwise _
    rw [List.map_id]
    exact List.pairwise_insertionSort _ _
  exact (List.pairwise_map.mp hsorted).and (List.pairwise_map.mp buckets_keys_nodup)

/-- A bucket is there because something fell into it. -/
theorem bucket_ne_nil {k : κ} {as : List α} (h : (k, as) ∈ buckets le key l) : as ≠ [] := by
  have hkey : k ∈ l.filterMap key := by
    unfold buckets at h
    obtain ⟨k', hk', heq⟩ := List.mem_map.mp h
    rw [Prod.mk.injEq] at heq
    obtain ⟨rfl, -⟩ := heq
    exact List.mem_dedup.mp ((List.perm_insertionSort _ _).mem_iff.mp hk')
  obtain ⟨a, ha, hak⟩ := List.mem_filterMap.mp hkey
  exact List.ne_nil_of_mem ((mem_buckets h).mpr ⟨ha, hak⟩)

/-- Whatever has a key is in the bucket of that key, with everything else that has it. -/
theorem mem_buckets_of_key {a : α} {k : κ} (ha : a ∈ l) (hk : key a = some k) :
    (k, l.filter fun b => key b = some k) ∈ buckets le key l := by
  refine List.mem_map.mpr ⟨k, ?_, rfl⟩
  rw [(List.perm_insertionSort _ _).mem_iff, List.mem_dedup]
  exact List.mem_filterMap.mpr ⟨a, ha, hk⟩

section Lookup

variable [BEq κ] [LawfulBEq κ]

/-- Looking a key up behind an entry. -/
theorem lookup_cons_ite {β : Type w} (k k' : κ) (b : β) (ps : List (κ × β)) :
    ((k', b) :: ps).lookup k = if k = k' then some b else ps.lookup k := by
  rw [List.lookup_cons]
  by_cases h : k = k'
  · simp only [beq_iff_eq.mpr h, if_pos h]
  · simp only [beq_eq_false_iff_ne.mpr h, if_neg h]

omit [DecidableEq κ] in
theorem lookup_eq_none_of_not_mem {β : Type w} {k : κ} {ps : List (κ × β)} (h : k ∉ ps.map Prod.fst) :
    ps.lookup k = none := by
  apply List.lookup_eq_none_iff.mpr
  rintro ⟨k', b⟩ hp
  refine bne_iff_ne.mpr fun heq => h ?_
  rw [heq]
  exact List.mem_map.mpr ⟨(k', b), hp, rfl⟩

theorem lookup_map_snd {β δ : Type w} (f : β → δ) (ps : List (κ × β)) (k : κ) :
    (ps.map fun p => (p.1, f p.2)).lookup k = (ps.lookup k).map f := by
  induction ps with
  | nil => rfl
  | cons p ps ih =>
      obtain ⟨k', b⟩ := p
      rw [List.map_cons, lookup_cons_ite, lookup_cons_ite, ih]
      split_ifs <;> rfl

/-- Looking a key up in the graph of a function. -/
theorem lookup_graph {β : Type w} (f : κ → β) (ks : List κ) (k : κ) :
    (ks.map fun k => (k, f k)).lookup k = if k ∈ ks then some (f k) else none := by
  induction ks with
  | nil => simp
  | cons k' ks ih =>
      rw [List.map_cons, lookup_cons_ite, ih]
      by_cases hhead : k = k'
      · subst hhead
        simp
      · simp only [List.mem_cons, hhead, false_or, if_false]

/-- **What is in the bucket of a key**, if there is one. -/
theorem lookup_buckets (k : κ) : ((buckets le key l).lookup k).getD [] = l.filter fun a => key a = some k := by
  have hmem : k ∈ (l.filterMap key).dedup.insertionSort (fun a b => le a b) ↔ k ∈ l.filterMap key := by
    rw [(List.perm_insertionSort _ _).mem_iff, List.mem_dedup]
  unfold buckets
  rw [lookup_graph]
  by_cases hk : k ∈ l.filterMap key
  · rw [if_pos (hmem.mpr hk), Option.getD_some]
  · rw [if_neg (mt hmem.mp hk), Option.getD_none, eq_comm, List.filter_eq_nil_iff]
    intro a ha hkey
    exact hk (List.mem_filterMap.mpr ⟨a, ha, of_decide_eq_true hkey⟩)

end Lookup

theorem buckets_nodup (hl : l.Nodup) : ((buckets le key l).flatMap Prod.snd).Nodup := by
  unfold buckets
  rw [List.flatMap_map, List.nodup_flatMap]
  refine ⟨fun k _ => hl.filter _, ?_⟩
  have hkeys : ((l.filterMap key).dedup.insertionSort fun a b => le a b).Nodup :=
    (List.perm_insertionSort _ _).nodup_iff.mpr (List.nodup_dedup _)
  refine hkeys.imp fun {k k'} hne => ?_
  intro a ha ha'
  simp only [List.mem_filter, decide_eq_true_eq] at ha ha'
  exact hne (Option.some.inj (ha.2.symm.trans ha'.2))

/-! ## Selecting from the buckets -/

omit [DecidableEq κ] in
/-- Keeping some buckets, each as a permutation of its elements, selects each element at most once. -/
theorem selected_subperm {members : γ → List α} {f : κ × List α → Option γ}
    (hf : ∀ p g, f p = some g → (members g).Perm p.2) (bs : List (κ × List α)) :
    ((bs.filterMap f).flatMap members).Subperm (bs.flatMap Prod.snd) := by
  induction bs with
  | nil => simp
  | cons p bs ih =>
      rw [List.filterMap_cons, List.flatMap_cons]
      cases h : f p with
      | none => exact ih.trans (List.sublist_append_right _ _).subperm
      | some g =>
          simp only [List.flatMap_cons]
          exact (hf p g h).subperm.append ih

theorem selected_nodup {members : γ → List α} {f : κ × List α → Option γ}
    (hf : ∀ p g, f p = some g → (members g).Perm p.2) (hl : l.Nodup) :
    (((buckets le key l).filterMap f).flatMap members).Nodup := by
  obtain ⟨l', hperm, hsub⟩ := selected_subperm hf (buckets le key l)
  exact hperm.nodup_iff.mp (hsub.nodup (buckets_nodup hl))

theorem mem_of_mem_selected {members : γ → List α} {f : κ × List α → Option γ}
    (hf : ∀ p g, f p = some g → (members g).Perm p.2) {a : α}
    (ha : a ∈ ((buckets le key l).filterMap f).flatMap members) : a ∈ l := by
  have hmem := (selected_subperm hf (buckets le key l)).subset ha
  obtain ⟨⟨k, as⟩, hp, has⟩ := List.mem_flatMap.mp hmem
  exact ((mem_buckets hp).mp has).1

end KChatCore.Lib
