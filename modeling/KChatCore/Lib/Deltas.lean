import Mathlib

/-!
# `Lib.Deltas` — what each of several batches adds

Batches of keys arrive one after the other, and of each batch the keys that no earlier batch had are passed on. A reader
that sees what the keys name, not the keys, is told the same name twice where two keys have it.

* `mem_flatten_deltas` — no key is lost, and none is passed on twice.
* `pairwise_deltas_iff` — no name is passed on with two batches exactly where a key that is new has a name that is new.
-/

namespace KChatCore.Lib

universe u v

variable {κ : Type u} {ν : Type v} [DecidableEq κ]

/-- The keys of a batch that were not seen. -/
def added (seen batch : List κ) : List κ := batch.filter fun k => decide (k ∉ seen)

/-- **Batch after batch.** -/
def deltas : List κ → List (List κ) → List (List κ)
  | _, [] => []
  | seen, batch :: batches => added seen batch :: deltas (seen ++ batch) batches

/-- **A key that is new has a name that is new.** -/
def NamesNew (name : κ → ν) (batches : List (List κ)) : Prop :=
  ∀ before batch after, batches = before ++ batch :: after →
    ∀ k ∈ batch, ∀ k' ∈ before.flatten, name k' = name k → k ∈ before.flatten

/-- Keys of no common name. -/
def NoCommonName (name : κ → ν) (ks ks' : List κ) : Prop := ∀ k ∈ ks, ∀ k' ∈ ks', name k ≠ name k'

@[simp] theorem mem_added {seen batch : List κ} {k : κ} : k ∈ added seen batch ↔ k ∈ batch ∧ k ∉ seen := by
  unfold added
  rw [List.mem_filter, decide_eq_true_eq]

/-- Batches that arrive later do not change what was passed on. -/
theorem deltas_concat (seen batch : List κ) (batches : List (List κ)) :
    deltas seen (batches ++ [batch]) = deltas seen batches ++ [added (seen ++ batches.flatten) batch] := by
  induction batches generalizing seen with
  | nil =>
      show [added seen batch] = [added (seen ++ []) batch]
      rw [List.append_nil]
  | cons first batches ih =>
      show added seen first :: deltas (seen ++ first) (batches ++ [batch]) = _
      rw [ih, List.append_assoc]
      rfl

/-- **Every new key is passed on.** -/
theorem mem_flatten_deltas {seen : List κ} {batches : List (List κ)} {k : κ} :
    k ∈ (deltas seen batches).flatten ↔ k ∈ batches.flatten ∧ k ∉ seen := by
  induction batches using List.reverseRecOn with
  | nil => simp [deltas]
  | append_singleton batches batch ih =>
      rw [deltas_concat, List.flatten_concat, List.flatten_concat, List.mem_append, List.mem_append, ih, mem_added,
        List.mem_append]
      constructor
      · rintro (⟨hk, hnew⟩ | ⟨hk, hnew⟩)
        · exact ⟨.inl hk, hnew⟩
        · exact ⟨.inr hk, fun hseen => hnew (.inl hseen)⟩
      · rintro ⟨hk, hnew⟩
        by_cases hearlier : k ∈ batches.flatten
        · exact .inl ⟨hearlier, hnew⟩
        · exact .inr ⟨hk.resolve_left hearlier, fun hseen => hseen.elim hnew hearlier⟩

omit [DecidableEq κ] in
/-- One more batch. -/
theorem namesNew_concat_iff {name : κ → ν} {batches : List (List κ)} {batch : List κ} :
    NamesNew name (batches ++ [batch]) ↔
      NamesNew name batches ∧ ∀ k ∈ batch, ∀ k' ∈ batches.flatten, name k' = name k → k ∈ batches.flatten := by
  constructor
  · intro h
    refine ⟨?_, h batches batch [] rfl⟩
    rintro before mid after rfl
    exact h before mid (after ++ [batch]) (by simp)
  · rintro ⟨hbatches, hbatch⟩ before mid after hsplit
    rcases List.eq_nil_or_concat after with rfl | ⟨after, last, rfl⟩
    · obtain ⟨rfl, hlast⟩ := List.append_inj' hsplit rfl
      obtain rfl := List.singleton_inj.mp hlast
      exact hbatch
    · have hinit : batches = before ++ mid :: after := by
        have hconcat : batches ++ [batch] = (before ++ mid :: after) ++ [last] := by rw [hsplit]; simp
        exact (List.append_inj' hconcat rfl).1
      exact hbatches before mid after hinit

/-- **No name is passed on with two batches** exactly where a key that is new has a name that is new. -/
theorem pairwise_deltas_iff {name : κ → ν} {batches : List (List κ)} :
    (deltas [] batches).Pairwise (NoCommonName name) ↔ NamesNew name batches := by
  induction batches using List.reverseRecOn with
  | nil =>
      refine ⟨fun _ => ?_, fun _ => List.Pairwise.nil⟩
      intro before batch after hsplit
      exact absurd hsplit.symm (by simp)
  | append_singleton batches batch ih =>
      rw [deltas_concat, List.pairwise_append, ih, namesNew_concat_iff]
      refine and_congr_right fun _ => ?_
      have hlast : (∀ ks ∈ deltas [] batches, ∀ ks' ∈ [added ([] ++ batches.flatten) batch], NoCommonName name ks ks') ↔
          ∀ k ∈ batch, ∀ k' ∈ batches.flatten, name k' = name k → k ∈ batches.flatten := by
        constructor
        · intro h k hk k' hk' hname
          by_contra hnew
          have hearlier : k' ∈ (deltas [] batches).flatten := mem_flatten_deltas.mpr ⟨hk', List.not_mem_nil⟩
          obtain ⟨ks, hks, hk'⟩ := List.mem_flatten.mp hearlier
          exact h ks hks _ List.mem_cons_self k' hk' k (mem_added.mpr ⟨hk, hnew⟩) hname
        · intro h ks hks ks' hks' k' hk' k hk hname
          obtain rfl := List.mem_singleton.mp hks'
          obtain ⟨hk, hnew⟩ := mem_added.mp hk
          have hearlier := (mem_flatten_deltas.mp (List.mem_flatten.mpr ⟨ks, hks, hk'⟩)).1
          exact hnew (h k hk k' hearlier hname)
      rw [hlast]
      exact and_iff_right (List.pairwise_singleton _ _)

end KChatCore.Lib
