import Mathlib

/-!
# `Lib.Weighted` — maps whose entries weigh something

`total f m` is the sum of what the entries of `m` weigh. An insert and an erase change it by one entry; the weight of a
part of the map is the total of a weight that is zero elsewhere.
-/

namespace KChatCore.Lib

universe u v

variable {κ : Type u} {β : Type v}

/-- **The sum of the weights of the entries.** -/
def total (f : κ → β → Nat) (m : AList fun _ : κ => β) : Nat := (m.entries.map fun entry => f entry.1 entry.2).sum

section Total

variable [DecidableEq κ] {f g : κ → β → Nat} {m : AList fun _ : κ => β} {k : κ} {b : β}

/-- One entry less. -/
theorem total_erase (h : m.lookup k = some b) : total f m = f k b + total f (m.erase k) := by
  have hmem : (⟨k, b⟩ : Sigma fun _ : κ => β) ∈ m.entries := AList.mem_lookup_iff.mp h
  obtain ⟨b', front, back, -, hentries, herase⟩ := List.exists_of_kerase (List.mem_keys_of_mem hmem)
  have hentry : (⟨k, b'⟩ : Sigma fun _ : κ => β) ∈ m.entries := by
    rw [hentries]
    exact List.mem_append_right _ List.mem_cons_self
  obtain rfl : b = b' := Option.some.inj (h.symm.trans (AList.mem_lookup_iff.mpr hentry))
  have herased : (m.erase k).entries = front ++ back := herase
  unfold total
  rw [hentries, herased]
  simp only [List.map_append, List.map_cons, List.sum_append, List.sum_cons]
  omega

theorem total_erase_of_none (h : m.lookup k = none) : total f (m.erase k) = total f m := by
  have hkeys : k ∉ m.entries.keys := AList.lookup_eq_none.mp h
  have herase : (m.erase k).entries = m.entries := List.kerase_of_notMem_keys hkeys
  unfold total
  rw [herase]

/-- An entry that is written over. -/
theorem total_insert_erase (b : β) : total f (m.insert k b) = f k b + total f (m.erase k) := by
  unfold total
  rw [AList.entries_insert]
  simp [AList.erase]

theorem total_mono (h : ∀ k b, m.lookup k = some b → f k b ≤ g k b) : total f m ≤ total g m := by
  unfold total
  apply List.sum_le_sum
  intro entry hentry
  exact h entry.1 entry.2 (AList.mem_lookup_iff.mpr hentry)

theorem total_congr (h : ∀ k b, m.lookup k = some b → f k b = g k b) : total f m = total g m := by
  apply le_antisymm
  · exact total_mono fun k b hb => (h k b hb).le
  · exact total_mono fun k b hb => (h k b hb).ge

theorem total_eq_zero (h : ∀ k, m.lookup k = none) : total f m = 0 := by
  have hentries : m.entries = [] := by
    rw [List.eq_nil_iff_forall_not_mem]
    intro entry hentry
    exact absurd ((h entry.1).symm.trans (AList.mem_lookup_iff.mpr hentry)) (by simp)
  unfold total
  rw [hentries]
  rfl

/-- **What is left when some keys are erased.** -/
theorem total_eraseAll (ks : List κ) :
    total f (ks.foldl (fun m k => m.erase k) m) = total (fun k b => if k ∈ ks then 0 else f k b) m := by
  induction ks generalizing m with
  | nil => exact total_congr fun k b _ => (if_neg List.not_mem_nil).symm
  | cons k ks ih =>
      rw [List.foldl_cons, ih]
      cases hentry : m.lookup k with
      | none =>
          rw [total_erase_of_none hentry]
          refine total_congr fun k' b hb => ?_
          have hne : k' ≠ k := by
            rintro rfl
            exact absurd (hb.symm.trans hentry) (by simp)
          simp only [List.mem_cons, hne, false_or]
      | some b =>
          rw [total_erase (f := fun k' b => if k' ∈ k :: ks then 0 else f k' b) hentry, if_pos List.mem_cons_self, zero_add]
          refine total_congr fun k' b hb => ?_
          have hne : k' ≠ k := by
            rintro rfl
            exact absurd hb (by simp)
          simp only [List.mem_cons, hne, false_or]

theorem lookup_eraseAll (ks : List κ) (k : κ) :
    (ks.foldl (fun m k => m.erase k) m).lookup k = if k ∈ ks then none else m.lookup k := by
  induction ks generalizing m with
  | nil => simp
  | cons k' ks ih =>
      rw [List.foldl_cons, ih]
      by_cases hk : k = k'
      · subst hk
        simp
      · rw [AList.lookup_erase_ne hk]
        simp [hk]

/-- **The total, key by key**, over a list that has each key of the map once. -/
theorem total_eq_sum {ks : List κ} (hnodup : ks.Nodup) (hmem : ∀ k, k ∈ ks ↔ ∃ b, m.lookup k = some b) :
    total f m = (ks.map fun k => ((m.lookup k).map (f k)).getD 0).sum := by
  have hkeys : ks.Perm m.keys := by
    rw [List.perm_ext_iff_of_nodup hnodup m.keys_nodup]
    intro k
    rw [hmem, ← AList.mem_keys, ← AList.lookup_isSome, Option.isSome_iff_exists]
  have hentries : m.entries.map (fun entry => f entry.1 entry.2) =
      m.keys.map fun k => ((m.lookup k).map (f k)).getD 0 := by
    unfold AList.keys List.keys
    rw [List.map_map]
    apply List.map_congr_left
    intro entry hentry
    simp [show m.lookup entry.1 = some entry.2 from AList.mem_lookup_iff.mpr hentry]
  unfold total
  rw [hentries, (hkeys.map _).sum_eq]

end Total

end KChatCore.Lib
