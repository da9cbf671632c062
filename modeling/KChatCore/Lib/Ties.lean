import KChatCore.Lib.Ranking

/-!
# `Lib.Ties` — when the order of a list shows in its first `n`

A stable sort leaves elements that the order cannot tell apart as it finds them. So what comes first after sorting may
depend on how the list was given, but only through such a tie between different elements, and only where the tie comes
before the limit.

* `top_unique_iff` — the first `n` are the same in every order of the list exactly where such ties are cut.
* `top_map_unique_iff` — the same, where the elements are mapped before they are sorted.
-/

namespace KChatCore.Lib

universe u v

variable {α : Type u} {le : α → α → Bool} {n : Nat} {l l' : List α}

/-- **Ties are cut**: what ties with a different element comes after `n` others. -/
def TiesCut (le : α → α → Bool) (n : Nat) (l : List α) : Prop :=
  ∀ a ∈ l, ∀ b ∈ l, le a b → le b a → a ≠ b → n ≤ l.countP fun c => !le a c

/-- Without ties nothing has to be cut. -/
theorem tiesCut_of_antisymm (hanti : ∀ a ∈ l, ∀ b ∈ l, le a b → le b a → a = b) : TiesCut le n l := by
  intro a ha b hb hab hba hne
  exact absurd (hanti a ha b hb hab hba) hne

theorem TiesCut.perm (h : TiesCut le n l) (hperm : l'.Perm l) : TiesCut le n l' := by
  intro a ha b hb hab hba hne
  rw [hperm.countP_eq]
  exact h a (hperm.mem_iff.mp ha) b (hperm.mem_iff.mp hb) hab hba hne

/-! ## Sorted lists -/

section Sorted

variable {s t : List α} {i : Nat}

/-- What comes before a place of a sorted list, and what comes after it. -/
theorem sorted_at (hrefl : ∀ a, le a a) (hs : s.Pairwise fun a b => le a b) (hi : i < s.length) :
    (∀ c ∈ s.take (i + 1), le c s[i]) ∧ ∀ c ∈ s.drop i, le s[i] c := by
  have hsplit : s = s.take i ++ s[i] :: s.drop (i + 1) := by
    rw [← List.drop_eq_getElem_cons hi, List.take_append_drop]
  rw [hsplit] at hs
  obtain ⟨-, hafter, hcross⟩ := List.pairwise_append.mp hs
  constructor
  · intro c hc
    rw [List.take_succ_eq_append_getElem hi] at hc
    rcases List.mem_append.mp hc with hc | hc
    · exact hcross c hc _ List.mem_cons_self
    · obtain rfl := List.mem_singleton.mp hc
      exact hrefl _
  · intro c hc
    rw [List.drop_eq_getElem_cons hi] at hc
    rcases List.mem_cons.mp hc with rfl | hc
    · exact hrefl _
    · exact (List.pairwise_cons.mp hafter).1 c hc

/-- At most `i` elements come before the place `i` of a sorted list. -/
theorem countP_before_le (hrefl : ∀ a, le a a) (hs : s.Pairwise fun a b => le a b) (hi : i < s.length) {p : α → Bool}
    (hp : ∀ c, le s[i] c → p c = false) : s.countP p ≤ i := by
  rw [← List.take_append_drop i s, List.countP_append]
  have hdrop : (s.drop i).countP p = 0 := by
    rw [List.countP_eq_zero]
    intro c hc
    rw [hp c ((sorted_at hrefl hs hi).2 c hc)]
    exact Bool.false_ne_true
  rw [hdrop, Nat.add_zero]
  exact List.countP_le_length.trans (List.length_take_le i s)

/-- **Two sorted lists of the same elements** tie at each place. -/
theorem le_at (htrans : ∀ a b c, le a b → le b c → le a c) (hrefl : ∀ a, le a a)
    (hs : s.Pairwise fun a b => le a b) (ht : t.Pairwise fun a b => le a b) (hperm : s.Perm t) (his : i < s.length)
    (hit : i < t.length) : le s[i] t[i] := by
  by_contra hnot
  -- `i + 1` elements of `t` come up to its place `i`, and only `i` of `s` do
  have hmany : i + 1 ≤ t.countP fun c => le c t[i] := by
    have htake : (t.take (i + 1)).countP (fun c => le c t[i]) = i + 1 := by
      rw [List.countP_eq_length.mpr (sorted_at hrefl ht hit).1, List.length_take, Nat.min_eq_left hit]
    exact htake.symm.le.trans (List.take_sublist (i + 1) t).countP_le
  have hfew : s.countP (fun c => le c t[i]) ≤ i := by
    refine countP_before_le hrefl hs his ?_
    intro c hc
    by_contra hle
    exact hnot (htrans _ _ _ hc (by simpa using hle))
  rw [hperm.countP_eq] at hfew
  omega

end Sorted

section Top

variable (htrans : ∀ a b c, le a b → le b c → le a c) (htotal : ∀ a b, le a b || le b a)

include htotal in
theorem le_refl_of_total (a : α) : le a a := by simpa using htotal a a

include htrans htotal

/-- **Where ties are cut, the order of the list does not show.** -/
theorem TiesCut.top_eq (h : TiesCut le n l) (hperm : l'.Perm l) : top le n l' = top le n l := by
  have hrefl := le_refl_of_total htotal
  have hs := List.pairwise_mergeSort htrans htotal l'
  have ht := List.pairwise_mergeSort htrans htotal l
  have hl := List.mergeSort_perm l le
  have hst : (l'.mergeSort le).Perm (l.mergeSort le) := ((List.mergeSort_perm l' le).trans hperm).trans hl.symm
  unfold top
  apply List.ext_getElem?
  intro i
  by_cases hin : i < n
  · rw [List.getElem?_take_of_lt hin, List.getElem?_take_of_lt hin]
    by_cases his : i < (l'.mergeSort le).length
    · have hit : i < (l.mergeSort le).length := hst.length_eq ▸ his
      rw [List.getElem?_eq_getElem his, List.getElem?_eq_getElem hit]
      have hle := le_at htrans hrefl hs ht hst his hit
      have hge := le_at htrans hrefl ht hs hst.symm hit his
      by_contra hne
      have hcut := (h.perm ((List.mergeSort_perm l' le).trans hperm)) _ (List.getElem_mem his) _
        (hst.mem_iff.mpr (List.getElem_mem hit)) hle hge (fun heq => hne (congrArg some heq))
      have hfew := countP_before_le (p := fun c => !le (l'.mergeSort le)[i] c) hrefl hs his fun c hc => by simp [hc]
      omega
    · have hit : ¬ i < (l.mergeSort le).length := hst.length_eq ▸ his
      rw [List.getElem?_eq_none (Nat.le_of_not_lt his), List.getElem?_eq_none (Nat.le_of_not_lt hit)]
  · rw [List.getElem?_take_eq_none (Nat.le_of_not_lt hin), List.getElem?_take_eq_none (Nat.le_of_not_lt hin)]

/-- **The head of a list comes before what ties with it.** -/
theorem find?_top_cons {a : α} (hroom : ((a :: l).countP fun c => !le a c) < n) :
    (top le n (a :: l)).find? (fun c => le a c && le c a) = some a := by
  have hs := List.pairwise_mergeSort htrans htotal (a :: l)
  have hperm := List.mergeSort_perm (a :: l) le
  have hself : (le a a && le a a) = true := by simp [le_refl_of_total htotal a]
  -- the elements that tie with the head stay in the order of the list
  have htied : (((a :: l).mergeSort le).filter fun c => le a c && le c a) = (a :: l).filter fun c => le a c && le c a := by
    have hpair : ((a :: l).filter fun c => le a c && le c a).Pairwise fun b c => le b c := by
      refine List.pairwise_of_forall_mem_list ?_
      intro b hb c hc
      have hba := (Bool.and_eq_true_iff.mp (List.mem_filter.mp hb).2).2
      exact htrans b a c hba (Bool.and_eq_true_iff.mp (List.mem_filter.mp hc).2).1
    have hsub := (List.sublist_mergeSort htrans htotal hpair List.filter_sublist).filter fun c => le a c && le c a
    rw [List.filter_filter] at hsub
    simp only [Bool.and_self] at hsub
    exact (hsub.eq_of_length (hperm.filter _).length_eq.symm).symm
  unfold top
  generalize (a :: l).mergeSort le = s at hs hperm htied ⊢
  have hcons : ((a :: l).filter fun c => le a c && le c a) = a :: l.filter fun c => le a c && le c a :=
    List.filter_cons_of_pos hself
  rw [hcons, ← List.take_append_drop n s, List.filter_append] at htied
  rw [← List.head?_filter]
  have hne : ((s.take n).filter fun c => le a c && le c a) ≠ [] := by
    intro hnone
    rw [List.filter_eq_nil_iff] at hnone
    have hdrop : a ∈ s.drop n := by
      have hmem : a ∈ s.take n ++ s.drop n := by
        rw [List.take_append_drop]
        exact hperm.mem_iff.mpr List.mem_cons_self
      refine (List.mem_append.mp hmem).resolve_left ?_
      intro htake
      exact hnone a htake hself
    -- then everything before the limit comes before the head
    rw [← List.take_append_drop n s] at hs
    have hbefore : (s.take n).countP (fun c => !le a c) = (s.take n).length := by
      refine List.countP_eq_length.mpr ?_
      intro c hc
      have hca := (List.pairwise_append.mp hs).2.2 c hc a hdrop
      simpa [hca] using hnone c hc
    have hlength : (s.take n).length = n := by
      have hlt : n < s.length := by
        by_contra hle
        rw [List.drop_eq_nil_of_le (Nat.le_of_not_lt hle)] at hdrop
        exact absurd hdrop List.not_mem_nil
      rw [List.length_take, Nat.min_eq_left hlt.le]
    have hcount := (List.take_sublist n s).countP_le (p := fun c => !le a c)
    rw [hperm.countP_eq] at hcount
    omega
  rw [← List.head?_append_of_ne_nil _ hne, htied]
  rfl

/-- **A tie that is not cut shows.** -/
theorem tiesCut_of_top_eq (h : ∀ l', l'.Perm l → top le n l' = top le n l) : TiesCut le n l := by
  intro a ha b hb hab hba hne
  by_contra hroom
  obtain ⟨rest, hrest⟩ : ∃ rest, l.Perm (a :: b :: rest) := by
    obtain ⟨s, t, rfl⟩ := List.append_of_mem ha
    have hb : b ∈ s ++ t := by
      rcases List.mem_append.mp hb with hb | hb
      · exact List.mem_append_left _ hb
      · exact List.mem_append_right _ ((List.mem_cons.mp hb).resolve_left (Ne.symm hne))
    obtain ⟨s', t', hst⟩ := List.append_of_mem hb
    refine ⟨s' ++ t', List.perm_middle.trans (List.Perm.cons a ?_)⟩
    rw [hst]
    exact List.perm_middle
  have hsame : ∀ c, le a c = le b c := by
    intro c
    rw [Bool.eq_iff_iff]
    exact ⟨htrans b a c hba, htrans a b c hab⟩
  have hsame' : ∀ c, le c a = le c b := by
    intro c
    rw [Bool.eq_iff_iff]
    exact ⟨fun hca => htrans c a b hca hab, fun hcb => htrans c b a hcb hba⟩
  have hfirst := find?_top_cons htrans htotal (a := a) (l := b :: rest) (n := n) (by
    rw [← hrest.countP_eq]
    omega)
  have hsecond := find?_top_cons htrans htotal (a := b) (l := a :: rest) (n := n) (by
    rw [(List.Perm.swap a b rest).countP_eq, ← hrest.countP_eq]
    simp only [← hsame]
    omega)
  rw [h _ hrest.symm] at hfirst
  rw [h _ ((List.Perm.swap a b rest).trans hrest.symm)] at hsecond
  simp only [hsame, hsame'] at hfirst
  exact hne (Option.some.inj (hfirst.symm.trans hsecond))

/-- **The first `n` are the same in every order of the list** exactly where ties are cut. -/
theorem top_unique_iff : (∀ l', l'.Perm l → top le n l' = top le n l) ↔ TiesCut le n l :=
  ⟨tiesCut_of_top_eq htrans htotal, fun h _ hperm => h.top_eq htrans htotal hperm⟩

end Top

/-! ## Mapped lists -/

/-- An order of the images is the image of an order. -/
theorem exists_perm_map {β : Type v} {f : α → β} {m : List β} (h : m.Perm (l.map f)) :
    ∃ l' : List α, l'.Perm l ∧ l'.map f = m := by
  induction l generalizing m with
  | nil => exact ⟨[], .nil, (List.Perm.eq_nil h).symm⟩
  | cons a l ih =>
      obtain ⟨s, t, rfl⟩ := List.append_of_mem (h.mem_iff.mpr List.mem_cons_self)
      obtain ⟨l', hl', hmap⟩ := ih (List.Perm.cons_inv (List.perm_middle.symm.trans h))
      obtain ⟨s', t', rfl, hs, ht⟩ := List.map_eq_append_iff.mp hmap
      refine ⟨s' ++ a :: t', List.perm_middle.trans (hl'.cons a), ?_⟩
      rw [List.map_append, List.map_cons, hs, ht]

/-- **The first `n` images** are the same in every order of the list exactly where ties of the images are cut. -/
theorem top_map_unique_iff {β : Type v} {le : β → β → Bool} (htrans : ∀ a b c, le a b → le b c → le a c)
    (htotal : ∀ a b, le a b || le b a) {f : α → β} :
    (∀ l' : List α, l'.Perm l → top le n (l'.map f) = top le n (l.map f)) ↔ TiesCut le n (l.map f) := by
  rw [← top_unique_iff htrans htotal]
  constructor
  · intro h m hm
    obtain ⟨l', hl', rfl⟩ := exists_perm_map hm
    exact h l' hl'
  · intro h l' hl'
    exact h _ (hl'.map f)

end KChatCore.Lib
