import Mathlib

/-!
# `Lib.Words` — the words of a text, between separators

`words p l` are the non-empty pieces of `l` between the elements with `p`.

* `words_append_sep`, `words_of_free` — a text is cut at a separator; a text without one is one word.
* `mem_words` — a word has no separator, and stands in the text.
* `exists_word_around` — what stands in the text and has no separator is part of a word.
-/

namespace KChatCore.Lib

universe u

variable {α : Type u}

/-- **The words of a list.** -/
def words (p : α → Bool) (l : List α) : List (List α) := (l.splitOnP p).filter fun w => !w.isEmpty

variable {p : α → Bool}

@[simp] theorem words_nil : words p [] = [] := rfl

/-- A separator cuts. -/
theorem words_append_sep (a b : List α) {c : α} (hc : p c = true) : words p (a ++ c :: b) = words p a ++ words p b := by
  unfold words
  rw [List.splitOnP_append_cons a b hc, List.filter_append]

theorem words_of_free {w : List α} (hw : w ≠ []) (hfree : ∀ c ∈ w, p c = false) : words p w = [w] := by
  unfold words
  rw [List.splitOnP_eq_singleton hfree, List.filter_singleton, List.isEmpty_eq_false_iff.mpr hw]
  rfl

/-- A list is free of separators, or has a first one. -/
theorem free_or_first (p : α → Bool) (l : List α) :
    (∀ c ∈ l, p c = false) ∨ ∃ a c b, l = a ++ c :: b ∧ p c = true ∧ ∀ d ∈ a, p d = false := by
  induction l with
  | nil => exact .inl fun c hc => absurd hc List.not_mem_nil
  | cons x l ih =>
      cases hx : p x with
      | true => exact .inr ⟨[], x, l, rfl, hx, fun d hd => absurd hd List.not_mem_nil⟩
      | false =>
          rcases ih with hfree | ⟨a, c, b, rfl, hc, hfree⟩
          · exact .inl (List.forall_mem_cons.mpr ⟨hx, hfree⟩)
          · exact .inr ⟨x :: a, c, b, rfl, hc, List.forall_mem_cons.mpr ⟨hx, hfree⟩⟩

/-- A list is free of separators, or has a last one. -/
theorem free_or_last (p : α → Bool) (l : List α) :
    (∀ c ∈ l, p c = false) ∨ ∃ a c b, l = a ++ c :: b ∧ p c = true ∧ ∀ d ∈ b, p d = false := by
  rcases free_or_first p l.reverse with hfree | ⟨a, c, b, hl, hc, hfree⟩
  · exact .inl fun c hc => hfree c (List.mem_reverse.mpr hc)
  · refine .inr ⟨b.reverse, c, a.reverse, ?_, hc, fun d hd => hfree d (List.mem_reverse.mp hd)⟩
    rw [← List.reverse_reverse l, hl]
    simp

/-- **A word** is not empty, has no separator, and stands in the list. -/
theorem mem_words {l w : List α} (h : w ∈ words p l) : w ≠ [] ∧ (∀ c ∈ w, p c = false) ∧ w <:+: l := by
  induction hn : l.length using Nat.strongRecOn generalizing l with
  | ind n ih =>
      rcases free_or_first p l with hfree | ⟨a, c, b, rfl, hc, hfree⟩
      · by_cases hl : l = []
        · subst hl
          exact absurd h List.not_mem_nil
        · rw [words_of_free hl hfree, List.mem_singleton] at h
          subst h
          exact ⟨hl, hfree, List.infix_rfl⟩
      · rw [words_append_sep a b hc, List.mem_append] at h
        rcases h with h | h
        · by_cases ha : a = []
          · subst ha
            exact absurd h List.not_mem_nil
          · rw [words_of_free ha hfree, List.mem_singleton] at h
            subst h
            exact ⟨ha, hfree, (List.prefix_append w _).isInfix⟩
        · obtain ⟨hne, hsep, hin⟩ := ih b.length (by rw [← hn]; simp; omega) h rfl
          exact ⟨hne, hsep, hin.trans (List.infix_append_of_infix_right ((List.suffix_cons c b).isInfix))⟩

/-- **What has no separator is part of a word**, wherever it stands. -/
theorem exists_word_around {pre w post : List α} (hw : w ≠ []) (hfree : ∀ c ∈ w, p c = false) :
    ∃ pre' l r post', pre = pre' ++ l ∧ post = r ++ post' ∧ l ++ w ++ r ∈ words p (pre ++ w ++ post) := by
  -- the word reaches from the last separator before to the first one after
  obtain ⟨pre', l, hpre, hl, hleft⟩ : ∃ pre' l, pre = pre' ++ l ∧ (∀ c ∈ l, p c = false) ∧
      ∀ rest x, x ∈ words p (l ++ rest) → x ∈ words p (pre ++ rest) := by
    rcases free_or_last p pre with hall | ⟨a, c, b, rfl, hc, hb⟩
    · exact ⟨[], pre, rfl, hall, fun _ _ h => h⟩
    · refine ⟨a ++ [c], b, by simp, hb, fun rest x hx => ?_⟩
      rw [List.append_assoc, List.cons_append, words_append_sep a _ hc]
      exact List.mem_append_right _ hx
  obtain ⟨r, post', hpost, hr, hright⟩ : ∃ r post', post = r ++ post' ∧ (∀ c ∈ r, p c = false) ∧
      ∀ front x, x ∈ words p (front ++ r) → x ∈ words p (front ++ post) := by
    rcases free_or_first p post with hall | ⟨a, c, b, rfl, hc, ha⟩
    · exact ⟨post, [], by simp, hall, fun _ _ h => h⟩
    · refine ⟨a, c :: b, rfl, ha, fun front x hx => ?_⟩
      rw [← List.append_assoc, words_append_sep _ b hc]
      exact List.mem_append_left _ hx
  refine ⟨pre', l, r, post', hpre, hpost, ?_⟩
  have hword : l ++ w ++ r ∈ words p (l ++ w ++ r) := by
    rw [words_of_free (by simp [hw])]
    · exact List.mem_singleton_self _
    · intro c hc
      simp only [List.mem_append] at hc
      rcases hc with (hc | hc) | hc
      · exact hl c hc
      · exact hfree c hc
      · exact hr c hc
  have hafter := hright (l ++ w) _ hword
  rw [List.append_assoc] at hafter
  have hboth := hleft (w ++ post) _ hafter
  rwa [← List.append_assoc] at hboth

end KChatCore.Lib
