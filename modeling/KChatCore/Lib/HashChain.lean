import Mathlib

/-!
# `Lib.HashChain` — lists whose elements carry the hash of the one before

A block has a number, a hash, and the hash of its predecessor. A list of blocks is a **hash chain** when the
numbers count up and every block carries the hash of the one before it.

* `HashChain.append_singleton_iff` — a chain grows by a block linked to its last one.
* `HashChain.eq_of_getLast?_eq` — chains that start at the same number and end in the same block are equal,
  as long as no two of their blocks collide.
-/

namespace KChatCore.Lib

universe u v

/-- What linking looks at. -/
structure Block (β : Type u) (η : Type v) where
  number : β → Nat
  hash : β → η
  prev : β → η

variable {β : Type u} {η : Type v} (K : Block β η)

/-- `b` follows `a`. -/
def Block.Links (a b : β) : Prop := K.number b = K.number a + 1 ∧ K.prev b = K.hash a

/-- **A hash chain** numbered from `n` on. -/
structure HashChain (n : Nat) (l : List β) : Prop where
  linked : l.IsChain K.Links
  start : ∀ b ∈ l.head?, K.number b = n

namespace HashChain

variable {K} {n : Nat} {l l' : List β} {b : β}

/-- **A chain grows** by a block that is linked to its last one. -/
theorem append_singleton_iff :
    HashChain K n (l ++ [b]) ↔
      HashChain K n l ∧ (∀ a ∈ l.getLast?, K.Links a b) ∧ (l = [] → K.number b = n) := by
  constructor
  · rintro ⟨hlinked, hstart⟩
    obtain ⟨hl, -, hlast⟩ := List.isChain_append.mp hlinked
    refine ⟨⟨hl, ?_⟩, ?_, ?_⟩
    · intro a ha
      apply hstart
      rw [List.head?_append, Option.mem_def.mp ha]
      rfl
    · intro a ha
      exact hlast a ha b (by simp)
    · rintro rfl
      exact hstart b (by simp)
  · rintro ⟨⟨hlinked, hstart⟩, hlast, hempty⟩
    constructor
    · refine List.isChain_append.mpr ⟨hlinked, List.isChain_singleton b, ?_⟩
      intro a ha b' hb'
      obtain rfl : b = b' := by simpa using hb'
      exact hlast a ha
    · intro a ha
      rcases l with _ | ⟨x, l⟩
      · obtain rfl : b = a := by simpa using ha
        exact hempty rfl
      · exact hstart a (by simpa using ha)

/-- The last block's number gives the length. -/
theorem number_getLast? (h : HashChain K n l) {a : β} (ha : l.getLast? = some a) :
    K.number a + 1 = n + l.length := by
  induction l using List.reverseRecOn generalizing a with
  | nil => exact absurd ha (by simp)
  | append_singleton l b ih =>
      obtain rfl : b = a := by simpa using ha
      obtain ⟨hl, hlink, hempty⟩ := append_singleton_iff.mp h
      rcases hlast : l.getLast? with _ | c
      · have hnil : l = [] := List.getLast?_eq_none_iff.mp hlast
        simp [hnil, hempty hnil]
      · have hnum := ih hl hlast
        have hb := (hlink c hlast).1
        rw [List.length_append, List.length_singleton]
        omega

/-- Linked lists of one length that end alike are equal, if no two blocks collide. -/
theorem eq_of_length_eq (h : l.IsChain K.Links) (h' : l'.IsChain K.Links) (hlen : l.length = l'.length)
    (hlast : l.getLast? = l'.getLast?) (hinj : ∀ a ∈ l, ∀ b ∈ l', K.hash a = K.hash b → a = b) : l = l' := by
  induction l using List.reverseRecOn generalizing l' with
  | nil => exact (List.eq_nil_of_length_eq_zero hlen.symm).symm
  | append_singleton l b ih =>
      rcases l'.eq_nil_or_concat' with rfl | ⟨l', b', rfl⟩
      · exact absurd hlen (by simp)
      · obtain rfl : b = b' := by simpa using hlast
        obtain ⟨hl, -, hlink⟩ := List.isChain_append.mp h
        obtain ⟨hl', -, hlink'⟩ := List.isChain_append.mp h'
        have hlen' : l.length = l'.length := by simpa using hlen
        -- the predecessors of the common last block have one hash
        have hlast' : l.getLast? = l'.getLast? := by
          rcases ha : l.getLast? with _ | a
          · rw [List.getLast?_eq_none_iff.mp ha, List.length_nil] at hlen'
            rw [List.eq_nil_of_length_eq_zero hlen'.symm]
            rfl
          · rcases hc : l'.getLast? with _ | c
            · rw [List.getLast?_eq_none_iff.mp hc, List.length_nil] at hlen'
              rw [List.eq_nil_of_length_eq_zero hlen'] at ha
              exact absurd ha (by simp)
            · have hhash : K.hash a = K.hash c := (hlink a ha b rfl).2.symm.trans (hlink' c hc b rfl).2
              rw [hinj a (by simp [List.mem_of_getLast? ha]) c (by simp [List.mem_of_getLast? hc]) hhash]
        rw [ih hl hl' hlen' hlast' fun a ha c hc => hinj a (by simp [ha]) c (by simp [hc])]

/-- **A chain commits to its whole history.** -/
theorem eq_of_getLast?_eq (h : HashChain K n l) (h' : HashChain K n l') (hne : l ≠ [])
    (hlast : l.getLast? = l'.getLast?) (hinj : ∀ a ∈ l, ∀ b ∈ l', K.hash a = K.hash b → a = b) : l = l' := by
  obtain ⟨a, ha⟩ : ∃ a, l.getLast? = some a := by
    rw [← Option.ne_none_iff_exists']
    simpa using hne
  have hnum := h.number_getLast? ha
  have hnum' := h'.number_getLast? (hlast ▸ ha)
  exact eq_of_length_eq h.linked h'.linked (by omega) hlast hinj

end HashChain

end KChatCore.Lib
