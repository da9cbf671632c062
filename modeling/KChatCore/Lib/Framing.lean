import Mathlib

/-!
# `Lib.Framing` — a stream of frames, read one after another

A `FrameReader` reads one frame at a cursor: what the frame carries, and how many items it takes. `readAll` reads until
nothing is left. A frame `Carries` a content when it is read back wherever it stands, and not before it is whole.

Nothing here ties a frame to its neighbours, and the rules say what follows: any frames, in any order, are read; a stream
cut inside a frame is not.

* `FrameReader.readAll_flatMap` — frames in any order, however often.
* `FrameReader.readAll_prefix` — a cut stream is read exactly when the cut stands between two frames.
-/

namespace KChatCore.Lib

universe u v w

variable {ε : Type u} {α : Type v} {β : Type w}

/-- **A reader of frames**: from a cursor and what is left, the content and the size of the frame. -/
structure FrameReader (ε : Type u) (α : Type v) (β : Type w) where
  read : Nat → List α → Except ε (β × Nat)
  size_pos : ∀ cursor rest content size, read cursor rest = .ok (content, size) → 0 < size

namespace FrameReader

/-- Read frames until nothing is left. -/
def readAll (reader : FrameReader ε α β) (cursor : Nat) (rest : List α) : Except ε (List β) :=
  if rest = [] then .ok []
  else
    match _hread : reader.read cursor rest with
    | .error e => .error e
    | .ok (content, size) => (reader.readAll (cursor + size) (rest.drop size)).map (content :: ·)
termination_by rest.length
decreasing_by
  have hpos := reader.size_pos _ _ _ _ _hread
  have hlen := List.length_pos_iff.mpr ‹¬ rest = []›
  rw [List.length_drop]
  omega

/-- **A frame carries a content**: it is read back whatever follows, and no part of it is read. -/
structure Carries (reader : FrameReader ε α β) (frame : List α) (content : β) : Prop where
  whole : ∀ cursor rest, reader.read cursor (frame ++ rest) = .ok (content, frame.length)
  cut : ∀ cursor part, part <+: frame → part ≠ [] → part ≠ frame → ∃ e, reader.read cursor part = .error e

variable {reader : FrameReader ε α β}

theorem Carries.ne_nil {frame : List α} {content : β} (h : reader.Carries frame content) : frame ≠ [] := by
  have hpos := reader.size_pos _ _ _ _ (h.whole 0 [])
  exact List.ne_nil_of_length_pos hpos

@[simp] theorem readAll_nil (cursor : Nat) : reader.readAll cursor [] = .ok [] := by
  unfold readAll
  rw [if_pos rfl]

theorem readAll_of_error {cursor : Nat} {rest : List α} {e : ε} (hne : rest ≠ [])
    (h : reader.read cursor rest = .error e) : reader.readAll cursor rest = .error e := by
  unfold readAll
  rw [if_neg hne]
  split
  · rename_i e' he'
    rw [h] at he'
    rw [Except.error.inj he']
  · rename_i content size hok
    rw [h] at hok
    exact absurd hok (by simp)

/-- **The frame rule**: a frame in front is read, and reading goes on behind it. -/
theorem Carries.readAll_append {frame : List α} {content : β} (h : reader.Carries frame content) (cursor : Nat)
    (rest : List α) :
    reader.readAll cursor (frame ++ rest) = (reader.readAll (cursor + frame.length) rest).map (content :: ·) := by
  have hne : frame ++ rest ≠ [] := fun hnil => h.ne_nil (List.append_eq_nil_iff.mp hnil).1
  have hread := h.whole cursor rest
  rw [readAll, if_neg hne]
  split
  · rename_i e he
    rw [hread] at he
    exact absurd he (by simp)
  · rename_i content' size hok
    rw [hread] at hok
    obtain ⟨rfl, rfl⟩ := Prod.mk.inj (Except.ok.inj hok)
    rw [List.drop_left]

variable {ι : Type} {frame : ι → List α} {content : ι → β} {order : List ι}

/-- **Frames in any order are read in that order**, those that are missing left out, those repeated read again. -/
theorem readAll_flatMap (h : ∀ i ∈ order, reader.Carries (frame i) (content i)) (cursor : Nat) :
    reader.readAll cursor (order.flatMap frame) = .ok (order.map content) := by
  induction order generalizing cursor with
  | nil => exact readAll_nil cursor
  | cons i order ih =>
      have hrest := ih fun j hj => h j (List.mem_cons_of_mem i hj)
      rw [List.flatMap_cons, (h i List.mem_cons_self).readAll_append, hrest]
      rfl

/-- **A cut stream**: either the cut stands between two frames, and the frames before it are read, or the stream is
rejected. -/
theorem readAll_prefix (h : ∀ i ∈ order, reader.Carries (frame i) (content i)) (cursor : Nat) {part : List α}
    (hpart : part <+: order.flatMap frame) :
    (∃ k ≤ order.length, part = (order.take k).flatMap frame ∧
      reader.readAll cursor part = .ok ((order.take k).map content)) ∨
    ((∀ k, part ≠ (order.take k).flatMap frame) ∧ ∃ e, reader.readAll cursor part = .error e) := by
  induction order generalizing cursor part with
  | nil =>
      obtain rfl : part = [] := List.prefix_nil.mp hpart
      exact .inl ⟨0, le_rfl, rfl, readAll_nil cursor⟩
  | cons i order ih =>
      have hhead := h i List.mem_cons_self
      have hrest : ∀ j ∈ order, reader.Carries (frame j) (content j) := fun j hj => h j (List.mem_cons_of_mem i hj)
      rw [List.flatMap_cons] at hpart
      -- The cut stands behind the first frame, or in it.
      obtain hlong | hshort := List.prefix_or_prefix_of_prefix (List.prefix_append (frame i) (order.flatMap frame)) hpart
      · obtain ⟨behind, rfl⟩ := hlong
        have hbehind : behind <+: order.flatMap frame := (List.prefix_append_right_inj _).mp hpart
        obtain ⟨k, hk, rfl, hread⟩ | ⟨hinside, e, he⟩ := ih hrest (cursor + (frame i).length) hbehind
        · refine .inl ⟨k + 1, Nat.succ_le_succ hk, by rw [List.take_succ_cons, List.flatMap_cons], ?_⟩
          rw [hhead.readAll_append, hread]
          rfl
        · refine .inr ⟨fun k heq => ?_, e, by rw [hhead.readAll_append, he]; rfl⟩
          cases k with
          | zero => exact hhead.ne_nil (List.append_eq_nil_iff.mp heq).1
          | succ k =>
              rw [List.take_succ_cons, List.flatMap_cons] at heq
              exact hinside k (List.append_cancel_left heq)
      · by_cases hnil : part = []
        · subst hnil
          exact .inl ⟨0, Nat.zero_le _, rfl, readAll_nil cursor⟩
        by_cases hwhole : part = frame i
        · subst hwhole
          refine .inl ⟨1, by simp, by simp, ?_⟩
          have hread := hhead.readAll_append cursor []
          rw [List.append_nil, readAll_nil] at hread
          exact hread
        · obtain ⟨e, he⟩ := hhead.cut cursor part hshort hnil hwhole
          refine .inr ⟨fun k heq => ?_, e, readAll_of_error hnil he⟩
          cases k with
          | zero => exact hnil heq
          | succ k =>
              have hlong : frame i <+: part := by
                rw [heq, List.take_succ_cons, List.flatMap_cons]
                exact List.prefix_append _ _
              exact hwhole (hshort.eq_of_length_le hlong.length_le)

end FrameReader

end KChatCore.Lib
