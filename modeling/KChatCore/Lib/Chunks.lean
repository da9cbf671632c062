import Mathlib

/-!
# `Lib.Chunks` — a sequence cut into pieces of a fixed size

`chunk n l i` is the `i`-th piece of size `n`, as an offset and a length into `l`; only the last one may be
shorter.

* `flatten_chunks` — enough pieces are the whole sequence.
* `chunk_flatten` — pieces of the right lengths, put together, are found again at their offsets.
-/

namespace KChatCore.Lib

universe u

variable {α : Type u}

/-- The `i`-th piece. -/
def chunk (n : Nat) (l : List α) (i : Nat) : List α := (l.drop (i * n)).take n

/-- How many pieces cover the sequence: `div_ceil`. -/
def pieces (n : Nat) (l : List α) : Nat := (l.length + n - 1) / n

theorem length_chunk (n : Nat) (l : List α) (i : Nat) : (chunk n l i).length = min n (l.length - i * n) := by
  simp [chunk]

/-- The first pieces are the beginning of the sequence. -/
theorem flatMap_chunk (n : Nat) (l : List α) (k : Nat) : (List.range k).flatMap (chunk n l) = l.take (k * n) := by
  induction k with
  | zero => simp
  | succ k ih =>
      rw [List.range_succ, List.flatMap_append, ih, List.flatMap_singleton, chunk, Nat.succ_mul, List.take_add]

/-- The first pieces, put together, are cut as the sequence is. -/
theorem chunk_take {n : Nat} (l : List α) {k i : Nat} (hi : i < k) : chunk n (l.take (k * n)) i = chunk n l i := by
  have hroom : n ≤ k * n - i * n := by
    rw [← Nat.sub_mul]
    exact Nat.le_mul_of_pos_left n (Nat.sub_pos_of_lt hi)
  unfold chunk
  rw [List.drop_take, List.take_take, Nat.min_eq_left hroom]

theorem length_le_pieces_mul {n : Nat} (hn : 0 < n) (l : List α) : l.length ≤ pieces n l * n := by
  have h := Nat.div_add_mod (l.length + n - 1) n
  have hlt := Nat.mod_lt (l.length + n - 1) hn
  rw [pieces, Nat.mul_comm]
  omega

/-- **The pieces are the sequence.** -/
theorem flatten_chunks {n : Nat} (hn : 0 < n) {k : Nat} {l : List α} (hk : pieces n l ≤ k) :
    (List.range k).flatMap (chunk n l) = l := by
  rw [flatMap_chunk]
  have hmul : pieces n l * n ≤ k * n := Nat.mul_le_mul_right n hk
  exact List.take_of_length_le ((length_le_pieces_mul hn l).trans hmul)

/-- All pieces but the last are full. -/
theorem length_chunk_of_lt {n : Nat} {l : List α} {i : Nat} (hi : i + 1 < pieces n l) : (chunk n l i).length = n := by
  rw [length_chunk]
  have hmul : (i + 1) * n + n ≤ pieces n l * n := by
    have hle : i + 2 ≤ pieces n l := hi
    calc (i + 1) * n + n = (i + 2) * n := by ring
      _ ≤ pieces n l * n := Nat.mul_le_mul_right n hle
  have hdiv : pieces n l * n ≤ l.length + n - 1 := Nat.div_mul_le_self _ _
  rw [Nat.succ_mul] at hmul
  omega

/-- **Pieces that are full but for the last one are found at their offsets.** -/
theorem chunk_flatten {n : Nat} {c : Nat → List α} {k : Nat} (hfull : ∀ i, i + 1 < k → (c i).length = n)
    (hlast : ∀ i < k, (c i).length ≤ n) {i : Nat} (hi : i < k) :
    chunk n ((List.range k).flatMap c) i = c i := by
  have hfront : ∀ j ≤ i, ((List.range j).flatMap c).length = j * n := by
    intro j hj
    induction j with
    | zero => simp
    | succ j ih =>
        rw [List.range_succ, List.flatMap_append, List.length_append, ih (by omega), List.flatMap_singleton,
          hfull j (by omega)]
        ring
  obtain ⟨d, rfl⟩ : ∃ d, k = i + 1 + d := ⟨k - (i + 1), by omega⟩
  have hsplit : (List.range (i + 1 + d)).flatMap c =
      (List.range i).flatMap c ++ (c i ++ (List.range d).flatMap fun j => c (i + 1 + j)) := by
    rw [List.range_add, List.flatMap_append, List.range_succ, List.flatMap_append, List.flatMap_singleton,
      List.append_assoc, List.flatMap_map]
  rw [hsplit, chunk, ← hfront i le_rfl, List.drop_left]
  by_cases hd : d = 0
  · subst hd
    simpa using hlast i hi
  · have hlen : (c i).length = n := hfull i (by omega)
    rw [← hlen, List.take_left]

end KChatCore.Lib
