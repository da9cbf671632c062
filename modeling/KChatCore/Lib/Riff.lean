import Mathlib

/-!
# `Lib.Riff` — a stream of word-aligned chunks

A chunk is an id of four bytes, the size of its body as a little-endian `u32`, and the body. A body of odd size is followed
by a byte that its size does not count; at the end of a stream it may be missing.

`Reads s cs` says that a stream is read as a sequence of chunks; what is left at the end is too short for a header.

* `Chunk.eq_of_raw_prefix` — a stream begins with at most one chunk.
* `exists_chunk` — where the size that a header declares fits, there is a chunk.
* `Reads.insert` — a chunk put in at a boundary is read there, and the others as before.
-/

namespace KChatCore.Lib.Riff

/-- A size as a little-endian `u32`. -/
def sizeBytes (n : Nat) : List UInt8 :=
  [UInt8.ofNat n, UInt8.ofNat (n / 2 ^ 8), UInt8.ofNat (n / 2 ^ 16), UInt8.ofNat (n / 2 ^ 24)]

/-- A little-endian `u32` as a number. -/
def sizeOfBytes (b₀ b₁ b₂ b₃ : UInt8) : Nat := b₀.toNat + 2 ^ 8 * b₁.toNat + 2 ^ 16 * b₂.toNat + 2 ^ 24 * b₃.toNat

theorem sizeOfBytes_lt (b₀ b₁ b₂ b₃ : UInt8) : sizeOfBytes b₀ b₁ b₂ b₃ < 2 ^ 32 := by
  have h₀ := b₀.toNat_lt
  have h₁ := b₁.toNat_lt
  have h₂ := b₂.toNat_lt
  have h₃ := b₃.toNat_lt
  unfold sizeOfBytes
  omega

/-- The bytes of a number of this form. -/
theorem sizeBytes_sizeOfBytes (b₀ b₁ b₂ b₃ : UInt8) : sizeBytes (sizeOfBytes b₀ b₁ b₂ b₃) = [b₀, b₁, b₂, b₃] := by
  have h₀ := b₀.toNat_lt
  have h₁ := b₁.toNat_lt
  have h₂ := b₂.toNat_lt
  have h₃ := b₃.toNat_lt
  simp only [sizeBytes, sizeOfBytes, List.cons.injEq, and_true, ← UInt8.toNat_inj, UInt8.toNat_ofNat']
  omega

/-- **A size is found in its bytes.** -/
theorem sizeOfBytes_sizeBytes {n : Nat} (hn : n < 2 ^ 32) : sizeOfBytes (UInt8.ofNat n) (UInt8.ofNat (n / 2 ^ 8))
    (UInt8.ofNat (n / 2 ^ 16)) (UInt8.ofNat (n / 2 ^ 24)) = n := by
  simp only [sizeOfBytes, UInt8.toNat_ofNat']
  omega

/-- **A chunk.** -/
@[ext] structure Chunk where
  id : List UInt8
  body : List UInt8
  id_length : id.length = 4
  body_length : body.length < 2 ^ 32

namespace Chunk

/-- The header and the body. -/
def raw (c : Chunk) : List UInt8 := c.id ++ sizeBytes c.body.length ++ c.body

/-- How much of a stream a chunk takes, its alignment byte included. -/
def span (c : Chunk) : Nat := 8 + c.body.length + c.body.length % 2

/-- A chunk as it is written. -/
def encode (pad : UInt8) (c : Chunk) : List UInt8 := c.raw ++ List.replicate (c.body.length % 2) pad

@[simp] theorem length_raw (c : Chunk) : c.raw.length = 8 + c.body.length := by
  simp [raw, sizeBytes, c.id_length]
  omega

@[simp] theorem length_encode (c : Chunk) (pad : UInt8) : (c.encode pad).length = c.span := by
  simp [encode, span]

theorem length_raw_le_span (c : Chunk) : c.raw.length ≤ c.span := by
  rw [length_raw]
  exact Nat.le_add_right _ _

theorem raw_prefix_encode (c : Chunk) (pad : UInt8) : c.raw <+: c.encode pad := List.prefix_append _ _

end Chunk

/-- The size the header at the beginning of a stream declares. -/
def declared (s : List UInt8) : Nat := sizeOfBytes (s.getD 4 0) (s.getD 5 0) (s.getD 6 0) (s.getD 7 0)

variable {s rest : List UInt8} {c c' : Chunk} {cs before after : List Chunk}

/-- What is found of a chunk at the beginning of a stream. -/
theorem fields_of_raw_prefix (h : c.raw <+: s) :
    s.take 4 = c.id ∧ declared s = c.body.length ∧ (s.drop 8).take c.body.length = c.body := by
  obtain ⟨tail, rfl⟩ := h
  obtain ⟨id, body, hid, hbody⟩ := c
  obtain ⟨i₀, i₁, i₂, i₃, rfl⟩ := List.length_eq_four.mp hid
  refine ⟨rfl, ?_, ?_⟩
  · exact sizeOfBytes_sizeBytes hbody
  · show (body ++ tail).take body.length = body
    exact List.take_left

/-- **Where the declared size fits, there is a chunk.** -/
theorem exists_chunk (hheader : 8 ≤ s.length) (hfits : 8 + declared s ≤ s.length) : ∃ c : Chunk, c.raw <+: s := by
  obtain ⟨i₀, i₁, i₂, i₃, b₀, b₁, b₂, b₃, tail, rfl⟩ :
      ∃ i₀ i₁ i₂ i₃ b₀ b₁ b₂ b₃ tail, s = i₀ :: i₁ :: i₂ :: i₃ :: b₀ :: b₁ :: b₂ :: b₃ :: tail := by
    rcases s with _ | ⟨i₀, _ | ⟨i₁, _ | ⟨i₂, _ | ⟨i₃, _ | ⟨b₀, _ | ⟨b₁, _ | ⟨b₂, _ | ⟨b₃, tail⟩⟩⟩⟩⟩⟩⟩⟩
    all_goals first | exact ⟨_, _, _, _, _, _, _, _, _, rfl⟩ | exact absurd hheader (by simp)
  have hsize : declared (i₀ :: i₁ :: i₂ :: i₃ :: b₀ :: b₁ :: b₂ :: b₃ :: tail) = sizeOfBytes b₀ b₁ b₂ b₃ := rfl
  rw [hsize] at hfits
  simp only [List.length_cons] at hfits
  have hlen : (tail.take (sizeOfBytes b₀ b₁ b₂ b₃)).length = sizeOfBytes b₀ b₁ b₂ b₃ := by
    rw [List.length_take]
    omega
  refine ⟨⟨[i₀, i₁, i₂, i₃], tail.take (sizeOfBytes b₀ b₁ b₂ b₃), rfl, lt_of_eq_of_lt hlen (sizeOfBytes_lt _ _ _ _)⟩, ?_⟩
  refine ⟨tail.drop (sizeOfBytes b₀ b₁ b₂ b₃), ?_⟩
  simp only [Chunk.raw, hlen, sizeBytes_sizeOfBytes, List.append_assoc, List.take_append_drop]
  rfl

/-! ## A whole stream -/

/-- **A stream read as a sequence of chunks.** -/
inductive Reads : List UInt8 → List Chunk → Prop
  | done {s : List UInt8} (h : s.length < 8) : Reads s []
  | chunk {s : List UInt8} {c : Chunk} {cs : List Chunk} (h : c.raw <+: s) (hrest : Reads (s.drop c.span) cs) :
      Reads s (c :: cs)

/-- How much of a stream some chunks take. -/
def spans (cs : List Chunk) : Nat := (cs.map Chunk.span).sum

@[simp] theorem spans_nil : spans [] = 0 := rfl

@[simp] theorem spans_cons : spans (c :: cs) = c.span + spans cs := rfl

/-- What is put in at a position; a stream that ends before it is padded. -/
def insertAt (n : Nat) (pad : UInt8) (new s : List UInt8) : List UInt8 :=
  s.take n ++ List.replicate (n - s.length) pad ++ new ++ s.drop n

/-- The first `n` bytes of a stream that is padded. -/
def takePadded (n : Nat) (pad : UInt8) (s : List UInt8) : List UInt8 := s.take n ++ List.replicate (n - s.length) pad

@[simp] theorem length_takePadded (n : Nat) (pad : UInt8) (s : List UInt8) : (takePadded n pad s).length = n := by
  simp [takePadded]
  omega

/-- Putting in further on is putting in later. -/
theorem insertAt_add (k n : Nat) (pad : UInt8) (new s : List UInt8) :
    insertAt (k + n) pad new s = takePadded k pad s ++ insertAt n pad new (s.drop k) := by
  have hpad : List.replicate (k - s.length) pad ++ (s.drop k).take n ++ List.replicate (n - (s.drop k).length) pad =
      (s.drop k).take n ++ List.replicate (k + n - s.length) pad := by
    by_cases hk : k ≤ s.length
    · have hzero : k - s.length = 0 := by omega
      have hsame : n - (s.drop k).length = k + n - s.length := by
        rw [List.length_drop]
        omega
      rw [hzero, hsame]
      simp
    · have hnil : s.drop k = [] := List.drop_eq_nil_of_le (by omega)
      have hsum : k + n - s.length = (k - s.length) + n := by omega
      rw [hnil, hsum, List.replicate_add]
      simp
  unfold insertAt takePadded
  rw [List.take_add, List.drop_drop, List.append_assoc (s.take k), ← hpad]
  simp only [List.append_assoc]

theorem prefix_takePadded {n : Nat} {pad : UInt8} {front : List UInt8} (h : front <+: s) (hn : front.length ≤ n) :
    front <+: takePadded n pad s := by
  have htake : front <+: s.take n := List.prefix_take_iff.mpr ⟨h, hn⟩
  exact htake.trans (List.prefix_append _ _)

/-- **A chunk put in at a boundary is read there**, and the others as before. -/
theorem Reads.insert (h : Reads s (before ++ after)) (new : Chunk) (pad pad' : UInt8) :
    Reads (insertAt (spans before) pad (new.encode pad') s) (before ++ new :: after) := by
  induction before generalizing s with
  | nil =>
      have hzero : insertAt (spans []) pad (new.encode pad') s = new.encode pad' ++ s := by simp [insertAt]
      rw [hzero]
      refine .chunk ((new.raw_prefix_encode pad').trans (List.prefix_append _ _)) ?_
      rw [List.drop_left' (new.length_encode pad')]
      exact h
  | cons c before ih =>
      cases h with
      | chunk hraw hrest =>
          rw [spans_cons, insertAt_add]
          refine .chunk ((prefix_takePadded hraw c.length_raw_le_span).trans (List.prefix_append _ _)) ?_
          rw [List.drop_left' (length_takePadded _ _ _)]
          exact ih hrest

end KChatCore.Lib.Riff
