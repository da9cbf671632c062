import KChatCore.Archive.Upload
import KChatCore.Lib.Framing
import KChatCore.Media.Chunker

/-!
# `Crypto.PatternC` — convergent encryption of an object, frame by frame

`encryptObjectPatternC` seals the chunks of a plaintext one by one, with an empty AAD, and writes nonce and length in front
of each; `decryptObjectPatternC` walks the frames and trusts what it reads. The layout is that of another client, byte for
byte, and has no count and no end mark: a frame stands alone.

* `frameBytes_carries` — a frame is read back wherever it stands, and a part of one is not.
* `patternC_frames_stand_alone` — the round trip; any frames of a stream decrypt to their chunks; a stream cut inside a frame
  is rejected, one cut between two frames decrypts to what stands before the cut.
-/

namespace KChatCore.Crypto

open Lib
open Archive (chunksOf sealFrame sealFrames)
open Media (AppendsTag beBytes ofBeBytes ofBeBytes_beBytes length_beBytes tagLen tagging taggingWith tagging_appendsTag)

/-- `CHUNK_HEADER_SIZE`. -/
def chunkHeaderSize : Nat := 24 + 4

/-- `effective_chunk_size`. -/
def effectiveChunkSize (chunkSize : Nat) : Nat := if chunkSize = 0 then Archive.defaultChunkSize else chunkSize

/-- `encrypt_object_pattern_c`. -/
def encryptObjectPatternC (P : Primitives) (plaintext dek : Bytes) (chunkSize : Nat) : Except CryptoError Bytes :=
  if h : dek.length = 32 then sealFrames P ⟨dek, h⟩ 0 (chunksOf (effectiveChunkSize chunkSize) plaintext)
  else .error (.invalidInput "Pattern C: DEK must be 32 bytes")

/-- The nonce at the head of a frame. -/
def nonceOf (rest : Bytes) (h : ¬ rest.length < chunkHeaderSize) : ByteArr 24 :=
  ⟨rest.take 24, List.length_take_of_le (le_trans (Nat.le_add_right 24 4) (not_lt.mp h))⟩

/-- One turn of the loop of `decrypt_object_pattern_c`: the chunk, and the size of its frame. -/
def readFrame (P : Primitives) (dek : KeyMaterial) (maxCt total cursor : Nat) (rest : Bytes) :
    Except CryptoError (Bytes × Nat) :=
  if h : rest.length < chunkHeaderSize then
    .error (.frame ("truncated frame header at offset " ++ toString cursor))
  else
    let ctLen := ofBeBytes ((rest.drop 24).take 4)
    if ctLen = 0 ∨ maxCt < ctLen then
      .error (.frame ("frame length " ++ toString ctLen ++ " out of bounds (max " ++ toString maxCt ++ ")"))
    else if rest.length < chunkHeaderSize + ctLen then
      .error (.frame ("frame body truncated: need " ++ toString (cursor + chunkHeaderSize + ctLen) ++ ", have " ++
        toString total))
    else
      match P.aeadOpen dek (nonceOf rest h) ((rest.drop chunkHeaderSize).take ctLen) [] with
      | some pt => .ok (pt, chunkHeaderSize + ctLen)
      | none => .error (.aead "Pattern C: open failed")

theorem readFrame_size_pos {P : Primitives} {dek : KeyMaterial} {maxCt total : Nat} (cursor : Nat) (rest pt : Bytes)
    (size : Nat) (h : readFrame P dek maxCt total cursor rest = .ok (pt, size)) : 0 < size := by
  unfold readFrame at h
  simp only at h
  split at h
  · exact absurd h (by simp)
  · split at h
    · exact absurd h (by simp)
    · split at h
      · exact absurd h (by simp)
      · split at h
        · obtain ⟨-, rfl⟩ := Prod.mk.inj (Except.ok.inj h)
          exact Nat.add_pos_left (by decide) _
        · exact absurd h (by simp)

/-- The frames of a stream of a given length, as `decrypt_object_pattern_c` reads them. -/
def frameReader (P : Primitives) (dek : KeyMaterial) (maxCt total : Nat) : FrameReader CryptoError UInt8 Bytes :=
  ⟨readFrame P dek maxCt total, readFrame_size_pos⟩

/-- `decrypt_object_pattern_c`. -/
def decryptObjectPatternC (P : Primitives) (ciphertext dek : Bytes) (chunkSize : Nat) : Except CryptoError Bytes :=
  if h : dek.length = 32 then
    let chunkSize := effectiveChunkSize chunkSize
    if u32Max < chunkSize + tagLen then
      .error (.frame ("chunk_size " ++ toString chunkSize ++ " exceeds u32 range"))
    else
      ((frameReader P ⟨dek, h⟩ (chunkSize + tagLen) ciphertext.length).readAll 0 ciphertext).map List.flatten
  else .error (.invalidInput "Pattern C: DEK must be 32 bytes")

/-! ## One frame -/

/-- A frame: nonce, length, sealed chunk. -/
def frameBytes (P : Primitives) (dek : KeyMaterial) (chunkIndex : Nat) (chunk : Bytes) : Bytes :=
  let nonce := P.deriveConvergentNonce dek chunkIndex
  let body := P.aeadSeal dek nonce chunk []
  nonce.toList ++ (beBytes 4 body.length ++ body)

section Frames

variable {P : Primitives} {dek : KeyMaterial} {maxCt total chunkIndex : Nat} {chunk : Bytes}

theorem length_frameBytes (htag : AppendsTag P) :
    (frameBytes P dek chunkIndex chunk).length = chunkHeaderSize + (chunk.length + tagLen) := by
  unfold frameBytes
  simp only [List.length_append, List.Vector.toList_length, length_beBytes, htag _ _ _ _, chunkHeaderSize]
  omega

/-- The length a frame states. -/
theorem ctLen_frameBytes (htag : AppendsTag P) (hfits : chunk.length + tagLen ≤ u32Max) (rest : Bytes) :
    ofBeBytes (((frameBytes P dek chunkIndex chunk ++ rest).drop 24).take 4) = chunk.length + tagLen := by
  have hdrop : (frameBytes P dek chunkIndex chunk ++ rest).drop 24 =
      beBytes 4 (chunk.length + tagLen) ++
        (P.aeadSeal dek (P.deriveConvergentNonce dek chunkIndex) chunk [] ++ rest) := by
    unfold frameBytes
    simp only [List.append_assoc, htag _ _ _ _]
    exact List.drop_left' (List.Vector.toList_length _)
  rw [hdrop, List.take_left' (length_beBytes 4 _), ofBeBytes_beBytes]
  unfold u32Max at hfits
  omega

/-- **A frame carries its chunk.** -/
theorem frameBytes_carries (htag : AppendsTag P) (hmax : chunk.length + tagLen ≤ maxCt) (hfits : maxCt ≤ u32Max) :
    (frameReader P dek maxCt total).Carries (frameBytes P dek chunkIndex chunk) chunk := by
  have hlen := @length_frameBytes P dek chunkIndex chunk htag
  have htagLen : 0 < tagLen := by decide
  constructor
  · intro cursor rest
    have hct := @ctLen_frameBytes P dek chunkIndex chunk htag (hmax.trans hfits) rest
    have hlong : ¬ (frameBytes P dek chunkIndex chunk ++ rest).length < chunkHeaderSize := by
      rw [List.length_append]
      omega
    have hnonce : nonceOf (frameBytes P dek chunkIndex chunk ++ rest) hlong = P.deriveConvergentNonce dek chunkIndex := by
      apply Subtype.ext
      show ((_ ++ _) ++ rest).take 24 = _
      rw [List.append_assoc]
      exact List.take_left' (List.Vector.toList_length _)
    have hbody : ((frameBytes P dek chunkIndex chunk ++ rest).drop chunkHeaderSize).take (chunk.length + tagLen) =
        P.aeadSeal dek (P.deriveConvergentNonce dek chunkIndex) chunk [] := by
      unfold frameBytes
      simp only
      rw [← List.append_assoc, List.append_assoc, List.drop_left' (by simp [chunkHeaderSize])]
      exact List.take_left' (htag _ _ _ _)
    show readFrame P dek maxCt total cursor _ = _
    unfold readFrame
    rw [dif_neg hlong]
    simp only [hct, hnonce, hbody, P.aeadOpen_aeadSeal]
    rw [if_neg (by omega), if_neg (by rw [List.length_append]; omega), hlen]
  · intro cursor part hpart _ hne
    obtain ⟨missing, hframe⟩ := hpart
    have hshort : part.length < (frameBytes P dek chunkIndex chunk).length := by
      rw [← hframe, List.length_append]
      have hmissing : missing ≠ [] := by
        rintro rfl
        exact hne (by rw [← hframe, List.append_nil])
      have hpos := List.length_pos_iff.mpr hmissing
      omega
    show ∃ e, readFrame P dek maxCt total cursor part = _
    unfold readFrame
    by_cases hheader : part.length < chunkHeaderSize
    · rw [dif_pos hheader]
      exact ⟨_, rfl⟩
    · -- The header is whole, so the stated length is the frame's, and the body is too short for it.
      have hct : ofBeBytes ((part.drop 24).take 4) = chunk.length + tagLen := by
        have hwhole := @ctLen_frameBytes P dek chunkIndex chunk htag (hmax.trans hfits) []
        have hroom : 4 ≤ (part.drop 24).length := by
          rw [List.length_drop]
          unfold chunkHeaderSize at hheader
          omega
        rw [List.append_nil, ← hframe, List.drop_append_of_le_length (by unfold chunkHeaderSize at hheader; omega),
          List.take_append_of_le_length hroom] at hwhole
        exact hwhole
      rw [dif_neg hheader]
      simp only [hct]
      rw [if_neg (by omega), if_pos (by omega)]
      exact ⟨_, rfl⟩

end Frames

/-! ## The chunks of an object -/

/-- Cutting up to a place and from there on. -/
theorem toChunksAux_eq (n : Nat) (l : Bytes) (i : Nat) :
    List.toChunksAux n l i = (l.take i, (List.toChunksAux n (l.drop i) 0).2) := by
  induction l generalizing i with
  | nil => simp [List.toChunksAux]
  | cons x l ih =>
      cases i with
      | zero => rfl
      | succ i =>
          show (x :: (List.toChunksAux n l i).1, (List.toChunksAux n l i).2) = _
          rw [ih i]
          rfl

/-- The first chunk and the others. -/
theorem chunksOf_of_ne_nil {n : Nat} (hn : 0 < n) {l : Bytes} (hne : l ≠ []) :
    chunksOf n l = l.take n :: chunksOf n (l.drop n) := by
  obtain ⟨x, l, rfl⟩ := List.exists_cons_of_ne_nil hne
  obtain ⟨n, rfl⟩ := Nat.exists_eq_succ_of_ne_zero (Nat.pos_iff_ne_zero.mp hn)
  show (x :: (List.toChunksAux n l n).1) :: (List.toChunksAux n l n).2 = _
  rw [toChunksAux_eq]
  rfl

theorem pieces_of_ne_nil {n : Nat} (hn : 0 < n) {l : Bytes} (hne : l ≠ []) :
    pieces n l = pieces n (l.drop n) + 1 := by
  have hlen := List.length_pos_iff.mpr hne
  have hsplit : l.length + n - 1 = (l.length - 1) + n := by omega
  unfold pieces
  rw [hsplit, Nat.add_div_right _ hn, List.length_drop]
  by_cases hlong : n ≤ l.length
  · congr 2
    omega
  · rw [Nat.div_eq_of_lt (by omega), Nat.div_eq_of_lt (by omega)]

/-- **The chunks are the pieces of the plaintext**, in order. -/
theorem chunksOf_eq {n : Nat} (hn : 0 < n) (l : Bytes) : chunksOf n l = (List.range (pieces n l)).map (chunk n l) := by
  induction hk : pieces n l generalizing l with
  | zero =>
      have hnil : l = [] := by
        by_contra hne
        rw [pieces_of_ne_nil hn hne] at hk
        exact absurd hk (Nat.succ_ne_zero _)
      subst hnil
      rfl
  | succ k ih =>
      have hne : l ≠ [] := by
        rintro rfl
        unfold pieces at hk
        rw [Nat.div_eq_of_lt (by simp; omega)] at hk
        exact absurd hk (by simp)
      have hrest : pieces n (l.drop n) = k := by
        rw [pieces_of_ne_nil hn hne] at hk
        exact Nat.succ.inj hk
      rw [chunksOf_of_ne_nil hn hne, ih (l.drop n) hrest, List.range_succ_eq_map, List.map_cons, List.map_map]
      congr 1
      · simp [chunk]
      · refine List.map_congr_left fun i _ => ?_
        simp only [Function.comp_apply, chunk, List.drop_drop, Nat.succ_mul, Nat.add_comm]

/-! ## The stream -/

section Stream

variable {P : Primitives} {plaintext : Bytes} {dek : KeyMaterial} {chunkSize : Nat}

/-- The piece of the plaintext that a frame seals. -/
def chunkAt (plaintext : Bytes) (chunkSize chunkIndex : Nat) : Bytes :=
  chunk (effectiveChunkSize chunkSize) plaintext chunkIndex

/-- The frame of a piece. -/
def frameAt (P : Primitives) (plaintext : Bytes) (dek : KeyMaterial) (chunkSize chunkIndex : Nat) : Bytes :=
  frameBytes P dek chunkIndex (chunkAt plaintext chunkSize chunkIndex)

/-- How many frames a plaintext takes. -/
def frameCount (plaintext : Bytes) (chunkSize : Nat) : Nat := pieces (effectiveChunkSize chunkSize) plaintext

theorem effectiveChunkSize_pos (chunkSize : Nat) : 0 < effectiveChunkSize chunkSize := by
  unfold effectiveChunkSize
  by_cases h : chunkSize = 0
  · rw [if_pos h]
    decide
  · rw [if_neg h]
    exact Nat.pos_of_ne_zero h

theorem length_chunkAt_le (chunkIndex : Nat) :
    (chunkAt plaintext chunkSize chunkIndex).length ≤ effectiveChunkSize chunkSize := by
  unfold chunkAt
  rw [length_chunk]
  exact Nat.min_le_left _ _

/-- Frames from an index on, where every length fits its field. -/
theorem sealFrames_of_fits {chunks : List Bytes} {chunkIndex : Nat}
    (hfits : ∀ c ∈ chunks, ∀ i, (P.aeadSeal dek (P.deriveConvergentNonce dek i) c []).length ≤ u32Max) :
    sealFrames P dek chunkIndex chunks = .ok ((chunks.zipIdx chunkIndex).flatMap fun c => frameBytes P dek c.2 c.1) := by
  induction chunks generalizing chunkIndex with
  | nil => rfl
  | cons c chunks ih =>
      have hrest : sealFrames P dek (chunkIndex + 1) chunks = _ := ih fun d hd => hfits d (List.mem_cons_of_mem c hd)
      have hframe : sealFrame P dek chunkIndex c = .ok (frameBytes P dek chunkIndex c) := by
        unfold sealFrame
        simp only
        rw [if_neg (not_lt.mpr (hfits c List.mem_cons_self chunkIndex)), List.append_assoc]
        rfl
      show sealFrame P dek chunkIndex c >>= _ = _
      rw [hframe]
      show sealFrames P dek (chunkIndex + 1) chunks >>= _ = _
      rw [hrest]
      rfl

/-- **What is encrypted**: the frames, one for each piece. -/
theorem encryptObjectPatternC_eq_ok (htag : AppendsTag P) (hrange : effectiveChunkSize chunkSize + tagLen ≤ u32Max) :
    encryptObjectPatternC P plaintext dek.toList chunkSize =
      .ok ((List.range (frameCount plaintext chunkSize)).flatMap (frameAt P plaintext dek chunkSize)) := by
  have hdek : dek.toList.length = 32 := List.Vector.toList_length _
  unfold encryptObjectPatternC
  rw [dif_pos hdek, chunksOf_eq (effectiveChunkSize_pos chunkSize)]
  have hfits : ∀ c ∈ (List.range (pieces (effectiveChunkSize chunkSize) plaintext)).map
      (chunk (effectiveChunkSize chunkSize) plaintext),
      ∀ i, (P.aeadSeal dek (P.deriveConvergentNonce dek i) c []).length ≤ u32Max := by
    intro c hc i
    obtain ⟨j, -, rfl⟩ := List.mem_map.mp hc
    have hle : (chunk (effectiveChunkSize chunkSize) plaintext j).length ≤ effectiveChunkSize chunkSize :=
      length_chunkAt_le j
    rw [htag]
    omega
  have hzip : ((List.range (pieces (effectiveChunkSize chunkSize) plaintext)).map
      (chunk (effectiveChunkSize chunkSize) plaintext)).zipIdx =
      (List.range (pieces (effectiveChunkSize chunkSize) plaintext)).map
        fun i => (chunk (effectiveChunkSize chunkSize) plaintext i, i) := by
    apply List.ext_getElem
    · simp
    · intro i _ _
      simp
  have hframes := @sealFrames_of_fits P dek _ 0 hfits
  rw [hzip, List.flatMap_map] at hframes
  exact hframes

/-- Decryption of a stream, in terms of its frames. -/
theorem decryptObjectPatternC_eq (hrange : effectiveChunkSize chunkSize + tagLen ≤ u32Max) (ciphertext : Bytes) :
    decryptObjectPatternC P ciphertext dek.toList chunkSize =
      ((frameReader P dek (effectiveChunkSize chunkSize + tagLen) ciphertext.length).readAll 0 ciphertext).map
        List.flatten := by
  have hdek : dek.toList.length = 32 := List.Vector.toList_length _
  unfold decryptObjectPatternC
  rw [dif_pos hdek]
  simp only
  rw [if_neg (not_lt.mpr hrange)]
  rfl

/-- Past its range of chunk sizes the decoder rejects every stream. -/
theorem decryptObjectPatternC_past_range (hpast : u32Max < effectiveChunkSize chunkSize + tagLen) (ciphertext : Bytes) :
    decryptObjectPatternC P ciphertext dek.toList chunkSize =
      .error (.frame ("chunk_size " ++ toString (effectiveChunkSize chunkSize) ++ " exceeds u32 range")) := by
  have hdek : dek.toList.length = 32 := List.Vector.toList_length _
  unfold decryptObjectPatternC
  rw [dif_pos hdek]
  simp only
  rw [if_pos hpast]

/-- Each frame carries its piece. -/
theorem frameAt_carries (htag : AppendsTag P) (hrange : effectiveChunkSize chunkSize + tagLen ≤ u32Max) (total i : Nat) :
    (frameReader P dek (effectiveChunkSize chunkSize + tagLen) total).Carries (frameAt P plaintext dek chunkSize i)
      (chunkAt plaintext chunkSize i) :=
  frameBytes_carries htag (Nat.add_le_add_right (length_chunkAt_le i) tagLen) hrange

/-- **Any frames, in any order, decrypt to their pieces in that order.** -/
theorem decrypt_frames (htag : AppendsTag P) (hrange : effectiveChunkSize chunkSize + tagLen ≤ u32Max) (order : List Nat) :
    decryptObjectPatternC P (order.flatMap (frameAt P plaintext dek chunkSize)) dek.toList chunkSize =
      .ok (order.flatMap (chunkAt plaintext chunkSize)) := by
  rw [decryptObjectPatternC_eq hrange,
    FrameReader.readAll_flatMap (fun i _ => frameAt_carries htag hrange _ i) 0, List.flatMap_def]
  rfl

/-- The first pieces. -/
theorem flatMap_chunkAt (k : Nat) :
    (List.range k).flatMap (chunkAt plaintext chunkSize) = plaintext.take (k * effectiveChunkSize chunkSize) :=
  flatMap_chunk _ _ _

/-- **Frames stand alone.** What is encrypted decrypts to the plaintext; any frames of the stream decrypt to their pieces;
a stream that is cut is rejected unless the cut stands between two frames, and then decrypts to what stands before it. -/
theorem patternC_frames_stand_alone (P : Primitives) (plaintext : Bytes) (dek : KeyMaterial) (chunkSize : Nat) (s : Bytes)
    (htag : AppendsTag P) (hrange : effectiveChunkSize chunkSize + tagLen ≤ u32Max)
    (hs : encryptObjectPatternC P plaintext dek.toList chunkSize = .ok s) :
    decryptObjectPatternC P s dek.toList chunkSize = .ok plaintext ∧
    s = (List.range (frameCount plaintext chunkSize)).flatMap (frameAt P plaintext dek chunkSize) ∧
    (∀ order : List Nat, (∀ i ∈ order, i < frameCount plaintext chunkSize) →
      decryptObjectPatternC P (order.flatMap (frameAt P plaintext dek chunkSize)) dek.toList chunkSize =
        .ok (order.flatMap (chunkAt plaintext chunkSize))) ∧
    ∀ part, part <+: s →
      (∃ k ≤ frameCount plaintext chunkSize, part = (List.range k).flatMap (frameAt P plaintext dek chunkSize) ∧
        decryptObjectPatternC P part dek.toList chunkSize =
          .ok (plaintext.take (k * effectiveChunkSize chunkSize))) ∨
      ((∀ k ≤ frameCount plaintext chunkSize, part ≠ (List.range k).flatMap (frameAt P plaintext dek chunkSize)) ∧
        ∃ e, decryptObjectPatternC P part dek.toList chunkSize = .error e) := by
  rw [encryptObjectPatternC_eq_ok htag hrange] at hs
  obtain rfl := (Except.ok.inj hs).symm
  refine ⟨?_, rfl, fun order _ => decrypt_frames htag hrange order, fun part hpart => ?_⟩
  · rw [decrypt_frames htag hrange, flatMap_chunkAt]
    exact congrArg _ (List.take_of_length_le (length_le_pieces_mul (effectiveChunkSize_pos chunkSize) plaintext))
  · -- a cut is between frames, or within one
    obtain ⟨k, hk, rfl, -⟩ | ⟨hinside, e, he⟩ := FrameReader.readAll_prefix
      (fun i _ => @frameAt_carries P plaintext dek chunkSize htag hrange part.length i) 0 hpart
    · rw [List.length_range] at hk
      refine .inl ⟨k, hk, by rw [List.take_range, Nat.min_eq_left hk], ?_⟩
      rw [List.take_range, Nat.min_eq_left hk, decrypt_frames htag hrange, flatMap_chunkAt]
    · refine .inr ⟨fun k hk heq => hinside k ?_, e, ?_⟩
      · rw [List.take_range, Nat.min_eq_left hk]
        exact heq
      · rw [decryptObjectPatternC_eq hrange, he]
        rfl

end Stream

/-- Three bytes in chunks of two: the second frame alone is the third byte. -/
theorem patternC_frames_stand_alone_three :
    ∃ s, encryptObjectPatternC tagging [1, 2, 3] (leBytes 32 5).toList 2 = .ok s ∧
      decryptObjectPatternC tagging s (leBytes 32 5).toList 2 = .ok [1, 2, 3] ∧
      decryptObjectPatternC tagging (frameAt tagging [1, 2, 3] (leBytes 32 5) 2 1) (leBytes 32 5).toList 2 = .ok [3] := by
  have hrange : effectiveChunkSize 2 + tagLen ≤ u32Max := by decide
  have hs := @encryptObjectPatternC_eq_ok tagging [1, 2, 3] (leBytes 32 5) 2 tagging_appendsTag hrange
  obtain ⟨hround, -, hany, -⟩ :=
    patternC_frames_stand_alone tagging [1, 2, 3] (leBytes 32 5) 2 _ tagging_appendsTag hrange hs
  have hsecond := hany [1] (by decide)
  rw [List.flatMap_singleton, List.flatMap_singleton] at hsecond
  exact ⟨_, hs, hround, hsecond⟩

/-- What opens under the checksum tag was sealed so. -/
theorem tagging_opens_sealed (k : KeyMaterial) (n : ByteArr 24) (c a p : Bytes) (h : tagging.aeadOpen k n c a = some p) :
    c = tagging.aeadSeal k n p a := by
  have hopen : (if c.drop (c.length - tagLen) =
      (leBytes tagLen (Primitives.checksum (k.toList ++ n.toList ++ a ++ c.take (c.length - tagLen)))).toList
    then some (c.take (c.length - tagLen)) else none) = some p := h
  by_cases htag : c.drop (c.length - tagLen) =
      (leBytes tagLen (Primitives.checksum (k.toList ++ n.toList ++ a ++ c.take (c.length - tagLen)))).toList
  · rw [if_pos htag] at hopen
    obtain rfl := Option.some.inj hopen
    calc c = c.take (c.length - tagLen) ++ c.drop (c.length - tagLen) := (List.take_append_drop _ _).symm
      _ = _ := by rw [htag]; rfl
  · rw [if_neg htag] at hopen
    exact absurd hopen (by simp)

/-- **Under an AEAD that opens only what was sealed**, a stream cut behind its first frame decrypts to the first chunk,
swapped frames decrypt to swapped chunks, and what is encrypted at a chunk size past the `u32` range does not decrypt. -/
theorem patternC_accepts_cut_and_swapped :
    (∀ k n c a p, tagging.aeadOpen k n c a = some p → c = tagging.aeadSeal k n p a) ∧
    (∃ first second, encryptObjectPatternC tagging [1, 2, 3] (leBytes 32 5).toList 2 = .ok (first ++ second) ∧
      second ≠ [] ∧
      decryptObjectPatternC tagging first (leBytes 32 5).toList 2 = .ok [1, 2] ∧
      decryptObjectPatternC tagging (second ++ first) (leBytes 32 5).toList 2 = .ok [3, 1, 2]) ∧
    ∃ s e, encryptObjectPatternC tagging [1] (leBytes 32 5).toList (2 ^ 32) = .ok s ∧
      decryptObjectPatternC tagging s (leBytes 32 5).toList (2 ^ 32) = .error e := by
  have hrange : effectiveChunkSize 2 + tagLen ≤ u32Max := by decide
  refine ⟨tagging_opens_sealed, ⟨frameAt tagging [1, 2, 3] (leBytes 32 5) 2 0, frameAt tagging [1, 2, 3] (leBytes 32 5) 2 1,
    ?_, ?_, ?_, ?_⟩, ?_⟩
  · have hs := @encryptObjectPatternC_eq_ok tagging [1, 2, 3] (leBytes 32 5) 2 tagging_appendsTag hrange
    have hcount : List.range (frameCount [1, 2, 3] 2) = [0, 1] := by decide
    rw [hcount] at hs
    simpa using hs
  · exact (frameAt_carries tagging_appendsTag hrange 0 1).ne_nil
  · -- the first frame alone
    have hfirst := @decrypt_frames tagging [1, 2, 3] (leBytes 32 5) 2 tagging_appendsTag hrange [0]
    rw [List.flatMap_singleton, List.flatMap_singleton] at hfirst
    exact hfirst
  · -- both frames, the second one first
    have hswapped := @decrypt_frames tagging [1, 2, 3] (leBytes 32 5) 2 tagging_appendsTag hrange [1, 0]
    rw [List.flatMap_cons, List.flatMap_singleton, List.flatMap_cons, List.flatMap_singleton] at hswapped
    exact hswapped
  · -- a chunk size that the sender takes and the receiver refuses
    have hone : chunksOf (effectiveChunkSize (2 ^ 32)) [1] = [[1]] := rfl
    have hdek : (leBytes 32 5).toList.length = 32 := List.Vector.toList_length _
    have hseal : ∀ dek, sealFrames tagging dek 0 [[1]] = .ok (frameBytes tagging dek 0 [1]) := by
      intro dek
      have hfits := @sealFrames_of_fits tagging dek [[1]] 0 (by
        intro c hc i
        obtain rfl := List.mem_singleton.mp hc
        rw [tagging_appendsTag]
        decide)
      simpa using hfits
    have hpast : u32Max < effectiveChunkSize (2 ^ 32) + tagLen := by decide
    have henc : encryptObjectPatternC tagging [1] (leBytes 32 5).toList (2 ^ 32) =
        .ok (frameBytes tagging (leBytes 32 5) 0 [1]) := by
      unfold encryptObjectPatternC
      rw [dif_pos hdek, hone]
      exact hseal _
    exact ⟨_, _, henc, decryptObjectPatternC_past_range hpast _⟩

end KChatCore.Crypto
