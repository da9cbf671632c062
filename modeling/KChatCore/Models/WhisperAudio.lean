import KChatCore.Lib.Chunks
import KChatCore.Lib.Riff
import KChatCore.Models.Machine

/-!
# `Models.WhisperAudio` — reading a WAV buffer

`decodeWavInner` checks the two magics, walks the chunks, keeps the last `fmt ` and the last `data` it meets and decodes
the samples. Sizes come from the buffer; every index and every sum of the walk is a checked one.

The walk reads what `Riff.Reads` describes (`walkLoop_of_reads`, `reads_of_walkLoop`), and from there on nothing depends on
where a chunk stands.

* `whisperDecodeWav_lawful` — the decoder never panics, its samples are those of its data chunk, and a chunk it does not
  know changes nothing.
-/

namespace KChatCore.Models

open Lib Lib.Riff

/-- `DecodedAudio`. -/
structure DecodedAudio where
  samples : List Float32
  sampleRate : Nat
  channels : Nat

/-- `WavFormatTag`. -/
inductive WavFormatTag
  | pcm
  | ieeeFloat
deriving DecidableEq, Repr

/-- The variant's name: the derived `Debug`. -/
def WavFormatTag.debug : WavFormatTag → String
  | pcm => "Pcm"
  | ieeeFloat => "IeeeFloat"

/-- `WavFmt`. -/
structure WavFmt where
  formatTag : WavFormatTag
  channels : Nat
  sampleRate : Nat
  bitsPerSample : Nat
deriving DecidableEq, Repr

/-- `u16::from_le_bytes`. -/
def u16OfBytes (b₀ b₁ : UInt8) : Nat := b₀.toNat + 2 ^ 8 * b₁.toNat

/-- Four hexadecimal digits. -/
def hexTag (tag : Nat) : String := String.ofList (Uuid.hexByte (UInt8.ofNat (tag / 2 ^ 8)) ++ Uuid.hexByte (UInt8.ofNat tag))

/-- The tag of a `fmt ` chunk, or of its subformat. -/
def formatTagOf (body : Bytes) : Checked WavFormatTag := do
  let tagRaw := u16OfBytes (← index body 0) (← index body 1)
  if tagRaw = 0x0001 then pure .pcm
  else if tagRaw = 0x0003 then pure .ieeeFloat
  else if tagRaw = 0xFFFE then
    if body.length < 40 then
      throw ("wav 'fmt ' chunk declares WAVE_FORMAT_EXTENSIBLE (0xFFFE) but is only " ++ toString body.length ++
        " bytes; need 40")
    else
      let subTag := u16OfBytes (← index body 24) (← index body 25)
      if subTag = 0x0001 then pure .pcm
      else if subTag = 0x0003 then pure .ieeeFloat
      else
        throw ("wav 'fmt ' chunk has WAVE_FORMAT_EXTENSIBLE with subformat tag 0x" ++ hexTag subTag ++
          "; only PCM (0x0001) and IEEE_FLOAT (0x0003) are supported")
  else
    throw ("wav 'fmt ' chunk has format tag 0x" ++ hexTag tagRaw ++
      "; only PCM (0x0001), IEEE_FLOAT (0x0003), and EXTENSIBLE-wrapped variants of those are supported")

/-- `parse_fmt_chunk`. -/
def parseFmtChunk (body : Bytes) : Checked WavFmt :=
  if body.length < 16 then
    throw ("wav 'fmt ' chunk is " ++ toString body.length ++ " bytes; minimum is 16 (PCMWAVEFORMAT)")
  else do
    let formatTag ← formatTagOf body
    let channels := u16OfBytes (← index body 2) (← index body 3)
    let sampleRate := sizeOfBytes (← index body 4) (← index body 5) (← index body 6) (← index body 7)
    let bitsPerSample := u16OfBytes (← index body 14) (← index body 15)
    pure ⟨formatTag, channels, sampleRate, bitsPerSample⟩

/-! ## Samples -/

/-- `chunks_exact`. -/
def chunksExact (n : Nat) (data : Bytes) : List Bytes := (List.range (data.length / n)).map (chunk n data)

/-- An 8-bit sample: unsigned, with 128 for zero. -/
def sample8 (b : UInt8) : Float32 := (b.toFloat32 - 128.0) / 128.0

/-- A 16-bit sample. -/
def sample16 (c : Bytes) : Checked Float32 := do
  let raw := u16OfBytes (← index c 0) (← index c 1)
  pure ((Int16.ofNat raw).toFloat32 / 32768.0)

/-- A 24-bit sample, sign-extended to 32 bits. -/
def sample24 (c : Bytes) : Checked Float32 := do
  let raw := sizeOfBytes (← index c 0) (← index c 1) (← index c 2) 0
  let signed := if raw &&& 0x00800000 ≠ 0 then raw ||| 0xFF000000 else raw
  pure ((Int32.ofNat signed).toFloat32 / 8388608.0)

/-- A 32-bit sample. -/
def sample32 (c : Bytes) : Checked Float32 := do
  let raw := sizeOfBytes (← index c 0) (← index c 1) (← index c 2) (← index c 3)
  pure ((Int32.ofNat raw).toFloat32 / 2147483648.0)

/-- A float sample. -/
def sampleFloat (c : Bytes) : Checked Float32 := do
  let raw := sizeOfBytes (← index c 0) (← index c 1) (← index c 2) (← index c 3)
  pure (Float32.ofBits (UInt32.ofNat raw))

/-- The samples of a width of several bytes; `name` is the format's name in the message. -/
def decodeWide (width : Nat) (name : String) (sample : Bytes → Checked Float32) (data : Bytes) : Checked (List Float32) :=
  if data.length % width ≠ 0 then
    throw ("wav " ++ name ++ " data length " ++ toString data.length ++ " is not a multiple of " ++ toString width)
  else (chunksExact width data).mapM sample

/-- `decode_pcm_samples`. -/
def decodePcmSamples (fmt : WavFmt) (data : Bytes) : Checked (List Float32) :=
  match fmt.formatTag, fmt.bitsPerSample with
  | .pcm, 8 => pure (data.map sample8)
  | .pcm, 16 => decodeWide 2 "16-bit PCM" sample16 data
  | .pcm, 24 => decodeWide 3 "24-bit PCM" sample24 data
  | .pcm, 32 => decodeWide 4 "32-bit PCM" sample32 data
  | .ieeeFloat, 32 => decodeWide 4 "32-bit IEEE float" sampleFloat data
  | tag, bits =>
      throw ("wav format combination unsupported: tag=" ++ tag.debug ++ ", bits_per_sample=" ++ toString bits ++
        "; supported are PCM 8/16/24/32 and IEEE_FLOAT 32")

/-! ## The walk -/

/-- What the walk has found. -/
structure WavChunks where
  fmt : Option WavFmt
  data : Option Bytes

/-- The `match` on the chunk's id. -/
def absorbBody (found : WavChunks) (id : Bytes) (body : Checked Bytes) : Checked WavChunks :=
  if id = utf8 "fmt " then do
    let fmt ← parseFmtChunk (← body)
    pure { found with fmt := some fmt }
  else if id = utf8 "data" then do
    let data ← body
    pure { found with data := some data }
  else pure found

/-- The body of the loop: from a chunk to the next. -/
def walkStep (w : PointerWidth) (bytes : Bytes) (cursor : Nat) (found : WavChunks) : Checked (Nat × WavChunks) := do
  let chunkId ← slice bytes cursor (← addUsize w cursor 4)
  let chunkSize := sizeOfBytes (← index bytes (← addUsize w cursor 4)) (← index bytes (← addUsize w cursor 5))
    (← index bytes (← addUsize w cursor 6)) (← index bytes (← addUsize w cursor 7))
  let bodyStart ← addUsize w cursor 8
  let bodyEnd ← orFail (checkedAdd w bodyStart chunkSize)
    ("wav chunk size overflow at offset " ++ toString cursor ++ ": " ++ toString chunkSize)
  if bytes.length < bodyEnd then do
    let remaining ← subUsize bytes.length bodyStart
    throw ("wav chunk at offset " ++ toString cursor ++ " declares " ++ toString chunkSize ++ " bytes but only " ++
      toString remaining ++ " remain")
  else do
    let found ← absorbBody found chunkId (slice bytes bodyStart bodyEnd)
    let padded ← addUsize w chunkSize (chunkSize &&& 1)
    let cursor ← orFail (checkedAdd w bodyStart padded)
      ("wav cursor overflow stepping past chunk at offset " ++ toString cursor)
    pure (cursor, found)

/-- The loop; without a result where it does not end in as many rounds. -/
def walkLoop (w : PointerWidth) (bytes : Bytes) : Nat → Nat → WavChunks → Checked WavChunks
  | 0, _, _ => crash
  | rounds + 1, cursor, found => do
      let header ← addUsize w cursor 8
      if header ≤ bytes.length then do
        let (cursor, found) ← walkStep w bytes cursor found
        walkLoop w bytes rounds cursor found
      else pure found

/-- The chunks of a buffer. -/
def wavChunks (w : PointerWidth) (bytes : Bytes) : Checked WavChunks := walkLoop w bytes bytes.length 12 ⟨none, none⟩

/-- The slice's `Debug` form. -/
def debugBytes (bytes : Bytes) : String := "[" ++ ", ".intercalate (bytes.map fun b => toString b.toNat) ++ "]"

/-- The end of `decode_wav_inner`: what was found is checked and decoded. -/
def decodeFound (found : WavChunks) : Checked DecodedAudio := do
  let fmt ← orFail found.fmt "wav file is missing 'fmt ' chunk"
  let data ← orFail found.data "wav file is missing 'data' chunk"
  if fmt.channels = 0 ∨ 8 < fmt.channels then
    throw ("wav channel count out of range: " ++ toString fmt.channels ++ " (expected 1..=8)")
  else if fmt.sampleRate = 0 ∨ 192000 < fmt.sampleRate then
    throw ("wav sample rate out of range: " ++ toString fmt.sampleRate ++ " (expected 1..=192_000)")
  else do
    let samples ← decodePcmSamples fmt data
    pure ⟨samples, fmt.sampleRate, fmt.channels⟩

/-- `decode_wav_inner`. -/
def decodeWavInner (w : PointerWidth) (bytes : Bytes) : Checked DecodedAudio :=
  if bytes.length < 44 then
    throw ("wav buffer is " ++ toString bytes.length ++
      " bytes; the minimum WAVE header (RIFF + fmt + data) is 44 bytes")
  else do
    let riff ← slice bytes 0 4
    if riff ≠ utf8 "RIFF" then throw ("missing RIFF magic at offset 0; got " ++ debugBytes riff)
    else do
      let wave ← slice bytes 8 12
      if wave ≠ utf8 "WAVE" then throw ("missing WAVE magic at offset 8; got " ++ debugBytes wave)
      else do
        let found ← wavChunks w bytes
        decodeFound found

/-- `whisper_decode_wav`; no result where it panics. -/
def whisperDecodeWav (w : PointerWidth) (bytes : Bytes) : Option (Except ModelError DecodedAudio) :=
  (decodeWavInner w bytes).run.map fun r => r.mapError fun detail => .mediaDecode "wav_decode" detail

/-! ## What is decoded -/

section Samples

variable {data body c : Bytes} {fmt : WavFmt} {width : Nat} {name : String} {sample : Bytes → Checked Float32}

theorem length_of_mem_chunksExact (h : c ∈ chunksExact width data) : c.length = width := by
  obtain ⟨i, hi, rfl⟩ := List.mem_map.mp h
  have hroom : (i + 1) * width ≤ data.length :=
    (Nat.mul_le_mul_right width (List.mem_range.mp hi)).trans (Nat.div_mul_le_self _ _)
  rw [length_chunk]
  rw [Nat.succ_mul] at hroom
  omega

/-- **The samples of several bytes**: as many as fit. -/
theorem decodeWide_spec (hsample : ∀ c, c.length = width → ∃ v, sample c = pure v) :
    Settles (decodeWide width name sample data) ∧
      ∀ samples, decodeWide width name sample data = pure samples → samples.length * width = data.length := by
  obtain ⟨values, hvalues, hlen⟩ := mapM_of_returns fun c hc => hsample c (length_of_mem_chunksExact hc)
  have hcount : values.length = data.length / width := by
    rw [hlen, chunksExact, List.length_map, List.length_range]
  unfold decodeWide
  by_cases hmultiple : data.length % width ≠ 0
  · rw [if_pos hmultiple]
    exact ⟨settles_throw _, fun samples h => absurd h throw_ne_pure⟩
  · rw [if_neg hmultiple, hvalues]
    refine ⟨settles_pure _, fun samples h => ?_⟩
    obtain rfl := Except.ok.inj (Option.some.inj h)
    rw [hcount]
    exact Nat.div_mul_cancel (Nat.dvd_of_mod_eq_zero (not_not.mp hmultiple))

theorem sample16_returns (h : c.length = 2) : ∃ v, sample16 c = pure v := by
  unfold sample16
  rw [index_eq (by omega), pure_bind, index_eq (by omega), pure_bind]
  exact ⟨_, rfl⟩

theorem sample24_returns (h : c.length = 3) : ∃ v, sample24 c = pure v := by
  unfold sample24
  rw [index_eq (by omega), pure_bind, index_eq (by omega), pure_bind, index_eq (by omega), pure_bind]
  exact ⟨_, rfl⟩

theorem sample32_returns (h : c.length = 4) : ∃ v, sample32 c = pure v := by
  unfold sample32
  rw [index_eq (by omega), pure_bind, index_eq (by omega), pure_bind, index_eq (by omega), pure_bind,
    index_eq (by omega), pure_bind]
  exact ⟨_, rfl⟩

theorem sampleFloat_returns (h : c.length = 4) : ∃ v, sampleFloat c = pure v := by
  unfold sampleFloat
  rw [index_eq (by omega), pure_bind, index_eq (by omega), pure_bind, index_eq (by omega), pure_bind,
    index_eq (by omega), pure_bind]
  exact ⟨_, rfl⟩

/-- **The samples of a data chunk** take all of its bytes. -/
theorem decodePcmSamples_spec : Settles (decodePcmSamples fmt data) ∧
    ∀ samples, decodePcmSamples fmt data = pure samples → samples.length * fmt.bitsPerSample / 8 = data.length := by
  unfold decodePcmSamples
  split
  · rename_i hbits
    refine ⟨settles_pure _, fun samples h => ?_⟩
    obtain rfl := Except.ok.inj (Option.some.inj h)
    rw [hbits, List.length_map]
    omega
  · rename_i hbits
    obtain ⟨hsettles, hcount⟩ := @decodeWide_spec data 2 "16-bit PCM" sample16 fun c => sample16_returns
    refine ⟨hsettles, fun samples h => ?_⟩
    have hlen := hcount samples h
    rw [hbits]
    omega
  · rename_i hbits
    obtain ⟨hsettles, hcount⟩ := @decodeWide_spec data 3 "24-bit PCM" sample24 fun c => sample24_returns
    refine ⟨hsettles, fun samples h => ?_⟩
    have hlen := hcount samples h
    rw [hbits]
    omega
  · rename_i hbits
    obtain ⟨hsettles, hcount⟩ := @decodeWide_spec data 4 "32-bit PCM" sample32 fun c => sample32_returns
    refine ⟨hsettles, fun samples h => ?_⟩
    have hlen := hcount samples h
    rw [hbits]
    omega
  · rename_i hbits
    obtain ⟨hsettles, hcount⟩ := @decodeWide_spec data 4 "32-bit IEEE float" sampleFloat fun c => sampleFloat_returns
    refine ⟨hsettles, fun samples h => ?_⟩
    have hlen := hcount samples h
    rw [hbits]
    omega
  · exact ⟨settles_throw _, fun samples h => absurd h throw_ne_pure⟩

theorem formatTagOf_settles (h : 16 ≤ body.length) : Settles (formatTagOf body) := by
  unfold formatTagOf
  refine (settles_index (by omega)).bind fun b₀ _ => (settles_index (by omega)).bind fun b₁ _ => ?_
  dsimp only
  split_ifs
  · exact settles_pure _
  · exact settles_pure _
  · exact settles_throw _
  · refine (settles_index (by omega)).bind fun b₂₄ _ => (settles_index (by omega)).bind fun b₂₅ _ => ?_
    split_ifs
    · exact settles_pure _
    · exact settles_pure _
    · exact settles_throw _
  · exact settles_throw _

/-- **No `fmt ` chunk makes the parser panic.** -/
theorem parseFmtChunk_settles (body : Bytes) : Settles (parseFmtChunk body) := by
  unfold parseFmtChunk
  by_cases hshort : body.length < 16
  · rw [if_pos hshort]
    exact settles_throw _
  · rw [if_neg hshort]
    refine (formatTagOf_settles (by omega)).bind fun tag _ => ?_
    refine (settles_index (by omega)).bind fun _ _ => (settles_index (by omega)).bind fun _ _ => ?_
    refine (settles_index (by omega)).bind fun _ _ => (settles_index (by omega)).bind fun _ _ => ?_
    refine (settles_index (by omega)).bind fun _ _ => (settles_index (by omega)).bind fun _ _ => ?_
    refine (settles_index (by omega)).bind fun _ _ => (settles_index (by omega)).bind fun _ _ => ?_
    exact settles_pure _

/-- **What was found does not make the decoder panic**, and the samples are those of the data found. -/
theorem decodeFound_spec (found : WavChunks) : Settles (decodeFound found) ∧
    ∀ audio, decodeFound found = pure audio → ∃ fmt data, found = ⟨some fmt, some data⟩ ∧
      audio.samples.length * fmt.bitsPerSample / 8 = data.length ∧ audio.sampleRate = fmt.sampleRate ∧
      audio.channels = fmt.channels := by
  unfold decodeFound
  constructor
  · refine (settles_orFail _ _).bind fun fmt _ => (settles_orFail _ _).bind fun data _ => ?_
    split_ifs
    · exact settles_throw _
    · exact settles_throw _
    · exact decodePcmSamples_spec.1.bind fun _ _ => settles_pure _
  · intro audio h
    obtain ⟨fmt, hfmt, h⟩ := checked_bind_eq_ok.mp h
    obtain ⟨data, hdata, h⟩ := checked_bind_eq_ok.mp h
    refine ⟨fmt, data, ?_, ?_⟩
    · rw [← orFail_eq_ok.mp hfmt, ← orFail_eq_ok.mp hdata]
    · split_ifs at h
      · exact absurd h throw_ne_pure
      · exact absurd h throw_ne_pure
      · obtain ⟨samples, hsamples, h⟩ := checked_bind_eq_ok.mp h
        obtain rfl := Except.ok.inj (Option.some.inj h)
        exact ⟨decodePcmSamples_spec.2 samples hsamples, rfl, rfl⟩

end Samples

/-! ## The walk reads a stream of chunks -/

section Walk

variable {w : PointerWidth} {bytes : Bytes} {cursor : Nat} {found : WavChunks} {c : Chunk} {cs : List Chunk}

/-- What a chunk changes of what was found. -/
def absorb (found : WavChunks) (c : Chunk) : Checked WavChunks := absorbBody found c.id (pure c.body)

theorem absorb_settles : Settles (absorb found c) := by
  unfold absorb absorbBody
  split_ifs
  · exact (parseFmtChunk_settles c.body).bind fun _ _ => settles_pure _
  · exact settles_pure _
  · exact settles_pure _

/-- The byte of a buffer, in what is left from a cursor on. -/
theorem getD_drop (bytes : Bytes) (cursor i : Nat) : (bytes.drop cursor).getD i 0 = bytes.getD (cursor + i) 0 := by
  simp only [List.getD_eq_getElem?_getD, List.getElem?_drop]

/-- Where a chunk ends that stands at the cursor. -/
theorem chunk_fits (hcursor : cursor ≤ bytes.length) (hraw : c.raw <+: bytes.drop cursor) :
    cursor + 8 + c.body.length ≤ bytes.length := by
  have hle := hraw.length_le
  rw [Chunk.length_raw, List.length_drop] at hle
  omega

/-- The size in the header at the cursor, as the step reads it. -/
def sizeAt (bytes : Bytes) (cursor : Nat) : Nat :=
  sizeOfBytes (bytes.getD (cursor + 4) 0) (bytes.getD (cursor + 5) 0) (bytes.getD (cursor + 6) 0) (bytes.getD (cursor + 7) 0)

theorem sizeAt_eq (bytes : Bytes) (cursor : Nat) : sizeAt bytes cursor = declared (bytes.drop cursor) := by
  unfold sizeAt declared
  simp only [getD_drop]

/-- **The step, once its header is read**: nothing of that overflows or is out of range. -/
theorem walkStep_header (hlen : bytes.length ≤ w.isizeMax) (hcursor : cursor + 8 ≤ bytes.length) :
    walkStep w bytes cursor found = (do
      let bodyEnd ← orFail (checkedAdd w (cursor + 8) (sizeAt bytes cursor))
        ("wav chunk size overflow at offset " ++ toString cursor ++ ": " ++ toString (sizeAt bytes cursor))
      if bytes.length < bodyEnd then
        throw ("wav chunk at offset " ++ toString cursor ++ " declares " ++ toString (sizeAt bytes cursor) ++
          " bytes but only " ++ toString (bytes.length - (cursor + 8)) ++ " remain")
      else do
        let found ← absorbBody found ((bytes.drop cursor).take 4) (slice bytes (cursor + 8) bodyEnd)
        let padded ← addUsize w (sizeAt bytes cursor) (sizeAt bytes cursor &&& 1)
        let cursor ← orFail (checkedAdd w (cursor + 8) padded)
          ("wav cursor overflow stepping past chunk at offset " ++ toString cursor)
        pure (cursor, found)) := by
  have hroom := isizeMax_add_lt w
  have hfour : cursor + 4 - cursor = 4 := by omega
  unfold walkStep
  rw [addUsize_eq (by omega), pure_bind, slice_eq (by omega) (by omega), pure_bind, pure_bind, index_eq (by omega), pure_bind,
    addUsize_eq (by omega), pure_bind, index_eq (by omega), pure_bind, addUsize_eq (by omega), pure_bind,
    index_eq (by omega), pure_bind, addUsize_eq (by omega), pure_bind, index_eq (by omega), pure_bind,
    addUsize_eq (by omega), pure_bind, subUsize_eq (by omega)]
  simp only [pure_bind, hfour]
  rfl

/-- **The step over a chunk.** -/
theorem walkStep_of_chunk (hlen : bytes.length ≤ w.isizeMax) (hcursor : cursor + 8 ≤ bytes.length)
    (hraw : c.raw <+: bytes.drop cursor) :
    walkStep w bytes cursor found = (do
      let found ← absorb found c
      pure (cursor + c.span, found)) := by
  have hroom := isizeMax_add_lt w
  have hfits := chunk_fits (by omega) hraw
  obtain ⟨hid, hsize, hbody⟩ := fields_of_raw_prefix hraw
  rw [← sizeAt_eq] at hsize
  have hslice : slice bytes (cursor + 8) (cursor + 8 + c.body.length) = pure c.body := by
    rw [slice_eq (by omega) hfits, ← List.drop_drop, Nat.add_sub_cancel_left, hbody]
  rw [walkStep_header hlen hcursor, hid, hsize, checkedAdd_eq (by omega)]
  show (if bytes.length < cursor + 8 + c.body.length then _ else _) = _
  rw [if_neg (by omega), hslice, Nat.and_one_is_mod, addUsize_eq (by omega)]
  simp only [pure_bind]
  rw [checkedAdd_eq (by omega)]
  have hspan : cursor + 8 + (c.body.length + c.body.length % 2) = cursor + c.span := by
    unfold Chunk.span
    omega
  rw [hspan]
  rfl

/-- **The step fails where there is no chunk.** -/
theorem walkStep_of_no_chunk (hlen : bytes.length ≤ w.isizeMax) (hcursor : cursor + 8 ≤ bytes.length)
    (hnone : ∀ c : Chunk, ¬ c.raw <+: bytes.drop cursor) : ∃ message, walkStep w bytes cursor found = throw message := by
  have hover : bytes.length < cursor + 8 + sizeAt bytes cursor := by
    by_contra hfits
    rw [sizeAt_eq] at hfits
    obtain ⟨c, hc⟩ := @exists_chunk (bytes.drop cursor) (by rw [List.length_drop]; omega)
      (by rw [List.length_drop]; omega)
    exact hnone c hc
  rw [walkStep_header hlen hcursor]
  unfold checkedAdd
  by_cases hsum : cursor + 8 + sizeAt bytes cursor ≤ w.usizeMax
  · rw [if_pos hsum]
    show ∃ message, (if bytes.length < cursor + 8 + sizeAt bytes cursor then _ else _) = throw message
    rw [if_pos hover]
    exact ⟨_, rfl⟩
  · rw [if_neg hsum]
    exact ⟨_, rfl⟩

/-- **The loop does what the chunks do**, in any number of rounds that is enough. -/
theorem walkLoop_of_reads (hlen : bytes.length ≤ w.isizeMax) {rounds : Nat} (hcursor : cursor ≤ bytes.length + 1)
    (hrounds : bytes.length + 2 ≤ cursor + rounds) (h : Reads (bytes.drop cursor) cs) :
    walkLoop w bytes rounds cursor found = cs.foldlM absorb found := by
  have hroom := isizeMax_add_lt w
  induction rounds generalizing cursor found cs with
  | zero => omega
  | succ rounds ih =>
      unfold walkLoop
      rw [addUsize_eq (by omega), pure_bind]
      cases h with
      | done hshort =>
          rw [List.length_drop] at hshort
          rw [if_neg (by omega)]
          rfl
      | chunk hraw hrest =>
          rename_i c cs
          have hheader := hraw.length_le
          rw [Chunk.length_raw, List.length_drop] at hheader
          have hfits := chunk_fits (by omega) hraw
          rw [if_pos (by omega), walkStep_of_chunk hlen (by omega) hraw, bind_assoc, List.foldlM_cons]
          refine bind_congr fun found' => ?_
          rw [pure_bind]
          rw [List.drop_drop] at hrest
          have hodd : c.body.length % 2 ≤ 1 := by omega
          unfold Chunk.span at hrest ⊢
          exact ih (by omega) (by omega) hrest

/-- **The loop ends without a panic**, and where it succeeds it has read chunks. -/
theorem walkLoop_settles (hlen : bytes.length ≤ w.isizeMax) {rounds : Nat} (hcursor : cursor ≤ bytes.length + 1)
    (hrounds : bytes.length + 2 ≤ cursor + rounds) : Settles (walkLoop w bytes rounds cursor found) ∧
      ∀ found', walkLoop w bytes rounds cursor found = pure found' → ∃ cs, Reads (bytes.drop cursor) cs := by
  have hroom := isizeMax_add_lt w
  induction rounds generalizing cursor found with
  | zero => omega
  | succ rounds ih =>
      unfold walkLoop
      rw [addUsize_eq (by omega), pure_bind]
      by_cases hmore : cursor + 8 ≤ bytes.length
      · rw [if_pos hmore]
        by_cases hchunk : ∃ c : Chunk, c.raw <+: bytes.drop cursor
        · obtain ⟨c, hraw⟩ := hchunk
          have hfits := chunk_fits (by omega) hraw
          have hnext : cursor + c.span ≤ bytes.length + 1 ∧ bytes.length + 2 ≤ cursor + c.span + rounds := by
            unfold Chunk.span
            omega
          rw [walkStep_of_chunk hlen hmore hraw, bind_assoc]
          refine ⟨absorb_settles.bind fun found' _ => ?_, fun found' h => ?_⟩
          · rw [pure_bind]
            exact (ih hnext.1 hnext.2).1
          · obtain ⟨found₁, -, h⟩ := checked_bind_eq_ok.mp h
            rw [pure_bind] at h
            obtain ⟨cs, hcs⟩ := (ih hnext.1 hnext.2).2 _ h
            rw [← List.drop_drop] at hcs
            exact ⟨c :: cs, .chunk hraw hcs⟩
        · obtain ⟨message, hfail⟩ := @walkStep_of_no_chunk w bytes cursor found hlen hmore fun c hc => hchunk ⟨c, hc⟩
          rw [hfail]
          exact ⟨settles_throw message, fun found' h => absurd h throw_ne_pure⟩
      · rw [if_neg hmore]
        refine ⟨settles_pure _, fun found' _ => ⟨[], .done ?_⟩⟩
        rw [List.length_drop]
        omega

end Walk

/-! ## Boundaries -/

/-- **A boundary the walk visits**, with what it has found so far. -/
inductive Visits (w : PointerWidth) (bytes : Bytes) : Nat → WavChunks → Prop
  | start : Visits w bytes 12 ⟨none, none⟩
  | next {cursor cursor' : Nat} {found found' : WavChunks} (h : Visits w bytes cursor found)
      (hmore : cursor + 8 ≤ bytes.length) (hstep : walkStep w bytes cursor found = pure (cursor', found')) :
      Visits w bytes cursor' found'

/-- A chunk the walk ignores. -/
def Foreign (c : Chunk) : Prop := c.id ≠ utf8 "fmt " ∧ c.id ≠ utf8 "data"

section Boundaries

variable {w : PointerWidth} {bytes bytes' : Bytes} {cursor : Nat} {found : WavChunks} {audio : DecodedAudio} {new : Chunk}
  {cs : List Chunk}

theorem absorb_of_foreign (h : Foreign new) : absorb found new = pure found := by
  unfold absorb absorbBody
  rw [if_neg h.1, if_neg h.2]

/-- **A boundary stands between two chunks of the stream.** -/
theorem Visits.between (hlen : bytes.length ≤ w.isizeMax) (hreads : Reads (bytes.drop 12) cs)
    (h : Visits w bytes cursor found) : ∃ before after, cs = before ++ after ∧ cursor = 12 + spans before ∧
      Reads (bytes.drop cursor) after := by
  induction h with
  | start => exact ⟨[], cs, rfl, rfl, hreads⟩
  | next _ hmore hstep ih =>
      obtain ⟨before, after, rfl, rfl, hafter⟩ := ih
      cases hafter with
      | done hshort =>
          rw [List.length_drop] at hshort
          omega
      | chunk hraw hrest =>
          rename_i c after
          rw [walkStep_of_chunk hlen hmore hraw] at hstep
          obtain ⟨found₁, -, hnext⟩ := checked_bind_eq_ok.mp hstep
          obtain ⟨rfl, -⟩ := Prod.mk.inj (Except.ok.inj (Option.some.inj hnext))
          rw [List.drop_drop] at hrest
          refine ⟨before ++ [c], after, by simp, ?_, hrest⟩
          simp only [spans, List.map_append, List.sum_append, List.map_cons, List.map_nil, List.sum_singleton]
          omega

/-- What an accepted buffer has. -/
theorem decodeWavInner_eq_ok (h : decodeWavInner w bytes = pure audio) :
    44 ≤ bytes.length ∧ ∃ found, wavChunks w bytes = pure found ∧ decodeFound found = pure audio := by
  unfold decodeWavInner at h
  by_cases hshort : bytes.length < 44
  · rw [if_pos hshort] at h
    exact absurd h throw_ne_pure
  · rw [if_neg hshort] at h
    obtain ⟨riff, -, h⟩ := checked_bind_eq_ok.mp h
    by_cases hriff : riff ≠ utf8 "RIFF"
    · rw [if_pos hriff] at h
      exact absurd h throw_ne_pure
    · rw [if_neg hriff] at h
      obtain ⟨wave, -, h⟩ := checked_bind_eq_ok.mp h
      by_cases hwave : wave ≠ utf8 "WAVE"
      · rw [if_pos hwave] at h
        exact absurd h throw_ne_pure
      · rw [if_neg hwave] at h
        exact ⟨not_lt.mp hshort, checked_bind_eq_ok.mp h⟩

/-- **Only the header and the chunks count.** -/
theorem decodeWavInner_congr (hlen : 44 ≤ bytes.length) (hlen' : 44 ≤ bytes'.length) (hhead : bytes'.take 12 = bytes.take 12)
    (hchunks : wavChunks w bytes' = wavChunks w bytes) : decodeWavInner w bytes' = decodeWavInner w bytes := by
  have hriff : (bytes'.drop 0).take 4 = (bytes.drop 0).take 4 := by
    have h := congrArg (List.take 4) hhead
    rwa [List.take_take, List.take_take] at h
  have hwave : (bytes'.drop 8).take 4 = (bytes.drop 8).take 4 := by
    have h := congrArg (List.drop 8) hhead
    rwa [List.drop_take, List.drop_take] at h
  unfold decodeWavInner
  rw [if_neg (by omega), if_neg (by omega), slice_eq (by omega) (by omega), slice_eq (by omega) (by omega),
    slice_eq (by omega) (by omega), slice_eq (by omega) (by omega), hriff, hwave, hchunks]

/-- **No buffer makes the decoder panic.** -/
theorem decodeWavInner_settles (hlen : bytes.length ≤ w.isizeMax) : Settles (decodeWavInner w bytes) := by
  unfold decodeWavInner
  by_cases hshort : bytes.length < 44
  · rw [if_pos hshort]
    exact settles_throw _
  · rw [if_neg hshort, slice_eq (by omega) (by omega), pure_bind]
    split_ifs
    · exact settles_throw _
    · rw [slice_eq (by omega) (by omega), pure_bind]
      split_ifs
      · exact settles_throw _
      · exact (walkLoop_settles hlen (by omega) (by omega)).1.bind fun found _ => (decodeFound_spec found).1

/-- **A foreign chunk at a boundary** is read and nothing else changes. -/
theorem wavChunks_insert (hlen : bytes.length ≤ w.isizeMax) (h44 : 44 ≤ bytes.length)
    (hok : ∃ found', wavChunks w bytes = pure found') (hvisits : Visits w bytes cursor found) (hnew : Foreign new)
    {pad pad' : UInt8} (hlen' : (insertAt cursor pad (new.encode pad') bytes).length ≤ w.isizeMax) :
    (insertAt cursor pad (new.encode pad') bytes).take 12 = bytes.take 12 ∧
      44 ≤ (insertAt cursor pad (new.encode pad') bytes).length ∧
      wavChunks w (insertAt cursor pad (new.encode pad') bytes) = wavChunks w bytes := by
  obtain ⟨found', hfound'⟩ := hok
  obtain ⟨cs, hreads⟩ := (walkLoop_settles hlen (by omega) (by omega)).2 found' hfound'
  obtain ⟨before, after, rfl, rfl, -⟩ := hvisits.between hlen hreads
  have hlonger : 44 ≤ (insertAt (12 + spans before) pad (new.encode pad') bytes).length := by
    unfold insertAt
    simp only [List.length_append, List.length_take, List.length_drop]
    omega
  have hhead : takePadded 12 pad bytes = bytes.take 12 := by
    have hzero : 12 - bytes.length = 0 := by omega
    rw [takePadded, hzero]
    exact List.append_nil _
  have hinsert := hreads.insert new pad pad'
  have hsplit := insertAt_add 12 (spans before) pad (new.encode pad') bytes
  have hdrop : (insertAt (12 + spans before) pad (new.encode pad') bytes).drop 12 =
      insertAt (spans before) pad (new.encode pad') (bytes.drop 12) := by
    rw [hsplit, List.drop_left' (length_takePadded _ _ _)]
  refine ⟨?_, hlonger, ?_⟩
  · rw [hsplit, List.take_left' (length_takePadded _ _ _), hhead]
  · rw [← hdrop] at hinsert
    unfold wavChunks
    rw [walkLoop_of_reads hlen' (by omega) (by omega) hinsert, walkLoop_of_reads hlen (by omega) (by omega) hreads,
      List.foldlM_append, List.foldlM_append]
    refine bind_congr fun found₁ => ?_
    rw [List.foldlM_cons, absorb_of_foreign hnew, pure_bind]

theorem whisperDecodeWav_eq_ok : whisperDecodeWav w bytes = some (.ok audio) ↔ decodeWavInner w bytes = pure audio := by
  unfold whisperDecodeWav
  constructor
  · intro h
    obtain ⟨r, hr, h⟩ := Option.map_eq_some_iff.mp h
    cases r with
    | error e => exact absurd h (by rintro ⟨⟩)
    | ok audio' =>
        obtain rfl : audio' = audio := Except.ok.inj h
        exact hr
  · intro h
    rw [h]
    rfl

/-- **The decoder is total, takes its samples from its data chunk, and skips foreign chunks.** -/
theorem whisperDecodeWav_lawful (hlen : bytes.length ≤ w.isizeMax) : (∃ r, whisperDecodeWav w bytes = some r) ∧
    ∀ audio, whisperDecodeWav w bytes = some (.ok audio) →
      (∃ fmt data, wavChunks w bytes = pure ⟨some fmt, some data⟩ ∧
        audio.samples.length * fmt.bitsPerSample / 8 = data.length) ∧
      ∀ cursor found, Visits w bytes cursor found → ∀ new, Foreign new → ∀ pad pad',
        (insertAt cursor pad (new.encode pad') bytes).length ≤ w.isizeMax →
          whisperDecodeWav w (insertAt cursor pad (new.encode pad') bytes) = some (.ok audio) := by
  constructor
  · obtain ⟨r, hr⟩ := @decodeWavInner_settles w bytes hlen
    exact ⟨_, congrArg (Option.map _) hr⟩
  · intro audio haudio
    have hinner := whisperDecodeWav_eq_ok.mp haudio
    obtain ⟨h44, found', hfound', hdecode⟩ := decodeWavInner_eq_ok hinner
    refine ⟨?_, fun cursor found hvisits new hnew pad pad' hlen' => ?_⟩
    · obtain ⟨fmt, data, rfl, hcount, -⟩ := (decodeFound_spec found').2 audio hdecode
      exact ⟨fmt, data, hfound', hcount⟩
    · -- the insert leaves the head and the chunks that are found
      obtain ⟨hhead, h44', hchunks⟩ := wavChunks_insert hlen h44 ⟨found', hfound'⟩ hvisits hnew hlen'
      exact whisperDecodeWav_eq_ok.mpr ((decodeWavInner_congr h44 h44' hhead hchunks).trans hinner)

end Boundaries

/-- Two silent 8-bit samples at 8 kHz. -/
def silentWav : Bytes :=
  utf8 "RIFF" ++ sizeBytes 38 ++ utf8 "WAVE" ++
    utf8 "fmt " ++ sizeBytes 16 ++ [1, 0, 1, 0, 64, 31, 0, 0, 64, 31, 0, 0, 1, 0, 8, 0] ++
    utf8 "data" ++ sizeBytes 2 ++ [128, 128]

/-- A chunk of one byte. -/
def listChunk : Chunk := ⟨[76, 73, 83, 84], [7], rfl, by decide⟩

/-- An unknown chunk of odd size before the `fmt ` chunk. -/
theorem whisperDecodeWav_silent : ∃ audio, whisperDecodeWav .bits32 silentWav = some (.ok audio) ∧
    whisperDecodeWav .bits32 (insertAt 12 0 (listChunk.encode 0) silentWav) = some (.ok audio) := by
  have hdecoded : whisperDecodeWav .bits32 silentWav = some (.ok ⟨[sample8 128, sample8 128], 8000, 1⟩) := rfl
  refine ⟨_, hdecoded, ?_⟩
  exact ((whisperDecodeWav_lawful (by decide)).2 _ hdecoded).2 12 _ .start listChunk ⟨by decide, by decide⟩ 0 0 (by decide)

end KChatCore.Models
