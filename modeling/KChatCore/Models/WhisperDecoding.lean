import KChatCore.Lib.GreedyDecoding
import KChatCore.Message.Platform
import KChatCore.Models.Machine

/-!
# `Models.WhisperDecoding` — from audio to a transcript

The decoder is asked again and again for the token that follows the prefix and what has been emitted; the greatest logit
among the tokens that are not suppressed wins. The emitted tokens are then cut at the timestamps among them.

The log-mel spectrogram, the two ONNX sessions and the tokenizer are `Sessions`; the special tokens of its vocabulary are
any. An `f32` is a number between −∞ and +∞, or not a number; nothing but its order matters here.

* `argmaxNextToken_eq_some_iff` — which token is taken.
* `exists_spans` — the cut loses no token and repeats none.
* `transcription_is_greedy` — what a transcription returns, and what it never emits.
-/

namespace KChatCore.Models.Whisper

open Lib

/-! ## Logits -/

/-- The order of the numbers an `f32` can be. -/
abbrev Extended := WithBot (WithTop ℚ)

/-- An `f32`; `none` is NaN. -/
abbrev Logit := Option Extended

/-- `v > best`, for a `best` that is a number. -/
def Logit.gt (v : Logit) (best : Extended) : Bool :=
  match v with
  | none => false
  | some x => decide (best < x)

/-- What a comparison sees of a logit: NaN is above nothing. -/
def Logit.rank (v : Logit) : Extended := v.getD ⊥

theorem Logit.gt_eq_true {v : Logit} {best : Extended} : v.gt best = true ↔ best < v.rank := by
  cases v with
  | none => simp [Logit.gt, Logit.rank]
  | some x => simp [Logit.gt, Logit.rank]

/-! ## The special tokens -/

/-- `WhisperTask`. -/
inductive WhisperTask
  | transcribe
  | translate
  deriving DecidableEq, Repr

/-- `WhisperSpecialTokens`. -/
structure WhisperSpecialTokens where
  endOfText : UInt32
  startOfTranscript : UInt32
  transcribe : UInt32
  translate : UInt32
  noTimestamps : UInt32
  noSpeech : Option UInt32
  timestampBegin : UInt32
  languages : Std.ExtTreeMap String UInt32

/-- `language_token`. -/
def WhisperSpecialTokens.languageToken (special : WhisperSpecialTokens) (code : String) : Option UInt32 :=
  special.languages[code]?

/-- `languages.values()`: the language tokens, in the order of their codes. -/
def WhisperSpecialTokens.languageIds (special : WhisperSpecialTokens) : List UInt32 :=
  special.languages.toList.map Prod.snd

theorem WhisperSpecialTokens.mem_languageIds {special : WhisperSpecialTokens} {id : UInt32} :
    id ∈ special.languageIds ↔ ∃ code, special.languageToken code = some id := by
  simp only [languageIds, List.mem_map, Prod.exists, exists_eq_right, languageToken,
    Std.ExtTreeMap.mem_toList_iff_getElem?_eq_some]

/-- `build_decoder_prefix`. -/
def buildDecoderPrefix (special : WhisperSpecialTokens) (language : Option UInt32) (task : WhisperTask)
    (withTimestamps : Bool) : List UInt32 :=
  [special.startOfTranscript] ++ language.toList ++
    [match task with
      | .transcribe => special.transcribe
      | .translate => special.translate] ++
    if withTimestamps then [] else [special.noTimestamps]

/-! ## What is suppressed -/

/-- `WHISPER_TIMESTAMP_TOKEN_COUNT`. -/
def whisperTimestampTokenCount : Nat := 1501

/-- `WHISPER_TIMESTAMP_STEP_MS`. -/
def whisperTimestampStepMs : Nat := 20

/-- **Ids in ascending order, each once**: what a binary search needs. -/
structure SuppressionSet where
  ids : List UInt32
  sorted : ids.Pairwise (· < ·)

/-- `sort_unstable` and `dedup`. -/
def SuppressionSet.ofIds (ids : List UInt32) : SuppressionSet where
  ids := ids.dedup.mergeSort fun a b => decide (a ≤ b)
  sorted := by
    have hle : (ids.dedup.mergeSort fun a b => decide (a ≤ b)).Pairwise fun a b => decide (a ≤ b) = true :=
      List.pairwise_mergeSort (fun a b c => by simpa using UInt32.le_trans)
        (fun a b => by simpa using UInt32.le_total a b) _
    have hne : (ids.dedup.mergeSort fun a b => decide (a ≤ b)).Nodup :=
      (List.mergeSort_perm _ _).nodup_iff.mpr ids.nodup_dedup
    refine hle.imp₂ (fun a b hab hne => ?_) hne
    exact UInt32.lt_of_le_of_ne (by simpa using hab) hne

/-- `binary_search(&id).is_ok()`. -/
def SuppressionSet.contains (s : SuppressionSet) (id : UInt32) : Bool := id ∈ s.ids

theorem SuppressionSet.contains_ofIds (ids : List UInt32) (id : UInt32) :
    (SuppressionSet.ofIds ids).contains id = true ↔ id ∈ ids := by
  simp [SuppressionSet.ofIds, SuppressionSet.contains]

/-- The tokens that steer the decoder. -/
def WhisperSpecialTokens.control (special : WhisperSpecialTokens) : List UInt32 :=
  [special.startOfTranscript, special.transcribe, special.translate, special.noTimestamps] ++
    special.noSpeech.toList ++ special.languageIds

/-- `compute_suppression_set`. -/
def computeSuppressionSet (special : WhisperSpecialTokens) : SuppressionSet := .ofIds special.control

/-- `compute_suppression_set_no_timestamps`. -/
def computeSuppressionSetNoTimestamps (special : WhisperSpecialTokens) : SuppressionSet :=
  .ofIds ((computeSuppressionSet special).ids ++
    (List.range whisperTimestampTokenCount).map fun offset => special.timestampBegin + UInt32.ofNat offset)

/-! ## The greatest logit -/

/-- `usize::checked_mul`. -/
def checkedMul (w : PointerWidth) (a b : Nat) : Option Nat := if a * b ≤ w.usizeMax then some (a * b) else none

/-- One logit of the scan in `argmax_next_token`. -/
def nextBest (suppress : SuppressionSet) (best : Nat × Extended) (p : Logit × Nat) : Nat × Extended :=
  if suppress.contains (UInt32.ofNat p.2) then best
  else if p.1.gt best.2 then (p.2, p.1.rank) else best

/-- `argmax_next_token`. -/
def argmaxNextToken (w : PointerWidth) (logits : List Logit) (seqLen vocabSize : Nat) (suppress : SuppressionSet) :
    Option UInt32 := do
  if seqLen = 0 ∨ vocabSize = 0 then
    none
  let expected ← checkedMul w seqLen vocabSize
  if logits.length < expected then
    none
  let start ← checkedMul w (seqLen - 1) vocabSize
  let row := (logits.drop start).take vocabSize
  let best := row.zipIdx.foldl (nextBest suppress) (0, ⊥)
  if best.2 = ⊥ then none else some (UInt32.ofNat best.1)

/-- One id of the scan in `argmax_language_token`. -/
def bestLanguage (logitsRow : List Logit) (best : Option UInt32 × Extended) (id : UInt32) : Option UInt32 × Extended :=
  match logitsRow[id.toNat]? with
  | none => best
  | some v => if v.gt best.2 then (some id, v.rank) else best

/-- `argmax_language_token`. -/
def argmaxLanguageToken (logitsRow : List Logit) (languageTokenIds : List UInt32) : Option UInt32 :=
  if logitsRow.isEmpty ∨ languageTokenIds.isEmpty then none
  else (languageTokenIds.foldl (bestLanguage logitsRow) (none, ⊥)).1

/-! ## Segments -/

/-- `TranscriptionSegment`. -/
structure TranscriptionSegment where
  startMs : Nat
  endMs : Nat
  text : String
  deriving DecidableEq, Repr

/-- `TranscriptionResult`. -/
structure TranscriptionResult where
  text : String
  language : Option String
  segments : List TranscriptionSegment
  deriving DecidableEq, Repr

/-- `timestamp_token_to_ms`. -/
def timestampTokenToMs (token timestampBegin : UInt32) : Option Nat :=
  if token < timestampBegin then none
  else if 1500 < (token - timestampBegin).toNat then none
  else some ((token - timestampBegin).toNat * whisperTimestampStepMs)

/-- A segment, if there is text in it. -/
def pushSegment (decode : List UInt32 → String) (startMs endMs : Nat) (body : List UInt32) :
    List TranscriptionSegment :=
  let text := trim (decode body)
  if text = "" then [] else [⟨startMs, endMs, text⟩]

/-- The variables of the loop in `segments_from_tokens`. -/
structure SegmentLoop where
  currentStart : Option Nat
  body : List UInt32
  segments : List TranscriptionSegment

/-- One token of that loop, if it is not the end of the text. -/
def SegmentLoop.take (decode : List UInt32 → String) (timestampBegin : UInt32) (st : SegmentLoop) (tok : UInt32) :
    SegmentLoop :=
  match timestampTokenToMs tok timestampBegin, st.currentStart with
  | none, _ => { st with body := st.body ++ [tok] }
  | some ms, none =>
      ⟨some ms, [], st.segments ++ if st.body.isEmpty then [] else pushSegment decode 0 0 st.body⟩
  | some ms, some startMs => ⟨none, [], st.segments ++ pushSegment decode startMs ms st.body⟩

/-- The tail of `segments_from_tokens`: a segment nothing closed. -/
def SegmentLoop.finish (decode : List UInt32 → String) (st : SegmentLoop) : List TranscriptionSegment :=
  st.segments ++
    if st.body.isEmpty then [] else pushSegment decode (st.currentStart.getD 0) (st.currentStart.getD 0) st.body

/-- `segments_from_tokens`. -/
def segmentsFromTokens (tokens : List UInt32) (timestampBegin endOfText : UInt32) (decode : List UInt32 → String) :
    List TranscriptionSegment :=
  ((tokens.takeWhile (· ≠ endOfText)).foldl (SegmentLoop.take decode timestampBegin) ⟨none, [], []⟩).finish decode

/-! ## The transcriber -/

/-- `Error::Model`, as the transcriber returns it. -/
inductive TranscribeError
  | mediaDecode (op detail : String)
  | ort (op detail : String)
  | tokenizer (op detail : String)
  deriving DecidableEq, Repr

/-- A tensor an ONNX session takes or gives. -/
structure Tensor where
  shape : List Int
  data : List Logit
  deriving DecidableEq

/-- **The sessions**: third-party code, and the spectrogram. -/
structure Sessions where
  /-- `whisper_log_mel_from_wav`. -/
  logMel : Bytes → Except TranscribeError (List Logit)
  /-- The outputs of the encoder session. -/
  encoder : Tensor → Except TranscribeError (List Tensor)
  /-- The outputs of the decoder session, for the input ids and the hidden states. -/
  decoder : List Int → Tensor → Except TranscribeError (List Tensor)
  /-- `Tokenizer::decode`, special tokens skipped. -/
  decode : List UInt32 → Option String
  /-- `Debug` of a shape. -/
  debugShape : List Int → String

/-- The text of some tokens; the empty one where the tokenizer fails. -/
def Sessions.text (S : Sessions) (body : List UInt32) : String := (S.decode body).getD ""

/-- `WHISPER_ENCODER_FRAMES`. -/
def whisperEncoderFrames : Nat := 1500

/-- `WHISPER_MAX_DECODE_TOKENS`. -/
def whisperMaxDecodeTokens : Nat := 224

/-- `WHISPER_DECODER_CONTEXT_TOKENS`. -/
def whisperDecoderContextTokens : Nat := 448

/-- `OnnxWhisperTranscriber`: the caches agree with the special tokens, and a pinned language is one of them. -/
structure OnnxWhisperTranscriber where
  special : WhisperSpecialTokens
  task : WhisperTask
  language : Option String
  withTimestamps : Bool
  maxDecodeTokens : Nat
  vocabSize : Nat
  suppress : SuppressionSet
  suppressNoTimestamps : SuppressionSet
  suppress_eq : suppress = computeSuppressionSet special
  suppressNoTimestamps_eq : suppressNoTimestamps = computeSuppressionSetNoTimestamps special
  language_known : ∀ code ∈ language, (special.languageToken code).isSome
  maxDecodeTokens_pos : 0 < maxDecodeTokens

namespace OnnxWhisperTranscriber

/-- `new_with_paths`, once the sessions, the tokenizer and its special tokens are there. -/
def newWithPaths (special : WhisperSpecialTokens) (vocabSize : Nat) : OnnxWhisperTranscriber where
  special := special
  task := .transcribe
  language := none
  withTimestamps := true
  maxDecodeTokens := whisperMaxDecodeTokens
  vocabSize := vocabSize
  suppress := computeSuppressionSet special
  suppressNoTimestamps := computeSuppressionSetNoTimestamps special
  suppress_eq := rfl
  suppressNoTimestamps_eq := rfl
  language_known := nofun
  maxDecodeTokens_pos := by decide

/-- `with_task`. -/
def withTask (t : OnnxWhisperTranscriber) (task : WhisperTask) : OnnxWhisperTranscriber := { t with task := task }

/-- `with_language`. -/
def withLanguage (t : OnnxWhisperTranscriber) : Option String → Except TranscribeError OnnxWhisperTranscriber
  | none => .ok { t with language := none, language_known := nofun }
  | some code =>
      if h : (t.special.languageToken code).isSome then
        .ok { t with language := some code, language_known := by rintro _ ⟨⟩; exact h }
      else
        .error (.tokenizer "whisper_with_language"
          ("language `" ++ code ++ "` not exposed by this Whisper vocabulary"))

/-- `with_timestamps`. -/
def setTimestamps (t : OnnxWhisperTranscriber) (enabled : Bool) : OnnxWhisperTranscriber :=
  { t with withTimestamps := enabled }

/-- `with_max_decode_tokens`. -/
def withMaxDecodeTokens (t : OnnxWhisperTranscriber) (max : Nat) : OnnxWhisperTranscriber :=
  { t with maxDecodeTokens := Nat.max max 1, maxDecodeTokens_pos := Nat.le_max_right max 1 }

/-- `effective_suppression_set`. -/
def effectiveSuppressionSet (t : OnnxWhisperTranscriber) : SuppressionSet :=
  if t.withTimestamps then t.suppress else t.suppressNoTimestamps

/-- `shape_inner_dim`. -/
def shapeInnerDim (w : PointerWidth) (shape : List Int) : Except TranscribeError Nat :=
  match shape.getLast? with
  | none => .error (.ort "whisper_encoder_output_shape" "encoder output tensor has no dimensions")
  | some last =>
      if last ≤ 0 then
        .error (.ort "whisper_encoder_output_shape"
          ("encoder output last dim is non-positive (" ++ toString last ++ "); dynamic dims unsupported"))
      else .ok (last.toNat % (w.usizeMax + 1))

/-- `run_encoder`. -/
def runEncoder (S : Sessions) (w : PointerWidth) (mel : List Logit) : Except TranscribeError (List Logit) := do
  let outputs ← S.encoder ⟨[1, 80, 3000], mel⟩
  match outputs with
  | [] => throw (.ort "whisper_encoder_no_output" "encoder run returned zero outputs")
  | out :: _ =>
      if out.shape.length ≠ 3 ∨ out.shape[0]? ≠ some 1 ∨ out.shape[1]? ≠ some (whisperEncoderFrames : Int) then
        throw (.ort "whisper_encoder_output_shape"
          ("encoder output expected `[1, 1500, d_model]`, got `" ++ S.debugShape out.shape ++ "`"))
      let dModelDim ← shapeInnerDim w out.shape
      match checkedMul w whisperEncoderFrames dModelDim with
      | none =>
          throw (.ort "whisper_encoder_output_shape" ("encoder output shape overflow: " ++ S.debugShape out.shape))
      | some expectedLen =>
          if out.data.length ≠ expectedLen then
            throw (.ort "whisper_encoder_output_shape" ("encoder output length " ++ toString out.data.length ++
              " does not match expected " ++ toString expectedLen ++ " from shape " ++ S.debugShape out.shape))
          pure out.data

/-- `build_hidden_tensor`. -/
def buildHiddenTensor (encoderHidden : List Logit) : Tensor :=
  ⟨[1, (whisperEncoderFrames : Int), ((encoderHidden.length / whisperEncoderFrames : Nat) : Int)], encoderHidden⟩

/-- `run_decoder`: the logits of the last position. -/
def runDecoder (t : OnnxWhisperTranscriber) (S : Sessions) (w : PointerWidth) (hidden : Tensor) (asked : List UInt32) :
    Except TranscribeError (List Logit) := do
  let outputs ← S.decoder (asked.map fun id => (id.toNat : Int)) hidden
  match outputs with
  | [] => throw (.ort "whisper_decoder_no_output" "decoder run returned zero outputs")
  | out :: _ =>
      if out.shape.length ≠ 3 ∨ out.shape[0]? ≠ some 1 ∨ out.shape[1]? ≠ some (asked.length : Int) ∨
          out.shape[2]? ≠ some (t.vocabSize : Int) then
        throw (.ort "whisper_decoder_output_shape" ("decoder output expected `[1, " ++ toString asked.length ++ ", " ++
          toString t.vocabSize ++ "]`, got `" ++ S.debugShape out.shape ++ "`"))
      match checkedMul w asked.length t.vocabSize with
      | none => throw (.ort "whisper_decoder_output_overflow" "prefix_len * vocab_size overflowed usize")
      | some total =>
          if out.data.length ≠ total then
            throw (.ort "whisper_decoder_output_shape" ("decoder output length " ++ toString out.data.length ++
              " does not match prefix_len * vocab_size = " ++ toString total ++ " (shape " ++ S.debugShape out.shape ++
              ")"))
          pure ((out.data.drop ((asked.length - 1) * t.vocabSize)).take t.vocabSize)

/-- `detect_language`. -/
def detectLanguage (t : OnnxWhisperTranscriber) (S : Sessions) (w : PointerWidth) (hidden : Tensor) :
    Except TranscribeError UInt32 := do
  let logits ← t.runDecoder S w hidden [t.special.startOfTranscript]
  match argmaxLanguageToken logits t.special.languageIds with
  | some id => pure id
  | none => throw (.ort "whisper_detect_language" "decoder emitted no language-token logits during detection")

/-- The language token, and the code that goes into the result. -/
def resolveLanguage (t : OnnxWhisperTranscriber) (S : Sessions) (w : PointerWidth) (hidden : Tensor) :
    Except TranscribeError (UInt32 × Option String) :=
  match t.language with
  | some code =>
      match t.special.languageToken code with
      | some id => pure (id, some code)
      | none => throw (.tokenizer "whisper_transcribe_language"
          ("pinned language `" ++ code ++ "` not exposed by the loaded Whisper vocab"))
  | none => do
      let id ← t.detectLanguage S w hidden
      pure (id, (t.special.languages.toList.find? fun p => p.2 == id).map Prod.fst)

/-- The token that follows what the decoder has been given. -/
def nextToken (t : OnnxWhisperTranscriber) (S : Sessions) (w : PointerWidth) (hidden : Tensor) (asked : List UInt32) :
    Except TranscribeError UInt32 := do
  let logits ← t.runDecoder S w hidden asked
  match argmaxNextToken w logits 1 t.vocabSize t.effectiveSuppressionSet with
  | some next => pure next
  | none => throw (.ort "whisper_decoder_argmax" "every vocabulary position was suppressed; refusing to advance")

/-- The prefix the decoder starts from. -/
def start (t : OnnxWhisperTranscriber) (languageToken : UInt32) : List UInt32 :=
  buildDecoderPrefix t.special (some languageToken) t.task t.withTimestamps

/-- How many tokens may be emitted. -/
def bodyBudget (t : OnnxWhisperTranscriber) (languageToken : UInt32) : Nat :=
  min t.maxDecodeTokens (whisperDecoderContextTokens - (t.start languageToken).length)

/-- The segments of what was emitted. -/
def segments (t : OnnxWhisperTranscriber) (S : Sessions) (emitted : List UInt32) : List TranscriptionSegment :=
  let found := segmentsFromTokens emitted t.special.timestampBegin t.special.endOfText S.text
  if found.isEmpty ∧ ¬ emitted.isEmpty then pushSegment S.text 0 0 emitted else found

/-- The text of the segments. -/
def textOf (segments : List TranscriptionSegment) : String :=
  trim (" ".intercalate (segments.map TranscriptionSegment.text))

/-- `WhisperTranscriber::transcribe`. -/
def transcribe (t : OnnxWhisperTranscriber) (S : Sessions) (w : PointerWidth) (audioData : Bytes) (mimeType : String) :
    Except TranscribeError TranscriptionResult := do
  if ¬ "audio/".toList.isPrefixOf mimeType.toList then
    throw (.mediaDecode "whisper_transcribe" ("OnnxWhisperTranscriber rejects non-audio mime_type: " ++ mimeType))
  let mel ← S.logMel audioData
  let encoderHidden ← runEncoder S w mel
  let hidden := buildHiddenTensor encoderHidden
  let language ← t.resolveLanguage S w hidden
  let emitted ← generate (t.nextToken S w hidden) t.special.endOfText (t.bodyBudget language.1) (t.start language.1) []
  let segments := t.segments S emitted
  pure ⟨textOf segments, language.2, segments⟩

end OnnxWhisperTranscriber

/-! ## Which token is taken -/

/-- **The token a row gives**: the first of the greatest logits above −∞ among the ids that are not suppressed. -/
def Picks (row : List Logit) (suppress : SuppressionSet) (id : UInt32) : Prop :=
  ∃ i v, row[i]? = some (some v) ∧ id = UInt32.ofNat i ∧ ⊥ < v ∧ suppress.contains id = false ∧
    ∀ j x, row[j]? = some (some x) → suppress.contains (UInt32.ofNat j) = false → x ≤ v ∧ (x = v → i ≤ j)

section Argmax

variable {row : List Logit} {suppress : SuppressionSet} {id : UInt32} {w : PointerWidth}

/-- What the scan of a row compares. -/
def allowedRank (suppress : SuppressionSet) (p : Logit × Nat) : Extended :=
  if suppress.contains (UInt32.ofNat p.2) then ⊥ else p.1.rank

theorem nextBest_eq : nextBest suppress = keepBest Prod.snd (allowedRank suppress) := by
  funext best p
  unfold nextBest keepBest allowedRank
  by_cases hsuppressed : suppress.contains (UInt32.ofNat p.2) = true
  · rw [if_pos hsuppressed, if_pos hsuppressed, if_neg not_lt_bot]
  · rw [if_neg hsuppressed, if_neg hsuppressed]
    simp only [Logit.gt_eq_true]

theorem pairwise_zipIdx (row : List Logit) : row.zipIdx.Pairwise fun p q => p.2 < q.2 := by
  rw [← List.pairwise_map (f := Prod.snd), List.zipIdx_map_snd]
  exact List.pairwise_lt_range'

/-- Among indexed logits the first of the greatest has the least index of them. -/
theorem index_le_of_firstMax {f : Logit × Nat → Extended} {p q : Logit × Nat} (h : FirstMax f row.zipIdx p)
    (hq : q ∈ row.zipIdx) (heq : f q = f p) : p.2 ≤ q.2 := by
  obtain ⟨l₁, l₂, hsplit, hbefore, -⟩ := h
  have hpairwise := pairwise_zipIdx row
  rw [hsplit] at hpairwise hq
  rcases List.mem_append.mp hq with hq | hq
  · exact absurd (hbefore q hq) (by simp [heq])
  · rcases List.mem_cons.mp hq with rfl | hq
    · exact le_rfl
    · exact ((List.pairwise_cons.mp (List.pairwise_append.mp hpairwise).2.1).1 q hq).le

theorem Picks.unique {id' : UInt32} (h : Picks row suppress id) (h' : Picks row suppress id') : id = id' := by
  obtain ⟨i, v, hi, rfl, -, hfree, hgreatest⟩ := h
  obtain ⟨j, x, hj, rfl, -, hfree', hgreatest'⟩ := h'
  obtain ⟨hle, hfirst⟩ := hgreatest j x hj hfree'
  obtain ⟨hle', hfirst'⟩ := hgreatest' i v hi hfree
  rw [le_antisymm (hfirst (le_antisymm hle hle')) (hfirst' (le_antisymm hle' hle))]

theorem picks_of_firstMax {p : Logit × Nat} (hfirst : FirstMax (allowedRank suppress) row.zipIdx p)
    (hp : ⊥ < allowedRank suppress p) : Picks row suppress (UInt32.ofNat p.2) := by
  have hfree : suppress.contains (UInt32.ofNat p.2) = false := by
    by_contra hsuppressed
    rw [allowedRank, if_pos (by simpa using hsuppressed)] at hp
    exact not_lt_bot hp
  have hrank : ∀ q : Logit × Nat, suppress.contains (UInt32.ofNat q.2) = false → allowedRank suppress q = q.1.rank :=
    fun q hq => if_neg (by simp [hq])
  rw [hrank p hfree] at hp
  cases hv : p.1 with
  | none => exact absurd hp (by simp [hv, Logit.rank])
  | some v =>
      have hpv : allowedRank suppress p = v := by rw [hrank p hfree, hv]; rfl
      refine ⟨p.2, v, ?_, rfl, by simpa [hv, Logit.rank] using hp, hfree, fun j x hj hjfree => ?_⟩
      · rw [← hv]
        exact List.mem_zipIdx_iff_getElem?.mp hfirst.mem
      · have hmem : (some x, j) ∈ row.zipIdx := List.mem_zipIdx_iff_getElem?.mpr hj
        have hx : allowedRank suppress (some x, j) = x := hrank _ hjfree
        refine ⟨?_, fun heq => index_le_of_firstMax hfirst hmem (by rw [hx, hpv, heq])⟩
        simpa [hx, hpv] using hfirst.le hmem

/-- **Which token is taken.** -/
theorem argmaxNextToken_eq_some_iff :
    argmaxNextToken w row 1 row.length suppress = some id ↔ row.length ≤ w.usizeMax ∧ Picks row suppress id := by
  by_cases hempty : row.length = 0
  · refine iff_of_false (by simp [argmaxNextToken, hempty]) ?_
    rintro ⟨-, i, v, hi, -⟩
    rw [List.length_eq_zero_iff.mp hempty] at hi
    exact absurd hi (by simp)
  by_cases hlength : row.length ≤ w.usizeMax
  swap
  · exact iff_of_false (by simp [argmaxNextToken, checkedMul, hlength, hempty]) fun h => hlength h.1
  have hscan : argmaxNextToken w row 1 row.length suppress =
      if (row.zipIdx.foldl (nextBest suppress) (0, ⊥)).2 = ⊥ then none
      else some (UInt32.ofNat (row.zipIdx.foldl (nextBest suppress) (0, ⊥)).1) := by
    simp [argmaxNextToken, checkedMul, hlength, hempty]
  rw [hscan, nextBest_eq]
  obtain ⟨hfold, hbot⟩ | ⟨p, hfirst, hp, hfold⟩ := foldl_keepBest Prod.snd (allowedRank suppress) 0 row.zipIdx
  · refine iff_of_false (by simp [hfold]) ?_
    rintro ⟨-, i, v, hi, rfl, hv, hfree, -⟩
    have hnothing := hbot (some v, i) (List.mem_zipIdx_iff_getElem?.mpr hi)
    rw [allowedRank, if_neg (by simp [hfree])] at hnothing
    exact absurd hnothing hv.ne'
  · have hpicks := picks_of_firstMax hfirst hp
    simp only [hfold, if_neg hp.ne', Option.some.injEq]
    constructor
    · rintro rfl
      exact ⟨hlength, hpicks⟩
    · exact fun h => hpicks.unique h.2

end Argmax

section Language

variable {row : List Logit} {ids : List UInt32} {id : UInt32}

/-- What the scan of the language tokens compares. -/
def languageRank (row : List Logit) (id : UInt32) : Extended := (row[id.toNat]?.getD none).rank

theorem bestLanguage_eq : bestLanguage row = keepBest some (languageRank row) := by
  funext best id
  unfold bestLanguage keepBest languageRank
  cases row[id.toNat]? with
  | none => exact (if_neg not_lt_bot).symm
  | some v => simp only [Logit.gt_eq_true, Option.getD_some]

/-- **The language that is detected** is the first of the greatest among those in the vocabulary. -/
theorem firstMax_of_argmaxLanguageToken (h : argmaxLanguageToken row ids = some id) :
    FirstMax (languageRank row) ids id ∧ ⊥ < languageRank row id := by
  unfold argmaxLanguageToken at h
  split at h
  · exact absurd h (by simp)
  · rw [bestLanguage_eq] at h
    obtain ⟨hfold, -⟩ | ⟨i, hfirst, hi, hfold⟩ := foldl_keepBest some (languageRank row) none ids
    · exact absurd h (by simp [hfold])
    · obtain rfl : i = id := by simpa [hfold] using h
      exact ⟨hfirst, hi⟩

end Language

/-! ## Cutting at the timestamps -/

/-- A time the timestamp tokens can name: every 20 ms of half a minute. -/
def OnGrid (ms : Nat) : Prop := ms ≤ 30000 ∧ whisperTimestampStepMs ∣ ms

/-- Tokens between two cuts, and the times the cuts name. -/
structure Span where
  startMs : Nat
  endMs : Nat
  body : List UInt32

/-- The segment of a span. -/
def Span.segments (decode : List UInt32 → String) (s : Span) : List TranscriptionSegment :=
  pushSegment decode s.startMs s.endMs s.body

section Segments

variable {decode : List UInt32 → String} {timestampBegin token : UInt32} {tokens : List UInt32} {st : SegmentLoop} {ms : Nat}

theorem onGrid_zero : OnGrid 0 := by
  simp [OnGrid]

theorem onGrid_of_timestamp (h : timestampTokenToMs token timestampBegin = some ms) : OnGrid ms := by
  unfold timestampTokenToMs whisperTimestampStepMs at h
  split at h
  · exact absurd h (by simp)
  · split at h
    · exact absurd h (by simp)
    · obtain rfl := Option.some.inj h
      exact ⟨by omega, Nat.dvd_mul_left _ _⟩

/-- **The cut loses no token and repeats none**: the spans hold what is not a timestamp, in order. -/
theorem exists_spans (hst : ∀ ms ∈ st.currentStart, OnGrid ms) :
    ∃ spans : List Span,
      (tokens.foldl (SegmentLoop.take decode timestampBegin) st).finish decode =
        st.segments ++ spans.flatMap (Span.segments decode) ∧
      spans.flatMap Span.body =
        st.body ++ tokens.filter (fun token => (timestampTokenToMs token timestampBegin).isNone) ∧
      ∀ s ∈ spans, OnGrid s.startMs ∧ OnGrid s.endMs := by
  induction tokens generalizing st with
  | nil =>
      by_cases hbody : st.body = []
      · exact ⟨[], by simp [SegmentLoop.finish, hbody], by simp [hbody], by simp⟩
      · have hstart : OnGrid (st.currentStart.getD 0) := by
          cases hcurrent : st.currentStart with
          | none => exact onGrid_zero
          | some ms => exact hst ms hcurrent
        refine ⟨[⟨st.currentStart.getD 0, st.currentStart.getD 0, st.body⟩], ?_, by simp, ?_⟩
        · simp [SegmentLoop.finish, hbody, Span.segments]
        · intro s hs
          obtain rfl := List.mem_singleton.mp hs
          exact ⟨hstart, hstart⟩
  | cons token tokens ih =>
      rw [List.foldl_cons]
      cases htimestamp : timestampTokenToMs token timestampBegin with
      | none =>
          have htake : st.take decode timestampBegin token = { st with body := st.body ++ [token] } := by
            simp [SegmentLoop.take, htimestamp]
          obtain ⟨spans, hsegments, hbodies, htimes⟩ := @ih { st with body := st.body ++ [token] } hst
          rw [htake]
          exact ⟨spans, hsegments, by simp [hbodies, htimestamp], htimes⟩
      | some ms =>
          have hms := onGrid_of_timestamp htimestamp
          cases hcurrent : st.currentStart with
          | none =>
              -- a timestamp opens a segment; what came before it stands at the beginning
              have htake : st.take decode timestampBegin token = ⟨some ms, [],
                  st.segments ++ if st.body.isEmpty then [] else pushSegment decode 0 0 st.body⟩ := by
                simp [SegmentLoop.take, htimestamp, hcurrent]
              rw [htake]
              obtain ⟨spans, hsegments, hbodies, htimes⟩ := @ih ⟨some ms, [],
                  st.segments ++ if st.body.isEmpty then [] else pushSegment decode 0 0 st.body⟩
                (by rintro _ ⟨⟩; exact hms)
              by_cases hbody : st.body = []
              · exact ⟨spans, by simpa [hbody] using hsegments, by simpa [hbody, htimestamp] using hbodies, htimes⟩
              · refine ⟨⟨0, 0, st.body⟩ :: spans, ?_, ?_, ?_⟩
                · simpa [hbody, Span.segments] using hsegments
                · simpa [htimestamp] using hbodies
                · rintro s (_ | ⟨_, hs⟩)
                  · exact ⟨onGrid_zero, onGrid_zero⟩
                  · exact htimes s hs
          | some startMs =>
              have htake : st.take decode timestampBegin token =
                  ⟨none, [], st.segments ++ pushSegment decode startMs ms st.body⟩ := by
                simp [SegmentLoop.take, htimestamp, hcurrent]
              rw [htake]
              obtain ⟨spans, hsegments, hbodies, htimes⟩ :=
                @ih ⟨none, [], st.segments ++ pushSegment decode startMs ms st.body⟩ nofun
              refine ⟨⟨startMs, ms, st.body⟩ :: spans, ?_, ?_, ?_⟩
              · simpa [Span.segments] using hsegments
              · simpa [htimestamp] using hbodies
              · rintro s (_ | ⟨_, hs⟩)
                · exact ⟨hst startMs hcurrent, hms⟩
                · exact htimes s hs

/-- Without timestamps the loop only collects. -/
theorem foldl_take_of_none (h : ∀ token ∈ tokens, timestampTokenToMs token timestampBegin = none) :
    tokens.foldl (SegmentLoop.take decode timestampBegin) st = { st with body := st.body ++ tokens } := by
  induction tokens generalizing st with
  | nil => simp
  | cons token tokens ih =>
      have htake : st.take decode timestampBegin token = { st with body := st.body ++ [token] } := by
        simp [SegmentLoop.take, h token List.mem_cons_self]
      rw [List.foldl_cons, htake, ih fun t ht => h t (List.mem_cons_of_mem token ht)]
      simp

end Segments

/-! ## A transcription -/

namespace OnnxWhisperTranscriber

variable {t : OnnxWhisperTranscriber} {S : Sessions} {w : PointerWidth} {hidden : Tensor} {asked emitted : List UInt32}
  {row : List Logit} {id languageToken : UInt32}

/-- **What a decoding emits**: each token is the one the decoder's row for everything before it gives. -/
structure Decodes (t : OnnxWhisperTranscriber) (S : Sessions) (w : PointerWidth) (hidden : Tensor)
    (languageToken : UInt32) (emitted : List UInt32) : Prop where
  length_le : emitted.length ≤ t.bodyBudget languageToken
  chosen : ∀ k id, emitted[k]? = some id →
    ∃ row, t.runDecoder S w hidden (t.start languageToken ++ emitted.take k) = .ok row ∧
      Picks row t.effectiveSuppressionSet id
  goes_on : t.special.endOfText ∉ emitted
  ended : emitted.length = t.bodyBudget languageToken ∨
    ∃ row, t.runDecoder S w hidden (t.start languageToken ++ emitted) = .ok row ∧
      Picks row t.effectiveSuppressionSet t.special.endOfText

/-- A row the decoder gives has a logit for every token. -/
theorem length_of_runDecoder (h : t.runDecoder S w hidden asked = .ok row) (hasked : asked ≠ []) :
    row.length = t.vocabSize ∧ t.vocabSize ≤ w.usizeMax := by
  have hpos : 1 ≤ asked.length := List.length_pos_iff.mpr hasked
  obtain ⟨outputs, -, h⟩ := except_bind_eq_ok.mp h
  cases outputs with
  | nil => exact absurd h (by rintro ⟨⟩)
  | cons out rest =>
      simp only [checkedMul] at h
      split at h
      · exact absurd h (by rintro ⟨⟩)
      · by_cases htotal : asked.length * t.vocabSize ≤ w.usizeMax
        · simp only [htotal, if_true] at h
          split at h
          · exact absurd h (by rintro ⟨⟩)
          · rename_i hlength
            obtain rfl := Except.ok.inj h
            rw [ne_eq, not_not] at hlength
            have hsplit : asked.length * t.vocabSize = (asked.length - 1) * t.vocabSize + t.vocabSize := by
              rw [← Nat.succ_mul, Nat.succ_eq_add_one, Nat.sub_add_cancel hpos]
            rw [List.length_take, List.length_drop]
            omega
        · simp only [htotal, if_false] at h
          exact absurd h (by rintro ⟨⟩)

theorem nextToken_eq_ok (hasked : asked ≠ []) :
    t.nextToken S w hidden asked = .ok id ↔
      ∃ row, t.runDecoder S w hidden asked = .ok row ∧ Picks row t.effectiveSuppressionSet id := by
  unfold nextToken
  rw [except_bind_eq_ok]
  refine exists_congr fun row => and_congr_right fun hrow => ?_
  obtain ⟨hlength, hle⟩ := length_of_runDecoder hrow hasked
  rw [← hlength] at hle ⊢
  rw [← and_iff_right hle (b := Picks row t.effectiveSuppressionSet id), ← argmaxNextToken_eq_some_iff]
  cases argmaxNextToken w row 1 row.length t.effectiveSuppressionSet with
  | none => exact iff_of_false (by rintro ⟨⟩) (by simp)
  | some next => simp [pure, Except.pure]

theorem start_ne_nil : t.start languageToken ≠ [] := by
  simp [start, buildDecoderPrefix]

theorem length_start_le : (t.start languageToken).length ≤ 4 := by
  unfold start buildDecoderPrefix
  cases t.withTimestamps <;> simp

/-- What the loop returns is a decoding. -/
theorem decodes_iff :
    generate (t.nextToken S w hidden) t.special.endOfText (t.bodyBudget languageToken) (t.start languageToken) [] =
      .ok emitted ↔ t.Decodes S w hidden languageToken emitted := by
  have hasked : ∀ more, t.start languageToken ++ more ≠ [] := fun more h => start_ne_nil (List.append_eq_nil_iff.mp h).1
  rw [generate_eq_ok]
  simp only [List.nil_append, exists_eq_left']
  constructor
  · intro h
    refine ⟨h.length_le, fun k id hk => (nextToken_eq_ok (hasked _)).mp (h.chosen k id hk), h.goes_on, ?_⟩
    exact h.ended.imp_right (nextToken_eq_ok (hasked _)).mp
  · intro h
    refine ⟨h.length_le, fun k id hk => (nextToken_eq_ok (hasked _)).mpr (h.chosen k id hk), h.goes_on, ?_⟩
    exact h.ended.imp_right (nextToken_eq_ok (hasked _)).mpr

/-- The encoder hears the audio. -/
def Hears (S : Sessions) (w : PointerWidth) (audioData : Bytes) (mimeType : String) (hidden : Tensor) : Prop :=
  "audio/".toList <+: mimeType.toList ∧
    ∃ mel encoderHidden, S.logMel audioData = .ok mel ∧ runEncoder S w mel = .ok encoderHidden ∧
      hidden = buildHiddenTensor encoderHidden

/-- The transcript of what has been emitted. -/
def transcript (t : OnnxWhisperTranscriber) (S : Sessions) (language : Option String) (emitted : List UInt32) :
    TranscriptionResult :=
  ⟨textOf (t.segments S emitted), language, t.segments S emitted⟩

/-- The language a transcription goes by. -/
structure Speaks (t : OnnxWhisperTranscriber) (S : Sessions) (w : PointerWidth) (hidden : Tensor)
    (language : UInt32 × Option String) : Prop where
  /-- It is a language of the vocabulary, and the result names it. -/
  named : ∃ code, language.2 = some code ∧ t.special.languageToken code = some language.1
  pinned : ∀ code ∈ t.language, language.2 = some code
  /-- A detected one has the greatest logit after the start token. -/
  detected : t.language = none →
    ∃ row, t.runDecoder S w hidden [t.special.startOfTranscript] = .ok row ∧ ⊥ < languageRank row language.1 ∧
      ∀ code id, t.special.languageToken code = some id → languageRank row id ≤ languageRank row language.1

theorem transcribe_eq_ok {audioData : Bytes} {mimeType : String} {result : TranscriptionResult} :
    t.transcribe S w audioData mimeType = .ok result ↔
      ∃ hidden language emitted, Hears S w audioData mimeType hidden ∧ t.resolveLanguage S w hidden = .ok language ∧
        t.Decodes S w hidden language.1 emitted ∧ result = t.transcript S language.2 emitted := by
  unfold transcribe Hears
  by_cases haudio : "audio/".toList <+: mimeType.toList
  · rw [if_neg (by simpa using haudio)]
    simp only [except_bind_eq_ok, decodes_iff, haudio, true_and]
    constructor
    · rintro ⟨mel, hmel, encoderHidden, hencoder, language, hlanguage, emitted, hemitted, hresult⟩
      exact ⟨_, language, emitted, ⟨mel, encoderHidden, hmel, hencoder, rfl⟩, hlanguage, hemitted,
        (Except.ok.inj hresult).symm⟩
    · rintro ⟨_, language, emitted, ⟨mel, encoderHidden, hmel, hencoder, rfl⟩, hlanguage, hemitted, rfl⟩
      exact ⟨mel, hmel, encoderHidden, hencoder, language, hlanguage, emitted, hemitted, rfl⟩
  · rw [if_pos (by simpa using haudio)]
    refine iff_of_false (by rintro ⟨⟩) ?_
    rintro ⟨_, _, _, ⟨h, -⟩, -⟩
    exact haudio h

theorem speaks_of_resolveLanguage {language : UInt32 × Option String}
    (h : t.resolveLanguage S w hidden = .ok language) : t.Speaks S w hidden language := by
  unfold resolveLanguage at h
  cases hpinned : t.language with
  | some code =>
      obtain ⟨id, hid⟩ := Option.isSome_iff_exists.mp (t.language_known code hpinned)
      rw [hpinned] at h
      simp only [hid] at h
      obtain rfl := Except.ok.inj h
      exact ⟨⟨code, rfl, hid⟩, by simp [hpinned], by simp [hpinned]⟩
  | none =>
      rw [hpinned] at h
      obtain ⟨id, hdetect, hok⟩ := except_bind_eq_ok.mp h
      obtain rfl := Except.ok.inj hok
      obtain ⟨row, hrow, hscan⟩ := except_bind_eq_ok.mp hdetect
      cases hid : argmaxLanguageToken row t.special.languageIds with
      | none => exact absurd hscan (by simp only [hid]; rintro ⟨⟩)
      | some id' =>
          simp only [hid] at hscan
          obtain rfl : id' = id := Except.ok.inj hscan
          obtain ⟨hfirst, hrank⟩ := firstMax_of_argmaxLanguageToken hid
          -- the id is the token of a language, so the search for its code finds one
          obtain ⟨p, hp, hp'⟩ : ∃ p ∈ t.special.languages.toList, p.2 = id' := by
            simpa [WhisperSpecialTokens.languageIds] using hfirst.mem
          have hfound : (t.special.languages.toList.find? fun p => p.2 == id').isSome :=
            List.find?_isSome.mpr ⟨p, hp, by simp [hp']⟩
          obtain ⟨q, hq⟩ := Option.isSome_iff_exists.mp hfound
          have hqid : q.2 = id' := by simpa using List.find?_some hq
          have hcode : t.special.languageToken q.1 = some id' :=
            Std.ExtTreeMap.mem_toList_iff_getElem?_eq_some.mp (hqid ▸ List.mem_of_find?_eq_some hq)
          refine ⟨⟨q.1, by simp only [hq, Option.map_some], hcode⟩, by simp [hpinned], fun _ => ?_⟩
          exact ⟨row, hrow, hrank, fun code other hother =>
            hfirst.le (WhisperSpecialTokens.mem_languageIds.mpr ⟨code, hother⟩)⟩

theorem free_of_emitted {k : Nat} (h : t.Decodes S w hidden languageToken emitted) (hk : emitted[k]? = some id) :
    t.effectiveSuppressionSet.contains id = false := by
  obtain ⟨row, -, _, _, -, -, -, hfree, -⟩ := h.chosen k id hk
  exact hfree

theorem not_mem_control (h : t.effectiveSuppressionSet.contains id = false) : id ∉ t.special.control := by
  intro hid
  have hcontrol : (computeSuppressionSet t.special).contains id = true := (SuppressionSet.contains_ofIds _ id).mpr hid
  have hmem : t.effectiveSuppressionSet.contains id = true := by
    unfold effectiveSuppressionSet
    split
    · rwa [t.suppress_eq]
    · rw [t.suppressNoTimestamps_eq, computeSuppressionSetNoTimestamps, SuppressionSet.contains_ofIds]
      exact List.mem_append_left _ (by simpa [SuppressionSet.contains] using hcontrol)
  simp [h] at hmem

/-- Every timestamp is suppressed where timestamps are off, also where the ids wrap around. -/
theorem timestampTokenToMs_of_free (htimestamps : t.withTimestamps = false)
    (h : t.effectiveSuppressionSet.contains id = false) : timestampTokenToMs id t.special.timestampBegin = none := by
  by_contra htimestamp
  have hoffset : (id - t.special.timestampBegin).toNat ≤ 1500 := by
    by_contra hlarge
    exact htimestamp (by simp [timestampTokenToMs, Nat.lt_of_not_le hlarge])
  have hmem : t.effectiveSuppressionSet.contains id = true := by
    rw [effectiveSuppressionSet, if_neg (by simp [htimestamps]), t.suppressNoTimestamps_eq,
      computeSuppressionSetNoTimestamps, SuppressionSet.contains_ofIds]
    refine List.mem_append_right _ (List.mem_map.mpr ⟨(id - t.special.timestampBegin).toNat, ?_, ?_⟩)
    · exact List.mem_range.mpr (Nat.lt_succ_of_le hoffset)
    · simp
  simp [h] at hmem

/-- **What holds of whatever is emitted.** -/
structure WellCut (t : OnnxWhisperTranscriber) (S : Sessions) (languageToken : UInt32) (emitted : List UInt32) : Prop where
  within_context : (t.start languageToken ++ emitted).length ≤ whisperDecoderContextTokens
  within_limit : emitted.length ≤ t.maxDecodeTokens
  no_control : ∀ id ∈ emitted, id ∉ t.special.control ∧ id ≠ t.special.endOfText
  /-- The segments are the texts between the timestamps; where no text is between them, everything is one segment. -/
  cut : ∃ spans : List Span,
    spans.flatMap Span.body =
      emitted.filter (fun id => (timestampTokenToMs id t.special.timestampBegin).isNone) ∧
    (∀ s ∈ spans, OnGrid s.startMs ∧ OnGrid s.endMs) ∧
    (t.segments S emitted = spans.flatMap (Span.segments S.text) ∨
      spans.flatMap (Span.segments S.text) = [] ∧ t.segments S emitted = pushSegment S.text 0 0 emitted)
  /-- Without timestamps there is one segment at most, with everything in it. -/
  without_timestamps : t.withTimestamps = false →
    (∀ id ∈ emitted, timestampTokenToMs id t.special.timestampBegin = none) ∧
      t.segments S emitted = if emitted.isEmpty then [] else pushSegment S.text 0 0 emitted

theorem wellCut_of_decodes (h : t.Decodes S w hidden languageToken emitted) : t.WellCut S languageToken emitted := by
  have hbudget := h.length_le
  have hstart := @length_start_le t languageToken
  unfold bodyBudget at hbudget
  have hfree : ∀ id ∈ emitted, t.effectiveSuppressionSet.contains id = false := fun id hid => by
    obtain ⟨k, hk⟩ := List.mem_iff_getElem?.mp hid
    exact free_of_emitted h hk
  have hall : emitted.takeWhile (· ≠ t.special.endOfText) = emitted :=
    List.takeWhile_eq_self_iff.mpr fun id hid => decide_eq_true fun heq => h.goes_on (heq ▸ hid)
  refine ⟨?_, by omega, fun id hid => ⟨not_mem_control (hfree id hid), fun heq => h.goes_on (heq ▸ hid)⟩, ?_, ?_⟩
  · rw [List.length_append]
    unfold whisperDecoderContextTokens at hbudget ⊢
    omega
  · obtain ⟨spans, hsegments, hbodies, htimes⟩ :=
      @exists_spans S.text t.special.timestampBegin emitted ⟨none, [], []⟩ nofun
    refine ⟨spans, by simpa using hbodies, htimes, ?_⟩
    have hfound : segmentsFromTokens emitted t.special.timestampBegin t.special.endOfText S.text =
        spans.flatMap (Span.segments S.text) := by
      rw [segmentsFromTokens, hall, hsegments, List.nil_append]
    unfold segments
    simp only [hfound]
    split
    · rename_i hblank
      exact .inr ⟨by simpa using hblank.1, rfl⟩
    · exact .inl rfl
  · intro htimestamps
    have hnone := fun id hid => timestampTokenToMs_of_free htimestamps (hfree id hid)
    refine ⟨hnone, ?_⟩
    have hfound : segmentsFromTokens emitted t.special.timestampBegin t.special.endOfText S.text =
        if emitted.isEmpty then [] else pushSegment S.text 0 0 emitted := by
      rw [segmentsFromTokens, hall, foldl_take_of_none hnone]
      simp [SegmentLoop.finish]
    unfold segments
    simp only [hfound]
    by_cases hempty : emitted = []
    · simp [hempty]
    · simp [hempty]

/-- **A transcription is greedy.** It returns exactly what the decoder's greatest logits spell out, token after token,
behind the language and task tokens, until the end of the text or the budget; the language is the pinned one or the
greatest; no control token is emitted, the context is never overrun, and the segments hold every other token once. -/
theorem transcription_is_greedy (t : OnnxWhisperTranscriber) (S : Sessions) (w : PointerWidth) (audioData : Bytes)
    (mimeType : String) :
    (∀ result, t.transcribe S w audioData mimeType = .ok result ↔
      ∃ hidden language emitted, Hears S w audioData mimeType hidden ∧ t.resolveLanguage S w hidden = .ok language ∧
        t.Decodes S w hidden language.1 emitted ∧ result = t.transcript S language.2 emitted) ∧
    (∀ hidden language, t.resolveLanguage S w hidden = .ok language → t.Speaks S w hidden language) ∧
    ∀ hidden languageToken emitted, t.Decodes S w hidden languageToken emitted → t.WellCut S languageToken emitted :=
  ⟨fun _ => transcribe_eq_ok, fun _ _ => speaks_of_resolveLanguage, fun _ _ _ => wellCut_of_decodes⟩

end OnnxWhisperTranscriber

end KChatCore.Models.Whisper
