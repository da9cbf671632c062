import KChatCore.Primitives
import KChatCore.Search.Tokenizer

/-!
# `Message.Platform` — what the message pipelines get from outside

Embedders, OCR, transcription, document extraction and keyframe sampling are bridges a platform installs into the core;
`none` is a slot nobody filled. A bridge call returns a result or fails, and embeddings are kept in the form
`search_vector` stores them.
-/

namespace KChatCore

/-- `char::is_whitespace`. -/
def isWhitespace (c : Char) : Bool :=
  (9 ≤ c.toNat && c.toNat ≤ 13) || (0x2000 ≤ c.toNat && c.toNat ≤ 0x200A) ||
    c.toNat ∈ [0x20, 0x85, 0xA0, 0x1680, 0x2028, 0x2029, 0x202F, 0x205F, 0x3000]

/-- `str::trim`. -/
def trim (s : String) : String :=
  String.ofList ((s.toList.dropWhile isWhitespace).reverse.dropWhile isWhitespace).reverse

namespace Message

/-- `OcrResult`: one region. -/
structure OcrResult where
  text : String
  language : Option String
deriving DecidableEq, Repr

/-- `TranscriptionResult`. -/
structure TranscriptionResult where
  text : String
  language : Option String
deriving DecidableEq, Repr

/-- `DocumentPage`. -/
structure DocumentPage where
  pageNumber : Nat
  text : String
  language : Option String
deriving DecidableEq, Repr

/-- `Keyframe`. -/
structure Keyframe where
  frameIndex : Nat
  imageData : Bytes
  mimeType : String
deriving DecidableEq, Repr

/-- **The platform**: third-party functions and the installed bridges. -/
structure Platform where
  primitives : Primitives
  /-- `char::to_lowercase`. -/
  toLowercase : Char → List Char
  textEmbedder : Option (String → Option Bytes)
  imageEmbedder : Option (Bytes → String → Option Bytes)
  ocrBridge : Option (Bytes → String → Option (List OcrResult))
  whisperTranscriber : Option (Bytes → String → Option TranscriptionResult)
  documentExtractor : Option (Bytes → String → Option (List DocumentPage))
  videoKeyframeSampler : Option (Bytes → String → Nat → Option (List Keyframe))
  /-- What the resource gate answers; `true` without a probe. -/
  shouldRunOcr : Bool
  shouldRunTranscription : Bool

/-- A platform without bridges. -/
def Platform.bare : Platform where
  primitives := Primitives.reference
  toLowercase c := [c.toLower]
  textEmbedder := none
  imageEmbedder := none
  ocrBridge := none
  whisperTranscriber := none
  documentExtractor := none
  videoKeyframeSampler := none
  shouldRunOcr := true
  shouldRunTranscription := true

end Message

end KChatCore
