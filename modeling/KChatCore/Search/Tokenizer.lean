import KChatCore.Base

/-!
# `Search.Tokenizer` — scripts, and the n-grams of the fuzzy index

`segmentByScript` cuts a text into runs of one script, characters of no script going with the run before them, and
`generateTokens` takes the n-grams of each word of a run: bigrams of the logographic scripts, trigrams of the others.

`toLowercase` is the character mapping of the Unicode database, a parameter throughout.
-/

namespace KChatCore.Search

/-- `ScriptClass`. -/
inductive ScriptClass
  | latn
  | cyrl
  | grek
  | hani
  | hira
  | kana
  | hang
  | arab
  | hebr
  | deva
  | beng
  | thai
  | khmr
  | laoo
  | mymr
  | unknown
deriving DecidableEq, Repr

/-- `ScriptClass::to_iso_15924`. -/
def ScriptClass.toIso15924 : ScriptClass → String
  | latn => "Latn"
  | cyrl => "Cyrl"
  | grek => "Grek"
  | hani => "Hani"
  | hira => "Hira"
  | kana => "Kana"
  | hang => "Hang"
  | arab => "Arab"
  | hebr => "Hebr"
  | deva => "Deva"
  | beng => "Beng"
  | thai => "Thai"
  | khmr => "Khmr"
  | laoo => "Laoo"
  | mymr => "Mymr"
  | unknown => "Zzzz"

/-- `ScriptClass::from_iso_15924`. -/
def ScriptClass.fromIso15924 (code : String) : ScriptClass :=
  (([.latn, .cyrl, .grek, .hani, .hira, .kana, .hang, .arab, .hebr, .deva, .beng, .thai, .khmr, .laoo, .mymr] :
    List ScriptClass).find? fun c => c.toIso15924 == code).getD .unknown

@[simp] theorem ScriptClass.fromIso15924_toIso15924 (c : ScriptClass) : fromIso15924 c.toIso15924 = c := by
  cases c <;> decide

/-- `FuzzyGranularity`, as the length of the n-grams. -/
inductive FuzzyGranularity
  | bigram
  | trigram
deriving DecidableEq, Repr

/-- `fuzzy_granularity`. -/
def fuzzyGranularity : ScriptClass → FuzzyGranularity
  | .hani | .hira | .kana => .bigram
  | _ => .trigram

/-- `fuzzy_min_overlap`, as an exact fraction. -/
def fuzzyMinOverlap (script : ScriptClass) : Rat :=
  match fuzzyGranularity script with
  | .bigram => 1 / 2
  | .trigram => 1 / 3

/-- The blocks of `detect_script`, in its order. -/
def scriptBlocks : List (Nat × Nat × ScriptClass) := [
  (0x0041, 0x005A, .latn), (0x0061, 0x007A, .latn), (0x00C0, 0x024F, .latn), (0x1E00, 0x1EFF, .latn),
  (0x0370, 0x03FF, .grek), (0x1F00, 0x1FFF, .grek),
  (0x0400, 0x052F, .cyrl), (0x2DE0, 0x2DFF, .cyrl), (0xA640, 0xA69F, .cyrl),
  (0x0590, 0x05FF, .hebr), (0xFB1D, 0xFB4F, .hebr),
  (0x0600, 0x06FF, .arab), (0x0750, 0x077F, .arab), (0x08A0, 0x08FF, .arab), (0xFB50, 0xFDFF, .arab),
  (0xFE70, 0xFEFF, .arab),
  (0x0900, 0x097F, .deva), (0x0980, 0x09FF, .beng), (0x0E00, 0x0E7F, .thai), (0x0E80, 0x0EFF, .laoo),
  (0x1000, 0x109F, .mymr), (0x1780, 0x17FF, .khmr), (0x3040, 0x309F, .hira),
  (0x30A0, 0x30FF, .kana), (0x31F0, 0x31FF, .kana),
  (0x1100, 0x11FF, .hang), (0x3130, 0x318F, .hang), (0xA960, 0xA97F, .hang), (0xAC00, 0xD7AF, .hang),
  (0x3400, 0x4DBF, .hani), (0x4E00, 0x9FFF, .hani), (0x20000, 0x2A6DF, .hani), (0x2A700, 0x2EBEF, .hani)]

/-- `detect_script`. -/
def detectScript (c : Char) : ScriptClass :=
  ((scriptBlocks.find? fun b => b.1 ≤ c.toNat && c.toNat ≤ b.2.1).map fun b => b.2.2).getD .unknown

/-- The loop of `segment_by_script`: the runs so far, last one first, and the characters waiting for a run. -/
def segmentLoop : List (ScriptClass × List Char) → List Char → List Char → List (ScriptClass × List Char)
  | runs, pending, [] =>
      if pending.isEmpty then runs.reverse
      else
        match runs with
        | last :: earlier => ((last.1, last.2 ++ pending) :: earlier).reverse
        | [] => [(.unknown, pending)]
  | runs, pending, c :: cs =>
      if detectScript c = .unknown then segmentLoop runs (pending ++ [c]) cs
      else
        match runs with
        | last :: earlier =>
            if last.1 = detectScript c then segmentLoop ((last.1, last.2 ++ pending ++ [c]) :: earlier) [] cs
            else segmentLoop ((detectScript c, [c]) :: (last.1, last.2 ++ pending) :: earlier) [] cs
        | [] => segmentLoop [(detectScript c, pending ++ [c])] [] cs

/-- `segment_by_script`. -/
def segmentByScript (text : String) : List (ScriptClass × List Char) := segmentLoop [] [] text.toList

/-- `char::is_ascii_punctuation`. -/
def isAsciiPunctuation (c : Char) : Bool :=
  (33 ≤ c.toNat && c.toNat ≤ 47) || (58 ≤ c.toNat && c.toNat ≤ 64) || (91 ≤ c.toNat && c.toNat ≤ 96) ||
    (123 ≤ c.toNat && c.toNat ≤ 126)

/-- `char::is_ascii_whitespace`. -/
def isAsciiWhitespace (c : Char) : Bool := c.toNat ∈ [9, 10, 12, 13, 32]

/-- `split_words`. -/
def splitWords (run : List Char) : List (List Char) :=
  (run.splitOnP fun c => isAsciiWhitespace c || isAsciiPunctuation c || c.isDigit).filter fun w => !w.isEmpty

/-- `FuzzyToken`. -/
structure FuzzyToken where
  token : String
  script : ScriptClass
deriving DecidableEq, Repr

/-- `slice::windows`. -/
def windows (n : Nat) (chars : List Char) : List (List Char) :=
  (List.range (chars.length + 1 - n)).map fun i => (chars.drop i).take n

/-- `FuzzyTokenizer::generate_tokens`. -/
def generateTokens (toLowercase : Char → List Char) (text : String) : List FuzzyToken :=
  (segmentByScript text).flatMap fun (script, run) =>
    if script = .unknown then []
    else
      let n := match fuzzyGranularity script with
        | .bigram => 2
        | .trigram => 3
      (splitWords run).flatMap fun word =>
        (windows n (word.flatMap toLowercase)).map fun window => ⟨String.ofList window, script⟩

example : generateTokens (fun c => [c.toLower]) "Meet 会議" =
    [⟨"mee", .latn⟩, ⟨"eet", .latn⟩, ⟨"会議", .hani⟩] := by decide +kernel

end KChatCore.Search
