import KChatCore.Lib.Words
import KChatCore.Search.ColdSearch

/-!
# `Search.CaseFolding` — the case of a text and of a query

The cold scorer lowers a text as a whole, with `str::to_lowercase`, and a word of the query character by character, with
`char::to_lowercase`. The two differ in one place: a capital sigma at the end of a word becomes `ς` in the text and `σ` in
the query.

* `CaseTables` — the tables of the Unicode database, and `CaseTables.lowercase` over them.
* `lowerWithin_eq` — away from a final sigma the two agree.
* `findsVerbatimWords_iff` — so a text is found by every word it has exactly when the words that lose a sigma stand in it
  spelled out as well.
-/

namespace KChatCore.Search

open Lib

/-- **The tables of the Unicode database** that lowercasing reads. -/
structure CaseTables where
  /-- `char::to_lowercase`. -/
  toLowercase : Char → List Char
  /-- `Cased`. -/
  cased : Char → Bool
  /-- `Case_Ignorable`. -/
  caseIgnorable : Char → Bool
  toLowercase_sigma : toLowercase 'Σ' = ['σ']

namespace CaseTables

variable (T : CaseTables)

/-- `case_ignorable_then_cased`. -/
def caseIgnorableThenCased (cs : List Char) : Bool := ((cs.dropWhile T.caseIgnorable).head?).any T.cased

/-- A sigma between `seen`, read backwards, and `rest` ends a word. -/
def isWordFinal (seen rest : List Char) : Bool := T.caseIgnorableThenCased seen && !T.caseIgnorableThenCased rest

/-- One character of `str::to_lowercase`, with `map_uppercase_sigma`. -/
def lowerAt (seen : List Char) (c : Char) (rest : List Char) : List Char :=
  if c = 'Σ' then (if T.isWordFinal seen rest then ['ς'] else ['σ']) else T.toLowercase c

/-- The loop of `str::to_lowercase` over a part of a text, with what comes before it, read backwards, and after it. -/
def lowerWithin : List Char → List Char → List Char → List Char
  | _, [], _ => []
  | seen, c :: cs, after => T.lowerAt seen c (cs ++ after) ++ lowerWithin (c :: seen) cs after

/-- `str::to_lowercase`. -/
def lowercase (s : String) : String := String.ofList (T.lowerWithin [] s.toList [])

/-- A part of a text has a capital sigma that ends a word of the text. -/
def FinalSigma (seen part after : List Char) : Prop :=
  ∃ a b, part = a ++ 'Σ' :: b ∧ T.isWordFinal (a.reverse ++ seen) (b ++ after) = true

variable {T}

theorem lowerWithin_append (seen a b after : List Char) :
    T.lowerWithin seen (a ++ b) after = T.lowerWithin seen a (b ++ after) ++ T.lowerWithin (a.reverse ++ seen) b after := by
  induction a generalizing seen with
  | nil => rfl
  | cons c a ih =>
      simp only [List.cons_append, lowerWithin, ih, List.reverse_cons, List.append_assoc]
      rfl

/-- **Without a final sigma, a text is lowered character by character.** -/
theorem lowerWithin_eq {seen part after : List Char} (h : ¬ T.FinalSigma seen part after) :
    T.lowerWithin seen part after = part.flatMap T.toLowercase := by
  induction part generalizing seen with
  | nil => rfl
  | cons c cs ih =>
      have hrest : ¬ T.FinalSigma (c :: seen) cs after := by
        rintro ⟨a, b, rfl, hfinal⟩
        refine h ⟨c :: a, b, rfl, ?_⟩
        rwa [List.reverse_cons, List.append_assoc]
      have hhead : T.lowerAt seen c (cs ++ after) = T.toLowercase c := by
        unfold lowerAt
        split_ifs with hc hfinal
        · exact absurd ⟨[], cs, by rw [hc]; rfl, hfinal⟩ h
        · rw [hc, T.toLowercase_sigma]
        · rfl
      rw [lowerWithin, hhead, ih hrest, List.flatMap_cons]

end CaseTables

/-- A search platform that lowers with the tables. -/
def SearchPlatform.withCase (E : SearchPlatform) (T : CaseTables) : SearchPlatform :=
  { E with toLowercase := T.toLowercase, lowercase := T.lowercase }

/-- What `lowercase_word_set` splits at. -/
def isWordBreak (c : Char) : Bool := isWhitespace c || isAsciiPunctuation c

/-- **Every word of a query that stands in the text is found there.** -/
def FindsVerbatimWords (E : SearchPlatform) (text : String) : Prop :=
  ∀ query : String, ∀ word ∈ words isWordBreak query.toList, word <:+: text.toList →
    strContains (E.lowercase text) (String.ofList (word.flatMap E.toLowercase)) = true

/-- The words of the text that lose a sigma wherever they stand in it are there spelled out as well. -/
def SigmaSpelledOut (T : CaseTables) (text : String) : Prop :=
  ∀ word ∈ words isWordBreak text.toList,
    (∀ before after, text.toList = before ++ word ++ after → T.FinalSigma before.reverse word after) →
    strContains (T.lowercase text) (String.ofList (word.flatMap T.toLowercase)) = true

theorem strContains_ofList {s : String} {part : List Char} :
    strContains s (String.ofList part) = true ↔ part <:+: s.toList := by
  unfold strContains
  rw [decide_eq_true_iff, String.toList_ofList]

/-- A part of a text without a final sigma is in the lowered text, lowered character by character. -/
theorem infix_lowercase {T : CaseTables} {text : String} {before part after : List Char}
    (htext : text.toList = before ++ part ++ after) (h : ¬ T.FinalSigma before.reverse part after) :
    part.flatMap T.toLowercase <:+: (T.lowercase text).toList := by
  unfold CaseTables.lowercase
  rw [String.toList_ofList, htext, CaseTables.lowerWithin_append, CaseTables.lowerWithin_append]
  rw [List.append_nil, List.append_nil, CaseTables.lowerWithin_eq h]
  exact ⟨_, _, rfl⟩

/-- **When a text is found by every word it has.** -/
theorem findsVerbatimWords_iff (E : SearchPlatform) (T : CaseTables) (text : String) :
    FindsVerbatimWords (E.withCase T) text ↔ SigmaSpelledOut T text := by
  constructor
  · intro hfinds word hword _
    exact hfinds text word hword (mem_words hword).2.2
  · rintro hspelled query word hword ⟨before, after, htext⟩
    obtain ⟨hne, hfree, -⟩ := mem_words hword
    -- the word is part of a word of the text, which is found or spelled out
    obtain ⟨before', l, r, after', rfl, rfl, hwhole⟩ :
        ∃ before' l r after', before = before' ++ l ∧ after = r ++ after' ∧
          l ++ word ++ r ∈ words isWordBreak (before ++ word ++ after) := exists_word_around hne hfree
    rw [htext] at hwhole
    refine strContains_ofList.mpr ?_
    have hpart : word.flatMap T.toLowercase <:+: (l ++ word ++ r).flatMap T.toLowercase := by
      rw [List.flatMap_append, List.flatMap_append]
      exact ⟨_, _, rfl⟩
    refine hpart.trans ?_
    by_cases hlost : ∀ before after, text.toList = before ++ (l ++ word ++ r) ++ after →
        T.FinalSigma before.reverse (l ++ word ++ r) after
    · exact strContains_ofList.mp (hspelled _ hwhole hlost)
    · push Not at hlost
      obtain ⟨before, after, hat, hkept⟩ := hlost
      exact infix_lowercase hat hkept

/-- The tables for the Latin and Greek alphabets. -/
def CaseTables.greek : CaseTables where
  toLowercase c :=
    if 0x0391 ≤ c.toNat && c.toNat ≤ 0x03A9 then [Char.ofNat (c.toNat + 32)] else [c.toLower]
  cased c := c.isAlpha || (0x0391 ≤ c.toNat && c.toNat ≤ 0x03C9)
  caseIgnorable c := c = '.' || c = ':' || c = '\''
  toLowercase_sigma := by decide

/-- The sigma that ends the only word of the text. -/
theorem findsVerbatimWords_fails : ¬ ∀ (E : SearchPlatform) (T : CaseTables) (text : String),
    FindsVerbatimWords (E.withCase T) text := by
  intro h
  have hword : "ΟΔΟΣ".toList ∈ words isWordBreak "ΟΔΟΣ".toList := by decide +kernel
  have hfound := h .plain .greek "ΟΔΟΣ" "ΟΔΟΣ" _ hword List.infix_rfl
  have hlost : strContains (CaseTables.greek.lowercase "ΟΔΟΣ")
      (String.ofList ("ΟΔΟΣ".toList.flatMap CaseTables.greek.toLowercase)) = false := by decide +kernel
  exact absurd (hlost.symm.trans hfound) (by decide)

end KChatCore.Search
