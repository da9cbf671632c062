import Mathlib

/-!
# `Lib.Fts5` — the query language of FTS5

A text is cut into tokens by a lexer that reads one character at a time, and is an expression if its tokens derive from the
published grammar: phrases with an optional `*`, `NEAR` groups, column filters, parentheses, the three operators, and an
implicit `AND` between phrases that stand side by side.

* `lex_quote` — a quoted string is read back, whatever it holds.
* `lex_intercalate` — pieces between blanks are read one by one.
* `even_count_of_lex` — a text with an odd number of quotes is not read at all.
* `Chain.query` — runs of phrases with operators between them are queries.
-/

namespace KChatCore.Lib.Fts5

/-! ## Tokens -/

inductive Token
  | string (s : List Char)
  | bareword (s : List Char)
  | and
  | or
  | not
  | star
  | plus
  | minus
  | caret
  | comma
  | colon
  | lparen
  | rparen
  | lbrace
  | rbrace
deriving DecidableEq, Repr

def isSpace (c : Char) : Bool := c = ' ' || c = '\t' || c = '\n' || c = '\r'

/-- What a bareword is made of: letters, digits, underscores, the substitute character, and all that is not ASCII. -/
def isBareword (c : Char) : Bool := 128 ≤ c.toNat || c.isAlphanum || c = '_' || c.toNat = 26

def symbol : Char → Option Token
  | '*' => some .star
  | '+' => some .plus
  | '-' => some .minus
  | '^' => some .caret
  | ',' => some .comma
  | ':' => some .colon
  | '(' => some .lparen
  | ')' => some .rparen
  | '\x7b' => some .lbrace
  | '\x7d' => some .rbrace
  | _ => none

/-- The operators are barewords in capitals. -/
def wordToken (s : List Char) : Token :=
  if s = ['A', 'N', 'D'] then .and
  else if s = ['O', 'R'] then .or
  else if s = ['N', 'O', 'T'] then .not
  else .bareword s

/-- Where the lexer stands: between tokens, inside a string, after a quote that may close it, or inside a bareword. -/
inductive Mode
  | between
  | string (s : List Char)
  | closing (s : List Char)
  | bareword (s : List Char)
deriving DecidableEq, Repr

/-- A character where a token can start: the tokens that are complete, and where the lexer stands then. -/
def start (c : Char) : Option (List Token × Mode) :=
  if isSpace c then some ([], .between)
  else if c = '"' then some ([], .string [])
  else
    match symbol c with
    | some t => some ([t], .between)
    | none => if isBareword c then some ([], .bareword [c]) else none

/-- One character. -/
def step (c : Char) : Mode → Option (List Token × Mode)
  | .between => start c
  | .string s => if c = '"' then some ([], .closing s) else some ([], .string (s ++ [c]))
  | .closing s =>
      -- a doubled quote is a quote of the string
      if c = '"' then some ([], .string (s ++ ['"']))
      else (start c).map fun (done, m) => (.string s :: done, m)
  | .bareword s =>
      if isBareword c then some ([], .bareword (s ++ [c]))
      else (start c).map fun (done, m) => (wordToken s :: done, m)

/-- **The lexer.** It fails at a character no token starts with, and at a string nothing closes. -/
def lex : Mode → List Char → Option (List Token)
  | .between, [] => some []
  | .string _, [] => none
  | .closing s, [] => some [.string s]
  | .bareword s, [] => some [wordToken s]
  | m, c :: cs => (step c m).bind fun (done, m') => (lex m' cs).map (done ++ ·)

/-! ## The grammar -/

/-- A string, quoted or bare. -/
inductive IsString : Token → Prop
  | string (s : List Char) : IsString (.string s)
  | bareword (s : List Char) : IsString (.bareword s)

inductive IsPhrase : List Token → Prop
  | string {t : Token} : IsString t → IsPhrase [t]
  | starred {t : Token} : IsString t → IsPhrase [t, .star]
  | plus {a b : List Token} : IsPhrase a → IsPhrase b → IsPhrase (a ++ .plus :: b)

/-- Phrases side by side. -/
inductive ArePhrases : List Token → Prop
  | one {a : List Token} : IsPhrase a → ArePhrases a
  | cons {a l : List Token} : IsPhrase a → ArePhrases l → ArePhrases (a ++ l)

inductive IsDistance : List Token → Prop
  | absent : IsDistance []
  | given {s : List Char} : s ≠ [] → (∀ c ∈ s, c.isDigit = true) → IsDistance [.comma, .bareword s]

inductive IsNearGroup : List Token → Prop
  | phrase {a : List Token} : IsPhrase a → IsNearGroup a
  | first {a : List Token} : IsPhrase a → IsNearGroup (.caret :: a)
  | near {a d : List Token} : ArePhrases a → IsDistance d →
      IsNearGroup (.bareword ['N', 'E', 'A', 'R'] :: .lparen :: (a ++ d ++ [.rparen]))

inductive IsColumnList : List Token → Prop
  | one {t : Token} : IsString t → IsColumnList [t]
  | cons {t : Token} {l : List Token} : IsString t → IsColumnList l → IsColumnList (t :: l)

inductive IsColumnSpec : List Token → Prop
  | name {t : Token} : IsString t → IsColumnSpec [t]
  | list {l : List Token} : IsColumnList l → IsColumnSpec (.lbrace :: (l ++ [.rbrace]))
  | except {l : List Token} : IsColumnSpec l → l.head? ≠ some .minus → IsColumnSpec (.minus :: l)

/-- A phrase or a group, in all columns or in some. -/
inductive IsItem : List Token → Prop
  | group {a : List Token} : IsNearGroup a → IsItem a
  | filtered {c a : List Token} : IsColumnSpec c → IsNearGroup a → IsItem (c ++ .colon :: a)

/-- Side by side, with an implicit `AND`. -/
inductive AreItems : List Token → Prop
  | one {a : List Token} : IsItem a → AreItems a
  | cons {a l : List Token} : IsItem a → AreItems l → AreItems (a ++ l)

inductive IsOperator : Token → Prop
  | and : IsOperator .and
  | or : IsOperator .or
  | not : IsOperator .not

/-- **The queries**: an operator stands between two of them. -/
inductive IsQuery : List Token → Prop
  | items {a : List Token} : AreItems a → IsQuery a
  | paren {a : List Token} : IsQuery a → IsQuery (.lparen :: (a ++ [.rparen]))
  | filtered {c a : List Token} : IsColumnSpec c → IsQuery a → IsQuery (c ++ .colon :: .lparen :: (a ++ [.rparen]))
  | binary {t : Token} {a b : List Token} : IsQuery a → IsOperator t → IsQuery b → IsQuery (a ++ t :: b)

/-- **A legal expression.** -/
def Expression (cs : List Char) : Prop := ∃ tokens, lex .between cs = some tokens ∧ IsQuery tokens

/-! ## Reading back -/

/-- Every quote doubled. -/
def escape (s : List Char) : List Char := s.flatMap fun c => if c = '"' then [c, c] else [c]

/-- A quoted string. -/
def quote (s : List Char) : List Char := '"' :: (escape s ++ ['"'])

theorem escape_cons (c : Char) (s : List Char) :
    escape (c :: s) = (if c = '"' then ['"', '"'] else [c]) ++ escape s := by
  unfold escape
  rw [List.flatMap_cons]
  split_ifs with hc
  · rw [hc]
  · rfl

variable {m m' : Mode} {c : Char} {cs s : List Char} {done : List Token}

theorem lex_cons (m : Mode) (c : Char) (cs : List Char) :
    lex m (c :: cs) = (step c m).bind fun (done, m') => (lex m' cs).map (done ++ ·) := by
  cases m <;> rfl

/-- A character that completes no token. -/
theorem lex_silent (h : step c m = some ([], m')) : lex m (c :: cs) = lex m' cs := by
  rw [lex_cons, h]
  simp

theorem step_string_quote (s : List Char) : step '"' (.string s) = some ([], .closing s) := by
  simp only [step, if_true]

theorem step_string (s : List Char) (hc : c ≠ '"') : step c (.string s) = some ([], .string (s ++ [c])) := if_neg hc

/-- The second of two quotes. -/
theorem step_closing_quote (s : List Char) : step '"' (.closing s) = some ([], .string (s ++ ['"'])) := by
  simp only [step, if_true]

theorem step_bareword (s : List Char) (hc : isBareword c = true) : step c (.bareword s) = some ([], .bareword (s ++ [c])) :=
  if_pos hc

/-- **The closing quote is found**: the quotes before it are doubled. -/
theorem lex_string (acc s rest : List Char) :
    lex (.string acc) (escape s ++ '"' :: rest) = lex (.closing (acc ++ s)) rest := by
  induction s generalizing acc with
  | nil =>
      rw [List.append_nil]
      exact lex_silent (step_string_quote acc)
  | cons c s ih =>
      rw [escape_cons, List.append_assoc]
      split_ifs with hc
      · subst hc
        have hread := ih (acc ++ ['"'])
        rw [List.append_assoc, List.singleton_append] at hread
        rw [List.cons_append, List.singleton_append, lex_silent (step_string_quote acc), lex_silent (step_closing_quote acc),
          hread]
      · have hread := ih (acc ++ [c])
        rw [List.append_assoc, List.singleton_append] at hread
        rw [List.singleton_append, lex_silent (step_string acc hc), hread]

theorem lex_quote (s rest : List Char) : lex .between (quote s ++ rest) = lex (.closing s) rest := by
  unfold quote
  rw [List.cons_append, List.append_assoc, List.singleton_append, lex_silent (show step '"' .between = some ([], .string []) by decide),
    lex_string, List.nil_append]

/-- A piece of a text that is read alone, at its end and before a blank. -/
structure Lexes (piece : List Char) (tokens : List Token) : Prop where
  last : lex .between piece = some tokens
  blank : ∀ rest, lex .between (piece ++ ' ' :: rest) = (lex .between rest).map (tokens ++ ·)

theorem lexes_quote (s : List Char) : Lexes (quote s) [.string s] where
  last := by
    have h := lex_quote s []
    rw [List.append_nil] at h
    rw [h, lex]
  blank rest := by
    rw [lex_quote]
    simp [lex, step, start, isSpace]

theorem lexes_starred (s : List Char) : Lexes (quote s ++ ['*']) [.string s, .star] where
  last := by
    rw [lex_quote]
    simp [lex, step, start, isSpace, symbol]
  blank rest := by
    rw [List.append_assoc, List.singleton_append, lex_quote]
    simp [lex, step, start, isSpace, symbol, Function.comp_def]

theorem lex_bareword (acc : List Char) (hs : ∀ c ∈ s, isBareword c = true) (rest : List Char) :
    lex (.bareword acc) (s ++ rest) = lex (.bareword (acc ++ s)) rest := by
  induction s generalizing acc with
  | nil => rw [List.nil_append, List.append_nil]
  | cons c s ih =>
      obtain ⟨hc, hs⟩ := List.forall_mem_cons.mp hs
      have hread := ih (acc ++ [c]) hs
      rw [List.append_assoc, List.singleton_append] at hread
      rw [List.cons_append, lex_silent (step_bareword acc hc), hread]

theorem lexes_word (hc : start c = some ([], .bareword [c])) (hs : ∀ d ∈ s, isBareword d = true) :
    Lexes (c :: s) [wordToken (c :: s)] := by
  have hopen : ∀ rest, lex .between (c :: s ++ rest) = lex (.bareword (c :: s)) rest := by
    intro rest
    have hstep : step c .between = some ([], .bareword [c]) := hc
    rw [List.cons_append, lex_silent hstep, lex_bareword [c] hs rest]
    rfl
  constructor
  · have h := hopen []
    rw [List.append_nil] at h
    rw [h, lex]
  · intro rest
    have hblank : isBareword ' ' = false := by decide
    rw [hopen]
    simp [lex, step, start, isSpace, hblank]

/-- **Pieces between blanks** are read one by one. -/
theorem lex_intercalate {pieces : List (List Char)} {tokens : List (List Token)} (h : List.Forall₂ Lexes pieces tokens) :
    lex .between ([' '].intercalate pieces) = some tokens.flatten := by
  induction h with
  | nil => rfl
  | @cons piece ts pieces tokens hpiece hrest ih =>
      cases pieces with
      | nil =>
          cases hrest
          simpa using hpiece.last
      | cons piece' pieces =>
          rw [List.intercalate_cons_cons, List.append_assoc, List.singleton_append, hpiece.blank, ih]
          rfl

/-- The quotes a string that is open still needs. -/
def Mode.parity : Mode → Nat
  | .string _ => 1
  | _ => 0

theorem start_parity (h : start c = some (done, m)) : ((if c = '"' then 1 else 0) + m.parity) % 2 = 0 := by
  by_cases hquote : c = '"'
  · subst hquote
    obtain ⟨-, rfl⟩ := Prod.mk.inj (Option.some.inj ((by decide : some ([], .string []) = start '"').trans h))
    rfl
  · rw [if_neg hquote]
    unfold start at h
    rw [if_neg hquote] at h
    cases hs : symbol c with
    | some t =>
        rw [hs] at h
        split_ifs at h with hspace
        all_goals
          obtain ⟨-, rfl⟩ := Prod.mk.inj (Option.some.inj h)
          rfl
    | none =>
        rw [hs] at h
        split_ifs at h with hspace hword
        all_goals
          obtain ⟨-, rfl⟩ := Prod.mk.inj (Option.some.inj h)
          rfl

theorem step_parity (h : step c m = some (done, m')) : ((if c = '"' then 1 else 0) + m'.parity) % 2 = m.parity := by
  cases m with
  | between => exact start_parity h
  | string s =>
      simp only [step] at h
      split_ifs at h with hc
      all_goals
        obtain ⟨-, rfl⟩ := Prod.mk.inj (Option.some.inj h)
        simp [hc, Mode.parity]
  | closing s =>
      simp only [step] at h
      split_ifs at h with hc
      · obtain ⟨-, rfl⟩ := Prod.mk.inj (Option.some.inj h)
        simp [hc, Mode.parity]
      · obtain ⟨⟨done', m''⟩, hstart, heq⟩ := Option.map_eq_some_iff.mp h
        obtain ⟨-, rfl⟩ := Prod.mk.inj heq
        exact start_parity hstart
  | bareword s =>
      simp only [step] at h
      split_ifs at h with hc
      · obtain ⟨-, rfl⟩ := Prod.mk.inj (Option.some.inj h)
        have hne : c ≠ '"' := by
          rintro rfl
          exact absurd hc (by decide)
        simp [hne, Mode.parity]
      · obtain ⟨⟨done', m''⟩, hstart, heq⟩ := Option.map_eq_some_iff.mp h
        obtain ⟨-, rfl⟩ := Prod.mk.inj heq
        exact start_parity hstart

/-- **A text that is read has its quotes in pairs.** -/
theorem even_count_of_lex {tokens : List Token} (h : lex m cs = some tokens) : cs.count '"' % 2 = m.parity := by
  induction cs generalizing m tokens with
  | nil =>
      cases m with
      | string s => exact absurd h (by simp [lex])
      | _ => rfl
  | cons c cs ih =>
      rw [lex_cons] at h
      obtain ⟨⟨done, m'⟩, hstep, hrest⟩ := Option.bind_eq_some_iff.mp h
      obtain ⟨tokens', hlex, -⟩ := Option.map_eq_some_iff.mp hrest
      have hparity := step_parity hstep
      have hcount := ih hlex
      rw [List.count_cons]
      simp only [beq_iff_eq]
      omega

theorem Expression.even_count (h : Expression cs) : Even (cs.count '"') := by
  obtain ⟨tokens, hlex, -⟩ := h
  exact Nat.even_iff.mpr (even_count_of_lex hlex)

/-! ## Phrases and operators in a row -/

/-- Runs of phrases, with an operator between two of them. -/
inductive Chain : List Token → Prop
  | last {a : List Token} : AreItems a → Chain a
  | operator {t : Token} {a l : List Token} : AreItems a → IsOperator t → Chain l → Chain (a ++ t :: l)

theorem Chain.query {l : List Token} (h : Chain l) : IsQuery l := by
  induction h with
  | last ha => exact .items ha
  | operator ha ht hl ih => exact .binary (.items ha) ht ih

/-- What can follow a phrase: nothing, an operator and a chain, or a chain. -/
inductive Continues : List Token → Prop
  | nothing : Continues []
  | operator {t : Token} {l : List Token} : IsOperator t → Chain l → Continues (t :: l)
  | chain {l : List Token} : Chain l → Continues l

theorem Continues.chain_item {a l : List Token} (hl : Continues l) (ha : IsItem a) : Chain (a ++ l) := by
  cases hl with
  | nothing =>
      rw [List.append_nil]
      exact .last (.one ha)
  | operator ht hl => exact .operator (.one ha) ht hl
  | chain hl =>
      cases hl with
      | last hl => exact .last (.cons ha hl)
      | operator hb ht hl =>
          rw [← List.append_assoc]
          exact .operator (.cons ha hb) ht hl

theorem IsPhrase.item {a : List Token} (h : IsPhrase a) : IsItem a := .group (.phrase h)

end KChatCore.Lib.Fts5
