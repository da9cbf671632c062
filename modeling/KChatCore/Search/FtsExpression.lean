import KChatCore.Lib.Fts5
import KChatCore.Lib.Words
import KChatCore.Search.Engines

/-!
# `Search.FtsExpression` — what a query text becomes for FTS5

Outside the quoted form every chunk of the query is read back as one string, or is an operator between two of them. What
starts and ends with a quote goes to FTS5 as it was typed, and may be no expression at all.

* `reads_chunks` — the chunks, read back.
* `trim_trim` — trimming twice is trimming once.
* `buildFtsQuery_legal_iff` — the expression is legal, unless the query is passed through and is not one itself.
-/

namespace KChatCore

/-- Trimming twice is trimming once. -/
theorem trim_trim (s : String) : trim (trim s) = trim s := by
  have hrev : ∀ l : List Char, (l.reverse.dropWhile isWhitespace).reverse = l.rdropWhile isWhitespace := fun l => rfl
  have hfront : ∀ l : List Char, ((l.dropWhile isWhitespace).rdropWhile isWhitespace).dropWhile isWhitespace =
      (l.dropWhile isWhitespace).rdropWhile isWhitespace := by
    intro l
    -- what is left at the front is the first character of the trimmed front
    have hpre : (l.dropWhile isWhitespace).rdropWhile isWhitespace <+: l.dropWhile isWhitespace :=
      List.rdropWhile_prefix isWhitespace _
    refine List.dropWhile_eq_self_iff.mpr fun hlen => ?_
    have hhead := List.dropWhile_eq_self_iff.mp (List.dropWhile_idempotent isWhitespace l) (hlen.trans_le hpre.length_le)
    rwa [← hpre.getElem hlen] at hhead
  unfold trim
  rw [String.toList_ofList, hrev, hrev, hfront, List.rdropWhile_idempotent]

namespace Search

open Lib Lib.Fts5 LocalStore

/-! ## The chunks -/

/-- The verbatim form: the query starts and ends with a quote. -/
def IsPassedThrough (input : String) : Prop :=
  (trim input).toList.head? = some '"' ∧ (trim input).toList.getLast? = some '"' ∧ 2 ≤ (trim input).toList.length

/-- A chunk as one literal term; a trailing `*` makes it one for every word that starts so. -/
def literalTokens (raw : List Char) : List Token :=
  if raw.getLast? = some '*' then [.string raw.dropLast, .star] else [.string raw]

/-- How a chunk is read back. -/
inductive Reads (raw : List Char) : List Token → Prop
  | literal : Reads raw (literalTokens raw)
  | operator : String.ofList raw ∈ ["AND", "OR", "NOT", "NEAR"] → Reads raw [wordToken raw]

/-- The chunks of a query that hold more than a `*`. -/
def ftsChunks (input : String) : List (List Char) :=
  (words isWhitespace (trim input).toList).filter fun raw => raw ≠ ['*']

/-- The second pass, as a recursion: whether the token before is a term decides over an operator. -/
def demote (prevIsTerm : Bool) : List RawFtsToken → List String
  | [] => []
  | .term s :: raw => s :: demote true raw
  | .operator s :: raw =>
      (if prevIsTerm && (raw.head?.map RawFtsToken.isTerm).getD false then s else ftsPhrase s.toList) :: demote false raw

theorem zipIdx_eq_demote (before raw : List RawFtsToken) :
    ((raw.zipIdx before.length).map fun (tok, i) =>
      match tok with
      | .term s => s
      | .operator s =>
          let prevIsTerm := decide (i ≠ 0) && (((before ++ raw)[i - 1]?).map RawFtsToken.isTerm).getD false
          let nextIsTerm := (((before ++ raw)[i + 1]?).map RawFtsToken.isTerm).getD false
          if prevIsTerm && nextIsTerm then s else ftsPhrase s.toList) =
      demote ((before.getLast?.map RawFtsToken.isTerm).getD false) raw := by
  induction raw generalizing before with
  | nil => rfl
  | cons tok raw ih =>
      have hrest := ih (before ++ [tok])
      rw [List.append_assoc, List.singleton_append, List.length_append, List.length_singleton, List.getLast?_concat] at hrest
      rw [List.zipIdx_cons, List.map_cons, hrest]
      cases tok with
      | term s => rfl
      | operator s =>
          have hprev : (decide (before.length ≠ 0) &&
              (((before ++ .operator s :: raw)[before.length - 1]?).map RawFtsToken.isTerm).getD false) =
              (before.getLast?.map RawFtsToken.isTerm).getD false := by
            rcases List.eq_nil_or_concat before with rfl | ⟨front, last, rfl⟩
            · rfl
            · simp
          have hnext : (before ++ .operator s :: raw)[before.length + 1]? = raw.head? := by
            rw [List.getElem?_append_right (by omega), List.head?_eq_getElem?]
            simp
          rw [demote, ← hprev, ← hnext]
          rfl

theorem ftsTokens_eq_demote (raw : List RawFtsToken) : ftsTokens raw = demote false raw := zipIdx_eq_demote [] raw

theorem toList_ftsPhrase (s : List Char) : (ftsPhrase s).toList = quote s := by
  unfold ftsPhrase escapeFtsQuote quote escape
  simp

/-- **The first pass over a chunk**: a term that is read back as the chunk, or an operator. -/
theorem rawFtsToken_cases {raw : List Char} (hstar : raw ≠ ['*']) :
    (∃ s, rawFtsToken raw = some (.term s) ∧ Lexes s.toList (literalTokens raw)) ∨
    (String.ofList raw ∈ ["AND", "OR", "NOT", "NEAR"] ∧ rawFtsToken raw = some (.operator (String.ofList raw)) ∧
      literalTokens raw = [.string raw]) := by
  unfold rawFtsToken literalTokens
  split_ifs with hlast hempty hop
  · -- nothing but the star
    have hraw := List.dropLast_append_getLast? '*' hlast
    rw [List.isEmpty_iff.mp hempty] at hraw
    exact absurd hraw.symm hstar
  · refine .inl ⟨_, rfl, ?_⟩
    rw [String.toList_append, toList_ftsPhrase]
    exact lexes_starred _
  · exact .inr ⟨hop, rfl, rfl⟩
  · refine .inl ⟨_, rfl, ?_⟩
    rw [toList_ftsPhrase]
    exact lexes_quote raw

theorem literalTokens_phrase (raw : List Char) : IsPhrase (literalTokens raw) := by
  unfold literalTokens
  split_ifs
  · exact .starred (.string _)
  · exact .string (.string _)

/-- An operator is read back as one; `NEAR` without its group is a word. -/
theorem lexes_operator {raw : List Char} (h : String.ofList raw ∈ ["AND", "OR", "NOT", "NEAR"]) :
    Lexes raw [wordToken raw] ∧ (IsOperator (wordToken raw) ∨ IsPhrase [wordToken raw]) := by
  have hraw : raw ∈ [['A', 'N', 'D'], ['O', 'R'], ['N', 'O', 'T'], ['N', 'E', 'A', 'R']] := by
    simpa [← String.toList_inj] using h
  simp only [List.mem_cons, List.not_mem_nil, or_false] at hraw
  rcases hraw with rfl | rfl | rfl | rfl
  · exact ⟨lexes_word (by decide) (List.all_eq_true.mp (by decide)), .inl .and⟩
  · exact ⟨lexes_word (by decide) (List.all_eq_true.mp (by decide)), .inl .or⟩
  · exact ⟨lexes_word (by decide) (List.all_eq_true.mp (by decide)), .inl .not⟩
  · exact ⟨lexes_word (by decide) (List.all_eq_true.mp (by decide)), .inr (.string (.bareword _))⟩

/-- **What the chunks are read back as**, after a term or not. -/
structure ReadBack (prevIsTerm : Bool) (chunks : List (List Char)) (tokens : List (List Token)) : Prop where
  lexes : List.Forall₂ Lexes ((demote prevIsTerm (chunks.filterMap rawFtsToken)).map String.toList) tokens
  reads : List.Forall₂ Reads (chunks.filter fun raw => raw ≠ ['*']) tokens
  continues : Continues tokens.flatten
  chain : prevIsTerm = false → tokens = [] ∨ Chain tokens.flatten
  term : ((chunks.filterMap rawFtsToken).head?.map RawFtsToken.isTerm).getD false = true → Chain tokens.flatten

theorem exists_readBack (chunks : List (List Char)) (prevIsTerm : Bool) : ∃ tokens, ReadBack prevIsTerm chunks tokens := by
  induction chunks generalizing prevIsTerm with
  | nil => exact ⟨[], .nil, .nil, .nothing, fun _ => .inl rfl, fun h => absurd h (by decide)⟩
  | cons raw chunks ih =>
      by_cases hstar : raw = ['*']
      · obtain ⟨tokens, hread⟩ := ih prevIsTerm
        have hraw : rawFtsToken raw = none := by
          subst hstar
          rfl
        refine ⟨tokens, ?_, ?_, hread.continues, hread.chain, ?_⟩
        · rw [List.filterMap_cons_none hraw]
          exact hread.lexes
        · rw [List.filter_cons_of_neg (by simp [hstar])]
          exact hread.reads
        · rw [List.filterMap_cons_none hraw]
          exact hread.term
      · have hkept : (raw :: chunks).filter (fun raw => raw ≠ ['*']) = raw :: chunks.filter fun raw => raw ≠ ['*'] :=
          List.filter_cons_of_pos (by simp [hstar])
        rcases rawFtsToken_cases hstar with ⟨s, hraw, hlex⟩ | ⟨hop, hraw, hliteral⟩
        · -- a term: whatever follows goes on from it
          obtain ⟨tokens, hread⟩ := ih true
          have hchain : Chain (literalTokens raw :: tokens).flatten := hread.continues.chain_item (literalTokens_phrase raw).item
          refine ⟨literalTokens raw :: tokens, ?_, ?_, .chain hchain, fun _ => .inr hchain, fun _ => hchain⟩
          · rw [List.filterMap_cons_some hraw]
            exact .cons hlex hread.lexes
          · rw [hkept]
            exact .cons .literal hread.reads
        · obtain ⟨tokens, hread⟩ := ih false
          obtain ⟨hlex, hkind⟩ := lexes_operator hop
          have hterm : (((raw :: chunks).filterMap rawFtsToken).head?.map RawFtsToken.isTerm).getD false = false := by
            rw [List.filterMap_cons_some hraw]
            rfl
          by_cases hbetween : (prevIsTerm &&
              ((chunks.filterMap rawFtsToken).head?.map RawFtsToken.isTerm).getD false) = true
          · -- between two terms it stays an operator
            obtain ⟨hprev, hnext⟩ := Bool.and_eq_true_iff.mp hbetween
            have hrest := hread.term hnext
            refine ⟨[wordToken raw] :: tokens, ?_, ?_, ?_, fun h => ?_, fun h => ?_⟩
            · rw [List.filterMap_cons_some hraw, demote, if_pos hbetween]
              refine .cons ?_ hread.lexes
              rw [String.toList_ofList]
              exact hlex
            · rw [hkept]
              exact .cons (.operator hop) hread.reads
            · rcases hkind with hop | hword
              · exact .operator hop hrest
              · exact .chain ((Continues.chain hrest).chain_item hword.item)
            · exact absurd (hprev.symm.trans h) (by decide)
            · exact absurd (hterm.symm.trans h) (by decide)
          · -- anywhere else it is demoted to a phrase
            have hchain : Chain ([.string raw] :: tokens).flatten :=
              hread.continues.chain_item (IsPhrase.string (.string raw)).item
            refine ⟨[.string raw] :: tokens, ?_, ?_, .chain hchain, fun _ => .inr hchain, fun _ => hchain⟩
            · rw [List.filterMap_cons_some hraw, demote, if_neg hbetween]
              refine .cons ?_ hread.lexes
              rw [toList_ftsPhrase, String.toList_ofList]
              exact lexes_quote raw
            · rw [hkept]
              exact .cons (hliteral ▸ .literal) hread.reads

/-! ## The expression -/

theorem buildFtsQuery_of_passed {input : String} (h : IsPassedThrough input) : buildFtsQuery input = trim input := by
  obtain ⟨hfirst, hlast, hlength⟩ := h
  have hne : ¬ (trim input).isEmpty = true := by
    rw [String.isEmpty_iff]
    intro hempty
    rw [hempty] at hlength
    exact absurd hlength (by decide)
  unfold buildFtsQuery
  dsimp only
  rw [if_neg hne, if_pos (by simp [hfirst, hlast, hlength])]

theorem buildFtsQuery_of_blank {input : String} (h : (trim input).isEmpty = true) : buildFtsQuery input = "" := by
  unfold buildFtsQuery
  dsimp only
  rw [if_pos h]

/-- **Outside the quoted form** the chunks are read back, and make a query if there is any. -/
theorem buildFtsQuery_of_chunks {input : String} (h : ¬ IsPassedThrough input) :
    ∃ tokens, List.Forall₂ Reads (ftsChunks input) tokens ∧
      lex .between (buildFtsQuery input).toList = some tokens.flatten ∧
      (buildFtsQuery input = "" ∨ IsQuery tokens.flatten) := by
  by_cases hblank : (trim input).isEmpty = true
  · have hchunks : ftsChunks input = [] := by
      unfold ftsChunks
      rw [String.isEmpty_iff.mp hblank]
      rfl
    rw [hchunks, buildFtsQuery_of_blank hblank]
    exact ⟨[], .nil, rfl, .inl rfl⟩
  · obtain ⟨tokens, hread⟩ := exists_readBack (words isWhitespace (trim input).toList) false
    have hbuild : buildFtsQuery input =
        " ".intercalate (demote false ((words isWhitespace (trim input).toList).filterMap rawFtsToken)) := by
      unfold buildFtsQuery
      dsimp only
      rw [if_neg hblank, if_neg, ftsTokens_eq_demote]
      · rfl
      · intro hpassed
        refine h ?_
        simpa [and_assoc, IsPassedThrough] using hpassed
    refine ⟨tokens, hread.reads, ?_, ?_⟩
    · rw [hbuild, String.toList_intercalate]
      exact lex_intercalate hread.lexes
    · refine (hread.chain rfl).imp (fun hnil => ?_) Chain.query
      have hnone := hread.lexes
      rw [hnil] at hnone
      rw [hbuild, List.map_eq_nil_iff.mp (List.forall₂_nil_right_iff.mp hnone)]
      rfl

/-- **What is asked of the built expression.** -/
structure LegallyBuilt (E : SearchPlatform) (isSyntaxError : DbError → Prop) (input : String) : Prop where
  legal : buildFtsQuery input = "" ∨ Expression (buildFtsQuery input).toList
  accepted : ∀ (db : LocalStoreDb) (limit : Nat) (e : DbError), searchFts E db input limit = .error e → ¬ isSyntaxError e
  literal : ¬ IsPassedThrough input → ∃ tokens, List.Forall₂ Reads (ftsChunks input) tokens ∧
    lex .between (buildFtsQuery input).toList = some tokens.flatten

/-- `search_fts` fails as the `MATCH` fails. -/
theorem ftsMatch_of_searchFts {E : SearchPlatform} {db : LocalStoreDb} {input : String} {limit : Nat} {e : DbError}
    (h : searchFts E db input limit = .error e) :
    buildFtsQuery input ≠ "" ∧ E.ftsMatch (buildFtsQuery input) = .error e := by
  have hbuild : buildFtsQuery (trim input) = buildFtsQuery input := by
    unfold buildFtsQuery
    rw [trim_trim]
  unfold searchFts at h
  dsimp only at h
  rw [hbuild] at h
  split_ifs at h with hblank hempty
  refine ⟨fun heq => hempty (String.isEmpty_iff.mpr heq), ?_⟩
  cases hmatch : E.ftsMatch (buildFtsQuery input) with
  | error e' =>
      rw [hmatch] at h
      exact congrArg Except.error (Except.error.inj h)
  | ok selects =>
      rw [hmatch] at h
      exact absurd h (by simp [bind, Except.bind, pure, Except.pure])

/-- **A query text makes a legal expression**, unless it is passed through and is none itself. -/
theorem buildFtsQuery_legal_iff {E : SearchPlatform} {isSyntaxError : DbError → Prop}
    (hgrammar : ∀ expr, (∃ e, E.ftsMatch expr = .error e ∧ isSyntaxError e) ↔ ¬ Expression expr.toList) (input : String) :
    LegallyBuilt E isSyntaxError input ↔ (IsPassedThrough input → Expression (trim input).toList) := by
  constructor
  · intro h hpassed
    rw [← buildFtsQuery_of_passed hpassed]
    refine h.legal.resolve_left fun hempty => ?_
    rw [buildFtsQuery_of_passed hpassed] at hempty
    have hlength := hpassed.2.2
    rw [hempty] at hlength
    exact absurd hlength (by decide)
  · intro h
    -- a text that is built of its chunks lexes to a legal expression; one that is passed through is what it is
    have hlegal : buildFtsQuery input = "" ∨ Expression (buildFtsQuery input).toList := by
      by_cases hpassed : IsPassedThrough input
      · rw [buildFtsQuery_of_passed hpassed]
        exact .inr (h hpassed)
      · obtain ⟨tokens, -, hlex, hquery⟩ := buildFtsQuery_of_chunks hpassed
        exact hquery.imp_right fun hquery => ⟨_, hlex, hquery⟩
    refine ⟨hlegal, fun db limit e hfault hsyntax => ?_, fun hpassed => ?_⟩
    · obtain ⟨hne, hmatch⟩ := ftsMatch_of_searchFts hfault
      exact (hgrammar _).mp ⟨e, hmatch, hsyntax⟩ (hlegal.resolve_left hne)
    · obtain ⟨tokens, hreads, hlex, -⟩ := buildFtsQuery_of_chunks hpassed
      exact ⟨tokens, hreads, hlex⟩

open Classical in
/-- FTS5 as far as the grammar goes. -/
noncomputable def SearchPlatform.grammatical : SearchPlatform :=
  { SearchPlatform.plain with
    ftsMatch := fun expr =>
      if Expression expr.toList then SearchPlatform.plain.ftsMatch expr else .error (.rusqlite "fts5: syntax error") }

theorem buildFtsQuery_legal_iff_phrase :
    LegallyBuilt SearchPlatform.grammatical (fun e => e = .rusqlite "fts5: syntax error") "\"hello world\"" ↔
      (IsPassedThrough "\"hello world\"" → Expression (trim "\"hello world\"").toList) := by
  refine buildFtsQuery_legal_iff (fun expr => ?_) _
  by_cases hexpr : Expression expr.toList
  · refine iff_of_false ?_ (not_not_intro hexpr)
    rintro ⟨e, hmatch, -⟩
    have hok : SearchPlatform.grammatical.ftsMatch expr = SearchPlatform.plain.ftsMatch expr := if_pos hexpr
    rw [hok] at hmatch
    exact absurd hmatch (by simp [SearchPlatform.plain])
  · exact iff_of_true ⟨_, if_neg hexpr, rfl⟩ hexpr

/-- A quote inside what starts and ends with one leaves a string open. -/
theorem buildFtsQuery_legal_fails :
    ¬ ∀ input, buildFtsQuery input = "" ∨ Expression (buildFtsQuery input).toList := by
  intro h
  have hbuild : buildFtsQuery "\"a\"b\"" = "\"a\"b\"" := by decide +kernel
  have hlegal := h "\"a\"b\""
  rw [hbuild] at hlegal
  have heven := (hlegal.resolve_left (by decide)).even_count
  exact absurd heven (by decide)

end Search

end KChatCore
