import KChatCore.Lib.Words
import KChatCore.Message.IndexAgreement
import KChatCore.Search.FuzzyAgreement

/-!
# `Search.ExcerptTokens` — the n-grams of an excerpt, and those of the text

Cutting a text into runs looks back only: a character of no script goes with the script before it. Only what stands
before the first character of a script goes with the script after it, and that is where an excerpt can differ from the
text it was taken from.

* `exists_run` — where a piece of a text of one script ends up.
* `segmentByScript_shape` — what a run looks like.
* `mem_generateTokens_of_excerpt` — the tokens of an excerpt are tokens of the text, unless the excerpt opens with filler
  that goes with another script in the text.
* `searchFuzzy_excerpt` — so a search for the excerpt finds the message, with a full score.
-/

namespace KChatCore.Search

open Lib LocalStore

/-! ## The loop of the segmenter -/

section Loop

variable {runs earlier : List (ScriptClass × List Char)} {last : ScriptClass × List Char} {s : ScriptClass}
  {r pending : List Char}

/-- A character of no script waits. -/
theorem segmentLoop_common {c : Char} (hc : detectScript c = .unknown) (runs : List (ScriptClass × List Char))
    (pending cs : List Char) : segmentLoop runs pending (c :: cs) = segmentLoop runs (pending ++ [c]) cs := by
  cases runs <;> simp only [segmentLoop, if_pos hc]

/-- A character of the script of the last run continues it. -/
theorem segmentLoop_same {c : Char} (hc : detectScript c ≠ .unknown) (hs : s = detectScript c) (cs : List Char) :
    segmentLoop ((s, r) :: earlier) pending (c :: cs) = segmentLoop ((s, r ++ pending ++ [c]) :: earlier) [] cs := by
  simp only [segmentLoop, if_neg hc, if_pos hs]

/-- A character of another script begins a run. -/
theorem segmentLoop_change {c : Char} (hc : detectScript c ≠ .unknown) (hs : s ≠ detectScript c) (cs : List Char) :
    segmentLoop ((s, r) :: earlier) pending (c :: cs) =
      segmentLoop ((detectScript c, [c]) :: (s, r ++ pending) :: earlier) [] cs := by
  simp only [segmentLoop, if_neg hc, if_neg hs]

/-- The first character of a script begins the first run. -/
theorem segmentLoop_first {c : Char} (hc : detectScript c ≠ .unknown) (pending cs : List Char) :
    segmentLoop [] pending (c :: cs) = segmentLoop [(detectScript c, pending ++ [c])] [] cs := by
  simp only [segmentLoop, if_neg hc]

/-- A run that is not the last one stays as it is. -/
theorem mem_segmentLoop_of_earlier (h : (s, r) ∈ earlier) (cs : List Char) :
    (s, r) ∈ segmentLoop (last :: earlier) pending cs := by
  induction cs generalizing last earlier pending with
  | nil =>
      unfold segmentLoop
      split_ifs
      · exact List.mem_reverse.mpr (List.mem_cons_of_mem _ h)
      · exact List.mem_reverse.mpr (List.mem_cons_of_mem _ h)
  | cons c cs ih =>
      unfold segmentLoop
      dsimp only
      split_ifs
      · exact ih h
      · exact ih h
      · exact ih (List.mem_cons_of_mem _ h)

/-- The last run keeps what it has and takes what is waiting. -/
theorem segmentLoop_last (cs : List Char) :
    ∃ run, (s, run) ∈ segmentLoop ((s, r) :: earlier) pending cs ∧ r ++ pending <+: run := by
  induction cs generalizing r earlier pending with
  | nil =>
      unfold segmentLoop
      split_ifs with hempty
      · rw [List.isEmpty_iff.mp hempty, List.append_nil]
        exact ⟨r, by simp, List.prefix_rfl⟩
      · exact ⟨r ++ pending, by simp, List.prefix_rfl⟩
  | cons c cs ih =>
      unfold segmentLoop
      dsimp only
      split_ifs with hcommon hsame
      · obtain ⟨run, hrun, hfront⟩ : ∃ run, (s, run) ∈ segmentLoop ((s, r) :: earlier) (pending ++ [c]) cs ∧
            r ++ (pending ++ [c]) <+: run := ih
        rw [← List.append_assoc] at hfront
        exact ⟨run, hrun, (List.prefix_append _ _).trans hfront⟩
      · obtain ⟨run, hrun, hfront⟩ : ∃ run, (s, run) ∈ segmentLoop ((s, r ++ pending ++ [c]) :: earlier) [] cs ∧
            r ++ pending ++ [c] ++ [] <+: run := ih
        rw [List.append_nil] at hfront
        exact ⟨run, hrun, (List.prefix_append _ _).trans hfront⟩
      · exact ⟨r ++ pending, mem_segmentLoop_of_earlier List.mem_cons_self cs, List.prefix_rfl⟩

/-- Characters of the script of the last run, and of none, go to it. -/
theorem segmentLoop_within {x : List Char} (hx : ∀ c ∈ x, detectScript c = .unknown ∨ detectScript c = s) (post : List Char) :
    ∃ r' pending', segmentLoop ((s, r) :: earlier) pending (x ++ post) = segmentLoop ((s, r') :: earlier) pending' post ∧
      r' ++ pending' = r ++ pending ++ x := by
  induction x generalizing r pending with
  | nil => exact ⟨r, pending, rfl, (List.append_nil _).symm⟩
  | cons c x ih =>
      obtain ⟨hc, hx⟩ := List.forall_mem_cons.mp hx
      by_cases hcommon : detectScript c = .unknown
      · obtain ⟨r', pending', heq, hall⟩ : ∃ r' pending', segmentLoop ((s, r) :: earlier) (pending ++ [c]) (x ++ post) =
            segmentLoop ((s, r') :: earlier) pending' post ∧ r' ++ pending' = r ++ (pending ++ [c]) ++ x := ih hx
        refine ⟨r', pending', ?_, by rw [hall]; simp⟩
        rw [List.cons_append, segmentLoop_common hcommon]
        exact heq
      · have hsame : s = detectScript c := (hc.resolve_left hcommon).symm
        obtain ⟨r', pending', heq, hall⟩ : ∃ r' pending', segmentLoop ((s, r ++ pending ++ [c]) :: earlier) [] (x ++ post) =
            segmentLoop ((s, r') :: earlier) pending' post ∧ r' ++ pending' = r ++ pending ++ [c] ++ [] ++ x := ih hx
        refine ⟨r', pending', ?_, by rw [hall]; simp⟩
        rw [List.cons_append, segmentLoop_same hcommon hsame]
        exact heq

/-- The script of the last character that has one. -/
def lastScript (before : Option ScriptClass) (cs : List Char) : Option ScriptClass :=
  cs.foldl (fun s c => if detectScript c = .unknown then s else some (detectScript c)) before

/-- After a part of the text, the last run is of the last script. -/
theorem segmentLoop_append (runs : List (ScriptClass × List Char)) (pending pre rest : List Char) :
    ∃ runs' pending', segmentLoop runs pending (pre ++ rest) = segmentLoop runs' pending' rest ∧
      (runs'.head?).map Prod.fst = lastScript ((runs.head?).map Prod.fst) pre := by
  induction pre generalizing runs pending with
  | nil => exact ⟨runs, pending, rfl, rfl⟩
  | cons c pre ih =>
      unfold lastScript
      rw [List.cons_append, List.foldl_cons]
      by_cases hcommon : detectScript c = .unknown
      · rw [segmentLoop_common hcommon, if_pos hcommon]
        exact ih runs (pending ++ [c])
      · rw [if_neg hcommon]
        cases runs with
        | nil =>
            rw [segmentLoop_first hcommon]
            exact ih _ _
        | cons last earlier =>
            obtain ⟨s, r⟩ := last
            by_cases hsame : s = detectScript c
            · rw [segmentLoop_same hcommon hsame, ← hsame]
              exact ih ((s, r ++ pending ++ [c]) :: earlier) []
            · rw [segmentLoop_change hcommon hsame]
              exact ih _ _

/-- A character of a script begins or continues a run of the script; what waits before it comes along when the last run
is of the script, or there is none. -/
theorem segmentLoop_scripted (runs : List (ScriptClass × List Char)) (pending : List Char) {c : Char}
    (hc : detectScript c = s) (hs : s ≠ .unknown) (cs : List Char) :
    ∃ r earlier, segmentLoop runs pending (c :: cs) = segmentLoop ((s, r ++ [c]) :: earlier) [] cs ∧
      ((runs.head?).map Prod.fst = none ∨ (runs.head?).map Prod.fst = some s → pending <:+ r) := by
  have hcommon : detectScript c ≠ .unknown := hc ▸ hs
  cases runs with
  | nil => exact ⟨pending, [], by rw [segmentLoop_first hcommon, hc], fun _ => List.suffix_rfl⟩
  | cons last earlier =>
      obtain ⟨s', r⟩ := last
      by_cases hsame : s' = detectScript c
      · refine ⟨r ++ pending, earlier, ?_, fun _ => List.suffix_append _ _⟩
        rw [segmentLoop_same hcommon hsame, hsame, hc]
      · refine ⟨[], (s', r ++ pending) :: earlier, by rw [segmentLoop_change hcommon hsame, hc]; rfl, fun hlast => ?_⟩
        rcases hlast with hnone | hsome
        · exact absurd hnone (by simp)
        · exact absurd ((Option.some.inj hsome).trans hc.symm) hsame

end Loop

/-- **Where a piece of a text ends up**: characters of one script and filler, from a character of the script on, are in one
run. Filler before it is in the run as well when the last script before the piece is the same, or there is none. -/
theorem exists_run {s : ScriptClass} (hs : s ≠ .unknown) {pre lead rest post : List Char} {c : Char}
    (hc : detectScript c = s) (hlead : ∀ x ∈ lead, detectScript x = .unknown)
    (hrest : ∀ x ∈ rest, detectScript x = .unknown ∨ detectScript x = s)
    (hopen : lead = [] ∨ lastScript none pre = none ∨ lastScript none pre = some s) :
    ∃ run, (s, run) ∈ segmentLoop [] [] (pre ++ (lead ++ c :: rest) ++ post) ∧ lead ++ c :: rest <:+: run := by
  obtain ⟨runs, pending, hpre, hlast⟩ : ∃ runs pending,
      segmentLoop [] [] (pre ++ ((lead ++ c :: rest) ++ post)) = segmentLoop runs pending ((lead ++ c :: rest) ++ post) ∧
        (runs.head?).map Prod.fst = lastScript none pre := segmentLoop_append [] [] pre _
  -- the filler waits
  have hwaits : ∀ (lead : List Char) (pending : List Char), (∀ x ∈ lead, detectScript x = .unknown) →
      ∀ cs, segmentLoop runs pending (lead ++ cs) = segmentLoop runs (pending ++ lead) cs := by
    intro lead
    induction lead with
    | nil => intro pending _ cs; rw [List.append_nil]; rfl
    | cons x lead ih =>
        intro pending hlead cs
        obtain ⟨hx, hlead⟩ := List.forall_mem_cons.mp hlead
        rw [List.cons_append, segmentLoop_common hx, ih _ hlead, List.append_assoc]
        rfl
  obtain ⟨r, earlier, hstep, htakes⟩ := segmentLoop_scripted runs (pending ++ lead) hc hs (rest ++ post)
  obtain ⟨r', pending', hwithin, hall⟩ : ∃ r' pending', segmentLoop ((s, r ++ [c]) :: earlier) [] (rest ++ post) =
      segmentLoop ((s, r') :: earlier) pending' post ∧ r' ++ pending' = r ++ [c] ++ [] ++ rest := segmentLoop_within hrest post
  obtain ⟨run, hrun, hfront⟩ : ∃ run, (s, run) ∈ segmentLoop ((s, r') :: earlier) pending' post ∧ r' ++ pending' <+: run :=
    segmentLoop_last post
  refine ⟨run, ?_, ?_⟩
  · rw [List.append_assoc, hpre, List.append_assoc, hwaits lead pending hlead, List.cons_append, hstep, hwithin]
    exact hrun
  · refine List.IsInfix.trans ?_ hfront.isInfix
    rw [hall, List.append_nil]
    -- the filler is at the end of what the run had before the character, or there is none
    have hsuffix : lead <:+ r := by
      rcases hopen with rfl | hnone
      · exact List.nil_suffix
      · rw [← hlast] at hnone
        exact (List.suffix_append _ _).trans (htakes hnone)
    obtain ⟨front, rfl⟩ := hsuffix
    exact ⟨front, [], by simp⟩

/-! ## The shape of the runs -/

/-- A run of a script: filler, then a character of the script, then characters of the script and filler. -/
def IsRun (s : ScriptClass) (lead : List Char) (c : Char) (rest : List Char) : Prop :=
  s ≠ .unknown ∧ detectScript c = s ∧ (∀ x ∈ lead, detectScript x = .unknown) ∧
    ∀ x ∈ rest, detectScript x = .unknown ∨ detectScript x = s

/-- The runs so far, last one first: only the first of them may open with filler. -/
def Shaped : List (ScriptClass × List Char) → Prop
  | [] => True
  | (s, run) :: earlier => Shaped earlier ∧
      ∃ lead c rest, run = lead ++ c :: rest ∧ IsRun s lead c rest ∧ (earlier ≠ [] → lead = [])

/-- What the runs cover. -/
def covered (runs : List (ScriptClass × List Char)) : List Char := (runs.reverse.map Prod.snd).flatten

theorem covered_cons (s : ScriptClass) (r : List Char) (earlier : List (ScriptClass × List Char)) :
    covered ((s, r) :: earlier) = covered earlier ++ r := by
  unfold covered
  simp

/-- More of the same script, and filler, keep the last run in shape. -/
theorem Shaped.extend {s : ScriptClass} {r x : List Char} {earlier : List (ScriptClass × List Char)}
    (h : Shaped ((s, r) :: earlier)) (hx : ∀ c ∈ x, detectScript c = .unknown ∨ detectScript c = s) :
    Shaped ((s, r ++ x) :: earlier) := by
  obtain ⟨hearlier, lead, c, rest, rfl, ⟨hs, hc, hlead, hrest⟩, hfirst⟩ := h
  refine ⟨hearlier, lead, c, rest ++ x, by simp, ⟨hs, hc, hlead, fun y hy => ?_⟩, hfirst⟩
  exact (List.mem_append.mp hy).elim (hrest y) (hx y)

/-- **The loop keeps the runs in shape**, and they cover the text. -/
theorem segmentLoop_shaped {runs : List (ScriptClass × List Char)} {pending : List Char} (hruns : Shaped runs)
    (hpending : ∀ x ∈ pending, detectScript x = .unknown) (cs : List Char) :
    (∀ p ∈ segmentLoop runs pending cs, p.1 = .unknown) ∨ ∃ runs', segmentLoop runs pending cs = runs'.reverse ∧
      Shaped runs' ∧ covered runs' = covered runs ++ pending ++ cs := by
  induction cs generalizing runs pending with
  | nil =>
      unfold segmentLoop
      split_ifs with hempty
      · exact .inr ⟨runs, rfl, hruns, by simp [List.isEmpty_iff.mp hempty]⟩
      · cases runs with
        | nil => exact .inl fun p hp => by rw [List.mem_singleton.mp hp]
        | cons last earlier =>
            obtain ⟨s, r⟩ := last
            refine .inr ⟨(s, r ++ pending) :: earlier, rfl, hruns.extend fun x hx => .inl (hpending x hx), ?_⟩
            rw [covered_cons, covered_cons, List.append_nil, List.append_assoc]
  | cons c cs ih =>
      by_cases hcommon : detectScript c = .unknown
      · -- a common character waits for the script of the next
        rw [segmentLoop_common hcommon]
        have hwaiting : ∀ x ∈ pending ++ [c], detectScript x = .unknown := by
          intro x hx
          rcases List.mem_append.mp hx with hx | hx
          · exact hpending x hx
          · rw [List.mem_singleton.mp hx, hcommon]
        have hnext := ih hruns hwaiting
        rwa [← List.append_assoc, List.append_assoc _ [c] cs] at hnext
      · cases runs with
        | nil =>
            -- what waited goes to the first run
            rw [segmentLoop_first hcommon]
            have hrun : Shaped [(detectScript c, pending ++ [c])] :=
              ⟨trivial, pending, c, [], rfl, ⟨hcommon, rfl, hpending, by simp⟩, fun h => absurd rfl h⟩
            have hnext := ih hrun (fun x hx => absurd hx List.not_mem_nil)
            rw [covered_cons] at hnext
            simpa using hnext
        | cons last earlier =>
            obtain ⟨s, r⟩ := last
            by_cases hsame : s = detectScript c
            · rw [segmentLoop_same hcommon hsame]
              have hrun : Shaped ((s, r ++ (pending ++ [c])) :: earlier) := by
                refine hruns.extend fun x hx => ?_
                rcases List.mem_append.mp hx with hx | hx
                · exact .inl (hpending x hx)
                · rw [List.mem_singleton.mp hx]
                  exact .inr hsame.symm
              have hnext := ih (List.append_assoc r pending [c] ▸ hrun) (fun x hx => absurd hx List.not_mem_nil)
              simpa [covered_cons] using hnext
            · -- what waited stays with the run that ends
              rw [segmentLoop_change hcommon hsame]
              have hrun : Shaped ((detectScript c, [c]) :: (s, r ++ pending) :: earlier) :=
                ⟨hruns.extend fun x hx => .inl (hpending x hx), [], c, [], rfl, ⟨hcommon, rfl, by simp, by simp⟩,
                  fun _ => rfl⟩
              have hnext := ih hrun (fun x hx => absurd hx List.not_mem_nil)
              simpa [covered_cons] using hnext

/-- The runs after a run. -/
theorem Shaped.of_mem {runs : List (ScriptClass × List Char)} (h : Shaped runs) {s : ScriptClass} {run : List Char}
    (hmem : (s, run) ∈ runs) : ∃ a lead c rest b, covered runs = a ++ run ++ b ∧ run = lead ++ c :: rest ∧
      IsRun s lead c rest ∧ (a ≠ [] → lead = []) := by
  induction runs with
  | nil => exact absurd hmem List.not_mem_nil
  | cons last earlier ih =>
      obtain ⟨s', run'⟩ := last
      obtain ⟨hearlier, lead, c, rest, hrun, hshape, hfirst⟩ := h
      rw [covered_cons]
      rcases List.mem_cons.mp hmem with heq | hmem
      · obtain ⟨rfl, rfl⟩ := Prod.mk.injEq _ _ _ _ ▸ heq
        refine ⟨covered earlier, lead, c, rest, [], by simp, hrun, hshape, fun hne => hfirst ?_⟩
        rintro rfl
        exact hne rfl
      · obtain ⟨a, lead', c', rest', b, hcovered, hrun', hshape', hfirst'⟩ := ih hearlier hmem
        exact ⟨a, lead', c', rest', b ++ run', by rw [hcovered]; simp, hrun', hshape', hfirst'⟩

/-- **What a run looks like**, and where it stands: only a run at the start of the text opens with filler. -/
theorem segmentByScript_shape {text : String} {s : ScriptClass} {run : List Char}
    (h : (s, run) ∈ segmentByScript text) (hs : s ≠ .unknown) :
    ∃ a lead c rest b, text.toList = a ++ run ++ b ∧ run = lead ++ c :: rest ∧ IsRun s lead c rest ∧
      (a ≠ [] → lead = []) := by
  unfold segmentByScript at h
  have hempty : Shaped [] := by
    unfold Shaped
    trivial
  have hloop : (∀ p ∈ segmentLoop [] [] text.toList, p.1 = .unknown) ∨ ∃ runs,
      segmentLoop [] [] text.toList = runs.reverse ∧ Shaped runs ∧ covered runs = covered [] ++ [] ++ text.toList :=
    segmentLoop_shaped hempty (fun x hx => absurd hx List.not_mem_nil) text.toList
  rcases hloop with hunknown | ⟨runs, heq, hshaped, hcovered⟩
  · exact absurd (hunknown _ h) hs
  · rw [heq, List.mem_reverse] at h
    obtain ⟨a, lead, c, rest, b, hall, hrun⟩ := hshaped.of_mem h
    exact ⟨a, lead, c, rest, b, by rw [← hall, hcovered]; rfl, hrun⟩

/-! ## Tokens -/

/-- What `split_words` cuts at. -/
def isTokenBreak (c : Char) : Bool := isAsciiWhitespace c || isAsciiPunctuation c || c.isDigit

/-- The length of the n-grams of a script. -/
def gramLength (s : ScriptClass) : Nat :=
  match fuzzyGranularity s with
  | .bigram => 2
  | .trigram => 3

theorem mem_windows {n : Nat} {l w : List Char} : w ∈ windows n l ↔ w.length = n ∧ w <:+: l := by
  unfold windows
  simp only [List.mem_map, List.mem_range]
  constructor
  · rintro ⟨i, hi, rfl⟩
    refine ⟨by rw [List.length_take, List.length_drop]; omega, ?_⟩
    exact (List.take_prefix n _).isInfix.trans (List.drop_suffix i l).isInfix
  · rintro ⟨rfl, a, b, rfl⟩
    exact ⟨a.length, by simp only [List.length_append]; omega, by simp⟩

/-- **The tokens of a text**: the n-grams of the words of its runs. -/
theorem mem_generateTokens {toLowercase : Char → List Char} {text : String} {tok : FuzzyToken} :
    tok ∈ generateTokens toLowercase text ↔ tok.script ≠ .unknown ∧ ∃ run, (tok.script, run) ∈ segmentByScript text ∧
      ∃ word ∈ words isTokenBreak run, tok.token.toList.length = gramLength tok.script ∧
        tok.token.toList <:+: word.flatMap toLowercase := by
  unfold generateTokens
  simp only [List.mem_flatMap]
  constructor
  · rintro ⟨⟨s, run⟩, hrun, htok⟩
    dsimp only at htok
    split_ifs at htok with hunknown
    · exact absurd htok List.not_mem_nil
    · obtain ⟨word, hword, htok⟩ := List.mem_flatMap.mp htok
      obtain ⟨window, hwindow, rfl⟩ := List.mem_map.mp htok
      rw [mem_windows] at hwindow
      dsimp only
      rw [String.toList_ofList]
      exact ⟨hunknown, run, hrun, word, hword, hwindow⟩
  · rintro ⟨hunknown, run, hrun, word, hword, hlength, hin⟩
    refine ⟨(tok.script, run), hrun, ?_⟩
    dsimp only
    rw [if_neg hunknown]
    refine List.mem_flatMap.mpr ⟨word, hword, List.mem_map.mpr ⟨tok.token.toList, mem_windows.mpr ⟨hlength, hin⟩, ?_⟩⟩
    rw [String.ofList_toList]

/-! ## Excerpts -/

/-- A character of no script. -/
def isFiller (c : Char) : Bool := detectScript c = .unknown

/-- **An excerpt opens cleanly** after `pre`: the filler it opens with only separates words, or goes with the same script
in the text. -/
def OpensCleanly (pre excerpt : List Char) : Prop :=
  (∀ x ∈ excerpt.takeWhile isFiller, isTokenBreak x = true) ∨
    ∀ s c, lastScript none pre = some s → (excerpt.dropWhile isFiller).head? = some c → detectScript c = s

/-- Separators in front add no word. -/
theorem words_append_breaks {p : Char → Bool} {lead : List Char} (h : ∀ x ∈ lead, p x = true) (l : List Char) :
    words p (lead ++ l) = words p l := by
  induction lead with
  | nil => rfl
  | cons x lead ih =>
      obtain ⟨hx, hlead⟩ := List.forall_mem_cons.mp h
      have hcut : words p ([] ++ x :: (lead ++ l)) = words p [] ++ words p (lead ++ l) := words_append_sep _ _ hx
      rw [List.cons_append]
      exact hcut.trans (ih hlead)

/-- A word of a part of a run is part of a word of the run. -/
theorem exists_word_of_infix {part run word : List Char} (hpart : part <:+: run) (hword : word ∈ words isTokenBreak part) :
    ∃ word' ∈ words isTokenBreak run, word <:+: word' := by
  obtain ⟨hne, hfree, hin⟩ := mem_words hword
  obtain ⟨pre, post, rfl⟩ := hin.trans hpart
  obtain ⟨-, l, r, -, -, -, hwhole⟩ : ∃ pre' l r post', pre = pre' ++ l ∧ post = r ++ post' ∧
      l ++ word ++ r ∈ words isTokenBreak (pre ++ word ++ post) := exists_word_around hne hfree
  exact ⟨_, hwhole, l, r, rfl⟩

/-- **The words of a run of the excerpt are parts of words of a run of the text**, of the same script. -/
theorem exists_word_in_text {text excerpt : String} {pre post : List Char}
    (htext : text.toList = pre ++ excerpt.toList ++ post) (hopens : OpensCleanly pre excerpt.toList) {s : ScriptClass}
    (hs : s ≠ .unknown) {run word : List Char} (hrun : (s, run) ∈ segmentByScript excerpt)
    (hword : word ∈ words isTokenBreak run) :
    ∃ run', (s, run') ∈ segmentByScript text ∧ ∃ word' ∈ words isTokenBreak run', word <:+: word' := by
  obtain ⟨a, lead, c, rest, b, hexcerpt, rfl, ⟨-, hc, hlead, hrest⟩, hfirst⟩ := segmentByScript_shape hrun hs
  have hat : text.toList = pre ++ a ++ (lead ++ c :: rest) ++ (b ++ post) := by
    rw [htext, hexcerpt]
    simp
  -- the run as a whole is in a run of the text
  have hwhole : (lead = [] ∨ lastScript none (pre ++ a) = none ∨ lastScript none (pre ++ a) = some s) →
      ∃ run', (s, run') ∈ segmentByScript text ∧ ∃ word' ∈ words isTokenBreak run', word <:+: word' := by
    intro hopen
    obtain ⟨run', hrun', hin⟩ : ∃ run', (s, run') ∈ segmentLoop [] [] (pre ++ a ++ (lead ++ c :: rest) ++ (b ++ post)) ∧
        lead ++ c :: rest <:+: run' := exists_run hs hc hlead hrest hopen
    rw [← hat] at hrun'
    exact ⟨run', hrun', exists_word_of_infix hin hword⟩
  by_cases hnone : lead = []
  · exact hwhole (.inl hnone)
  · -- the run opens the excerpt, with the filler the excerpt opens with
    obtain rfl : a = [] := by
      by_contra ha
      exact hnone (hfirst ha)
    have hfiller : ∀ x ∈ lead, isFiller x = true := fun x hx => decide_eq_true (hlead x hx)
    have hscripted : isFiller c = false := decide_eq_false (hc ▸ hs)
    rw [List.nil_append, List.append_assoc, List.cons_append] at hexcerpt
    rcases hopens with hbreaks | hsame
    · rw [hexcerpt, List.takeWhile_append_of_pos hfiller, List.takeWhile_cons_of_neg (by simp [hscripted]),
        List.append_nil] at hbreaks
      rw [words_append_breaks hbreaks] at hword
      obtain ⟨run', hrun', hin⟩ : ∃ run',
          (s, run') ∈ segmentLoop [] [] (pre ++ lead ++ ([] ++ c :: rest) ++ (b ++ post)) ∧ [] ++ c :: rest <:+: run' :=
        exists_run hs hc (by simp) hrest (.inl rfl)
      refine ⟨run', ?_, exists_word_of_infix hin hword⟩
      unfold segmentByScript
      rw [hat]
      simpa using hrun'
    · rw [hexcerpt, List.dropWhile_append_of_pos hfiller, List.dropWhile_cons_of_neg (by simp [hscripted])] at hsame
      refine hwhole (.inr ?_)
      rw [List.append_nil]
      cases hlast : lastScript none pre with
      | none => exact .inl rfl
      | some s' => exact .inr (by rw [← hsame s' c hlast rfl, hc])

/-- **The tokens of an excerpt are tokens of the text.** -/
theorem mem_generateTokens_of_excerpt {toLowercase : Char → List Char} {text excerpt : String} {pre post : List Char}
    (htext : text.toList = pre ++ excerpt.toList ++ post) (hopens : OpensCleanly pre excerpt.toList) {tok : FuzzyToken}
    (htok : tok ∈ generateTokens toLowercase excerpt) : tok ∈ generateTokens toLowercase text := by
  obtain ⟨hs, run, hrun, word, hword, hlength, hin⟩ := mem_generateTokens.mp htok
  obtain ⟨run', hrun', word', hword', hpart⟩ := exists_word_in_text htext hopens hs hrun hword
  refine mem_generateTokens.mpr ⟨hs, run', hrun', word', hword', hlength, hin.trans ?_⟩
  obtain ⟨l, r, rfl⟩ := hpart
  rw [List.flatMap_append, List.flatMap_append]
  exact ⟨_, _, rfl⟩

/-! ## Finding the message by an excerpt -/

/-- The tokens of a query, counted script by script. -/
theorem sum_counted (byScript : List (ScriptClass × List String)) :
    ((byScript.filter fun s => !s.2.isEmpty).map fun s => s.2.length).sum = tokenCount byScript := by
  unfold tokenCount
  induction byScript with
  | nil => rfl
  | cons s byScript ih =>
      rw [List.filter_cons, List.map_cons, List.sum_cons, ← ih]
      split_ifs with hempty
      · rw [List.map_cons, List.sum_cons]
      · have hnil : s.2 = [] := by simpa using hempty
        rw [hnil, List.length_nil, Nat.zero_add]

/-- **A message with a row for every token scores in full.** -/
theorem overlapScore_full {tokens : List FuzzyToken} (hne : tokens ≠ []) {shared : ScriptClass → Nat}
    (hall : ∀ s ∈ tokensByScript tokens, shared s.1 = s.2.length) : overlapScore (tokensByScript tokens) shared = some 1 := by
  obtain ⟨tok, htok⟩ := List.exists_mem_of_ne_nil _ hne
  have hs : (tok.script, tokensOf tokens tok.script) ∈ tokensByScript tokens :=
    mem_tokensByScript.mpr ⟨⟨tok, htok, rfl⟩, rfl⟩
  have hnonempty : tokensOf tokens tok.script ≠ [] := List.ne_nil_of_mem (mem_tokensOf.mpr htok)
  have hmin : ∀ script, fuzzyMinOverlap script ≤ 1 := by
    intro script
    unfold fuzzyMinOverlap
    cases fuzzyGranularity script <;> norm_num
  have hcounted : ((tokensByScript tokens).filter fun s => !s.2.isEmpty).map (fun s => shared s.1) =
      ((tokensByScript tokens).filter fun s => !s.2.isEmpty).map fun s => s.2.length :=
    List.map_congr_left fun s hs => hall s (List.mem_filter.mp hs).1
  have hpos : 0 < tokenCount (tokensByScript tokens) := by
    have hle : (tokensOf tokens tok.script).length ≤ tokenCount (tokensByScript tokens) :=
      List.single_le_sum (by simp) _ (List.mem_map.mpr ⟨_, hs, rfl⟩)
    have hlength := List.length_pos_iff.mpr hnonempty
    omega
  have hnum : (tokenCount (tokensByScript tokens) : Rat) ≠ 0 := Nat.cast_ne_zero.mpr (by omega)
  unfold overlapScore
  dsimp only
  rw [hcounted, sum_counted, div_self hnum, if_pos]
  refine List.any_eq_true.mpr ⟨_, List.mem_filter.mpr ⟨hs, by simpa using hnonempty⟩, decide_eq_true ?_⟩
  have hlength : ((tokensOf tokens tok.script).length : Rat) ≠ 0 :=
    Nat.cast_ne_zero.mpr (Nat.pos_iff_ne_zero.mp (List.length_pos_iff.mpr hnonempty))
  rw [hall _ hs, div_self hlength]
  exact hmin _

/-- **An indexed message is found by every query whose tokens it has**, with a full score. -/
theorem searchFuzzy_full {E : SearchPlatform} {db : LocalStoreDb} {m : IdText} {text query : String}
    (hne : generateTokens E.toLowercase query ≠ [])
    (htokens : ∀ tok ∈ generateTokens E.toLowercase query, tok ∈ generateTokens E.toLowercase text) :
    ∃ enough, ∀ limit, enough ≤ limit →
      (⟨m, 1⟩ : FuzzyMatch) ∈ searchFuzzy E (db.indexMessage E.toLowercase m text) query limit := by
  have hrows : ∀ tok ∈ generateTokens E.toLowercase query,
      (⟨tok.token, tok.script.toIso15924, m⟩ : FuzzyRow) ∈ (db.indexMessage E.toLowercase m text).fuzzy.rows :=
    fun tok htok => Message.mem_indexMessage.mpr (.inr ⟨tok, htokens tok htok, rfl⟩)
  have hshared : ∀ s ∈ tokensByScript (generateTokens E.toLowercase query),
      sharedTokens (db.indexMessage E.toLowercase m text) (tokensByScript (generateTokens E.toLowercase query)) m s.1 =
        s.2.length := by
    intro s hs
    obtain ⟨-, hset⟩ := mem_tokensByScript.mp hs
    unfold sharedTokens
    rw [filter_tokensByScript hs, List.flatMap_singleton]
    refine congrArg List.length (List.filter_eq_self.mpr fun token htoken => decide_eq_true ?_)
    rw [hset] at htoken
    exact mem_fuzzyRowsOf.mpr (hrows _ (mem_tokensOf.mp htoken))
  refine ⟨(E.fuzzyMatches query (db.indexMessage E.toLowercase m text)).length, fun limit hlimit => ?_⟩
  rw [searchFuzzy_complete hlimit, mem_fuzzyMatches_iff]
  obtain ⟨tok, htok⟩ := List.exists_mem_of_ne_nil _ hne
  exact ⟨⟨tok.token, tok.script, htok, hrows tok htok⟩, overlapScore_full hne hshared⟩

/-- **An excerpt has the tokens of its text**, and finds the message the text was indexed for, if it opens cleanly. -/
theorem searchFuzzy_excerpt (E : SearchPlatform) {text excerpt : String} {pre post : List Char}
    (htext : text.toList = pre ++ excerpt.toList ++ post) (hopens : OpensCleanly pre excerpt.toList) :
    (∀ tok ∈ generateTokens E.toLowercase excerpt, tok ∈ generateTokens E.toLowercase text) ∧
    (generateTokens E.toLowercase excerpt ≠ [] → ∀ (db : LocalStoreDb) (m : IdText), ∃ enough, ∀ limit, enough ≤ limit →
      (⟨m, 1⟩ : FuzzyMatch) ∈ searchFuzzy E (db.indexMessage E.toLowercase m text) excerpt limit) := by
  have htokens : ∀ tok ∈ generateTokens E.toLowercase excerpt, tok ∈ generateTokens E.toLowercase text :=
    fun tok htok => mem_generateTokens_of_excerpt htext hopens htok
  exact ⟨htokens, fun hne db m => searchFuzzy_full hne htokens⟩

theorem searchFuzzy_excerpt_eet :
    (∀ tok ∈ generateTokens SearchPlatform.plain.toLowercase "eet", tok ∈
      generateTokens SearchPlatform.plain.toLowercase "meet") ∧
    (generateTokens SearchPlatform.plain.toLowercase "eet" ≠ [] → ∀ (db : LocalStoreDb) (m : IdText), ∃ enough,
      ∀ limit, enough ≤ limit → (⟨m, 1⟩ : FuzzyMatch) ∈
        searchFuzzy .plain (db.indexMessage SearchPlatform.plain.toLowercase m "meet") "eet" limit) := by
  have htext : "meet".toList = ['m'] ++ "eet".toList ++ [] := by decide +kernel
  have hlead : "eet".toList.takeWhile isFiller = [] := by decide +kernel
  have hopens : OpensCleanly ['m'] "eet".toList := .inl fun x hx => by
    rw [hlead] at hx
    exact absurd hx List.not_mem_nil
  exact searchFuzzy_excerpt .plain htext hopens

/-- An ideographic comma goes with the ideographs in the text, and with the letters in the excerpt. -/
theorem excerptTokens_fails : ¬ ∀ (E : SearchPlatform) (text excerpt : String), excerpt.toList <:+: text.toList →
    ∀ tok ∈ generateTokens E.toLowercase excerpt, tok ∈ generateTokens E.toLowercase text := by
  intro h
  have hpart : "、abc".toList <:+: "会、abc".toList := ⟨['会'], [], by decide +kernel⟩
  have htok : (⟨"、ab", .latn⟩ : FuzzyToken) ∈ generateTokens SearchPlatform.plain.toLowercase "、abc" := by decide +kernel
  have hlost : (⟨"、ab", .latn⟩ : FuzzyToken) ∉ generateTokens SearchPlatform.plain.toLowercase "会、abc" := by
    decide +kernel
  exact hlost (h .plain "会、abc" "、abc" hpart _ htok)

end KChatCore.Search
