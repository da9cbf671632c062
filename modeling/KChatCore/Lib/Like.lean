import Mathlib

/-!
# `Lib.Like` — the pattern operator `LIKE … ESCAPE`

In a pattern `%` stands for any text, `_` for any character, and a character after the escape character for itself. Letters
are compared after folding.

* `matches_iff` — the matcher, which tries the rest of a pattern at every place after a `%`, finds a match if there is one.
* `like_quote` — a text whose special characters are escaped, between two `%`, is found where it is a part of the other.
-/

namespace KChatCore.Lib.Like

/-- What a pattern is made of. -/
inductive Item
  | any
  | one
  | lit (c : Char)
deriving DecidableEq, Repr

/-- A pattern; one that ends in the escape character is none. -/
def parse (esc : Char) : List Char → Option (List Item)
  | [] => some []
  | c :: pattern =>
      if c = esc then
        match pattern with
        | [] => none
        | d :: pattern => (parse esc pattern).map (.lit d :: ·)
      else (parse esc pattern).map ((if c = '%' then .any else if c = '_' then .one else .lit c) :: ·)

/-- **What a pattern matches.** -/
inductive Matches (fold : Char → Char) : List Item → List Char → Prop
  | nil : Matches fold [] []
  | any {items : List Item} {s : List Char} (skipped : List Char) (h : Matches fold items s) :
      Matches fold (.any :: items) (skipped ++ s)
  | one {items : List Item} {s : List Char} (d : Char) (h : Matches fold items s) : Matches fold (.one :: items) (d :: s)
  | lit {items : List Item} {s : List Char} {c d : Char} (hc : fold c = fold d) (h : Matches fold items s) :
      Matches fold (.lit c :: items) (d :: s)

/-- **The matcher.** -/
def matchItems (fold : Char → Char) : List Item → List Char → Bool
  | [], s => s.isEmpty
  | .any :: items, s => s.tails.any (matchItems fold items)
  | .one :: items, s =>
      match s with
      | [] => false
      | _ :: s => matchItems fold items s
  | .lit c :: items, s =>
      match s with
      | [] => false
      | d :: s => decide (fold c = fold d) && matchItems fold items s

/-- `text LIKE pattern ESCAPE esc`. -/
def like (esc : Char) (fold : Char → Char) (pattern text : List Char) : Bool :=
  match parse esc pattern with
  | none => false
  | some items => matchItems fold items text

/-- The special characters, escaped. -/
def quote (esc : Char) (s : List Char) : List Char :=
  s.flatMap fun c => if c = esc ∨ c = '%' ∨ c = '_' then [esc, c] else [c]

variable {esc : Char} {fold : Char → Char} {items : List Item} {s : List Char}

/-- **The matcher finds a match if there is one.** -/
theorem matches_iff : matchItems fold items s = true ↔ Matches fold items s := by
  induction items generalizing s with
  | nil =>
      unfold matchItems
      rw [List.isEmpty_iff]
      constructor
      · rintro rfl
        exact .nil
      · rintro ⟨⟩
        rfl
  | cons item items ih =>
      cases item with
      | any =>
          unfold matchItems
          -- what `any` skips is what stands before the tail that matches
          rw [List.any_eq_true]
          constructor
          · rintro ⟨t, ht, hmatch⟩
            obtain ⟨skipped, rfl⟩ := List.mem_tails _ _ |>.mp ht
            exact .any skipped (ih.mp hmatch)
          · intro h
            cases h with
            | @any _ t skipped h => exact ⟨t, (List.mem_tails _ _).mpr (List.suffix_append skipped t), ih.mpr h⟩
      | one =>
          cases s with
          | nil => exact iff_of_false Bool.false_ne_true fun h => by cases h
          | cons d s =>
              show matchItems fold items s = true ↔ _
              rw [ih]
              constructor
              · exact .one d
              · intro h
                cases h with
                | one _ h => exact h
      | lit c =>
          cases s with
          | nil => exact iff_of_false Bool.false_ne_true fun h => by cases h
          | cons d s =>
              show (decide (fold c = fold d) && matchItems fold items s) = true ↔ _
              rw [Bool.and_eq_true, decide_eq_true_eq, ih]
              constructor
              · rintro ⟨hc, h⟩
                exact .lit hc h
              · intro h
                cases h with
                | lit hc h => exact ⟨hc, h⟩

/-! ## Quoted texts -/

theorem parse_plain {c : Char} (hc : c ≠ esc) (pattern : List Char) : parse esc (c :: pattern) =
    (parse esc pattern).map ((if c = '%' then .any else if c = '_' then .one else .lit c) :: ·) := by
  cases pattern <;> simp [parse, hc]

theorem parse_escaped (d : Char) (pattern : List Char) :
    parse esc (esc :: d :: pattern) = (parse esc pattern).map (.lit d :: ·) := by
  simp [parse]

/-- **A quoted text is read as itself**, whatever follows. -/
theorem parse_quote (q pattern : List Char) :
    parse esc (quote esc q ++ pattern) = (parse esc pattern).map (q.map .lit ++ ·) := by
  induction q with
  | nil => exact Option.map_id'.symm
  | cons c q ih =>
      have hsplit : quote esc (c :: q) ++ pattern =
          (if c = esc ∨ c = '%' ∨ c = '_' then [esc, c] else [c]) ++ (quote esc q ++ pattern) := by
        unfold quote
        rw [List.flatMap_cons, List.append_assoc]
      rw [hsplit, List.map_cons]
      by_cases hspecial : c = esc ∨ c = '%' ∨ c = '_'
      · -- an escaped character stands for itself
        rw [if_pos hspecial]
        show parse esc (esc :: c :: (quote esc q ++ pattern)) = _
        rw [parse_escaped, ih, Option.map_map]
        rfl
      · rw [if_neg hspecial]
        obtain ⟨hesc, hpercent, hunderscore⟩ : c ≠ esc ∧ c ≠ '%' ∧ c ≠ '_' := by simpa using hspecial
        show parse esc (c :: (quote esc q ++ pattern)) = _
        rw [parse_plain hesc, if_neg hpercent, if_neg hunderscore, ih, Option.map_map]
        rfl

/-- Literal characters match texts that fold to the same. -/
theorem matches_lits (q : List Char) : Matches fold (q.map .lit ++ items) s ↔
    ∃ front back, s = front ++ back ∧ front.map fold = q.map fold ∧ Matches fold items back := by
  induction q generalizing s with
  | nil =>
      constructor
      · intro h
        exact ⟨[], s, rfl, rfl, h⟩
      · rintro ⟨front, back, rfl, hfront, h⟩
        rw [List.map_nil, List.map_eq_nil_iff] at hfront
        rw [hfront]
        exact h
  | cons c q ih =>
      constructor
      · intro h
        cases h with
        | @lit _ t _ d hc h =>
            obtain ⟨front, back, rfl, hfront, h⟩ := ih.mp h
            exact ⟨d :: front, back, rfl, by rw [List.map_cons, List.map_cons, hfront, hc], h⟩
      · rintro ⟨front, back, rfl, hfront, h⟩
        cases front with
        | nil => exact absurd hfront (by simp)
        | cons d front =>
            rw [List.map_cons, List.map_cons] at hfront
            obtain ⟨hd, hfront⟩ := List.cons.inj hfront
            exact .lit hd.symm (ih.mpr ⟨front, back, rfl, hfront, h⟩)

theorem matches_any : Matches fold (.any :: items) s ↔ ∃ skipped t, s = skipped ++ t ∧ Matches fold items t := by
  constructor
  · intro h
    cases h with
    | any skipped h => exact ⟨skipped, _, rfl, h⟩
  · rintro ⟨skipped, t, rfl, h⟩
    exact .any skipped h

/-- **A quoted text between two `%` is found where it is a part of the other text**, up to folding. -/
theorem like_quote (hany : esc ≠ '%') (q text : List Char) :
    like esc fold ('%' :: (quote esc q ++ ['%'])) text = true ↔
      ∃ front mid back, text = front ++ mid ++ back ∧ mid.map fold = q.map fold := by
  have hparse : parse esc ('%' :: (quote esc q ++ ['%'])) = some (.any :: (q.map .lit ++ [.any])) := by
    have hlast : parse esc ['%'] = some [.any] := by
      rw [parse_plain hany.symm, if_pos rfl]
      rfl
    rw [parse_plain hany.symm, if_pos rfl, parse_quote, hlast]
    rfl
  unfold like
  rw [hparse]
  show matchItems fold (.any :: (q.map .lit ++ [.any])) text = true ↔ _
  rw [matches_iff, matches_any]
  constructor
  · rintro ⟨front, t, rfl, h⟩
    obtain ⟨mid, back, rfl, hmid, -⟩ := (matches_lits q).mp h
    exact ⟨front, mid, back, (List.append_assoc _ _ _).symm, hmid⟩
  · rintro ⟨front, mid, back, rfl, hmid⟩
    have hend : Matches fold [.any] back := by
      have hmatch : Matches fold [.any] (back ++ []) := .any back .nil
      rwa [List.append_nil] at hmatch
    exact ⟨front, mid ++ back, List.append_assoc _ _ _, (matches_lits q).mpr ⟨mid, back, rfl, hmid, hend⟩⟩

end KChatCore.Lib.Like
