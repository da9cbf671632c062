import Mathlib

/-!
# `Lib.Pagination` — pages of a table, newest first, by a cursor on a key

A page holds the first `limit` rows below a cursor, in non-increasing order of a key. A **walk** starts without a cursor,
goes on from the key of the last row of the page before, and ends with an empty page. The cursor is compared strictly, so rows
that share a key with the last row of a page and stand behind it are passed over.

* `exists_walk` — every walk comes to an end.
* `Walk.sorted`, `Walk.subperm` — what is listed is in order, and no row is listed twice.
* `Walk.perm_iff` — every row is listed exactly when no key has rows on both sides of the end of a page (`Whole`).
* `visitsOnce_iff` — the same, for pages of views of the rows.
-/

namespace KChatCore.Lib.Pagination

universe u v w

variable {α : Type u} {κ : Type v} [LinearOrder κ] {key : α → κ}

/-- **`ORDER BY key DESC`**: rows of one key stand in any order. -/
structure NewestFirst (key : α → κ) where
  order : List α → List α
  perm : ∀ rows, (order rows).Perm rows
  sorted : ∀ rows, (order rows).Pairwise fun a b => key b ≤ key a

/-- One such order: sorting keeps rows of one key as they stand. -/
def NewestFirst.stable (key : α → κ) : NewestFirst key where
  order rows := rows.mergeSort fun a b => key b ≤ key a
  perm rows := List.mergeSort_perm rows _
  sorted rows := by
    have hsorted := @List.pairwise_mergeSort α (fun a b => decide (key b ≤ key a))
      (fun a b c hab hbc => decide_eq_true ((of_decide_eq_true hbc).trans (of_decide_eq_true hab)))
      (fun a b => by simpa using le_total (key b) (key a)) rows
    exact hsorted.imp fun h => of_decide_eq_true h

/-- The rows below a cursor. -/
def rowsBelow (key : α → κ) : Option κ → List α → List α
  | none, rows => rows
  | some t, rows => rows.filter fun r => key r < t

/-- **A page**: the first rows below the cursor. -/
def page (newest : NewestFirst key) (rows : List α) (limit : Nat) (cursor : Option κ) : List α :=
  (newest.order (rowsBelow key cursor rows)).take limit

/-- **A walk** from a cursor: its pages, up to the empty one. -/
inductive Walk {β : Type w} (page : Option κ → List β) (key : β → κ) : Option κ → List (List β) → Prop
  | done {cursor : Option κ} : page cursor = [] → Walk page key cursor []
  | next {cursor : Option κ} {last : β} {pages : List (List β)} : (page cursor).getLast? = some last →
      Walk page key (some (key last)) pages → Walk page key cursor (page cursor :: pages)

/-- **No key has rows on both sides of the end of a page.** The rows of a key take the places from the number of newer rows
on up to, and without, the number of rows at least as new. -/
def Whole (key : α → κ) (rows : List α) (limit : Nat) : Prop :=
  ∀ r ∈ rows, rows.countP (fun s => key r < key s) / limit = (rows.countP (fun s => key r ≤ key s) - 1) / limit

instance (rows : List α) (limit : Nat) : Decidable (Whole key rows limit) :=
  inferInstanceAs (Decidable (∀ r ∈ rows,
    rows.countP (fun s => key r < key s) / limit = (rows.countP (fun s => key r ≤ key s) - 1) / limit))

/-! ## Keys and the ends of pages -/

section Whole

variable {rows rows' front rest : List α} {limit : Nat}

theorem Whole.of_perm (hperm : rows.Perm rows') (h : Whole key rows limit) : Whole key rows' limit := by
  intro r hr
  rw [← hperm.countP_eq, ← hperm.countP_eq]
  exact h r (hperm.mem_iff.mpr hr)

theorem whole_congr (hperm : rows.Perm rows') : Whole key rows limit ↔ Whole key rows' limit :=
  ⟨Whole.of_perm hperm, Whole.of_perm hperm.symm⟩

/-- The rows at least as new are more than the newer ones. -/
theorem countP_lt_countP {r : α} (hr : r ∈ rows) :
    rows.countP (fun s => key r < key s) < rows.countP fun s => key r ≤ key s := by
  obtain ⟨l, l', rfl⟩ := List.append_of_mem hr
  have hfront : l.countP (fun s => decide (key r < key s)) ≤ l.countP fun s => decide (key r ≤ key s) :=
    List.countP_mono_left fun s _ h => by simpa using (of_decide_eq_true h : key r < key s).le
  have hrest : l'.countP (fun s => decide (key r < key s)) ≤ l'.countP fun s => decide (key r ≤ key s) :=
    List.countP_mono_left fun s _ h => by simpa using (of_decide_eq_true h : key r < key s).le
  simp only [List.countP_append, List.countP_cons, lt_irrefl, le_refl, decide_false, decide_true, if_true]
  simp only [Bool.false_eq_true, if_false]
  omega

/-- Rows that fit one page. -/
theorem whole_of_length_le (hle : rows.length ≤ limit) : Whole key rows limit := by
  intro r hr
  have hlt : rows.countP (fun s => key r < key s) < rows.countP fun s => key r ≤ key s := countP_lt_countP hr
  have hall : rows.countP (fun s => key r ≤ key s) ≤ rows.length := List.countP_le_length
  rw [Nat.div_eq_of_lt (by omega), Nat.div_eq_of_lt (by omega)]

/-- **Behind a full page of newer rows** the rest is cut as it would be alone. -/
theorem whole_append (hlimit : 0 < limit) (hfront : front.length = limit)
    (hnewer : ∀ a ∈ front, ∀ b ∈ rest, key b < key a) : Whole key (front ++ rest) limit ↔ Whole key rest limit := by
  -- A row of the rest has all of the page before it.
  have hshift : ∀ r ∈ rest, ∀ p : α → Bool, (∀ s, key r < key s → p s = true) →
      (front ++ rest).countP p = rest.countP p + limit := by
    intro r hr p hp
    have hpage : front.countP p = front.length := List.countP_eq_length.mpr fun a ha => hp a (hnewer a ha r hr)
    rw [List.countP_append, hpage, hfront, Nat.add_comm]
  have hrest : ∀ r ∈ rest,
      ((front ++ rest).countP (fun s => key r < key s) / limit =
        ((front ++ rest).countP (fun s => key r ≤ key s) - 1) / limit ↔
      rest.countP (fun s => key r < key s) / limit = (rest.countP (fun s => key r ≤ key s) - 1) / limit) := by
    intro r hr
    have hlt : rest.countP (fun s => key r < key s) < rest.countP fun s => key r ≤ key s := countP_lt_countP hr
    rw [hshift r hr _ fun s hs => decide_eq_true hs, hshift r hr _ fun s hs => decide_eq_true hs.le,
      Nat.sub_add_comm (Nat.one_le_of_lt hlt), Nat.add_div_right _ hlimit, Nat.add_div_right _ hlimit, Nat.succ_inj]
  constructor
  · intro h r hr
    exact (hrest r hr).mp (h r (List.mem_append_right front hr))
  · intro h r hr
    obtain hr | hr := List.mem_append.mp hr
    · -- A row of the page has none of the rest beside it.
      have hnone : rest.countP (fun s => decide (key r ≤ key s)) = 0 := by
        rw [List.countP_eq_zero]
        intro s hs
        simpa using hnewer r hr s hs
      have hlt : (front ++ rest).countP (fun s => key r < key s) < (front ++ rest).countP fun s => key r ≤ key s :=
        countP_lt_countP (List.mem_append_left rest hr)
      have hle : front.countP (fun s => decide (key r ≤ key s)) ≤ front.length := List.countP_le_length
      have hcount : (front ++ rest).countP (fun s => decide (key r ≤ key s)) ≤ limit := by
        rw [List.countP_append, hnone]
        omega
      rw [Nat.div_eq_of_lt (by omega), Nat.div_eq_of_lt (by omega)]
    · exact (hrest r hr).mpr (h r hr)

/-- **A key on both sides of the end of a page.** -/
theorem not_whole_append (hlimit : 0 < limit) (hfront : front.length = limit) {last x : α} (hlast : last ∈ front)
    (hpage : ∀ a ∈ front, key last ≤ key a) (hrest : ∀ b ∈ rest, key b ≤ key last) (hx : x ∈ rest)
    (hkey : key x = key last) : ¬ Whole key (front ++ rest) limit := by
  intro h
  have hcut := h last (List.mem_append_left rest hlast)
  -- Newer than the last row of the page are fewer rows than the page has, at least as new are more.
  have hnewer : (front ++ rest).countP (fun s => decide (key last < key s)) < limit := by
    have hnone : rest.countP (fun s => decide (key last < key s)) = 0 := by
      rw [List.countP_eq_zero]
      intro s hs
      simpa using hrest s hs
    have hstrict : front.countP (fun s => decide (key last < key s)) < front.length := by
      rw [List.countP_lt_length_iff]
      exact ⟨last, hlast, by simp⟩
    rw [List.countP_append, hnone]
    omega
  have hatLeast : limit + 1 ≤ (front ++ rest).countP fun s => decide (key last ≤ key s) := by
    have hall : front.countP (fun s => decide (key last ≤ key s)) = front.length :=
      List.countP_eq_length.mpr fun a ha => decide_eq_true (hpage a ha)
    have hone : 0 < rest.countP fun s => decide (key last ≤ key s) :=
      List.countP_pos_iff.mpr ⟨x, hx, decide_eq_true hkey.ge⟩
    rw [List.countP_append, hall, hfront]
    omega
  rw [Nat.div_eq_of_lt hnewer] at hcut
  have hpos : 0 < ((front ++ rest).countP (fun s => decide (key last ≤ key s)) - 1) / limit :=
    Nat.div_pos (by omega) hlimit
  omega

end Whole

/-! ## Walks -/

section Walks

variable {newest : NewestFirst key} {rows : List α} {limit : Nat} {cursor : Option κ} {pages : List (List α)}

/-- Below the key of a row that is below a cursor. -/
theorem rowsBelow_key {r : α} (hr : r ∈ rowsBelow key cursor rows) :
    rowsBelow key (some (key r)) rows = (rowsBelow key cursor rows).filter fun s => key s < key r := by
  cases cursor with
  | none => rfl
  | some t =>
      have hlt : key r < t := by simpa using (List.mem_filter.mp hr).2
      unfold rowsBelow
      rw [List.filter_filter]
      refine List.filter_congr fun s _ => ?_
      by_cases hs : key s < key r
      · simp [hs, hs.trans hlt]
      · simp [hs]

theorem mem_rowsBelow_of_mem_page {r : α} (hr : r ∈ page newest rows limit cursor) : r ∈ rowsBelow key cursor rows :=
  (newest.perm _).mem_iff.mp (List.mem_of_mem_take hr)

/-- **A page and its last row**: the page, what comes behind it, and what the next page is taken from. -/
theorem page_spec {last : α} (hlast : (page newest rows limit cursor).getLast? = some last) :
    ∃ rest, (rowsBelow key cursor rows).Perm (page newest rows limit cursor ++ rest) ∧
      last ∈ page newest rows limit cursor ∧ (∀ a ∈ page newest rows limit cursor, key last ≤ key a) ∧
      (∀ b ∈ rest, key b ≤ key last) ∧ (rest ≠ [] → (page newest rows limit cursor).length = limit) ∧
      (rowsBelow key (some (key last)) rows).Perm (rest.filter fun s => key s < key last) := by
  have hmem := List.mem_of_getLast? hlast
  have hsorted := newest.sorted (rowsBelow key cursor rows)
  rw [← List.take_append_drop limit (newest.order (rowsBelow key cursor rows)), List.pairwise_append] at hsorted
  obtain ⟨hfront, -, hcross⟩ := hsorted
  -- the last row of the page has the least key of it
  have hall : ∀ a ∈ page newest rows limit cursor, key last ≤ key a := by
    obtain ⟨front, hsplit⟩ := List.getLast?_eq_some_iff.mp hlast
    have hpairs : (front ++ [last]).Pairwise fun a b => key b ≤ key a := by
      rw [← hsplit]
      exact hfront
    intro a ha
    rw [hsplit, List.mem_append, List.mem_singleton] at ha
    obtain ha | rfl := ha
    · exact (List.pairwise_append.mp hpairs).2.2 a ha last (List.mem_singleton_self last)
    · exact le_rfl
  have hperm : (rowsBelow key cursor rows).Perm
      (page newest rows limit cursor ++ (newest.order (rowsBelow key cursor rows)).drop limit) := by
    unfold page
    rw [List.take_append_drop]
    exact (newest.perm _).symm
  refine ⟨(newest.order (rowsBelow key cursor rows)).drop limit, hperm, hmem, hall,
    fun b hb => hcross last hmem b hb, fun hne => ?_, ?_⟩
  · have hlong : limit < (newest.order (rowsBelow key cursor rows)).length := by
      by_contra hle
      exact hne (List.drop_eq_nil_of_le (not_lt.mp hle))
    exact List.length_take_of_le hlong.le
  · rw [rowsBelow_key (mem_rowsBelow_of_mem_page hmem)]
    -- the next page asks for keys below the last one: nothing of this page, and of the rest only those
    have hnone : (page newest rows limit cursor).filter (fun s => decide (key s < key last)) = [] := by
      rw [List.filter_eq_nil_iff]
      intro a ha
      simpa using hall a ha
    have hfilter := hperm.filter fun s => decide (key s < key last)
    rw [List.filter_append, hnone, List.nil_append] at hfilter
    exact hfilter

/-- **Every walk comes to an end.** -/
theorem exists_walk (newest : NewestFirst key) (rows : List α) (limit : Nat) (cursor : Option κ) :
    ∃ pages, Walk (page newest rows limit) key cursor pages := by
  induction hn : (rowsBelow key cursor rows).length using Nat.strong_induction_on generalizing cursor with
  | _ n ih =>
      cases hlast : (page newest rows limit cursor).getLast? with
      | none => exact ⟨[], .done (List.getLast?_eq_none_iff.mp hlast)⟩
      | some last =>
          have hmem := mem_rowsBelow_of_mem_page (List.mem_of_getLast? hlast)
          have hshorter : (rowsBelow key (some (key last)) rows).length < n := by
            rw [rowsBelow_key hmem, ← hn]
            exact List.length_filter_lt_length_iff_exists.mpr ⟨last, hmem, by simp⟩
          obtain ⟨pages, hwalk⟩ := ih _ hshorter (some (key last)) rfl
          exact ⟨_, .next hlast hwalk⟩

/-- **No row is listed twice.** -/
theorem Walk.subperm (h : Walk (page newest rows limit) key cursor pages) :
    pages.flatten.Subperm (rowsBelow key cursor rows) := by
  induction h with
  | done _ => exact List.nil_subperm
  | @next cursor last pages hlast _ ih =>
      obtain ⟨rest, hperm, -, -, -, -, hnext⟩ := page_spec hlast
      have hrest : pages.flatten.Subperm rest :=
        (hnext.subperm_left.mp ih).trans List.filter_sublist.subperm
      rw [List.flatten_cons]
      exact hperm.symm.subperm_left.mp ((List.subperm_append_left _).mpr hrest)

/-- **What is listed is in order.** -/
theorem Walk.sorted (h : Walk (page newest rows limit) key cursor pages) :
    pages.flatten.Pairwise fun a b => key b ≤ key a := by
  induction h with
  | done _ => exact List.Pairwise.nil
  | @next cursor last pages hlast hwalk ih =>
      obtain ⟨rest, -, -, hall, -, -, hnext⟩ := page_spec hlast
      rw [List.flatten_cons, List.pairwise_append]
      refine ⟨(newest.sorted _).sublist (List.take_sublist _ _), ih, fun a ha b hb => ?_⟩
      have hb := hnext.mem_iff.mp (hwalk.subperm.subset hb)
      have hlt : key b < key last := by simpa using (List.mem_filter.mp hb).2
      exact hlt.le.trans (hall a ha)

/-- **Every row is listed exactly when no key is cut.** -/
theorem Walk.perm_iff (hlimit : 0 < limit) (h : Walk (page newest rows limit) key cursor pages) :
    pages.flatten.Perm (rowsBelow key cursor rows) ↔ Whole key (rowsBelow key cursor rows) limit := by
  induction h with
  | @done cursor hnil =>
      have hempty : rowsBelow key cursor rows = [] := by
        obtain hzero | hrows := List.take_eq_nil_iff.mp hnil
        · exact absurd hzero (Nat.pos_iff_ne_zero.mp hlimit)
        · exact ((newest.perm _).symm.trans (hrows ▸ .refl _)).eq_nil
      rw [hempty]
      exact ⟨fun _ => whole_of_length_le (Nat.zero_le _), fun _ => .refl _⟩
  | @next cursor last pages hlast hwalk ih =>
      obtain ⟨rest, hperm, hmem, hall, hrest, hfull, hnext⟩ := page_spec hlast
      rw [List.flatten_cons, whole_congr hperm, hperm.congr_right, List.perm_append_left_iff]
      -- a row behind the cut that ties with the last one is below no later cursor
      by_cases hcut : ∃ x ∈ rest, key x = key last
      · obtain ⟨x, hx, hkey⟩ := hcut
        have hlen := hfull (List.ne_nil_of_mem hx)
        have hshorter : pages.flatten.length < rest.length := by
          have hlisted := hwalk.subperm.length_le
          rw [hnext.length_eq] at hlisted
          have hdropped : (rest.filter fun s => decide (key s < key last)).length < rest.length :=
            List.length_filter_lt_length_iff_exists.mpr ⟨x, hx, by simp [hkey]⟩
          omega
        exact ⟨fun hall => absurd hall.length_eq hshorter.ne,
          fun hwhole => absurd hwhole (not_whole_append hlimit hlen hmem hall hrest hx hkey)⟩
      · have hless : ∀ b ∈ rest, key b < key last := fun b hb =>
          lt_of_le_of_ne (hrest b hb) fun hkey => hcut ⟨b, hb, hkey⟩
        -- without a tie the next pages see the whole rest
        have hkept : rest.filter (fun s => decide (key s < key last)) = rest :=
          List.filter_eq_self.mpr fun b hb => decide_eq_true (hless b hb)
        rw [hkept] at hnext
        rw [whole_congr hnext, hnext.congr_right] at ih
        rw [ih]
        by_cases hnil : rest = []
        · subst hnil
          have hshort : (page newest rows limit cursor ++ []).length ≤ limit := by
            rw [List.append_nil]
            exact List.length_take_le _ _
          exact ⟨fun _ => whole_of_length_le hshort, fun _ => whole_of_length_le (Nat.zero_le _)⟩
        · exact (whole_append hlimit (hfull hnil) fun a ha b hb => (hless b hb).trans_le (hall a ha)).symm

end Walks

/-! ## Pages of views -/

section Views

variable {β : Type w} {ι : Type} {key' : β → κ} {pageOf : Option κ → List α} {pageOf' : Option κ → List β} {f : α → β}

omit [LinearOrder κ] in
/-- A walk over rows, seen through a view. -/
theorem Walk.map (hpage : ∀ c, pageOf' c = (pageOf c).map f) (hkey : ∀ a, key' (f a) = key a) {cursor : Option κ}
    {pages : List (List α)} (h : Walk pageOf key cursor pages) :
    Walk pageOf' key' cursor (pages.map (List.map f)) := by
  induction h with
  | @done cursor hnil => exact .done (by rw [hpage, hnil]; rfl)
  | @next cursor last pages hlast _ ih =>
      have hlast' : (pageOf' cursor).getLast? = some (f last) := by
        rw [hpage, List.getLast?_map, hlast]
        rfl
      rw [List.map_cons, ← hpage]
      exact .next hlast' (by rw [hkey]; exact ih)

omit [LinearOrder κ] in
/-- A walk over views is one over the rows. -/
theorem Walk.of_map (hpage : ∀ c, pageOf' c = (pageOf c).map f) (hkey : ∀ a, key' (f a) = key a) {cursor : Option κ}
    {pages' : List (List β)} (h : Walk pageOf' key' cursor pages') :
    ∃ pages, pages' = pages.map (List.map f) ∧ Walk pageOf key cursor pages := by
  induction h with
  | @done cursor hnil =>
      rw [hpage, List.map_eq_nil_iff] at hnil
      exact ⟨[], rfl, .done hnil⟩
  | @next cursor last' pages' hlast' _ ih =>
      rw [hpage, List.getLast?_map, Option.map_eq_some_iff] at hlast'
      obtain ⟨last, hlast, rfl⟩ := hlast'
      obtain ⟨pages, rfl, hwalk⟩ := ih
      rw [hkey] at hwalk
      exact ⟨pageOf cursor :: pages, by rw [List.map_cons, ← hpage], .next hlast hwalk⟩

/-- **A walk visits every row once**: it comes to an end, and lists the rows, each once, in order. -/
def VisitsOnce (pageOf' : Option κ → List β) (key' : β → κ) (ident : β → ι) (ids : List ι) : Prop :=
  ∃ pages, Walk pageOf' key' none pages ∧ (pages.flatten.map ident).Perm ids ∧
    pages.flatten.Pairwise fun a b => key' b ≤ key' a

/-- **When a walk visits every row once**: no key has rows on both sides of the end of a page. -/
theorem visitsOnce_iff {newest : NewestFirst key} {rows : List α} {limit : Nat} {ident : β → ι} {rowId : α → ι}
    (hlimit : 0 < limit) (hpage : ∀ c, pageOf' c = (page newest rows limit c).map f) (hkey : ∀ a, key' (f a) = key a)
    (hident : ∀ a, ident (f a) = rowId a) :
    VisitsOnce pageOf' key' ident (rows.map rowId) ↔ Whole key rows limit := by
  have hids : ∀ pages : List (List α), ((pages.map (List.map f)).flatten.map ident) = pages.flatten.map rowId := by
    intro pages
    rw [← List.map_flatten, List.map_map]
    exact List.map_congr_left fun a _ => hident a
  constructor
  · rintro ⟨pages', hwalk', hperm, -⟩
    obtain ⟨pages, rfl, hwalk⟩ := Walk.of_map hpage hkey hwalk'
    have hlen := hperm.length_eq
    rw [hids, List.length_map, List.length_map] at hlen
    exact (hwalk.perm_iff hlimit).mp (hwalk.subperm.perm_of_length_le hlen.ge)
  · intro hwhole
    obtain ⟨pages, hwalk⟩ := exists_walk newest rows limit none
    refine ⟨_, hwalk.map hpage hkey, ?_, ?_⟩
    · rw [hids]
      exact ((hwalk.perm_iff hlimit).mpr hwhole).map rowId
    · rw [← List.map_flatten, List.pairwise_map]
      simpa only [hkey] using hwalk.sorted

end Views

end KChatCore.Lib.Pagination
