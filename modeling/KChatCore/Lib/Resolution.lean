import Mathlib

/-!
# `Lib.Resolution` — tombstone resolution of an event log

A log is a list of events, some of which are **tombstones**; a tombstone *covers* the events it deletes.
`resolve` drops every tombstone and every event a tombstone of the same log covers, whatever the order;
`resolveInOrder` drops what a later tombstone covers. `filter_eq_resolveInOrder_iff` says when a filter does the latter.

A log that is kept in pieces is **compacted** by resolving some groups of pieces each on its own and
leaving the rest as it is. Resolution is not compositional: a group's tombstones are dropped with it, so
an event outside the group that only they covered comes back. `Closed` is the condition under which it does
not, and `mem_view_compacted_iff` says it is exact.

`Faithful J L` says a compacted log `L` still stands for the full log `J`: it is kept by appending events
that no lost tombstone covers and by closed compactions, and it gives equal views.
-/

namespace KChatCore.Lib

universe u

/-- **Which events are tombstones, and what they cover.** Only a tombstone covers anything. -/
structure Tombstoning (ε : Type u) where
  isTombstone : ε → Bool
  covers : ε → ε → Bool
  isTombstone_of_covers : ∀ t e, covers t e = true → isTombstone t = true

namespace Tombstoning

variable {ε : Type u} (T : Tombstoning ε)

/-- Some event of `l` covers `e`. -/
def covered (l : List ε) (e : ε) : Bool := l.any fun t => T.covers t e

/-- The events of `l` that are no tombstone and that no tombstone of `l` covers, in order. -/
def resolve (l : List ε) : List ε := l.filter fun e => !T.isTombstone e && !T.covered l e

/-- The part of the resolved log that `p` selects. -/
def view (p : ε → Bool) (l : List ε) : List ε := (T.resolve l).filter p

variable {T}

@[simp] theorem covered_eq_true {l : List ε} {e : ε} :
    T.covered l e = true ↔ ∃ t ∈ l, T.covers t e = true := by simp [covered]

theorem covered_append {l l' : List ε} {e : ε} :
    T.covered (l ++ l') e = (T.covered l e || T.covered l' e) := by simp [covered]

theorem covered_mono {l l' : List ε} (h : l ⊆ l') {e : ε} (hc : T.covered l e = true) :
    T.covered l' e = true := by
  obtain ⟨t, ht, hcov⟩ := covered_eq_true.mp hc
  exact covered_eq_true.mpr ⟨t, h ht, hcov⟩

theorem mem_resolve {l : List ε} {e : ε} :
    e ∈ T.resolve l ↔ e ∈ l ∧ T.isTombstone e = false ∧ T.covered l e = false := by
  simp [resolve]

theorem mem_view {p : ε → Bool} {l : List ε} {e : ε} :
    e ∈ T.view p l ↔ e ∈ l ∧ T.isTombstone e = false ∧ T.covered l e = false ∧ p e = true := by
  rw [view, List.mem_filter, mem_resolve]
  tauto

theorem resolve_sublist (l : List ε) : (T.resolve l).Sublist l := List.filter_sublist

theorem resolve_subset (l : List ε) : T.resolve l ⊆ l := (resolve_sublist l).subset

/-- Resolution leaves no tombstone, so a resolved log covers nothing. -/
theorem covered_resolve (l : List ε) (e : ε) : T.covered (T.resolve l) e = false := by
  rw [Bool.eq_false_iff, ne_eq, covered_eq_true]
  rintro ⟨t, ht, hcov⟩
  have hT := T.isTombstone_of_covers t e hcov
  simp [(mem_resolve.mp ht).2.1] at hT

theorem resolve_perm {l l' : List ε} (h : l.Perm l') : (T.resolve l).Perm (T.resolve l') := by
  have hc : T.covered l = T.covered l' := by
    funext e
    rw [Bool.eq_iff_iff, covered_eq_true, covered_eq_true]
    exact exists_congr fun t => and_congr_left fun _ => h.mem_iff
  unfold resolve
  rw [hc]
  exact h.filter _

theorem view_perm {p : ε → Bool} {l l' : List ε} (h : l.Perm l') : (T.view p l).Perm (T.view p l') :=
  (resolve_perm h).filter p

/-- Adding back the resolved form of some events of the log changes nothing a reader can see. -/
theorem mem_resolve_append_resolve {l s : List ε} (hs : s ⊆ l) {e : ε} :
    e ∈ T.resolve (l ++ T.resolve s) ↔ e ∈ T.resolve l := by
  rw [mem_resolve, mem_resolve, covered_append, covered_resolve, Bool.or_false, List.mem_append]
  refine and_congr_left fun _ => ⟨fun h => h.elim id fun h => hs (resolve_subset s h), Or.inl⟩

section Count

variable [DecidableEq ε]

theorem count_resolve (l : List ε) (e : ε) :
    (T.resolve l).count e = if T.isTombstone e || T.covered l e then 0 else l.count e := by
  unfold resolve
  cases hT : T.isTombstone e <;> cases hC : T.covered l e
  · simp [List.count_filter, hT, hC]
  all_goals
    simp only [Bool.or_true, Bool.true_or, if_true]
    exact List.count_eq_zero.mpr (by simp [List.mem_filter, hT, hC])

theorem count_view (p : ε → Bool) (l : List ε) (e : ε) :
    (T.view p l).count e =
      if T.isTombstone e || T.covered l e || !p e then 0 else l.count e := by
  unfold view
  cases hp : p e
  · simp only [Bool.not_false, Bool.or_true, if_true]
    exact List.count_eq_zero.mpr (by simp [List.mem_filter, hp])
  · rw [List.count_filter hp, count_resolve]
    simp

end Count

/-! ## Resolution in the order of the log -/

/-- The events of `l` that are no tombstone and that no **later** tombstone of `l` covers, in order. -/
def resolveInOrder (T : Tombstoning ε) : List ε → List ε
  | [] => []
  | e :: later =>
      if !T.isTombstone e && !T.covered later e then e :: resolveInOrder T later else resolveInOrder T later

theorem resolveInOrder_cons (e : ε) (later : List ε) :
    T.resolveInOrder (e :: later) =
      (if !T.isTombstone e && !T.covered later e then [e] else []) ++ T.resolveInOrder later := by
  rw [resolveInOrder]
  split <;> rfl

theorem resolveInOrder_sublist : ∀ l : List ε, (T.resolveInOrder l).Sublist l
  | [] => List.Sublist.refl _
  | e :: later => by
      rw [resolveInOrder]
      split
      · exact (resolveInOrder_sublist later).cons_cons e
      · exact (resolveInOrder_sublist later).cons e

/-- What is kept after a place of the log is kept by the whole log. -/
theorem resolveInOrder_suffix (earlier l : List ε) :
    (T.resolveInOrder l).Sublist (T.resolveInOrder (earlier ++ l)) := by
  induction earlier with
  | nil => exact List.Sublist.refl _
  | cons e earlier ih =>
      rw [List.cons_append, resolveInOrder_cons]
      exact ih.trans (List.sublist_append_right _ _)

/-- A place of the log keeps at most its own event. -/
theorem count_resolveInOrder_append_le [DecidableEq ε] (earlier l : List ε) (e : ε) :
    (T.resolveInOrder (earlier ++ l)).count e ≤ earlier.count e + (T.resolveInOrder l).count e := by
  induction earlier with
  | nil => simp
  | cons a earlier ih =>
      have hhead : (if !T.isTombstone a && !T.covered (earlier ++ l) a then [a] else []).count e ≤
          [a].count e := by
        split
        · exact le_rfl
        · exact Nat.zero_le _
      have hcons : (a :: earlier).count e = earlier.count e + [a].count e := by
        rw [List.count_cons, List.count_singleton]
      rw [List.cons_append, resolveInOrder_cons, List.count_append]
      omega

/-- **A filter keeps what the order keeps exactly when it decides every place of the log as the order does.**
A filter decides by the event alone, so it keeps all occurrences of an event or none. -/
theorem filter_eq_resolveInOrder_iff {q : ε → Bool} {l : List ε} :
    l.filter q = T.resolveInOrder l ↔
      ∀ earlier e later, l = earlier ++ e :: later → q e = (!T.isTombstone e && !T.covered later e) := by
  classical
  constructor
  · rintro h earlier e later rfl
    cases hkept : (!T.isTombstone e && !T.covered later e) with
    | true =>
        have hmem : e ∈ T.resolveInOrder (e :: later) := by
          rw [resolveInOrder_cons, hkept]
          exact List.mem_append_left _ (by simp)
        have hfilter := (resolveInOrder_suffix earlier _).subset hmem
        rw [← h] at hfilter
        exact (List.mem_filter.mp hfilter).2
    | false =>
        -- the occurrence at this place is dropped, so not all occurrences of `e` are kept
        by_contra hq
        rw [Bool.not_eq_false] at hq
        have hall : (T.resolveInOrder (earlier ++ e :: later)).count e = (earlier ++ e :: later).count e := by
          rw [← h, List.count_filter hq]
        have hlater := (resolveInOrder_sublist (T := T) later).count_le e
        have hdrop := count_resolveInOrder_append_le (T := T) earlier (e :: later) e
        have hhere : T.resolveInOrder (e :: later) = T.resolveInOrder later := by
          rw [resolveInOrder_cons, hkept]
          rfl
        rw [hhere] at hdrop
        rw [List.count_append, List.count_cons_self] at hall
        omega
  · intro h
    induction l with
    | nil => rfl
    | cons e later ih =>
        have hlater := ih fun earlier a rest heq => h (e :: earlier) a rest (by rw [heq, List.cons_append])
        rw [resolveInOrder, ← h [] e later rfl, List.filter_cons, hlater]

/-- **Nothing resumes after its deletion**: what an earlier tombstone takes, a later one takes as well. -/
def NothingResumes (T S : Tombstoning ε) (events : List ε) : Prop :=
  ∀ earlier e later, events = earlier ++ e :: later → T.isTombstone e = false →
    T.covered earlier e = true → S.covered later e = true

/-- A filter that drops what is covered anywhere, against the order of the log. -/
theorem resolve_eq_resolveInOrder_iff {S : Tombstoning ε} {events : List ε}
    (htomb : T.isTombstone = S.isTombstone) :
    T.resolve events = S.resolveInOrder events ↔
      ∀ earlier e later, events = earlier ++ e :: later → T.isTombstone e = false →
        (T.covered events e = true ↔ S.covered later e = true) := by
  unfold resolve
  rw [filter_eq_resolveInOrder_iff]
  refine forall_congr' fun earlier => forall_congr' fun e => forall_congr' fun later =>
    forall_congr' fun _ => ?_
  rw [← htomb]
  cases T.isTombstone e with
  | true => simp
  | false =>
      cases T.covered events e <;> cases S.covered later e <;> simp

/-- One set of rules for both: the two differ only on what is covered before its place. -/
theorem resolve_self_eq_resolveInOrder_iff {events : List ε} :
    T.resolve events = T.resolveInOrder events ↔ NothingResumes T T events := by
  rw [resolve_eq_resolveInOrder_iff rfl]
  refine forall_congr' fun earlier => forall_congr' fun e => forall_congr' fun later =>
    forall_congr' fun heq => forall_congr' fun hT => ?_
  have hself : T.covers e e = false := by
    rw [Bool.eq_false_iff]
    intro hcov
    rw [T.isTombstone_of_covers e e hcov] at hT
    exact absurd hT (by simp)
  have hsplit : T.covered events e = (T.covered earlier e || T.covered later e) := by
    rw [heq, covered_append]
    simp [covered, hself]
  rw [hsplit, Bool.or_eq_true]
  tauto

/-! ## Compacting part of a log -/

/-- The log before compaction: what is left alone, then the groups to be compacted. -/
def uncompacted (kept : List ε) (groups : List (List ε)) : List ε := kept ++ groups.flatten

/-- The log after compaction: each group is replaced by its own resolution. -/
def compacted (T : Tombstoning ε) (kept : List ε) (groups : List (List ε)) : List ε :=
  kept ++ groups.flatMap T.resolve

/-- **Closedness of a compaction**, for the events `p` selects: whatever the whole log covers is covered by
what is left alone, or by a tombstone in the event's own group. -/
structure Closed (T : Tombstoning ε) (p : ε → Bool) (kept : List ε) (groups : List (List ε)) : Prop where
  kept_closed : ∀ e ∈ kept, p e = true → T.isTombstone e = false →
    T.covered (uncompacted kept groups) e = true → T.covered kept e = true
  group_closed : ∀ g ∈ groups, ∀ e ∈ g, p e = true → T.isTombstone e = false →
    T.covered (uncompacted kept groups) e = true → T.covered kept e = true ∨ T.covered g e = true

instance [DecidableEq ε] (T : Tombstoning ε) (p : ε → Bool) (kept : List ε) (groups : List (List ε)) :
    Decidable (Closed T p kept groups) :=
  decidable_of_iff
    ((∀ e ∈ kept, p e = true → T.isTombstone e = false →
        T.covered (uncompacted kept groups) e = true → T.covered kept e = true) ∧
      ∀ g ∈ groups, ∀ e ∈ g, p e = true → T.isTombstone e = false →
        T.covered (uncompacted kept groups) e = true → T.covered kept e = true ∨ T.covered g e = true)
    ⟨fun h => ⟨h.1, h.2⟩, fun h => ⟨h.1, h.2⟩⟩

variable {p : ε → Bool} {kept : List ε} {groups : List (List ε)}

/-- A compacted log has only the tombstones that were left alone. -/
theorem covered_compacted (kept : List ε) (groups : List (List ε)) (e : ε) :
    T.covered (compacted T kept groups) e = T.covered kept e := by
  have hg : T.covered (groups.flatMap T.resolve) e = false := by
    rw [Bool.eq_false_iff, ne_eq, covered_eq_true]
    rintro ⟨t, ht, hcov⟩
    obtain ⟨g, _, htg⟩ := List.mem_flatMap.mp ht
    have hnone := covered_resolve (T := T) g e
    rw [covered_eq_true.mpr ⟨t, htg, hcov⟩] at hnone
    exact absurd hnone (by simp)
  rw [compacted, covered_append, hg, Bool.or_false]

theorem kept_subset_uncompacted (kept : List ε) (groups : List (List ε)) : kept ⊆ uncompacted kept groups :=
  List.subset_append_left _ _

theorem group_subset_uncompacted (kept : List ε) {g : List ε} (hg : g ∈ groups) :
    g ⊆ uncompacted kept groups :=
  fun _ he => List.mem_append_right _ (List.mem_flatten.mpr ⟨g, hg, he⟩)

theorem mem_compacted {e : ε} :
    e ∈ compacted T kept groups ↔ e ∈ kept ∨ ∃ g ∈ groups, e ∈ T.resolve g := by
  simp [compacted]

theorem mem_uncompacted {e : ε} : e ∈ uncompacted kept groups ↔ e ∈ kept ∨ ∃ g ∈ groups, e ∈ g := by
  simp [uncompacted]

theorem compacted_subset : compacted T kept groups ⊆ uncompacted kept groups := by
  intro e he
  rcases mem_compacted.mp he with h | ⟨g, hg, h⟩
  · exact kept_subset_uncompacted kept groups h
  · exact group_subset_uncompacted kept hg (resolve_subset g h)

/-- What survives a closed compaction is covered afterwards exactly when it was before. -/
theorem Closed.covered_compacted_eq (hC : Closed T p kept groups) {e : ε} (hp : p e = true)
    (hT : T.isTombstone e = false) (he : e ∈ compacted T kept groups) :
    T.covered (compacted T kept groups) e = T.covered (uncompacted kept groups) e := by
  rw [covered_compacted, Bool.eq_iff_iff]
  refine ⟨covered_mono (kept_subset_uncompacted kept groups), fun hcov => ?_⟩
  rcases mem_compacted.mp he with h | ⟨g, hg, h⟩
  · exact hC.kept_closed e h hp hT hcov
  · rcases hC.group_closed g hg e (resolve_subset g h) hp hT hcov with h' | h'
    · exact h'
    · exact absurd (mem_resolve.mp h).2.2 (by simp [h'])

/-- **A compaction changes no view exactly when it is closed.** -/
theorem mem_view_compacted_iff :
    (∀ e, e ∈ T.view p (compacted T kept groups) ↔ e ∈ T.view p (uncompacted kept groups)) ↔
      Closed T p kept groups := by
  constructor
  · intro h
    -- what the compaction would bring back is still covered by what it keeps
    have key : ∀ e, e ∈ compacted T kept groups → p e = true → T.isTombstone e = false →
        T.covered (uncompacted kept groups) e = true → T.covered kept e = true := by
      intro e he hp hT hcov
      by_contra hk
      rw [Bool.not_eq_true] at hk
      have hafter : e ∈ T.view p (compacted T kept groups) :=
        mem_view.mpr ⟨he, hT, by rw [covered_compacted]; exact hk, hp⟩
      have hbefore := mem_view.mp ((h e).mp hafter)
      exact absurd hbefore.2.2.1 (by simp [hcov])
    refine ⟨fun e he hp hT hcov => key e (mem_compacted.mpr (Or.inl he)) hp hT hcov, ?_⟩
    intro g hg e he hp hT hcov
    by_cases hge : T.covered g e = true
    · exact Or.inr hge
    · rw [Bool.not_eq_true] at hge
      exact Or.inl (key e (mem_compacted.mpr (Or.inr ⟨g, hg, mem_resolve.mpr ⟨he, hT, hge⟩⟩)) hp hT hcov)
  · intro hC e
    rw [mem_view, mem_view]
    constructor
    · rintro ⟨he, hT, hcov, hp⟩
      refine ⟨compacted_subset he, hT, ?_, hp⟩
      rw [← hC.covered_compacted_eq hp hT he]
      exact hcov
    · rintro ⟨he, hT, hcov, hp⟩
      -- what is visible before was not dropped with its group
      have he' : e ∈ compacted T kept groups := by
        rcases mem_uncompacted.mp he with h | ⟨g, hg, h⟩
        · exact mem_compacted.mpr (Or.inl h)
        · refine mem_compacted.mpr (Or.inr ⟨g, hg, mem_resolve.mpr ⟨h, hT, ?_⟩⟩)
          rw [Bool.eq_false_iff]
          exact fun hg' =>
            absurd (covered_mono (group_subset_uncompacted kept hg) hg') (by simp [hcov])
      exact ⟨he', hT, by rw [hC.covered_compacted_eq hp hT he']; exact hcov, hp⟩

section Count

variable [DecidableEq ε]

theorem count_compacted_le (e : ε) :
    (compacted T kept groups).count e ≤ (uncompacted kept groups).count e := by
  have hsub : (groups.flatMap T.resolve).Sublist groups.flatten := by
    induction groups with
    | nil => exact List.Sublist.refl _
    | cons g gs ih => exact (resolve_sublist g).append ih
  exact ((List.Sublist.refl kept).append hsub).count_le e

/-- A compaction removes only tombstones and events that a tombstone of the log covers. -/
theorem dropped_of_count_compacted_lt {e : ε}
    (h : (compacted T kept groups).count e < (uncompacted kept groups).count e) :
    T.isTombstone e = true ∨ T.covered (uncompacted kept groups) e = true := by
  by_contra hno
  simp only [not_or, Bool.not_eq_true] at hno
  obtain ⟨hT, hcov⟩ := hno
  have hgroups : (groups.flatMap T.resolve).count e = groups.flatten.count e := by
    rw [List.count_flatMap, List.count_flatten]
    refine congrArg List.sum (List.map_congr_left fun g hg => ?_)
    have hg' : T.covered g e = false := by
      rw [Bool.eq_false_iff]
      exact fun hge => absurd (covered_mono (group_subset_uncompacted kept hg) hge) (by simp [hcov])
    simp [count_resolve, hT, hg']
  simp [compacted, uncompacted, hgroups] at h

end Count

/-! ## A compacted log that still stands for the full one -/

section Faithful

variable [DecidableEq ε]

/-- **`L` stands for `J`**: nothing is added, only deleted events are missing, and what is left of a deleted
event is still covered. -/
structure Faithful (T : Tombstoning ε) (p : ε → Bool) (J L : List ε) : Prop where
  count_le : ∀ e, L.count e ≤ J.count e
  dropped : ∀ e, L.count e < J.count e → T.isTombstone e = true ∨ T.covered J e = true
  still_covered : ∀ e ∈ L, p e = true → T.isTombstone e = false → T.covered J e = true →
    T.covered L e = true

theorem Faithful.refl (J : List ε) : Faithful T p J J :=
  ⟨fun _ => le_rfl, fun _ h => absurd h (lt_irrefl _), fun _ _ _ _ h => h⟩

theorem Faithful.subset {J L : List ε} (h : Faithful T p J L) : L ⊆ J := fun e he =>
  List.count_pos_iff.mp (lt_of_lt_of_le (List.count_pos_iff.mpr he) (h.count_le e))

/-- **Equal views.** -/
theorem Faithful.view_perm {J L : List ε} (h : Faithful T p J L) : (T.view p L).Perm (T.view p J) := by
  rw [List.perm_iff_count]
  intro e
  rw [count_view, count_view]
  by_cases hdead : T.isTombstone e = true ∨ p e = false
  · rcases hdead with hT | hp
    · simp [hT]
    · simp [hp]
  · simp only [not_or, Bool.not_eq_true, Bool.not_eq_false] at hdead
    obtain ⟨hT, hp⟩ := hdead
    cases hJ : T.covered J e with
    | false =>
        have hL : T.covered L e = false := by
          rw [Bool.eq_false_iff]
          exact fun hc => absurd (covered_mono h.subset hc) (by simp [hJ])
        have hcount : L.count e = J.count e := by
          refine le_antisymm (h.count_le e) (not_lt.mp fun hlt => ?_)
          have hd := h.dropped e hlt
          simp [hT, hJ] at hd
        simp [hT, hL, hcount]
    | true =>
        by_cases he : e ∈ L
        · simp [hT, h.still_covered e he hp hT hJ]
        · simp [List.count_eq_zero.mpr he]

/-- Appending a batch that no lost tombstone covers. -/
theorem Faithful.append {J L B : List ε} (h : Faithful T p J L)
    (hB : ∀ e ∈ B, p e = true → T.isTombstone e = false → T.covered J e = true →
      T.covered (L ++ B) e = true) : Faithful T p (J ++ B) (L ++ B) := by
  refine ⟨fun e => ?_, fun e hlt => ?_, fun e he hp hT hcov => ?_⟩
  · rw [List.count_append, List.count_append]
    exact Nat.add_le_add_right (h.count_le e) _
  · rw [List.count_append, List.count_append] at hlt
    refine (h.dropped e (by omega)).imp id fun hc => ?_
    rw [covered_append, hc, Bool.true_or]
  · rw [covered_append, Bool.or_eq_true] at hcov
    rcases hcov with hJ | hBc
    · rcases List.mem_append.mp he with hL | hb
      · rw [covered_append, h.still_covered e hL hp hT hJ, Bool.true_or]
      · exact hB e hb hp hT hJ
    · rw [covered_append, hBc, Bool.or_true]

/-- Compacting some groups of the log, when the compaction is closed. -/
theorem Faithful.compact {J : List ε} (h : Faithful T p J (uncompacted kept groups))
    (hC : Closed T p kept groups) : Faithful T p J (compacted T kept groups) := by
  refine ⟨fun e => (count_compacted_le e).trans (h.count_le e), fun e hlt => ?_,
    fun e he hp hT hcov => ?_⟩
  · by_cases hlt' : (uncompacted kept groups).count e < J.count e
    · exact h.dropped e hlt'
    · have hltc : (compacted T kept groups).count e < (uncompacted kept groups).count e := by omega
      exact (dropped_of_count_compacted_lt hltc).imp id fun hc => covered_mono h.subset hc
  · rw [hC.covered_compacted_eq hp hT he]
    exact h.still_covered e (compacted_subset he) hp hT hcov

/-- The order a log is kept in does not matter. -/
theorem Faithful.perm {J L J' L' : List ε} (h : Faithful T p J L) (hJ : J.Perm J') (hL : L.Perm L') :
    Faithful T p J' L' := by
  have hcov : ∀ {l l' : List ε}, l.Perm l' → ∀ e, T.covered l e = true → T.covered l' e = true :=
    fun hp e => covered_mono hp.subset
  refine ⟨fun e => ?_, fun e hlt => ?_, fun e he hp hT hc => ?_⟩
  · rw [← hL.count_eq, ← hJ.count_eq]; exact h.count_le e
  · rw [← hL.count_eq, ← hJ.count_eq] at hlt
    exact (h.dropped e hlt).imp id (hcov hJ e)
  · exact hcov hL e (h.still_covered e (hL.mem_iff.mpr he) hp hT (hcov hJ.symm e hc))

end Faithful

end Tombstoning

/-! ## Two-pass filters -/

/-- Looking an optional key up among the keys that a first pass collected. -/
theorem any_contains_filterMap {α β : Type} [BEq β] [LawfulBEq β] [DecidableEq β] (o : Option β) (p : α → Prop)
    [DecidablePred p] (f : α → Option β) (l : List α) :
    o.any (fun b => (l.filterMap fun a => if p a then f a else none).contains b) =
      l.any fun a => decide (p a) && o.any fun b => f a = some b := by
  cases o with
  | none => simp
  | some b =>
      rw [Bool.eq_iff_iff]
      simp only [Option.any_some, List.contains_iff_mem, List.mem_filterMap, List.any_eq_true,
        Bool.and_eq_true, decide_eq_true_eq]
      refine exists_congr fun a => and_congr_right fun _ => ?_
      by_cases hp : p a
      · simp [hp]
      · simp [hp]

end KChatCore.Lib
