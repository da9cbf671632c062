import KChatCore.Backup.Progress

/-!
# `Backup.Drain` — does draining the journal get anywhere?

The read step takes a window of rows past the cursor and skips the untyped ones; a window without a typed row
reads as "nothing to do", whatever lies behind it. So a run makes progress exactly when there is a typed row in
the window, and repeated runs seal everything exactly when no gap between typed rows is as long as a window.

* `gapsServed_run` — a run does not change whether the rest of the journal can be drained.
* `drain_progress_iff` — progress of one run, and of finitely many.
-/

namespace KChatCore.Backup

open Lib

/-! ## The rows past the cursor -/

/-- The row's tag is in the taxonomy. -/
def JournalRow.hasTypedTag (r : JournalRow) : Bool := (BackupEventType.parseSnakeCase r.eventType).isOk

/-- The rows past the cursor. -/
def BackupDb.pending (db : BackupDb) : List JournalRow :=
  db.journal.rows.filter fun r => db.readCursor < r.eventSeq

theorem JournalRow.untyped {r : JournalRow} (h : r.hasTypedTag = false) :
    r.readable = true ∧ r.numbered = none ∧ r.typed = none := by
  unfold hasTypedTag at h
  cases hty : BackupEventType.parseSnakeCase r.eventType with
  | ok ty => simp [hty, Except.isOk, Except.toBool] at h
  | error e => simp [readable, typed, numbered, parse, hty]

/-- A readable row with a typed tag is an event. -/
theorem JournalRow.numbered_of_typedTag {r : JournalRow} (hread : r.readable = true)
    (htag : r.hasTypedTag = true) : ∃ e, r.numbered = some (r.eventSeq, e) := by
  unfold readable at hread
  cases hp : r.parse with
  | error e => simp [hp] at hread
  | ok o =>
      have hnum : r.numbered = o := by simp [numbered, hp]
      cases o with
      | some q =>
          have hq : q.1 = r.eventSeq := numbered_fst hnum
          exact ⟨q.2, by rw [hnum, ← hq]⟩
      | none =>
          -- only an untyped row parses to nothing
          unfold parse at hp
          unfold hasTypedTag at htag
          cases hty : BackupEventType.parseSnakeCase r.eventType with
          | error e => simp [hty, Except.isOk, Except.toBool] at htag
          | ok ty =>
              simp only [hty] at hp
              cases hc : parseId "conversation_id" r.conversationId with
              | error e => simp [hc, Except.bind] at hp
              | ok conv =>
                  cases hm : parseId "message_id" r.messageId with
                  | error e => simp [hc, hm, Except.bind] at hp
                  | ok mid => simp [hc, hm, Except.bind] at hp

theorem JournalRow.typedTag_of_numbered {r : JournalRow} {p : Nat × BackupEvent} (h : r.numbered = some p) :
    r.hasTypedTag = true := by
  by_contra hno
  rw [Bool.not_eq_true] at hno
  rw [(untyped hno).2.1] at h
  exact absurd h (by simp)

/-! ## One run -/

/-- The window of the next read. -/
def BackupDb.nextWindow (db : BackupDb) : List JournalRow := db.pending.take maxEventsPerBackupSegment

theorem readUnsegmented_eq (db : BackupDb) :
    db.readUnsegmented maxEventsPerBackupSegment = collectRows db.nextWindow := rfl

/-- **When there is something to do**: every row of the window is readable and one of them is typed. -/
theorem readBatch_isSome_iff (db : BackupDb) :
    (∃ batch, readBatch db = .ok (some batch)) ↔
      (∀ r ∈ db.nextWindow, r.readable = true) ∧ ∃ r ∈ db.nextWindow, r.hasTypedTag = true := by
  unfold readBatch
  rw [readUnsegmented_eq]
  constructor
  · rintro ⟨batch, h⟩
    cases hc : collectRows db.nextWindow with
    | error e => simp [hc, Except.map] at h
    | ok out =>
        obtain ⟨hread, hout⟩ := collectRows_eq_ok.mp hc
        simp only [hc, Except.map, Except.ok.injEq] at h
        obtain ⟨last, hlast, _⟩ := Option.map_eq_some_iff.mp h
        have hmem : last ∈ out := List.mem_of_getLast? hlast
        rw [hout, List.mem_filterMap] at hmem
        obtain ⟨r, hr, hnum⟩ := hmem
        exact ⟨hread, r, hr, JournalRow.typedTag_of_numbered hnum⟩
  · rintro ⟨hread, r, hr, htag⟩
    have hc := collectRows_eq_ok.mpr ⟨hread, rfl⟩
    obtain ⟨e, hnum⟩ := JournalRow.numbered_of_typedTag (hread r hr) htag
    have hne : db.nextWindow.filterMap JournalRow.numbered ≠ [] :=
      List.ne_nil_of_mem (List.mem_filterMap.mpr ⟨r, hr, hnum⟩)
    exact ⟨_, by rw [hc, Except.map, List.getLast?_eq_some_getLast hne]; rfl⟩

/-! ## What a run leaves pending -/

/-- **A batch against the pending rows**: it is the typed events of a prefix that ends in a typed row within
the window, and the rows after that prefix are the ones past the batch's cursor. -/
theorem readBatch_split {db : BackupDb} {batch : ReadBatch} (h : readBatch db = .ok (some batch)) :
    ∃ before r after, db.pending = before ++ r :: after ∧ before.length < maxEventsPerBackupSegment ∧
      (∀ x ∈ before, x.readable = true) ∧ r.readable = true ∧ r.hasTypedTag = true ∧
      after = db.journal.rows.filter (fun x => batch.lastSeq < x.eventSeq) ∧
      batch.events = (before ++ [r]).filterMap JournalRow.typed := by
  obtain ⟨_, hlt, _, _⟩ := readBatch_eq_some h
  unfold readBatch at h
  rw [readUnsegmented_eq] at h
  cases hc : collectRows db.nextWindow with
  | error e => simp [hc, Except.map] at h
  | ok out =>
      obtain ⟨hread, hout⟩ := collectRows_eq_ok.mp hc
      simp only [hc, Except.map, Except.ok.injEq] at h
      obtain ⟨last, hlast, rfl⟩ := Option.map_eq_some_iff.mp h
      have hfind := hlast
      rw [hout, List.getLast?_filterMap, List.findSome?_eq_some_iff] at hfind
      -- `r` is the last row of the window that has a typed tag
      obtain ⟨b', r, a', hrev, hnum, hnone⟩ := hfind
      have hwin : db.nextWindow = a'.reverse ++ r :: b'.reverse := by
        have := congrArg List.reverse hrev
        simpa using this
      obtain ⟨rest, hpending⟩ : ∃ rest, db.pending = a'.reverse ++ r :: (b'.reverse ++ rest) := by
        refine ⟨db.pending.drop maxEventsPerBackupSegment, ?_⟩
        have hsplit : db.nextWindow ++ db.pending.drop maxEventsPerBackupSegment = db.pending :=
          List.take_append_drop _ _
        rw [hwin, List.append_assoc, List.cons_append] at hsplit
        exact hsplit.symm
      have hseq : last.1 = r.eventSeq := JournalRow.numbered_fst hnum
      refine ⟨a'.reverse, r, b'.reverse ++ rest, hpending, ?_,
        fun x hx => hread x (by rw [hwin]; simp [List.mem_reverse.mp hx]), hread r (by rw [hwin]; simp),
        JournalRow.typedTag_of_numbered hnum, ?_, ?_⟩
      · have hlen : db.nextWindow.length ≤ maxEventsPerBackupSegment := List.length_take_le _ _
        rw [hwin, List.length_append, List.length_cons] at hlen
        omega
      · -- the pending rows past the last typed one are those that come after it
        have hasc : db.pending.Pairwise fun x y => x.eventSeq < y.eventSeq := db.journal.ascending.filter _
        have hsub : db.journal.rows.filter (fun x => last.1 < x.eventSeq) =
            db.pending.filter fun x => last.1 < x.eventSeq := by
          rw [BackupDb.pending, List.filter_filter]
          refine List.filter_congr fun x _ => ?_
          rw [Bool.eq_iff_iff, Bool.and_eq_true, decide_eq_true_eq, decide_eq_true_eq]
          exact ⟨fun hx => ⟨hx, hlt.trans hx⟩, fun hx => hx.1⟩
        rw [hsub]
        rw [hpending] at hasc ⊢
        rw [List.pairwise_append, List.pairwise_cons] at hasc
        obtain ⟨_, ⟨hafter, _⟩, hbefore⟩ := hasc
        rw [List.filter_append, List.filter_cons_of_neg (by simp [hseq])]
        rw [List.filter_eq_nil_iff.mpr (fun x hx => by
          have := hbefore x hx r (by simp)
          simp only [decide_eq_true_eq]
          omega), List.nil_append, eq_comm, List.filter_eq_self]
        intro x hx
        rw [decide_eq_true_eq, hseq]
        exact hafter x hx
      · -- the rows behind it have no typed tag
        have hall : out = (a'.reverse ++ [r]).filterMap JournalRow.numbered := by
          rw [hout, hwin, List.filterMap_append, List.filterMap_cons, hnum, List.filterMap_append,
            List.filterMap_cons, hnum, List.filterMap_nil]
          rw [List.filterMap_eq_nil_iff.mpr (fun x hx => hnone x (List.mem_reverse.mp hx))]
        rw [filterMap_typed, ← hall]

/-- **Every typed row can be reached**: it is readable, and fewer than `limit` untyped rows separate it from
the typed row before it (or from the cursor, `gap` rows of the separation being already behind). -/
def gapsServed (limit : Nat) : Nat → List JournalRow → Bool
  | _, [] => true
  | gap, r :: rows =>
      if r.hasTypedTag then r.readable && decide (gap < limit) && gapsServed limit 0 rows
      else gapsServed limit (gap + 1) rows

theorem gapsServed_split {limit : Nat} {before after : List JournalRow} {r : JournalRow}
    (hbefore : ∀ x ∈ before, x.readable = true) (hr : r.readable = true) (htag : r.hasTypedTag = true)
    {gap : Nat} (hgap : gap + before.length < limit) :
    gapsServed limit gap (before ++ r :: after) = gapsServed limit 0 after := by
  induction before generalizing gap with
  | nil =>
      have hlt : gap < limit := by simpa using hgap
      simp [gapsServed, hr, htag, hlt]
  | cons x before ih =>
      have hx := hbefore x (by simp)
      have hbefore' : ∀ y ∈ before, y.readable = true := fun y hy => hbefore y (by simp [hy])
      rw [List.length_cons] at hgap
      rw [List.cons_append, gapsServed]
      by_cases htx : x.hasTypedTag = true
      · have hlt : gap < limit := by omega
        rw [if_pos htx, hx, ih hbefore' (by omega)]
        simp [hlt]
      · rw [if_neg htx]
        exact ih hbefore' (by omega)

theorem readable_of_gapsServed {limit gap : Nat} {rows : List JournalRow}
    (h : gapsServed limit gap rows = true) : ∀ r ∈ rows, r.readable = true := by
  induction rows generalizing gap with
  | nil => simp
  | cons x rows ih =>
      intro r hr
      rw [gapsServed] at h
      by_cases htx : x.hasTypedTag = true
      · rw [if_pos htx, Bool.and_eq_true, Bool.and_eq_true] at h
        rcases List.mem_cons.mp hr with rfl | hr
        · exact h.1.1
        · exact ih h.2 r hr
      · rw [if_neg htx] at h
        rcases List.mem_cons.mp hr with rfl | hr
        · exact (JournalRow.untyped (by simpa using htx)).1
        · exact ih h r hr

/-- When the gaps are served, the window holds a typed row unless there is none at all. -/
theorem typed_in_window_of_gapsServed {limit gap : Nat} {rows : List JournalRow}
    (h : gapsServed limit gap rows = true) (htyped : ∃ r ∈ rows, r.hasTypedTag = true) :
    ∃ r ∈ rows.take (limit - gap), r.hasTypedTag = true := by
  induction rows generalizing gap with
  | nil => exact absurd htyped (by simp)
  | cons x rows ih =>
      rw [gapsServed] at h
      by_cases htx : x.hasTypedTag = true
      · rw [if_pos htx, Bool.and_eq_true, Bool.and_eq_true, decide_eq_true_eq] at h
        obtain ⟨k, hk⟩ : ∃ k, limit - gap = k + 1 := ⟨limit - gap - 1, by omega⟩
        exact ⟨x, by rw [hk]; simp, htx⟩
      · rw [if_neg htx] at h
        have htyped' : ∃ r ∈ rows, r.hasTypedTag = true := by
          obtain ⟨r, hr, htr⟩ := htyped
          rcases List.mem_cons.mp hr with rfl | hr
          · exact absurd htr htx
          · exact ⟨r, hr, htr⟩
        obtain ⟨r, hr, htr⟩ := ih h htyped'
        obtain ⟨k, hk⟩ : ∃ k, limit - (gap + 1) = k + 1 := by
          refine ⟨limit - (gap + 1) - 1, ?_⟩
          have hne : limit - (gap + 1) ≠ 0 := fun h0 => by simp [h0] at hr
          omega
        have hk' : limit - gap = k + 1 + 1 := by omega
        rw [hk] at hr
        exact ⟨r, by rw [hk', List.take_succ_cons]; exact List.mem_cons_of_mem _ hr, htr⟩

section Drain

variable {P : Primitives} {keys : BackupKeys} {c c' : Core}

/-- **One run against the pending rows**: it leaves them alone, or takes a readable prefix that ends in a typed
row and fits the window, and adds the prefix's events to the ledger. -/
theorem pending_run {nowMs : Int} {r : Except Error (BackupResult × List SealedBackupEventRef)}
    (hrun : runIncrementalBackupInner P nowMs c = (r, c')) :
    (c'.db = c.db ∧ c'.backup = c.backup) ∨
    ∃ before x after, c.db.pending = before ++ x :: after ∧ c'.db.pending = after ∧
      before.length < maxEventsPerBackupSegment ∧ (∀ y ∈ before, y.readable = true) ∧ x.readable = true ∧
      x.hasTypedTag = true ∧
      ledgerEvents P c'.backup.chainState.trackedSegments =
        ledgerEvents P c.backup.chainState.trackedSegments ++ (before ++ [x]).filterMap JournalRow.typed ∧
      nextGeneration c'.backup.chainState.previousManifest =
        nextGeneration c.backup.chainState.previousManifest + 1 := by
  rcases runIncrementalBackupInner_cases hrun with ⟨hu, _⟩ | ⟨keys', batch, t, sealed, c₂, ru, hi, hup, _⟩
  · exact Or.inl ⟨hu.db, hu.backup⟩
  · obtain ⟨hdb, hbackup, _⟩ := uploadStep_frame hup
    obtain ⟨row, _, hdb₂⟩ := hi.persisted
    obtain ⟨before, x, after, hpending, hlen, hread, hx, htag, hafter, hevents⟩ := readBatch_split hi.read
    refine Or.inr ⟨before, x, after, hpending, ?_, hlen, hread, hx, htag, ?_, ?_⟩
    · rw [hdb, hdb₂, hafter]
      rfl
    · rw [hbackup, hi.committed.chainState]
      show ledgerEvents P (_ ++ [t]) = _
      rw [ledgerEvents_append, ledgerEvents_singleton, hi.events, hevents]
    · rw [hbackup, hi.committed.chainState, ← chainLink_generation hi.committed.manifest.link]
      rfl

/-- **A run does not change whether the rest can be drained.** -/
theorem gapsServed_run {nowMs : Int} {r : Except Error (BackupResult × List SealedBackupEventRef)}
    (hrun : runIncrementalBackupInner P nowMs c = (r, c')) :
    gapsServed maxEventsPerBackupSegment 0 c'.db.pending =
      gapsServed maxEventsPerBackupSegment 0 c.db.pending := by
  rcases pending_run hrun with ⟨hdb, _⟩ | ⟨before, x, after, hp, hp', hlen, hread, hx, htag, _, _⟩
  · rw [hdb]
  · rw [hp, hp', gapsServed_split hread hx htag (by omega)]

/-- `n` runs one after the other, whatever each of them returns; `clock` gives their times. -/
def drainRuns (P : Primitives) : (Nat → Int) → Nat → Core → Core
  | _, 0, c => c
  | clock, n + 1, c => drainRuns P (fun i => clock (i + 1)) n (runIncrementalBackupInner P (clock 0) c).2

/-- **A run makes progress**: if a typed row is pending, it seals at least one typed event and advances the
cursor. -/
def SealsSome (P : Primitives) (nowMs : Int) (c : Core) : Prop :=
  (∃ r ∈ c.db.pending, r.hasTypedTag = true) →
    c.db.readCursor < (runIncrementalBackupInner P nowMs c).2.db.readCursor ∧
    ∃ t, (runIncrementalBackupInner P nowMs c).2.backup.chainState.trackedSegments =
        c.backup.chainState.trackedSegments ++ [t] ∧ segmentEvents P t ≠ []

/-- **Finitely many runs seal everything**: no typed row stays pending, and the ledger has gained exactly the
typed events that were. -/
def SealsAll (P : Primitives) (clock : Nat → Int) (c : Core) : Prop :=
  ∃ n, (∀ r ∈ (drainRuns P clock n c).db.pending, r.hasTypedTag = false) ∧
    ledgerEvents P (drainRuns P clock n c).backup.chainState.trackedSegments =
      ledgerEvents P c.backup.chainState.trackedSegments ++ c.db.pending.filterMap JournalRow.typed

/-- The window serves the pending rows: if any of them is typed, the window holds a typed row and all of the
window is readable. -/
def WindowServes (db : BackupDb) : Prop :=
  (∃ r ∈ db.pending, r.hasTypedTag = true) →
    (∀ r ∈ db.nextWindow, r.readable = true) ∧ ∃ r ∈ db.nextWindow, r.hasTypedTag = true

instance (db : BackupDb) : Decidable (WindowServes db) := by
  unfold WindowServes
  infer_instance

/-- A run that finds nothing in its window changes nothing. -/
theorem sealsSome_iff (nowMs : Int) (h : CoreInv P keys c)
    (hroom : nextGeneration c.backup.chainState.previousManifest ≤ u64Max) :
    SealsSome P nowMs c ↔ WindowServes c.db := by
  rcases hrun : runIncrementalBackupInner P nowMs c with ⟨r, c'⟩
  unfold SealsSome WindowServes
  rw [hrun]
  refine imp_congr_right fun _ => ?_
  rw [← readBatch_isSome_iff]
  constructor
  · rintro ⟨hcur, _⟩
    rcases runIncrementalBackupInner_cases hrun with ⟨hu, _⟩ | ⟨keys', batch, t, sealed, c₂, ru, hi, _, _⟩
    · rw [hu.db] at hcur
      exact absurd hcur (lt_irrefl _)
    · exact ⟨batch, hi.read⟩
  · rintro ⟨batch, hbatch⟩
    obtain ⟨t, sealed, c₂, ru, hi, hup, _⟩ := runIncrementalBackupInner_commits h hbatch hroom hrun
    obtain ⟨hdb, hbackup, _⟩ := uploadStep_frame hup
    obtain ⟨hne, hlt, _, _⟩ := readBatch_eq_some hbatch
    obtain ⟨row, _, hdb₂⟩ := hi.persisted
    refine ⟨?_, t, ?_, ?_⟩
    · rw [hdb, hdb₂]
      exact hlt
    · rw [hbackup, hi.committed.chainState]
    · rw [hi.events]
      exact hne

/-- While the rest can be drained, enough runs drain it. -/
theorem sealsAll_of_gapsServed (h : CoreInv P keys c)
    (hroom : nextGeneration c.backup.chainState.previousManifest + c.db.pending.length ≤ u64Max + 1)
    (hgaps : gapsServed maxEventsPerBackupSegment 0 c.db.pending = true) (clock : Nat → Int) :
    SealsAll P clock c := by
  -- each run that finds a typed row makes the pending list shorter
  induction hn : c.db.pending.length using Nat.strong_induction_on generalizing c clock with
  | _ n ih =>
      by_cases htyped : ∃ r ∈ c.db.pending, r.hasTypedTag = true
      · have hwin : WindowServes c.db := fun _ =>
          ⟨fun r hr => readable_of_gapsServed hgaps r (List.mem_of_mem_take hr),
            typed_in_window_of_gapsServed hgaps htyped⟩
        have hpos : 0 < c.db.pending.length := by
          obtain ⟨r, hr, _⟩ := htyped
          exact List.length_pos_of_mem hr
        obtain ⟨hcur, _⟩ := (sealsSome_iff (clock 0) h (by omega)).mpr hwin htyped
        rcases hrun : runIncrementalBackupInner P (clock 0) c with ⟨r, c'⟩
        have hgaps' := (gapsServed_run hrun).trans hgaps
        have hinv' := h.incremental hrun
        rcases pending_run hrun with ⟨hdb, _⟩ | ⟨before, x, after, hp, hp', _, _, _, _, hledger, hgen⟩
        · rw [hrun, hdb] at hcur
          exact absurd hcur (lt_irrefl _)
        · have hlen : c.db.pending.length = before.length + (c'.db.pending.length + 1) := by
            rw [hp, hp', List.length_append, List.length_cons]
          obtain ⟨m, hnone, hall⟩ := ih c'.db.pending.length (by omega) hinv' (by omega) hgaps'
            (fun i => clock (i + 1)) rfl
          refine ⟨m + 1, ?_, ?_⟩
          · simp only [drainRuns, hrun]
            exact hnone
          · simp only [drainRuns, hrun]
            rw [hall, hledger, hp', hp, List.append_assoc, ← List.filterMap_append]
            simp
      · refine ⟨0, fun r hr => ?_, ?_⟩
        · rw [← Bool.not_eq_true]
          exact fun htr => htyped ⟨r, hr, htr⟩
        · have hnil : c.db.pending.filterMap JournalRow.typed = [] := by
            refine List.filterMap_eq_nil_iff.mpr fun r hr => ?_
            have htr : r.hasTypedTag = false := by
              rw [← Bool.not_eq_true]
              exact fun htr => htyped ⟨r, hr, htr⟩
            exact (JournalRow.untyped htr).2.2
          rw [hnil, List.append_nil]
          rfl

theorem gapsServed_drainRuns (clock : Nat → Int) (n : Nat) (c : Core) :
    gapsServed maxEventsPerBackupSegment 0 (drainRuns P clock n c).db.pending =
      gapsServed maxEventsPerBackupSegment 0 c.db.pending := by
  induction n generalizing c clock with
  | zero => rfl
  | succ n ih =>
      rcases hrun : runIncrementalBackupInner P (clock 0) c with ⟨r, c'⟩
      rw [drainRuns, hrun, ih]
      exact gapsServed_run hrun

/-- A run of untyped rows widens the gap before what follows. -/
theorem gapsServed_untyped_append {limit gap : Nat} {rows rest : List JournalRow}
    (h : ∀ r ∈ rows, r.hasTypedTag = false) :
    gapsServed limit gap (rows ++ rest) = gapsServed limit (gap + rows.length) rest := by
  induction rows generalizing gap with
  | nil => rfl
  | cons x rows ih =>
      rw [List.cons_append, gapsServed, h x (by simp), List.length_cons,
        show gap + (rows.length + 1) = gap + 1 + rows.length by omega]
      exact ih fun r hr => h r (by simp [hr])

/-- A list without typed rows has no gap to serve. -/
theorem gapsServed_of_untyped {limit gap : Nat} {rows : List JournalRow}
    (h : ∀ r ∈ rows, r.hasTypedTag = false) : gapsServed limit gap rows = true := by
  have happ := @gapsServed_untyped_append limit gap rows [] h
  rw [List.append_nil] at happ
  rw [happ, gapsServed]

theorem sealsAll_iff (h : CoreInv P keys c)
    (hroom : nextGeneration c.backup.chainState.previousManifest + c.db.pending.length ≤ u64Max + 1)
    (clock : Nat → Int) :
    SealsAll P clock c ↔ gapsServed maxEventsPerBackupSegment 0 c.db.pending = true := by
  constructor
  · rintro ⟨n, hnone, _⟩
    rw [← gapsServed_drainRuns clock n c]
    exact gapsServed_of_untyped hnone
  · intro hgaps
    exact sealsAll_of_gapsServed h hroom hgaps clock

/-- **When draining makes progress.** Between calls, with generations left for every pending row: one run makes
progress exactly when its window serves the pending rows, and finitely many runs seal everything exactly when
every typed row is readable and fewer than 4096 untyped rows lie before it. -/
theorem drain_progress_iff (h : CoreInv P keys c)
    (hroom : nextGeneration c.backup.chainState.previousManifest + c.db.pending.length ≤ u64Max + 1)
    (clock : Nat → Int) :
    (SealsSome P (clock 0) c ↔ WindowServes c.db) ∧
      (SealsAll P clock c ↔ gapsServed maxEventsPerBackupSegment 0 c.db.pending = true) := by
  refine ⟨?_, sealsAll_iff h hroom clock⟩
  by_cases hnil : c.db.pending = []
  · have hno : ¬ ∃ r ∈ c.db.pending, r.hasTypedTag = true := by simp [hnil]
    exact iff_of_true (fun hex => absurd hex hno) fun hex => absurd hex hno
  · have hpos := List.length_pos_iff.mpr hnil
    exact sealsSome_iff _ h (by omega)

/-! ## A journal that stalls -/

/-- `n` outbox rows, which the taxonomy does not know. -/
def Core.insertOutboxRows : Nat → Core → Core
  | 0, c => c
  | n + 1, c => (c.insertOutboxRows n).insertJournal "outbox_pending" none none [] 0

/-- `n` outbox rows, then one received message. -/
def stalledCore (n : Nat) : Core :=
  ((Core.fresh exampleKeys none).insertOutboxRows n).writeEvent (exampleEvent .messageReceived 1 1)

theorem insertOutboxRows_rows (n : Nat) (c : Core) :
    ∃ rows, (c.insertOutboxRows n).db.journal.rows = c.db.journal.rows ++ rows ∧ rows.length = n ∧
      ∀ r ∈ rows, r.hasTypedTag = false := by
  induction n with
  | zero => exact ⟨[], by simp [Core.insertOutboxRows], rfl, by simp⟩
  | succ n ih =>
      obtain ⟨rows, hrows, hlen, huntyped⟩ := ih
      refine ⟨rows ++ [⟨(c.insertOutboxRows n).db.journal.lastSeq + 1, "outbox_pending", none, none, [], 0⟩],
        ?_, by simp [hlen], ?_⟩
      · show (c.insertOutboxRows n).db.journal.rows ++ _ = _
        rw [hrows, List.append_assoc]
      · intro r hr
        rcases List.mem_append.mp hr with hr | hr
        · exact huntyped r hr
        · rw [List.mem_singleton.mp hr]
          rfl

/-- Outbox rows change nothing but the journal. -/
theorem insertOutboxRows_frame (n : Nat) (c : Core) :
    (c.insertOutboxRows n).db.cursorRow = c.db.cursorRow ∧ (c.insertOutboxRows n).backup = c.backup := by
  induction n with
  | zero => exact ⟨rfl, rfl⟩
  | succ n ih => exact ih

theorem coreInv_insertOutboxRows (h : CoreInv P keys c) (n : Nat) : CoreInv P keys (c.insertOutboxRows n) := by
  induction n with
  | zero => exact h
  | succ n ih => exact ih.insertJournal _ _ _ _ _

theorem coreInv_stalledCore (P : Primitives) (n : Nat) : CoreInv P exampleKeys (stalledCore n) :=
  (coreInv_insertOutboxRows (coreInv_fresh P exampleKeys none) n).insertJournal _ _ _ _ _

/-- All rows of the stalled journal are pending: the untyped ones, then the typed one. -/
theorem stalledCore_pending (n : Nat) :
    ∃ rows r, (stalledCore n).db.pending = rows ++ [r] ∧ rows.length = n ∧
      (∀ x ∈ rows, x.hasTypedTag = false) ∧ r.hasTypedTag = true := by
  obtain ⟨rows, hrows, hlen, huntyped⟩ := insertOutboxRows_rows n (Core.fresh exampleKeys none)
  have hcursor : (stalledCore n).db.readCursor = 0 := by
    show (((Core.fresh exampleKeys none).insertOutboxRows n).db.cursorRow).getD 0 = 0
    rw [(insertOutboxRows_frame n _).1]
    rfl
  have hall : (stalledCore n).db.pending = (stalledCore n).db.journal.rows := by
    rw [BackupDb.pending, List.filter_eq_self, hcursor]
    intro r hr
    exact decide_eq_true ((stalledCore n).db.journal.positive r hr)
  refine ⟨rows, ⟨((Core.fresh exampleKeys none).insertOutboxRows n).db.journal.lastSeq + 1, "message_received",
    some (Uuid.toText ⟨1⟩), some (Uuid.toText ⟨1⟩), [], 1⟩, ?_, hlen, huntyped, rfl⟩
  rw [hall]
  show ((Core.fresh exampleKeys none).insertOutboxRows n).db.journal.rows ++ [_] = _
  rw [hrows]
  rfl

theorem stalledCore_nextGeneration (n : Nat) :
    nextGeneration (stalledCore n).backup.chainState.previousManifest = 0 := by
  show nextGeneration ((Core.fresh exampleKeys none).insertOutboxRows n).backup.chainState.previousManifest = 0
  rw [(insertOutboxRows_frame n _).2]
  rfl

/-- **Outbox rows stall the drain**: a typed event lies behind a window of them, no run seals it, and no number
of runs does. -/
theorem drain_stalls :
    CoreInv Primitives.reference exampleKeys (stalledCore maxEventsPerBackupSegment) ∧
      ¬ SealsSome Primitives.reference 0 (stalledCore maxEventsPerBackupSegment) ∧
      ¬ SealsAll Primitives.reference (fun _ => 0) (stalledCore maxEventsPerBackupSegment) := by
  have hinv := coreInv_stalledCore Primitives.reference maxEventsPerBackupSegment
  have hgen := stalledCore_nextGeneration maxEventsPerBackupSegment
  obtain ⟨rows, r, hpending, hlen, huntyped, htag⟩ := stalledCore_pending maxEventsPerBackupSegment
  refine ⟨hinv, ?_, ?_⟩
  · -- the window is full of rows without a typed tag, and the typed one stands behind it
    rw [sealsSome_iff _ hinv (by rw [hgen]; exact Nat.zero_le _)]
    intro hserves
    obtain ⟨_, x, hx, hxtag⟩ := hserves ⟨r, by rw [hpending]; simp, htag⟩
    rw [BackupDb.nextWindow, hpending, ← hlen, List.take_left] at hx
    rw [huntyped x hx] at hxtag
    exact absurd hxtag (by simp)
  · have hroom : (stalledCore maxEventsPerBackupSegment).db.pending.length ≤ u64Max + 1 := by
      rw [hpending, List.length_append, hlen, List.length_singleton]
      decide
    rw [sealsAll_iff hinv (by rw [hgen, Nat.zero_add]; exact hroom), hpending,
      gapsServed_untyped_append huntyped, hlen]
    simp [gapsServed, htag]

set_option maxRecDepth 100000 in
/-- With one received message in the journal, the first run seals it, and that is everything. -/
theorem drain_progress_single :
    SealsSome Primitives.reference 0
        ((Core.fresh exampleKeys none).writeEvent (exampleEvent .messageReceived 1 1)) ∧
      SealsAll Primitives.reference (fun _ => 0)
        ((Core.fresh exampleKeys none).writeEvent (exampleEvent .messageReceived 1 1)) := by
  have h := drain_progress_iff
    ((coreInv_fresh Primitives.reference exampleKeys none).insertJournal "message_received"
      (some (Uuid.toText ⟨1⟩)) (some (Uuid.toText ⟨1⟩)) [] 1) (by decide +kernel) (fun _ => 0)
  exact ⟨h.1.mpr (by decide +kernel), h.2.mpr (by decide +kernel)⟩

end Drain

end KChatCore.Backup
