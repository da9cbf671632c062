import KChatCore.Formats

/-!
# `Backup.EventJournal` — the backup event journal and its cursor

`backup_event_journal` is an append-only table keyed by an AUTOINCREMENT `event_seq`; the single-row
`backup_event_cursor` says how far the segment builder has drained it. The table is a list in key order,
and the order is part of its type.

* `readEventsSince` — the SQL window first (`WHERE event_seq > after ORDER BY event_seq LIMIT limit`), then
  the taxonomy filter: a row with an unknown tag is skipped, a typed row with a malformed id fails the read.
* `typedUpTo` — the typed events at or below a sequence number: what a drained journal stands for.
* `readEventsSince_typedUpTo` — a successful read returns exactly the typed events between the cursor and the
  last sequence number it returns.
-/

namespace KChatCore.Backup

/-- One row of `backup_event_journal`. -/
structure JournalRow where
  eventSeq : Nat
  eventType : String
  conversationId : Option IdText
  messageId : Option IdText
  payload : Bytes
  createdAtMs : Int
deriving DecidableEq, Repr

/-- **The `backup_event_journal` table**, in primary-key order. -/
structure JournalTable where
  rows : List JournalRow
  ascending : rows.Pairwise fun r r' => r.eventSeq < r'.eventSeq
  positive : ∀ r ∈ rows, 0 < r.eventSeq

namespace JournalTable

/-- The empty table. -/
def empty : JournalTable := ⟨[], List.Pairwise.nil, by simp⟩

/-- The largest `event_seq` handed out; no row is ever deleted. -/
def lastSeq (t : JournalTable) : Nat := (t.rows.getLast?.map JournalRow.eventSeq).getD 0

theorem le_lastSeq (t : JournalTable) {r : JournalRow} (hr : r ∈ t.rows) : r.eventSeq ≤ t.lastSeq := by
  obtain ⟨rows, hasc, hpos⟩ := t
  rcases rows.eq_nil_or_concat' with rfl | ⟨init, last, rfl⟩
  · exact absurd hr (by simp)
  · have hlast : lastSeq ⟨init ++ [last], hasc, hpos⟩ = last.eventSeq := by simp [lastSeq]
    rw [hlast]
    rw [List.pairwise_append] at hasc
    rcases List.mem_append.mp hr with h | h
    · exact le_of_lt (hasc.2.2 r h last (by simp))
    · rw [List.mem_singleton.mp h]

/-- `INSERT INTO backup_event_journal`: the row gets the next sequence number. -/
def insert (t : JournalTable) (eventType : String) (conversationId messageId : Option IdText)
    (payload : Bytes) (createdAtMs : Int) : JournalTable where
  rows := t.rows ++ [⟨t.lastSeq + 1, eventType, conversationId, messageId, payload, createdAtMs⟩]
  ascending := by
    rw [List.pairwise_append]
    refine ⟨t.ascending, by simp, fun r hr r' hr' => ?_⟩
    rw [List.mem_singleton.mp hr']
    exact Nat.lt_succ_of_le (t.le_lastSeq hr)
  positive := by
    intro r hr
    rcases List.mem_append.mp hr with h | h
    · exact t.positive r h
    · rw [List.mem_singleton.mp h]
      exact Nat.succ_pos _

end JournalTable

/-! ## Reading -/

/-- Parse an optional id column, naming it in the error. -/
def parseId (kind : String) : Option IdText → Except Error (Option Uuid)
  | none => .ok none
  | some t =>
      match Uuid.parseStr t with
      | some u => .ok (some u)
      | none => .error (.storage (.invalidId kind))

/-- One step of the read loop: skip an untyped row, parse a typed one. -/
def JournalRow.parse (r : JournalRow) : Except Error (Option (Nat × BackupEvent)) :=
  match BackupEventType.parseSnakeCase r.eventType with
  | .error _ => .ok none
  | .ok eventType =>
      (parseId "conversation_id" r.conversationId).bind fun conversationId =>
        (parseId "message_id" r.messageId).bind fun messageId =>
          .ok (some (r.eventSeq, ⟨eventType, conversationId, messageId, r.payload, r.createdAtMs⟩))

/-- The read loop over the rows the SQL statement returns. -/
def collectRows : List JournalRow → Except Error (List (Nat × BackupEvent))
  | [] => .ok []
  | r :: rs =>
      match r.parse with
      | .error e => .error e
      | .ok none => collectRows rs
      | .ok (some ev) => (collectRows rs).map (ev :: ·)

/-- The rows `SELECT ... WHERE event_seq > after ORDER BY event_seq ASC LIMIT limit` returns. -/
def JournalTable.window (t : JournalTable) (after limit : Nat) : List JournalRow :=
  (t.rows.filter fun r => after < r.eventSeq).take limit

/-- `BackupEventJournal::read_events_since`. -/
def readEventsSince (t : JournalTable) (after limit : Nat) : Except Error (List (Nat × BackupEvent)) :=
  collectRows (t.window after limit)

/-! ## What a read returns -/

/-- The row is untyped, or its ids parse. -/
def JournalRow.readable (r : JournalRow) : Bool :=
  match r.parse with
  | .ok _ => true
  | .error _ => false

/-- The row as a numbered event, when it is a readable typed row. -/
def JournalRow.numbered (r : JournalRow) : Option (Nat × BackupEvent) :=
  match r.parse with
  | .ok o => o
  | .error _ => none

/-- The typed event of a row. -/
def JournalRow.typed (r : JournalRow) : Option BackupEvent := r.numbered.map Prod.snd

theorem JournalRow.numbered_fst {r : JournalRow} {p : Nat × BackupEvent} (h : r.numbered = some p) :
    p.1 = r.eventSeq := by
  unfold numbered parse at h
  cases hty : BackupEventType.parseSnakeCase r.eventType with
  | error e => simp [hty] at h
  | ok ty =>
      simp only [hty] at h
      cases hc : parseId "conversation_id" r.conversationId with
      | error e => simp [hc, Except.bind] at h
      | ok c =>
          cases hm : parseId "message_id" r.messageId with
          | error e => simp [hc, hm, Except.bind] at h
          | ok m =>
              simp only [hc, hm, Except.bind, Option.some.injEq] at h
              rw [← h]

theorem JournalRow.numbered_eq_some {r : JournalRow} {p : Nat × BackupEvent} :
    r.numbered = some p ↔ r.typed = some p.2 ∧ p.1 = r.eventSeq := by
  constructor
  · intro h
    exact ⟨by rw [typed, h]; rfl, numbered_fst h⟩
  · rintro ⟨ht, hs⟩
    obtain ⟨q, hq, hq2⟩ := Option.map_eq_some_iff.mp ht
    rw [hq, Option.some.injEq]
    exact Prod.ext ((numbered_fst hq).trans hs.symm) hq2

/-- **What a read collects**: it succeeds when every row is readable, and returns the typed ones. -/
theorem collectRows_eq_ok {rs : List JournalRow} {out : List (Nat × BackupEvent)} :
    collectRows rs = .ok out ↔
      (∀ r ∈ rs, r.readable = true) ∧ out = rs.filterMap JournalRow.numbered := by
  induction rs generalizing out with
  | nil =>
      simp only [collectRows, Except.ok.injEq, List.filterMap_nil]
      exact ⟨fun h => ⟨by simp, h.symm⟩, fun h => h.2.symm⟩
  | cons r rs ih =>
      unfold collectRows
      cases h : r.parse with
      | error e => simp [JournalRow.readable, h]
      | ok o =>
          have hread : r.readable = true := by simp [JournalRow.readable, h]
          have hnum : r.numbered = o := by simp [JournalRow.numbered, h]
          cases o with
          | none => simp [ih, hread, hnum]
          | some ev =>
              rw [List.filterMap_cons, hnum]
              cases hc : collectRows rs with
              | error e =>
                  refine ⟨fun h => absurd h (by simp [Except.map]), fun ⟨hall, _⟩ => ?_⟩
                  have hok := ih.mpr ⟨fun r' h' => hall r' (by simp [h']), rfl⟩
                  exact absurd hok (by simp [hc])
              | ok out' =>
                  have hout := ih.mp hc
                  simp only [Except.map, List.mem_cons, forall_eq_or_imp, hread, true_and, Except.ok.injEq]
                  rw [← hout.2]
                  exact ⟨fun h => ⟨hout.1, h.symm⟩, fun h => h.2.symm⟩

/-- The typed events with `event_seq ≤ seq`, in journal order. -/
def JournalTable.typedUpTo (t : JournalTable) (seq : Nat) : List BackupEvent :=
  (t.rows.filter fun r => r.eventSeq ≤ seq).filterMap JournalRow.typed

/-- Every typed event of the journal, in journal order. -/
def JournalTable.typedEvents (t : JournalTable) : List BackupEvent := t.rows.filterMap JournalRow.typed

/-! ## A read against the journal -/

theorem filter_le_append {rows : List JournalRow}
    (hasc : rows.Pairwise fun r r' => r.eventSeq < r'.eventSeq) {a b : Nat} (hab : a ≤ b) :
    rows.filter (fun r => r.eventSeq ≤ b) =
      rows.filter (fun r => r.eventSeq ≤ a) ++
        (rows.filter fun r => a < r.eventSeq).filter (fun r => r.eventSeq ≤ b) := by
  induction rows with
  | nil => rfl
  | cons r rs ih =>
      rw [List.pairwise_cons] at hasc
      obtain ⟨hr, hasc⟩ := hasc
      by_cases hra : r.eventSeq ≤ a
      · have hrb : r.eventSeq ≤ b := hra.trans hab
        simp [hra, hrb, not_lt.mpr hra, ih hasc]
      · have hnone : rs.filter (fun r => r.eventSeq ≤ a) = [] := by
          rw [List.filter_eq_nil_iff]
          intro r' hr'
          have := hr r' hr'
          simp only [decide_eq_true_eq]
          omega
        have hih := ih hasc
        rw [hnone, List.nil_append] at hih
        simp only [List.filter_cons, hra, not_le.mp hra, decide_true, decide_false, if_true, hih, hnone,
          Bool.false_eq_true, if_false, List.nil_append]

theorem window_pairwise (t : JournalTable) (after limit : Nat) :
    (t.window after limit).Pairwise fun r r' => r.eventSeq < r'.eventSeq :=
  (t.ascending.filter _).sublist (List.take_sublist _ _)

theorem mem_window {t : JournalTable} {after limit : Nat} {r : JournalRow}
    (hr : r ∈ t.window after limit) : r ∈ t.rows ∧ after < r.eventSeq := by
  have h := List.mem_of_mem_take hr
  simpa using h

/-- The numbers a read returns increase. -/
theorem numbered_pairwise {rs : List JournalRow}
    (hasc : rs.Pairwise fun r r' => r.eventSeq < r'.eventSeq) :
    (rs.filterMap JournalRow.numbered).Pairwise fun p q => p.1 < q.1 := by
  rw [List.pairwise_filterMap]
  refine hasc.imp fun {r r'} h p hp q hq => ?_
  rw [JournalRow.numbered_fst hp, JournalRow.numbered_fst hq]
  exact h

theorem filterMap_typed (rs : List JournalRow) :
    rs.filterMap JournalRow.typed = (rs.filterMap JournalRow.numbered).map Prod.snd := by
  rw [List.map_filterMap]
  rfl

/-- In an increasing list no number exceeds the last. -/
theorem fst_le_getLast {out : List (Nat × BackupEvent)} (hasc : out.Pairwise fun p q => p.1 < q.1)
    {last : Nat × BackupEvent} (hlast : out.getLast? = some last) {p : Nat × BackupEvent} (hp : p ∈ out) :
    p.1 ≤ last.1 := by
  rcases out.eq_nil_or_concat' with rfl | ⟨init, x, rfl⟩
  · exact absurd hp (by simp)
  · have hx : x = last := by simpa using hlast
    subst hx
    rw [List.pairwise_append] at hasc
    rcases List.mem_append.mp hp with h | h
    · exact le_of_lt (hasc.2.2 p h x (by simp))
    · rw [List.mem_singleton.mp h]

/-- **A read takes the journal forward exactly by what it returns**: up to the last number it returns, the
typed events are those up to the cursor, then the ones read. -/
theorem readEventsSince_typedUpTo {t : JournalTable} {after limit : Nat}
    {out : List (Nat × BackupEvent)} (h : readEventsSince t after limit = .ok out)
    {last : Nat × BackupEvent} (hlast : out.getLast? = some last) :
    after < last.1 ∧ t.typedUpTo last.1 = t.typedUpTo after ++ out.map Prod.snd := by
  obtain ⟨_, hout⟩ := collectRows_eq_ok.mp h
  have hmem : last ∈ out := List.mem_of_getLast? hlast
  rw [hout, List.mem_filterMap] at hmem
  obtain ⟨rl, hrl, hnum⟩ := hmem
  have hseq : last.1 = rl.eventSeq := JournalRow.numbered_fst hnum
  have hafter : after < last.1 := hseq ▸ (mem_window hrl).2
  refine ⟨hafter, ?_⟩
  have hW := window_pairwise t after limit
  -- the rows past the cursor: the window, then rows numbered above everything in it
  have hsplit : (t.rows.filter fun r => after < r.eventSeq) =
      t.window after limit ++ (t.rows.filter fun r => after < r.eventSeq).drop limit :=
    (List.take_append_drop _ _).symm
  have hrest : ((t.rows.filter fun r => after < r.eventSeq).drop limit).filter
      (fun r => r.eventSeq ≤ last.1) = [] := by
    have hpw := t.ascending.filter fun r => decide (after < r.eventSeq)
    rw [hsplit, List.pairwise_append] at hpw
    rw [List.filter_eq_nil_iff]
    intro r hr
    have := hpw.2.2 rl hrl r hr
    simp only [decide_eq_true_eq]
    omega
  have hwin : ((t.window after limit).filter fun r => r.eventSeq ≤ last.1).filterMap JournalRow.typed =
      out.map Prod.snd := by
    rw [hout, ← filterMap_typed, List.filterMap_filter]
    refine List.filterMap_congr fun r hr => ?_
    by_cases hle : r.eventSeq ≤ last.1
    · simp [hle]
    · -- a typed row of the window is numbered at most `last`
      have hnone : r.typed = none := by
        rw [Option.eq_none_iff_forall_not_mem]
        intro e he
        have hp : r.numbered = some (r.eventSeq, e) := JournalRow.numbered_eq_some.mpr ⟨he, rfl⟩
        have hin : (r.eventSeq, e) ∈ out := hout ▸ List.mem_filterMap.mpr ⟨r, hr, hp⟩
        exact hle (fst_le_getLast (hout ▸ numbered_pairwise hW) hlast hin)
      simp [hle, hnone]
  unfold JournalTable.typedUpTo
  rw [filter_le_append t.ascending hafter.le, List.filterMap_append, hsplit, List.filter_append, hrest,
    List.append_nil, hwin]

theorem lastSeq_insert (t : JournalTable) (tag : String) (conv mid : Option IdText) (payload : Bytes) (ms : Int) :
    (t.insert tag conv mid payload ms).lastSeq = t.lastSeq + 1 := by
  simp [JournalTable.insert, JournalTable.lastSeq]

/-- Journal writes do not touch what is at or below a cursor already handed out. -/
theorem typedUpTo_insert (t : JournalTable) (tag : String) (conv mid : Option IdText) (payload : Bytes)
    (ms : Int) {seq : Nat} (hseq : seq ≤ t.lastSeq) :
    (t.insert tag conv mid payload ms).typedUpTo seq = t.typedUpTo seq := by
  have hlt : ¬ t.lastSeq + 1 ≤ seq := by omega
  simp [JournalTable.typedUpTo, JournalTable.insert, List.filter_append, hlt]

end KChatCore.Backup
