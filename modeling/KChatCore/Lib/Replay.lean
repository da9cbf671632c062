import Mathlib

/-!
# `Lib.Replay` — a log read page by page, from cursors that may go back

A reader asks for the page at its cursor and consumes it. Pages may overlap what the reader had before; a page that could not
be fetched, or that was not consumed to its end, is asked for again. The reader is complete if what it has had before does not
hurt it.

* `kept_run` — what the reader has had is a beginning of the log, and reaches its cursor; when it is finished it is all.
* `finished_of_answered` — a reader that consumes every page is finished after as many answers as the log has items.
* `store_run` — a reader that has had all may start over, and nothing changes.
-/

namespace KChatCore.Lib.Replay

universe u v w

/-- A page: items of the log, and where to go on; no cursor ends the log. -/
structure Page (α : Type u) (κ : Type v) where
  items : List α
  next : Option κ

/-- **One call of the reader**: what it is told for each cursor, if anything, and how it consumes what it is told. -/
structure Call (α : Type u) (κ : Type v) (σ : Type w) where
  fetch : Option κ → Option (Page α κ)
  consume : List α → σ → Bool × σ

/-- A reader: where it goes on, whether it is through, and what it keeps. -/
structure Reader (κ : Type v) (σ : Type w) where
  cursor : Option κ
  finished : Bool
  store : σ

variable {α : Type u} {κ : Type v} {σ : Type w}

namespace Reader

/-- The cursor moves when the page was consumed to its end. -/
def step (r : Reader κ σ) (call : Call α κ σ) : Reader κ σ :=
  if r.finished then r
  else
    match call.fetch r.cursor with
    | none => r
    | some page =>
        match call.consume page.items r.store, page.next with
        | (false, s), _ => { r with store := s }
        | (true, s), some c => ⟨some c, false, s⟩
        | (true, s), none => ⟨r.cursor, true, s⟩

/-- One call after the other. -/
def run (r : Reader κ σ) (calls : List (Call α κ σ)) : Reader κ σ := calls.foldl step r

/-- How many of the calls were told a page. -/
def answered : Reader κ σ → List (Call α κ σ) → Nat
  | _, [] => 0
  | r, call :: calls => (if (call.fetch r.cursor).isSome then 1 else 0) + answered (r.step call) calls

@[simp] theorem run_nil (r : Reader κ σ) : r.run ([] : List (Call α κ σ)) = r := rfl

@[simp] theorem run_cons (r : Reader κ σ) (call : Call α κ σ) (calls : List (Call α κ σ)) :
    r.run (call :: calls) = (r.step call).run calls := rfl

theorem step_finished {r : Reader κ σ} (h : r.finished = true) (call : Call α κ σ) : r.step call = r := by
  rw [step, if_pos h]

theorem run_finished {r : Reader κ σ} (h : r.finished = true) (calls : List (Call α κ σ)) : r.run calls = r := by
  induction calls with
  | nil => rfl
  | cons call calls ih => rw [run_cons, step_finished h, ih]

theorem step_unanswered {r : Reader κ σ} {call : Call α κ σ} (h : call.fetch r.cursor = none) : r.step call = r := by
  rw [step, h]
  simp

/-- **What a call with a page can do.** -/
theorem step_answered {r : Reader κ σ} {call : Call α κ σ} {page : Page α κ} (hopen : r.finished = false)
    (h : call.fetch r.cursor = some page) :
    (r.step call).store = (call.consume page.items r.store).2 ∧
      ((call.consume page.items r.store).1 = false ∧ (r.step call).cursor = r.cursor ∧ (r.step call).finished = false ∨
        (call.consume page.items r.store).1 = true ∧
          (∃ c, page.next = some c ∧ (r.step call).cursor = some c ∧ (r.step call).finished = false) ∨
        (call.consume page.items r.store).1 = true ∧
          page.next = none ∧ (r.step call).cursor = r.cursor ∧ (r.step call).finished = true) := by
  have hclosed : ¬ r.finished = true := by rw [hopen]; exact Bool.false_ne_true
  rw [step, if_neg hclosed, h]
  rcases hconsume : call.consume page.items r.store with ⟨ok, s⟩
  cases ok with
  | false =>
      simp only [hconsume]
      exact ⟨trivial, .inl ⟨trivial, trivial, hopen⟩⟩
  | true =>
      cases hnext : page.next with
      | none =>
          simp only [hconsume, hnext]
          exact ⟨trivial, .inr (.inr ⟨trivial, trivial, trivial, trivial⟩)⟩
      | some c =>
          simp only [hconsume, hnext]
          exact ⟨trivial, .inr (.inl ⟨trivial, c, rfl, rfl, trivial⟩)⟩

end Reader

/-! ## The log and the reader's memory -/

/-- The items from one place to another. -/
def slice (log : List α) (start stop : Nat) : List α := (log.take stop).drop start

section Slice

variable {log : List α} {start n stop k : Nat}

theorem slice_eq : slice log start stop = (log.drop start).take (stop - start) := List.drop_take

theorem slice_zero : slice log 0 stop = log.take stop := rfl

theorem slice_append (hstart : start ≤ n) (hn : n ≤ stop) : slice log start n ++ slice log n stop = slice log start stop := by
  have hlength : stop - start = n - start + (stop - n) := by omega
  have hback : n = start + (n - start) := by omega
  rw [slice_eq, slice_eq, slice_eq, hlength, List.take_add, List.drop_drop, ← hback]

theorem take_slice (hk : start + k ≤ stop) : (slice log start stop).take k = slice log start (start + k) := by
  rw [slice_eq, slice_eq, List.take_take, Nat.add_sub_cancel_left, min_eq_left (by omega)]

theorem length_slice (hstop : stop ≤ log.length) : (slice log start stop).length = stop - start := by
  rw [slice, List.length_drop, List.length_take, min_eq_left hstop]

theorem slice_subset_take (hstop : stop ≤ n) : slice log start stop ⊆ log.take n := by
  intro x hx
  exact List.take_subset_take_left log hstop (List.mem_of_mem_drop hx)

end Slice

/-- **A log that answers in order**: every cursor it hands out has a position; a page begins at the position or before it, and
what comes next is handed out no further than the page goes, and further than it was. -/
structure Conforms (log : List α) (position : Option κ → Option Nat) (fetch : Option κ → Option (Page α κ)) : Prop where
  fromStart : position none = some 0
  slices : ∀ c p page, position c = some p → fetch c = some page →
    ∃ start stop, start ≤ p ∧ stop ≤ log.length ∧ page.items = slice log start stop ∧
      match page.next with
      | some c' => ∃ p', position (some c') = some p' ∧ p < p' ∧ p' ≤ stop
      | none => stop = log.length

/-- **A consumer that does not mind items it has had**: `Has n s` says that `s` is what the first `n` items leave. -/
structure Replays (log : List α) (Has : Nat → σ → Prop) (consume : List α → σ → Bool × σ) : Prop where
  grows : ∀ n s start stop, Has n s → n ≤ log.length → start ≤ n → stop ≤ log.length →
    ∃ n', n ≤ n' ∧ n' ≤ log.length ∧ Has n' (consume (slice log start stop) s).2 ∧
      ((consume (slice log start stop) s).1 = true → stop ≤ n')
  replayed : ∀ s start stop, Has log.length s → stop ≤ log.length → (consume (slice log start stop) s).2 = s

/-- The reader has had a beginning of the log, at least up to its cursor. -/
def Kept (log : List α) (position : Option κ → Option Nat) (Has : Nat → σ → Prop) (r : Reader κ σ) : Prop :=
  ∃ n p, Has n r.store ∧ position r.cursor = some p ∧ p ≤ n ∧ n ≤ log.length ∧ (r.finished = true → n = log.length)

section Run

variable {log : List α} {position : Option κ → Option Nat} {Has : Nat → σ → Prop} {r : Reader κ σ} {call : Call α κ σ}
  {calls : List (Call α κ σ)}

theorem kept_step (hfetch : Conforms log position call.fetch) (hconsume : Replays log Has call.consume)
    (h : Kept log position Has r) : Kept log position Has (r.step call) := by
  cases hopen : r.finished with
  | true => rwa [Reader.step_finished hopen]
  | false =>
      cases hpage : call.fetch r.cursor with
      | none => rwa [Reader.step_unanswered hpage]
      | some page =>
          obtain ⟨n, p, hhas, hpos, hpn, hn, -⟩ := h
          obtain ⟨start, stop, hstart, hstop, hitems, hnext⟩ := hfetch.slices _ p page hpos hpage
          obtain ⟨n', hnn', hn', hhas', hdone⟩ := hconsume.grows n r.store start stop hhas hn (hstart.trans hpn) hstop
          rw [← hitems] at hhas' hdone
          obtain ⟨hstore, hcase⟩ := Reader.step_answered hopen hpage
          rw [← hstore] at hhas'
          rcases hcase with ⟨-, hcur, hfin⟩ | ⟨hok, c, hc, hcur, hfin⟩ | ⟨hok, hc, hcur, hfin⟩
          · exact ⟨n', p, hhas', by rw [hcur, hpos], hpn.trans hnn', hn', fun hf => absurd (hfin.symm.trans hf) (by simp)⟩
          · rw [hc] at hnext
            obtain ⟨p', hpos', -, hp'⟩ := hnext
            exact ⟨n', p', hhas', by rw [hcur, hpos'], hp'.trans (hdone hok), hn',
              fun hf => absurd (hfin.symm.trans hf) (by simp)⟩
          · rw [hc] at hnext
            refine ⟨n', p, hhas', by rw [hcur, hpos], hpn.trans hnn', hn', fun _ => ?_⟩
            -- the last page goes to the end of the log
            have hall : stop ≤ n' := hdone hok
            omega

/-- **Whatever is answered, missed and asked again**, the reader has a beginning of the log. -/
theorem kept_run (hfetch : ∀ call ∈ calls, Conforms log position call.fetch)
    (hconsume : ∀ call ∈ calls, Replays log Has call.consume) (h : Kept log position Has r) :
    Kept log position Has (r.run calls) := by
  induction calls generalizing r with
  | nil => exact h
  | cons call calls ih =>
      rw [Reader.run_cons]
      refine ih (fun c hc => hfetch c (List.mem_cons_of_mem _ hc)) (fun c hc => hconsume c (List.mem_cons_of_mem _ hc)) ?_
      exact kept_step (hfetch call List.mem_cons_self) (hconsume call List.mem_cons_self) h

/-- Every answer is an advance, if every page is consumed to its end. -/
theorem answered_le (hfetch : ∀ call ∈ calls, Conforms log position call.fetch)
    (hconsume : ∀ call ∈ calls, Replays log Has call.consume)
    (hall : ∀ call ∈ calls, ∀ n s start stop, Has n s → n ≤ log.length → start ≤ n → stop ≤ log.length →
      (call.consume (slice log start stop) s).1 = true)
    (h : Kept log position Has r) {p : Nat} (hp : position r.cursor = some p) :
    (r.run calls).finished = true ∨ p + r.answered calls ≤ log.length := by
  induction calls generalizing r p with
  | nil =>
      obtain ⟨n, p', -, hp', hpn, hn, -⟩ := h
      obtain rfl : p = p' := Option.some.inj (hp.symm.trans hp')
      exact .inr (hpn.trans hn)
  | cons call calls ih =>
      have hcall := hfetch call List.mem_cons_self
      have hkept := kept_step hcall (hconsume call List.mem_cons_self) h
      have later := @ih (r.step call) (fun c hc => hfetch c (List.mem_cons_of_mem _ hc))
        (fun c hc => hconsume c (List.mem_cons_of_mem _ hc)) (fun c hc => hall c (List.mem_cons_of_mem _ hc)) hkept
      rw [Reader.run_cons, Reader.answered]
      cases hopen : r.finished with
      | true =>
          rw [Reader.step_finished hopen, Reader.run_finished hopen]
          exact .inl hopen
      | false =>
          cases hpage : call.fetch r.cursor with
          | none =>
              -- a call without an answer leaves the reader where it is
              have hsame := Reader.step_unanswered hpage
              rw [hsame] at later ⊢
              rcases later hp with hfin | hle
              · exact .inl hfin
              · exact .inr (by simpa using hle)
          | some page =>
              obtain ⟨n, p', hhas, hp', hpn, hn, -⟩ := h
              obtain rfl : p = p' := Option.some.inj (hp.symm.trans hp')
              obtain ⟨start, stop, hstart, hstop, hitems, hnext⟩ := hcall.slices _ p page hp hpage
              have hok := hall call List.mem_cons_self n r.store start stop hhas hn (hstart.trans hpn) hstop
              rw [← hitems] at hok
              obtain ⟨-, hcase⟩ := Reader.step_answered hopen hpage
              -- the page is refused, or the cursor moves on, or it was the last
              rcases hcase with ⟨hfail, -, -⟩ | ⟨-, c, hc, hcur, -⟩ | ⟨-, -, -, hfin⟩
              · exact absurd (hok.symm.trans hfail) (by simp)
              · rw [hc] at hnext
                obtain ⟨p', hpos', hlt, -⟩ := hnext
                rcases later (hcur ▸ hpos') with hfin | hle
                · exact .inl hfin
                · refine .inr ?_
                  simp only [Option.isSome_some, if_true]
                  omega
              · exact .inl ((congrArg Reader.finished (Reader.run_finished hfin calls)).trans hfin)

/-- **A reader that consumes every page is through** after as many answers as the log has items, and one. -/
theorem finished_of_answered (hfetch : ∀ call ∈ calls, Conforms log position call.fetch)
    (hconsume : ∀ call ∈ calls, Replays log Has call.consume)
    (hall : ∀ call ∈ calls, ∀ n s start stop, Has n s → n ≤ log.length → start ≤ n → stop ≤ log.length →
      (call.consume (slice log start stop) s).1 = true)
    (h : Kept log position Has r) (hmany : log.length < r.answered calls) : (r.run calls).finished = true := by
  obtain ⟨n, p, -, hp, -⟩ := id h
  rcases answered_le hfetch hconsume hall h hp with hfin | hle
  · exact hfin
  · omega

/-- **Starting over changes nothing** in a reader that has had all. -/
theorem store_run (hfetch : ∀ call ∈ calls, Conforms log position call.fetch)
    (hconsume : ∀ call ∈ calls, Replays log Has call.consume) (hhas : Has log.length r.store) {p : Nat}
    (hp : position r.cursor = some p) : (r.run calls).store = r.store := by
  induction calls generalizing r p with
  | nil => rfl
  | cons call calls ih =>
      have hcall := hfetch call List.mem_cons_self
      have hrest : ∀ {r : Reader κ σ} {p : Nat}, Has log.length r.store → position r.cursor = some p →
          (r.run calls).store = r.store :=
        fun {r p} hhas hp => ih (fun c hc => hfetch c (List.mem_cons_of_mem _ hc))
          (fun c hc => hconsume c (List.mem_cons_of_mem _ hc)) hhas hp
      rw [Reader.run_cons]
      cases hopen : r.finished with
      | true => rw [Reader.step_finished hopen, Reader.run_finished hopen]
      | false =>
          cases hpage : call.fetch r.cursor with
          | none => rw [Reader.step_unanswered hpage, hrest hhas hp]
          | some page =>
              obtain ⟨start, stop, -, hstop, hitems, hnext⟩ := hcall.slices _ p page hp hpage
              obtain ⟨hstore, hcase⟩ := Reader.step_answered hopen hpage
              have hsame : (r.step call).store = r.store := by
                rw [hstore, hitems]
                exact (hconsume call List.mem_cons_self).replayed r.store start stop hhas hstop
              rcases hcase with ⟨-, hcur, -⟩ | ⟨-, c, hc, hcur, -⟩ | ⟨-, -, hcur, -⟩
              · rw [hrest (hsame ▸ hhas) (hcur ▸ hp), hsame]
              · rw [hc] at hnext
                obtain ⟨p', hpos', -, -⟩ := hnext
                rw [hrest (hsame ▸ hhas) (hcur ▸ hpos'), hsame]
              · rw [hrest (hsame ▸ hhas) (hcur ▸ hp), hsame]

end Run

end KChatCore.Lib.Replay
