import KChatCore.Base
import KChatCore.Lib.Ranking

/-!
# `Offload.HydrationQueue` — the hydration priority queue

The queue keeps its requests in a vector sorted by priority and an index of the vector by message id, and it keeps at
most one request for a message: a better reason replaces the request, anything else is dropped.

* `enqueue`, `enqueuePrefetchWindow`, `dequeue`, `remove` — the queue as the code has it. `none` is an index out of
  bounds, where the code panics.
* `QueueEvent`, `heldEntry` — what the queue is for, read off the log of what was enqueued and what left: for each
  message the first of the best requests since it last left.
* `Stamped` — the invariant that connects the two: the vector is the held entries, each with the place of its request in
  the log, in the order of priority, time and place.
* `hydrationQueue_discipline` — every sequence of calls runs, and leaves a disciplined queue.
-/

namespace KChatCore.Offload

open Lib

/-- `HydrationReason`. -/
inductive HydrationReason
  | searchResultTap
  | mediaFullScreen
  | visibleViewport
  | adjacentPrefetch
  | backgroundRestore
  | opportunisticFill
deriving DecidableEq, Repr

/-- `P0` to `P5`: the declaration order. -/
def HydrationReason.rank (r : HydrationReason) : Nat := r.ctorIdx

/-- `HydrationRequest`. -/
structure HydrationRequest where
  messageId : Uuid
  conversationId : Uuid
  reason : HydrationReason
  requestedAtMs : Int
deriving DecidableEq

/-- `HydrationQueue`. -/
structure HydrationQueue where
  items : List HydrationRequest
  capacity : Nat
  byId : AList fun _ : Uuid => Nat

namespace HydrationQueue

/-- `HydrationQueue::new`. -/
def new (capacity : Nat) : HydrationQueue := ⟨[], capacity, ∅⟩

/-- The index of a vector: the place of each id. -/
def indexOf (items : List HydrationRequest) : AList fun _ : Uuid => Nat :=
  items.zipIdx.foldl (fun byId item => byId.insert item.1.messageId item.2) ∅

/-- `rebuild_index`. -/
def rebuildIndex (q : HydrationQueue) : HydrationQueue := { q with byId := indexOf q.items }

/-- The order of `resort`: by reason, then by time. -/
def requestLe (a b : HydrationRequest) : Bool :=
  a.reason.rank < b.reason.rank || (a.reason.rank == b.reason.rank && a.requestedAtMs ≤ b.requestedAtMs)

/-- `resort`. -/
def resort (q : HydrationQueue) : HydrationQueue := { q with items := q.items.mergeSort requestLe }.rebuildIndex

/-- `HydrationQueue::enqueue`. -/
def enqueue (q : HydrationQueue) (request : HydrationRequest) : Option HydrationQueue :=
  match q.byId.lookup request.messageId with
  | some idx =>
      (q.items[idx]?).map fun held =>
        -- already queued: only a better reason replaces the request
        if request.reason.rank < held.reason.rank then { q with items := q.items.set idx request }.resort else q
  | none =>
      some { q with
        items := q.items ++ [request]
        byId := q.byId.insert request.messageId q.items.length }.resort

/-- `HydrationQueue::dequeue`. -/
def dequeue (q : HydrationQueue) : Option HydrationRequest × HydrationQueue :=
  match q.items with
  | [] => (none, q)
  | request :: rest => (some request, { q with items := rest, byId := q.byId.erase request.messageId }.rebuildIndex)

/-- `HydrationQueue::remove`. -/
def remove (q : HydrationQueue) (messageId : Uuid) : Option (Bool × HydrationQueue) :=
  match q.byId.lookup messageId with
  | some idx =>
      if idx < q.items.length then
        some (true, { q with items := q.items.eraseIdx idx, byId := q.byId.erase messageId }.rebuildIndex)
      else none
  | none => some (false, q)

/-- `HydrationQueue::enqueue_prefetch_window`; the window size is not looked at. -/
def enqueuePrefetchWindow (q : HydrationQueue) (visibleIds : List Uuid) (conversationId : Uuid) (_windowSize : Nat)
    (nowMs : Int) : Option HydrationQueue :=
  visibleIds.foldlM (fun q id => q.enqueue ⟨id, conversationId, .adjacentPrefetch, nowMs⟩) q

end HydrationQueue

/-! ## The log of a queue -/

/-- What happens to the requests of a message. -/
inductive QueueEvent
  | enqueued (request : HydrationRequest)
  | left (messageId : Uuid)
deriving DecidableEq

/-- A request and its place in the log. -/
abbrev Entry := HydrationRequest × Nat

/-- What one event does to the requests of a message since it last left. -/
def sinceStep (id : Uuid) (since : List Entry) (ev : QueueEvent × Nat) : List Entry :=
  match ev.1 with
  | .enqueued r => if r.messageId = id then since ++ [(r, ev.2)] else since
  | .left gone => if gone = id then [] else since

/-- **The requests for a message since it last left**, oldest first. -/
def sinceLeft (id : Uuid) (log : List QueueEvent) : List Entry := log.zipIdx.foldl (sinceStep id) []

/-- **The request to be held for a message**: the earliest of those with the best reason. -/
def heldEntry (id : Uuid) (log : List QueueEvent) : Option Entry :=
  (sinceLeft id log).argmin fun e => e.1.reason.rank

theorem sinceLeft_append (id : Uuid) (log : List QueueEvent) (ev : QueueEvent) :
    sinceLeft id (log ++ [ev]) = sinceStep id (sinceLeft id log) (ev, log.length) := by
  unfold sinceLeft
  rw [List.zipIdx_append, List.foldl_append]
  simp

theorem sinceLeft_enqueued (id : Uuid) (log : List QueueEvent) (r : HydrationRequest) :
    sinceLeft id (log ++ [.enqueued r]) =
      if r.messageId = id then sinceLeft id log ++ [(r, log.length)] else sinceLeft id log :=
  sinceLeft_append id log (.enqueued r)

theorem sinceLeft_left (id : Uuid) (log : List QueueEvent) (gone : Uuid) :
    sinceLeft id (log ++ [.left gone]) = if gone = id then [] else sinceLeft id log :=
  sinceLeft_append id log (.left gone)

section Held

variable {log : List QueueEvent} {id : Uuid}

theorem heldEntry_enqueued_of_ne {r : HydrationRequest} (h : r.messageId ≠ id) :
    heldEntry id (log ++ [.enqueued r]) = heldEntry id log := by
  unfold heldEntry
  rw [sinceLeft_enqueued, if_neg h]

/-- What an enqueue makes of the entry that is held. -/
theorem heldEntry_enqueued (r : HydrationRequest) : heldEntry r.messageId (log ++ [.enqueued r]) =
    match heldEntry r.messageId log with
    | none => some (r, log.length)
    | some held => some (if r.reason.rank < held.1.reason.rank then (r, log.length) else held) := by
  unfold heldEntry
  rw [sinceLeft_enqueued, if_pos rfl, List.argmin_concat]
  cases List.argmin (fun e : Entry => e.1.reason.rank) (sinceLeft r.messageId log) with
  | none => rfl
  | some held => exact (apply_ite some _ _ _).symm

theorem heldEntry_left_of_ne {gone : Uuid} (h : gone ≠ id) : heldEntry id (log ++ [.left gone]) = heldEntry id log := by
  unfold heldEntry
  rw [sinceLeft_left, if_neg h]

theorem heldEntry_left : heldEntry id (log ++ [.left id]) = none := by
  unfold heldEntry
  rw [sinceLeft_left, if_pos rfl, List.argmin_nil]

/-- An entry was enqueued for the message at its place in the log, and the message has not left since. -/
theorem mem_sinceLeft {e : Entry} (h : e ∈ sinceLeft id log) :
    e.1.messageId = id ∧ e.2 < log.length ∧ log[e.2]? = some (.enqueued e.1) ∧
      ∀ n, e.2 < n → log[n]? ≠ some (.left id) := by
  induction log using List.reverseRecOn with
  | nil => exact absurd h (by simp [sinceLeft])
  | append_singleton log ev ih =>
      -- an entry that was there stays at its place, unless the event is its message leaving
      have hkept : e ∈ sinceLeft id log → ev ≠ .left id → e.1.messageId = id ∧ e.2 < (log ++ [ev]).length ∧
          (log ++ [ev])[e.2]? = some (.enqueued e.1) ∧ ∀ n, e.2 < n → (log ++ [ev])[n]? ≠ some (.left id) := by
        intro hmem hne
        obtain ⟨hid, hlt, hat, hstays⟩ := ih hmem
        refine ⟨hid, by rw [List.length_append]; omega, by rw [List.getElem?_append_left hlt, hat], ?_⟩
        intro n hn
        by_cases hin : n < log.length
        · rw [List.getElem?_append_left hin]
          exact hstays n hn
        · rw [List.getElem?_append_right (by omega), List.getElem?_singleton]
          split_ifs
          · exact fun heq => hne (Option.some.inj heq)
          · simp
      cases ev with
      | enqueued r =>
          rw [sinceLeft_enqueued] at h
          split_ifs at h with hr
          · rcases List.mem_append.mp h with hold | hnew
            · exact hkept hold (by simp)
            · obtain rfl := List.mem_singleton.mp hnew
              refine ⟨hr, by simp, by simp, ?_⟩
              intro n hn
              rw [List.getElem?_eq_none (by rw [List.length_append]; exact hn)]
              simp
          · exact hkept h (by simp)
      | left gone =>
          rw [sinceLeft_left] at h
          split_ifs at h with hgone
          · exact absurd h (by simp)
          · exact hkept h (by simpa using hgone)

theorem mem_sinceLeft_of_held {e : Entry} (h : heldEntry id log = some e) : e ∈ sinceLeft id log :=
  List.argmin_mem (Option.mem_def.mpr h)

end Held


/-! ## Calls -/

/-- A call on the queue. -/
inductive QueueCall
  | enqueue (request : HydrationRequest)
  | enqueuePrefetchWindow (visibleIds : List Uuid) (conversationId : Uuid) (windowSize : Nat) (nowMs : Int)
  | dequeue
  | remove (messageId : Uuid)

/-- A queue and the log of what happened to it. -/
structure QueueHistory where
  queue : HydrationQueue
  log : List QueueEvent

namespace QueueHistory

/-- An empty queue. -/
def new (capacity : Nat) : QueueHistory := ⟨.new capacity, []⟩

/-- One call. -/
def call (h : QueueHistory) : QueueCall → Option QueueHistory
  | .enqueue request => (h.queue.enqueue request).map fun q => ⟨q, h.log ++ [.enqueued request]⟩
  | .enqueuePrefetchWindow visibleIds conversationId windowSize nowMs =>
      (h.queue.enqueuePrefetchWindow visibleIds conversationId windowSize nowMs).map fun q =>
        ⟨q, h.log ++ visibleIds.map fun id => .enqueued ⟨id, conversationId, .adjacentPrefetch, nowMs⟩⟩
  | .dequeue =>
      some ⟨h.queue.dequeue.2, h.log ++ (h.queue.dequeue.1.map fun r => QueueEvent.left r.messageId).toList⟩
  | .remove messageId => (h.queue.remove messageId).map fun (_, q) => ⟨q, h.log ++ [.left messageId]⟩

/-- A sequence of calls. -/
def run (h : QueueHistory) (calls : List QueueCall) : Option QueueHistory := calls.foldlM call h

end QueueHistory

/-! ## Discipline -/

/-- An entry comes before another: by reason, then by time, then by insertion. -/
def Before (e e' : Entry) : Prop :=
  e.1.reason.rank < e'.1.reason.rank ∨ e.1.reason.rank = e'.1.reason.rank ∧
    (e.1.requestedAtMs < e'.1.requestedAtMs ∨ e.1.requestedAtMs = e'.1.requestedAtMs ∧ e.2 < e'.2)

/-- **A queue in order**, next to its log. -/
structure QueueHistory.Disciplined (h : QueueHistory) : Prop where
  unique : (h.queue.items.map HydrationRequest.messageId).Nodup
  index : ∀ id idx, h.queue.byId.lookup id = some idx ↔
    (h.queue.items[idx]?).map HydrationRequest.messageId = some id
  held : ∀ r, r ∈ h.queue.items ↔ ∃ n, heldEntry r.messageId h.log = some (r, n)
  ordered : h.queue.items.Pairwise fun a b => ∀ n m, heldEntry a.messageId h.log = some (a, n) →
    heldEntry b.messageId h.log = some (b, m) → Before (a, n) (b, m)
  dequeueBest : ∀ r q, h.queue.dequeue = (some r, q) → ∀ r' ∈ h.queue.items, r.reason.rank ≤ r'.reason.rank
  dequeueOnce : ∀ r q, h.queue.dequeue = (some r, q) →
    ∃ n : Nat, h.log[n]? = some (.enqueued r) ∧ ∀ m, n < m → h.log[m]? ≠ some (.left r.messageId)

/-- **The invariant**: the vector is the held entries, in order, and the index is up to date. -/
structure Stamped (h : QueueHistory) (entries : List Entry) : Prop where
  items : h.queue.items = entries.map Prod.fst
  index : h.queue.byId = HydrationQueue.indexOf h.queue.items
  ordered : entries.Pairwise Before
  held : ∀ e, e ∈ entries ↔ heldEntry e.1.messageId h.log = some e

/-- What the index finds. -/
theorem lookup_indexOf {items : List HydrationRequest} (h : (items.map HydrationRequest.messageId).Nodup) (id : Uuid)
    (idx : Nat) : (HydrationQueue.indexOf items).lookup id = some idx ↔
      (items[idx]?).map HydrationRequest.messageId = some id := by
  induction items using List.reverseRecOn with
  | nil => simp [HydrationQueue.indexOf]
  | append_singleton items r ih =>
      rw [List.map_append, List.nodup_append] at h
      obtain ⟨hitems, -, hfresh⟩ := h
      have hlast : HydrationQueue.indexOf (items ++ [r]) =
          (HydrationQueue.indexOf items).insert r.messageId items.length := by
        unfold HydrationQueue.indexOf
        rw [List.zipIdx_append, List.foldl_append]
        simp
      rw [hlast]
      by_cases hid : id = r.messageId
      · subst hid
        rw [AList.lookup_insert]
        -- no earlier request has the id of the last one
        have hne : ∀ i < items.length, (items[i]?).map HydrationRequest.messageId ≠ some r.messageId := by
          intro i hi heq
          obtain ⟨r', hr', hid⟩ := Option.map_eq_some_iff.mp heq
          exact hfresh _ (List.mem_map_of_mem (List.mem_of_getElem? hr')) _ (by simp) hid
        constructor
        · rintro heq
          obtain rfl := Option.some.inj heq
          simp
        · intro heq
          rcases lt_trichotomy idx items.length with hlt | rfl | hgt
          · rw [List.getElem?_append_left hlt] at heq
            exact absurd heq (hne idx hlt)
          · rfl
          · rw [List.getElem?_eq_none (by rw [List.length_append]; exact hgt)] at heq
            exact absurd heq (by simp)
      · rw [AList.lookup_insert_ne hid, ih hitems]
        by_cases hlt : idx < items.length
        · rw [List.getElem?_append_left hlt]
        · rw [List.getElem?_append_right (by omega), List.getElem?_eq_none (by omega), List.getElem?_singleton]
          split_ifs
          · simp [Ne.symm hid]
          · simp

namespace Stamped

variable {h : QueueHistory} {entries : List Entry}

theorem mem_sinceLeft (hs : Stamped h entries) {e : Entry} (he : e ∈ entries) : e ∈ sinceLeft e.1.messageId h.log :=
  mem_sinceLeft_of_held ((hs.held e).mp he)

/-- The place of an entry is a place in the log. -/
theorem place_lt (hs : Stamped h entries) {e : Entry} (he : e ∈ entries) : e.2 < h.log.length :=
  (Offload.mem_sinceLeft (hs.mem_sinceLeft he)).2.1

theorem eq_of_id (hs : Stamped h entries) {e e' : Entry} (he : e ∈ entries) (he' : e' ∈ entries)
    (hid : e.1.messageId = e'.1.messageId) : e = e' := by
  have h₁ := (hs.held e).mp he
  rw [hid, (hs.held e').mp he'] at h₁
  exact (Option.some.inj h₁).symm

/-- **The ids are unique**: two entries of one message would be one entry, and it would come before itself. -/
theorem ids_nodup (hs : Stamped h entries) : (entries.map fun e => e.1.messageId).Nodup := by
  refine List.pairwise_map.mpr (hs.ordered.imp_of_mem fun {e e'} he he' hbefore hid => ?_)
  obtain rfl := hs.eq_of_id he he' hid
  unfold Before at hbefore
  omega

theorem items_ids (hs : Stamped h entries) :
    h.queue.items.map HydrationRequest.messageId = entries.map fun e => e.1.messageId := by
  rw [hs.items, List.map_map]
  rfl

theorem lookup_iff (hs : Stamped h entries) (id : Uuid) (idx : Nat) : h.queue.byId.lookup id = some idx ↔
    (h.queue.items[idx]?).map HydrationRequest.messageId = some id := by
  rw [hs.index]
  exact lookup_indexOf (hs.items_ids ▸ hs.ids_nodup) id idx

/-- What the index finds is an entry of the message. -/
theorem exists_entry (hs : Stamped h entries) {id : Uuid} {idx : Nat} (hidx : h.queue.byId.lookup id = some idx) :
    ∃ before e after, entries = before ++ e :: after ∧ before.length = idx ∧ e.1.messageId = id := by
  rw [hs.lookup_iff, hs.items, List.getElem?_map, Option.map_map] at hidx
  obtain ⟨e, he, hid⟩ := Option.map_eq_some_iff.mp hidx
  obtain ⟨hlt, rfl⟩ := List.getElem?_eq_some_iff.mp he
  refine ⟨entries.take idx, entries[idx], entries.drop (idx + 1), ?_, ?_, hid⟩
  · rw [← List.drop_eq_getElem_cons, List.take_append_drop]
  · rw [List.length_take]
    omega

/-- What the index does not find is not held. -/
theorem held_none (hs : Stamped h entries) {id : Uuid} (hnone : h.queue.byId.lookup id = none) :
    heldEntry id h.log = none := by
  cases hheld : heldEntry id h.log with
  | none => rfl
  | some e =>
      obtain ⟨rfl, -⟩ := Offload.mem_sinceLeft (mem_sinceLeft_of_held hheld)
      obtain ⟨idx, hidx⟩ := List.mem_iff_getElem?.mp ((hs.held e).mpr hheld)
      have hfound : h.queue.byId.lookup e.1.messageId = some idx := by
        rw [hs.lookup_iff, hs.items, List.getElem?_map, hidx]
        rfl
      rw [hnone] at hfound
      exact absurd hfound (by simp)

theorem new (capacity : Nat) : Stamped (.new capacity) [] where
  items := rfl
  index := rfl
  ordered := List.Pairwise.nil
  held e := by simp [QueueHistory.new, heldEntry, sinceLeft]

/-! ### One call -/

/-- Sorting entries is sorting their requests. -/
theorem map_sorted (entries : List Entry) : (entries.mergeSort fun a b => HydrationQueue.requestLe a.1 b.1).map Prod.fst =
    (entries.map Prod.fst).mergeSort HydrationQueue.requestLe :=
  List.map_mergeSort fun _ _ _ _ => rfl

theorem requestLe_iff {a b : HydrationRequest} : HydrationQueue.requestLe a b = true ↔
    a.reason.rank < b.reason.rank ∨ a.reason.rank = b.reason.rank ∧ a.requestedAtMs ≤ b.requestedAtMs := by
  simp only [HydrationQueue.requestLe, Bool.or_eq_true, Bool.and_eq_true, decide_eq_true_eq, beq_iff_eq]

/-- **Sorting puts the entries in order**, if those the sort cannot tell apart are in order already. -/
theorem sorted_ordered {entries : List Entry}
    (h : entries.Pairwise fun a b => HydrationQueue.requestLe a.1 b.1 → HydrationQueue.requestLe b.1 a.1 → Before a b) :
    (entries.mergeSort fun a b => HydrationQueue.requestLe a.1 b.1).Pairwise Before := by
  have htrans : ∀ a b c : Entry, HydrationQueue.requestLe a.1 b.1 → HydrationQueue.requestLe b.1 c.1 →
      HydrationQueue.requestLe a.1 c.1 := by
    intro a b c hab hbc
    rw [requestLe_iff] at hab hbc ⊢
    omega
  have htotal : ∀ a b : Entry, HydrationQueue.requestLe a.1 b.1 || HydrationQueue.requestLe b.1 a.1 := by
    intro a b
    rw [Bool.or_eq_true, requestLe_iff, requestLe_iff]
    omega
  refine (stable_mergeSort htrans htotal h).imp fun {a b} hab => ?_
  obtain ⟨hle, hequal⟩ := hab
  by_cases hge : HydrationQueue.requestLe b.1 a.1 = true
  · exact hequal hle hge
  · rw [requestLe_iff] at hle hge
    unfold Before
    omega

/-- A request for a message that is not queued. -/
theorem push (hs : Stamped h entries) {r : HydrationRequest} (hnone : heldEntry r.messageId h.log = none)
    (byId : AList fun _ : Uuid => Nat) : ∃ entries',
      Stamped ⟨{ h.queue with items := h.queue.items ++ [r], byId := byId : HydrationQueue }.resort,
        h.log ++ [.enqueued r]⟩ entries' := by
  refine ⟨(entries ++ [(r, h.log.length)]).mergeSort fun a b => HydrationQueue.requestLe a.1 b.1, ?_, rfl, ?_, ?_⟩
  · rw [map_sorted, List.map_append, ← hs.items]
    rfl
  · refine sorted_ordered (List.pairwise_append.mpr ⟨hs.ordered.imp fun hab _ _ => hab, List.pairwise_singleton _ _, ?_⟩)
    intro a ha b hb hle hge
    obtain rfl := List.mem_singleton.mp hb
    have hplace := hs.place_lt ha
    rw [requestLe_iff] at hle hge
    unfold Before
    omega
  · intro e
    rw [List.mem_mergeSort, List.mem_append, List.mem_singleton]
    by_cases hid : r.messageId = e.1.messageId
    · -- the new entry is the only one of its message
      have hheld := @heldEntry_enqueued h.log r
      rw [hnone] at hheld
      rw [hid] at hheld hnone
      rw [hs.held, hnone, hheld]
      simp [eq_comm]
    · rw [heldEntry_enqueued_of_ne hid, hs.held]
      exact or_iff_left fun heq => hid (by rw [heq])

/-- A better request for a message that is queued. -/
theorem upgrade (hs : Stamped h entries) {before after : List Entry} {e : Entry} (heq : entries = before ++ e :: after)
    {r : HydrationRequest} (hid : e.1.messageId = r.messageId) (hbetter : r.reason.rank < e.1.reason.rank) :
    ∃ entries', Stamped ⟨{ h.queue with items := h.queue.items.set before.length r }.resort, h.log ++ [.enqueued r]⟩
      entries' := by
  have he : e ∈ entries := by simp [heq]
  have hitems : h.queue.items.set before.length r = (before ++ (r, h.log.length) :: after).map Prod.fst := by
    rw [hs.items, heq, List.map_append, List.map_cons, List.set_append_right _ _ (by simp)]
    simp
  have hordered := hs.ordered
  rw [heq, List.pairwise_append, List.pairwise_cons] at hordered
  obtain ⟨hbefore, ⟨hafter, hrest⟩, hcross⟩ := hordered
  refine ⟨(before ++ (r, h.log.length) :: after).mergeSort fun a b => HydrationQueue.requestLe a.1 b.1, ?_, rfl, ?_, ?_⟩
  · rw [map_sorted, ← hitems]
    rfl
  · refine sorted_ordered (List.pairwise_append.mpr
      ⟨hbefore.imp fun hab _ _ => hab, List.pairwise_cons.mpr ⟨?_, hrest.imp fun hab _ _ => hab⟩, ?_⟩)
    · -- what stood behind the replaced request has a worse reason than the new one
      intro b hb hle hge
      have hb := hafter b hb
      rw [requestLe_iff] at hle hge
      unfold Before at hb
      dsimp only at hle hge
      omega
    · intro a ha b hb hle hge
      rcases List.mem_cons.mp hb with rfl | hb
      · have hplace := hs.place_lt (by rw [heq]; exact List.mem_append_left _ ha)
        rw [requestLe_iff] at hle hge
        unfold Before
        omega
      · exact hcross a ha b (List.mem_cons_of_mem _ hb)
  · intro e'
    rw [List.mem_mergeSort, List.mem_append, List.mem_cons]
    have hheld := @heldEntry_enqueued h.log r
    rw [← hid, (hs.held e).mp he] at hheld
    simp only [hbetter, if_true] at hheld
    have hnodup := hs.ids_nodup
    rw [heq, List.map_append, List.map_cons, List.nodup_append, List.nodup_cons] at hnodup
    obtain ⟨-, ⟨hnotAfter, -⟩, hdisjoint⟩ := hnodup
    by_cases hid' : r.messageId = e'.1.messageId
    · rw [hid] at hheld
      rw [← hid', hheld, Option.some.injEq, eq_comm (a := (r, _))]
      refine ⟨?_, fun h => .inr (.inl h)⟩
      rintro (hmem | hnew | hmem)
      · exact absurd (hid.trans hid').symm (hdisjoint _ (List.mem_map_of_mem hmem) _ (by simp))
      · exact hnew
      · exact absurd (List.mem_map_of_mem (f := fun e : Entry => e.1.messageId) hmem) (by rwa [← hid', ← hid])
    · rw [heldEntry_enqueued_of_ne hid', ← hs.held, heq, List.mem_append, List.mem_cons]
      have hne : e' ≠ (r, h.log.length) := fun h => hid' (by rw [h])
      have hne' : e' ≠ e := fun h => hid' (by rw [h, hid])
      simp only [hne, hne', false_or]

/-- An entry leaves. -/
theorem leave (hs : Stamped h entries) {before after : List Entry} {e : Entry} (heq : entries = before ++ e :: after)
    {q : HydrationQueue} (hitems : q.items = (before ++ after).map Prod.fst) :
    Stamped ⟨q.rebuildIndex, h.log ++ [.left e.1.messageId]⟩ (before ++ after) where
  items := hitems
  index := rfl
  ordered := by
    refine hs.ordered.sublist ?_
    rw [heq]
    exact (List.sublist_cons_self e after).append_left before
  held e' := by
    have hnodup := hs.ids_nodup
    rw [heq, List.map_append, List.map_cons, List.nodup_append, List.nodup_cons] at hnodup
    obtain ⟨-, ⟨hnotAfter, -⟩, hdisjoint⟩ := hnodup
    rw [List.mem_append]
    by_cases hid : e.1.messageId = e'.1.messageId
    · rw [← hid, heldEntry_left]
      simp only [reduceCtorEq, iff_false, not_or]
      refine ⟨fun hmem => ?_, fun hmem => ?_⟩
      · exact hdisjoint _ (List.mem_map_of_mem hmem) _ (by simp) hid.symm
      · exact hnotAfter (hid ▸ List.mem_map_of_mem hmem)
    · rw [heldEntry_left_of_ne hid, ← hs.held, heq, List.mem_append, List.mem_cons]
      have hne : e' ≠ e := fun h => hid (by rw [h])
      simp only [hne, false_or]

/-- **An enqueue keeps the invariant**, and never panics. -/
theorem enqueue (hs : Stamped h entries) (r : HydrationRequest) : ∃ q, h.queue.enqueue r = some q ∧
    ∃ entries', Stamped ⟨q, h.log ++ [.enqueued r]⟩ entries' := by
  unfold HydrationQueue.enqueue
  cases hidx : h.queue.byId.lookup r.messageId with
  | none => exact ⟨_, rfl, hs.push (hs.held_none hidx) _⟩
  | some idx =>
      obtain ⟨before, e, after, heq, rfl, hid⟩ := hs.exists_entry hidx
      have hat : h.queue.items[before.length]? = some e.1 := by
        rw [hs.items, heq]
        simp
      simp only [hat, Option.map_some]
      refine ⟨_, rfl, ?_⟩
      split_ifs with hbetter
      · exact hs.upgrade heq hid hbetter
      · -- the request is dropped, as the one that is held is at least as good
        refine ⟨entries, hs.items, hs.index, hs.ordered, fun e' => ?_⟩
        rw [hs.held]
        by_cases hid' : r.messageId = e'.1.messageId
        · have hheld := @heldEntry_enqueued h.log r
          rw [← hid, (hs.held e).mp (by simp [heq])] at hheld
          simp only [hbetter, if_false] at hheld
          rw [← hid', ← hid, hheld, (hs.held e).mp (by simp [heq])]
        · rw [heldEntry_enqueued_of_ne hid']

theorem enqueuePrefetchWindow (hs : Stamped h entries) (visibleIds : List Uuid) (conversationId : Uuid)
    (windowSize : Nat) (nowMs : Int) : ∃ q,
      h.queue.enqueuePrefetchWindow visibleIds conversationId windowSize nowMs = some q ∧ ∃ entries',
        Stamped ⟨q, h.log ++ visibleIds.map fun id => .enqueued ⟨id, conversationId, .adjacentPrefetch, nowMs⟩⟩
          entries' := by
  induction visibleIds generalizing h entries with
  | nil => exact ⟨h.queue, rfl, entries, by simpa using hs⟩
  | cons id visibleIds ih =>
      obtain ⟨q, hq, entries', hs'⟩ := hs.enqueue ⟨id, conversationId, .adjacentPrefetch, nowMs⟩
      obtain ⟨q', hq', entries'', hs''⟩ := ih hs'
      refine ⟨q', ?_, entries'', ?_⟩
      · unfold HydrationQueue.enqueuePrefetchWindow at hq' ⊢
        rw [List.foldlM_cons, hq]
        exact hq'
      · rw [List.map_cons, List.append_cons]
        exact hs''

theorem dequeue (hs : Stamped h entries) : ∃ entries',
    Stamped ⟨h.queue.dequeue.2, h.log ++ (h.queue.dequeue.1.map fun r => QueueEvent.left r.messageId).toList⟩ entries' := by
  unfold HydrationQueue.dequeue
  have hitems := hs.items
  cases entries with
  | nil =>
      rw [List.map_nil] at hitems
      simp only [hitems, Option.map_none, Option.toList_none, List.append_nil]
      exact ⟨[], hs⟩
  | cons e entries =>
      rw [List.map_cons] at hitems
      simp only [hitems, Option.map_some, Option.toList_some]
      have heq : e :: entries = [] ++ e :: entries := rfl
      exact ⟨entries, hs.leave heq rfl⟩

theorem remove (hs : Stamped h entries) (id : Uuid) : ∃ removed, h.queue.remove id = some removed ∧
    ∃ entries', Stamped ⟨removed.2, h.log ++ [.left id]⟩ entries' := by
  unfold HydrationQueue.remove
  cases hidx : h.queue.byId.lookup id with
  | none =>
      -- nothing is held for the message, before as after
      refine ⟨_, rfl, entries, hs.items, hs.index, hs.ordered, fun e => ?_⟩
      rw [hs.held]
      by_cases hid : id = e.1.messageId
      · rw [← hid, heldEntry_left, hs.held_none hidx]
      · rw [heldEntry_left_of_ne hid]
  | some idx =>
      obtain ⟨before, e, after, heq, rfl, rfl⟩ := hs.exists_entry hidx
      have hlt : before.length < h.queue.items.length := by
        rw [hs.items, heq]
        simp
      simp only [hlt, if_true]
      refine ⟨_, rfl, _, hs.leave heq ?_⟩
      simp only [hs.items, heq, List.map_append, List.map_cons]
      rw [List.eraseIdx_append_of_length_le (by simp)]
      simp

/-- **One call keeps the invariant**, and never panics. -/
theorem call (hs : Stamped h entries) (c : QueueCall) : ∃ h', h.call c = some h' ∧ ∃ entries', Stamped h' entries' := by
  cases c with
  | enqueue r =>
      obtain ⟨q, hq, hs'⟩ := hs.enqueue r
      exact ⟨_, by simp only [QueueHistory.call, hq, Option.map_some], hs'⟩
  | enqueuePrefetchWindow visibleIds conversationId windowSize nowMs =>
      obtain ⟨q, hq, hs'⟩ := hs.enqueuePrefetchWindow visibleIds conversationId windowSize nowMs
      exact ⟨_, by simp only [QueueHistory.call, hq, Option.map_some], hs'⟩
  | dequeue => exact ⟨_, rfl, hs.dequeue⟩
  | remove id =>
      obtain ⟨removed, hremoved, hs'⟩ := hs.remove id
      exact ⟨_, by simp only [QueueHistory.call, hremoved, Option.map_some], hs'⟩

/-- **A sequence of calls** runs to its end and keeps the invariant. -/
theorem run (hs : Stamped h entries) (calls : List QueueCall) :
    ∃ h', h.run calls = some h' ∧ ∃ entries', Stamped h' entries' := by
  induction calls generalizing h entries with
  | nil => exact ⟨h, rfl, entries, hs⟩
  | cons c calls ih =>
      obtain ⟨h₁, hcall, entries₁, hs₁⟩ := hs.call c
      obtain ⟨h₂, hrun, hs₂⟩ := ih hs₁
      refine ⟨h₂, ?_, hs₂⟩
      unfold QueueHistory.run at hrun ⊢
      rw [List.foldlM_cons, hcall]
      exact hrun

theorem dequeued (hs : Stamped h entries) {r : HydrationRequest} {q : HydrationQueue}
    (hdequeue : h.queue.dequeue = (some r, q)) : ∃ e after, entries = e :: after ∧ e.1 = r := by
  unfold HydrationQueue.dequeue at hdequeue
  have hitems := hs.items
  cases entries with
  | nil =>
      rw [List.map_nil] at hitems
      simp only [hitems, Prod.mk.injEq, reduceCtorEq, false_and] at hdequeue
  | cons e after =>
      rw [List.map_cons] at hitems
      simp only [hitems, Prod.mk.injEq, Option.some.injEq] at hdequeue
      exact ⟨e, after, rfl, hdequeue.1⟩

/-- The invariant is the discipline. -/
theorem disciplined (hs : Stamped h entries) : h.Disciplined where
  unique := hs.items_ids ▸ hs.ids_nodup
  index := hs.lookup_iff
  held r := by
    rw [hs.items, List.mem_map]
    constructor
    · rintro ⟨e, he, rfl⟩
      exact ⟨e.2, (hs.held e).mp he⟩
    · rintro ⟨n, hn⟩
      exact ⟨(r, n), (hs.held (r, n)).mpr hn, rfl⟩
  ordered := by
    rw [hs.items, List.pairwise_map]
    refine hs.ordered.imp_of_mem fun {e e'} he he' hbefore n m hn hm => ?_
    rw [(hs.held e).mp he] at hn
    rw [(hs.held e').mp he'] at hm
    rwa [← Option.some.inj hn, ← Option.some.inj hm]
  dequeueBest r q hdequeue r' hr' := by
    obtain ⟨e, after, rfl, rfl⟩ := hs.dequeued hdequeue
    rw [hs.items, List.map_cons] at hr'
    rcases List.mem_cons.mp hr' with rfl | hr'
    · exact le_rfl
    · obtain ⟨e', he', rfl⟩ := List.mem_map.mp hr'
      have hbefore := (List.pairwise_cons.mp hs.ordered).1 e' he'
      unfold Before at hbefore
      omega
  dequeueOnce r q hdequeue := by
    obtain ⟨e, after, rfl, rfl⟩ := hs.dequeued hdequeue
    obtain ⟨-, -, hat, hstays⟩ := Offload.mem_sinceLeft (hs.mem_sinceLeft List.mem_cons_self)
    exact ⟨e.2, hat, hstays⟩

end Stamped

/-- **The hydration queue keeps its discipline**: every sequence of calls on a new queue runs, and what it leaves is in
order. -/
theorem hydrationQueue_discipline (capacity : Nat) (calls : List QueueCall) :
    ∃ h, (QueueHistory.new capacity).run calls = some h ∧ h.Disciplined := by
  obtain ⟨h, hrun, entries, hs⟩ := (Stamped.new capacity).run calls
  exact ⟨h, hrun, hs.disciplined⟩

end KChatCore.Offload
