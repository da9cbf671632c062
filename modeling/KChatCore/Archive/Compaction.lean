import KChatCore.Archive.SegmentMap
import KChatCore.Lib.Resolution

/-!
# `Archive.Compaction` — merging the verified segments of one bucket

`compactArchiveInner` opens the verified segments of a bucket, resolves the tombstones among their events, seals
the survivors as one segment and marks the sources compacted. The tombstones it drops stay in the sources, whose
rows every reader still fetches.

* `applyArchiveTombstones_eq_resolve` — the filter is the resolution of the covering relation.
* `compactArchive_cases` — what a compaction can do to the store.
* `compactArchive_preserves_view` — the resolved archive of every conversation is unchanged.
-/

namespace KChatCore

/-- Both ids of an archive event, when it is about a message. -/
def ArchiveEvent.ids (e : ArchiveEvent) : Option (Uuid × Uuid) := e.messageId.map fun mid => (e.conversationId, mid)

/-- The two tombstone types. -/
def ArchiveEventType.isTombstone : ArchiveEventType → Bool
  | .messageDeleted | .conversationDeleted => true
  | _ => false

namespace Archive

open Lib

/-! ## The tombstone filter -/

/-- `apply_archive_tombstones`: pass 1 collects the tombstones, pass 2 keeps the survivors in order. -/
def applyArchiveTombstones (events : List ArchiveEvent) : List ArchiveEvent :=
  let deletedMessages :=
    events.filterMap fun ev => if ev.eventType = .messageDeleted then ev.ids else none
  let deletedConversations :=
    events.filterMap fun ev => if ev.eventType = .conversationDeleted then some ev.conversationId else none
  events.filter fun ev =>
    if ev.eventType.isTombstone then false
    else if deletedConversations.contains ev.conversationId then false
    else if ev.ids.any (deletedMessages.contains ·) then false
    else true

/-- Tombstone `t` covers event `e`. -/
def archiveTombstoneCovers (t e : ArchiveEvent) : Bool :=
  match t.eventType with
  | .messageDeleted => e.ids.any fun ids => t.ids = some ids
  | .conversationDeleted => t.conversationId = e.conversationId
  | _ => false

/-- **Archive tombstones**, as a resolution discipline. -/
def archiveTombstones : Tombstoning ArchiveEvent where
  isTombstone e := e.eventType.isTombstone
  covers := archiveTombstoneCovers
  isTombstone_of_covers t e h := by
    unfold archiveTombstoneCovers at h
    cases hty : t.eventType <;> simp_all [ArchiveEventType.isTombstone]

/-- The two ways to be covered, one per tombstone type. -/
theorem archive_covered_eq (l : List ArchiveEvent) (e : ArchiveEvent) :
    archiveTombstones.covered l e =
      ((l.any fun t => decide (t.eventType = .conversationDeleted) && decide (t.conversationId = e.conversationId)) ||
        l.any fun t => decide (t.eventType = .messageDeleted) && e.ids.any fun ids => t.ids = some ids) := by
  induction l with
  | nil => rfl
  | cons t l ih =>
      have hcons : archiveTombstones.covered (t :: l) e =
          (archiveTombstoneCovers t e || archiveTombstones.covered l e) := rfl
      rw [hcons, ih]
      simp only [List.any_cons, archiveTombstoneCovers]
      cases t.eventType <;> simp [Bool.or_assoc, Bool.or_left_comm]

/-- **The two-pass filter is the resolution of the covering relation.** -/
theorem applyArchiveTombstones_eq_resolve (events : List ArchiveEvent) :
    applyArchiveTombstones events = archiveTombstones.resolve events := by
  have hconversation : ∀ e : ArchiveEvent,
      (events.filterMap fun ev => if ev.eventType = .conversationDeleted then some ev.conversationId
        else none).contains e.conversationId =
      events.any fun t => decide (t.eventType = .conversationDeleted) &&
        decide (t.conversationId = e.conversationId) := by
    intro e
    have h := any_contains_filterMap (some e.conversationId)
      (fun ev : ArchiveEvent => ev.eventType = .conversationDeleted) (fun ev => some ev.conversationId) events
    simpa using h
  unfold applyArchiveTombstones Tombstoning.resolve
  refine List.filter_congr fun e _ => ?_
  rw [archive_covered_eq, any_contains_filterMap, hconversation]
  show _ = (!e.eventType.isTombstone && _)
  cases e.eventType.isTombstone with
  | true => simp
  | false =>
      simp only [Bool.false_eq_true, if_false, Bool.not_false, Bool.true_and, Bool.not_or]
      split
      · rename_i h
        rw [h]
        rfl
      · rename_i h
        rw [Bool.not_eq_true] at h
        rw [h]
        split <;> simp_all

/-! ## The compaction -/

/-- `ArchiveCompactionResult`. -/
structure ArchiveCompactionResult where
  bucketsInspected : Nat
  bucketsCompacted : Nat
  segmentsSuperseded : Nat
  segmentsEmitted : Nat
  bytesBefore : Nat
  bytesAfter : Nat
deriving DecidableEq, Repr

/-- The result of a run that found nothing to merge. -/
def nothingCompacted : ArchiveCompactionResult := ⟨1, 0, 0, 0, 0, 0⟩

/-- Step E: the source rows are marked compacted. -/
def markCompacted (supersededIds : List IdText) (store : ArchiveStore) : ArchiveStore :=
  { store with rows := store.rows.map fun row =>
      if row.segmentId ∈ supersededIds then { row with state := .archiveCompacted } else row }

/-- The ids of the verified segments of a bucket. -/
def eligibleIds (store : ArchiveStore) (conversationId : Uuid) (timeBucket : String) : List IdText :=
  ((store.rows.filter fun row =>
    row.inBucket conversationId timeBucket && row.state = .archiveVerified).map SegmentMapRow.segmentId).dedup

/-- `compact_archive_inner`. `commitCompact` is the orchestrator's closure: it uploads the segment and inserts
its row. -/
def compactArchiveInner (P : Primitives) (conversationId : Uuid) (timeBucket : String)
    (kCompactSegment : KeyMaterial) (keyForSegment : IdText → Except Error KeyMaterial)
    (commitCompact : BuiltSegment → ArchiveStore → Except Error Unit × ArchiveStore) (drawn : Nat)
    (store : ArchiveStore) : Except Error ArchiveCompactionResult × ArchiveStore :=
  let eligible := eligibleIds store conversationId timeBucket
  if eligible.length < 2 then (.ok nothingCompacted, store)
  else
    match batchPrefetchBucketWithRouter store conversationId timeBucket with
    | .error e => (.error e, store)
    | .ok prefetched =>
        let sources := prefetched.filter fun p => p.segmentId ∈ eligible
        if sources.length < 2 then (.ok nothingCompacted, store)
        else
          match openSegments P keyForSegment sources with
          | .error e => (.error e, store)
          | .ok events =>
              let supersededIds := sources.map PrefetchedSegment.segmentId
              let bytesBefore := (sources.map fun p => p.ciphertext.length).sum
              let survivors := applyArchiveTombstones events
              if survivors.isEmpty then
                (.ok ⟨1, 1, supersededIds.length, 0, bytesBefore, 0⟩, markCompacted supersededIds store)
              else
                match buildSegment P (.messageDelta conversationId timeBucket survivors) kCompactSegment drawn with
                | .error e => (.error e, store)
                | .ok built =>
                    match commitCompact built store with
                    | (.error e, store') => (.error e, store')
                    | (.ok _, store') =>
                        (.ok ⟨1, 1, supersededIds.length, 1, bytesBefore, built.ciphertext.length⟩,
                          markCompacted supersededIds store')

/-! ## What a compaction does to the store -/

/-- **A closure that stores the segment**: on success there is one more row, whose blob is the framed segment, and
nothing already mapped is touched; on failure nothing mapped has changed. -/
structure StoresCompact (commitCompact : BuiltSegment → ArchiveStore → Except Error Unit × ArchiveStore) : Prop where
  ok : ∀ built store store', commitCompact built store = (.ok (), store') →
    ∃ row : SegmentMapRow, row.segmentId = built.segmentId.toText ∧
      row.conversationId = built.conversationId.toText ∧ store'.rows = store.rows ++ [row] ∧
      store'.fetchRow row = .ok built.blob ∧ ∀ old ∈ store.rows, store'.fetchRow old = store.fetchRow old
  error : ∀ built store store' e, commitCompact built store = (.error e, store') →
    store'.rows = store.rows ∧ ∀ old ∈ store.rows, store'.fetchRow old = store.fetchRow old

section Compact

variable {P : Primitives} {conversationId : Uuid} {timeBucket : String} {kCompactSegment : KeyMaterial}
  {keyForSegment : IdText → Except Error KeyMaterial}
  {commitCompact : BuiltSegment → ArchiveStore → Except Error Unit × ArchiveStore} {drawn : Nat}
  {store store' : ArchiveStore} {r : Except Error ArchiveCompactionResult}

/-- **What a compaction does**: nothing, or it marks some rows, or it commits the resolution of archived events
and then marks some rows. -/
inductive CompactOutcome (P : Primitives) (conversationId : Uuid) (timeBucket : String)
    (kCompactSegment : KeyMaterial) (keyForSegment : IdText → Except Error KeyMaterial)
    (commitCompact : BuiltSegment → ArchiveStore → Except Error Unit × ArchiveStore) (drawn : Nat)
    (store : ArchiveStore) : ArchiveStore → Prop
  | unchanged : CompactOutcome P conversationId timeBucket kCompactSegment keyForSegment commitCompact drawn store
      store
  | erased (supersededIds : List IdText) : CompactOutcome P conversationId timeBucket kCompactSegment keyForSegment
      commitCompact drawn store (markCompacted supersededIds store)
  | refused {built : BuiltSegment} {e : Error} {store' : ArchiveStore}
      (hcommit : commitCompact built store = (.error e, store')) :
      CompactOutcome P conversationId timeBucket kCompactSegment keyForSegment commitCompact drawn store store'
  | merged {events : List ArchiveEvent} {built : BuiltSegment} {store' : ArchiveStore} (supersededIds : List IdText)
      (hevents : events ⊆ archivedEvents P keyForSegment store conversationId)
      (hbuilt : buildSegment P (.messageDelta conversationId timeBucket (applyArchiveTombstones events))
        kCompactSegment drawn = .ok built)
      (hcommit : commitCompact built store = (.ok (), store')) :
      CompactOutcome P conversationId timeBucket kCompactSegment keyForSegment commitCompact drawn store
        (markCompacted supersededIds store')

theorem compactArchive_cases
    (hrun : compactArchiveInner P conversationId timeBucket kCompactSegment keyForSegment commitCompact drawn store =
      (r, store')) :
    CompactOutcome P conversationId timeBucket kCompactSegment keyForSegment commitCompact drawn store store' := by
  unfold compactArchiveInner at hrun
  simp only at hrun
  split at hrun
  · obtain ⟨-, rfl⟩ := Prod.mk.inj hrun
    exact .unchanged
  · split at hrun
    · obtain ⟨-, rfl⟩ := Prod.mk.inj hrun
      exact .unchanged
    · -- the bucket is read before anything is written
      rename_i prefetched hfetch
      split at hrun
      · obtain ⟨-, rfl⟩ := Prod.mk.inj hrun
        exact .unchanged
      · split at hrun
        · obtain ⟨-, rfl⟩ := Prod.mk.inj hrun
          exact .unchanged
        · rename_i events hopen
          have hevents := openBucket_subset hfetch (List.filter_subset_self _) hopen
          split at hrun
          · obtain ⟨-, rfl⟩ := Prod.mk.inj hrun
            -- nothing survived: the call reports success and commits nothing
            exact .erased _
          · split at hrun
            · obtain ⟨-, rfl⟩ := Prod.mk.inj hrun
              exact .unchanged
            · rename_i built hbuilt
              split at hrun
              · -- the closure stores the merged segment; only then are the old ones superseded
                rename_i e committed hcommit
                obtain ⟨-, rfl⟩ := Prod.mk.inj hrun
                exact .refused hcommit
              · rename_i u committed hcommit
                obtain ⟨-, rfl⟩ := Prod.mk.inj hrun
                exact .merged _ hevents hbuilt hcommit

/-- Marking rows changes no blob and no key. -/
theorem rowEvents_markCompacted (supersededIds : List IdText) (row : SegmentMapRow) :
    (markCompacted supersededIds store).rowEvents P keyForSegment
        (if row.segmentId ∈ supersededIds then { row with state := .archiveCompacted } else row) =
      store.rowEvents P keyForSegment row := by
  split <;> rfl

/-- **Marked rows are read like any other.** -/
theorem mem_archivedEvents_markCompacted (supersededIds : List IdText) (conv : Uuid) (e : ArchiveEvent) :
    e ∈ archivedEvents P keyForSegment (markCompacted supersededIds store) conv ↔
      e ∈ archivedEvents P keyForSegment store conv := by
  rw [mem_archivedEvents, mem_archivedEvents]
  constructor
  · rintro ⟨row', hrow', hconv, he⟩
    obtain ⟨row, hrow, rfl⟩ := List.mem_map.mp hrow'
    refine ⟨row, hrow, ?_, ?_⟩
    · split at hconv <;> exact hconv
    · rw [rowEvents_markCompacted] at he
      exact he
  · rintro ⟨row, hrow, hconv, he⟩
    refine ⟨_, List.mem_map_of_mem hrow, ?_, ?_⟩
    · split <;> exact hconv
    · rw [rowEvents_markCompacted]
      exact he

/-- A store in which the mapped rows and their blobs are the same holds the same events. -/
theorem mem_archivedEvents_congr (hrows : store'.rows = store.rows)
    (hblobs : ∀ old ∈ store.rows, store'.fetchRow old = store.fetchRow old) (conv : Uuid) (e : ArchiveEvent) :
    e ∈ archivedEvents P keyForSegment store' conv ↔ e ∈ archivedEvents P keyForSegment store conv := by
  rw [mem_archivedEvents, mem_archivedEvents, hrows]
  refine exists_congr fun row => and_congr_right fun hrow => and_congr_right fun _ => ?_
  rw [ArchiveStore.rowEvents, ArchiveStore.rowEvents, hblobs row hrow]

/-- **What a commit adds** to the archive: the resolved events, and only to their conversation. -/
theorem mem_archivedEvents_commit (hstores : StoresCompact commitCompact) {events : List ArchiveEvent}
    {built : BuiltSegment} (hkey : keyForSegment (Uuid.nowV7 drawn).toText = .ok kCompactSegment)
    (hbuilt : buildSegment P (.messageDelta conversationId timeBucket (applyArchiveTombstones events))
      kCompactSegment drawn = .ok built)
    (hcommit : commitCompact built store = (.ok (), store')) (conv : Uuid) (e : ArchiveEvent) :
    e ∈ archivedEvents P keyForSegment store' conv ↔ e ∈ archivedEvents P keyForSegment store conv ∨
      conv = conversationId ∧ e ∈ applyArchiveTombstones events := by
  obtain ⟨-, -, hid, hconv, -, -, -⟩ := buildSegment_eq_ok hbuilt
  obtain ⟨row, hrowId, hrowConv, hrows, hblob, hold⟩ := hstores.ok built store store' hcommit
  have hopened : store'.rowEvents P keyForSegment row = applyArchiveTombstones events :=
    rowEvents_of_open hblob (by rw [hrowId, hid]; exact hkey) (openArchiveSegment_blob hbuilt)
  have hnew : row.conversationId = conv.toText ↔ conv = conversationId := by
    rw [hrowConv, hconv, Uuid.toText_inj]
    exact eq_comm
  rw [mem_archivedEvents, mem_archivedEvents, hrows]
  constructor
  · rintro ⟨r, hr, hrc, he⟩
    rcases List.mem_append.mp hr with hr | hr
    · refine Or.inl ⟨r, hr, hrc, ?_⟩
      rw [ArchiveStore.rowEvents, ← hold r hr]
      exact he
    · rw [List.mem_singleton.mp hr] at hrc he
      rw [hopened] at he
      exact Or.inr ⟨hnew.mp hrc, he⟩
  · rintro (⟨r, hr, hrc, he⟩ | ⟨heq, he⟩)
    · refine ⟨r, List.mem_append_left _ hr, hrc, ?_⟩
      rw [ArchiveStore.rowEvents, hold r hr]
      exact he
    · refine ⟨row, by simp, hnew.mpr heq, ?_⟩
      rw [hopened]
      exact he

/-- The resolved view depends on which events there are, not on how often or in which order. -/
theorem mem_resolve_congr {l l' : List ArchiveEvent} (h : ∀ e, e ∈ l ↔ e ∈ l') (e : ArchiveEvent) :
    e ∈ archiveTombstones.resolve l ↔ e ∈ archiveTombstones.resolve l' := by
  have hcovered : archiveTombstones.covered l e = archiveTombstones.covered l' e := by
    rw [Bool.eq_iff_iff, Tombstoning.covered_eq_true, Tombstoning.covered_eq_true]
    exact exists_congr fun t => and_congr_left fun _ => h t
  rw [Tombstoning.mem_resolve, Tombstoning.mem_resolve, h e, hcovered]

/-- **Archive compaction preserves meaning.** Whatever the rows' buckets and states, and however the run ends, the
tombstone-resolved view of every conversation's readable archive is what it was. -/
theorem compactArchive_preserves_view (hstores : StoresCompact commitCompact)
    (hkey : keyForSegment (Uuid.nowV7 drawn).toText = .ok kCompactSegment)
    (hrun : compactArchiveInner P conversationId timeBucket kCompactSegment keyForSegment commitCompact drawn store =
      (r, store')) (conv : Uuid) (e : ArchiveEvent) :
    e ∈ applyArchiveTombstones (archivedEvents P keyForSegment store' conv) ↔
      e ∈ applyArchiveTombstones (archivedEvents P keyForSegment store conv) := by
  rw [applyArchiveTombstones_eq_resolve, applyArchiveTombstones_eq_resolve]
  cases compactArchive_cases hrun with
  | unchanged => exact Iff.rfl
  | erased supersededIds => exact mem_resolve_congr (mem_archivedEvents_markCompacted supersededIds conv) e
  | refused hcommit =>
      obtain ⟨hrows, hblobs⟩ := hstores.error _ _ _ _ hcommit
      exact mem_resolve_congr (mem_archivedEvents_congr hrows hblobs conv) e
  | merged supersededIds hevents hbuilt hcommit =>
      rename_i events built committed
      have hmem : ∀ e, e ∈ archivedEvents P keyForSegment (markCompacted supersededIds committed) conv ↔
          e ∈ archivedEvents P keyForSegment store conv ∨ conv = conversationId ∧ e ∈ applyArchiveTombstones events :=
        fun e => (mem_archivedEvents_markCompacted supersededIds conv e).trans
          (mem_archivedEvents_commit hstores hkey hbuilt hcommit conv e)
      by_cases hconv : conv = conversationId
      · -- the new segment only repeats what the old ones resolve to
        subst hconv
        rw [mem_resolve_congr fun e => (hmem e).trans (by simp only [true_and]; exact List.mem_append.symm),
          applyArchiveTombstones_eq_resolve]
        exact Tombstoning.mem_resolve_append_resolve hevents
      · exact mem_resolve_congr (fun e => (hmem e).trans (by simp [hconv])) e

end Compact

/-! ## Two segments merged, a deletion in another bucket -/

/-- A closure that uploads the framed blob and inserts the row. -/
def storeSegment (built : BuiltSegment) (store : ArchiveStore) : Except Error Unit × ArchiveStore :=
  match persistSegmentMapRow built built.segmentId.hyphenated .kchatBackend store.rows with
  | .error e => (.error e, store)
  | .ok rows =>
      (.ok (), ⟨rows, fun backend id => if id = built.segmentId.toText then .ok built.blob else store.fetch backend id⟩)

theorem storesCompact_storeSegment : StoresCompact storeSegment := by
  constructor
  · intro built store store' h
    unfold storeSegment persistSegmentMapRow at h
    by_cases hold : built.segmentId.toText ∈ store.rows.map SegmentMapRow.segmentId
    · rw [if_pos hold] at h
      exact absurd h (by simp)
    · rw [if_neg hold] at h
      obtain ⟨-, rfl⟩ := Prod.mk.inj h
      refine ⟨_, rfl, rfl, rfl, if_pos rfl, ?_⟩
      intro old hmem
      refine if_neg ?_
      intro heq
      exact hold (heq ▸ List.mem_map_of_mem hmem)
  · intro built store store' e h
    unfold storeSegment at h
    split at h
    · obtain ⟨-, rfl⟩ := Prod.mk.inj h
      exact ⟨rfl, fun old _ => rfl⟩
    · exact absurd h (by simp)

/-- The Merkle cross-check verified every uploaded segment. -/
def verifyUploaded (store : ArchiveStore) : ArchiveStore :=
  { store with rows := store.rows.map fun row => { row with state := .archiveVerified } }

/-- A message of conversation 1. -/
def archivedMessage (mid : Nat) (createdAtMs : Int) : ArchiveEvent :=
  ⟨.messageReceived, ⟨1⟩, some ⟨mid⟩, [], createdAtMs⟩

/-- Its deletion. -/
def archivedDeletion (mid : Nat) (createdAtMs : Int) : ArchiveEvent :=
  ⟨.messageDeleted, ⟨1⟩, some ⟨mid⟩, [], createdAtMs⟩

/-- Every segment of the example has this key. -/
def exampleSegmentKey : KeyMaterial := leBytes 32 11

/-- Seal one event, store it and verify it. -/
def archiveOne (timeBucket : String) (event : ArchiveEvent) (drawn : Nat) (store : ArchiveStore) : ArchiveStore :=
  match buildSegment Primitives.reference (.messageDelta ⟨1⟩ timeBucket [event]) exampleSegmentKey drawn with
  | .ok built => verifyUploaded (storeSegment built store).2
  | .error _ => store

/-- Two messages in January, and the deletion of the first one in February. -/
def exampleArchive : ArchiveStore :=
  archiveOne "1970-02" (archivedDeletion 1 3000000000) 2
    (archiveOne "1970-01" (archivedMessage 2 2000) 1
      (archiveOne "1970-01" (archivedMessage 1 1000) 0
        ⟨[], fun _ _ => .error (.transport (.custom "not found"))⟩))

set_option maxRecDepth 100000 in
/-- Compacting January merges its two segments and leaves the view of the archive as it was. -/
theorem january_compacted : ∃ summary store',
    compactArchiveInner Primitives.reference ⟨1⟩ "1970-01" exampleSegmentKey (fun _ => .ok exampleSegmentKey)
      storeSegment 3 exampleArchive = (.ok summary, store') ∧
    summary.segmentsSuperseded = 2 ∧ summary.segmentsEmitted = 1 ∧ ∀ conv e,
      e ∈ applyArchiveTombstones (archivedEvents Primitives.reference (fun _ => .ok exampleSegmentKey) store' conv) ↔
        e ∈ applyArchiveTombstones
          (archivedEvents Primitives.reference (fun _ => .ok exampleSegmentKey) exampleArchive conv) := by
  rcases hrun : compactArchiveInner Primitives.reference ⟨1⟩ "1970-01" exampleSegmentKey
    (fun _ => .ok exampleSegmentKey) storeSegment 3 exampleArchive with ⟨r, store'⟩
  have hmerged : (compactArchiveInner Primitives.reference ⟨1⟩ "1970-01" exampleSegmentKey
      (fun _ => .ok exampleSegmentKey) storeSegment 3 exampleArchive).1.toOption.map
        (fun summary => (summary.segmentsSuperseded, summary.segmentsEmitted)) = some (2, 1) := by decide +kernel
  rw [hrun] at hmerged
  rcases r with e | summary
  · exact absurd hmerged (by simp [Except.toOption])
  · simp only [Except.toOption, Option.map_some, Option.some.injEq, Prod.mk.injEq] at hmerged
    refine ⟨summary, store', rfl, hmerged.1, hmerged.2, ?_⟩
    exact compactArchive_preserves_view storesCompact_storeSegment rfl hrun

end Archive

end KChatCore
