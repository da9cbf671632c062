import KChatCore.Archive.Compaction
import KChatCore.Archive.Rehydration

/-!
# `Archive.TimelineRehydration` — which skeletons the timeline brings back

`rehydrateTimelineSkeletonsWithRouter` takes every event that names a message for a reason to insert it, and the first
such event it reads gives the row its timestamp.

* `rehydrateEvents_eq` — the exact outcome: one stub for each named message that was not there, from its first event.
* `timelineFaithful_iff` — against what the events say: a message is alive if it was created and not deleted later.
-/

namespace KChatCore.Archive

open Lib LocalStore Message

/-- The event is about message `m` of the conversation. -/
def names (conversationId m : Uuid) (e : ArchiveEvent) : Bool := e.conversationId = conversationId && e.messageId = some m

/-- The event creates message `m` of the conversation. -/
def creates (conversationId m : Uuid) (e : ArchiveEvent) : Prop :=
  names conversationId m e = true ∧ (e.eventType = .messageReceived ∨ e.eventType = .mediaReceived)

/-! ## One bucket, as one list of events -/

section Buckets

variable {F : Platform} {keyForSegment : IdText → Except Error KeyMaterial} {conversationId : Uuid} {receivedAtMs : Int}
  {db : LocalStoreDb}

theorem rehydrateEvents_append (events events' : List ArchiveEvent) (inserted : List MessageSkeleton) (db : LocalStoreDb) :
    rehydrateEvents conversationId receivedAtMs (events ++ events') inserted db =
      match rehydrateEvents conversationId receivedAtMs events inserted db with
      | (.error e, db') => (.error e, db')
      | (.ok inserted', db') => rehydrateEvents conversationId receivedAtMs events' inserted' db' := by
  induction events generalizing inserted db with
  | nil => rfl
  | cons event events ih =>
      simp only [List.cons_append, rehydrateEvents]
      cases event.messageId with
      | none => exact ih inserted db
      | some messageId =>
          by_cases hother : event.conversationId ≠ conversationId
          · simp only [if_pos hother]
            exact ih inserted db
          · simp only [if_neg hother]
            cases toStorage (db.upsertSkeletonFromArchive
                (stubSkeleton conversationId messageId event.createdAtMs receivedAtMs)) with
            | error e => rfl
            | ok result => exact ih _ _

/-- Segments that all open are their events, one after the other. -/
theorem rehydrateSegments_eq {segments : List PrefetchedSegment} {events : List ArchiveEvent}
    (hopen : openSegments F.primitives keyForSegment segments = .ok events) (inserted : List MessageSkeleton)
    (db : LocalStoreDb) :
    rehydrateSegments F keyForSegment conversationId receivedAtMs segments inserted db =
      rehydrateEvents conversationId receivedAtMs events inserted db := by
  induction segments generalizing events inserted db with
  | nil =>
      obtain rfl : events = [] := (Except.ok.inj hopen).symm
      rfl
  | cons segment segments ih =>
      obtain ⟨k, hkey, hopen⟩ := except_bind_eq_ok.mp hopen
      obtain ⟨opened, hopened, hopen⟩ := except_bind_eq_ok.mp hopen
      obtain ⟨rest, hrest, hopen⟩ := except_bind_eq_ok.mp hopen
      obtain rfl := Except.ok.inj hopen
      have hread : (keyForSegment segment.segmentId).bind (openArchiveSegment F.primitives segment.ciphertext) = .ok opened := by
        rw [hkey]
        exact hopened
      unfold rehydrateSegments
      simp only [hread, rehydrateEvents_append]
      rcases rehydrateEvents conversationId receivedAtMs opened inserted db with ⟨_ | inserted', db'⟩
      · rfl
      · exact ih hrest inserted' db'

end Buckets

/-! ## The outcome -/

section Outcome

variable {conversationId : Uuid} {receivedAtMs : Int} {db : LocalStoreDb}

/-- **What the loop inserts**: for each message that was not there and that some event names, the stub of its first
event. -/
theorem rehydrateEvents_eq (receivedAtMs : Int) (hconv : db.conversations.has conversationId = true) (events : List ArchiveEvent)
    (inserted : List MessageSkeleton) :
    ∃ new db', rehydrateEvents conversationId receivedAtMs events inserted db = (.ok (inserted ++ new), db') ∧
      db'.skeletons.rows = db.skeletons.rows ++ new ∧
      ∀ s, s ∈ new ↔ db.skeletons.has s.messageId = false ∧
        ∃ e, events.find? (names conversationId s.messageId) = some e ∧
          s = stubSkeleton conversationId s.messageId e.createdAtMs receivedAtMs := by
  induction events generalizing inserted db with
  | nil => exact ⟨[], db, by simp [rehydrateEvents], by simp, by simp⟩
  | cons event events ih =>
      -- an event that names no message of the conversation is skipped
      have hskip : (∀ m, names conversationId m event = false) →
          ∀ m, (event :: events).find? (names conversationId m) = events.find? (names conversationId m) := by
        intro hno m
        rw [List.find?_cons_of_neg]
        rw [hno m]
        exact Bool.false_ne_true
      unfold rehydrateEvents
      cases hid : event.messageId with
      | none =>
          have hno : ∀ m, names conversationId m event = false := by
            intro m
            simp [names, hid]
          simp only [hskip hno]
          exact ih hconv inserted
      | some messageId =>
          by_cases hother : event.conversationId ≠ conversationId
          · have hno : ∀ m, names conversationId m event = false := by
              intro m
              simp [names, hother]
            simp only [if_pos hother, hskip hno]
            exact ih hconv inserted
          have hsame : event.conversationId = conversationId := not_not.mp hother
          have hnames : ∀ m, names conversationId m event = decide (messageId = m) := by
            intro m
            simp [names, hsame, hid]
          -- past the head, only other messages find their first event
          have hfind : ∀ m, (event :: events).find? (names conversationId m) =
              if messageId = m then some event else events.find? (names conversationId m) := by
            intro m
            rw [List.find?_cons, hnames m]
            by_cases hm : messageId = m <;> simp [hm]
          simp only [if_neg hother]
          generalize hstub : stubSkeleton conversationId messageId event.createdAtMs receivedAtMs = stub
          have hstubId : stub.messageId = messageId := by rw [← hstub, stubSkeleton]
          have hstubConv : stub.conversationId = conversationId := by rw [← hstub, stubSkeleton]
          by_cases hfree : db.skeletons.has stub.messageId = false
          · -- the message is new: its stub lands
            have hregistered : db.conversations.has stub.conversationId = true := by rw [hstubConv, hconv]
            have hrows : (db.addSkeleton stub hfree hregistered).skeletons.rows = db.skeletons.rows ++ [stub] := rfl
            have hupsert : toStorage (db.upsertSkeletonFromArchive stub) = .ok (db.addSkeleton stub hfree hregistered, true) :=
              toStorage_eq_ok.mpr (LocalStoreDb.upsertSkeletonFromArchive_free hfree hregistered)
            have hconv' : (db.addSkeleton stub hfree hregistered).conversations.has conversationId = true := hconv
            obtain ⟨new, db', hrun, hnew, hmem⟩ := ih hconv' (inserted ++ [stub])
            refine ⟨stub :: new, db', ?_, ?_, ?_⟩
            · simpa [hupsert] using hrun
            · rw [hnew, hrows, List.append_assoc]
              rfl
            · intro s
              have hhas : (db.addSkeleton stub hfree hregistered).skeletons.has s.messageId = false ↔
                  messageId ≠ s.messageId ∧ db.skeletons.has s.messageId = false := by
                rw [← hstubId]
                simp only [Table.has_eq_false, hrows, List.mem_append, List.mem_singleton]
                constructor
                · intro h
                  exact ⟨h _ (.inr rfl), fun r hr => h r (.inl hr)⟩
                · rintro ⟨hne, h⟩ r (hr | rfl)
                  · exact h r hr
                  · exact hne
              rw [List.mem_cons, hmem s, hhas, hfind]
              by_cases hm : messageId = s.messageId
              · rw [if_pos hm, ← hm]
                rw [hstubId] at hfree
                simp only [ne_eq, not_true_eq_false, false_and, or_false, hfree, true_and, Option.some.injEq,
                  exists_eq_left', hstub]
              · rw [if_neg hm]
                constructor
                · rintro (rfl | ⟨⟨-, hold⟩, hfirst⟩)
                  · exact absurd hstubId.symm hm
                  · exact ⟨hold, hfirst⟩
                · rintro ⟨hold, hfirst⟩
                  exact .inr ⟨⟨hm, hold⟩, hfirst⟩
          · -- the message is there: the row wins
            have hthere : db.skeletons.has stub.messageId = true := by simpa using hfree
            have hupsert : toStorage (db.upsertSkeletonFromArchive stub) = .ok (db, false) :=
              toStorage_eq_ok.mpr (LocalStoreDb.upsertSkeletonFromArchive_there hthere)
            obtain ⟨new, db', hrun, hnew, hmem⟩ := ih hconv inserted
            refine ⟨new, db', by simpa [hupsert] using hrun, hnew, ?_⟩
            intro s
            rw [hmem s, hfind]
            by_cases hm : messageId = s.messageId
            · rw [hstubId, hm] at hthere
              simp [hthere]
            · rw [if_neg hm]

/-- Events that name no message insert none. -/
theorem rehydrateEvents_unnamed {events : List ArchiveEvent} (hno : ∀ e ∈ events, ∀ m, names conversationId m e = false)
    (inserted : List MessageSkeleton) :
    rehydrateEvents conversationId receivedAtMs events inserted db = (.ok inserted, db) := by
  induction events with
  | nil => rfl
  | cons event events ih =>
      have hrest := ih fun e he => hno e (List.mem_cons_of_mem _ he)
      unfold rehydrateEvents
      cases hid : event.messageId with
      | none => exact hrest
      | some messageId =>
          have hother : event.conversationId ≠ conversationId := by
            intro hsame
            have hname := hno event List.mem_cons_self messageId
            simp [names, hsame, hid] at hname
          simp only [if_pos hother]
          exact hrest

/-- Without the conversation's row the first stub fails. -/
theorem rehydrateEvents_unregistered (receivedAtMs : Int) (hconv : db.conversations.has conversationId = false) {events : List ArchiveEvent}
    (hfree : ∀ m, ∀ e ∈ events, names conversationId m e = true → db.skeletons.has m = false)
    (hnamed : ∃ m, ∃ e ∈ events, names conversationId m e = true) (inserted : List MessageSkeleton) :
    ∃ error, rehydrateEvents conversationId receivedAtMs events inserted db = (.error error, db) := by
  induction events with
  | nil =>
      obtain ⟨m, e, he, -⟩ := hnamed
      exact absurd he (by simp)
  | cons event events ih =>
      have hrest : ∀ m, ∀ e ∈ events, names conversationId m e = true → db.skeletons.has m = false := by
        intro m e he
        exact hfree m e (List.mem_cons_of_mem _ he)
      -- a head that names no message of the conversation leaves it to the rest
      have hskip : (∀ m, names conversationId m event = false) → ∃ m, ∃ e ∈ events, names conversationId m e = true := by
        intro hno
        obtain ⟨m, e, he, hname⟩ := hnamed
        rcases List.mem_cons.mp he with rfl | he
        · rw [hno m] at hname
          exact absurd hname Bool.false_ne_true
        · exact ⟨m, e, he, hname⟩
      unfold rehydrateEvents
      cases hid : event.messageId with
      | none => exact ih hrest (hskip fun m => by simp [names, hid])
      | some messageId =>
          by_cases hother : event.conversationId ≠ conversationId
          · simp only [if_pos hother]
            exact ih hrest (hskip fun m => by simp [names, hother])
          have hname : names conversationId messageId event = true := by simp [names, not_not.mp hother, hid]
          have hnew : db.skeletons.has messageId = false := hfree messageId event List.mem_cons_self hname
          have hupsert : db.upsertSkeletonFromArchive
              (stubSkeleton conversationId messageId event.createdAtMs receivedAtMs) = .error _ :=
            LocalStoreDb.upsertSkeletonFromArchive_unregistered hnew hconv
          simp only [if_neg hother, hupsert]
          exact ⟨_, rfl⟩

end Outcome

/-! ## What the events say -/

/-- **The message is alive**: it was created, and no later event of the list deletes it or its conversation. -/
def Alive (archived : List ArchiveEvent) (conversationId m : Uuid) : Prop :=
  ∃ before e after, archived = before ++ e :: after ∧ creates conversationId m e ∧
    ∀ t ∈ after, archiveTombstoneCovers t e = false

/-- **The timeline is what the events say**: the call succeeds, it inserts exactly the messages that are alive, and each
row has the timestamp of an event that creates its message. -/
structure TimelineFaithful (archived : List ArchiveEvent) (conversationId : Uuid) (db : LocalStoreDb)
    (result : Except Error (List MessageSkeleton) × LocalStoreDb) : Prop where
  returned : ∃ inserted, result.1 = .ok inserted ∧ result.2.skeletons.rows = db.skeletons.rows ++ inserted
  exact : ∀ inserted, result.1 = .ok inserted → ∀ m, (∃ s ∈ inserted, s.messageId = m) ↔ Alive archived conversationId m
  timestamps : ∀ inserted, result.1 = .ok inserted → ∀ s ∈ inserted, ∃ e ∈ archived,
    creates conversationId s.messageId e ∧ s.createdAtMs = e.createdAtMs

/-- **Events the timeline gets right**: the conversation is there, and whatever message they name is alive, with the
timestamp of an event that creates it in the first event read. -/
structure TimelineSound (events archived : List ArchiveEvent) (conversationId : Uuid) (db : LocalStoreDb) : Prop where
  registered : ∀ m, ∀ e ∈ events, names conversationId m e = true → db.conversations.has conversationId = true
  alive : ∀ m, ∀ e ∈ events, names conversationId m e = true → Alive archived conversationId m
  first : ∀ m e, events.find? (names conversationId m) = some e → ∃ c ∈ archived, creates conversationId m c ∧
    e.createdAtMs = c.createdAtMs

section Faithful

variable {F : Platform} {archive : ArchiveStore} {keyForSegment : IdText → Except Error KeyMaterial} {conversationId : Uuid}
  {timeBucket : String} {receivedAtMs : Int} {db : LocalStoreDb} {segments : List PrefetchedSegment}
  {events archived : List ArchiveEvent}

/-- An alive message is named by an event of the list. -/
theorem named_of_alive {m : Uuid} (h : Alive archived conversationId m) :
    ∃ e ∈ archived, names conversationId m e = true := by
  obtain ⟨before, e, after, rfl, hcreates, -⟩ := h
  exact ⟨e, by simp, hcreates.1⟩

/-- **The timeline is faithful exactly on sound events.** `archived` is the order the events were archived in, `events`
the order the segments are read in. -/
theorem timelineFaithful_iff (hlocal : ∀ m, ∀ e ∈ events, names conversationId m e = true → db.skeletons.has m = false)
    (hfetch : batchPrefetchBucketWithRouter archive conversationId timeBucket = .ok segments)
    (hopen : openSegments F.primitives keyForSegment segments = .ok events) (hperm : archived.Perm events) :
    TimelineFaithful archived conversationId db
        (rehydrateTimelineSkeletonsWithRouter F archive conversationId timeBucket keyForSegment receivedAtMs db) ↔
      TimelineSound events archived conversationId db := by
  have hrun : rehydrateTimelineSkeletonsWithRouter F archive conversationId timeBucket keyForSegment receivedAtMs db =
      rehydrateEvents conversationId receivedAtMs events [] db := by
    rw [rehydrateTimelineSkeletonsWithRouter, hfetch]
    exact rehydrateSegments_eq hopen [] db
  rw [hrun]
  by_cases hnamed : ∃ m, ∃ e ∈ events, names conversationId m e = true
  · by_cases hconv : db.conversations.has conversationId = true
    · obtain ⟨new, db', hout, hrows, hmem⟩ := rehydrateEvents_eq receivedAtMs hconv events []
      rw [List.nil_append] at hout
      rw [hout]
      -- the messages inserted are the messages named
      have hnew : ∀ m, (∃ s ∈ new, s.messageId = m) ↔ ∃ e ∈ events, names conversationId m e = true := by
        intro m
        constructor
        · rintro ⟨s, hs, rfl⟩
          obtain ⟨-, e, hfirst, -⟩ := (hmem s).mp hs
          exact ⟨e, List.mem_of_find?_eq_some hfirst, List.find?_some hfirst⟩
        · rintro ⟨e, he, hname⟩
          obtain ⟨first, hfirst⟩ := Option.isSome_iff_exists.mp (List.find?_isSome.mpr ⟨e, he, hname⟩)
          exact ⟨stubSkeleton conversationId m first.createdAtMs receivedAtMs,
            (hmem _).mpr ⟨hlocal m e he hname, first, hfirst, rfl⟩, rfl⟩
      constructor
      · rintro ⟨-, hexact, htimes⟩
        refine ⟨fun _ _ _ _ => hconv, ?_, ?_⟩
        · intro m e he hname
          exact (hexact new rfl m).mp ((hnew m).mpr ⟨e, he, hname⟩)
        · intro m e hfirst
          have hname := List.find?_some hfirst
          have hfree := hlocal m e (List.mem_of_find?_eq_some hfirst) hname
          exact htimes new rfl (stubSkeleton conversationId m e.createdAtMs receivedAtMs) ((hmem _).mpr ⟨hfree, e, hfirst, rfl⟩)
      · rintro ⟨-, halive, hfirst⟩
        refine ⟨⟨new, rfl, hrows⟩, ?_, ?_⟩
        · intro inserted hinserted m
          obtain rfl := Except.ok.inj hinserted
          rw [hnew m]
          constructor
          · rintro ⟨e, he, hname⟩
            exact halive m e he hname
          · intro h
            obtain ⟨e, he, hname⟩ := named_of_alive h
            exact ⟨e, hperm.mem_iff.mp he, hname⟩
        · intro inserted hinserted s hs
          obtain rfl := Except.ok.inj hinserted
          obtain ⟨-, e, hfind, hstub⟩ := (hmem s).mp hs
          obtain ⟨c, hc, hcreates, htime⟩ := hfirst s.messageId e hfind
          exact ⟨c, hc, hcreates, (congrArg MessageSkeleton.createdAtMs hstub).trans htime⟩
    · -- the first stub breaks the reference to the conversation
      obtain ⟨error, hout⟩ := rehydrateEvents_unregistered receivedAtMs (Bool.eq_false_iff.mpr hconv)
        hlocal hnamed []
      rw [hout]
      constructor
      · rintro ⟨⟨inserted, hinserted, -⟩, -, -⟩
        exact absurd hinserted (by simp)
      · intro hsound
        obtain ⟨m, e, he, hname⟩ := hnamed
        exact absurd (hsound.registered m e he hname) hconv
  · have hno : ∀ e ∈ events, ∀ m, names conversationId m e = false := by
      intro e he m
      exact Bool.eq_false_iff.mpr fun hname => hnamed ⟨m, e, he, hname⟩
    rw [rehydrateEvents_unnamed hno []]
    constructor
    · intro _
      refine ⟨fun m e he hname => absurd ⟨m, e, he, hname⟩ hnamed, fun m e he hname => absurd ⟨m, e, he, hname⟩ hnamed, ?_⟩
      intro m e hfirst
      exact absurd ⟨m, e, List.mem_of_find?_eq_some hfirst, List.find?_some hfirst⟩ hnamed
    · intro _
      refine ⟨⟨[], rfl, by simp⟩, ?_, ?_⟩
      · intro inserted hinserted m
        obtain rfl := Except.ok.inj hinserted
        constructor
        · rintro ⟨s, hs, -⟩
          exact absurd hs (by simp)
        · intro h
          obtain ⟨e, he, hname⟩ := named_of_alive h
          exact absurd ⟨m, e, hperm.mem_iff.mp he, hname⟩ hnamed
      · intro inserted hinserted s hs
        obtain rfl := Except.ok.inj hinserted
        exact absurd hs (by simp)

end Faithful

/-! A message in an archive of one segment, alone and with its deletion. -/

/-- What a reader of such a segment gets. -/
theorem oneSegment_reads (events : List ArchiveEvent) (hne : events ≠ []) : ∃ built,
    batchPrefetchBucketWithRouter (oneSegment "1970-01" built) ⟨1⟩ "1970-01" =
        .ok [⟨built.segmentId.toText, "blob", "kchat_backend", built.blob⟩] ∧
      openSegments Platform.bare.primitives (fun _ => .ok exampleSegmentKey)
        [⟨built.segmentId.toText, "blob", "kchat_backend", built.blob⟩] = .ok events := by
  obtain ⟨built, hbuilt⟩ : ∃ built, buildSegment Platform.bare.primitives (.messageDelta ⟨1⟩ "1970-01" events)
      exampleSegmentKey 0 = .ok built := buildSegment_isOk hne rfl
  have hopen : openArchiveSegment Platform.bare.primitives built.blob exampleSegmentKey = .ok events :=
    openArchiveSegment_blob hbuilt
  refine ⟨built, batchPrefetch_oneSegment "1970-01" built, ?_⟩
  exact except_bind_eq_ok.mpr ⟨exampleSegmentKey, rfl, except_bind_eq_ok.mpr ⟨events, hopen, except_bind_eq_ok.mpr
    ⟨[], rfl, congrArg Except.ok (List.append_nil events)⟩⟩⟩

theorem timelineFaithful_message : ∃ archive,
    TimelineFaithful [archivedMessage 2 1000] ⟨1⟩ (.fresh oneConversation)
        (rehydrateTimelineSkeletonsWithRouter .bare archive ⟨1⟩ "1970-01" (fun _ => .ok exampleSegmentKey) 5000
          (.fresh oneConversation)) ↔
      TimelineSound [archivedMessage 2 1000] [archivedMessage 2 1000] ⟨1⟩ (.fresh oneConversation) := by
  obtain ⟨built, hfetch, hopen⟩ := oneSegment_reads [archivedMessage 2 1000] (by simp)
  exact ⟨oneSegment "1970-01" built, timelineFaithful_iff (fun _ _ _ _ => rfl) hfetch hopen (List.Perm.refl _)⟩

/-- **A deleted message comes back into the timeline.** -/
theorem deleted_message_in_timeline : ∃ archive segments events,
    batchPrefetchBucketWithRouter archive ⟨1⟩ "1970-01" = .ok segments ∧
    openSegments Platform.bare.primitives (fun _ => .ok exampleSegmentKey) segments = .ok events ∧
    ¬ TimelineFaithful events ⟨1⟩ (.fresh oneConversation)
      (rehydrateTimelineSkeletonsWithRouter .bare archive ⟨1⟩ "1970-01" (fun _ => .ok exampleSegmentKey) 5000
        (.fresh oneConversation)) := by
  obtain ⟨built, hfetch, hopen⟩ := oneSegment_reads [archivedMessage 2 1000, archivedDeletion 2 2000] (by simp)
  refine ⟨oneSegment "1970-01" built, _, _, hfetch, hopen, ?_⟩
  have hconv : (LocalStoreDb.fresh oneConversation).conversations.has ⟨1⟩ = true := by decide
  obtain ⟨new, db', hout, -, hmem⟩ := rehydrateEvents_eq 5000 hconv [archivedMessage 2 1000, archivedDeletion 2 2000] []
  have hrun : rehydrateTimelineSkeletonsWithRouter .bare (oneSegment "1970-01" built) ⟨1⟩ "1970-01"
      (fun _ => .ok exampleSegmentKey) 5000 (.fresh oneConversation) = (.ok new, db') := by
    rw [rehydrateTimelineSkeletonsWithRouter, hfetch]
    exact (rehydrateSegments_eq hopen [] _).trans hout
  rw [hrun]
  intro hfaithful
  have hinserted : stubSkeleton ⟨1⟩ ⟨2⟩ 1000 5000 ∈ new := (hmem _).mpr ⟨rfl, archivedMessage 2 1000, rfl, rfl⟩
  obtain ⟨before, e, after, hsplit, hcreates, hlater⟩ := (hfaithful.exact new rfl ⟨2⟩).mp ⟨_, hinserted, rfl⟩
  -- the creation is the first event, and the deletion is later
  cases before with
  | nil =>
      obtain ⟨rfl, rfl⟩ := List.cons.inj hsplit
      exact absurd (hlater (archivedDeletion 2 2000) List.mem_cons_self) (by decide)
  | cons first before =>
      have hin : e ∈ [archivedDeletion 2 2000] := by
        rw [(List.cons.inj hsplit).2]
        simp
      rw [List.mem_singleton.mp hin] at hcreates
      exact absurd hcreates.2 (by decide)

end KChatCore.Archive
