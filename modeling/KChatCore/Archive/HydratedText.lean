import KChatCore.Archive.DeletionStands
import KChatCore.Message.ArchivedText

/-!
# `Archive.HydratedText` — which text cold hydration brings back

`hydrateColdSearchResults` reads the buckets its results lie in, row after row, and writes every text it meets. So the
text that stays is the last one read. Edits lie in the bucket of the day they were made, rows come in any order, and a
deletion is passed over.

* `textOf_runPlan` — after a plan each message has the text of the last write to it.
* `restoresLatest_iff` — when that is the text of the message's last event.
* `readsLatestLast_of_unedited` — a message that was never edited or deleted comes back right from any archive.
-/

namespace KChatCore.Archive

open Lib LocalStore Message

/-! ## The history of a message -/

/-- What happened to one message: it arrived, was edited, and perhaps deleted. -/
structure MessageHistory where
  skel : MessageSkeleton
  text : Option String
  edits : List (String × Int)
  deletion : Option (DeleteScope × Int)

namespace MessageHistory

/-- The archive event of an edit. -/
def editedEvent (F : Platform) (h : MessageHistory) (edit : String × Int) : ArchiveEvent :=
  ⟨.messageEdited, h.skel.conversationId, some h.skel.messageId, encodeBodyPayload F.primitives (some edit.1), edit.2⟩

/-- The archive event of the deletion. -/
def deletedEvent (h : MessageHistory) (deletion : DeleteScope × Int) : ArchiveEvent :=
  ⟨.messageDeleted, h.skel.conversationId, some h.skel.messageId,
    encodeDeleteEventPayload h.skel.messageId deletion.1.label, deletion.2⟩

/-- The events of the history, in journal order. -/
def journal (F : Platform) (h : MessageHistory) : List ArchiveEvent :=
  receivedEvent F h.skel h.text :: (h.edits.map (h.editedEvent F) ++ (h.deletion.map h.deletedEvent).toList)

/-- The text of the last `MessageReceived` or `MessageEdited` event. -/
def latestText (h : MessageHistory) : Option String :=
  match h.edits.getLast? with
  | none => h.text
  | some edit => some edit.1

/-- **The archive holds the history**: what it has of the message are the events of the history, each in some segment. -/
structure ArchivedIn (F : Platform) (archive : ArchiveStore) (keyForSegment : IdText → Except Error KeyMaterial)
    (h : MessageHistory) : Prop where
  sound : ∀ c, ∀ e ∈ archivedEvents F.primitives keyForSegment archive c, e.messageId = some h.skel.messageId → e ∈ h.journal F
  complete : ∀ e ∈ h.journal F, e ∈ archivedEvents F.primitives keyForSegment archive h.skel.conversationId

end MessageHistory

/-! ## The text that stays -/

/-- The text of a message. -/
def textOf (db : LocalStoreDb) (m : Uuid) : Option String := (db.bodies.find? m).bind MessageBody.textContent

/-- The text of the last write to a message. -/
def lastWrite (writes : List ColdWrite) (m : Uuid) : Option String :=
  ((writes.filter fun w => w.1 = m).getLast?).map Prod.snd

section Writes

variable {F : Platform} {db db' : LocalStoreDb} {m : Uuid}

theorem lastWrite_cons (w : ColdWrite) (writes : List ColdWrite) (m : Uuid) :
    lastWrite (w :: writes) m = (lastWrite writes m).or (if w.1 = m then some w.2 else none) := by
  unfold lastWrite
  by_cases hm : w.1 = m
  · rw [List.filter_cons_of_pos (by simpa using hm), List.getLast?_cons, if_pos hm]
    cases (writes.filter fun w => w.1 = m).getLast? <;> rfl
  · rw [List.filter_cons_of_neg (by simpa using hm), if_neg hm, Option.or_none]

theorem lastWrite_eq_none {writes : List ColdWrite} : lastWrite writes m = none ↔ ∀ w ∈ writes, w.1 ≠ m := by
  simp [lastWrite]

theorem textOf_of_view (h : db'.view m = db.view m) : textOf db' m = textOf db m := by
  have hbody : db'.bodies.find? m = db.bodies.find? m := congrArg MessageView.body h
  rw [textOf, textOf, hbody]

/-- A rehydrated body has the text it was given. -/
theorem textOf_rehydrateMessageBodyLocally {text : String} {newBodyState : BodyState}
    (h : rehydrateMessageBodyLocally F db m text newBodyState = .ok db') : textOf db' m = some text := by
  obtain ⟨skel, hskel, -, rfl⟩ := rehydrateMessageBodyLocally_eq_ok h
  -- the writes after the upsert are to other tables
  show textOf (db.upsertMessageBody m text hskel) m = some text
  unfold LocalStoreDb.upsertMessageBody
  by_cases hfree : db.bodies.has m = false
  · rw [dif_pos hfree]
    have hview := @LocalStoreDb.view_addBody db ⟨m, some text, none, none⟩ hfree hskel m
    rw [if_pos rfl] at hview
    have hbody := congrArg MessageView.body hview
    rw [textOf]
    exact congrArg (fun body => Option.bind body MessageBody.textContent) hbody
  · rw [dif_neg hfree]
    have hview := db.view_updateMessageBodyText m text m
    rw [if_pos rfl] at hview
    have hbody := congrArg MessageView.body hview
    have hthere : (db.bodies.find? m).isSome = true := by
      rw [Bool.not_eq_false] at hfree
      exact hfree
    obtain ⟨body, hfind⟩ := Option.isSome_iff_exists.mp hthere
    rw [hfind] at hbody
    rw [textOf]
    exact congrArg (fun body => Option.bind body MessageBody.textContent) hbody

/-- **After a plan each message has the text of the last write to it.** -/
theorem textOf_runPlan (plan : List (Except Error ColdWrite)) (hydrated : Nat) (db : LocalStoreDb) (m : Uuid) :
    textOf (runPlan F plan hydrated db).2 m = (lastWrite (performed db plan) m).or (textOf db m) := by
  induction plan generalizing hydrated db with
  | nil => rfl
  | cons item plan ih =>
      cases item with
      | error e => rfl
      | ok w =>
          unfold runPlan
          cases hwrite : rehydrateMessageBodyLocally F db w.1 w.2 .localPlainAvailable with
          | error e =>
              -- only a message that is not there stops the plan
              have hgone : db.skeletons.has w.1 = false := by
                rw [← Bool.not_eq_true]
                intro hskel
                obtain ⟨db', hok⟩ := rehydrateMessageBodyLocally_isOk (F := F) w.2 .localPlainAvailable hskel
                rw [hok] at hwrite
                exact absurd hwrite (by simp)
              have hnothing : performed db (.ok w :: plan) = [] := by
                apply List.takeWhile_cons_of_neg
                rw [hgone]
                exact Bool.false_ne_true
              rw [hnothing]
              rfl
          | ok db' =>
              have hhere : performed db (.ok w :: plan) = w :: performed db plan := by
                exact List.takeWhile_cons_of_pos (has_of_rehydrateMessageBodyLocally hwrite)
              have hrest : performed db' plan = performed db plan :=
                performed_congr (has_rehydrateMessageBodyLocally hwrite) plan
              have htext : textOf db' m = (if w.1 = m then some w.2 else none).or (textOf db m) := by
                by_cases hm : w.1 = m
                · rw [if_pos hm, ← hm, textOf_rehydrateMessageBodyLocally hwrite]
                  rfl
                · rw [if_neg hm, Option.none_or]
                  apply textOf_of_view
                  exact view_rehydrateMessageBodyLocally hwrite (Ne.symm hm)
              simp only [ih, hrest, htext, hhere, lastWrite_cons, Option.or_assoc]

end Writes

/-! ## Against the history -/

/-- The call writes a body for the message. -/
def WritesBody (F : Platform) (archive : ArchiveStore) (results : List SearchResult)
    (keyForSegment : IdText → Except Error KeyMaterial) (db : LocalStoreDb) (m : Uuid) : Prop :=
  ∃ w ∈ performed db (coldPlan F archive results keyForSegment), w.1 = m

/-- **Cold hydration restores the latest text**: a body it writes is that of the last event, and a deleted message gets
none. -/
def RestoresLatest (F : Platform) (archive : ArchiveStore) (results : List SearchResult)
    (keyForSegment : IdText → Except Error KeyMaterial) (db : LocalStoreDb) (h : MessageHistory) : Prop :=
  WritesBody F archive results keyForSegment db h.skel.messageId →
    h.deletion = none ∧
      textOf (hydrateColdSearchResults F archive results keyForSegment db).2 h.skel.messageId = h.latestText

/-! ## What is read -/

/-- The events of a segment that bring a text for one of the wanted messages, each with its write; or the error the
segment ends the call with. -/
def segmentReads (F : Platform) (keyForSegment : IdText → Except Error KeyMaterial) (conversationId : Uuid)
    (wanted : List Uuid) (segment : PrefetchedSegment) : List (Except Error (ArchiveEvent × ColdWrite)) :=
  match (keyForSegment segment.segmentId).bind (openArchiveSegment F.primitives segment.ciphertext) with
  | .error e => [.error e]
  | .ok events => (events.filterMap fun e => (wantedText F conversationId wanted e).map (Prod.mk e)).map .ok

/-- Those of a bucket, row after row. -/
def bucketReads (F : Platform) (archive : ArchiveStore) (keyForSegment : IdText → Except Error KeyMaterial)
    (bucket : (Uuid × String) × List Uuid) : List (Except Error (ArchiveEvent × ColdWrite)) :=
  match batchPrefetchBucketWithRouter archive bucket.1.1 bucket.1.2 with
  | .error e => [.error e]
  | .ok segments => segments.flatMap (segmentReads F keyForSegment bucket.1.1 bucket.2)

/-- Those of the buckets the results lie in, bucket after bucket. -/
def coldReads (F : Platform) (archive : ArchiveStore) (results : List SearchResult)
    (keyForSegment : IdText → Except Error KeyMaterial) : List (Except Error (ArchiveEvent × ColdWrite)) :=
  (coldBuckets results).flatMap (bucketReads F archive keyForSegment)

/-- What comes before the first error. -/
def beforeError {α : Type} : List (Except Error α) → List α
  | .ok a :: items => a :: beforeError items
  | _ => []

/-- **The text events of a message that the call comes to**, in the order it reads them: up to the first segment that
cannot be had, or the first message that is not in the store. -/
def eventsRead (F : Platform) (archive : ArchiveStore) (results : List SearchResult)
    (keyForSegment : IdText → Except Error KeyMaterial) (db : LocalStoreDb) (m : Uuid) : List ArchiveEvent :=
  (((beforeError (coldReads F archive results keyForSegment)).takeWhile fun read => db.skeletons.has read.2.1).filter
    fun read => read.2.1 = m).map Prod.fst

/-- The last text event that is read is as good as the message's last one, and no deletion follows it. -/
def ReadsLatestLast (F : Platform) (archive : ArchiveStore) (results : List SearchResult)
    (keyForSegment : IdText → Except Error KeyMaterial) (db : LocalStoreDb) (h : MessageHistory) : Prop :=
  ∀ e, (eventsRead F archive results keyForSegment db h.skel.messageId).getLast? = some e →
    h.deletion = none ∧ tryDecodeText F.primitives e.payload = h.latestText

section Reads

variable {F : Platform} {archive : ArchiveStore} {results : List SearchResult}
  {keyForSegment : IdText → Except Error KeyMaterial} {conversationId : Uuid} {wanted : List Uuid}

theorem segmentPlan_eq (segment : PrefetchedSegment) :
    segmentPlan F keyForSegment conversationId wanted segment =
      (segmentReads F keyForSegment conversationId wanted segment).map (Except.map Prod.snd) := by
  unfold segmentPlan segmentReads
  cases (keyForSegment segment.segmentId).bind (openArchiveSegment F.primitives segment.ciphertext) with
  | error e => rfl
  | ok events =>
      simp only [List.map_filterMap]
      induction events with
      | nil => rfl
      | cons event events ih =>
          cases hwanted : wantedText F conversationId wanted event with
          | none => simpa [hwanted] using ih
          | some w => simpa [hwanted, Except.map] using ih

/-- **The plan is what is read**, without the events. -/
theorem coldPlan_eq : coldPlan F archive results keyForSegment =
    (coldReads F archive results keyForSegment).map (Except.map Prod.snd) := by
  unfold coldPlan coldReads
  rw [List.map_flatMap]
  congr 1
  funext bucket
  unfold bucketPlan bucketReads
  cases batchPrefetchBucketWithRouter archive bucket.1.1 bucket.1.2 with
  | error e => rfl
  | ok segments =>
      simp only [List.map_flatMap, ← segmentPlan_eq]

theorem planned_map (items : List (Except Error (ArchiveEvent × ColdWrite))) :
    planned (items.map (Except.map Prod.snd)) = (beforeError items).map Prod.snd := by
  induction items with
  | nil => rfl
  | cons item items ih =>
      cases item with
      | error e => rfl
      | ok read =>
          show read.2 :: planned (items.map (Except.map Prod.snd)) = _
          rw [ih]
          rfl

theorem mem_of_mem_beforeError {α : Type} {a : α} {items : List (Except Error α)} (h : a ∈ beforeError items) :
    .ok a ∈ items := by
  induction items with
  | nil => exact absurd h (by simp [beforeError])
  | cons item items ih =>
      cases item with
      | error e => exact absurd h (by simp [beforeError])
      | ok b =>
          rcases List.mem_cons.mp h with rfl | h
          · exact List.mem_cons_self
          · exact List.mem_cons_of_mem _ (ih h)

/-- An event that is read is archived, and its write is its text. -/
theorem mem_coldReads {e : ArchiveEvent} {w : ColdWrite} (h : .ok (e, w) ∈ coldReads F archive results keyForSegment) :
    e.messageId = some w.1 ∧ (e.eventType = .messageReceived ∨ e.eventType = .messageEdited) ∧
      tryDecodeText F.primitives e.payload = some w.2 ∧
      ∃ c, e ∈ archivedEvents F.primitives keyForSegment archive c := by
  obtain ⟨bucket, -, h⟩ := List.mem_flatMap.mp h
  unfold bucketReads at h
  cases hfetch : batchPrefetchBucketWithRouter archive bucket.1.1 bucket.1.2 with
  | error e' =>
      rw [hfetch] at h
      exact absurd h (by simp)
  | ok segments =>
      rw [hfetch] at h
      obtain ⟨segment, hsegment, h⟩ := List.mem_flatMap.mp h
      unfold segmentReads at h
      cases hopen : (keyForSegment segment.segmentId).bind (openArchiveSegment F.primitives segment.ciphertext) with
      | error e' =>
          rw [hopen] at h
          exact absurd h (by simp)
      | ok events =>
          rw [hopen] at h
          obtain ⟨read, hread, hok⟩ := List.mem_map.mp h
          obtain rfl := Except.ok.inj hok
          obtain ⟨e', he', hmap⟩ := List.mem_filterMap.mp hread
          obtain ⟨w', hwanted, hpair⟩ := Option.map_eq_some_iff.mp hmap
          obtain ⟨rfl, rfl⟩ := Prod.mk.inj hpair
          -- the one segment is opened as a bucket of its own
          have harchived : e' ∈ archivedEvents F.primitives keyForSegment archive bucket.1.1 := by
            have hchosen : [segment] ⊆ segments := by simpa using hsegment
            apply openBucket_subset hfetch hchosen _ he'
            obtain ⟨k, hkey, hopened⟩ := except_bind_eq_ok.mp hopen
            simp [openSegments, hkey, hopened, bind, Except.bind, pure, Except.pure]
          -- an event is wanted by its type, once it names a message that a result names
          unfold wantedText at hwanted
          cases hid : e'.messageId with
          | none =>
              rw [hid] at hwanted
              exact absurd hwanted (by simp)
          | some m =>
              rw [hid] at hwanted
              dsimp only at hwanted
              split at hwanted
              · exact absurd hwanted (by simp)
              · split at hwanted
                · next htype =>
                    obtain ⟨text, htext, rfl⟩ := Option.map_eq_some_iff.mp hwanted
                    exact ⟨rfl, .inl htype, htext, _, harchived⟩
                · next htype =>
                    obtain ⟨text, htext, rfl⟩ := Option.map_eq_some_iff.mp hwanted
                    exact ⟨rfl, .inr htype, htext, _, harchived⟩
                · exact absurd hwanted (by simp)

end Reads

section Latest

variable {F : Platform} {archive : ArchiveStore} {results : List SearchResult}
  {keyForSegment : IdText → Except Error KeyMaterial} {db : LocalStoreDb} {h : MessageHistory} {m : Uuid}

/-- The events that are read, and the writes they lead to. -/
theorem performed_eq : performed db (coldPlan F archive results keyForSegment) =
    ((beforeError (coldReads F archive results keyForSegment)).takeWhile fun read => db.skeletons.has read.2.1).map Prod.snd := by
  rw [performed, coldPlan_eq, planned_map, List.takeWhile_map]
  rfl

/-- Every event that is read brings a text of the message, out of the archive. -/
theorem of_mem_eventsRead {e : ArchiveEvent} (he : e ∈ eventsRead F archive results keyForSegment db m) :
    e.messageId = some m ∧ (e.eventType = .messageReceived ∨ e.eventType = .messageEdited) ∧
      (∃ text, tryDecodeText F.primitives e.payload = some text) ∧
      ∃ c, e ∈ archivedEvents F.primitives keyForSegment archive c := by
  obtain ⟨⟨e', w⟩, hread, rfl⟩ := List.mem_map.mp he
  obtain ⟨hread, hm⟩ := List.mem_filter.mp hread
  obtain ⟨hid, htype, htext, harchived⟩ :=
    mem_coldReads (mem_of_mem_beforeError ((List.takeWhile_prefix _).subset hread))
  rw [decide_eq_true_eq] at hm
  exact ⟨hm ▸ hid, htype, ⟨_, htext⟩, harchived⟩

/-- The last write to a message has the text of the last event read of it. -/
theorem lastWrite_performed : lastWrite (performed db (coldPlan F archive results keyForSegment)) m =
    (eventsRead F archive results keyForSegment db m).getLast?.bind fun e => tryDecodeText F.primitives e.payload := by
  rw [performed_eq, lastWrite, eventsRead, List.filter_map, List.getLast?_map, List.getLast?_map]
  cases hlast : (((beforeError (coldReads F archive results keyForSegment)).takeWhile
      fun read => db.skeletons.has read.2.1).filter fun read => read.2.1 = m).getLast? with
  | none =>
      simp only [Function.comp_def]
      rw [hlast]
      rfl
  | some read =>
      obtain ⟨hread, -⟩ := List.mem_filter.mp (List.mem_of_getLast? hlast)
      obtain ⟨-, -, htext, -⟩ := mem_coldReads (mem_of_mem_beforeError ((List.takeWhile_prefix _).subset hread))
      simp only [Function.comp_def]
      rw [hlast]
      exact htext.symm

/-- The call writes a body when it reads one. -/
theorem writesBody_iff : WritesBody F archive results keyForSegment db m ↔
    ∃ e, (eventsRead F archive results keyForSegment db m).getLast? = some e := by
  have hnone : lastWrite (performed db (coldPlan F archive results keyForSegment)) m = none ↔
      (eventsRead F archive results keyForSegment db m).getLast? = none := by
    rw [lastWrite_performed]
    constructor
    · intro hno
      by_contra hsome
      obtain ⟨e, he⟩ := Option.ne_none_iff_exists'.mp hsome
      obtain ⟨-, -, ⟨text, htext⟩, -⟩ := of_mem_eventsRead (List.mem_of_getLast? he)
      rw [he, Option.bind_some, htext] at hno
      exact absurd hno (by simp)
    · intro hno
      rw [hno, Option.bind_none]
  rw [← Option.ne_none_iff_exists', ne_eq, ← hnone, lastWrite_eq_none, WritesBody]
  push Not
  rfl

/-- The text after the call is that of the last event read. -/
theorem textOf_hydrate {e : ArchiveEvent} (he : (eventsRead F archive results keyForSegment db m).getLast? = some e) :
    textOf (hydrateColdSearchResults F archive results keyForSegment db).2 m = tryDecodeText F.primitives e.payload := by
  obtain ⟨-, -, ⟨text, htext⟩, -⟩ := of_mem_eventsRead (List.mem_of_getLast? he)
  rw [hydrateColdSearchResults_eq, textOf_runPlan, lastWrite_performed, he, Option.bind_some, htext, Option.some_or]

/-- A call that restores the latest text has read it last. -/
theorem RestoresLatest.readsLatestLast (hrestores : RestoresLatest F archive results keyForSegment db h) :
    ReadsLatestLast F archive results keyForSegment db h := by
  intro e he
  obtain ⟨halive, hlatest⟩ := hrestores (writesBody_iff.mpr ⟨e, he⟩)
  exact ⟨halive, (textOf_hydrate he).symm.trans hlatest⟩

/-- **When cold hydration restores the latest text**, for any history and whatever the archive holds: when the last text
event it reads is as good as the message's last one, and the message was not deleted. -/
theorem restoresLatest_iff : RestoresLatest F archive results keyForSegment db h ↔
    ReadsLatestLast F archive results keyForSegment db h := by
  constructor
  · exact RestoresLatest.readsLatestLast
  · intro hreads hwrites
    obtain ⟨e, he⟩ := writesBody_iff.mp hwrites
    obtain ⟨halive, hlatest⟩ := hreads e he
    exact ⟨halive, (textOf_hydrate he).trans hlatest⟩

/-- **A message that was never edited or deleted comes back right**, from any archive that holds it. -/
theorem readsLatestLast_of_unedited (harchived : h.ArchivedIn F archive keyForSegment) (hedits : h.edits = [])
    (hdeletion : h.deletion = none) : ReadsLatestLast F archive results keyForSegment db h := by
  intro e he
  refine ⟨hdeletion, ?_⟩
  obtain ⟨hid, -, ⟨text, htext⟩, c, hin⟩ := of_mem_eventsRead (List.mem_of_getLast? he)
  have hjournal := harchived.sound c e hin hid
  have hreceived : e = receivedEvent F h.skel h.text := by simpa [MessageHistory.journal, hedits, hdeletion] using hjournal
  have hdecode : tryDecodeText F.primitives e.payload = h.text.filter fun t => !t.isEmpty := by
    rw [hreceived]
    exact tryDecodeText_encodeBodyPayload F.primitives h.text
  rw [htext] at hdecode
  obtain ⟨hsome, -⟩ := Option.filter_eq_some_iff.mp hdecode.symm
  rw [htext, MessageHistory.latestText, hedits]
  exact hsome.symm

end Latest

/-! "hi" arrives in January and is edited to "ho" in March. -/

/-- Its history. -/
def hiHo : MessageHistory := ⟨aliceSkeleton, some "hi", [("ho", 5184000000)], none⟩

/-- The bucket of the edit, with its event. -/
def hoDelta : SegmentBuildRequest :=
  .messageDelta ⟨1⟩ (defaultTimeBucketForMs 5184000000) [hiHo.editedEvent .bare ("ho", 5184000000)]

/-- An archive of a bucket in each of the two backends. -/
def hiHoArchive (january march : BuiltSegment) : ArchiveStore :=
  ⟨[⟨january.segmentId.toText, Uuid.toText ⟨1⟩, defaultTimeBucketForMs 1000, "blob", "kchat_backend", .archiveUploaded⟩,
      ⟨march.segmentId.toText, Uuid.toText ⟨1⟩, defaultTimeBucketForMs 5184000000, "blob", "zk_object_fabric", .archiveUploaded⟩],
    fun backend _ => .ok (match backend with | .kchatBackend => january.blob | .zkObjectFabric => march.blob)⟩

section HiHo

variable {k : KeyMaterial} {january march : BuiltSegment}

/-- What the rows of the archive open to. -/
theorem rowEvents_hiHo (hjanuary : buildSegment Platform.bare.primitives hiDelta k 0 = .ok january)
    (hmarch : buildSegment Platform.bare.primitives hoDelta k 0 = .ok march) (c : Uuid) :
    ∀ e, e ∈ archivedEvents Platform.bare.primitives (fun _ => .ok k) (hiHoArchive january march) c ↔
      c = ⟨1⟩ ∧ e ∈ hiHo.journal .bare := by
  intro e
  have hopen : openArchiveSegment Platform.bare.primitives january.blob k = .ok hiDelta.events := openArchiveSegment_blob hjanuary
  have hopen' : openArchiveSegment Platform.bare.primitives march.blob k = .ok hoDelta.events := openArchiveSegment_blob hmarch
  have hbackend : StorageBackend.fromStrOrDefault "kchat_backend" = .kchatBackend := by decide
  have hbackend' : StorageBackend.fromStrOrDefault "zk_object_fabric" = .zkObjectFabric := by decide
  rw [mem_archivedEvents]
  have hconv : Uuid.toText ⟨1⟩ = c.toText ↔ c = ⟨1⟩ := Uuid.toText_inj.trans eq_comm
  simp [hiHoArchive, ArchiveStore.rowEvents, ArchiveStore.fetchRow, hbackend, hbackend', hopen, hopen', hconv, hiDelta,
    hoDelta, SegmentBuildRequest.messageDelta, MessageHistory.journal, hiHo, Except.toOption, and_or_left]

/-- The January bucket, read for the message. -/
theorem coldReads_hiHo (hjanuary : buildSegment Platform.bare.primitives hiDelta k 0 = .ok january) :
    coldReads .bare (hiHoArchive january march) [hiResult] (fun _ => .ok k) =
      [.ok (receivedEvent .bare aliceSkeleton (some "hi"), (⟨2⟩, "hi"))] := by
  have hopen : openArchiveSegment Platform.bare.primitives january.blob k = .ok hiDelta.events := openArchiveSegment_blob hjanuary
  have hbuckets : coldBuckets [hiResult] = [((⟨1⟩, defaultTimeBucketForMs 1000), [⟨2⟩])] := by
    simp [coldBuckets, hiResult, SearchResult.bucket]
  have hwanted : wantedText .bare ⟨1⟩ [⟨2⟩] (receivedEvent .bare aliceSkeleton (some "hi")) = some (⟨2⟩, "hi") := by
    have hnonempty : ("hi".isEmpty) = false := by decide
    simp [wantedText, receivedEvent, aliceSkeleton, aliceSays, IngestedMessage.skeleton, hnonempty, Option.filter]
  have hmonths : defaultTimeBucketForMs 5184000000 ≠ defaultTimeBucketForMs 1000 := by decide +kernel
  have hbackend : StorageBackend.fromStrOrDefault "kchat_backend" = .kchatBackend := by decide
  have hfetch : batchPrefetchBucketWithRouter (hiHoArchive january march) ⟨1⟩ (defaultTimeBucketForMs 1000) =
      .ok [⟨january.segmentId.toText, "blob", "kchat_backend", january.blob⟩] := by
    simp [batchPrefetchBucketWithRouter, hiHoArchive, SegmentMapRow.inBucket, hmonths, ArchiveStore.fetchRows,
      ArchiveStore.fetchRow, hbackend, bind, Except.bind, pure, Except.pure]
  have hevents : ((Except.ok k : Except Error KeyMaterial).bind
      (openArchiveSegment Platform.bare.primitives january.blob)) = .ok hiDelta.events := hopen
  simp only [coldReads, hbuckets, List.flatMap_cons, List.flatMap_nil, bucketReads, hfetch, segmentReads, hevents, hiDelta,
    SegmentBuildRequest.messageDelta, List.filterMap_cons, List.filterMap_nil, hwanted, Option.map_some, List.map_cons,
    List.map_nil, List.append_nil]

end HiHo

/-- **An edit in another bucket is lost**: the message comes back with the text it arrived with. -/
theorem edited_text_not_restored : ∃ (archive : ArchiveStore) (results : List SearchResult)
    (keyForSegment : IdText → Except Error KeyMaterial) (db : LocalStoreDb) (h : MessageHistory),
    h.ArchivedIn .bare archive keyForSegment ∧ ¬ RestoresLatest .bare archive results keyForSegment db h := by
  have htext : "hi".isEmpty = false := by decide
  obtain ⟨db, -, hcreate, -⟩ := aliceSays_ingested htext
  have hskel : db.skeletons.has ⟨2⟩ = true := by
    have hfind : db.skeletons.find? ⟨2⟩ = some aliceSkeleton := hcreate.skeleton
    rw [Table.has, hfind, Option.isSome_some]
  obtain ⟨january, hjanuary⟩ : ∃ built, buildSegment Platform.bare.primitives hiDelta (leBytes 32 11) 0 = .ok built :=
    buildSegment_isOk (by simp [hiDelta, SegmentBuildRequest.messageDelta]) rfl
  obtain ⟨march, hmarch⟩ : ∃ built, buildSegment Platform.bare.primitives hoDelta (leBytes 32 11) 0 = .ok built :=
    buildSegment_isOk (by simp [hoDelta, SegmentBuildRequest.messageDelta]) rfl
  have hrows := rowEvents_hiHo hjanuary hmarch
  refine ⟨hiHoArchive january march, [hiResult], fun _ => .ok (leBytes 32 11), db, hiHo, ⟨?_, ?_⟩, ?_⟩
  · intro c e he _
    exact ((hrows c e).mp he).2
  · intro e he
    exact (hrows _ e).mpr ⟨rfl, he⟩
  · intro hrestores
    -- only the bucket of the receipt is read, and the edit is in another
    have hread : eventsRead .bare (hiHoArchive january march) [hiResult] (fun _ => .ok (leBytes 32 11)) db ⟨2⟩ =
        [receivedEvent .bare aliceSkeleton (some "hi")] := by
      simp [eventsRead, coldReads_hiHo hjanuary, beforeError, hskel]
    obtain ⟨-, hlatest⟩ := hrestores.readsLatestLast (receivedEvent .bare aliceSkeleton (some "hi")) (by
      show (eventsRead _ _ _ _ _ ⟨2⟩).getLast? = _
      rw [hread]
      rfl)
    rw [decode_receivedEvent htext] at hlatest
    exact absurd (Option.some.inj hlatest) (by decide)

end KChatCore.Archive
