import KChatCore.Backup.SearchShards
import KChatCore.Lib.Replay
import KChatCore.Message.Core

/-!
# `Message.RemoteIngest` — draining the delivery store

`ingestRemoteMessages` asks the delivery store for the page at a cursor, converts all of its messages and ingests them. The first
message that cannot be converted fails the page before anything is stored; the first one the store rejects ends it there.
A caller who drains goes on from the last cursor it was given.

* `once_each` — a batch with repetitions leaves what its distinct messages leave.
* `remote_ingest_drain` — what a drain has stored, whatever the pages and the failures.
* `later_message_never_ingested` — one invalid message holds up the rest.
-/

namespace KChatCore.Message

open Backup Lib LocalStore Replay

/-! ## The call -/

/-- `RawDeliveryMessage`. -/
structure RawDeliveryMessage where
  messageId : IdText
  conversationId : IdText
  senderId : String
  createdAtMs : Int
  textContent : Option String
  mediaDescriptors : List MediaDescriptor
  replyTo : Option IdText
deriving DecidableEq

/-- `FetchResult`. -/
structure FetchResult where
  messages : List RawDeliveryMessage
  nextCursor : Option String

/-- `DeliveryClient`, as its `fetch_messages`. -/
abbrev DeliveryClient := String → Option String → Except TransportError FetchResult

section Ingest

variable (uuidError : String → String)

/-- `Uuid::parse_str`, with the error of the field; `uuidError` is the `Display` form of `uuid::Error`. -/
def parseField (field : String) : IdText → Except Error Uuid
  | .uuid u => .ok u
  | .malformed s => .error (.transport (.custom ("invalid " ++ field ++ ": " ++ uuidError s)))

/-- `raw_delivery_to_ingested`. -/
def rawDeliveryToIngested (raw : RawDeliveryMessage) : Except Error IngestedMessage := do
  let messageId ← parseField uuidError "message_id" raw.messageId
  let conversationId ← parseField uuidError "conversation_id" raw.conversationId
  let replyTo ← match raw.replyTo with
    | none => .ok none
    | some s => (parseField uuidError "reply_to" s).map some
  return ⟨messageId, conversationId, raw.senderId, raw.createdAtMs, raw.textContent, raw.mediaDescriptors, replyTo⟩

/-- The conversion of a page: all of it or the first error. -/
def convertAll : List RawDeliveryMessage → Except Error (List IngestedMessage)
  | [] => .ok []
  | raw :: raws => do
      let msg ← rawDeliveryToIngested uuidError raw
      let msgs ← convertAll raws
      return msg :: msgs

/-- The messages of a page, with the clock readings of their ingest. -/
def arrivals (clock : Nat → Int × Int) (msgs : List IngestedMessage) : List Arrival :=
  msgs.mapIdx fun i msg => ⟨msg, (clock i).1, (clock i).2⟩

/-- `ingest_remote_messages`. -/
def ingestRemoteMessages (F : Platform) (deliveryClient : Option DeliveryClient) (clock : Nat → Int × Int)
    (conversationId : Uuid) (afterCursor : Option String) (db : LocalStoreDb) : Except Error IngestResult × LocalStoreDb :=
  match deliveryClient with
  | none => (.error (.transport (.custom "no delivery client configured")), db)
  | some fetchMessages =>
      match fetchMessages conversationId.hyphenated afterCursor with
      | .error e => (.error (.transport (.custom (transportDisplay e))), db)
      | .ok fetched =>
          match convertAll uuidError fetched.messages with
          | .error e => (.error e, db)
          | .ok converted =>
              match ingestMessages F (arrivals clock converted) db with
              | (.error e, db') => (.error e, db')
              | (.ok result, db') => (.ok { result with nextCursor := fetched.nextCursor }, db')

/-- One call of a drain: how the delivery store behaves during it, and the clock. -/
structure DeliveryCall where
  client : DeliveryClient
  clock : Nat → Int × Int

/-- A caller asks from the last cursor it was given, until there is none. -/
def drainStep (F : Platform) (conversationId : Uuid) (r : Reader String LocalStoreDb) (call : DeliveryCall) :
    Reader String LocalStoreDb :=
  if r.finished then r
  else
    match ingestRemoteMessages uuidError F (some call.client) call.clock conversationId r.cursor r.store with
    | (.error _, db) => { r with store := db }
    | (.ok result, db) =>
        match result.nextCursor with
        | some c => ⟨some c, false, db⟩
        | none => ⟨r.cursor, true, db⟩

/-- A drain: call after call. -/
def drain (F : Platform) (conversationId : Uuid) (r : Reader String LocalStoreDb) (calls : List DeliveryCall) :
    Reader String LocalStoreDb :=
  calls.foldl (drainStep uuidError F conversationId) r

end Ingest

/-! ## Conversion -/

section Convert

variable {uuidError : String → String} {raws raws' : List RawDeliveryMessage} {msgs : List IngestedMessage}

theorem convertAll_cons {raw : RawDeliveryMessage} : convertAll uuidError (raw :: raws) = .ok msgs ↔
    ∃ msg rest, rawDeliveryToIngested uuidError raw = .ok msg ∧ convertAll uuidError raws = .ok rest ∧ msgs = msg :: rest := by
  rw [convertAll]
  constructor
  · intro h
    obtain ⟨msg, hmsg, h⟩ := except_bind_eq_ok.mp h
    obtain ⟨rest, hrest, h⟩ := except_bind_eq_ok.mp h
    exact ⟨msg, rest, hmsg, hrest, (Except.ok.inj h).symm⟩
  · rintro ⟨msg, rest, hmsg, hrest, rfl⟩
    rw [hmsg, hrest]
    rfl

theorem convertAll_append : convertAll uuidError (raws ++ raws') = .ok msgs ↔
    ∃ front back, convertAll uuidError raws = .ok front ∧ convertAll uuidError raws' = .ok back ∧ msgs = front ++ back := by
  induction raws generalizing msgs with
  | nil =>
      constructor
      · exact fun h => ⟨[], msgs, rfl, h, rfl⟩
      · rintro ⟨front, back, hfront, hback, rfl⟩
        obtain rfl : [] = front := Except.ok.inj hfront
        exact hback
  | cons raw raws ih =>
      rw [List.cons_append, convertAll_cons]
      constructor
      · rintro ⟨msg, rest, hmsg, hrest, rfl⟩
        obtain ⟨front, back, hfront, hback, rfl⟩ := ih.mp hrest
        exact ⟨msg :: front, back, convertAll_cons.mpr ⟨msg, front, hmsg, hfront, rfl⟩, hback, rfl⟩
      · rintro ⟨front, back, hfront, hback, rfl⟩
        obtain ⟨msg, rest, hmsg, hrest, rfl⟩ := convertAll_cons.mp hfront
        exact ⟨msg, rest ++ back, hmsg, ih.mpr ⟨rest, back, hrest, hback, rfl⟩, rfl⟩

/-- Converted messages are those of the raw ones. -/
theorem mem_convertAll (h : convertAll uuidError raws = .ok msgs) {msg : IngestedMessage} :
    msg ∈ msgs ↔ ∃ raw ∈ raws, rawDeliveryToIngested uuidError raw = .ok msg := by
  induction raws generalizing msgs with
  | nil =>
      obtain rfl : [] = msgs := Except.ok.inj h
      simp
  | cons raw raws ih =>
      obtain ⟨first, rest, hfirst, hrest, rfl⟩ := convertAll_cons.mp h
      rw [List.mem_cons, ih hrest]
      constructor
      · rintro (rfl | ⟨r, hr, hmsg⟩)
        · exact ⟨raw, List.mem_cons_self, hfirst⟩
        · exact ⟨r, List.mem_cons_of_mem _ hr, hmsg⟩
      · rintro ⟨r, hr, hmsg⟩
        rcases List.mem_cons.mp hr with rfl | hr
        · exact .inl (Except.ok.inj (hmsg.symm.trans hfirst))
        · exact .inr ⟨r, hr, hmsg⟩

theorem map_arrivals (clock : Nat → Int × Int) : (arrivals clock msgs).map Arrival.msg = msgs := by
  apply List.ext_getElem
  · simp [arrivals]
  · intro i hi hi'
    simp [arrivals]

end Convert

/-! ## A batch, message by message -/

section Batch

variable {F : Platform} {db db' : LocalStoreDb} {a : Arrival} {batch : List Arrival}

/-- What a message that goes through leaves; nothing, if it ends the batch. -/
def takeIn (F : Platform) (db : LocalStoreDb) (a : Arrival) : Option LocalStoreDb :=
  match persistIngestedMessage F db a.msg a.receivedAtMs a.journaledAtMs with
  | .ok db' => some (maybeEmbedTextMessage F db' a.msg)
  | .error .duplicateMessage => some db
  | .error _ => none

/-- What a batch that goes through leaves. -/
def takeAll (F : Platform) (db : LocalStoreDb) (batch : List Arrival) : Option LocalStoreDb := batch.foldlM (takeIn F) db

@[simp] theorem takeAll_nil : takeAll F db [] = some db := rfl

theorem takeAll_cons : takeAll F db (a :: batch) = (takeIn F db a).bind fun db => takeAll F db batch := rfl

theorem takeAll_append {batch' : List Arrival} :
    takeAll F db (batch ++ batch') = (takeAll F db batch).bind fun db => takeAll F db batch' := by
  rw [takeAll, List.foldlM_append]
  rfl

theorem takeAll_concat_eq_some : takeAll F db (batch ++ [a]) = some db' ↔
    ∃ before, takeAll F db batch = some before ∧ takeIn F before a = some db' := by
  rw [takeAll_append, Option.bind_eq_some_iff]
  simp only [takeAll_cons, takeAll_nil, Option.bind_fun_some]

theorem takeIn_eq_some (h : takeIn F db a = some db') :
    (∃ stored, persistIngestedMessage F db a.msg a.receivedAtMs a.journaledAtMs = .ok stored ∧
        db' = maybeEmbedTextMessage F stored a.msg) ∨
      persistIngestedMessage F db a.msg a.receivedAtMs a.journaledAtMs = .error .duplicateMessage ∧ db' = db := by
  unfold takeIn at h
  cases hpersist : persistIngestedMessage F db a.msg a.receivedAtMs a.journaledAtMs with
  | ok stored =>
      rw [hpersist] at h
      exact .inl ⟨stored, rfl, (Option.some.inj h).symm⟩
  | error e =>
      rw [hpersist] at h
      cases e with
      | duplicateMessage => exact .inr ⟨rfl, (Option.some.inj h).symm⟩
      | invalidMessage msg => exact absurd h (by simp)
      | storageError msg => exact absurd h (by simp)
      | db e => exact absurd h (by simp)
      | illegalTransition e => exact absurd h (by simp)

/-- **A message that is there goes through and leaves everything as it is.** -/
theorem takeIn_known (hvalid : validateIngest a.msg = .ok ()) (hthere : db.skeletons.has a.msg.messageId = true) :
    takeIn F db a = some db := by
  have hdup : persistIngestedMessage F db a.msg a.receivedAtMs a.journaledAtMs = .error .duplicateMessage :=
    persistIngestedMessage_duplicate.mpr ⟨hvalid, hthere⟩
  rw [takeIn, hdup]

/-- **A message that goes through is valid and there**, with everything that was there. -/
theorem takeIn_spec (h : takeIn F db a = some db') :
    validateIngest a.msg = .ok () ∧
      ∀ m, db'.skeletons.has m = true ↔ db.skeletons.has m = true ∨ a.msg.messageId = m := by
  rcases takeIn_eq_some h with ⟨stored, hok, rfl⟩ | ⟨hdup, rfl⟩
  · obtain ⟨hvalid, -⟩ := persistIngestedMessage_eq_ok hok
    refine ⟨hvalid, fun m => ?_⟩
    rw [((Follows.refl db).concat hok).skeletons m]
    simp
  · obtain ⟨hvalid, hthere⟩ := persistIngestedMessage_duplicate.mp hdup
    refine ⟨hvalid, fun m => ⟨.inl, ?_⟩⟩
    rintro (hm | rfl)
    · exact hm
    · exact hthere

theorem takeAll_spec (h : takeAll F db batch = some db') :
    (∀ a ∈ batch, validateIngest a.msg = .ok ()) ∧
      ∀ m, db'.skeletons.has m = true ↔ db.skeletons.has m = true ∨ ∃ a ∈ batch, a.msg.messageId = m := by
  induction batch generalizing db with
  | nil =>
      obtain rfl : db = db' := Option.some.inj h
      simp
  | cons a batch ih =>
      obtain ⟨next, ha, hrest⟩ := Option.bind_eq_some_iff.mp h
      obtain ⟨hvalid, hhas⟩ := takeIn_spec ha
      obtain ⟨hvalids, hhas'⟩ := ih hrest
      refine ⟨?_, fun m => ?_⟩
      · intro b hb
        rcases List.mem_cons.mp hb with rfl | hb
        · exact hvalid
        · exact hvalids b hb
      · rw [hhas' m, hhas m, or_assoc]
        simp

/-- Messages that are there go through and leave everything as it is. -/
theorem takeAll_known (h : ∀ a ∈ batch, validateIngest a.msg = .ok () ∧ db.skeletons.has a.msg.messageId = true) :
    takeAll F db batch = some db := by
  induction batch with
  | nil => rfl
  | cons a batch ih =>
      obtain ⟨hvalid, hthere⟩ := h a List.mem_cons_self
      rw [takeAll_cons, takeIn_known hvalid hthere]
      exact ih fun b hb => h b (List.mem_cons_of_mem a hb)

theorem takeIn_rejected {e : ProcessorError} (hne : e ≠ .duplicateMessage)
    (h : persistIngestedMessage F db a.msg a.receivedAtMs a.journaledAtMs = .error e) : takeIn F db a = none := by
  rw [takeIn, h]
  cases e with
  | duplicateMessage => exact absurd rfl hne
  | invalidMessage msg => rfl
  | storageError msg => rfl
  | db e => rfl
  | illegalTransition e => rfl

/-- Any error but a duplicate ends the batch where it is. -/
theorem ingestLoop_rejected {e : ProcessorError} (hne : e ≠ .duplicateMessage)
    (h : persistIngestedMessage F db a.msg a.receivedAtMs a.journaledAtMs = .error e) (result : IngestResult) :
    ingestLoop F (a :: batch) result db = (.error (.message (.custom e.display)), db) := by
  unfold ingestLoop
  rw [h]
  cases e with
  | duplicateMessage => exact absurd rfl hne
  | invalidMessage msg => rfl
  | storageError msg => rfl
  | db e => rfl
  | illegalTransition e => rfl

/-- **The loop of the source takes messages in until one does not go through.** -/
theorem ingestLoop_takes (result : IngestResult) : ∃ front back, batch = front ++ back ∧
    takeAll F db front = some (ingestLoop F batch result db).2 ∧
      ((ingestLoop F batch result db).1.isOk = true ↔ back = []) ∧
        ∀ a ∈ back.head?, takeIn F (ingestLoop F batch result db).2 a = none := by
  induction batch generalizing db result with
  | nil => exact ⟨[], [], rfl, rfl, by simp [ingestLoop, Except.isOk, Except.toBool], by simp⟩
  | cons a batch ih =>
      cases hpersist : persistIngestedMessage F db a.msg a.receivedAtMs a.journaledAtMs with
      | ok stored =>
          have htake : takeIn F db a = some (maybeEmbedTextMessage F stored a.msg) := by rw [takeIn, hpersist]
          have hloop : ingestLoop F (a :: batch) result db =
              ingestLoop F batch { result with newMessages := result.newMessages + 1 }
                (maybeEmbedTextMessage F stored a.msg) := by
            rw [ingestLoop, hpersist]
          obtain ⟨front, back, hbatch, hfront, hok, hhead⟩ :=
            @ih (maybeEmbedTextMessage F stored a.msg) { result with newMessages := result.newMessages + 1 }
          rw [hloop]
          exact ⟨a :: front, back, by rw [hbatch]; rfl, by rw [takeAll_cons, htake]; exact hfront, hok, hhead⟩
      | error e =>
          by_cases hdup : e = .duplicateMessage
          · subst hdup
            have htake : takeIn F db a = some db := by rw [takeIn, hpersist]
            have hloop : ingestLoop F (a :: batch) result db =
                ingestLoop F batch { result with duplicateCount := result.duplicateCount + 1 } db := by
              rw [ingestLoop, hpersist]
            obtain ⟨front, back, hbatch, hfront, hok, hhead⟩ :=
              @ih db { result with duplicateCount := result.duplicateCount + 1 }
            rw [hloop]
            exact ⟨a :: front, back, by rw [hbatch]; rfl, by rw [takeAll_cons, htake]; exact hfront, hok, hhead⟩
          · rw [ingestLoop_rejected hdup hpersist]
            refine ⟨[], a :: batch, rfl, rfl, by simp [Except.isOk, Except.toBool], ?_⟩
            intro b hb
            obtain rfl : a = b := Option.some.inj hb
            exact takeIn_rejected hdup hpersist

/-- **A batch goes through in the source exactly if all of it is taken in.** -/
theorem ingestMessages_iff : takeAll F db batch = some db' ↔
    (ingestMessages F batch db).1.isOk = true ∧ (ingestMessages F batch db).2 = db' := by
  obtain ⟨front, back, hbatch, hfront, hok, hhead⟩ := @ingestLoop_takes F db batch ⟨0, 0, 0, none⟩
  constructor
  · intro h
    cases back with
    | nil =>
        rw [List.append_nil] at hbatch
        subst hbatch
        exact ⟨hok.mpr rfl, Option.some.inj (hfront.symm.trans h)⟩
    | cons a back =>
        rw [hbatch, takeAll_append, hfront, Option.bind_some, takeAll_cons, hhead a rfl] at h
        exact absurd h (by simp)
  · rintro ⟨hisOk, rfl⟩
    obtain rfl := hok.mp hisOk
    rw [List.append_nil] at hbatch
    subst hbatch
    exact hfront

end Batch

/-! ## Each message once -/

/-- The first message of each id. -/
def distinct : List IngestedMessage → List IngestedMessage
  | [] => []
  | msg :: msgs => msg :: (distinct msgs).filter fun m => m.messageId ≠ msg.messageId

section Distinct

variable {msgs : List IngestedMessage} {msg : IngestedMessage}

theorem distinct_concat_new (h : ¬ ∃ m ∈ msgs, m.messageId = msg.messageId) :
    distinct (msgs ++ [msg]) = distinct msgs ++ [msg] := by
  induction msgs with
  | nil => rfl
  | cons first msgs ih =>
      have hfirst : ¬ msg.messageId = first.messageId := fun heq => h ⟨first, List.mem_cons_self, heq.symm⟩
      have hlater : ¬ ∃ m ∈ msgs, m.messageId = msg.messageId :=
        fun ⟨m, hm, hid⟩ => h ⟨m, List.mem_cons_of_mem first hm, hid⟩
      rw [List.cons_append, distinct, distinct, ih hlater, List.filter_append]
      simp [hfirst]

theorem distinct_concat_known (h : ∃ m ∈ msgs, m.messageId = msg.messageId) : distinct (msgs ++ [msg]) = distinct msgs := by
  induction msgs with
  | nil => simp at h
  | cons first msgs ih =>
      rw [List.cons_append, distinct, distinct, List.cons.injEq]
      refine ⟨rfl, ?_⟩
      by_cases hlater : ∃ m ∈ msgs, m.messageId = msg.messageId
      · rw [ih hlater]
      · -- only the first message has the id, so the new one is filtered out
        have hfirst : msg.messageId = first.messageId := by
          obtain ⟨m, hm, hid⟩ := h
          rcases List.mem_cons.mp hm with rfl | hm
          · exact hid.symm
          · exact absurd ⟨m, hm, hid⟩ hlater
        rw [distinct_concat_new hlater, List.filter_append]
        simp [hfirst]

end Distinct

/-- **A batch with repetitions leaves what its distinct messages leave**, each ingested once. -/
theorem once_each {F : Platform} {db db' : LocalStoreDb} {batch : List Arrival} (h : takeAll F db batch = some db') :
    ∃ once : List Arrival, once.map Arrival.msg = distinct (batch.map Arrival.msg) ∧ takeAll F db once = some db' := by
  induction batch using List.reverseRecOn generalizing db' with
  | nil => exact ⟨[], rfl, h⟩
  | append_singleton batch a ih =>
      obtain ⟨before, hbefore, ha⟩ := takeAll_concat_eq_some.mp h
      obtain ⟨once, hmsgs, honce⟩ := ih hbefore
      rw [List.map_append, List.map_singleton]
      by_cases hknown : ∃ m ∈ batch.map Arrival.msg, m.messageId = a.msg.messageId
      · obtain ⟨m, hm, hid⟩ := hknown
        obtain ⟨b, hb, rfl⟩ := List.mem_map.mp hm
        have hthere : before.skeletons.has a.msg.messageId = true :=
          ((takeAll_spec hbefore).2 a.msg.messageId).mpr (.inr ⟨b, hb, hid⟩)
        obtain rfl : before = db' := Option.some.inj ((takeIn_known (takeIn_spec ha).1 hthere).symm.trans ha)
        rw [distinct_concat_known ⟨b.msg, hm, hid⟩]
        exact ⟨once, hmsgs, honce⟩
      · rw [distinct_concat_new hknown, ← hmsgs]
        exact ⟨once ++ [a], by simp, takeAll_concat_eq_some.mpr ⟨before, honce, ha⟩⟩

/-! ## What the clock has no part in -/

section Clock

variable {db : LocalStoreDb} {landed landed' batch batch' : List Arrival} {a a' : Arrival}

theorem isDuplicate_congr (hlanded : landed.map Arrival.msg = landed'.map Arrival.msg) (ha : a.msg = a'.msg) :
    a.isDuplicate db landed = a'.isDuplicate db landed' := by
  have hany : ∀ (l : List Arrival) (m : Uuid), (l.any fun x => decide (x.msg.messageId = m)) =
      (l.map Arrival.msg).any fun x => decide (x.messageId = m) := by
    intro l m
    rw [List.any_map]
    rfl
  rw [Arrival.isDuplicate, Arrival.isDuplicate, hany, hany, hlanded, ha]

theorem isAdmissible_congr (hlanded : landed.map Arrival.msg = landed'.map Arrival.msg) (ha : a.msg = a'.msg) :
    a.isAdmissible db landed = a'.isAdmissible db landed' := by
  have hall : ∀ (l : List Arrival) (id : Uuid), (l.all fun x => decide (id ∉ x.msg.assetIds)) =
      (l.map Arrival.msg).all fun x => decide (id ∉ x.assetIds) := by
    intro l id
    rw [List.all_map]
    rfl
  simp only [Arrival.isAdmissible, hall, hlanded, ha]

theorem accepted_prefix : accepted db landed batch <+: batch := by
  induction batch generalizing landed with
  | nil => exact List.prefix_rfl
  | cons a batch ih =>
      rw [accepted]
      cases validateIngest a.msg with
      | error e => exact List.nil_prefix
      | ok u =>
          by_cases hdup : a.isDuplicate db landed = true
          · simp only [hdup, if_true]
            exact (List.prefix_cons_inj a).mpr ih
          · by_cases hadm : a.isAdmissible db landed = true
            · simp only [hdup, hadm, if_true]
              exact (List.prefix_cons_inj a).mpr ih
            · simp only [hdup, hadm]
              exact List.nil_prefix

theorem length_accepted (hlanded : landed.map Arrival.msg = landed'.map Arrival.msg)
    (hbatch : batch.map Arrival.msg = batch'.map Arrival.msg) :
    (accepted db landed batch).length = (accepted db landed' batch').length := by
  induction batch generalizing landed landed' batch' with
  | nil =>
      obtain rfl : batch' = [] := List.map_eq_nil_iff.mp hbatch.symm
      rfl
  | cons a batch ih =>
      cases batch' with
      | nil => simp at hbatch
      | cons a' batch' =>
          obtain ⟨ha, hrest⟩ := List.cons.inj hbatch
          rw [accepted, accepted, isDuplicate_congr hlanded ha, isAdmissible_congr hlanded ha]
          have hmore : (landed ++ [a]).map Arrival.msg = (landed' ++ [a']).map Arrival.msg := by
            rw [List.map_append, List.map_append, hlanded, List.map_singleton, List.map_singleton, ha]
          rw [show a.msg = a'.msg from ha]
          cases validateIngest a'.msg with
          | error e => rfl
          | ok u =>
              by_cases hdup : a'.isDuplicate db landed' = true
              · simp only [hdup, if_true, List.length_cons, ih hlanded hrest]
              · by_cases hadm : a'.isAdmissible db landed' = true
                · simp only [hdup, hadm, Bool.false_eq_true, if_false, if_true, List.length_cons, ih hmore hrest]
                · simp only [hdup, hadm, Bool.false_eq_true, if_false]

/-- **Whether a batch is accepted does not depend on the clock.** -/
theorem accepted_congr (hbatch : batch.map Arrival.msg = batch'.map Arrival.msg) (h : accepted db [] batch = batch) :
    accepted db [] batch' = batch' := by
  have hlength : batch.length = batch'.length := by
    rw [← List.length_map (f := Arrival.msg), hbatch, List.length_map]
  refine accepted_prefix.eq_of_length ?_
  rw [← length_accepted rfl hbatch, h, hlength]

theorem takeAll_isSome_iff {F : Platform} : (∃ db', takeAll F db batch = some db') ↔ accepted db [] batch = batch := by
  have hloop : (ingestMessages F batch db).1.isOk = true ↔ accepted db [] batch = batch :=
    (ingestLoop_accepted (Follows.refl db) ⟨0, 0, 0, none⟩).2
  rw [← hloop]
  constructor
  · rintro ⟨db', h⟩
    exact (ingestMessages_iff.mp h).1
  · exact fun h => ⟨_, ingestMessages_iff.mpr ⟨h, rfl⟩⟩

end Clock

/-! ## What a drain has had -/

section Had

variable {uuidError : String → String} {F : Platform} {db₀ db db' : LocalStoreDb} {staged raws : List RawDeliveryMessage}
  {msgs : List IngestedMessage} {n : Nat}

/-- **The store has had the first `n` messages**: it is what a batch of them leaves. -/
def Had (uuidError : String → String) (F : Platform) (db₀ : LocalStoreDb) (staged : List RawDeliveryMessage) (n : Nat)
    (db : LocalStoreDb) : Prop :=
  ∃ batch : List Arrival, convertAll uuidError (staged.take n) = .ok (batch.map Arrival.msg) ∧ takeAll F db₀ batch = some db

/-- What becomes of a page. -/
def consumePage (uuidError : String → String) (F : Platform) (clock : Nat → Int × Int) (raws : List RawDeliveryMessage)
    (db : LocalStoreDb) : Bool × LocalStoreDb :=
  match convertAll uuidError raws with
  | .error _ => (false, db)
  | .ok converted =>
      ((ingestMessages F (arrivals clock converted) db).1.isOk, (ingestMessages F (arrivals clock converted) db).2)

/-- Messages the store has had are known to it. -/
theorem Had.known (h : Had uuidError F db₀ staged n db) (hraws : raws ⊆ staged.take n) {batch : List Arrival}
    (hconvert : convertAll uuidError raws = .ok (batch.map Arrival.msg)) : takeAll F db batch = some db := by
  obtain ⟨had, hhad, htaken⟩ := h
  obtain ⟨hvalid, hhas⟩ := takeAll_spec htaken
  refine takeAll_known fun a ha => ?_
  obtain ⟨raw, hraw, hmsg⟩ := (mem_convertAll hconvert).mp (List.mem_map_of_mem ha)
  obtain ⟨b, hb, hid⟩ := List.mem_map.mp ((mem_convertAll hhad).mpr ⟨raw, hraws hraw, hmsg⟩)
  rw [← hid]
  exact ⟨hvalid b hb, (hhas b.msg.messageId).mpr (.inr ⟨b, hb, rfl⟩)⟩

/-- A beginning of a page that converts, converts. -/
theorem convertAll_take (h : convertAll uuidError raws = .ok msgs) (k : Nat) :
    convertAll uuidError (raws.take k) = .ok (msgs.take k) := by
  induction raws generalizing msgs k with
  | nil =>
      obtain rfl : [] = msgs := Except.ok.inj h
      simp [convertAll]
  | cons raw raws ih =>
      obtain ⟨msg, rest, hmsg, hrest, rfl⟩ := convertAll_cons.mp h
      cases k with
      | zero => rfl
      | succ k => exact convertAll_cons.mpr ⟨msg, rest.take k, hmsg, ih hrest k, rfl⟩

theorem length_convertAll (h : convertAll uuidError raws = .ok msgs) : msgs.length = raws.length := by
  induction raws generalizing msgs with
  | nil =>
      obtain rfl : [] = msgs := Except.ok.inj h
      rfl
  | cons raw raws ih =>
      obtain ⟨msg, rest, -, hrest, rfl⟩ := convertAll_cons.mp h
      rw [List.length_cons, List.length_cons, ih hrest]

/-- **A store that takes a slice in has had the messages up to its end**, if it had those before it. -/
theorem Had.slice {start stop : Nat} (h : Had uuidError F db₀ staged n db) (hstart : start ≤ n) {batch : List Arrival}
    (hconvert : convertAll uuidError (Replay.slice staged start stop) = .ok (batch.map Arrival.msg))
    (htake : takeAll F db batch = some db') : Had uuidError F db₀ staged (max n stop) db' := by
  by_cases hstop : stop ≤ n
  · have hsame := h.known (slice_subset_take hstop) hconvert
    obtain rfl : db = db' := Option.some.inj (hsame.symm.trans htake)
    rwa [max_eq_left hstop]
  · -- what overlaps is known, and the rest is new
    rw [not_le] at hstop
    rw [← slice_append hstart hstop.le] at hconvert
    obtain ⟨front, back, hfront, hback, hmsgs⟩ := convertAll_append.mp hconvert
    obtain ⟨overlap, fresh, rfl, rfl, rfl⟩ := List.map_eq_append_iff.mp hmsgs
    have hknown := h.known (slice_subset_take le_rfl) hfront
    rw [takeAll_append, hknown, Option.bind_some] at htake
    obtain ⟨had, hhad, htaken⟩ := h
    refine ⟨had ++ fresh, ?_, ?_⟩
    · rw [max_eq_right hstop.le, List.map_append, ← slice_zero, ← slice_append (Nat.zero_le n) hstop.le, slice_zero]
      exact convertAll_append.mpr ⟨_, _, hhad, hback, rfl⟩
    · rw [takeAll_append, htaken]
      exact htake

/-- **Ingesting pages replays the log.** -/
theorem replays (uuidError : String → String) (F : Platform) (db₀ : LocalStoreDb) (staged : List RawDeliveryMessage)
    (clock : Nat → Int × Int) : Replays staged (Had uuidError F db₀ staged) (consumePage uuidError F clock) where
  grows n db start stop hhad hn hstart hstop := by
    cases hconvert : convertAll uuidError (Replay.slice staged start stop) with
    | error e =>
        -- the page does not convert: nothing of it is stored
        simp only [consumePage, hconvert]
        exact ⟨n, le_rfl, hn, hhad, fun h => absurd h (by simp)⟩
    | ok msgs =>
        simp only [consumePage, hconvert]
        obtain ⟨front, back, hbatch, hfront, hok, -⟩ :=
          @ingestLoop_takes F db (arrivals clock msgs) ⟨0, 0, 0, none⟩
        have hmsgs : msgs = front.map Arrival.msg ++ back.map Arrival.msg := by
          rw [← List.map_append, ← hbatch, map_arrivals]
        have hlength : front.length + back.length = stop - start := by
          have hmsgsLength := length_convertAll hconvert
          rw [hmsgs, length_slice hstop, List.length_append, List.length_map, List.length_map] at hmsgsLength
          exact hmsgsLength
        by_cases hover : stop ≤ n
        · -- a page without anything new
          have hknown : takeAll F db (arrivals clock msgs) = some db :=
            hhad.known (slice_subset_take hover) (by rw [map_arrivals]; exact hconvert)
          obtain ⟨-, hsame⟩ := ingestMessages_iff.mp hknown
          exact ⟨n, le_rfl, hn, hsame.symm ▸ hhad, fun _ => hover⟩
        · have hpart : convertAll uuidError (Replay.slice staged start (start + front.length)) =
              .ok (front.map Arrival.msg) := by
            have hfirst : msgs.take front.length = front.map Arrival.msg := by
              rw [hmsgs, List.take_left' (List.length_map _)]
            rw [← hfirst, ← take_slice (show start + front.length ≤ stop by omega)]
            exact convertAll_take hconvert _
          refine ⟨max n (start + front.length), le_max_left _ _, by omega, hhad.slice hstart hpart hfront, fun hisOk => ?_⟩
          obtain rfl : back = [] := hok.mp hisOk
          rw [List.length_nil] at hlength
          omega
  replayed db start stop hhad hstop := by
    cases hconvert : convertAll uuidError (Replay.slice staged start stop) with
    | error e => simp only [consumePage, hconvert]
    | ok msgs =>
        simp only [consumePage, hconvert]
        have hknown : takeAll F db (arrivals clock msgs) = some db :=
          hhad.known (slice_subset_take hstop) (by rw [map_arrivals]; exact hconvert)
        exact (ingestMessages_iff.mp hknown).2

/-! ## When nothing is rejected -/

/-- **No message is rejected**: all convert, and the store accepts them one after the other. -/
def Unrejected (uuidError : String → String) (db₀ : LocalStoreDb) (raws : List RawDeliveryMessage) : Prop :=
  ∃ msgs, convertAll uuidError raws = .ok msgs ∧
    accepted db₀ [] (arrivals (fun _ => (0, 0)) msgs) = arrivals (fun _ => (0, 0)) msgs

theorem unrejected_iff : Unrejected uuidError db₀ (staged.take n) ↔ ∃ db, Had uuidError F db₀ staged n db := by
  constructor
  · rintro ⟨msgs, hconvert, haccepted⟩
    obtain ⟨db, htake⟩ := (takeAll_isSome_iff (F := F)).mpr haccepted
    exact ⟨db, _, by rw [map_arrivals]; exact hconvert, htake⟩
  · rintro ⟨db, batch, hconvert, htake⟩
    refine ⟨_, hconvert, accepted_congr ?_ (takeAll_isSome_iff.mp ⟨db, htake⟩)⟩
    rw [map_arrivals]

/-- A beginning of what is not rejected is not rejected. -/
theorem Had.earlier {m : Nat} (h : Had uuidError F db₀ staged n db) (hm : m ≤ n) :
    ∃ before, Had uuidError F db₀ staged m before := by
  obtain ⟨batch, hconvert, htake⟩ := h
  rw [← slice_zero, ← slice_append (Nat.zero_le m) hm, slice_zero] at hconvert
  obtain ⟨front, back, hfront, -, hmsgs⟩ := convertAll_append.mp hconvert
  obtain ⟨early, late, rfl, rfl, rfl⟩ := List.map_eq_append_iff.mp hmsgs
  rw [takeAll_append] at htake
  obtain ⟨before, hbefore, -⟩ := Option.bind_eq_some_iff.mp htake
  exact ⟨before, early, hfront, hbefore⟩

/-- **Then every page goes through.** -/
theorem consumePage_fst {final : LocalStoreDb} (hall : Had uuidError F db₀ staged staged.length final)
    (clock : Nat → Int × Int) {start stop : Nat} (h : Had uuidError F db₀ staged n db) (hstart : start ≤ n)
    (hstop : stop ≤ staged.length) : (consumePage uuidError F clock (Replay.slice staged start stop) db).1 = true := by
  obtain ⟨before, whole, hwhole, htaken⟩ := hall.earlier hstop
  -- the page converts with the messages up to its end
  have hconvert : ∃ msgs, convertAll uuidError (Replay.slice staged start stop) = .ok msgs := by
    rw [← List.take_append_drop start (staged.take stop)] at hwhole
    obtain ⟨-, back, -, hback, -⟩ := convertAll_append.mp hwhole
    exact ⟨back, hback⟩
  obtain ⟨msgs, hconvert⟩ := hconvert
  simp only [consumePage, hconvert]
  have hpage : convertAll uuidError (Replay.slice staged start stop) = .ok ((arrivals clock msgs).map Arrival.msg) := by
    rw [map_arrivals]
    exact hconvert
  suffices htake : ∃ db', takeAll F db (arrivals clock msgs) = some db' by
    obtain ⟨db', htake⟩ := htake
    exact (ingestMessages_iff.mp htake).1
  by_cases hover : stop ≤ n
  · exact ⟨db, h.known (slice_subset_take hover) hpage⟩
  · rw [not_le] at hover
    have hsplit := hpage
    rw [← slice_append hstart hover.le] at hsplit
    obtain ⟨front, back, hfront, hback, hmsgs⟩ := convertAll_append.mp hsplit
    obtain ⟨overlap, fresh, hboth, rfl, rfl⟩ := List.map_eq_append_iff.mp hmsgs
    have hknown := h.known (slice_subset_take le_rfl) hfront
    obtain ⟨had, hhad, htakenHad⟩ := h
    -- the same messages as in `whole`, at other times
    have hsame : convertAll uuidError (staged.take stop) = .ok ((had ++ fresh).map Arrival.msg) := by
      rw [List.map_append, ← slice_zero, ← slice_append (Nat.zero_le n) hover.le, slice_zero]
      exact convertAll_append.mpr ⟨_, _, hhad, hback, rfl⟩
    have hmap : whole.map Arrival.msg = (had ++ fresh).map Arrival.msg := Except.ok.inj (hwhole.symm.trans hsame)
    obtain ⟨after, hafter⟩ := (takeAll_isSome_iff (F := F)).mpr (accepted_congr hmap (takeAll_isSome_iff.mp ⟨before, htaken⟩))
    rw [takeAll_append, htakenHad] at hafter
    refine ⟨after, ?_⟩
    rw [hboth, takeAll_append, hknown]
    exact hafter

end Had

/-! ## Drains -/

section Drain

variable {uuidError : String → String} {F : Platform} {conversationId : Uuid} {db₀ : LocalStoreDb}
  {staged : List RawDeliveryMessage} {position : Option String → Option Nat} {calls : List DeliveryCall}
  {r : Reader String LocalStoreDb}

/-- The page the delivery store has for a cursor. -/
def DeliveryCall.fetch (call : DeliveryCall) (conversationId : Uuid) (cursor : Option String) :
    Option (Page RawDeliveryMessage String) :=
  match call.client conversationId.hyphenated cursor with
  | .error _ => none
  | .ok fetched => some ⟨fetched.messages, fetched.nextCursor⟩

/-- A call of a drain, as a reader's call. -/
def DeliveryCall.reading (uuidError : String → String) (F : Platform) (conversationId : Uuid) (call : DeliveryCall) :
    Replay.Call RawDeliveryMessage String LocalStoreDb :=
  ⟨call.fetch conversationId, consumePage uuidError F call.clock⟩

/-- **A drain is a reader of the delivery store.** -/
theorem drainStep_eq (call : DeliveryCall) :
    drainStep uuidError F conversationId r call = r.step (call.reading uuidError F conversationId) := by
  unfold drainStep Reader.step
  by_cases hdone : r.finished = true
  · rw [if_pos hdone, if_pos hdone]
  · rw [if_neg hdone, if_neg hdone]
    simp only [ingestRemoteMessages, DeliveryCall.reading, DeliveryCall.fetch]
    cases hfetch : call.client conversationId.hyphenated r.cursor with
    | error e => rfl
    | ok fetched =>
        simp only [consumePage]
        cases hconvert : convertAll uuidError fetched.messages with
        | error e => rfl
        | ok msgs =>
            simp only
            rcases ingestMessages F (arrivals call.clock msgs) r.store with ⟨_ | result, db⟩
            · rfl
            · cases fetched.nextCursor <;> rfl

theorem drain_eq (r : Reader String LocalStoreDb) (calls : List DeliveryCall) :
    drain uuidError F conversationId r calls = r.run (calls.map (DeliveryCall.reading uuidError F conversationId)) := by
  induction calls generalizing r with
  | nil => rfl
  | cons call calls ih =>
      show drain uuidError F conversationId (drainStep uuidError F conversationId r call) calls = _
      rw [ih, drainStep_eq, List.map_cons, Reader.run_cons]

/-- How many calls of a drain were told a page. -/
def answeredCalls (uuidError : String → String) (F : Platform) (conversationId : Uuid) (r : Reader String LocalStoreDb)
    (calls : List DeliveryCall) : Nat :=
  r.answered (calls.map (DeliveryCall.reading uuidError F conversationId))

/-- **The store after each distinct message was ingested once**, in the order of the first deliveries. -/
def OnceEach (uuidError : String → String) (F : Platform) (db₀ : LocalStoreDb) (raws : List RawDeliveryMessage)
    (db : LocalStoreDb) : Prop :=
  ∃ msgs once result, convertAll uuidError raws = .ok msgs ∧ once.map Arrival.msg = distinct msgs ∧
    ingestMessages F once db₀ = (.ok result, db)

theorem Had.onceEach {n : Nat} {db : LocalStoreDb} (h : Had uuidError F db₀ staged n db) :
    OnceEach uuidError F db₀ (staged.take n) db := by
  obtain ⟨batch, hconvert, htake⟩ := h
  obtain ⟨once, hmsgs, honce⟩ := once_each htake
  obtain ⟨hok, hdb⟩ := ingestMessages_iff.mp honce
  cases hresult : ingestMessages F once db₀ with
  | mk outcome db' =>
      rw [hresult] at hok hdb
      obtain rfl : db' = db := hdb
      cases outcome with
      | error e => exact absurd hok (by simp [Except.isOk, Except.toBool])
      | ok result => exact ⟨_, once, result, hconvert, hmsgs, hresult⟩

theorem conforms_reading (h : ∀ call ∈ calls, Conforms staged position (call.fetch conversationId)) :
    ∀ call ∈ calls.map (DeliveryCall.reading uuidError F conversationId), Conforms staged position call.fetch := by
  intro reading hreading
  obtain ⟨call, hcall, rfl⟩ := List.mem_map.mp hreading
  exact h call hcall

theorem replays_reading (db₀ : LocalStoreDb) (staged : List RawDeliveryMessage) (calls : List DeliveryCall) :
    ∀ call ∈ calls.map (DeliveryCall.reading uuidError F conversationId),
      Replays staged (Had uuidError F db₀ staged) call.consume := by
  intro reading hreading
  obtain ⟨call, -, rfl⟩ := List.mem_map.mp hreading
  exact replays uuidError F db₀ staged call.clock

theorem kept_start (h : position none = some 0) :
    Kept staged position (Had uuidError F db₀ staged) (⟨none, false, db₀⟩ : Reader String LocalStoreDb) :=
  ⟨0, 0, ⟨[], rfl, rfl⟩, h, le_rfl, Nat.zero_le _, fun hdone => absurd hdone (by simp)⟩

/-- **A drain stores each distinct message once.** Whatever the pages, the failures of the transport and the retries: at every
moment the store is what ingesting each distinct message of a beginning of the delivered ones leaves, of everything before the
cursor at least and of nothing from a rejected message on; a drain that is through has ingested all, and draining again changes
nothing. If no message is rejected, the drain is through after as many answers as there are messages, and one. -/
theorem remote_ingest_drain (uuidError : String → String) (F : Platform) (conversationId : Uuid) (db₀ : LocalStoreDb)
    (staged : List RawDeliveryMessage) (position : Option String → Option Nat) (hstart : position none = some 0)
    (calls : List DeliveryCall) (hstore : ∀ call ∈ calls, Conforms staged position (call.fetch conversationId)) :
    (∃ n p, position (drain uuidError F conversationId ⟨none, false, db₀⟩ calls).cursor = some p ∧ p ≤ n ∧
        n ≤ staged.length ∧ Unrejected uuidError db₀ (staged.take n) ∧
        OnceEach uuidError F db₀ (staged.take n) (drain uuidError F conversationId ⟨none, false, db₀⟩ calls).store ∧
        ((drain uuidError F conversationId ⟨none, false, db₀⟩ calls).finished = true → n = staged.length)) ∧
      (Unrejected uuidError db₀ staged →
        staged.length < answeredCalls uuidError F conversationId ⟨none, false, db₀⟩ calls →
        (drain uuidError F conversationId ⟨none, false, db₀⟩ calls).finished = true) ∧
      ((drain uuidError F conversationId ⟨none, false, db₀⟩ calls).finished = true →
        ∀ again : List DeliveryCall, (∀ call ∈ again, Conforms staged position (call.fetch conversationId)) →
          (drain uuidError F conversationId
            ⟨none, false, (drain uuidError F conversationId ⟨none, false, db₀⟩ calls).store⟩ again).store =
          (drain uuidError F conversationId ⟨none, false, db₀⟩ calls).store) := by
  have hfetch : ∀ call ∈ calls.map (DeliveryCall.reading uuidError F conversationId), Conforms staged position call.fetch :=
    conforms_reading hstore
  have hreplays : ∀ call ∈ calls.map (DeliveryCall.reading uuidError F conversationId),
      Replays staged (Had uuidError F db₀ staged) call.consume := replays_reading db₀ staged calls
  have hkept := kept_run hfetch hreplays (kept_start hstart)
  simp only [drain_eq]
  -- the store has the first n messages, and the cursor is not past them
  obtain ⟨n, p, hhad, hpos, hpn, hn, hdone⟩ := id hkept
  refine ⟨⟨n, p, hpos, hpn, hn, unrejected_iff.mpr ⟨_, hhad⟩, hhad.onceEach, hdone⟩, ?_, ?_⟩
  · intro hunrejected hmany
    obtain ⟨final, hfinal⟩ := (unrejected_iff (F := F) (n := staged.length)).mp (by rwa [List.take_length])
    refine finished_of_answered hfetch hreplays ?_ (kept_start hstart) hmany
    intro reading hreading m db start stop hhad _ hstart hstop
    obtain ⟨call, -, rfl⟩ := List.mem_map.mp hreading
    exact consumePage_fst hfinal call.clock hhad hstart hstop
  · -- a drain from the start finds all messages there
    intro hfinished again hagain
    rw [hdone hfinished] at hhad
    exact @store_run _ _ _ _ _ _ ⟨none, false, _⟩ _ (conforms_reading hagain) (replays_reading db₀ staged again) hhad 0 hstart

end Drain

/-! ## Two messages in overlapping pages, and one message that is in the way -/

/-- A text from "alice", as the delivery store has it. -/
def rawText (id : Nat) (senderId : String) (text : String) : RawDeliveryMessage :=
  ⟨.uuid ⟨id⟩, .uuid ⟨1⟩, senderId, 1000, some text, [], none⟩

/-- The second page goes back to the first message. -/
def overlapping : DeliveryClient := fun _ cursor =>
  if cursor = none then .ok ⟨[rawText 2 "alice" "hi"], some "a"⟩
  else .ok ⟨[rawText 2 "alice" "hi", rawText 3 "bob" "ho"], none⟩

/-- The transport is down. -/
def offline : DeliveryClient := fun _ _ => .error (.network "down")

/-- Page, failure, page, and a call more. -/
def overlappingCalls : List DeliveryCall :=
  [⟨overlapping, fun _ => (1001, 1002)⟩, ⟨offline, fun _ => (1003, 1004)⟩, ⟨overlapping, fun _ => (1005, 1006)⟩,
    ⟨overlapping, fun _ => (1007, 1008)⟩]

def overlappingPosition (cursor : Option String) : Option Nat := if cursor = none then some 0 else some 1

theorem overlapping_conforms : ∀ call ∈ overlappingCalls,
    Conforms [rawText 2 "alice" "hi", rawText 3 "bob" "ho"] overlappingPosition (call.fetch ⟨1⟩) := by
  have hon : ∀ clock, Conforms [rawText 2 "alice" "hi", rawText 3 "bob" "ho"] overlappingPosition
      ((⟨overlapping, clock⟩ : DeliveryCall).fetch ⟨1⟩) := by
    intro clock
    refine ⟨rfl, fun cursor p page hp hpage => ?_⟩
    by_cases hnone : cursor = none
    · subst hnone
      obtain rfl : 0 = p := Option.some.inj hp
      obtain rfl : (⟨[rawText 2 "alice" "hi"], some "a"⟩ : Page RawDeliveryMessage String) = page := Option.some.inj hpage
      exact ⟨0, 1, le_rfl, by simp, rfl, 1, rfl, by simp, le_rfl⟩
    · have hlast : (⟨overlapping, clock⟩ : DeliveryCall).fetch ⟨1⟩ cursor =
          some ⟨[rawText 2 "alice" "hi", rawText 3 "bob" "ho"], none⟩ := by
        simp only [DeliveryCall.fetch, overlapping, if_neg hnone]
      obtain rfl := Option.some.inj (hlast.symm.trans hpage)
      exact ⟨0, 2, Nat.zero_le p, by simp, rfl, rfl⟩
  intro call hcall
  simp only [overlappingCalls, List.mem_cons, List.not_mem_nil, or_false] at hcall
  rcases hcall with rfl | rfl | rfl | rfl
  · exact hon _
  · exact ⟨rfl, fun cursor p page _ hpage => absurd hpage (by simp [DeliveryCall.fetch, offline])⟩
  · exact hon _
  · exact hon _

theorem overlapping_unrejected : Unrejected (fun s => s) (.fresh oneConversation) [rawText 2 "alice" "hi", rawText 3 "bob" "ho"] :=
  ⟨[⟨⟨2⟩, ⟨1⟩, "alice", 1000, some "hi", [], none⟩, ⟨⟨3⟩, ⟨1⟩, "bob", 1000, some "ho", [], none⟩], rfl, by decide⟩

/-- The drain is through, both messages are in once, and draining again changes nothing. -/
theorem remote_ingest_overlapping :
    (drain (fun s => s) .bare ⟨1⟩ ⟨none, false, .fresh oneConversation⟩ overlappingCalls).finished = true ∧
      OnceEach (fun s => s) .bare (.fresh oneConversation) [rawText 2 "alice" "hi", rawText 3 "bob" "ho"]
        (drain (fun s => s) .bare ⟨1⟩ ⟨none, false, .fresh oneConversation⟩ overlappingCalls).store := by
  obtain ⟨⟨n, p, -, -, -, -, honce, hdone⟩, hfinished, -⟩ := remote_ingest_drain (fun s => s) .bare ⟨1⟩
    (.fresh oneConversation) [rawText 2 "alice" "hi", rawText 3 "bob" "ho"] overlappingPosition rfl overlappingCalls
    overlapping_conforms
  have hthrough := hfinished overlapping_unrejected (by decide +kernel)
  obtain rfl := hdone hthrough
  exact ⟨hthrough, honce⟩

/-- A message without a sender, and one that is valid, on one page. -/
def stuckPage : DeliveryClient := fun _ _ => .ok ⟨[rawText 2 "" "hi", rawText 3 "bob" "ho"], none⟩

theorem stuckPage_step (clock : Nat → Int × Int) :
    drainStep (fun s => s) .bare ⟨1⟩ ⟨none, false, .fresh oneConversation⟩ ⟨stuckPage, clock⟩ =
      ⟨none, false, .fresh oneConversation⟩ :=
  rfl

/-- **One invalid message holds up the valid one after it**: however often the page is asked for, nothing is stored, although
the second message alone would be. -/
theorem later_message_never_ingested :
    (∀ clock, Conforms [rawText 2 "" "hi", rawText 3 "bob" "ho"] (fun cursor => if cursor = none then some 0 else none)
        ((⟨stuckPage, clock⟩ : DeliveryCall).fetch ⟨1⟩)) ∧
      (∀ calls : List DeliveryCall, (∀ call ∈ calls, call.client = stuckPage) →
        drain (fun s => s) .bare ⟨1⟩ ⟨none, false, .fresh oneConversation⟩ calls =
          ⟨none, false, .fresh oneConversation⟩) ∧
      (LocalStoreDb.fresh oneConversation).skeletons.has ⟨3⟩ = false ∧
      ∃ msg db, rawDeliveryToIngested (fun s => s) (rawText 3 "bob" "ho") = .ok msg ∧
        persistIngestedMessage .bare (.fresh oneConversation) msg 1001 1002 = .ok db ∧ db.skeletons.has ⟨3⟩ = true := by
  refine ⟨fun clock => ⟨rfl, ?_⟩, ?_, by decide, ?_⟩
  · intro cursor p page hp hpage
    obtain rfl := Option.some.inj hpage
    exact ⟨0, 2, Nat.zero_le p, by simp, rfl, rfl⟩
  · intro calls hcalls
    induction calls with
    | nil => rfl
    | cons call calls ih =>
        have hclient : call.client = stuckPage := hcalls call List.mem_cons_self
        have hcall : call = ⟨stuckPage, call.clock⟩ := by rw [← hclient]
        rw [drain, List.foldl_cons, hcall, stuckPage_step]
        exact ih fun c hc => hcalls c (List.mem_cons_of_mem call hc)
  · -- by itself the second message would land
    have hlands : (⟨⟨3⟩, ⟨1⟩, "bob", 1000, some "ho", [], none⟩ : IngestedMessage).Lands (.fresh oneConversation) :=
      ⟨by decide, by decide, by decide, List.nodup_nil, by simp⟩
    obtain ⟨db, hok⟩ := (persistIngestedMessage_isOk_iff .bare 1001 1002).mpr hlands
    obtain ⟨-, kind, -, hcreate, -⟩ := persistIngestedMessage_eq_ok hok
    refine ⟨_, db, rfl, hok, ?_⟩
    have hskel : db.skeletons.find? ⟨3⟩ = some _ := hcreate.skeleton
    rw [Table.has, hskel]
    rfl

end KChatCore.Message
