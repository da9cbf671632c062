import KChatCore.Message.Core

/-!
# `Message.DesktopIndex` — the search index of the operating system

The core gives the installed Spotlight and Windows Search anchors one item for each text of a batch, after the whole
batch went through. That is the only call it ever makes to them: an edit or a delete does not, nor does a batch that
fails after some of its messages are in, and the item of a duplicate replaces the one that is there.

`mirrors_step` says for each call when the index still mirrors the live messages afterwards; `mirrored_iff` is the
same for whole histories.
-/

namespace KChatCore.Message

open Lib LocalStore

/-! ## The items -/

/-- `SpotlightItem`; `WindowsSearchItem` has the same fields. -/
structure DesktopItem where
  uniqueId : Uuid
  title : String
  contentDescription : String
  displayName : String
  timestamp : Int
  conversationId : Uuid
deriving DecidableEq, Repr

/-- What an anchor keeps, by `unique_id`. -/
abbrev DesktopItems := Table DesktopItem.uniqueId

/-- `index_items`, of an anchor that replaces the item of an id. -/
def indexItems (index : DesktopItems) (items : List DesktopItem) : DesktopItems := items.foldl Table.upsert index

/-- The first 80 characters of a text. -/
def preview (text : String) : String := String.ofList (text.toList.take 80)

/-- The item of a message; a message without a text has none. -/
def IngestedMessage.desktopItem (msg : IngestedMessage) : Option DesktopItem :=
  msg.textContent.map fun text =>
    ⟨msg.messageId, msg.senderId, preview text, msg.senderId, msg.createdAtMs, msg.conversationId⟩

/-! ## The calls -/

/-- The store and what the installed anchors keep. -/
structure DesktopState where
  db : LocalStoreDb
  spotlight : Option DesktopItems
  windowsSearch : Option DesktopItems

/-- The indexes of the installed anchors. -/
def DesktopState.installed (s : DesktopState) : List DesktopItems := s.spotlight.toList ++ s.windowsSearch.toList

/-- A fresh store, and empty indexes. -/
def DesktopState.start (conversations : Table Conversation.conversationId) (spotlight windowsSearch : Bool) : DesktopState where
  db := .fresh conversations
  spotlight := if spotlight then some Table.empty else none
  windowsSearch := if windowsSearch then some Table.empty else none

/-- `maybe_index_in_desktop_search`. -/
def maybeIndexInDesktopSearch (s : DesktopState) (messages : List IngestedMessage) : DesktopState :=
  let items := messages.filterMap IngestedMessage.desktopItem
  { s with
    spotlight := s.spotlight.map fun index => indexItems index items
    windowsSearch := s.windowsSearch.map fun index => indexItems index items }

/-- The calls that change what the index should contain. -/
inductive DesktopCall
  | ingestMessages (batch : List Arrival)
  | editMessage (m : Uuid) (newText : String) (editedAtMs : Int)
  | deleteForMe (m : Uuid) (deletedAtMs : Int)
  | deleteForEveryone (m : Uuid) (deletedAtMs : Int)
  | deleteConversation (c : Uuid)

namespace DesktopCall

/-- The state a call leaves. -/
def apply (F : Platform) (s : DesktopState) : DesktopCall → DesktopState
  | ingestMessages batch =>
      match Message.ingestMessages F batch s.db with
      | (.ok _, db) => maybeIndexInDesktopSearch { s with db := db } (batch.map Arrival.msg)
      | (.error _, db) => { s with db := db }
  | editMessage m newText editedAtMs => { s with db := settle (Message.editMessage F s.db m newText editedAtMs) s.db }
  | deleteForMe m deletedAtMs => { s with db := settle (Message.deleteForMe s.db m deletedAtMs) s.db }
  | deleteForEveryone m deletedAtMs => { s with db := settle (Message.deleteForEveryone s.db m deletedAtMs) s.db }
  | deleteConversation c => { s with db := (Message.deleteConversation s.db c).2 }

/-- One call as a step. -/
def Step (F : Platform) (s : DesktopState) (call : DesktopCall) (s' : DesktopState) : Prop := call.apply F s = s'

/-- The store a call leaves. -/
def store (F : Platform) (db : LocalStoreDb) : DesktopCall → LocalStoreDb
  | ingestMessages batch => (Message.ingestMessages F batch db).2
  | editMessage m newText editedAtMs => settle (Message.editMessage F db m newText editedAtMs) db
  | deleteForMe m deletedAtMs => settle (Message.deleteForMe db m deletedAtMs) db
  | deleteForEveryone m deletedAtMs => settle (Message.deleteForEveryone db m deletedAtMs) db
  | deleteConversation c => (Message.deleteConversation db c).2

/-- The items a call gives to the anchors. -/
def items (F : Platform) (db : LocalStoreDb) : DesktopCall → List DesktopItem
  | ingestMessages batch =>
      if (Message.ingestMessages F batch db).1.isOk then
        (batch.map Arrival.msg).filterMap IngestedMessage.desktopItem
      else []
  | _ => []

theorem apply_eq (F : Platform) (s : DesktopState) (call : DesktopCall) :
    call.apply F s = ⟨call.store F s.db, s.spotlight.map fun index => indexItems index (call.items F s.db),
      s.windowsSearch.map fun index => indexItems index (call.items F s.db)⟩ := by
  have hnone : ∀ o : Option DesktopItems, o.map (fun index => indexItems index []) = o := by
    intro o
    cases o <;> rfl
  cases call with
  | ingestMessages batch =>
      rcases hloop : Message.ingestMessages F batch s.db with ⟨result | result, db⟩
      · simp only [apply, store, items, hloop]
        exact congrArg₂ (DesktopState.mk db) (hnone _).symm (hnone _).symm
      · simp only [apply, store, items, hloop]
        rfl
  | editMessage m newText ms => exact congrArg₂ (DesktopState.mk _) (hnone _).symm (hnone _).symm
  | deleteForMe m ms => exact congrArg₂ (DesktopState.mk _) (hnone _).symm (hnone _).symm
  | deleteForEveryone m ms => exact congrArg₂ (DesktopState.mk _) (hnone _).symm (hnone _).symm
  | deleteConversation c => exact congrArg₂ (DesktopState.mk _) (hnone _).symm (hnone _).symm

/-- Every installed index gets the items. -/
theorem mem_installed {F : Platform} {s s' : DesktopState} {call : DesktopCall} (h : Step F s call s')
    {index' : DesktopItems} :
    index' ∈ s'.installed ↔ ∃ index ∈ s.installed, index' = indexItems index (call.items F s.db) := by
  unfold Step at h
  rw [← h, apply_eq]
  simp only [DesktopState.installed, Option.toList_map, ← List.map_append, List.mem_map, eq_comm]

end DesktopCall

/-! ## Mirroring -/

/-- **The index mirrors the live messages**: every item is of a message that is there and not deleted and shows the
start of its text, and every such text has an item. -/
structure Mirrors (db : LocalStoreDb) (index : DesktopItems) : Prop where
  items : ∀ item ∈ index.rows, ∃ skel body text, db.skeletons.find? item.uniqueId = some skel ∧
    skel.bodyState.deleted = false ∧ db.bodies.find? item.uniqueId = some body ∧ body.textContent = some text ∧
    item.contentDescription = preview text
  covers : ∀ m skel body text, db.skeletons.find? m = some skel → skel.bodyState.deleted = false →
    db.bodies.find? m = some body → body.textContent = some text → index.has m = true

/-- Every installed index mirrors the store. -/
def Mirrored (s : DesktopState) : Prop := ∀ index ∈ s.installed, Mirrors s.db index

/-- What the index shows of a message. -/
def shown (index : DesktopItems) (m : Uuid) : Option String := (index.find? m).map DesktopItem.contentDescription

theorem mirrors_iff {db : LocalStoreDb} {index : DesktopItems} :
    Mirrors db index ↔ ∀ m, shown index m = (db.liveText m).map preview := by
  constructor
  · intro h m
    unfold shown
    cases hitem : index.find? m with
    | some item =>
        have hid : item.uniqueId = m := Table.key_of_find? hitem
        obtain ⟨skel, body, text, hskel, hlive, hbody, htext, hshows⟩ := h.items item (Table.mem_of_find? hitem)
        rw [hid] at hskel hbody
        rw [LocalStoreDb.liveText_eq_some.mpr ⟨skel, body, hskel, hlive, hbody, htext⟩]
        exact congrArg some hshows
    | none =>
        cases htext : db.liveText m with
        | none => rfl
        | some text =>
            obtain ⟨skel, body, hskel, hlive, hbody, htext⟩ := LocalStoreDb.liveText_eq_some.mp htext
            have hhas := h.covers m skel body text hskel hlive hbody htext
            rw [Table.has, hitem] at hhas
            exact absurd hhas (by decide)
  · intro h
    constructor
    · intro item hitem
      have hshown := h item.uniqueId
      rw [shown, Table.find?_of_mem hitem] at hshown
      obtain ⟨text, htext, hshows⟩ := Option.map_eq_some_iff.mp hshown.symm
      obtain ⟨skel, body, hskel, hlive, hbody, htext⟩ := LocalStoreDb.liveText_eq_some.mp htext
      exact ⟨skel, body, text, hskel, hlive, hbody, htext, hshows.symm⟩
    · intro m skel body text hskel hlive hbody htext
      have hshown := h m
      rw [LocalStoreDb.liveText_eq_some.mpr ⟨skel, body, hskel, hlive, hbody, htext⟩] at hshown
      obtain ⟨item, hitem, -⟩ := Option.map_eq_some_iff.mp hshown
      rw [Table.has, hitem, Option.isSome_some]

/-- The last text of a message in a batch. -/
def lastText (batch : List Arrival) (m : Uuid) : Option String :=
  ((batch.filter fun a => a.msg.messageId = m).filterMap fun a => a.msg.textContent).getLast?

/-- **The index after a batch** shows the last text of each message that has one in it. -/
theorem shown_indexItems (index : DesktopItems) (batch : List Arrival) (m : Uuid) :
    shown (indexItems index ((batch.map Arrival.msg).filterMap IngestedMessage.desktopItem)) m =
      ((lastText batch m).map preview).or (shown index m) := by
  have hcomp : (batch.map Arrival.msg).filterMap IngestedMessage.desktopItem = batch.filterMap fun a => a.msg.desktopItem :=
    List.filterMap_map
  have hitems : ((batch.filterMap fun a => a.msg.desktopItem).filter fun item => item.uniqueId = m).map
      DesktopItem.contentDescription =
      ((batch.filter fun a => a.msg.messageId = m).filterMap fun a => a.msg.textContent).map preview := by
    clear hcomp
    induction batch with
    | nil => rfl
    | cons a batch ih =>
        have hitem : a.msg.desktopItem = a.msg.textContent.map fun text => ⟨a.msg.messageId, a.msg.senderId,
            preview text, a.msg.senderId, a.msg.createdAtMs, a.msg.conversationId⟩ := rfl
        cases htext : a.msg.textContent with
        | none =>
            rw [htext] at hitem
            by_cases hid : a.msg.messageId = m <;> simp [hitem, htext, hid, ih]
        | some text =>
            rw [htext] at hitem
            by_cases hid : a.msg.messageId = m <;> simp [hitem, htext, hid, ih]
  unfold shown indexItems lastText
  rw [hcomp, Table.find?_foldl_upsert, ← List.getLast?_map, ← hitems, List.getLast?_map]
  exact Option.map_or

/-! ## One call -/

/-- **When a call keeps the mirror**, on a store `db` that is mirrored.

* A batch that goes through: the last text of each message in it starts like the text the message then has, which is
  its old one, if the message was there, and else that of its first arrival. A batch that does not: no message that is
  new in it and comes before the rejected one has a text.
* An edit that goes through: it does not change the start of the text.
* A delete: nothing with a text is deleted. -/
def DesktopCall.Sound (db : LocalStoreDb) : DesktopCall → Prop
  | ingestMessages batch =>
      if accepted db [] batch = batch then
        ∀ m text, lastText batch m = some text → (textAfter db batch m).map preview = some (preview text)
      else ∀ m, db.skeletons.has m = false → textAfter db (accepted db [] batch) m = none
  | editMessage m newText _ =>
      newText.isEmpty = false → ∀ skel body, db.skeletons.find? m = some skel → skel.bodyState = .localPlainAvailable →
        db.bodies.find? m = some body → ∃ text, body.textContent = some text ∧ preview newText = preview text
  | deleteForMe m _ | deleteForEveryone m _ =>
      ∀ skel, db.skeletons.find? m = some skel → skel.bodyState = .localPlainAvailable → db.liveText m = none
  | deleteConversation c => ∀ m, db.inConversation c m.toText = true → db.liveText m = none

section Step

variable {F : Platform} {db : LocalStoreDb} {index : DesktopItems} {m : Uuid}

/-- An index that is left alone mirrors the store as long as no text changes its start. -/
theorem mirrors_unchanged_iff {db' : LocalStoreDb} (h : Mirrors db index) :
    Mirrors db' index ↔ ∀ m, (db'.liveText m).map preview = (db.liveText m).map preview := by
  rw [mirrors_iff] at h ⊢
  constructor
  · intro h' m
    rw [← h', h]
  · intro hsame m
    rw [h, hsame]

/-- A delete keeps the mirror exactly when the message has no text. -/
theorem mirrors_delete (h : Mirrors db index) {scope : DeleteScope} {ms : Int} :
    Mirrors (settle (deleteInner db m scope ms) db) index ↔
      ∀ skel, db.skeletons.find? m = some skel → skel.bodyState = .localPlainAvailable → db.liveText m = none := by
  cases hok : deleteInner db m scope ms with
  | error e =>
      rw [settle_error]
      refine iff_of_true h ?_
      intro skel hskel hstate
      exact absurd (hok.symm.trans (deleteInner_eq_ok.mpr ⟨skel, hskel, hstate, rfl⟩)) (by simp)
  | ok db' =>
      obtain ⟨skel, hskel, hstate, rfl⟩ := deleteInner_eq_ok.mp hok
      obtain rfl := Table.key_of_find? hskel
      rw [settle_ok, mirrors_unchanged_iff h]
      simp only [liveText_deleteInnerTx hskel]
      constructor
      · intro hsame _ _ _
        have hgone := hsame skel.messageId
        rw [if_pos rfl, eq_comm] at hgone
        exact Option.map_eq_none_iff.mp hgone
      · intro hnone k
        by_cases hk : k = skel.messageId
        · rw [if_pos hk, hk, hnone skel hskel hstate]
        · rw [if_neg hk]

/-- An edit keeps the mirror exactly when the text starts as before. -/
theorem mirrors_edit (h : Mirrors db index) {newText : String} {ms : Int} :
    Mirrors (settle (editMessage F db m newText ms) db) index ↔ (DesktopCall.editMessage m newText ms).Sound db := by
  cases hok : editMessage F db m newText ms with
  | error e =>
      rw [settle_error]
      refine iff_of_true h ?_
      intro htext skel body hskel hstate _
      exact absurd (hok.symm.trans (editMessage_eq_ok.mpr ⟨htext, skel, hskel, hstate, rfl⟩)) (by simp)
  | ok db' =>
      obtain ⟨htext, skel, hskel, hstate, rfl⟩ := editMessage_eq_ok.mp hok
      obtain rfl := Table.key_of_find? hskel
      have hlive : db.liveText skel.messageId = (db.bodies.find? skel.messageId).bind MessageBody.textContent := by
        rw [LocalStoreDb.liveText, hskel, Option.bind_some, hstate]
        rfl
      rw [settle_ok, mirrors_unchanged_iff h]
      simp only [liveText_editMessageInner hskel hstate]
      constructor
      · intro hsame _ skel' body hskel' _ hbody
        have hstart := hsame skel.messageId
        rw [if_pos rfl, hlive, hbody] at hstart
        obtain ⟨text, htext, hpreview⟩ := Option.map_eq_some_iff.mp hstart.symm
        exact ⟨text, htext, hpreview.symm⟩
      · intro hsound k
        by_cases hk : k = skel.messageId
        · rw [if_pos hk, hk, hlive]
          cases hbody : db.bodies.find? skel.messageId with
          | none => rfl
          | some body =>
              obtain ⟨text, hold, hpreview⟩ := hsound htext skel body hskel hstate hbody
              rw [Option.bind_some, hold]
              exact congrArg some hpreview
        · rw [if_neg hk]

/-- A deleted conversation keeps the mirror exactly when none of its messages has a text. -/
theorem mirrors_deleteConversation (h : Mirrors db index) {c : Uuid} :
    Mirrors (deleteConversation db c).2 index ↔ (DesktopCall.deleteConversation c).Sound db := by
  rw [mirrors_unchanged_iff h]
  simp only [liveText_deleteConversation]
  constructor
  · intro hsame k hin
    have hgone := hsame k
    rw [if_pos hin, eq_comm] at hgone
    exact Option.map_eq_none_iff.mp hgone
  · intro hnone k
    by_cases hin : db.inConversation c k.toText = true
    · rw [if_pos hin, hnone k hin]
    · rw [if_neg hin]

/-- A message without an arrival in the batch keeps its text. -/
theorem textAfter_of_lastText {batch : List Arrival} (hnone : lastText batch m = none) :
    textAfter db batch m = db.liveText m := by
  unfold textAfter
  by_cases hold : db.skeletons.has m = true
  · rw [if_pos hold]
  · rw [if_neg hold, LocalStoreDb.liveText_of_free (Bool.eq_false_iff.mpr hold)]
    cases hfound : batch.find? fun a => decide (a.msg.messageId = m) with
    | none => rfl
    | some a =>
        rw [Option.bind_some]
        by_contra hsome
        obtain ⟨text, htext⟩ := Option.ne_none_iff_exists'.mp hsome
        have hmem : text ∈ (batch.filter fun a => decide (a.msg.messageId = m)).filterMap fun a => a.msg.textContent :=
          List.mem_filterMap.mpr ⟨a, List.mem_filter.mpr ⟨List.mem_of_find?_eq_some hfound, by
            simpa using List.find?_some hfound⟩, htext⟩
        rw [List.getLast?_eq_none_iff.mp hnone] at hmem
        exact absurd hmem (List.not_mem_nil)

/-- **A batch keeps the mirror exactly when it is sound.** -/
theorem mirrors_ingest (h : Mirrors db index) (batch : List Arrival) :
    Mirrors (ingestMessages F batch db).2 (indexItems index ((DesktopCall.ingestMessages batch).items F db)) ↔
      (DesktopCall.ingestMessages batch).Sound db := by
  obtain ⟨htext, hok⟩ := @ingestLoop_accepted F _ _ _ batch (Follows.refl db) ⟨0, 0, 0, none⟩
  have hstore : ∀ m, (ingestMessages F batch db).2.liveText m = textAfter db (accepted db [] batch) m := htext
  simp only [DesktopCall.items, DesktopCall.Sound]
  -- the loop went through, and the batch is indexed; or it failed, and nothing is
  by_cases hall : accepted db [] batch = batch
  · have hisOk : (ingestMessages F batch db).1.isOk = true := hok.mpr hall
    rw [if_pos hisOk, if_pos hall, mirrors_iff]
    rw [hall] at hstore
    simp only [shown_indexItems, hstore, mirrors_iff.mp h]
    constructor
    · intro hmirror m text hlast
      have hshown := hmirror m
      rw [hlast, Option.map_some, Option.some_or] at hshown
      exact hshown.symm
    · intro hsound m
      cases hlast : lastText batch m with
      | some text =>
          rw [Option.map_some, Option.some_or]
          exact (hsound m text hlast).symm
      | none =>
          rw [Option.map_none, Option.none_or, textAfter_of_lastText hlast]
  · have hisErr : ¬ (ingestMessages F batch db).1.isOk = true := fun hisOk => hall (hok.mp hisOk)
    rw [if_neg hisErr, if_neg hall]
    show Mirrors _ index ↔ _
    -- what landed before the failure must show no text
    rw [mirrors_unchanged_iff h]
    simp only [hstore]
    constructor
    · intro hsame m hfree
      have hgone := hsame m
      rw [LocalStoreDb.liveText_of_free hfree] at hgone
      exact Option.map_eq_none_iff.mp hgone
    · intro hsound m
      by_cases hold : db.skeletons.has m = true
      · rw [textAfter, if_pos hold]
      · have hfree := Bool.eq_false_iff.mpr hold
        rw [hsound m hfree, LocalStoreDb.liveText_of_free hfree]

/-- **One call keeps the mirror exactly when it is sound.** -/
theorem mirrors_step (h : Mirrors db index) (call : DesktopCall) :
    Mirrors (call.store F db) (indexItems index (call.items F db)) ↔ call.Sound db := by
  cases call with
  | ingestMessages batch => exact mirrors_ingest h batch
  | editMessage m newText ms => exact mirrors_edit h
  | deleteForMe m ms => exact mirrors_delete h
  | deleteForEveryone m ms => exact mirrors_delete h
  | deleteConversation c => exact mirrors_deleteConversation h

end Step

/-! ## Histories -/

/-- **A history keeps every installed index a mirror exactly when its calls are sound.** -/
theorem mirrored_iff {F : Platform} {conversations : Table Conversation.conversationId} {spotlight windowsSearch : Bool}
    {tr : List (DesktopState × DesktopCall)} {s : DesktopState} (hinstalled : (spotlight || windowsSearch) = true)
    (hrun : Run (DesktopCall.Step F) (.start conversations spotlight windowsSearch) tr s) :
    ((∀ p ∈ tr, Mirrored p.1) ∧ Mirrored s) ↔ ∀ p ∈ tr, p.2.Sound p.1.db := by
  apply hrun.throughout_iff (I := Mirrored) (J := fun s => s.installed ≠ []) (G := fun s call => call.Sound s.db)
  · intro s call s' hinstalled _ hstep
    obtain ⟨index, hindex⟩ := List.exists_mem_of_ne_nil _ hinstalled
    exact List.ne_nil_of_mem ((DesktopCall.mem_installed hstep).mpr ⟨index, hindex, rfl⟩)
  · intro s call s' hinstalled hmirrored hstep
    -- every bridge gets the same items, so one index stands for all
    have hstore : s'.db = call.store F s.db := by
      unfold DesktopCall.Step at hstep
      rw [← hstep, DesktopCall.apply_eq]
    obtain ⟨index, hindex⟩ := List.exists_mem_of_ne_nil _ hinstalled
    unfold Mirrored
    rw [hstore]
    constructor
    · intro hmirrored'
      exact (mirrors_step (hmirrored index hindex) call).mp
        (hmirrored' _ ((DesktopCall.mem_installed hstep).mpr ⟨index, hindex, rfl⟩))
    · intro hsound index' hindex'
      obtain ⟨old, hold, rfl⟩ := (DesktopCall.mem_installed hstep).mp hindex'
      exact (mirrors_step (hmirrored old hold) call).mpr hsound
  · cases spotlight <;> cases windowsSearch <;> simp_all [DesktopState.start, DesktopState.installed]
  · intro index hindex
    have hempty : index = Table.empty := by
      cases spotlight <;> cases windowsSearch <;> simp_all [DesktopState.start, DesktopState.installed]
    rw [hempty, mirrors_iff]
    intro m
    rfl

/-! "hi" arrives on a store with a Spotlight anchor. -/

/-- The batch that says "hi". -/
def hiBatch : DesktopCall := .ingestMessages [⟨aliceSays "hi", 1001, 1002⟩]

theorem mirrored_hi : ∃ s, Run (DesktopCall.Step .bare) (.start oneConversation true false)
    [(.start oneConversation true false, hiBatch)] s ∧
    (((∀ p ∈ [(DesktopState.start oneConversation true false, hiBatch)], Mirrored p.1) ∧ Mirrored s) ↔
      ∀ p ∈ [(DesktopState.start oneConversation true false, hiBatch)], p.2.Sound p.1.db) := by
  have hrun : Run (DesktopCall.Step .bare) (.start oneConversation true false)
      [(.start oneConversation true false, hiBatch)] (hiBatch.apply .bare (.start oneConversation true false)) :=
    Run.single rfl
  exact ⟨_, hrun, mirrored_iff rfl hrun⟩

/-- **A message that was deleted for me still has its item.** -/
theorem deleted_message_in_desktop_index : ∃ tr s index item,
    Run (DesktopCall.Step .bare) (.start oneConversation true false) tr s ∧ index ∈ s.installed ∧ item ∈ index.rows ∧
      item.contentDescription = "hi" ∧ s.db.deletedAs item.uniqueId .deletedForMe ∧ ¬ Mirrored s := by
  have htext : "hi".isEmpty = false := by decide
  obtain ⟨db, hok, hcreate, -⟩ := aliceSays_ingested htext
  have hskel : db.skeletons.find? aliceSkeleton.messageId = some aliceSkeleton := hcreate.skeleton
  let item : DesktopItem := ⟨⟨2⟩, "alice", "hi", "alice", 1000, ⟨1⟩⟩
  have hloop : ingestMessages .bare [⟨aliceSays "hi", 1001, 1002⟩] (.fresh oneConversation) = (.ok ⟨1, 0, 0, none⟩, db) := by
    simp only [ingestMessages, ingestLoop, hok]
    rfl
  have hingest : DesktopCall.Step .bare (.start oneConversation true false) hiBatch
      ⟨db, some (Table.empty.upsert item), none⟩ := by
    simp only [DesktopCall.Step, hiBatch, DesktopCall.apply]
    have hloop' : ingestMessages .bare [⟨aliceSays "hi", 1001, 1002⟩] (DesktopState.start oneConversation true false).db =
        (.ok ⟨1, 0, 0, none⟩, db) := hloop
    rw [hloop']
    rfl
  have hdelete : deleteForMe db ⟨2⟩ 2000 = .ok (deleteInnerTx db aliceSkeleton .forMe 2000) :=
    deleteInner_eq_ok.mpr ⟨aliceSkeleton, hskel, rfl, rfl⟩
  -- the delete does not touch the index
  have hgone : DesktopCall.Step .bare ⟨db, some (Table.empty.upsert item), none⟩ (.deleteForMe ⟨2⟩ 2000)
      ⟨deleteInnerTx db aliceSkeleton .forMe 2000, some (Table.empty.upsert item), none⟩ := by
    simp only [DesktopCall.Step, DesktopCall.apply, hdelete, settle_ok]
  have htombstone := congrArg MessageView.skeleton (view_deleteInnerTx .forMe 2000 hskel)
  refine ⟨_, _, Table.empty.upsert item, item, (Run.single hingest).trans (Run.single hgone), List.mem_singleton.mpr rfl,
    List.mem_singleton.mpr rfl, rfl, ⟨rfl, _, htombstone, rfl⟩, ?_⟩
  intro hmirrored
  obtain ⟨skel, -, -, hfound, hlive, -⟩ :=
    (hmirrored (Table.empty.upsert item) (List.mem_singleton.mpr rfl)).items item (List.mem_singleton.mpr rfl)
  obtain rfl := Option.some.inj (htombstone.symm.trans hfound)
  exact absurd hlive (by decide)

end KChatCore.Message
