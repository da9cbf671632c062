import KChatCore.Media.MigrationRuns

/-!
# `Media.ConcurrentMigration` — migrations that cross

Neither the update of a row nor the delete of its source looks again at the row, which another run may have moved since
the plan.

* `held_moved` — what a step does to what the services hold under the ids of the assets.
* `placed_moved_iff` — a step keeps every row placed exactly when it is safe.
* `migrations_keep_placed_iff` — every row leads to its chunks all along a run of the system, exactly when each update
  writes a row that leads to them and no delete removes the object that the row names at that moment.
-/

namespace KChatCore.Media

open Lib LocalStore Message

/-! ## Rows that lead to their chunks -/

section Placed

variable {β : Type} {P : Primitives} {S : MediaServices β} {chunksOf : Uuid → List Bytes} {db₀ : LocalStoreDb}
  {w w' : MediaWorld β} {r : MigrationRun} {item : MediaMigrationItem} {faults : MigrationFaults}

/-- What a service holds under an id. -/
def MediaWorld.held (S : MediaServices β) (w : MediaWorld β) (tag : String) (id : Uuid) : Option Bytes :=
  (S.bridge tag).get id.toText (w.stores tag)

theorem held_setStore (w : MediaWorld β) (tag : String) (s : β) (id : Uuid) :
    (w.setStore tag s).held S tag id = (S.bridge tag).get id.toText s := by
  unfold MediaWorld.held MediaWorld.setStore
  simp only [Function.update_self]

theorem held_setStore_of_ne (w : MediaWorld β) {tag tag' : String} (h : tag' ≠ tag) (s : β) (id : Uuid) :
    (w.setStore tag s).held S tag' id = w.held S tag' id := by
  unfold MediaWorld.held MediaWorld.setStore
  simp only [Function.update_of_ne h]

/-- **A sink holds all of the chunks** under an id. -/
def MediaWorld.Holds (S : MediaServices β) (w : MediaWorld β) (tag : String) (id : Uuid) (chunks : List Bytes) : Prop :=
  ∃ blob, w.held S tag id = some blob ∧ HoldsChunks blob chunks

/-- **Every row names a sink and a blob id under which that sink holds all of the asset's chunks.** -/
def Placed (S : MediaServices β) (chunksOf : Uuid → List Bytes) (w : MediaWorld β) : Prop :=
  ∀ row ∈ w.db.assets.rows, w.Holds S row.storageSink row.blobId (chunksOf row.assetId)

/-- The ids a row has had a blob under, or will get: its asset id and its blob id. -/
def NamedBy (row : MediaAsset) (id : Uuid) : Prop := id = row.assetId ∨ id = row.blobId

/-- **Ids are not shared**: an id names one asset, and no service files an asset under the id of another. -/
structure Separate (S : MediaServices β) (db : LocalStoreDb) : Prop where
  apart : ∀ row ∈ db.assets.rows, ∀ row' ∈ db.assets.rows, ∀ id, NamedBy row id → NamedBy row' id → row = row'
  minted : ∀ tag s, ∀ row ∈ db.assets.rows, ∀ row' ∈ db.assets.rows, ∀ id,
    (S.bridge tag).assign row.assetId.toText s = id.toText → NamedBy row' id → row = row'

/-- The chunk count of a row is that of its chunks, a `u32`. -/
def Counted (chunksOf : Uuid → List Bytes) (db : LocalStoreDb) : Prop :=
  ∀ row ∈ db.assets.rows, row.chunkCount = (chunksOf row.assetId).length ∧ (chunksOf row.assetId).length ≤ u32Max

/-- **A step that keeps every row placed**: an update writes a row that leads to the chunks, and a delete does not remove
the object that the row names at that moment. -/
def MigrationRun.Safe (S : MediaServices β) (chunksOf : Uuid → List Bytes) (w : MediaWorld β) (r : MigrationRun)
    (faults : MigrationFaults) : Prop :=
  match r.phase with
  | .update item _ => faults.update ≠ none ∨ w.Holds S r.targetSink item.assetId (chunksOf item.assetId)
  | .delete item =>
      faults.delete ≠ none ∨
        ∀ row, w.db.getMediaAsset item.assetId = some row → ¬ (row.storageSink = r.sourceSink ∧ row.blobId = item.blobId)
  | _ => True

/-! ### What the runs keep -/

/-- The rows come from those of the start: other sinks, and a blob id that was an id of the asset. -/
structure Follows (db₀ db : LocalStoreDb) : Prop where
  comes : ∀ row ∈ db.assets.rows, ∃ row₀ ∈ db₀.assets.rows,
    row₀.assetId = row.assetId ∧ row₀.chunkCount = row.chunkCount ∧ NamedBy row₀ row.blobId
  stays : ∀ row₀ ∈ db₀.assets.rows, ∃ row ∈ db.assets.rows, row.assetId = row₀.assetId

/-- **An item of an asset**: what the source holds under its blob id, if anything, are the chunks of the asset. -/
structure Planned (S : MediaServices β) (chunksOf : Uuid → List Bytes) (db₀ : LocalStoreDb) (w : MediaWorld β)
    (sourceSink : String) (item : MediaMigrationItem) : Prop where
  named : ∃ row₀ ∈ db₀.assets.rows, row₀.assetId = item.assetId ∧ NamedBy row₀ item.blobId
  count : item.chunkCount = (chunksOf item.assetId).length
  bare : item.sinkMetadata = none
  good : ∀ blob, w.held S sourceSink item.blobId = some blob → HoldsChunks blob (chunksOf item.assetId)

/-- The reference of an upload of the item. -/
def RefOf (r : MigrationRun) (item : MediaMigrationItem) (newRef : MediaBlobReference) : Prop :=
  newRef.storageSink = r.targetSink ∧ newRef.blobId = item.assetId

/-- What holds of the item in hand. -/
def InHand (S : MediaServices β) (chunksOf : Uuid → List Bytes) (db₀ : LocalStoreDb) (w : MediaWorld β)
    (r : MigrationRun) : Prop :=
  match r.phase with
  | .plan => True
  | .next => True
  | .fetch item => Planned S chunksOf db₀ w r.sourceSink item
  | .upload item chunks => Planned S chunksOf db₀ w r.sourceSink item ∧ chunks = chunksOf item.assetId
  | .verify item _ newRef => Planned S chunksOf db₀ w r.sourceSink item ∧ RefOf r item newRef
  | .update item newRef => Planned S chunksOf db₀ w r.sourceSink item ∧ RefOf r item newRef
  | .delete item => Planned S chunksOf db₀ w r.sourceSink item

/-- **What holds of a run**, of its items and of the one in hand. -/
structure Sound (S : MediaServices β) (chunksOf : Uuid → List Bytes) (db₀ : LocalStoreDb) (w : MediaWorld β)
    (r : MigrationRun) : Prop where
  todo : ∀ item ∈ r.todo, Planned S chunksOf db₀ w r.sourceSink item
  hand : InHand S chunksOf db₀ w r

/-- The chunks of an asset, uploaded as one blob, are the asset's. -/
def Whole (chunksOf : Uuid → List Bytes) (db₀ : LocalStoreDb) : Prop :=
  ∀ row₀ ∈ db₀.assets.rows, HoldsChunks (chunksOf row₀.assetId).flatten (chunksOf row₀.assetId)

/-- Chunks that a blob holds are held by the blob they make. -/
theorem HoldsChunks.flatten {blob : Bytes} {chunks : List Bytes} (h : HoldsChunks blob chunks) :
    HoldsChunks chunks.flatten chunks := by
  have hlist : chunks = (List.range chunks.length).map (chunk defaultChunkCiphertextSize blob) := by
    apply List.ext_getElem
    · simp
    · intro i hi _
      have hi' := h i hi
      rw [List.getD_eq_getElem _ _ hi] at hi'
      simp [hi']
  have hblob : chunks.flatten = blob.take (chunks.length * defaultChunkCiphertextSize) := by
    conv_lhs => rw [hlist]
    rw [← flatMap_chunk, List.flatMap_def]
  intro i hi
  rw [hblob, chunk_take _ hi]
  exact h i hi

/-- **What a move does to what the services hold** under the ids of the assets: nothing, or it puts the chunks of the
asset there, or it deletes the source of its item. -/
theorem held_moved (hsep : Separate S db₀) (hsound : Sound S chunksOf db₀ w r) (h : Moved S faults w r w')
    {row₀ : MediaAsset} (hrow : row₀ ∈ db₀.assets.rows) {id : Uuid} (hid : NamedBy row₀ id) (tag : String) :
    w'.held S tag id = w.held S tag id ∨ w'.held S tag id = some (chunksOf row₀.assetId).flatten ∨
      (w'.held S tag id = none ∧ ∃ item, r.phase = .delete item ∧ faults.delete = none ∧ tag = r.sourceSink ∧
        id = item.blobId) := by
  have hhand := hsound.hand
  unfold InHand at hhand
  cases h with
  | nothing => exact .inl rfl
  | updated item newRef hphase hok => exact .inl rfl
  | uploaded item chunks hphase =>
      rw [hphase] at hhand
      obtain ⟨hitem, rfl⟩ := hhand
      obtain ⟨row, hrow', hasset, -⟩ := hitem.named
      by_cases htag : tag = r.targetSink
      · subst htag
        rw [held_setStore]
        by_cases hfile : id.toText = (S.bridge r.targetSink).assign item.assetId.toText (w.stores r.targetSink)
        · -- the new file has an id of its own asset
          have hsame : row = row₀ := hsep.minted r.targetSink _ row hrow' row₀ hrow id (hasset ▸ hfile.symm) hid
          right; left
          show (S.bridge r.targetSink).get id.toText ((S.bridge r.targetSink).put
            ((S.bridge r.targetSink).assign item.assetId.toText (w.stores r.targetSink)) _ _) = _
          rw [hfile, ObjectStore.get_put, ← hsame, hasset]
        · left
          exact (S.bridge r.targetSink).get_put_of_ne _ _ hfile
      · exact .inl (held_setStore_of_ne w htag _ id)
  | deleted item hphase hok =>
      rw [hphase] at hhand
      -- the delete names the file by the blob id
      have hfile : MediaBlobSink.fileOf (item.sourceRef r.sourceSink) = item.blobId.toText := by
        unfold MediaBlobSink.fileOf MediaMigrationItem.sourceRef
        rw [hhand.bare]
      rw [hfile]
      by_cases htag : tag = r.sourceSink
      · subst htag
        rw [held_setStore]
        by_cases hsame : id = item.blobId
        · right; right
          rw [hsame]
          exact ⟨ObjectStore.get_delete _ _ _, item, hphase, hok, rfl, rfl⟩
        · left
          exact ObjectStore.get_delete_of_ne _ _ fun h => hsame (Uuid.toText_inj.mp h)
      · exact .inl (held_setStore_of_ne w htag _ id)

/-- What a service holds for an item stays the asset's, whoever moves. -/
theorem Planned.moved (hsep : Separate S db₀) (hwhole : Whole chunksOf db₀) (hsound : Sound S chunksOf db₀ w r)
    (h : Moved S faults w r w') {sourceSink : String} (hitem : Planned S chunksOf db₀ w sourceSink item) :
    Planned S chunksOf db₀ w' sourceSink item := by
  obtain ⟨row₀, hrow, hasset, hnamed⟩ := hitem.named
  refine ⟨hitem.named, hitem.count, hitem.bare, fun blob hblob => ?_⟩
  rcases held_moved hsep hsound h hrow hnamed sourceSink with hsame | hput | ⟨hnone, -⟩
  · exact hitem.good blob (hsame ▸ hblob)
  · obtain rfl : (chunksOf row₀.assetId).flatten = blob := Option.some.inj (hput.symm.trans hblob)
    rw [← hasset]
    exact hwhole row₀ hrow
  · rw [hnone] at hblob
    exact absurd hblob (by simp)

/-- **A run is sound whoever moves.** -/
theorem Sound.moved (hsep : Separate S db₀) (hwhole : Whole chunksOf db₀) (hsound : Sound S chunksOf db₀ w r)
    (h : Moved S faults w r w') {r' : MigrationRun} (hsound' : Sound S chunksOf db₀ w r') :
    Sound S chunksOf db₀ w' r' := by
  have hitem : ∀ item, Planned S chunksOf db₀ w r'.sourceSink item → Planned S chunksOf db₀ w' r'.sourceSink item :=
    fun _ => Planned.moved hsep hwhole hsound h
  refine ⟨fun item htodo => hitem item (hsound'.todo item htodo), ?_⟩
  have hhand := hsound'.hand
  unfold InHand at hhand ⊢
  cases hphase : r'.phase with
  | plan => trivial
  | next => trivial
  | fetch item => rw [hphase] at hhand; exact hitem item hhand
  | upload item chunks => rw [hphase] at hhand; exact ⟨hitem item hhand.1, hhand.2⟩
  | verify item chunks newRef => rw [hphase] at hhand; exact ⟨hitem item hhand.1, hhand.2⟩
  | update item newRef => rw [hphase] at hhand; exact ⟨hitem item hhand.1, hhand.2⟩
  | delete item => rw [hphase] at hhand; exact hitem item hhand

/-- The rows after an update. -/
theorem mem_updateMediaStorageSink {db : LocalStoreDb} {assetId blobId : Uuid} {sink : String} {row : MediaAsset} :
    row ∈ (db.updateMediaStorageSink assetId sink blobId).assets.rows ↔
      ∃ old ∈ db.assets.rows, row = if old.assetId = assetId then { old with storageSink := sink, blobId := blobId } else old := by
  unfold LocalStoreDb.updateMediaStorageSink LocalStoreDb.updateAsset
  simp only [Table.mem_update, decide_eq_true_eq]

/-- The rows after a move come from the rows of the start. -/
theorem Follows.moved (hfollows : Follows db₀ w.db) (hsound : Sound S chunksOf db₀ w r) (h : Moved S faults w r w') :
    Follows db₀ w'.db := by
  have hhand := hsound.hand
  unfold InHand at hhand
  cases h with
  | nothing => exact hfollows
  | uploaded item chunks hphase => exact hfollows
  | deleted item hphase hok => exact hfollows
  | updated item newRef hphase hok =>
      rw [hphase] at hhand
      obtain ⟨hitem, hsink, hblob⟩ := hhand
      refine ⟨fun row hrow => ?_, fun row₀ hrow₀ => ?_⟩
      · obtain ⟨old, hold, rfl⟩ := mem_updateMediaStorageSink.mp hrow
        obtain ⟨row₀, hrow₀, hasset, hcount, hnamed⟩ := hfollows.comes old hold
        refine ⟨row₀, hrow₀, ?_⟩
        by_cases hit : old.assetId = item.assetId
        · rw [if_pos hit]
          exact ⟨hasset, hcount, .inl (hblob.trans (hit.symm.trans hasset.symm))⟩
        · rw [if_neg hit]
          exact ⟨hasset, hcount, hnamed⟩
      · obtain ⟨row, hrow, hasset⟩ := hfollows.stays row₀ hrow₀
        refine ⟨_, mem_updateMediaStorageSink.mpr ⟨row, hrow, rfl⟩, ?_⟩
        split <;> exact hasset

/-- What a plan takes from the rows of its source. -/
theorem mem_items {source target : String} (h : item ∈ (planMediaMigration w.db source target).items) :
    ∃ row ∈ w.db.assets.rows, row.storageSink = source ∧ itemOf row = some item := by
  unfold planMediaMigration at h
  split at h
  · exact absurd h List.not_mem_nil
  · rw [List.mem_mergeSort, List.mem_filterMap] at h
    obtain ⟨row, hrow, hitem⟩ := h
    unfold listMediaAssetsByStorageSink at hrow
    rw [List.mem_mergeSort, List.mem_filter, decide_eq_true_eq] at hrow
    exact ⟨row, hrow.1, hrow.2, hitem⟩

/-- The item of a row that leads to its chunks. -/
theorem planned_of_plan (hcounted : Counted chunksOf db₀) (hfollows : Follows db₀ w.db) (hplaced : Placed S chunksOf w)
    {source target : String} (h : item ∈ (planMediaMigration w.db source target).items) :
    Planned S chunksOf db₀ w source item := by
  obtain ⟨row, hrow, rfl, hitem⟩ := mem_items h
  obtain ⟨row₀, hrow₀, hasset, hcount, hnamed⟩ := hfollows.comes row hrow
  obtain ⟨hchunks, hmax⟩ := hcounted row₀ hrow₀
  rw [hasset] at hchunks hmax
  unfold itemOf at hitem
  split at hitem
  · obtain rfl := Option.some.inj hitem
    refine ⟨⟨row₀, hrow₀, hasset, hnamed⟩, ?_, rfl, fun blob hblob => ?_⟩
    · show u32OrZero row.chunkCount = _
      unfold u32OrZero
      rw [← hcount, hchunks, if_pos ⟨by omega, by omega⟩]
      simp
    · obtain ⟨blob', hblob', hholds⟩ := hplaced row hrow
      obtain rfl : blob' = blob := Option.some.inj (hblob'.symm.trans hblob)
      exact hholds
  · exact absurd hitem (by simp)

/-- **A fetch that gets through has the chunks of the asset.** -/
theorem chunks_of_fetchItem {sourceSink : String} (hitem : Planned S chunksOf db₀ w sourceSink item) {chunks : List Bytes}
    {faults : Nat → Option Error} (h : fetchItem (S.sink sourceSink) item (w.stores sourceSink) faults = .ok chunks) :
    chunks = chunksOf item.assetId := by
  unfold fetchItem at h
  have hcalls := fetchChunks_eq_ok h
  have hpieces : ∀ i ∈ List.range item.chunkCount, orFault (faults i)
      ((S.sink sourceSink).fetchMediaChunk (w.stores sourceSink) (item.sourceRef sourceSink) i) =
        .ok ((chunksOf item.assetId).getD i []) := by
    intro i hi
    obtain ⟨buf, hbuf⟩ := hcalls i hi
    obtain ⟨hfault, hfetch⟩ := orFault_eq_ok.mp hbuf
    rw [List.mem_range, hitem.count] at hi
    obtain ⟨-, blob, hget, hbuf'⟩ := get_of_fetchMediaChunk hfetch
    have hfile : MediaBlobSink.fileOf (item.sourceRef sourceSink) = item.blobId.toText := by
      unfold MediaBlobSink.fileOf MediaMigrationItem.sourceRef
      rw [hitem.bare]
    have hblob : w.held S sourceSink item.blobId = some blob := by
      unfold MediaWorld.held
      rw [← hfile]
      exact hget
    rw [← hitem.good blob hblob i hi, ← hbuf']
    exact hbuf
  have hok : fetchChunks "source" _ _ = _ := fetchChunks_of_ok hpieces
  rw [hitem.count, map_getD_range] at hok
  rw [hitem.count] at h
  exact Except.ok.inj (h.symm.trans hok)

/-- The reference of an upload. -/
theorem refOf_uploadItem {chunks : List Bytes} {newRef : MediaBlobReference} {t t' : β} {fault : Option Error}
    (h : uploadItem (S.sink r.targetSink) item chunks t fault = (.ok newRef, t')) : RefOf r item newRef := by
  cases fault with
  | some e => exact absurd h (by simp [uploadItem])
  | none =>
      by_cases hmax : u32Max < chunks.length
      · unfold uploadItem MediaBlobSink.uploadMediaChunks at h
        rw [if_pos hmax] at h
        exact absurd h (by simp)
      · rw [uploadItem_ok (not_lt.mp hmax)] at h
        obtain ⟨href, -⟩ := Prod.mk.inj h
        obtain rfl := Except.ok.inj href
        exact ⟨rfl, rfl⟩

/-- **A run is sound after its own move.** -/
theorem Sound.move (hcounted : Counted chunksOf db₀) (hfollows : Follows db₀ w.db) (hplaced : Placed S chunksOf w)
    (hsound : Sound S chunksOf db₀ w r) : Sound S chunksOf db₀ w (r.move P S faults w).2 := by
  have hhand := hsound.hand
  unfold InHand at hhand
  -- a report puts the item down
  have hreport : ∀ item outcome, Sound S chunksOf db₀ w (r.reportItem item outcome) := fun _ _ => ⟨hsound.todo, trivial⟩
  unfold MigrationRun.move
  -- what a phase has in hand is what the one before it read or wrote
  cases hphase : r.phase with
  | plan => exact ⟨fun item hitem => planned_of_plan hcounted hfollows hplaced hitem, trivial⟩
  | next =>
      cases htodo : r.todo with
      | nil =>
          simp only
          exact hsound
      | cons item todo =>
          have hall := hsound.todo
          rw [htodo] at hall
          have hrest : ∀ item ∈ todo, Planned S chunksOf db₀ w r.sourceSink item :=
            fun item' hitem' => hall item' (List.mem_cons_of_mem item hitem')
          simp only
          split
          · exact ⟨hrest, trivial⟩
          · exact ⟨hrest, hall item List.mem_cons_self⟩
  | fetch item =>
      rw [hphase] at hhand
      simp only
      split
      · exact hreport _ _
      · rename_i chunks hfetch
        exact ⟨hsound.todo, hhand, chunks_of_fetchItem hhand hfetch⟩
  | upload item chunks =>
      rw [hphase] at hhand
      simp only
      split
      · exact hreport _ _
      · rename_i newRef t hupload
        exact ⟨hsound.todo, hhand.1, refOf_uploadItem hupload⟩
  | verify item chunks newRef =>
      rw [hphase] at hhand
      simp only
      split
      · exact hreport _ _
      · exact ⟨hsound.todo, hhand⟩
  | update item newRef =>
      rw [hphase] at hhand
      simp only
      split
      · exact hreport _ _
      · simp only
        split
        · exact ⟨hsound.todo, hhand.1⟩
        · exact hreport _ _
  | delete item => exact hreport _ _

/-- The rows are those of before where nothing is updated. -/
theorem Moved.db_eq (h : Moved S faults w r w') (hphase : ∀ item newRef, r.phase ≠ .update item newRef) :
    w'.db = w.db := by
  cases h with
  | nothing => rfl
  | uploaded item chunks hupload => rfl
  | deleted item hdelete hok => rfl
  | updated item newRef hupdate hok => exact absurd hupdate (hphase item newRef)

/-- **An update keeps the rows placed** exactly when the row it writes leads to the chunks. -/
theorem placed_update_iff (hfollows : Follows db₀ w.db) (hplaced : Placed S chunksOf w)
    (hitem : Planned S chunksOf db₀ w r.sourceSink item) (sink : String) :
    Placed S chunksOf { w with db := w.db.updateMediaStorageSink item.assetId sink item.assetId } ↔
      w.Holds S sink item.assetId (chunksOf item.assetId) := by
  constructor
  · intro h
    obtain ⟨row₀, hrow₀, hasset₀, -⟩ := hitem.named
    obtain ⟨row, hrow, hasset⟩ := hfollows.stays row₀ hrow₀
    have hit : row.assetId = item.assetId := hasset.trans hasset₀
    have hafter := h { row with storageSink := sink, blobId := item.assetId }
      (mem_updateMediaStorageSink.mpr ⟨row, hrow, by rw [if_pos hit]⟩)
    rw [← hit] at hafter ⊢
    exact hafter
  · intro h row hrow
    obtain ⟨old, hold, rfl⟩ := mem_updateMediaStorageSink.mp hrow
    by_cases hit : old.assetId = item.assetId
    · rw [if_pos hit]
      show w.Holds S sink item.assetId (chunksOf old.assetId)
      rw [hit]
      exact h
    · rw [if_neg hit]
      exact hplaced old hold

/-- A row stays placed, unless its object is deleted. -/
theorem holds_moved (hsep : Separate S db₀) (hwhole : Whole chunksOf db₀) (hsound : Sound S chunksOf db₀ w r)
    (h : Moved S faults w r w') {row₀ : MediaAsset} (hrow : row₀ ∈ db₀.assets.rows) {id : Uuid} (hid : NamedBy row₀ id)
    {tag : String} (hholds : w.Holds S tag id (chunksOf row₀.assetId))
    (hdelete : ∀ item, r.phase = .delete item → faults.delete = none → ¬ (tag = r.sourceSink ∧ id = item.blobId)) :
    w'.Holds S tag id (chunksOf row₀.assetId) := by
  obtain ⟨blob, hblob, hchunks⟩ := hholds
  rcases held_moved hsep hsound h hrow hid tag with hsame | hput | ⟨-, item, hphase, hok, htag, hfile⟩
  · exact ⟨blob, hsame.trans hblob, hchunks⟩
  · exact ⟨_, hput, hwhole row₀ hrow⟩
  · exact absurd ⟨htag, hfile⟩ (hdelete item hphase hok)

/-- After a delete, nothing is held under the blob id of the item. -/
theorem held_move_delete (hphase : r.phase = .delete item) (hok : faults.delete = none) (hbare : item.sinkMetadata = none) :
    (r.move P S faults w).1.held S r.sourceSink item.blobId = none := by
  have hfile : MediaBlobSink.fileOf (item.sourceRef r.sourceSink) = item.blobId.toText := by
    unfold MediaBlobSink.fileOf MediaMigrationItem.sourceRef
    rw [hbare]
  have hown : ¬ (item.sourceRef r.sourceSink).storageSink ≠ r.sourceSink := not_not.mpr rfl
  unfold MigrationRun.move
  rw [hphase]
  simp only
  rw [held_setStore]
  unfold deleteItem MediaBlobSink.deleteMediaBlob
  simp only [hok, MediaServices.sink, hown, if_false]
  rw [hfile, ObjectStore.get_delete]

/-- **A move keeps the rows placed exactly when it is safe.** -/
theorem placed_moved_iff (hsep : Separate S db₀) (hwhole : Whole chunksOf db₀) (hfollows : Follows db₀ w.db)
    (hplaced : Placed S chunksOf w) (hsound : Sound S chunksOf db₀ w r) :
    Placed S chunksOf (r.move P S faults w).1 ↔ r.Safe S chunksOf w faults := by
  have hmoved := moved_move P S faults w r
  have hhand := hsound.hand
  unfold InHand at hhand
  -- where no row is updated, each row is looked at on its own
  have hkeep : (∀ item newRef, r.phase ≠ .update item newRef) →
      (∀ row ∈ w.db.assets.rows, ∀ item, r.phase = .delete item → faults.delete = none →
        ¬ (row.storageSink = r.sourceSink ∧ row.blobId = item.blobId)) → Placed S chunksOf (r.move P S faults w).1 := by
    intro hphase hdelete row hrow
    rw [hmoved.db_eq hphase] at hrow
    obtain ⟨row₀, hrow₀, hasset, -, hnamed⟩ := hfollows.comes row hrow
    rw [← hasset]
    exact holds_moved hsep hwhole hsound hmoved hrow₀ hnamed (hasset ▸ hplaced row hrow) (hdelete row hrow)
  unfold MigrationRun.Safe
  cases hphase : r.phase with
  | plan => exact ⟨fun _ => trivial, fun _ => hkeep (by simp [hphase]) (by simp [hphase])⟩
  | next => exact ⟨fun _ => trivial, fun _ => hkeep (by simp [hphase]) (by simp [hphase])⟩
  | fetch item => exact ⟨fun _ => trivial, fun _ => hkeep (by simp [hphase]) (by simp [hphase])⟩
  | upload item chunks => exact ⟨fun _ => trivial, fun _ => hkeep (by simp [hphase]) (by simp [hphase])⟩
  | verify item chunks newRef => exact ⟨fun _ => trivial, fun _ => hkeep (by simp [hphase]) (by simp [hphase])⟩
  | update item newRef =>
      rw [hphase] at hhand
      obtain ⟨hitem, hsink, hblob⟩ := hhand
      unfold MigrationRun.move
      rw [hphase]
      cases hfault : faults.update with
      | some e => exact ⟨fun _ => .inl (by simp), fun _ => hplaced⟩
      | none =>
          have hiff := placed_update_iff hfollows hplaced hitem r.targetSink
          show Placed S chunksOf { w with db := w.db.updateMediaStorageSink item.assetId newRef.storageSink newRef.blobId } ↔ _
          rw [hsink, hblob, hiff]
          simp
  | delete item =>
      rw [hphase] at hhand
      cases hfault : faults.delete with
      | some e => exact ⟨fun _ => .inl (by simp), fun _ => hkeep (by simp [hphase]) (by simp [hfault])⟩
      | none =>
          constructor
          · intro h
            right
            rintro row hget ⟨hsink, hblob⟩
            have hrow : row ∈ (r.move P S faults w).1.db.assets.rows := by
              rw [hmoved.db_eq (by simp [hphase])]
              exact Table.mem_of_find? hget
            obtain ⟨blob, hheld, -⟩ := h row hrow
            rw [hsink, hblob, held_move_delete hphase hfault hhand.bare] at hheld
            exact absurd hheld (by simp)
          · rintro (hbad | hother)
            · exact absurd rfl hbad
            · refine hkeep (by simp [hphase]) ?_
              intro row hrow item' hphase' _ hnames
              rw [hphase] at hphase'
              obtain rfl := MigrationPhase.delete.inj hphase'
              obtain ⟨row₀, hrow₀, hasset, -, hnamed⟩ := hfollows.comes row hrow
              obtain ⟨row₁, hrow₁, hasset₁, hnamed₁⟩ := hhand.named
              obtain rfl : row₁ = row₀ := hsep.apart row₁ hrow₁ row₀ hrow₀ item.blobId hnamed₁ (hnames.2 ▸ hnamed)
              have hit : row.assetId = item.assetId := hasset.symm.trans hasset₁
              exact hother row (hit ▸ Table.find?_of_mem hrow) hnames

/-! ### Runs of the system -/

/-- What holds all along: the rows come from those of the start, and every run is sound. -/
def Kept (S : MediaServices β) (chunksOf : Uuid → List Bytes) (db₀ : LocalStoreDb)
    (t : Threads (MediaWorld β) MigrationRun) : Prop :=
  Follows db₀ t.shared.db ∧ ∀ r ∈ t.locals, Sound S chunksOf db₀ t.shared r

/-- **A step that keeps every row placed.** -/
def SafeStep (S : MediaServices β) (chunksOf : Uuid → List Bytes) (t : Threads (MediaWorld β) MigrationRun)
    (label : Nat × MigrationFaults) : Prop :=
  ∀ r, t.locals[label.1]? = some r → r.Safe S chunksOf t.shared label.2

variable {t t' : Threads (MediaWorld β) MigrationRun} {label : Nat × MigrationFaults}

theorem kept_step (hsep : Separate S db₀) (hcounted : Counted chunksOf db₀) (hwhole : Whole chunksOf db₀)
    (hkept : Kept S chunksOf db₀ t) (hplaced : Placed S chunksOf t.shared) (h : migrationStep P S t label t') :
    Kept S chunksOf db₀ t' := by
  obtain ⟨hfollows, hsound⟩ := hkept
  unfold migrationStep at h
  subst h
  cases hr : t.locals[label.1]? with
  | none =>
      unfold Threads.stepAt
      rw [hr]
      exact ⟨hfollows, hsound⟩
  | some r =>
      have hmem : r ∈ t.locals := List.mem_of_getElem? hr
      have hmoved := moved_move P S label.2 t.shared r
      have hshared : (Threads.stepAt (MigrationRun.move P S label.2) t label.1).shared =
          (r.move P S label.2 t.shared).1 := by
        unfold Threads.stepAt
        rw [hr]
      unfold Kept
      rw [hshared]
      refine ⟨hfollows.moved (hsound r hmem) hmoved, fun r' hr' => ?_⟩
      apply Sound.moved hsep hwhole (hsound r hmem) hmoved
      rcases Threads.mem_stepAt hr hr' with rfl | hold
      · exact (hsound r hmem).move hcounted hfollows hplaced
      · exact hsound r' hold

theorem placed_step_iff (hsep : Separate S db₀) (hwhole : Whole chunksOf db₀) (hkept : Kept S chunksOf db₀ t)
    (hplaced : Placed S chunksOf t.shared) (h : migrationStep P S t label t') :
    Placed S chunksOf t'.shared ↔ SafeStep S chunksOf t label := by
  obtain ⟨hfollows, hsound⟩ := hkept
  unfold migrationStep at h
  subst h
  unfold SafeStep Threads.stepAt
  cases hr : t.locals[label.1]? with
  | none => exact ⟨fun _ r hr => absurd hr (by simp), fun _ => hplaced⟩
  | some r =>
      have hiff : Placed S chunksOf (r.move P S label.2 t.shared).1 ↔ _ :=
        placed_moved_iff hsep hwhole hfollows hplaced (hsound r (List.mem_of_getElem? hr))
      simp only [hiff, Option.some.injEq, forall_eq']

/-- **Where the runs start**: rows that lead to their chunks, under ids of their own, and runs that are about to plan. -/
structure MigrationStart (S : MediaServices β) (chunksOf : Uuid → List Bytes) (t : Threads (MediaWorld β) MigrationRun) :
    Prop where
  placed : Placed S chunksOf t.shared
  counted : Counted chunksOf t.shared.db
  separate : Separate S t.shared.db
  planning : ∀ r ∈ t.locals, ∃ source target deleteSource, r = .start source target deleteSource

/-- **Interleaved migrations keep every row placed, in every state they reach, exactly when all their steps are safe.** -/
theorem migrations_keep_placed_iff {tr : List (Threads (MediaWorld β) MigrationRun × (Nat × MigrationFaults))}
    (hstart : MigrationStart S chunksOf t) (hrun : Run (migrationStep P S) t tr t') :
    ((∀ p ∈ tr, Placed S chunksOf p.1.shared) ∧ Placed S chunksOf t'.shared) ↔
      ∀ p ∈ tr, SafeStep S chunksOf p.1 p.2 := by
  obtain ⟨hplaced, hcounted, hsep, hplanning⟩ := hstart
  have hwhole : Whole chunksOf t.shared.db := by
    intro row hrow
    obtain ⟨blob, -, hholds⟩ := hplaced row hrow
    exact hholds.flatten
  -- at the start no migration has anything in hand
  have hkept : Kept S chunksOf t.shared.db t := by
    refine ⟨⟨fun row hrow => ⟨row, hrow, rfl, rfl, .inr rfl⟩, fun row hrow => ⟨row, hrow, rfl⟩⟩, fun r hr => ?_⟩
    obtain ⟨source, target, deleteSource, rfl⟩ := hplanning r hr
    exact ⟨fun item hitem => absurd hitem List.not_mem_nil, trivial⟩
  apply hrun.throughout_iff (I := fun t => Placed S chunksOf t.shared) (J := Kept S chunksOf t.shared.db)
    (G := SafeStep S chunksOf) _ _ hkept hplaced
  · intro t₁ label t₂ hkept hplaced hstep
    exact kept_step hsep hcounted hwhole hkept hplaced hstep
  · intro t₁ label t₂ hkept hplaced hstep
    exact placed_step_iff hsep hwhole hkept hplaced hstep

end Placed

/-! ## There and back -/

/-- Services in memory that name a file after the asset. -/
def memoryServices : MediaServices (IdText → Option Bytes) := ⟨id, fun _ => memoryBridge id⟩

/-- A row that a migration has written: its blob id is its asset id. -/
def movedRow : MediaAsset := { hiRow (ByteArr.zeros 32) with blobId := ⟨3⟩ }

theorem movedRow_free : hiMessageDb.assets.has movedRow.assetId = false := by decide

theorem movedRow_message : hiMessageDb.skeletons.has movedRow.messageId = true := by decide

def movedDb : LocalStoreDb := hiMessageDb.addAsset movedRow movedRow_free movedRow_message

theorem assets_movedDb : movedDb.assets.rows = [movedRow] := rfl

/-- Its one chunk, on iCloud. -/
def movedWorld : MediaWorld (IdText → Option Bytes) :=
  ⟨movedDb, Function.update (fun _ _ => none) "icloud" (Function.update (fun _ => none) (Uuid.mk 3).toText (some [1]))⟩

/-- One run to ZK object fabric, which deletes its source, and one back. -/
def thereAndBack : Threads (MediaWorld (IdText → Option Bytes)) MigrationRun :=
  ⟨movedWorld, [.start "icloud" "zk_object_fabric" true, .start "zk_object_fabric" "icloud" false]⟩

theorem holdsChunks_one : HoldsChunks [1] [[1]] := by
  intro i hi
  obtain rfl : i = 0 := by simpa using hi
  rfl

theorem thereAndBack_start : MigrationStart memoryServices (fun _ => [[1]]) thereAndBack where
  placed := by
    intro row hrow
    obtain rfl : row = movedRow := by simpa [thereAndBack, movedWorld, assets_movedDb] using hrow
    exact ⟨[1], rfl, holdsChunks_one⟩
  counted := by
    intro row hrow
    obtain rfl : row = movedRow := by simpa [thereAndBack, movedWorld, assets_movedDb] using hrow
    exact ⟨rfl, by decide⟩
  separate := by
    have hone : ∀ row ∈ thereAndBack.shared.db.assets.rows, row = movedRow := by
      intro row hrow
      simpa [thereAndBack, movedWorld, assets_movedDb] using hrow
    exact ⟨fun row hrow row' hrow' _ _ _ => (hone row hrow).trans (hone row' hrow').symm,
      fun _ _ row hrow row' hrow' _ _ _ => (hone row hrow).trans (hone row' hrow').symm⟩
  planning := by
    intro r hr
    simp only [thereAndBack, List.mem_cons, List.not_mem_nil, or_false] at hr
    rcases hr with rfl | rfl
    · exact ⟨_, _, _, rfl⟩
    · exact ⟨_, _, _, rfl⟩

/-- A run over a store with one row that it can move, up to the update of the row. -/
theorem moves_of_only_row {β : Type} {P : Primitives} {S : MediaServices β} {w : MediaWorld β} {row : MediaAsset}
    {item : MediaMigrationItem} {chunks : List Bytes} {source target : String} {deleteSource : Bool}
    (hrows : w.db.assets.rows = [row]) (hitem : itemOf row = some item) (hsource : row.storageSink = source)
    (hapart : source ≠ target) (hprobe : probeItem w.db item target none = none)
    (hfetch : Fetches (S.sink source) (w.stores source) (item.sourceRef source) chunks)
    (hcount : item.chunkCount = chunks.length) (hmax : chunks.length ≤ u32Max) (hlaid : LaidOut chunks) (hne : chunks ≠ []) :
    Threads.Moves (MigrationRun.move P S .none) (w, .start source target deleteSource)
      ({ w with db := w.db.updateMediaStorageSink item.assetId target item.assetId }.setStore target
          (uploadedStore (S.sink target) item chunks (w.stores target)),
        if deleteSource then { MigrationRun.start source target deleteSource with phase := .delete item }
        else (MigrationRun.start source target deleteSource).reportItem item .migrated) := by
  have hitems : (planMediaMigration w.db source target).items = [item] := by
    unfold planMediaMigration listMediaAssetsByStorageSink
    rw [if_neg hapart, hrows]
    simp [hsource, hitem]
  have hplan : (MigrationRun.start source target deleteSource).move P S .none w =
      (w, { MigrationRun.start source target deleteSource with phase := .next, todo := [item] }) := by
    show (w, { MigrationRun.start source target deleteSource with
      phase := .next, todo := (planMediaMigration w.db source target).items }) = _
    rw [hitems]
  refine Threads.Moves.cons hplan ?_
  exact moves_to_update (r := { MigrationRun.start source target deleteSource with phase := .next, todo := [item] }) rfl rfl
    hprobe hfetch hcount hmax hlaid hne

/-- The item of the row. -/
def movedItem : MediaMigrationItem := ⟨⟨3⟩, ⟨3⟩, 1, ByteArr.zeros 32, none⟩

theorem itemOf_movedRow (sink : String) : itemOf { movedRow with storageSink := sink } = some movedItem := by
  have hroot : ({ movedRow with storageSink := sink } : MediaAsset).merkleRoot.length = 32 := (ByteArr.zeros 32).length_val
  unfold itemOf
  rw [dif_pos hroot]
  rfl

theorem laidOut_one : LaidOut [[1]] where
  full i hi := by
    have : i + 1 < 1 := hi
    omega
  last i hi := by
    obtain rfl : i = 0 := by simpa using hi
    decide

/-- The world with the row on a sink, and its chunk there. -/
structure RowOn (w : MediaWorld (IdText → Option Bytes)) (sink : String) : Prop where
  rows : w.db.assets.rows = [{ movedRow with storageSink := sink }]
  held : w.held memoryServices sink ⟨3⟩ = some [1]

/-- A run that moves the row: the world after it, and where it is. -/
theorem moves_of_rowOn {P : Primitives} {w : MediaWorld (IdText → Option Bytes)} {source target : String}
    {deleteSource : Bool} (h : RowOn w source) (hapart : source ≠ target) :
    ∃ w', RowOn w' target ∧ Threads.Moves (MigrationRun.move P memoryServices .none) (w, .start source target deleteSource)
      (w', if deleteSource then { MigrationRun.start source target deleteSource with phase := .delete movedItem }
        else (MigrationRun.start source target deleteSource).reportItem movedItem .migrated) := by
  have hrow : w.db.getMediaAsset movedItem.assetId = some { movedRow with storageSink := source } := by
    refine Table.find?_eq_some.mpr ⟨?_, rfl⟩
    rw [h.rows]
    exact List.mem_singleton_self _
  have hprobe : probeItem w.db movedItem target none = none := by
    unfold probeItem
    simp only [hrow, hapart, if_false]
  have hfetch : Fetches (memoryServices.sink source) (w.stores source) (movedItem.sourceRef source) [[1]] :=
    (fetches_iff (by simp)).mpr ⟨rfl, [1], h.held, holdsChunks_one⟩
  refine ⟨_, ⟨?_, ?_⟩, moves_of_only_row h.rows (itemOf_movedRow source) rfl hapart hprobe hfetch rfl (by decide)
    laidOut_one (by simp)⟩
  · show w.db.assets.rows.map _ = _
    rw [h.rows]
    rfl
  · rw [held_setStore]
    exact (memoryServices.bridge target).get_put _ _ _

/-- The first run, about to delete its source. -/
def aboutToDelete : MigrationRun := { MigrationRun.start "icloud" "zk_object_fabric" true with phase := .delete movedItem }

/-- The first run to its delete, and the second to its end. -/
theorem run_thereAndBack (P : Primitives) : ∃ tr w, RowOn w "icloud" ∧
    Run (migrationStep P memoryServices) thereAndBack tr
      ⟨w, [aboutToDelete, (MigrationRun.start "zk_object_fabric" "icloud" false).reportItem movedItem .migrated]⟩ := by
  have hstart : RowOn movedWorld "icloud" := ⟨rfl, rfl⟩
  obtain ⟨w₁, hon₁, hmoves₁⟩ : ∃ w', RowOn w' "zk_object_fabric" ∧ Threads.Moves (MigrationRun.move P memoryServices .none) _ _ :=
    moves_of_rowOn hstart (by decide)
  obtain ⟨tr₁, hrun₁⟩ := run_of_moves (t := thereAndBack) (i := 0) rfl hmoves₁
  obtain ⟨w₂, hon₂, hmoves₂⟩ : ∃ w', RowOn w' "icloud" ∧ Threads.Moves (MigrationRun.move P memoryServices .none) _ _ :=
    moves_of_rowOn hon₁ (by decide)
  obtain ⟨tr₂, hrun₂⟩ := run_of_moves (t := ⟨w₁, thereAndBack.locals.set 0 _⟩) (i := 1) rfl hmoves₂
  exact ⟨tr₁ ++ tr₂, w₂, hon₂, hrun₁.trans hrun₂⟩

theorem thereAndBack_keep_placed_iff : ∃ tr t', Run (migrationStep (taggingWith blobTag) memoryServices) thereAndBack tr t' ∧
    (((∀ p ∈ tr, Placed memoryServices (fun _ => [[1]]) p.1.shared) ∧ Placed memoryServices (fun _ => [[1]]) t'.shared) ↔
      ∀ p ∈ tr, SafeStep memoryServices (fun _ => [[1]]) p.1 p.2) := by
  obtain ⟨tr, w, -, hrun⟩ := run_thereAndBack (taggingWith blobTag)
  exact ⟨tr, _, hrun, migrations_keep_placed_iff thereAndBack_start hrun⟩

/-- **The run back brings the row to iCloud, where the first run deletes what it takes for its source.** -/
theorem thereAndBack_orphans : ∃ tr t', Run (migrationStep (taggingWith blobTag) memoryServices) thereAndBack tr t' ∧
    ¬ Placed memoryServices (fun _ => [[1]]) t'.shared := by
  obtain ⟨tr, w, hon, hrun⟩ := run_thereAndBack (taggingWith blobTag)
  refine ⟨_, _, hrun.trans (.single (a := (0, .none)) rfl), ?_⟩
  intro hplaced
  have hrow : { movedRow with storageSink := "icloud" } ∈ w.db.assets.rows := by
    rw [hon.rows]
    exact List.mem_singleton_self _
  obtain ⟨blob, hheld, -⟩ := hplaced _ hrow
  have hnone : (aboutToDelete.move (taggingWith blobTag) memoryServices .none w).1.held memoryServices
      aboutToDelete.sourceSink movedItem.blobId = none := held_move_delete rfl rfl rfl
  exact absurd (hheld.symm.trans hnone) (by simp)

end KChatCore.Media
