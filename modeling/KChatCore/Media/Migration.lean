import KChatCore.Media.Sinks
import KChatCore.Media.RoundTrip
import KChatCore.Media.Upload

/-!
# `Media.Migration` — moving an original from one sink to another

A plan lists the assets of a sink, each with a reference rebuilt from its row: no metadata. `migrateOne` fetches the
chunks, uploads them under the asset id, reads them back through the reference of the upload, and writes the new sink and
blob id into the row. What the row does not keep is the id that the service gave to the file, and what the chunks are
bound to is the blob id the row had.

* `migrateOne_of_no_fault` — the outcomes of a migration.
* `migration_keeps_readable_iff` — when the row can still be read afterwards.
-/

namespace KChatCore.Media

open Lib LocalStore Message

/-- `MediaMigrationItem`. -/
structure MediaMigrationItem where
  assetId : Uuid
  blobId : Uuid
  chunkCount : Nat
  merkleRoot : ByteArr 32
  sinkMetadata : Option SinkMetadata
deriving DecidableEq

/-- `MediaMigrationPlan`. -/
structure MediaMigrationPlan where
  sourceSink : String
  targetSink : String
  items : List MediaMigrationItem
deriving DecidableEq

/-- `MigrationItemOutcome`. -/
inductive MigrationItemOutcome
  | migrated
  | alreadyOnTarget
  | failed (reason : String)
deriving DecidableEq

/-- `u32::try_from(chunk_count).unwrap_or(0)`. -/
def u32OrZero (chunkCount : Int) : Nat := if 0 ≤ chunkCount ∧ chunkCount ≤ u32Max then chunkCount.toNat else 0

/-- The item of a row; a row with a corrupted root is skipped. -/
def itemOf (asset : MediaAsset) : Option MediaMigrationItem :=
  if hroot : asset.merkleRoot.length = 32 then
    some ⟨asset.assetId, asset.blobId, u32OrZero asset.chunkCount, ⟨asset.merkleRoot, hroot⟩, none⟩
  else none

/-- `list_media_assets_by_storage_sink`. -/
def listMediaAssetsByStorageSink (db : LocalStoreDb) (sink : String) : List MediaAsset :=
  (db.assets.rows.filter fun a => a.storageSink = sink).mergeSort fun a b => a.assetId.val ≤ b.assetId.val

/-- `plan_media_migration`. -/
def planMediaMigration (db : LocalStoreDb) (sourceSink targetSink : String) : MediaMigrationPlan :=
  if sourceSink = targetSink then ⟨sourceSink, targetSink, []⟩
  else
    let items := (listMediaAssetsByStorageSink db sourceSink).filterMap itemOf
    ⟨sourceSink, targetSink, items.mergeSort fun a b => a.assetId.val ≤ b.assetId.val⟩

/-- **What fails on the way**: a call of the store, or of a sink. -/
structure MigrationFaults where
  probe : Option Error
  fetch : Nat → Option Error
  upload : Option Error
  verify : Nat → Option Error
  update : Option Error
  delete : Option Error

/-- A migration without faults. -/
def MigrationFaults.none : MigrationFaults := ⟨Option.none, fun _ => Option.none, Option.none, fun _ => Option.none,
  Option.none, Option.none⟩

/-- A call that may fail. -/
def orFault {α : Type} (fault : Option Error) (call : Except Error α) : Except Error α :=
  match fault with
  | some e => .error e
  | none => call

section Steps

variable {β : Type}

/-- The idempotency probe of `migrate_one`. -/
def probeItem (db : LocalStoreDb) (item : MediaMigrationItem) (targetSink : String) (fault : Option Error) :
    Option MigrationItemOutcome :=
  match fault with
  | some _ => some (.failed "get_media_asset")
  | none =>
      match db.getMediaAsset item.assetId with
      | some row => if row.storageSink = targetSink then some .alreadyOnTarget else none
      | none => none

/-- The reference to the source. -/
def MediaMigrationItem.sourceRef (item : MediaMigrationItem) (sourceSink : String) : MediaBlobReference :=
  ⟨item.blobId, sourceSink, item.sinkMetadata⟩

/-- The two loops over the chunks of an item. -/
def fetchChunks (who : String) (fetch : Nat → Except Error Bytes) : List Nat → Except String (List Bytes)
  | [] => .ok []
  | chunkIdx :: rest =>
      match fetch chunkIdx with
      | .error _ => .error (who ++ " fetch_media_chunk(idx=" ++ toString chunkIdx ++ ")")
      | .ok buf => (fetchChunks who fetch rest).map (buf :: ·)

/-- Step 1: every chunk, from the source. -/
def fetchItem (source : MediaBlobSink β) (item : MediaMigrationItem) (s : β) (faults : Nat → Option Error) :
    Except String (List Bytes) :=
  fetchChunks "source" (fun i => orFault (faults i) (source.fetchMediaChunk s (item.sourceRef source.tag) i))
    (List.range item.chunkCount)

/-- Step 2: the upload to the target. -/
def uploadItem (target : MediaBlobSink β) (item : MediaMigrationItem) (chunks : List Bytes) (t : β)
    (fault : Option Error) : Except String MediaBlobReference × β :=
  match fault with
  | some _ => (.error "target upload", t)
  | none =>
      match target.uploadMediaChunks item.assetId .media chunks item.merkleRoot t with
      | (.error _, t) => (.error "target upload", t)
      | (.ok ref, t) =>
          if ref.storageSink ≠ target.tag then
            (.error ("target sink reference returned storage_sink \"" ++ ref.storageSink ++ "\" (expected \"" ++
              target.tag ++ "\")"), t)
          else (.ok ref, t)

/-- Step 3: the chunks are read back, and hashed. -/
def verifyItem (P : Primitives) (target : MediaBlobSink β) (item : MediaMigrationItem) (chunks : List Bytes)
    (newRef : MediaBlobReference) (t : β) (faults : Nat → Option Error) : Except String Unit := do
  let back ← fetchChunks "target" (fun i => orFault (faults i) (target.fetchMediaChunk t newRef i))
    (List.range item.chunkCount)
  if P.contentHash back.flatten ≠ P.contentHash chunks.flatten then
    .error "transit-integrity hash mismatch after roundtrip"
  else .ok ()

/-- Step 4: the row. -/
def updateItem (db : LocalStoreDb) (item : MediaMigrationItem) (newRef : MediaBlobReference) (fault : Option Error) :
    Except String LocalStoreDb :=
  match fault with
  | some _ => .error "update_media_storage_sink"
  | none => .ok (db.updateMediaStorageSink item.assetId newRef.storageSink newRef.blobId)

/-- Step 5: the source, best-effort. -/
def deleteItem (source : MediaBlobSink β) (item : MediaMigrationItem) (s : β) (fault : Option Error) : β :=
  match fault with
  | some _ => s
  | none => (source.deleteMediaBlob (item.sourceRef source.tag) s).2

/-- What a migration of an item leaves: its outcome, the local store, the source and the target. -/
structure Migration (β : Type) where
  outcome : MigrationItemOutcome
  db : LocalStoreDb
  source : β
  target : β

/-- `migrate_one`. -/
def migrateOne (P : Primitives) (source target : MediaBlobSink β) (item : MediaMigrationItem) (deleteSource : Bool)
    (faults : MigrationFaults) (db : LocalStoreDb) (s t : β) : Migration β :=
  match probeItem db item target.tag faults.probe with
  | some outcome => ⟨outcome, db, s, t⟩
  | none =>
      match fetchItem source item s faults.fetch with
      | .error reason => ⟨.failed reason, db, s, t⟩
      | .ok chunks =>
          match uploadItem target item chunks t faults.upload with
          | (.error reason, t) => ⟨.failed reason, db, s, t⟩
          | (.ok newRef, t) =>
              match verifyItem P target item chunks newRef t faults.verify with
              | .error reason => ⟨.failed reason, db, s, t⟩
              | .ok () =>
                  match updateItem db item newRef faults.update with
                  | .error reason => ⟨.failed reason, db, s, t⟩
                  | .ok db => ⟨.migrated, db, if deleteSource then deleteItem source item s faults.delete else s, t⟩

end Steps

/-! ## Its steps, one by one -/

section Laws

variable {β : Type} {source target : MediaBlobSink β} {item : MediaMigrationItem} {db db' : LocalStoreDb} {s t t' : β}
  {chunks : List Bytes}

theorem orFault_eq_ok {α : Type} {fault : Option Error} {call : Except Error α} {a : α} :
    orFault fault call = .ok a ↔ fault = none ∧ call = .ok a := by
  cases fault <;> simp [orFault]

/-- A loop whose calls all succeed. -/
theorem fetchChunks_of_ok {who : String} {fetch : Nat → Except Error Bytes} {piece : Nat → Bytes} {idx : List Nat}
    (h : ∀ i ∈ idx, fetch i = .ok (piece i)) : fetchChunks who fetch idx = .ok (idx.map piece) := by
  induction idx with
  | nil => rfl
  | cons i idx ih =>
      unfold fetchChunks
      rw [h i List.mem_cons_self]
      simp only
      rw [ih fun j hj => h j (List.mem_cons_of_mem i hj)]
      rfl

/-- A loop that gets through: every call succeeded. -/
theorem fetchChunks_eq_ok {who : String} {fetch : Nat → Except Error Bytes} {idx : List Nat} {bufs : List Bytes}
    (h : fetchChunks who fetch idx = .ok bufs) : ∀ i ∈ idx, ∃ buf, fetch i = .ok buf := by
  induction idx generalizing bufs with
  | nil => intro i hi; exact absurd hi List.not_mem_nil
  | cons j idx ih =>
      unfold fetchChunks at h
      cases hj : fetch j with
      | error e =>
          rw [hj] at h
          exact absurd h (by simp)
      | ok buf =>
          rw [hj] at h
          cases hrest : fetchChunks who fetch idx with
          | error reason =>
              simp only [hrest] at h
              exact absurd h (by simp [Except.map])
          | ok rest =>
              intro i hi
              obtain rfl | hi := List.mem_cons.mp hi
              · exact ⟨buf, hj⟩
              · exact ih hrest i hi

/-- The positions of a list are its elements. -/
theorem map_getD_range (chunks : List Bytes) : ((List.range chunks.length).map fun i => chunks.getD i []) = chunks := by
  apply List.ext_getElem
  · simp
  · intro i _ hi
    simp [List.getD_eq_getElem?_getD, List.getElem?_eq_getElem hi]

/-- What a reference fetches, read chunk by chunk. -/
theorem fetchChunks_of_fetches {who : String} {sink : MediaBlobSink β} {ref : MediaBlobReference}
    {faults : Nat → Option Error} (h : Fetches sink s ref chunks) (hok : ∀ i < chunks.length, faults i = none) :
    fetchChunks who (fun i => orFault (faults i) (sink.fetchMediaChunk s ref i)) (List.range chunks.length) = .ok chunks := by
  have hcalls : ∀ i ∈ List.range chunks.length,
      orFault (faults i) (sink.fetchMediaChunk s ref i) = .ok (chunks.getD i []) := by
    intro i hi
    rw [List.mem_range] at hi
    exact orFault_eq_ok.mpr ⟨hok i hi, h i hi⟩
  rw [fetchChunks_of_ok hcalls, map_getD_range]

/-- The reference of the upload. -/
def uploadedRef (target : MediaBlobSink β) (item : MediaMigrationItem) (chunks : List Bytes) (t : β) : MediaBlobReference :=
  ⟨item.assetId, target.tag, some ⟨target.bridge.assign item.assetId.toText t, chunks.length, item.merkleRoot⟩⟩

/-- The target after the upload. -/
def uploadedStore (target : MediaBlobSink β) (item : MediaMigrationItem) (chunks : List Bytes) (t : β) : β :=
  target.bridge.put (target.bridge.assign item.assetId.toText t) chunks.flatten t

/-- An upload that nothing stops. -/
theorem uploadItem_ok (hcount : chunks.length ≤ u32Max) :
    uploadItem target item chunks t none =
      (.ok (uploadedRef target item chunks t), uploadedStore target item chunks t) := by
  unfold uploadItem MediaBlobSink.uploadMediaChunks
  rw [if_neg (not_lt.mpr hcount)]
  simp only [ne_eq, not_true_eq_false, if_false]
  rfl

/-- **What was uploaded is fetched through the reference of the upload.** -/
theorem fetches_uploaded (hlaid : LaidOut chunks) (hne : chunks ≠ []) :
    Fetches target (uploadedStore target item chunks t) (uploadedRef target item chunks t) chunks :=
  (fetches_iff hne).mpr ⟨rfl, chunks.flatten, target.bridge.get_put _ _ _, hlaid.holdsChunks⟩

/-- The fetch of an item whose source holds its chunks. -/
theorem fetchItem_ok {faults : Nat → Option Error} (hfetch : Fetches source s (item.sourceRef source.tag) chunks)
    (hcount : item.chunkCount = chunks.length) (hok : ∀ i < chunks.length, faults i = none) :
    fetchItem source item s faults = .ok chunks := by
  unfold fetchItem
  rw [hcount]
  exact fetchChunks_of_fetches hfetch hok

/-- What was uploaded is read back as it was. -/
theorem verifyItem_ok {P : Primitives} {faults : Nat → Option Error} (hlaid : LaidOut chunks) (hne : chunks ≠ [])
    (hcount : item.chunkCount = chunks.length) (hok : ∀ i < chunks.length, faults i = none) :
    verifyItem P target item chunks (uploadedRef target item chunks t) (uploadedStore target item chunks t) faults =
      .ok () := by
  unfold verifyItem
  rw [hcount, fetchChunks_of_fetches (fetches_uploaded hlaid hne) hok]
  show (if _ then _ else _) = _
  rw [if_neg (not_not.mpr rfl)]

/-- **The reference without metadata** fetches it if the service named the file after the asset. -/
theorem fetches_rebuilt_iff (hlaid : LaidOut chunks) (hne : chunks ≠ []) :
    Fetches target (uploadedStore target item chunks t) ⟨item.assetId, target.tag, none⟩ chunks ↔
      target.bridge.assign item.assetId.toText t = item.assetId.toText ∨
        Fetches target t ⟨item.assetId, target.tag, none⟩ chunks := by
  rw [fetches_iff hne, fetches_iff hne]
  unfold uploadedStore
  by_cases hnamed : target.bridge.assign item.assetId.toText t = item.assetId.toText
  · have hget : target.bridge.get item.assetId.toText (target.bridge.put
        (target.bridge.assign item.assetId.toText t) chunks.flatten t) = some chunks.flatten := by
      rw [hnamed]
      exact target.bridge.get_put _ _ _
    exact ⟨fun _ => .inl hnamed, fun _ => ⟨rfl, chunks.flatten, hget, hlaid.holdsChunks⟩⟩
  · have hget : target.bridge.get item.assetId.toText (target.bridge.put
        (target.bridge.assign item.assetId.toText t) chunks.flatten t) = target.bridge.get item.assetId.toText t :=
      target.bridge.get_put_of_ne _ _ (Ne.symm hnamed)
    show (_ ∧ ∃ blob, target.bridge.get item.assetId.toText _ = some blob ∧ _) ↔ _
    rw [hget]
    exact ⟨.inr, fun h => h.resolve_left hnamed⟩

/-- **Something fails before the row is written.** -/
def Faulted (faults : MigrationFaults) (n : Nat) : Prop :=
  faults.probe ≠ none ∨ (∃ i < n, faults.fetch i ≠ none) ∨ faults.upload ≠ none ∨ (∃ i < n, faults.verify i ≠ none) ∨
    faults.update ≠ none

variable {P : Primitives} {deleteSource : Bool} {faults : MigrationFaults}

/-- **A migration that nothing stops.** -/
theorem migrateOne_of_no_fault (hprobe : probeItem db item target.tag none = none)
    (hfetch : Fetches source s (item.sourceRef source.tag) chunks) (hcount : item.chunkCount = chunks.length)
    (hmax : chunks.length ≤ u32Max) (hlaid : LaidOut chunks) (hne : chunks ≠ [])
    (hok : ¬ Faulted faults item.chunkCount) :
    migrateOne P source target item deleteSource faults db s t =
      ⟨.migrated, db.updateMediaStorageSink item.assetId target.tag item.assetId,
        if deleteSource then deleteItem source item s faults.delete else s, uploadedStore target item chunks t⟩ := by
  unfold Faulted at hok
  push Not at hok
  obtain ⟨hprobeOk, hfetchOk, huploadOk, hverifyOk, hupdateOk⟩ := hok
  rw [hcount] at hfetchOk hverifyOk
  have hfetched := fetchItem_ok hfetch hcount hfetchOk
  have huploaded : uploadItem target item chunks t none = _ := uploadItem_ok hmax
  have hverified : verifyItem P target item chunks (uploadedRef target item chunks t) (uploadedStore target item chunks t)
      faults.verify = .ok () := verifyItem_ok hlaid hne hcount hverifyOk
  unfold migrateOne
  rw [hprobeOk, hprobe]
  simp only
  rw [hfetched]
  simp only
  rw [huploadOk, huploaded]
  simp only
  rw [hverified, hupdateOk]
  rfl

/-- **A migration that does not get through** leaves the row and the source alone. -/
theorem migrateOne_of_fault (hprobe : probeItem db item target.tag none = none)
    (hfault : Faulted faults item.chunkCount) :
    ∃ reason t', migrateOne P source target item deleteSource faults db s t = ⟨.failed reason, db, s, t'⟩ := by
  unfold migrateOne
  cases hp : faults.probe with
  | some e => exact ⟨_, t, rfl⟩
  | none =>
      rw [hprobe]
      simp only
      cases hf : fetchItem source item s faults.fetch with
      | error reason => exact ⟨reason, t, rfl⟩
      | ok chunks =>
          simp only
          cases hu : uploadItem target item chunks t faults.upload with
          | mk result t₁ =>
              cases result with
              | error reason => exact ⟨reason, t₁, rfl⟩
              | ok newRef =>
                  simp only
                  cases hv : verifyItem P target item chunks newRef t₁ faults.verify with
                  | error reason => exact ⟨reason, t₁, rfl⟩
                  | ok _ =>
                      simp only
                      cases hw : faults.update with
                      | some e => exact ⟨_, t₁, rfl⟩
                      | none =>
                          -- no step failed, so no fault was among those the steps read
                          exfalso
                          obtain hbad | ⟨i, hi, hbad⟩ | hbad | ⟨i, hi, hbad⟩ | hbad := hfault
                          · exact hbad hp
                          · obtain ⟨buf, hbuf⟩ := fetchChunks_eq_ok hf i (List.mem_range.mpr hi)
                            exact hbad (orFault_eq_ok.mp hbuf).1
                          · cases hfu : faults.upload with
                            | none => exact hbad hfu
                            | some e =>
                                rw [hfu] at hu
                                exact absurd hu (by simp [uploadItem])
                          · unfold verifyItem at hv
                            obtain ⟨back, hback, -⟩ := except_bind_eq_ok.mp hv
                            obtain ⟨buf, hbuf⟩ := fetchChunks_eq_ok hback i (List.mem_range.mpr hi)
                            exact hbad (orFault_eq_ok.mp hbuf).1
                          · exact hbad hw

end Laws

/-! ## When the row can still be read -/

/-- The reference that a plan rebuilds from a row. -/
def rowRef (row : MediaAsset) : MediaBlobReference := ⟨row.blobId, row.storageSink, none⟩

/-- The ciphertext of the chunks. -/
def ChunkedMedia.bytes (chunked : ChunkedMedia) : List Bytes := chunked.sealedChunks.map SealedChunk.ciphertext

section Readable

variable {β : Type} {P : Primitives} {kAsset : KeyMaterial} {source target : MediaBlobSink β} {row : MediaAsset}
  {chunked : ChunkedMedia} {plaintext : Bytes} {item : MediaMigrationItem} {deleteSource : Bool} {faults : MigrationFaults}
  {db : LocalStoreDb} {s t : β}

/-- **A row whose chunks are readable** through its sink, blob id and chunk count. -/
structure Readable (P : Primitives) (kAsset : KeyMaterial) (sink : MediaBlobSink β) (s : β) (row : MediaAsset)
    (chunked : ChunkedMedia) (plaintext : Bytes) : Prop where
  sealed_as : chunked.Seals P kAsset row.blobId.asBytes .media defaultChunkSize plaintext
  count : row.chunkCount = chunked.chunkCount
  root : row.merkleRoot = chunked.merkleRoot.toList
  fetches : Fetches sink s (rowRef row) chunked.bytes

/-- The chunks of an asset are laid out as the sinks expect. -/
theorem ChunkedMedia.Seals.laidOut {blobId : Bytes}
    (h : chunked.Seals P kAsset blobId .media defaultChunkSize plaintext) (htag : AppendsTag P) :
    chunked.bytes.length = chunked.chunkCount ∧ chunked.bytes ≠ [] ∧ LaidOut chunked.bytes := by
  have hbytes : chunked.bytes =
      (List.range chunked.chunkCount).map (chunked.ciphertext P kAsset blobId .media defaultChunkSize plaintext) :=
    h.ciphertexts
  have hlen : chunked.bytes.length = chunked.chunkCount := by rw [hbytes]; simp
  have hpos := h.count_pos
  have hget : ∀ i < chunked.chunkCount, (chunked.bytes.getD i []).length = (chunk defaultChunkSize plaintext i).length + tagLen := by
    intro i hi
    have hciphertext : chunked.bytes.getD i [] = chunked.ciphertext P kAsset blobId .media defaultChunkSize plaintext i := by
      rw [hbytes]
      simp [List.getD_eq_getElem?_getD, hi]
    rw [hciphertext]
    exact htag _ _ _ _
  refine ⟨hlen, ?_, ⟨fun i hi => ?_, fun i hi => ?_⟩⟩
  · rw [← List.length_pos_iff, hlen]
    exact hpos
  · rw [hlen] at hi
    rw [hget i (by omega), h.full i hi]
    rfl
  · rw [hlen] at hi
    rw [hget i hi, length_chunk]
    unfold defaultChunkCiphertextSize
    omega

/-- The own reference of a row fetches its chunks. -/
def OwnFetches (source target : MediaBlobSink β) (s t : β) (row : MediaAsset) (chunks : List Bytes) : Prop :=
  Fetches source s (rowRef row) chunks ∨ Fetches target t (rowRef row) chunks

/-- **The row keeps readable**: after a migration through the target, and the chunks decrypt under its blob id; after
anything else through its own reference. -/
def KeepsReadable (P : Primitives) (kAsset : KeyMaterial) (source target : MediaBlobSink β) (assetId : Uuid)
    (chunked : ChunkedMedia) (plaintext : Bytes) (out : Migration β) : Prop :=
  ∃ row, out.db.getMediaAsset assetId = some row ∧
    match out.outcome with
    | .migrated => Fetches target out.target (rowRef row) chunked.bytes ∧
        verifyAndDecrypt P chunked.sealedChunks chunked.merkleRoot kAsset row.blobId.asBytes .media = .ok plaintext
    | _ => OwnFetches source target out.source out.target row chunked.bytes

/-- The rebuilt reference of the row: the file is the asset's, or an old file of its name has the chunks. -/
def RebuiltServed (target : MediaBlobSink β) (t : β) (assetId : Uuid) (chunks : List Bytes) : Prop :=
  target.bridge.assign assetId.toText t = assetId.toText ∨ Fetches target t ⟨assetId, target.tag, none⟩ chunks

/-- The row after a migration. -/
theorem getMediaAsset_migrated (hrow : db.getMediaAsset row.assetId = some row) (sink : String) (blobId : Uuid) :
    (db.updateMediaStorageSink row.assetId sink blobId).getMediaAsset row.assetId =
      some { row with storageSink := sink, blobId := blobId } := by
  unfold LocalStoreDb.getMediaAsset LocalStoreDb.updateMediaStorageSink
  rw [LocalStoreDb.find?_updateAsset, if_pos rfl]
  have hfind : db.assets.find? row.assetId = some row := hrow
  rw [hfind]
  rfl

/-- The chunks open under the blob id they were sealed under, and no other. -/
theorem decrypts_iff {blobId : Uuid} {u : Uuid}
    (hseals : chunked.Seals P kAsset blobId.asBytes .media defaultChunkSize plaintext)
    (hapart : TellsBlobIdsApart P kAsset blobId .media plaintext chunked) :
    verifyAndDecrypt P chunked.sealedChunks chunked.merkleRoot kAsset u.asBytes .media = .ok plaintext ↔
      u.asBytes = blobId.asBytes := by
  constructor
  · intro h
    by_contra hother
    obtain ⟨pt, hopen⟩ := openChunk_of_verifyAndDecrypt hseals h
    have hclosed := hapart u hother
    unfold ChunkedMedia.aad at hclosed
    simp only [openChunk, hclosed] at hopen
    exact absurd hopen (by simp)
  · intro hsame
    exact verifyAndDecrypt_sealed (hseals.of_names hsame)

/-- A row that is on the target already: nothing changes. -/
theorem migrateOne_on_target (hrow : db.getMediaAsset item.assetId = some row) (htarget : row.storageSink = target.tag) :
    ∃ outcome, outcome ≠ .migrated ∧
      migrateOne P source target item deleteSource faults db s t = ⟨outcome, db, s, t⟩ := by
  unfold migrateOne probeItem
  cases faults.probe with
  | some e => exact ⟨_, by simp, rfl⟩
  | none =>
      rw [hrow]
      simp only [htarget, if_true]
      exact ⟨_, by simp, rfl⟩

/-- After anything but a migration, a row that is as it was keeps readable. -/
theorem keepsReadable_of_unmoved {outcome : MigrationItemOutcome} {t' : β} (hout : outcome ≠ .migrated)
    (hrow : db.getMediaAsset row.assetId = some row) (hown : OwnFetches source target s t' row chunked.bytes) :
    KeepsReadable P kAsset source target row.assetId chunked plaintext ⟨outcome, db, s, t'⟩ := by
  refine ⟨row, hrow, ?_⟩
  cases outcome with
  | migrated => exact absurd rfl hout
  | alreadyOnTarget => exact hown
  | failed reason => exact hown

/-- After a migration, the row names the target and the asset id. -/
theorem keepsReadable_migrated_iff {s' t' : β} (hrow : db.getMediaAsset row.assetId = some row) :
    KeepsReadable P kAsset source target row.assetId chunked plaintext
        ⟨.migrated, db.updateMediaStorageSink row.assetId target.tag row.assetId, s', t'⟩ ↔
      Fetches target t' ⟨row.assetId, target.tag, none⟩ chunked.bytes ∧
        verifyAndDecrypt P chunked.sealedChunks chunked.merkleRoot kAsset row.assetId.asBytes .media = .ok plaintext := by
  have hafter := getMediaAsset_migrated hrow target.tag row.assetId
  constructor
  · rintro ⟨after, hget, hboth⟩
    rw [hafter] at hget
    obtain rfl := Option.some.inj hget
    exact hboth
  · intro hboth
    exact ⟨{ row with storageSink := target.tag, blobId := row.assetId }, hafter, hboth⟩

/-- What a plan makes of a row in the source. -/
theorem planned_item (hcount : row.chunkCount = chunked.chunkCount) (hmax : chunked.chunkCount ≤ u32Max)
    (hsource : row.storageSink = source.tag) (h : itemOf row = some item) :
    item.chunkCount = chunked.chunkCount ∧ item.sourceRef source.tag = rowRef row := by
  unfold itemOf at h
  by_cases hroot : row.merkleRoot.length = 32
  · rw [dif_pos hroot] at h
    obtain rfl := Option.some.inj h
    constructor
    · show u32OrZero row.chunkCount = _
      unfold u32OrZero
      rw [hcount, if_pos ⟨by omega, by omega⟩]
      simp
    · unfold MediaMigrationItem.sourceRef rowRef
      rw [hsource]
  · rw [dif_neg hroot] at h
    exact absurd h (by simp)

/-- **When a migration keeps the row readable**: it is on the target already, something stops the migration, or the row's
blob id is its asset id and the service names the file after the asset. -/
theorem migration_keeps_readable_iff (htag : AppendsTag P) (htags : source.tag ≠ target.tag)
    (hrow : db.getMediaAsset row.assetId = some row)
    (hreadable : Readable P kAsset source s row chunked plaintext ∨ Readable P kAsset target t row chunked plaintext)
    (hapart : TellsBlobIdsApart P kAsset row.blobId .media plaintext chunked) (hasset : item.assetId = row.assetId)
    (hplanned : row.storageSink = source.tag → itemOf row = some item) :
    KeepsReadable P kAsset source target row.assetId chunked plaintext
        (migrateOne P source target item deleteSource faults db s t) ↔
      row.storageSink = target.tag ∨ Faulted faults chunked.chunkCount ∨
        (row.assetId.asBytes = row.blobId.asBytes ∧ RebuiltServed target t row.assetId chunked.bytes) := by
  rcases hreadable with hsource | htarget
  · obtain ⟨hlen, hne, hlaid⟩ := hsource.sealed_as.laidOut htag
    have hsink : row.storageSink = source.tag := ((fetches_iff hne).mp hsource.fetches).1
    have hmax := hsource.sealed_as.count_le
    obtain ⟨hcount, href⟩ := planned_item hsource.count hmax hsink (hplanned hsink)
    have hoff : row.storageSink ≠ target.tag := fun h => htags (hsink.symm.trans h)
    have hrow' : db.getMediaAsset item.assetId = some row := hasset ▸ hrow
    have hprobe : probeItem db item target.tag none = none := by
      unfold probeItem
      simp only [hrow', hoff, if_false]
    -- on the source: a fault leaves the row, and the file is still there
    by_cases hfault : Faulted faults chunked.chunkCount
    · obtain ⟨reason, t', hout⟩ : ∃ reason t', migrateOne P source target item deleteSource faults db s t =
          ⟨.failed reason, db, s, t'⟩ := migrateOne_of_fault hprobe (hcount.symm ▸ hfault)
      rw [hout]
      exact ⟨fun _ => .inr (.inl hfault),
        fun _ => keepsReadable_of_unmoved (by simp) hrow (.inl hsource.fetches)⟩
    · have hout : migrateOne P source target item deleteSource faults db s t = _ := migrateOne_of_no_fault hprobe
        (href ▸ hsource.fetches) (hcount.trans hlen.symm) (hlen ▸ hmax) hlaid hne (hcount ▸ hfault)
      rw [hout]
      -- migrated: the row now refers to the target, and its blob id changed
      rw [hasset, keepsReadable_migrated_iff hrow, decrypts_iff hsource.sealed_as hapart]
      have hrebuilt : Fetches target (uploadedStore target item chunked.bytes t) _ _ ↔ _ := fetches_rebuilt_iff hlaid hne
      rw [hasset] at hrebuilt
      rw [hrebuilt]
      unfold RebuiltServed
      tauto
  · obtain ⟨-, hne, -⟩ := htarget.sealed_as.laidOut htag
    have hsink : row.storageSink = target.tag := ((fetches_iff hne).mp htarget.fetches).1
    -- on the target already: the probe ends it
    obtain ⟨outcome, hnot, hout⟩ : ∃ outcome, outcome ≠ .migrated ∧
        migrateOne P source target item deleteSource faults db s t = ⟨outcome, db, s, t⟩ :=
      migrateOne_on_target (hasset ▸ hrow) hsink
    rw [hout]
    exact ⟨fun _ => .inl hsink, fun _ => keepsReadable_of_unmoved hnot hrow (.inr htarget.fetches)⟩

end Readable

/-! ## Two bytes on their way to Drive -/

/-- A service in memory, which names files with `assign`. -/
def memoryBridge (assign : IdText → IdText) : FileBridge (IdText → Option Bytes) where
  toObjectStore := ObjectStore.ofMap IdText Bytes
  assign assetId _ := assign assetId

/-- CloudKit: a record is named as it is asked to be. -/
def cloudKit : MediaBlobSink (IdText → Option Bytes) := iCloudMediaBlobSink (memoryBridge id)

/-- Drive: a file gets an id of Drive's. -/
def drive : MediaBlobSink (IdText → Option Bytes) :=
  googleDriveMediaBlobSink (memoryBridge fun _ => .malformed "drive-file-1")

/-- The row of the two bytes, and its item. -/
def hiRow (root : ByteArr 32) : MediaAsset :=
  ⟨⟨3⟩, ⟨2⟩, "image/png", 2, 2, .evicted, [], 1, root.toList, ⟨4⟩, "icloud"⟩

def hiItem (root : ByteArr 32) : MediaMigrationItem := ⟨⟨3⟩, ⟨4⟩, 1, root, none⟩

theorem itemOf_hiRow (root : ByteArr 32) : itemOf (hiRow root) = some (hiItem root) := by
  have hroot : (hiRow root).merkleRoot.length = 32 := root.length_val
  unfold itemOf
  rw [dif_pos hroot]
  rfl

/-- A store with the message, and with its asset. -/
def hiMessageDb : LocalStoreDb := (LocalStoreDb.fresh oneConversation).addSkeleton (hiImage.skeleton 0) (by decide) (by decide)

def hiDb (root : ByteArr 32) : LocalStoreDb :=
  have hfree : hiMessageDb.assets.has ⟨3⟩ = false := by decide
  have hskel : hiMessageDb.skeletons.has ⟨2⟩ = true := by decide
  hiMessageDb.addAsset (hiRow root) hfree hskel

theorem getMediaAsset_hiDb (root : ByteArr 32) : (hiDb root).getMediaAsset (hiRow root).assetId = some (hiRow root) := by
  have hfree : hiMessageDb.assets.has ⟨3⟩ = false := by decide
  exact Table.find?_append_self hiMessageDb.assets (hiRow root) hfree

/-- Two bytes, sealed in one chunk and kept on iCloud under their blob id. -/
theorem hi_on_cloudKit : ∃ (chunked : ChunkedMedia) (s : IdText → Option Bytes), chunked.chunkCount = 1 ∧
    Readable (taggingWith blobTag) (ByteArr.zeros 32) cloudKit s (hiRow chunked.merkleRoot) chunked
      (processedPlaintext true (utf8 "hi")) := by
  obtain ⟨asset, hprocess, hone⟩ := hi_sealed
  have hseals : asset.chunked.Seals (taggingWith blobTag) (ByteArr.zeros 32) (Uuid.mk 4).asBytes .media defaultChunkSize
      (processedPlaintext true (utf8 "hi")) := (processMedia_eq_ok hprocess).1
  obtain ⟨-, hne, hlaid⟩ := hseals.laidOut (taggingWith_appendsTag blobTag)
  let s : IdText → Option Bytes := fun id => if id = (Uuid.mk 4).toText then some asset.chunked.bytes.flatten else none
  have hget : cloudKit.bridge.get (Uuid.mk 4).toText s = some asset.chunked.bytes.flatten := by
    show (if (Uuid.mk 4).toText = (Uuid.mk 4).toText then _ else none) = _
    exact if_pos rfl
  exact ⟨asset.chunked, s, hone, hseals, by rw [hone]; rfl, rfl,
    (fetches_iff hne).mpr ⟨rfl, _, hget, hlaid.holdsChunks⟩⟩

theorem hi_to_drive_readable_iff : ∃ (chunked : ChunkedMedia) (s : IdText → Option Bytes),
    (KeepsReadable (taggingWith blobTag) (ByteArr.zeros 32) cloudKit drive ⟨3⟩ chunked
        (processedPlaintext true (utf8 "hi")) (migrateOne (taggingWith blobTag) cloudKit drive (hiItem chunked.merkleRoot)
          true .none (hiDb chunked.merkleRoot) s fun _ => none) ↔
      "icloud" = drive.tag ∨ Faulted .none chunked.chunkCount ∨
        ((Uuid.mk 3).asBytes = (Uuid.mk 4).asBytes ∧ RebuiltServed drive (fun _ => none) ⟨3⟩ chunked.bytes)) := by
  obtain ⟨chunked, s, -, hreadable⟩ := hi_on_cloudKit
  exact ⟨chunked, s, migration_keeps_readable_iff (taggingWith_appendsTag blobTag) (by decide +kernel)
    (getMediaAsset_hiDb _) (.inl hreadable) (blobTag_tellsApart _ _ _ _ _) rfl fun _ => itemOf_hiRow _⟩

/-- **A migration that succeeds, after which the row leads nowhere**: Drive named the file otherwise. -/
theorem hi_lost_on_drive : ∃ (chunked : ChunkedMedia) (s : IdText → Option Bytes),
    Readable (taggingWith blobTag) (ByteArr.zeros 32) cloudKit s (hiRow chunked.merkleRoot) chunked
      (processedPlaintext true (utf8 "hi")) ∧
      let out := migrateOne (taggingWith blobTag) cloudKit drive (hiItem chunked.merkleRoot) true .none
        (hiDb chunked.merkleRoot) s fun _ => none
      out.outcome = .migrated ∧ ¬ KeepsReadable (taggingWith blobTag) (ByteArr.zeros 32) cloudKit drive ⟨3⟩ chunked
        (processedPlaintext true (utf8 "hi")) out := by
  obtain ⟨chunked, s, hone, hreadable⟩ := hi_on_cloudKit
  obtain ⟨hlen, hne, hlaid⟩ := hreadable.sealed_as.laidOut (taggingWith_appendsTag blobTag)
  have hrow := getMediaAsset_hiDb chunked.merkleRoot
  have hprobe : probeItem (hiDb chunked.merkleRoot) (hiItem chunked.merkleRoot) drive.tag none = none := by
    unfold probeItem
    have hrow' : (hiDb chunked.merkleRoot).getMediaAsset (hiItem chunked.merkleRoot).assetId = _ := hrow
    have hoff : (hiRow chunked.merkleRoot).storageSink ≠ drive.tag := (by decide +kernel : ("icloud" : String) ≠ "google_drive")
    simp only [hrow', hoff, if_false]
  have hnoFault : ¬ Faulted .none (hiItem chunked.merkleRoot).chunkCount := by
    simp [Faulted, MigrationFaults.none]
  have hcount : chunked.bytes.length = 1 := hlen.trans hone
  have hout : migrateOne (taggingWith blobTag) cloudKit drive (hiItem chunked.merkleRoot) true .none
      (hiDb chunked.merkleRoot) s (fun _ => none) = _ := migrateOne_of_no_fault hprobe hreadable.fetches hcount.symm
    (hcount.trans_le (by decide)) hlaid hne hnoFault
  refine ⟨chunked, s, hreadable, ?_⟩
  simp only [hout]
  refine ⟨trivial, ?_⟩
  intro hkeeps
  have hfetches := ((keepsReadable_migrated_iff hrow).mp hkeeps).1
  obtain ⟨-, blob, hget, -⟩ := (fetches_iff hne).mp hfetches
  -- the only file Drive has is the one it named itself
  have hother : (Uuid.mk 3).toText ≠ IdText.malformed "drive-file-1" := by decide
  have hnone : Function.update (fun _ => none) (IdText.malformed "drive-file-1") (some chunked.bytes.flatten)
      (Uuid.mk 3).toText = some blob := hget
  rw [Function.update_of_ne hother] at hnone
  exact absurd hnone (by simp)

end KChatCore.Media
