import KChatCore.Media.Chunker
import KChatCore.Message.Media

/-!
# `Media.Processor` — sealing an asset, and moving it through its states

`processMedia` pads and seals the bytes under a fresh key and describes the result; the descriptor counts the bytes
before the padding, and its root is over the bytes after it. `transitionMediaState` guards every change of
`media_state`.

* `processMedia_eq_ok` — the descriptor and the chunks agree.
* `moveMedia_spec` — a run of transitions changes the state of the one asset and nothing else of it.
-/

namespace KChatCore.Media

open Lib LocalStore Message

/-- `MediaProcessResult`. -/
structure MediaProcessResult where
  descriptor : MediaDescriptor
  sealedChunks : List SealedChunk
  initialMediaState : MediaState
deriving DecidableEq

/-- `process_media`; `kAsset`, `assetId` and `blobId` are what it draws. -/
def processMedia (P : Primitives) (plaintext : Bytes) (mimeType : String) (wrappingKey : KeyMaterial)
    (blobClass : BlobClass) (pad : Bool) (kAsset : KeyMaterial) (assetId blobId : Uuid) :
    Except Error MediaProcessResult := do
  let chunked ← chunkAndEncrypt P plaintext kAsset blobId.asBytes blobClass defaultChunkSize pad
  let wrappedKAsset := wrapKAsset P kAsset wrappingKey
  return {
    descriptor := {
      assetId, mimeType, blobId, wrappedKAsset
      bytesTotal := plaintext.length
      chunkCount := chunked.chunkCount
      merkleRoot := chunked.merkleRoot
      storageSink := none }
    sealedChunks := chunked.sealedChunks
    initialMediaState := .thumbnailOnly }

/-- `transition_media_state`. -/
def transitionMediaState (db : LocalStoreDb) (assetId : Uuid) (source target : MediaState) : Except Error LocalStoreDb :=
  match source.tryTransition target with
  | .error e => .error (.storageMsg ("media_state transition: " ++ e.display))
  | .ok _ =>
      match db.getMediaAsset assetId with
      | none => .error (.storageMsg
          ("transition_media_state: no media_asset row for asset_id \"" ++ assetId.hyphenated ++ "\""))
      | some asset =>
          if asset.mediaState ≠ source then
            .error (.storageMsg ("transition_media_state: expected media_state = " ++ source.display ++ " for \"" ++
              assetId.hyphenated ++ "\", found " ++ asset.mediaState.display))
          else .ok (db.updateMediaState assetId target)

/-- Transitions of one asset, one after the other. -/
def moveMedia (assetId : Uuid) : List (MediaState × MediaState) → LocalStoreDb → Except Error LocalStoreDb
  | [], db => .ok db
  | (source, target) :: moves, db => do
      let db ← transitionMediaState db assetId source target
      moveMedia assetId moves db

/-! ## The chunks an asset is sealed in -/

section Processed

variable {P : Primitives} {plaintext : Bytes} {mimeType : String} {wrappingKey kAsset : KeyMaterial}
  {blobClass : BlobClass} {pad : Bool} {assetId blobId : Uuid} {result : MediaProcessResult}

/-- The chunks of a processed asset, with the root and the count its descriptor names. -/
def MediaProcessResult.chunked (result : MediaProcessResult) : ChunkedMedia :=
  ⟨result.sealedChunks, result.descriptor.merkleRoot, result.descriptor.chunkCount⟩

/-- **The descriptor and the chunks agree.** -/
theorem processMedia_eq_ok
    (h : processMedia P plaintext mimeType wrappingKey blobClass pad kAsset assetId blobId = .ok result) :
    result.chunked.Seals P kAsset blobId.asBytes blobClass defaultChunkSize
        (if pad then padToSizeClass plaintext else plaintext) ∧
      result.descriptor.assetId = assetId ∧ result.descriptor.blobId = blobId ∧
      result.descriptor.bytesTotal = plaintext.length ∧
      result.descriptor.wrappedKAsset = wrapKAsset P kAsset wrappingKey ∧ result.descriptor.storageSink = none := by
  unfold processMedia at h
  obtain ⟨chunked, hchunked, h⟩ := except_bind_eq_ok.mp h
  obtain rfl := Except.ok.inj h
  exact ⟨chunkAndEncrypt_eq_ok hchunked, rfl, rfl, rfl, rfl, rfl⟩

/-- Nothing but the number of chunks stops it. -/
theorem processMedia_of_countable (kAsset : KeyMaterial) (assetId blobId : Uuid)
    (h : totalChunks defaultChunkSize (if pad then padToSizeClass plaintext else plaintext) ≤ u32Max) :
    ∃ result, processMedia P plaintext mimeType wrappingKey blobClass pad kAsset assetId blobId = .ok result ∧
      result.descriptor.chunkCount =
        totalChunks defaultChunkSize (if pad then padToSizeClass plaintext else plaintext) := by
  have hsize : defaultChunkSize ≠ 0 := by decide
  unfold processMedia chunkAndEncrypt
  rw [if_neg hsize]
  simp only [not_lt.mpr h, if_false]
  exact ⟨_, rfl, rfl⟩

end Processed

/-! ## Transitions -/

section Transitions

variable {db db' : LocalStoreDb} {assetId : Uuid} {source target : MediaState}

/-- **When a transition goes through**: it is legal, and the asset is in the state it starts from. -/
theorem transitionMediaState_eq_ok :
    transitionMediaState db assetId source target = .ok db' ↔
      source.legal target = true ∧ (∃ asset, db.getMediaAsset assetId = some asset ∧ asset.mediaState = source) ∧
        db' = db.updateMediaState assetId target := by
  unfold transitionMediaState
  cases htry : source.tryTransition target with
  | error e =>
      have hillegal : ¬ source.legal target = true := by
        intro hlegal
        rw [MediaState.tryTransition_eq_ok.mpr ⟨hlegal, rfl⟩] at htry
        exact absurd htry (by simp)
      simp [hillegal]
  | ok s =>
      have hlegal := (MediaState.tryTransition_eq_ok.mp htry).1
      cases hget : db.getMediaAsset assetId with
      | none => simp
      | some asset =>
          by_cases hstate : asset.mediaState = source
          · simp [hstate, hlegal, eq_comm]
          · simp [hstate]

/-- **The one asset of a message**, in whatever state. -/
def Attached (db : LocalStoreDb) (asset : MediaAsset) (state : MediaState) : Prop :=
  db.getMediaAsset asset.assetId = some { asset with mediaState := state } ∧
    db.getMediaAssetByMessage asset.messageId = some { asset with mediaState := state }

theorem getMediaAssetByMessage_updateAsset (db : LocalStoreDb) (f : MediaAsset → MediaAsset)
    (hid : ∀ r, (f r).assetId = r.assetId) (hmessage : ∀ r, (f r).messageId = r.messageId) (m : Uuid) :
    (db.updateAsset assetId f hid hmessage).getMediaAssetByMessage m =
      (db.getMediaAssetByMessage m).map fun r => if r.assetId = assetId then f r else r := by
  show (db.assets.rows.map fun r => if decide (r.assetId = assetId) then f r else r).find? _ = _
  rw [List.find?_map]
  have hsame : ((fun a : MediaAsset => decide (a.messageId = m)) ∘
      fun r => if decide (r.assetId = assetId) then f r else r) = fun a => decide (a.messageId = m) := by
    funext r
    by_cases h : r.assetId = assetId <;> simp [h, hmessage]
  rw [hsame]
  simp [LocalStoreDb.getMediaAssetByMessage]

/-- **An update of the asset of a message.** -/
theorem Attached.updateAsset {asset : MediaAsset} {state : MediaState} (h : Attached db asset state)
    (f : MediaAsset → MediaAsset) (hid : ∀ r, (f r).assetId = r.assetId) (hmessage : ∀ r, (f r).messageId = r.messageId) :
    let row := f { asset with mediaState := state }
    (db.updateAsset asset.assetId f hid hmessage).getMediaAsset asset.assetId = some row ∧
      (db.updateAsset asset.assetId f hid hmessage).getMediaAssetByMessage asset.messageId = some row := by
  constructor
  · unfold LocalStoreDb.getMediaAsset
    rw [LocalStoreDb.find?_updateAsset, if_pos rfl]
    have hget : db.assets.find? asset.assetId = some { asset with mediaState := state } := h.1
    rw [hget]
    rfl
  · rw [getMediaAssetByMessage_updateAsset, h.2, Option.map_some, if_pos rfl]

theorem Attached.updateMediaState {asset : MediaAsset} (h : Attached db asset source) :
    Attached (db.updateMediaState asset.assetId target) asset target :=
  h.updateAsset (fun r => { r with mediaState := target }) (fun _ => rfl) fun _ => rfl

/-- **A run of transitions changes the state of the asset and nothing else of it.** -/
theorem moveMedia_spec {asset : MediaAsset} {moves : List (MediaState × MediaState)} {state : MediaState}
    (h : Attached db asset state) (hmove : moveMedia asset.assetId moves db = .ok db') :
    (∃ state', Attached db' asset state') ∧ db'.skeletons = db.skeletons := by
  induction moves generalizing db state with
  | nil =>
      obtain rfl := Except.ok.inj hmove
      exact ⟨⟨state, h⟩, rfl⟩
  | cons move moves ih =>
      obtain ⟨source, target⟩ := move
      unfold moveMedia at hmove
      obtain ⟨db₁, hstep, hrest⟩ := except_bind_eq_ok.mp hmove
      obtain ⟨-, -, rfl⟩ := transitionMediaState_eq_ok.mp hstep
      obtain ⟨hattached, hskel⟩ := ih h.updateMediaState hrest
      exact ⟨hattached, hskel⟩

end Transitions

end KChatCore.Media
