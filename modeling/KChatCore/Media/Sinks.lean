import KChatCore.Lib.ObjectStore
import KChatCore.Media.Download

/-!
# `Media.Sinks` — where the originals are kept

Each `MediaBlobSink` puts the chunks of an asset, one after the other, into one object of a service: a CloudKit record, a
Drive file, an S3 object. The service gives the object an id, which the sink keeps in `sink_metadata`; a reference
without metadata is looked up under its `blob_id`.

* `LaidOut.holdsChunks` — chunks as the chunker cuts them are found in the blob they make.
* `fetches_iff` — when a reference fetches the chunks of an asset.
-/

namespace KChatCore.Media

open Lib

/-- What `encode_metadata` packs and `decode_metadata` unpacks. -/
structure SinkMetadata where
  fileId : IdText
  chunkCount : Nat
  merkleRoot : ByteArr 32
deriving DecidableEq

/-- `MediaBlobReference`. -/
structure MediaBlobReference where
  blobId : Uuid
  storageSink : String
  sinkMetadata : Option SinkMetadata
deriving DecidableEq

/-- **The service behind a sink**: its objects, and the id it gives to a file that is uploaded for an asset. -/
structure FileBridge (β : Type) extends ObjectStore IdText Bytes β where
  assign : IdText → β → IdText

/-- The objects of a bucket, by the asset id in their key: `media/{asset_id}`. -/
def s3Bridge {β : Type} (s3 : ObjectStore IdText Bytes β) : FileBridge β where
  toObjectStore := s3
  assign assetId _ := assetId

/-- `MediaBlobSink`: the tag of its references, the name in its messages, and its service. -/
structure MediaBlobSink (β : Type) where
  tag : String
  name : String
  bridge : FileBridge β

section Sinks

variable {β : Type}

/-- `GoogleDriveMediaBlobSink`. -/
def googleDriveMediaBlobSink (bridge : FileBridge β) : MediaBlobSink β := ⟨"google_drive", "GoogleDriveMediaBlobSink", bridge⟩

/-- `ICloudMediaBlobSink`. -/
def iCloudMediaBlobSink (bridge : FileBridge β) : MediaBlobSink β := ⟨"icloud", "ICloudMediaBlobSink", bridge⟩

/-- `ZkObjectFabricSink`. -/
def zkObjectFabricSink (s3 : ObjectStore IdText Bytes β) : MediaBlobSink β :=
  ⟨"zk_object_fabric", "ZkObjectFabricSink", s3Bridge s3⟩

namespace MediaBlobSink

variable (sink : MediaBlobSink β)

/-- `upload_media_chunks`. -/
def uploadMediaChunks (assetId : Uuid) (_ : BlobClass) (chunks : List Bytes) (expectedMerkleRoot : ByteArr 32) (s : β) :
    Except Error MediaBlobReference × β :=
  if u32Max < chunks.length then
    (.error (.storageMsg (sink.name ++ "::upload_media_chunks: too many chunks (" ++ toString chunks.length ++ ")")), s)
  else
    let blob := chunks.flatten
    let fileId := sink.bridge.assign assetId.toText s
    (.ok ⟨assetId, sink.tag, some ⟨fileId, chunks.length, expectedMerkleRoot⟩⟩, sink.bridge.put fileId blob s)

/-- The object a reference is looked up under. -/
def fileOf (ref : MediaBlobReference) : IdText :=
  match ref.sinkMetadata with
  | some m => m.fileId
  | none => ref.blobId.toText

/-- The error of a reference of another sink. -/
def mismatch (call : String) (ref : MediaBlobReference) : Error :=
  .storageMsg (sink.name ++ "::" ++ call ++ ": storage_sink mismatch \"" ++ ref.storageSink ++ "\"")

/-- `fetch_media_chunk`; a range is cut off at the end of the object. -/
def fetchMediaChunk (s : β) (ref : MediaBlobReference) (chunkIdx : Nat) : Except Error Bytes :=
  if ref.storageSink ≠ sink.tag then .error (sink.mismatch "fetch_media_chunk" ref)
  else
    match sink.bridge.get (fileOf ref) s with
    | none => .error (.storageMsg "no such file")
    | some blob => .ok ((blob.drop (chunkRange chunkIdx).1).take ((chunkRange chunkIdx).2 - (chunkRange chunkIdx).1))

/-- `delete_media_blob`. -/
def deleteMediaBlob (ref : MediaBlobReference) (s : β) : Except Error Unit × β :=
  if ref.storageSink ≠ sink.tag then (.error (sink.mismatch "delete_media_blob" ref), s)
  else (.ok (), sink.bridge.delete (fileOf ref) s)

end MediaBlobSink

/-! ## Objects that hold chunks -/

/-- **A blob that holds the chunks**, each at its offset. -/
def HoldsChunks (blob : Bytes) (chunks : List Bytes) : Prop :=
  ∀ i < chunks.length, chunk defaultChunkCiphertextSize blob i = chunks.getD i []

/-- Chunks that are laid out as the chunker cuts them: full, but for the last one. -/
structure LaidOut (chunks : List Bytes) : Prop where
  full : ∀ i, i + 1 < chunks.length → (chunks.getD i []).length = defaultChunkCiphertextSize
  last : ∀ i < chunks.length, (chunks.getD i []).length ≤ defaultChunkCiphertextSize

/-- **Chunks that are laid out are found in the blob they make.** -/
theorem LaidOut.holdsChunks {chunks : List Bytes} (h : LaidOut chunks) : HoldsChunks chunks.flatten chunks := by
  intro i hi
  have hlist : chunks = (List.range chunks.length).map fun j => chunks.getD j [] := by
    apply List.ext_getElem
    · simp
    · intro j hj _
      simp [List.getD_eq_getElem?_getD, List.getElem?_eq_getElem hj]
  have hblob : chunks.flatten = (List.range chunks.length).flatMap fun j => chunks.getD j [] := by
    conv_lhs => rw [hlist]
    exact List.flatMap_def.symm
  rw [hblob]
  exact chunk_flatten h.full h.last hi

/-- **A sink whose object under a reference holds the chunks.** -/
def Fetches (sink : MediaBlobSink β) (s : β) (ref : MediaBlobReference) (chunks : List Bytes) : Prop :=
  ∀ i < chunks.length, sink.fetchMediaChunk s ref i = .ok (chunks.getD i [])

variable {sink : MediaBlobSink β} {s : β} {ref : MediaBlobReference} {chunks : List Bytes}

/-- The range of a chunk is the chunk. -/
theorem fetchMediaChunk_of_get {blob : Bytes} (htag : ref.storageSink = sink.tag)
    (hget : sink.bridge.get (MediaBlobSink.fileOf ref) s = some blob) (i : Nat) :
    sink.fetchMediaChunk s ref i = .ok (chunk defaultChunkCiphertextSize blob i) := by
  have hlen : (chunkRange i).2 - (chunkRange i).1 = defaultChunkCiphertextSize := by
    simp only [chunkRange]
    omega
  unfold MediaBlobSink.fetchMediaChunk
  rw [if_neg (not_not.mpr htag), hget, hlen]
  rfl

/-- A chunk that is fetched comes from the object of its reference. -/
theorem get_of_fetchMediaChunk {i : Nat} {buf : Bytes} (h : sink.fetchMediaChunk s ref i = .ok buf) :
    ref.storageSink = sink.tag ∧ ∃ blob, sink.bridge.get (MediaBlobSink.fileOf ref) s = some blob ∧
      buf = chunk defaultChunkCiphertextSize blob i := by
  by_cases htag : ref.storageSink = sink.tag
  · cases hget : sink.bridge.get (MediaBlobSink.fileOf ref) s with
    | none =>
        unfold MediaBlobSink.fetchMediaChunk at h
        rw [if_neg (not_not.mpr htag), hget] at h
        exact absurd h (by simp)
    | some blob =>
        rw [fetchMediaChunk_of_get htag hget] at h
        exact ⟨htag, blob, rfl, (Except.ok.inj h).symm⟩
  · unfold MediaBlobSink.fetchMediaChunk at h
    rw [if_pos htag] at h
    exact absurd h (by simp)

/-- **When a reference fetches the chunks**: it is one of the sink, and its object holds them. -/
theorem fetches_iff (hne : chunks ≠ []) :
    Fetches sink s ref chunks ↔ ref.storageSink = sink.tag ∧
      ∃ blob, sink.bridge.get (MediaBlobSink.fileOf ref) s = some blob ∧ HoldsChunks blob chunks := by
  constructor
  · intro h
    obtain ⟨htag, blob, hget, -⟩ := get_of_fetchMediaChunk (h 0 (List.length_pos_iff.mpr hne))
    refine ⟨htag, blob, hget, fun i hi => ?_⟩
    have hi' := h i hi
    rw [fetchMediaChunk_of_get htag hget] at hi'
    exact Except.ok.inj hi'
  · rintro ⟨htag, blob, hget, hholds⟩ i hi
    rw [fetchMediaChunk_of_get htag hget, hholds i hi]

end Sinks

end KChatCore.Media
