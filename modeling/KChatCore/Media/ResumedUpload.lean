import KChatCore.Lib.Run
import KChatCore.Media.Upload

/-!
# `Media.ResumedUpload` — an upload interrupted and taken up again

`resumeUpload` pushes the chunks its state does not mark, marks each one that is acknowledged, and commits. Any call to
the server may fail, before or after the server acted on it.

An `IdempotentServer` keeps, for each blob, the chunks it was given and the root it committed; a put and a commit leave
the blob as it was or act on it, and what they acknowledge they have done. Putting the same chunk twice, or committing
twice, is then the same as once.

* `Consistent` — what holds between the client's marks and the blob, kept by every call.
* `resumedUpload_as_uninterrupted` — the end of any number of resumed attempts is that of one uninterrupted upload.
-/

namespace KChatCore.Media

open Lib LocalStore Message

/-- `UploadState`. -/
structure UploadState where
  blobId : IdText
  completedChunks : List Bool
  merkleRoot : ByteArr 32
deriving DecidableEq

variable {σ : Type}

/-- The loop of `resume_upload`, over the chunks from `idx` on. -/
def resumeChunks (T : TransportClient σ) : List SealedChunk → Nat → UploadState → σ → Except Error Unit × UploadState × σ
  | [], _, state, s => (.ok (), state, s)
  | chunk :: rest, idx, state, s =>
      if state.completedChunks[idx]?.getD false then resumeChunks T rest (idx + 1) state s
      else if u32Max < idx then (.error (.storageMsg "resume_upload: chunk_idx exceeds u32::MAX"), state, s)
      else
        match T.uploadChunk s state.blobId idx chunk.ciphertext chunk.chunkSha256 with
        | (.error e, s) => (.error e, state, s)
        | (.ok receipt, s) =>
            if receipt.sha256 ≠ chunk.chunkSha256 ∨ receipt.chunkIdx ≠ idx then
              (.error (.storageMsg ("resume_upload: receipt mismatch for chunk " ++ toString idx)), state, s)
            else
              resumeChunks T rest (idx + 1)
                { state with completedChunks := state.completedChunks.set idx true } s

/-- The end of `resume_upload`: the commit. -/
def commitResumed (T : TransportClient σ) (state : UploadState) (s : σ) : Except Error UploadResult × σ :=
  match T.commitBlob s state.blobId with
  | (.error e, s) => (.error e, s)
  | (.ok serverMerkleRoot, s) =>
      if serverMerkleRoot ≠ state.merkleRoot then
        (.error (.storageMsg "resume_upload: server-side BLAKE3 root mismatch on commit"), s)
      else (.ok ⟨state.blobId, state.merkleRoot, serverMerkleRoot⟩, s)

/-- `resume_upload`; the class was announced when the upload was opened. -/
def resumeUpload (T : TransportClient σ) (state : UploadState) (sealedChunks : List SealedChunk) (_blobClass : BlobClass)
    (s : σ) : Except Error UploadResult × UploadState × σ :=
  if sealedChunks.isEmpty then
    (.error (.storageMsg "resume_upload: sealed_chunks must contain at least one chunk"), state, s)
  else if state.completedChunks.length ≠ sealedChunks.length then
    (.error (.storageMsg ("resume_upload: completed_chunks length " ++ toString state.completedChunks.length ++
      " != sealed_chunks length " ++ toString sealedChunks.length)), state, s)
  else
    match resumeChunks T sealedChunks 0 state s with
    | (.error e, state, s) => (.error e, state, s)
    | (.ok (), state, s) =>
        let (result, s) := commitResumed T state s
        (result, state, s)

/-! ## The server -/

/-- **A blob on the server**: the chunks received, the root announced, and the root committed. -/
@[ext] structure StoredBlob where
  chunks : Nat → Option Bytes
  expectedMerkleRoot : ByteArr 32
  committedRoot : Option (ByteArr 32)

namespace StoredBlob

/-- A blob that was just opened. -/
def opened (root : ByteArr 32) : StoredBlob := ⟨fun _ => none, root, none⟩

/-- Receive a chunk. -/
def put (b : StoredBlob) (idx : Nat) (c : Bytes) : StoredBlob :=
  { b with chunks := Function.update b.chunks idx (some c) }

/-- Commit once; a second commit keeps the root of the first. -/
def commit (rootOf : (Nat → Option Bytes) → ByteArr 32) (b : StoredBlob) : StoredBlob :=
  { b with committedRoot := some (b.committedRoot.getD (rootOf b.chunks)) }

@[simp] theorem put_chunks (b : StoredBlob) (idx : Nat) (c : Bytes) :
    (b.put idx c).chunks = Function.update b.chunks idx (some c) := rfl

theorem put_of_held {b : StoredBlob} {idx : Nat} {c : Bytes} (h : b.chunks idx = some c) : b.put idx c = b := by
  rw [put, ← h, Function.update_eq_self]

theorem commit_of_committed {rootOf : (Nat → Option Bytes) → ByteArr 32} {b : StoredBlob} {root : ByteArr 32}
    (h : b.committedRoot = some root) : b.commit rootOf = b := by
  rw [commit, h, Option.getD_some, ← h]

end StoredBlob

/-- **A server with idempotent puts and commits.** A call that fails may or may not have acted; one that is
acknowledged has. -/
structure IdempotentServer (rootOf : (Nat → Option Bytes) → ByteArr 32) (σ : Type) extends TransportClient σ where
  blob : σ → IdText → Option StoredBlob
  init_blob : ∀ s size blobClass root id s', initBlobUpload s size blobClass root = (.ok id, s') →
    blob s' id = some (.opened root)
  upload_blob : ∀ s id b idx c sha r s', blob s id = some b → uploadChunk s id idx c sha = (r, s') →
    blob s' id = some b ∨ blob s' id = some (b.put idx c)
  upload_acked : ∀ s id b idx c sha receipt s', blob s id = some b → uploadChunk s id idx c sha = (.ok receipt, s') →
    receipt.chunkIdx = idx → receipt.sha256 = sha → blob s' id = some (b.put idx c)
  commit_blob : ∀ s id b r s', blob s id = some b → commitBlob s id = (r, s') →
    blob s' id = some b ∨ blob s' id = some (b.commit rootOf)
  commit_acked : ∀ s id b root s', blob s id = some b → commitBlob s id = (.ok root, s') →
    blob s' id = some (b.commit rootOf) ∧ (b.commit rootOf).committedRoot = some root

variable {rootOf : (Nat → Option Bytes) → ByteArr 32}

/-- What the server answers does not depend on the log. -/
theorem unlogged {α : Type} {x : α × σ} {log : List Nat} {r : α} {s : σ × List Nat} (h : (x.1, (x.2, log)) = (r, s)) :
    x = (r, s.1) := by
  obtain ⟨rfl, rfl⟩ := Prod.mk.inj h
  rfl

/-- The same server, with a log of the chunks that are put. -/
def IdempotentServer.logged (T : IdempotentServer rootOf σ) : IdempotentServer rootOf (σ × List Nat) where
  initBlobUpload s size blobClass root :=
    ((T.initBlobUpload s.1 size blobClass root).1, ((T.initBlobUpload s.1 size blobClass root).2, s.2))
  uploadChunk s id idx c sha :=
    ((T.uploadChunk s.1 id idx c sha).1, ((T.uploadChunk s.1 id idx c sha).2, s.2 ++ [idx]))
  commitBlob s id := ((T.commitBlob s.1 id).1, ((T.commitBlob s.1 id).2, s.2))
  fetchBlobRange s := T.fetchBlobRange s.1
  blob s := T.blob s.1
  init_blob _ _ _ _ _ _ h := T.init_blob _ _ _ _ _ _ (unlogged h)
  upload_blob _ _ _ _ _ _ _ _ hb h := T.upload_blob _ _ _ _ _ _ _ _ hb (unlogged h)
  upload_acked _ _ _ _ _ _ _ _ hb h := T.upload_acked _ _ _ _ _ _ _ _ hb (unlogged h)
  commit_blob _ _ _ _ _ hb h := T.commit_blob _ _ _ _ _ hb (unlogged h)
  commit_acked _ _ _ _ _ hb h := T.commit_acked _ _ _ _ _ hb (unlogged h)

/-! ## What holds between the marks and the blob -/

/-- The chunks of an asset, by index. -/
def chunkMap (chunks : List SealedChunk) (idx : Nat) : Option Bytes := chunks[idx]?.map SealedChunk.ciphertext

/-- **The blob holds nothing but chunks of the asset**; once it is committed it holds them all. -/
structure Uncorrupted (rootOf : (Nat → Option Bytes) → ByteArr 32) (chunks : List SealedChunk) (root : ByteArr 32)
    (b : StoredBlob) : Prop where
  announced : b.expectedMerkleRoot = root
  only : ∀ i c, b.chunks i = some c → chunkMap chunks i = some c
  committed : ∀ r, b.committedRoot = some r → b.chunks = chunkMap chunks

/-- **The marks are true**: the blob is clean and holds every marked chunk. -/
structure Consistent (rootOf : (Nat → Option Bytes) → ByteArr 32) (chunks : List SealedChunk) (root : ByteArr 32)
    (b : StoredBlob) (state : UploadState) : Prop extends Uncorrupted rootOf chunks root b where
  length : state.completedChunks.length = chunks.length
  merkleRoot : state.merkleRoot = root
  held : ∀ i, state.completedChunks[i]? = some true → b.chunks i = chunkMap chunks i

/-- What a finished upload leaves of the blob. -/
def finishedBlob (chunks : List SealedChunk) (root : ByteArr 32) : StoredBlob := ⟨chunkMap chunks, root, some root⟩

section Steps

variable {chunks : List SealedChunk} {root : ByteArr 32} {b : StoredBlob} {state : UploadState}

theorem clean_opened (rootOf : (Nat → Option Bytes) → ByteArr 32) (chunks : List SealedChunk) (root : ByteArr 32) :
    Uncorrupted rootOf chunks root (.opened root) :=
  ⟨rfl, fun _ _ h => absurd h (by simp [StoredBlob.opened]), fun _ h => absurd h (by simp [StoredBlob.opened])⟩

/-- Putting a chunk of the asset keeps what the blob holds of it. -/
theorem put_keeps {idx i : Nat} {c : Bytes} (hc : chunkMap chunks idx = some c)
    (hi : b.chunks i = chunkMap chunks i) : (b.put idx c).chunks i = chunkMap chunks i := by
  rw [StoredBlob.put_chunks]
  by_cases heq : i = idx
  · rw [heq, Function.update_self, hc]
  · rw [Function.update_of_ne heq]
    exact hi

theorem Uncorrupted.put (h : Uncorrupted rootOf chunks root b) {idx : Nat} {c : Bytes} (hc : chunkMap chunks idx = some c) :
    Uncorrupted rootOf chunks root (b.put idx c) where
  announced := h.announced
  only := by
    intro i c' hi
    rw [StoredBlob.put_chunks] at hi
    by_cases heq : i = idx
    · rw [heq, Function.update_self] at hi
      rw [heq, hc, hi]
    · rw [Function.update_of_ne heq] at hi
      exact h.only i c' hi
  committed := by
    intro r hr
    have hall : b.chunks = chunkMap chunks := h.committed r hr
    have hput : b.put idx c = b := StoredBlob.put_of_held (by rw [hall, hc])
    rw [hput]
    exact hall

/-- A clean blob that holds every chunk of the asset holds exactly these. -/
theorem Uncorrupted.chunks_eq (h : Uncorrupted rootOf chunks root b) (hall : ∀ i, i < chunks.length → b.chunks i = chunkMap chunks i) :
    b.chunks = chunkMap chunks := by
  funext i
  by_cases hi : i < chunks.length
  · exact hall i hi
  · have hnone : chunkMap chunks i = none := by
      rw [chunkMap, List.getElem?_eq_none (not_lt.mp hi)]
      rfl
    cases hb : b.chunks i with
    | none => rw [hnone]
    | some c => exact absurd (h.only i c hb) (by rw [hnone]; simp)

theorem Uncorrupted.commit (h : Uncorrupted rootOf chunks root b) (hall : b.chunks = chunkMap chunks) :
    Uncorrupted rootOf chunks root (b.commit rootOf) := ⟨h.announced, h.only, fun _ _ => hall⟩

theorem Consistent.put (h : Consistent rootOf chunks root b state) {idx : Nat} {c : Bytes}
    (hc : chunkMap chunks idx = some c) : Consistent rootOf chunks root (b.put idx c) state :=
  ⟨h.toUncorrupted.put hc, h.length, h.merkleRoot, fun i hi => put_keeps hc (h.held i hi)⟩

/-- A chunk that is held may be marked. -/
theorem Consistent.mark (h : Consistent rootOf chunks root b state) {idx : Nat}
    (hidx : b.chunks idx = chunkMap chunks idx) :
    Consistent rootOf chunks root b { state with completedChunks := state.completedChunks.set idx true } := by
  refine ⟨h.toUncorrupted, ?_, h.merkleRoot, fun i hi => ?_⟩
  · show (state.completedChunks.set idx true).length = _
    rw [List.length_set]
    exact h.length
  · by_cases heq : i = idx
    · rw [heq]
      exact hidx
    · refine h.held i ?_
      rw [← List.getElem?_set_ne (a := true) (Ne.symm heq)]
      exact hi

end Steps

/-! ## One resumed attempt -/

section Resume

variable (T : IdempotentServer rootOf σ) {chunks : List SealedChunk} {root : ByteArr 32} {b : StoredBlob}
  {state state' : UploadState} {s s' : σ} {r : Except Error Unit}

theorem chunkMap_of_drop {idx : Nat} {chunk : SealedChunk} {rest : List SealedChunk}
    (h : chunks.drop idx = chunk :: rest) :
    chunkMap chunks idx = some chunk.ciphertext ∧ chunks.drop (idx + 1) = rest := by
  have hget : chunks[idx]? = some chunk := by
    rw [← List.head?_drop, h]
    rfl
  have hrest : chunks.drop (idx + 1) = rest := by
    rw [← List.tail_drop, h]
    rfl
  exact ⟨by rw [chunkMap, hget]; rfl, hrest⟩

/-- **The loop** keeps the marks true and takes none back; when it gets to the end, everything is marked. -/
theorem resumeChunks_spec {rest : List SealedChunk} {idx : Nat} (hrest : chunks.drop idx = rest)
    (hblob : T.blob s state.blobId = some b) (hcons : Consistent rootOf chunks root b state)
    (h : resumeChunks T.toTransportClient rest idx state s = (r, state', s')) :
    state'.blobId = state.blobId ∧
      (∃ b', T.blob s' state.blobId = some b' ∧ Consistent rootOf chunks root b' state') ∧
      (∀ i : Nat, state.completedChunks[i]? = some true → state'.completedChunks[i]? = some true) ∧
      (r = .ok () → ∀ i, idx ≤ i → i < chunks.length → state'.completedChunks[i]? = some true) := by
  induction rest generalizing idx state s b with
  | nil =>
      simp only [resumeChunks, Prod.mk.injEq] at h
      obtain ⟨rfl, rfl, rfl⟩ := h
      have hlen : chunks.length ≤ idx := List.drop_eq_nil_iff.mp hrest
      exact ⟨rfl, ⟨b, hblob, hcons⟩, fun _ hi => hi, fun _ i hlo (hhi : i < chunks.length) => absurd hhi (by omega)⟩
  | cons chunk rest ih =>
      obtain ⟨hchunk, hrest'⟩ := chunkMap_of_drop hrest
      have hidx : idx < chunks.length := by
        by_contra hge
        rw [List.drop_eq_nil_of_le (not_lt.mp hge)] at hrest
        exact absurd hrest (by simp)
      unfold resumeChunks at h
      by_cases hdone : state.completedChunks[idx]?.getD false = true
      · -- a marked chunk is passed over
        rw [if_pos hdone] at h
        have hmarked : state.completedChunks[idx]? = some true := by
          cases hc : state.completedChunks[idx]? with
          | none => rw [hc] at hdone; exact absurd hdone (by simp)
          | some m => rw [hc, Option.getD_some] at hdone; rw [hdone]
        obtain ⟨hid, hb, hkeep, hall⟩ := ih hrest' hblob hcons h
        refine ⟨hid, hb, hkeep, fun hr i hlo hhi => ?_⟩
        rcases Nat.eq_or_lt_of_le hlo with rfl | hlt
        · exact hkeep _ hmarked
        · exact hall hr i hlt hhi
      · rw [if_neg hdone] at h
        by_cases hmax : u32Max < idx
        · rw [if_pos hmax] at h
          obtain ⟨rfl, rfl, rfl⟩ : .error _ = r ∧ state = state' ∧ s = s' := by simpa using h
          exact ⟨rfl, ⟨b, hblob, hcons⟩, fun _ hi => hi, fun hr => absurd hr (by simp)⟩
        · rw [if_neg hmax] at h
          rcases hup : T.uploadChunk s state.blobId idx chunk.ciphertext chunk.chunkSha256 with ⟨answer, s₁⟩
          have hput : ∃ b₁, T.blob s₁ state.blobId = some b₁ ∧ Consistent rootOf chunks root b₁ state := by
            rcases T.upload_blob _ _ _ _ _ _ _ _ hblob hup with h₁ | h₁
            · exact ⟨b, h₁, hcons⟩
            · exact ⟨b.put idx chunk.ciphertext, h₁, hcons.put hchunk⟩
          simp only [hup] at h
          cases answer with
          | error e =>
              obtain ⟨rfl, rfl, rfl⟩ : .error e = r ∧ state = state' ∧ s₁ = s' := by simpa using h
              exact ⟨rfl, hput, fun _ hi => hi, fun hr => absurd hr (by simp)⟩
          | ok receipt =>
              simp only at h
              by_cases hbad : receipt.sha256 ≠ chunk.chunkSha256 ∨ receipt.chunkIdx ≠ idx
              · rw [if_pos hbad] at h
                obtain ⟨rfl, rfl, rfl⟩ : .error _ = r ∧ state = state' ∧ s₁ = s' := by simpa using h
                exact ⟨rfl, hput, fun _ hi => hi, fun hr => absurd hr (by simp)⟩
              · -- an acknowledged chunk is held, and marked
                rw [if_neg hbad] at h
                obtain ⟨hsha, hi⟩ : receipt.sha256 = chunk.chunkSha256 ∧ receipt.chunkIdx = idx := by
                  simpa [not_or] using hbad
                have hblob₁ := T.upload_acked _ _ _ _ _ _ _ _ hblob hup hi hsha
                have hheld : (b.put idx chunk.ciphertext).chunks idx = chunkMap chunks idx := by
                  rw [StoredBlob.put_chunks, Function.update_self, hchunk]
                have hmark := (hcons.put hchunk).mark hheld
                obtain ⟨hid, hb, hkeep, hall⟩ := ih hrest' (show T.blob s₁ (UploadState.blobId
                  { state with completedChunks := state.completedChunks.set idx true }) = _ from hblob₁) hmark h
                have hset : ∀ i : Nat, state.completedChunks[i]? = some true →
                    (state.completedChunks.set idx true)[i]? = some true := by
                  intro i hi
                  rw [List.getElem?_set]
                  by_cases heq : idx = i
                  · rw [if_pos heq, if_pos (by rw [hcons.length]; exact hidx)]
                  · rw [if_neg heq]
                    exact hi
                refine ⟨hid, hb, fun i hi => hkeep i (hset i hi), fun hr i hlo hhi => ?_⟩
                rcases Nat.eq_or_lt_of_le hlo with rfl | hlt
                · refine hkeep _ ?_
                  show (state.completedChunks.set idx true)[idx]? = some true
                  rw [List.getElem?_set_self (by rw [hcons.length]; exact hidx)]
                · exact hall hr i hlt hhi

/-- **The chunks a loop sends** are not marked, and each is sent once. -/
theorem resumeChunks_sent {rest : List SealedChunk} {idx : Nat} {t t' : σ × List Nat}
    (h : resumeChunks T.logged.toTransportClient rest idx state t = (r, state', t')) :
    ∃ sent, t'.2 = t.2 ++ sent ∧ sent.Pairwise (· < ·) ∧
      ∀ i ∈ sent, idx ≤ i ∧ i < idx + rest.length ∧ state.completedChunks[i]? ≠ some true := by
  induction rest generalizing idx state t with
  | nil =>
      simp only [resumeChunks, Prod.mk.injEq] at h
      obtain ⟨-, -, rfl⟩ := h
      exact ⟨[], by simp, List.Pairwise.nil, by simp⟩
  | cons chunk rest ih =>
      unfold resumeChunks at h
      by_cases hdone : state.completedChunks[idx]?.getD false = true
      · rw [if_pos hdone] at h
        obtain ⟨sent, hlog, hasc, hsent⟩ := ih h
        refine ⟨sent, hlog, hasc, fun i hi => ?_⟩
        obtain ⟨hlo, hhi, hnot⟩ := hsent i hi
        exact ⟨Nat.le_of_succ_le hlo, by rw [List.length_cons]; omega, hnot⟩
      · rw [if_neg hdone] at h
        -- an index that is not marked is sent, once
        have hunmarked : state.completedChunks[idx]? ≠ some true := fun hm => hdone (by rw [hm]; rfl)
        by_cases hmax : u32Max < idx
        · rw [if_pos hmax] at h
          obtain ⟨-, -, rfl⟩ := Prod.mk.injEq .. ▸ h
          exact ⟨[], by simp, List.Pairwise.nil, by simp⟩
        · rw [if_neg hmax] at h
          rcases hup : T.logged.uploadChunk t state.blobId idx chunk.ciphertext chunk.chunkSha256 with ⟨answer, t₁⟩
          have hlog₁ : t₁.2 = t.2 ++ [idx] := (congrArg (Prod.snd ∘ Prod.snd) hup).symm
          have hone : ∀ i ∈ [idx], idx ≤ i ∧ i < idx + (chunk :: rest).length ∧
              state.completedChunks[i]? ≠ some true := by
            intro i hi
            rw [List.mem_singleton.mp hi, List.length_cons]
            exact ⟨le_rfl, by omega, hunmarked⟩
          simp only [hup] at h
          cases answer with
          | error e =>
              obtain ⟨-, -, rfl⟩ : .error e = r ∧ state = state' ∧ t₁ = t' := by simpa using h
              exact ⟨[idx], hlog₁, List.pairwise_singleton _ _, hone⟩
          | ok receipt =>
              simp only at h
              by_cases hbad : receipt.sha256 ≠ chunk.chunkSha256 ∨ receipt.chunkIdx ≠ idx
              · rw [if_pos hbad] at h
                obtain ⟨-, -, rfl⟩ : .error _ = r ∧ state = state' ∧ t₁ = t' := by simpa using h
                exact ⟨[idx], hlog₁, List.pairwise_singleton _ _, hone⟩
              · rw [if_neg hbad] at h
                obtain ⟨sent, hlog, hasc, hsent⟩ := ih h
                refine ⟨idx :: sent, ?_, ?_, ?_⟩
                · rw [hlog, hlog₁, List.append_assoc]
                  rfl
                · rw [List.pairwise_cons]
                  exact ⟨fun i hi => (hsent i hi).1, hasc⟩
                · intro i hi
                  rcases List.mem_cons.mp hi with rfl | hi
                  · exact hone i (List.mem_singleton_self i)
                  · obtain ⟨hlt, hhi, hnot⟩ := hsent i hi
                    refine ⟨Nat.le_of_succ_le hlt, by rw [List.length_cons]; omega, fun hm => hnot ?_⟩
                    show (state.completedChunks.set idx true)[i]? = some true
                    -- later indices are other ones, so marking this one changes nothing for them
                    rw [List.getElem?_set_ne (by omega)]
                    exact hm

/-- Where everything is marked the loop does nothing. -/
theorem resumeChunks_of_all_marked (U : TransportClient σ) {rest : List SealedChunk} {idx : Nat}
    (hall : ∀ i, idx ≤ i → i < idx + rest.length → state.completedChunks[i]? = some true) :
    resumeChunks U rest idx state s = (.ok (), state, s) := by
  induction rest generalizing idx with
  | nil => rfl
  | cons chunk rest ih =>
      rw [List.length_cons] at hall
      have hidx : state.completedChunks[idx]?.getD false = true := by
        rw [hall idx le_rfl (by omega)]
        rfl
      rw [resumeChunks, if_pos hidx]
      exact ih fun i hlo hhi => hall i (by omega) (by omega)

/-- **One resumed attempt** keeps the marks true; where it succeeds, the blob is finished and everything is marked. -/
theorem resumeUpload_spec {blobClass : BlobClass} {r : Except Error UploadResult}
    (hblob : T.blob s state.blobId = some b) (hcons : Consistent rootOf chunks root b state)
    (h : resumeUpload T.toTransportClient state chunks blobClass s = (r, state', s')) :
    state'.blobId = state.blobId ∧
      (∃ b', T.blob s' state.blobId = some b' ∧ Consistent rootOf chunks root b' state') ∧
      (∀ i : Nat, state.completedChunks[i]? = some true → state'.completedChunks[i]? = some true) ∧
      (∀ res, r = .ok res → T.blob s' state.blobId = some (finishedBlob chunks root) ∧
        ∀ i, i < chunks.length → state'.completedChunks[i]? = some true) := by
  unfold resumeUpload at h
  by_cases hempty : chunks.isEmpty = true
  · rw [if_pos hempty] at h
    obtain ⟨rfl, rfl, rfl⟩ : .error _ = r ∧ state = state' ∧ s = s' := by simpa using h
    exact ⟨rfl, ⟨b, hblob, hcons⟩, fun _ hi => hi, fun _ hr => absurd hr (by simp)⟩
  rw [if_neg hempty, if_neg (not_not.mpr hcons.length)] at h
  rcases hloop : resumeChunks T.toTransportClient chunks 0 state s with ⟨r₁, state₁, s₁⟩
  obtain ⟨hid, ⟨b₁, hblob₁, hcons₁⟩, hkeep, hall⟩ := resumeChunks_spec T (List.drop_zero ..) hblob hcons hloop
  rw [hloop] at h
  cases r₁ with
  | error e =>
      obtain ⟨rfl, rfl, rfl⟩ : .error e = r ∧ state₁ = state' ∧ s₁ = s' := by simpa using h
      exact ⟨hid, ⟨b₁, hblob₁, hcons₁⟩, hkeep, fun _ hr => absurd hr (by simp)⟩
  | ok _ =>
      -- the loop went through: every chunk is marked, so the server holds it
      have hmarked : ∀ i, i < chunks.length → state₁.completedChunks[i]? = some true := fun i hi =>
        hall rfl i (Nat.zero_le _) hi
      have hchunks : b₁.chunks = chunkMap chunks :=
        hcons₁.chunks_eq fun i hi => hcons₁.held i (hmarked i hi)
      simp only at h
      rw [← hid] at hblob₁
      rcases hcommit : T.commitBlob s₁ state₁.blobId with ⟨answer, s₂⟩
      -- an unacknowledged commit may have landed or not
      have hblob₂ : ∃ b₂, T.blob s₂ state₁.blobId = some b₂ ∧ Consistent rootOf chunks root b₂ state₁ := by
        rcases T.commit_blob _ _ _ _ _ hblob₁ hcommit with h₂ | h₂
        · exact ⟨b₁, h₂, hcons₁⟩
        · exact ⟨_, h₂, hcons₁.toUncorrupted.commit hchunks, hcons₁.length, hcons₁.merkleRoot, hcons₁.held⟩
      unfold commitResumed at h
      simp only [hcommit] at h
      cases answer with
      | error e =>
          obtain ⟨rfl, rfl, rfl⟩ : .error e = r ∧ state₁ = state' ∧ s₂ = s' := by simpa using h
          exact ⟨hid, hid ▸ hblob₂, hkeep, fun _ hr => absurd hr (by simp)⟩
      | ok serverRoot =>
          simp only at h
          by_cases hroot : serverRoot ≠ state₁.merkleRoot
          · rw [if_pos hroot] at h
            obtain ⟨rfl, rfl, rfl⟩ : .error _ = r ∧ state₁ = state' ∧ s₂ = s' := by simpa using h
            exact ⟨hid, hid ▸ hblob₂, hkeep, fun _ hr => absurd hr (by simp)⟩
          · rw [if_neg hroot] at h
            obtain ⟨rfl, rfl, rfl⟩ : .ok _ = r ∧ state₁ = state' ∧ s₂ = s' := by simpa using h
            obtain ⟨hdone, hcommitted⟩ := T.commit_acked _ _ _ _ _ hblob₁ hcommit
            -- the server answered with the root of the chunks
            have hfinished : b₁.commit rootOf = finishedBlob chunks root := by
              refine StoredBlob.ext hchunks hcons₁.announced ?_
              rw [hcommitted, not_not.mp hroot, hcons₁.merkleRoot]
              rfl
            refine ⟨hid, hid ▸ hblob₂, hkeep, fun _ _ => ⟨?_, hmarked⟩⟩
            rw [← hid, hdone, hfinished]

/-- **Resuming a finished upload changes nothing**, whatever the server answers. -/
theorem resumeUpload_of_finished {blobClass : BlobClass} {r : Except Error UploadResult}
    (hblob : T.blob s state.blobId = some (finishedBlob chunks root)) (hlen : state.completedChunks.length = chunks.length)
    (hall : ∀ i, i < chunks.length → state.completedChunks[i]? = some true)
    (h : resumeUpload T.toTransportClient state chunks blobClass s = (r, state', s')) :
    state' = state ∧ T.blob s' state.blobId = some (finishedBlob chunks root) := by
  unfold resumeUpload at h
  by_cases hempty : chunks.isEmpty = true
  · rw [if_pos hempty] at h
    obtain ⟨-, rfl, rfl⟩ : .error _ = r ∧ state = state' ∧ s = s' := by simpa using h
    exact ⟨rfl, hblob⟩
  rw [if_neg hempty, if_neg (not_not.mpr hlen), resumeChunks_of_all_marked _ fun i _ hi => hall i (by omega)] at h
  obtain ⟨-, rfl, rfl⟩ : (commitResumed T.toTransportClient state s).1 = r ∧ state = state' ∧
      (commitResumed T.toTransportClient state s).2 = s' := by simpa using h
  refine ⟨rfl, ?_⟩
  have hagain : (finishedBlob chunks root).commit rootOf = finishedBlob chunks root :=
    StoredBlob.commit_of_committed rfl
  have hsame : ∀ answer s₂, T.commitBlob s state.blobId = (answer, s₂) →
      T.blob s₂ state.blobId = some (finishedBlob chunks root) := by
    intro answer s₂ hcommit
    rcases T.commit_blob _ _ _ _ _ hblob hcommit with h₂ | h₂
    · exact h₂
    · rw [h₂, hagain]
  rcases hcommit : T.commitBlob s state.blobId with ⟨answer, s₂⟩
  have hend : (commitResumed T.toTransportClient state s).2 = s₂ := by
    unfold commitResumed
    rw [hcommit]
    cases answer with
    | error e => rfl
    | ok root' =>
        show (if root' ≠ state.merkleRoot then _ else _ : Except Error UploadResult × σ).2 = s₂
        split <;> rfl
  rw [hend]
  exact hsame answer s₂ hcommit

end Resume

/-! ## The first attempt -/

/-- How many chunks the loop of `upload_chunked_media` gets acknowledged. -/
def ackedChunks (T : TransportClient σ) (blobId : IdText) : List SealedChunk → Nat → σ → Nat
  | [], _, _ => 0
  | chunk :: rest, idx, s =>
      if u32Max < idx then 0
      else
        match T.uploadChunk s blobId idx chunk.ciphertext chunk.chunkSha256 with
        | (.error _, _) => 0
        | (.ok receipt, s) =>
            if receipt.chunkIdx ≠ idx then 0
            else if receipt.sha256 ≠ chunk.chunkSha256 then 0
            else ackedChunks T blobId rest (idx + 1) s + 1

section FirstAttempt

variable (T : IdempotentServer rootOf σ) {chunks : List SealedChunk} {root : ByteArr 32} {b : StoredBlob} {id : IdText}
  {s s' : σ}

/-- **The loop of a first attempt** leaves the blob clean, with every acknowledged chunk. -/
theorem uploadChunks_spec {rest : List SealedChunk} {idx : Nat} {r : Except Error Unit} (hrest : chunks.drop idx = rest)
    (hblob : T.blob s id = some b) (hclean : Uncorrupted rootOf chunks root b)
    (hheld : ∀ i, i < idx → b.chunks i = chunkMap chunks i)
    (h : uploadChunks T.toTransportClient id rest idx s = (r, s')) :
    ∃ b', T.blob s' id = some b' ∧ Uncorrupted rootOf chunks root b' ∧
      (∀ i, i < idx + ackedChunks T.toTransportClient id rest idx s → b'.chunks i = chunkMap chunks i) ∧
      (r = .ok () → chunks.length ≤ idx + ackedChunks T.toTransportClient id rest idx s) := by
  induction rest generalizing idx s b with
  | nil =>
      simp only [uploadChunks, Prod.mk.injEq] at h
      obtain ⟨rfl, rfl⟩ := h
      have hlen : chunks.length ≤ idx := List.drop_eq_nil_iff.mp hrest
      exact ⟨b, hblob, hclean, hheld, fun _ => hlen⟩
  | cons chunk rest ih =>
      obtain ⟨hchunk, hrest'⟩ := chunkMap_of_drop hrest
      unfold uploadChunks at h
      unfold ackedChunks
      by_cases hmax : u32Max < idx
      · rw [if_pos hmax] at h ⊢
        obtain ⟨rfl, rfl⟩ : .error _ = r ∧ s = s' := by simpa using h
        exact ⟨b, hblob, hclean, hheld, fun hr => absurd hr (by simp)⟩
      · rw [if_neg hmax] at h ⊢
        rcases hup : T.uploadChunk s id idx chunk.ciphertext chunk.chunkSha256 with ⟨answer, s₁⟩
        -- a lost answer leaves open whether the chunk landed; either way it is the right one
        have hput : ∃ b₁, T.blob s₁ id = some b₁ ∧ Uncorrupted rootOf chunks root b₁ ∧
            ∀ i, i < idx → b₁.chunks i = chunkMap chunks i := by
          rcases T.upload_blob _ _ _ _ _ _ _ _ hblob hup with h₁ | h₁
          · exact ⟨b, h₁, hclean, hheld⟩
          · exact ⟨_, h₁, hclean.put hchunk, fun i hi => put_keeps hchunk (hheld i hi)⟩
        simp only [hup] at h ⊢
        obtain ⟨b₁, hblob₁, hclean₁, hheld₁⟩ := hput
        cases answer with
        | error e =>
            obtain ⟨rfl, rfl⟩ : .error e = r ∧ s₁ = s' := by simpa using h
            exact ⟨b₁, hblob₁, hclean₁, hheld₁, fun hr => absurd hr (by simp)⟩
        | ok receipt =>
            simp only at h ⊢
            by_cases hidx : receipt.chunkIdx ≠ idx
            · rw [if_pos hidx] at h ⊢
              obtain ⟨rfl, rfl⟩ : .error _ = r ∧ s₁ = s' := by simpa using h
              exact ⟨b₁, hblob₁, hclean₁, hheld₁, fun hr => absurd hr (by simp)⟩
            rw [if_neg hidx] at h ⊢
            by_cases hsha : receipt.sha256 ≠ chunk.chunkSha256
            · rw [if_pos hsha] at h ⊢
              obtain ⟨rfl, rfl⟩ : .error _ = r ∧ s₁ = s' := by simpa using h
              exact ⟨b₁, hblob₁, hclean₁, hheld₁, fun hr => absurd hr (by simp)⟩
            rw [if_neg hsha] at h ⊢
            -- acknowledged: the server has it
            have hacked := T.upload_acked _ _ _ _ _ _ _ _ hblob hup (not_not.mp hidx) (not_not.mp hsha)
            have hnext : ∀ i, i < idx + 1 → (b.put idx chunk.ciphertext).chunks i = chunkMap chunks i := by
              intro i hi
              rcases Nat.lt_succ_iff_lt_or_eq.mp hi with hlt | rfl
              · exact put_keeps hchunk (hheld i hlt)
              · rw [StoredBlob.put_chunks, Function.update_self, hchunk]
            obtain ⟨b', hblob', hclean', hheld', hall⟩ := ih hrest' hacked (hclean.put hchunk) hnext h
            refine ⟨b', hblob', hclean', fun i hi => hheld' i (by omega), fun hr => ?_⟩
            have hle := hall hr
            omega

/-- **A first attempt**, finished or not: the blob is clean and holds what was acknowledged; a finished attempt leaves it
finished. -/
theorem uploadChunkedMedia_spec {blobClass : BlobClass} {s₁ : σ} {r : Except Error UploadResult} (hne : chunks ≠ [])
    (hinit : T.initBlobUpload s (totalSize chunks) blobClass root = (.ok id, s₁))
    (h : uploadChunkedMedia T.toTransportClient chunks root blobClass s = (r, s')) :
    (∃ b, T.blob s' id = some b ∧ Uncorrupted rootOf chunks root b ∧
      ∀ i, i < ackedChunks T.toTransportClient id chunks 0 s₁ → b.chunks i = chunkMap chunks i) ∧
    ∀ res, r = .ok res → res.blobId = id ∧ T.blob s' id = some (finishedBlob chunks root) := by
  have hempty : chunks.isEmpty = false := by simpa using hne
  have hopened := T.init_blob _ _ _ _ _ _ hinit
  rcases hloop : uploadChunks T.toTransportClient id chunks 0 s₁ with ⟨r₂, s₂⟩
  obtain ⟨b₂, hblob₂, hclean₂, hheld₂, hall⟩ := uploadChunks_spec T (List.drop_zero ..) hopened
    (clean_opened rootOf chunks root) (fun i hi => absurd hi (Nat.not_lt_zero i)) hloop
  rw [Nat.zero_add] at hheld₂ hall
  unfold uploadChunkedMedia at h
  rw [hempty, if_neg Bool.false_ne_true, hinit] at h
  simp only [hloop] at h
  cases r₂ with
  | error e =>
      obtain ⟨rfl, rfl⟩ : .error e = r ∧ s₂ = s' := by simpa using h
      exact ⟨⟨b₂, hblob₂, hclean₂, hheld₂⟩, fun _ hr => absurd hr (by simp)⟩
  | ok _ =>
      -- every chunk was acknowledged
      have hchunks : b₂.chunks = chunkMap chunks :=
        hclean₂.chunks_eq fun i hi => hheld₂ i (lt_of_lt_of_le hi (hall rfl))
      rcases hcommit : T.commitBlob s₂ id with ⟨answer, s₃⟩
      -- the commit may have landed without an answer
      have hblob₃ : ∃ b, T.blob s₃ id = some b ∧ Uncorrupted rootOf chunks root b ∧
          ∀ i, i < ackedChunks T.toTransportClient id chunks 0 s₁ → b.chunks i = chunkMap chunks i := by
        rcases T.commit_blob _ _ _ _ _ hblob₂ hcommit with h₃ | h₃
        · exact ⟨b₂, h₃, hclean₂, hheld₂⟩
        · exact ⟨_, h₃, hclean₂.commit hchunks, hheld₂⟩
      simp only [hcommit] at h
      cases answer with
      | error e =>
          obtain ⟨rfl, rfl⟩ : .error e = r ∧ s₃ = s' := by simpa using h
          exact ⟨hblob₃, fun _ hr => absurd hr (by simp)⟩
      | ok serverRoot =>
          simp only at h
          by_cases hroot : serverRoot ≠ root
          · rw [if_pos hroot] at h
            obtain ⟨rfl, rfl⟩ : .error _ = r ∧ s₃ = s' := by simpa using h
            exact ⟨hblob₃, fun _ hr => absurd hr (by simp)⟩
          · rw [if_neg hroot] at h
            obtain ⟨rfl, rfl⟩ : .ok ⟨id, root, serverRoot⟩ = r ∧ s₃ = s' := by simpa using h
            obtain ⟨hdone, hcommitted⟩ := T.commit_acked _ _ _ _ _ hblob₂ hcommit
            refine ⟨hblob₃, fun res hres => ⟨?_, ?_⟩⟩
            · rw [← Except.ok.inj hres]
            · rw [hdone]
              refine congrArg some (StoredBlob.ext hchunks hclean₂.announced ?_)
              rw [hcommitted, not_not.mp hroot]
              rfl

/-- An upload that succeeds opened its blob first. -/
theorem exists_init_of_ok {blobClass : BlobClass} {res : UploadResult}
    (h : uploadChunkedMedia T.toTransportClient chunks root blobClass s = (.ok res, s')) :
    chunks ≠ [] ∧ ∃ id s₁, T.initBlobUpload s (totalSize chunks) blobClass root = (.ok id, s₁) := by
  unfold uploadChunkedMedia at h
  by_cases hempty : chunks.isEmpty = true
  · rw [if_pos hempty] at h
    exact absurd h (by simp)
  · refine ⟨by simpa using hempty, ?_⟩
    rw [if_neg hempty] at h
    rcases hinit : T.initBlobUpload s (totalSize chunks) blobClass root with ⟨answer, s₁⟩
    cases answer with
    | error e =>
        rw [hinit] at h
        exact absurd h (by simp)
    | ok id => exact ⟨id, s₁, rfl⟩

end FirstAttempt

/-! ## Runs of resumed attempts -/

/-- The server, with its log of puts, and the state of the upload. -/
structure UploadWorld (σ : Type) where
  server : σ × List Nat
  state : UploadState

/-- **An upload that was interrupted**: a first attempt opened the blob, and the state marks some of the chunks it got
acknowledged. -/
def Interrupted (T : IdempotentServer rootOf σ) (chunks : List SealedChunk) (root : ByteArr 32) (blobClass : BlobClass)
    (w : UploadWorld σ) : Prop :=
  chunks ≠ [] ∧ ∃ s s₁ r, T.initBlobUpload s (totalSize chunks) blobClass root = (.ok w.state.blobId, s₁) ∧
    uploadChunkedMedia T.toTransportClient chunks root blobClass s = (r, w.server.1) ∧ w.state.merkleRoot = root ∧
    w.state.completedChunks.length = chunks.length ∧
    ∀ i : Nat, w.state.completedChunks[i]? = some true → i < ackedChunks T.toTransportClient w.state.blobId chunks 0 s₁

/-- One call of `resume_upload`, labelled with its result. -/
def ResumeStep (T : IdempotentServer rootOf σ) (chunks : List SealedChunk) (blobClass : BlobClass) (w : UploadWorld σ)
    (r : Except Error UploadResult) (w' : UploadWorld σ) : Prop :=
  resumeUpload T.logged.toTransportClient w.state chunks blobClass w.server = (r, w'.state, w'.server)

/-- The chunk is marked as complete. -/
def Marked (w : UploadWorld σ) (i : Nat) : Prop := w.state.completedChunks[i]? = some true

/-- The blob is there, and the marks are true. -/
def MarksTrue (T : IdempotentServer rootOf σ) (chunks : List SealedChunk) (root : ByteArr 32) (w : UploadWorld σ) : Prop :=
  ∃ b, T.blob w.server.1 w.state.blobId = some b ∧ Consistent rootOf chunks root b w.state

/-- The blob is finished and everything is marked. -/
def Finished (T : IdempotentServer rootOf σ) (chunks : List SealedChunk) (root : ByteArr 32) (w : UploadWorld σ) : Prop :=
  T.blob w.server.1 w.state.blobId = some (finishedBlob chunks root) ∧
    ∀ i, i < chunks.length → Marked w i

section Runs

variable {T : IdempotentServer rootOf σ} {chunks : List SealedChunk} {root : ByteArr 32} {blobClass : BlobClass}
  {w w' : UploadWorld σ} {r : Except Error UploadResult}

theorem marksTrue_of_interrupted (h : Interrupted T chunks root blobClass w) : MarksTrue T chunks root w := by
  obtain ⟨hne, s, s₁, r, hinit, hupload, hroot, hlen, hacked⟩ := h
  obtain ⟨⟨b, hblob, hclean, hheld⟩, -⟩ := uploadChunkedMedia_spec T hne hinit hupload
  exact ⟨b, hblob, hclean, hlen, hroot, fun i hi => hheld i (hacked i hi)⟩

theorem MarksTrue.step (h : MarksTrue T chunks root w) (hstep : ResumeStep T chunks blobClass w r w') :
    MarksTrue T chunks root w' ∧ (∀ i, Marked w i → Marked w' i) ∧ (∀ res, r = .ok res → Finished T chunks root w') := by
  obtain ⟨b, hblob, hcons⟩ := h
  obtain ⟨hid, ⟨b', hblob', hcons'⟩, hkeep, hok⟩ := resumeUpload_spec T.logged hblob hcons hstep
  refine ⟨⟨b', ?_, hcons'⟩, hkeep, fun res hr => ?_⟩
  · rw [hid]
    exact hblob'
  · obtain ⟨hdone, hall⟩ := hok res hr
    exact ⟨by rw [hid]; exact hdone, hall⟩

/-- A finished upload stays as it is. -/
theorem Finished.step (h : Finished T chunks root w) (hmarks : MarksTrue T chunks root w)
    (hstep : ResumeStep T chunks blobClass w r w') : Finished T chunks root w' ∧ w'.state = w.state := by
  obtain ⟨b, hblob, hcons⟩ := hmarks
  obtain ⟨hstate, hdone⟩ := resumeUpload_of_finished T.logged h.1 hcons.length h.2 hstep
  refine ⟨⟨by rw [hstate]; exact hdone, fun i hi => ?_⟩, hstate⟩
  rw [Marked, hstate]
  exact h.2 i hi

/-- **What one attempt sends**: unmarked chunks, each once. -/
theorem ResumeStep.sent (hstep : ResumeStep T chunks blobClass w r w') :
    ∃ sent, w'.server.2 = w.server.2 ++ sent ∧ sent.Nodup ∧ ∀ i ∈ sent, i < chunks.length ∧ ¬ Marked w i := by
  unfold ResumeStep resumeUpload at hstep
  by_cases hempty : chunks.isEmpty = true
  · rw [if_pos hempty] at hstep
    have hs : w.server = w'.server := congrArg (Prod.snd ∘ Prod.snd) hstep
    exact ⟨[], by rw [hs, List.append_nil], List.nodup_nil, by simp⟩
  rw [if_neg hempty] at hstep
  by_cases hlen : w.state.completedChunks.length ≠ chunks.length
  · rw [if_pos hlen] at hstep
    have hs : w.server = w'.server := congrArg (Prod.snd ∘ Prod.snd) hstep
    exact ⟨[], by rw [hs, List.append_nil], List.nodup_nil, by simp⟩
  rw [if_neg hlen] at hstep
  rcases hloop : resumeChunks T.logged.toTransportClient chunks 0 w.state w.server with ⟨r₁, state₁, t₁⟩
  obtain ⟨sent, hlog, hasc, hsent⟩ := resumeChunks_sent T hloop
  have hend : w'.server.2 = t₁.2 := by
    rw [hloop] at hstep
    cases r₁ with
    | error e => exact (congrArg (Prod.snd ∘ Prod.snd ∘ Prod.snd) hstep).symm
    | ok _ =>
        have hs : (commitResumed T.logged.toTransportClient state₁ t₁).2 = w'.server :=
          congrArg (Prod.snd ∘ Prod.snd) hstep
        rw [← hs]
        unfold commitResumed
        rcases hcommit : T.logged.commitBlob t₁ state₁.blobId with ⟨answer, t₂⟩
        have ht₂ : t₂.2 = t₁.2 := (congrArg (Prod.snd ∘ Prod.snd) hcommit).symm
        cases answer with
        | error e => exact ht₂
        | ok root' =>
            show (if root' ≠ state₁.merkleRoot then _ else _ : Except Error UploadResult × (σ × List Nat)).2.2 = _
            split <;> exact ht₂
  refine ⟨sent, by rw [hend, hlog], hasc.imp fun hlt => Nat.ne_of_lt hlt, fun i hi => ?_⟩
  obtain ⟨-, hhi, hnot⟩ := hsent i hi
  exact ⟨by omega, hnot⟩

/-- A finished upload sends nothing. -/
theorem Finished.sends_nothing (h : Finished T chunks root w) (hstep : ResumeStep T chunks blobClass w r w') :
    w'.server.2 = w.server.2 := by
  obtain ⟨sent, hlog, -, hsent⟩ := hstep.sent
  cases sent with
  | nil => rw [hlog, List.append_nil]
  | cons i rest =>
      obtain ⟨hi, hnot⟩ := hsent i (by simp)
      exact absurd (h.2 i hi) hnot

variable {w₀ : UploadWorld σ} {tr : List (UploadWorld σ × Except Error UploadResult)}

theorem marksTrue_of_run (hstart : Interrupted T chunks root blobClass w₀)
    (hrun : Run (ResumeStep T chunks blobClass) w₀ tr w) : MarksTrue T chunks root w :=
  hrun.invariant (fun _ _ _ h hstep => (h.step hstep).1) (marksTrue_of_interrupted hstart)

/-- No mark is taken back. -/
theorem marked_of_run (hstart : Interrupted T chunks root blobClass w₀)
    (hrun : Run (ResumeStep T chunks blobClass) w₀ tr w) : ∀ p ∈ tr, ∀ i, Marked p.1 i → Marked w i := by
  induction hrun with
  | refl => exact fun p hp => absurd hp (by simp)
  | @tail tr t t' a hrun hstep ih =>
      have hkeep := ((marksTrue_of_run hstart hrun).step hstep).2.1
      intro p hp i hi
      rcases List.mem_append.mp hp with hp | hp
      · exact hkeep i (ih p hp i hi)
      · rw [List.mem_singleton.mp hp] at hi
        exact hkeep i hi

/-- After a success the upload is finished. -/
theorem finished_of_run (hstart : Interrupted T chunks root blobClass w₀)
    (hrun : Run (ResumeStep T chunks blobClass) w₀ tr w) (hok : ∃ p ∈ tr, ∃ res, p.2 = .ok res) :
    Finished T chunks root w := by
  induction hrun with
  | refl =>
      obtain ⟨p, hp, -⟩ := hok
      exact absurd hp (by simp)
  | @tail tr t t' a hrun hstep ih =>
      have hmarks := marksTrue_of_run hstart hrun
      obtain ⟨p, hp, res, hres⟩ := hok
      rcases List.mem_append.mp hp with hp | hp
      · exact ((ih ⟨p, hp, res, hres⟩).step hmarks hstep).1
      · rw [List.mem_singleton.mp hp] at hres
        exact (hmarks.step hstep).2.2 res hres

/-- **A resumed upload ends as an uninterrupted one.** After an interrupted first attempt and any number of resumed
ones, whatever fails: a marked chunk is held by the server and stays marked; the next attempt sends no marked chunk, and
none twice; if it succeeds, the blob is the one that an upload without interruption leaves; and after a success it
changes nothing. -/
theorem resumedUpload_as_uninterrupted (hstart : Interrupted T chunks root blobClass w₀)
    (hrun : Run (ResumeStep T chunks blobClass) w₀ tr w) :
    (∀ i, Marked w i → ∃ b c, T.blob w.server.1 w.state.blobId = some b ∧ chunks[i]? = some c ∧
      b.chunks i = some c.ciphertext) ∧
    (∀ p ∈ tr, ∀ i, Marked p.1 i → Marked w i) ∧
    ∀ r w', ResumeStep T chunks blobClass w r w' →
      (∃ sent, w'.server.2 = w.server.2 ++ sent ∧ sent.Nodup ∧ ∀ i ∈ sent, i < chunks.length ∧ ¬ Marked w i) ∧
      (∀ res, r = .ok res → T.blob w'.server.1 w'.state.blobId = some (finishedBlob chunks root) ∧
        ∀ s res' s', uploadChunkedMedia T.toTransportClient chunks root blobClass s = (.ok res', s') →
          T.blob w'.server.1 w'.state.blobId = T.blob s' res'.blobId) ∧
      ((∃ p ∈ tr, ∃ res, p.2 = .ok res) → w'.state = w.state ∧ w'.server.2 = w.server.2 ∧
        T.blob w'.server.1 w'.state.blobId = T.blob w.server.1 w.state.blobId) := by
  have hmarks := marksTrue_of_run hstart hrun
  refine ⟨fun i hi => ?_, marked_of_run hstart hrun, fun r w' hstep => ⟨hstep.sent, fun res hr => ?_, fun hok => ?_⟩⟩
  · obtain ⟨b, hblob, hcons⟩ := hmarks
    have hlt : i < chunks.length := by
      rw [← hcons.length]
      exact (List.getElem?_eq_some_iff.mp hi).1
    refine ⟨b, chunks[i], hblob, List.getElem?_eq_getElem hlt, ?_⟩
    rw [hcons.held i hi, chunkMap, List.getElem?_eq_getElem hlt]
    rfl
  · -- both uploads end in the same blob
    have hdone := ((hmarks.step hstep).2.2 res hr).1
    refine ⟨hdone, fun s res' s' hupload => ?_⟩
    obtain ⟨hne, id, s₁, hinit⟩ := exists_init_of_ok T hupload
    obtain ⟨hid, hblob⟩ := (uploadChunkedMedia_spec T hne hinit hupload).2 res' rfl
    rw [hdone, hid, hblob]
  · have hfin := finished_of_run hstart hrun hok
    obtain ⟨hfin', hstate⟩ := hfin.step hmarks hstep
    exact ⟨hstate, hfin.sends_nothing hstep, by rw [hfin'.1, hfin.1]⟩

end Runs

/-! ## A server whose calls fail -/

/-- What becomes of a call: it is not acted on, it is acted on but its answer is lost, or it is answered. -/
inductive Fate
  | refused
  | lost
  | answered
deriving DecidableEq

/-- The blobs, and the fates of the calls to come. -/
structure FatefulServer where
  blobs : IdText → Option StoredBlob
  fates : List Fate

namespace FatefulServer

/-- The error of a call whose answer does not come. -/
def reset : Error := .transport (.network "connection reset")

/-- Act on the blob, answer, and use up one fate. -/
def act {α : Type} (s : FatefulServer) (id : IdText) (answer : α) (b : StoredBlob) : Except Error α × FatefulServer :=
  match s.fates.headD .answered with
  | .refused => (.error reset, { s with fates := s.fates.tail })
  | .lost => (.error reset, ⟨Function.update s.blobs id (some b), s.fates.tail⟩)
  | .answered => (.ok answer, ⟨Function.update s.blobs id (some b), s.fates.tail⟩)

/-- A call on the blob of an id. -/
def call {α : Type} (s : FatefulServer) (id : IdText) (answer : StoredBlob → α) (f : StoredBlob → StoredBlob) :
    Except Error α × FatefulServer :=
  match s.blobs id with
  | none => (.error reset, s)
  | some b => s.act id (answer b) (f b)

section Act

variable {α : Type} {s s' : FatefulServer} {id : IdText} {b : StoredBlob} {answer : StoredBlob → α}
  {f : StoredBlob → StoredBlob} {r : Except Error α}

theorem call_cases (hb : s.blobs id = some b) (h : s.call id answer f = (r, s')) :
    (s'.blobs id = some b ∨ s'.blobs id = some (f b)) ∧
      ∀ a, r = .ok a → a = answer b ∧ s'.blobs id = some (f b) := by
  unfold call at h
  simp only [hb] at h
  unfold act at h
  cases hfate : s.fates.headD .answered with
  | refused =>
      simp only [hfate, Prod.mk.injEq] at h
      obtain ⟨rfl, rfl⟩ := h
      exact ⟨Or.inl hb, fun _ hr => absurd hr (by simp)⟩
  | lost =>
      simp only [hfate, Prod.mk.injEq] at h
      obtain ⟨rfl, rfl⟩ := h
      exact ⟨Or.inr (Function.update_self _ _ _), fun _ hr => absurd hr (by simp)⟩
  | answered =>
      simp only [hfate, Prod.mk.injEq] at h
      obtain ⟨rfl, rfl⟩ := h
      exact ⟨Or.inr (Function.update_self _ _ _),
        fun _ hr => ⟨(Except.ok.inj hr).symm, Function.update_self _ _ _⟩⟩

end Act

end FatefulServer

/-- **The server whose calls meet their fates.** -/
def fatefulServer (rootOf : (Nat → Option Bytes) → ByteArr 32) : IdempotentServer rootOf FatefulServer where
  initBlobUpload s _ _ root :=
    (.ok (.malformed "blob"),
      ⟨Function.update s.blobs (.malformed "blob") (some (.opened root)), s.fates⟩)
  uploadChunk s id idx c sha := s.call id (fun _ => ⟨idx, sha⟩) fun b => b.put idx c
  commitBlob s id := s.call id (fun b => b.committedRoot.getD (rootOf b.chunks)) (StoredBlob.commit rootOf)
  fetchBlobRange _ _ _ _ := .error FatefulServer.reset
  blob := FatefulServer.blobs
  init_blob s _ _ root _ _ h := by
    obtain ⟨hid, rfl⟩ := Prod.mk.inj h
    rw [← Except.ok.inj hid]
    show Function.update s.blobs (.malformed "blob") (some (.opened root)) (.malformed "blob") = some (.opened root)
    exact Function.update_self _ _ _
  upload_blob _ _ _ _ _ _ _ _ hb h := (FatefulServer.call_cases hb h).1
  upload_acked _ _ _ _ _ _ _ _ hb h _ _ := ((FatefulServer.call_cases hb h).2 _ rfl).2
  commit_blob _ _ _ _ _ hb h := (FatefulServer.call_cases hb h).1
  commit_acked _ _ _ _ _ hb h := by
    obtain ⟨rfl, hblob⟩ := (FatefulServer.call_cases hb h).2 _ rfl
    exact ⟨hblob, rfl⟩

/-- Two chunks. -/
def twoChunks : List SealedChunk := [⟨[1], ByteArr.zeros 32⟩, ⟨[2], ByteArr.zeros 32⟩]

/-- A root that counts the first two chunks' bytes. -/
def countingRoot (chunks : Nat → Option Bytes) : ByteArr 32 :=
  leBytes 32 (((chunks 0).getD []).length + ((chunks 1).getD []).length)

/-- An attempt at the two chunks whose second one is refused. -/
def refusedAttempt : Except Error UploadResult × FatefulServer :=
  uploadChunkedMedia (fatefulServer countingRoot).toTransportClient twoChunks (countingRoot (chunkMap twoChunks)) .media
    ⟨fun _ => none, [.answered, .refused]⟩

/-- Where the attempt leaves the client and the server: the first chunk is marked. -/
def refusedWorld : UploadWorld FatefulServer :=
  ⟨(refusedAttempt.2, []), ⟨.malformed "blob", [true, false], countingRoot (chunkMap twoChunks)⟩⟩

/-- The attempt that takes it up again. -/
def resumedAttempt : Except Error UploadResult × UploadState × (FatefulServer × List Nat) :=
  resumeUpload (fatefulServer countingRoot).logged.toTransportClient refusedWorld.state twoChunks .media
    refusedWorld.server

theorem refusedWorld_interrupted : Interrupted (fatefulServer countingRoot) twoChunks
    (countingRoot (chunkMap twoChunks)) .media refusedWorld := by
  refine ⟨List.cons_ne_nil _ _, ⟨fun _ => none, [.answered, .refused]⟩,
    ⟨Function.update (fun _ => none) (.malformed "blob") (some (.opened _)), [.answered, .refused]⟩,
    refusedAttempt.1, rfl, rfl, rfl, rfl, fun i hi => ?_⟩
  rcases i with _ | _ | i
  · decide
  · exact absurd hi (by decide)
  · exact absurd hi (by simp [refusedWorld])

/-- The second chunk of the first attempt is refused, and the first resumed one goes through. -/
theorem resumedUpload_twoChunks : ∃ res, resumedAttempt.1 = .ok res ∧ resumedAttempt.2.2.2 = [1] ∧
    resumedAttempt.2.2.1.blobs resumedAttempt.2.1.blobId =
      some (finishedBlob twoChunks (countingRoot (chunkMap twoChunks))) := by
  refine ⟨_, rfl, rfl, ?_⟩
  have hstep : ResumeStep (fatefulServer countingRoot) twoChunks .media refusedWorld resumedAttempt.1
      ⟨resumedAttempt.2.2, resumedAttempt.2.1⟩ := rfl
  exact (((resumedUpload_as_uninterrupted refusedWorld_interrupted Run.refl).2.2 _ _ hstep).2.1 _ rfl).1

end KChatCore.Media
