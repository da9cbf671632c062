import KChatCore.Lib.Run
import KChatCore.Models.Machine

/-!
# `Models.HttpDownloader` — a download that may be taken up again

`runAttempt` asks for what follows the bytes of `<dest>.partial`, and appends what it gets. `downloadModel` tries three
times and renames the file onto its destination. A later call, for whatever the entry then names, finds what the last one
left.

A server answers for one fixed artifact: with all of it, with the rest of it, or with an error, and a body may be cut short
(`HonestReply`). What the file system and the connection do is an input of a call.

* `runAttempt_spec` — an attempt on a file that can be taken up ends with the artifact, or with such a file.
* `downloads_deliver` — in a run each of whose calls finds such a file, an `Ok` delivers the artifact that is registered.
-/

namespace KChatCore.Models

open Lib

/-- `Error`, as the downloader returns it. -/
inductive DownloadError
  | network (message : String)
  | server (message : String)
  | storage (message : String)
  | model (e : ModelError)
deriving DecidableEq, Repr

/-- `Quantization`. -/
inductive Quantization
  | int4
  | int8
  | float32
deriving DecidableEq, Repr

/-- `DownloadEntry`. -/
structure DownloadEntry where
  url : String
  quantization : Quantization
deriving DecidableEq, Repr

/-- `ModelArtifact`. -/
structure ModelArtifact where
  modelId : String
  modelVersion : String
  filePath : String
  sizeBytes : Nat
  quantization : Quantization
  sha256 : ByteArr 32
deriving DecidableEq

/-! ## What a request brings -/

/-- A status, with its `Display` form. -/
structure StatusCode where
  code : Nat
  display : String
deriving DecidableEq, Repr

/-- `StatusCode::is_success`. -/
def StatusCode.isSuccess (status : StatusCode) : Bool := 200 ≤ status.code && status.code ≤ 299

/-- `StatusCode::is_server_error`. -/
def StatusCode.isServerError (status : StatusCode) : Bool := 500 ≤ status.code && status.code ≤ 599

/-- What a request brings: an error of `send`, as `map_reqwest_err` maps it, or an answer, with its `Content-Range`, the
pieces its body is read in, and the error that cuts it short. -/
inductive Reply
  | failed (e : DownloadError)
  | answer (status : StatusCode) (contentRange : Option String) (reads : List Bytes) (cut : Option String)

/-- What the file system refuses. A write is refused after some of its bytes. -/
structure DiskFaults where
  readPartial : Option String
  removePartial : Bool
  openPartial : Option String
  write : Option (Nat × Nat × String)
  sync : Option String

/-- No faults. -/
def DiskFaults.none : DiskFaults := ⟨.none, false, .none, .none, .none⟩

/-- One attempt: the server's reply to a request from an offset on, and the faults of the disk. -/
structure Attempt where
  reply : Nat → Reply
  disk : DiskFaults

/-! ## `Content-Range` -/

/-- `str::trim`, of a header's characters. -/
def trimHeader (s : List Char) : List Char := ((s.dropWhile Char.isWhitespace).reverse.dropWhile Char.isWhitespace).reverse

/-- `parse::<u64>`. -/
def parseU64 (s : List Char) : Option Nat :=
  let digits := if s.head? = some '+' then s.tail else s
  if digits.isEmpty || !digits.all Char.isDigit then none
  else
    let n := Nat.ofDigitChars 10 digits 0
    if n < 2 ^ 64 then some n else none

/-- `parse_content_range_first_byte`. -/
def parseContentRangeFirstByte (header : String) : Option Nat :=
  let trimmed := trimHeader header.toList
  if trimmed.take 5 = "bytes".toList then
    let afterUnit := trimmed.drop 5
    match afterUnit.head? with
    | none => none
    | some first =>
        if !first.isWhitespace then none
        else
          let rest := afterUnit.dropWhile Char.isWhitespace
          if rest.head? = some '*' then none
          else if rest.contains '-' then parseU64 (trimHeader (rest.takeWhile fun c => c ≠ '-'))
          else none
  else none

example : parseContentRangeFirstByte "bytes 1024-2047/2048" = some 1024 := by decide +kernel

/-! ## An attempt -/

/-- What is written of a body: the error of the loop or what was hashed and counted, and the file. -/
def copyLoop (cut : Option String) : Option (Nat × Nat × String) → List Bytes → Bytes → Nat → Bytes →
    Except DownloadError (Bytes × Nat) × Bytes
  | _, [], hashed, written, file =>
      match cut with
      | some e => (.error (.network ("model-download: body read: " ++ e)), file)
      | none => (.ok (hashed, written), file)
  | fault, piece :: rest, hashed, written, file =>
      if piece.isEmpty then (.ok (hashed, written), file)
      else
        match fault with
        | some (0, n, e) => (.error (.storage ("model-download: write partial: " ++ e)), file ++ piece.take n)
        | some (k + 1, n, e) =>
            copyLoop cut (some (k, n, e)) rest (hashed ++ piece) (written + piece.length) (file ++ piece)
        | none => copyLoop cut none rest (hashed ++ piece) (written + piece.length) (file ++ piece)

/-- The end of `run_attempt`: the answer is accepted, and its body is written. -/
def receiveBody (sha256 : Bytes → ByteArr 32) (disk : DiskFaults) (serverResumed : Bool) (reads : List Bytes)
    (cut : Option String) (partialFile : Option Bytes) : Except DownloadError (Nat × ByteArr 32) × Option Bytes :=
  let existing := partialFile.getD []
  let truncated := !serverResumed && !existing.isEmpty
  match disk.openPartial with
  | some e =>
      (.error (.storage ((if truncated then "model-download: open/truncate partial: " else "model-download: open partial: ") ++ e)),
        partialFile)
  | none =>
      let start := if truncated then [] else existing
      match copyLoop cut disk.write reads start start.length start with
      | (.error e, file) => (.error e, some file)
      | (.ok (hashed, written), file) =>
          match disk.sync with
          | some e => (.error (.storage ("model-download: fsync partial: " ++ e)), some file)
          | none => (.ok (written, sha256 hashed), some file)

/-- An answer that is no success. -/
def refuseStatus (url : String) (disk : DiskFaults) (status : StatusCode) (partialFile : Option Bytes) :
    Except DownloadError (Nat × ByteArr 32) × Option Bytes :=
  let existingSize := (partialFile.getD []).length
  if status.code = 416 ∧ 0 < existingSize then
    (.error (.network ("model-download: HTTP 416 from " ++ url ++ " (partial size " ++ toString existingSize ++
      " exceeds artifact); deleted partial, will restart from byte 0")),
      if disk.removePartial then partialFile else none)
  else if status.code = 429 ∨ status.isServerError then
    (.error (.network ("model-download: HTTP " ++ status.display ++ " from " ++ url)), partialFile)
  else (.error (.server ("model-download: HTTP " ++ status.display ++ " from " ++ url)), partialFile)

/-- The `Debug` form of the header. -/
def debugHeader : Option String → String
  | none => "None"
  | some header => "Some(\"" ++ header ++ "\")"

/-- `run_attempt`. -/
def runAttempt (sha256 : Bytes → ByteArr 32) (url : String) (a : Attempt) (partialFile : Option Bytes) :
    Except DownloadError (Nat × ByteArr 32) × Option Bytes :=
  let existingSize := (partialFile.getD []).length
  match if 0 < existingSize then a.disk.readPartial else none with
  | some e => (.error (.storage ("model-download: read partial: " ++ e)), partialFile)
  | none =>
      match a.reply existingSize with
      | .failed e => (.error e, partialFile)
      | .answer status contentRange reads cut =>
          if !status.isSuccess then refuseStatus url a.disk status partialFile
          else if status.code = 206 then
            match contentRange.bind parseContentRangeFirstByte with
            | some start =>
                if start = existingSize then receiveBody sha256 a.disk true reads cut partialFile
                else
                  (.error (.server ("model-download: 206 Content-Range start " ++ toString start ++
                    " does not match partial size " ++ toString existingSize ++ " for " ++ url)), partialFile)
            | none =>
                (.error (.server ("model-download: 206 response missing parseable Content-Range header from " ++ url ++
                  " (header=" ++ debugHeader contentRange ++ ")")), partialFile)
          else receiveBody sha256 a.disk false reads cut partialFile

/-! ## A call -/

/-- `is_retryable_error`. -/
def isRetryableError : DownloadError → Bool
  | .network _ => true
  | _ => false

/-- `HTTP_MODEL_DOWNLOAD_RETRY_ATTEMPTS`. -/
def retryAttempts : Nat := 3

/-- The loop of `download_model`, over the attempts that are left. -/
def attemptLoop (sha256 : Bytes → ByteArr 32) (url : String) (attempts : Nat → Attempt) : Nat → Nat → Option Bytes →
    Except DownloadError (Nat × ByteArr 32) × Option Bytes
  | 0, _, partialFile =>
      (.error (.server "model-download: retry budget exhausted with no recorded error"), partialFile)
  | left + 1, attempt, partialFile =>
      match runAttempt sha256 url (attempts attempt) partialFile with
      | (.ok result, partialFile) => (.ok result, partialFile)
      | (.error e, partialFile) =>
          if !isRetryableError e || left = 0 then (.error e, partialFile)
          else attemptLoop sha256 url attempts left (attempt + 1) partialFile

/-- The registry, and the two files of a destination. -/
structure ModelFiles where
  registry : String × String → Option DownloadEntry
  dest : Option Bytes
  partialFile : Option Bytes

/-- What a call meets: its attempts, and the refusals around them. -/
structure CallEnv where
  attempts : Nat → Attempt
  mkdir : Option (String × String)
  rename : Option String

/-- `register_entry`. -/
def registerEntry (modelId modelVersion : String) (entry : DownloadEntry) (files : ModelFiles) : ModelFiles :=
  { files with registry := Function.update files.registry (modelId, modelVersion) (some entry) }

/-- `download_model`, to the destination `destPath`. -/
def downloadModel (sha256 : Bytes → ByteArr 32) (destPath modelId modelVersion : String) (env : CallEnv) (files : ModelFiles) :
    Except DownloadError ModelArtifact × ModelFiles :=
  match files.registry (modelId, modelVersion) with
  | none =>
      (.error (.model (.custom ("no download entry registered for (" ++ modelId ++ ", " ++ modelVersion ++ ")"))), files)
  | some entry =>
      match env.mkdir with
      | some (parent, e) => (.error (.storage ("model-download: mkdir \"" ++ parent ++ "\": " ++ e)), files)
      | none =>
          match attemptLoop sha256 entry.url env.attempts retryAttempts 0 files.partialFile with
          | (.error e, partialFile) => (.error e, { files with partialFile := partialFile })
          | (.ok (size, digest), partialFile) =>
              match env.rename with
              | some e =>
                  (.error (.storage ("model-download: rename \"" ++ destPath ++ ".partial\" -> \"" ++ destPath ++ "\": " ++ e)),
                    { files with partialFile := partialFile })
              | none =>
                  (.ok ⟨modelId, modelVersion, destPath, size, entry.quantization, digest⟩,
                    { files with dest := partialFile, partialFile := none })

/-- `resolve_destination`: the quantization has no part in it. -/
def resolveDestination (modelsDir modelId modelVersion : String) : String :=
  modelsDir ++ "/" ++ modelId ++ "-" ++ String.ofList (modelVersion.toList.map fun c => if c = '@' then '_' else c) ++ ".onnx"

/-! ## An honest server -/

/-- **A body of some bytes**: read in pieces to its end, or cut short anywhere. -/
structure BodyOf (b : Bytes) (reads : List Bytes) (cut : Option String) : Prop where
  pieces : ∀ piece ∈ reads, piece ≠ []
  initial : reads.flatten <+: b
  whole : cut = none → reads.flatten = b

/-- The header of a range that runs to the end. -/
def contentRangeOf (start len : Nat) : String :=
  "bytes " ++ toString start ++ "-" ++ toString (len - 1) ++ "/" ++ toString len

/-- **A reply of a server that serves one artifact**, to a request from an offset on (from 0 where no range was asked). -/
inductive HonestReply (artifact : Bytes) (start : Nat) : Reply → Prop
  | failed (e : DownloadError) : HonestReply artifact start (.failed e)
  | full {status : StatusCode} {contentRange : Option String} {reads : List Bytes} {cut : Option String}
      (hcode : status.code = 200) (hbody : BodyOf artifact reads cut) :
      HonestReply artifact start (.answer status contentRange reads cut)
  | suffix {status : StatusCode} {reads : List Bytes} {cut : Option String} (hcode : status.code = 206) (hpos : 0 < start)
      (hstart : start < artifact.length) (hbody : BodyOf (artifact.drop start) reads cut) :
      HonestReply artifact start (.answer status (some (contentRangeOf start artifact.length)) reads cut)
  | refused {status : StatusCode} {contentRange : Option String} {reads : List Bytes} {cut : Option String}
      (herror : status.isSuccess = false) : HonestReply artifact start (.answer status contentRange reads cut)

/-- **A file that can be taken up**: the beginning of the artifact, or so long that no server resumes it. -/
def Resumable (artifact : Bytes) (partialFile : Option Bytes) : Prop :=
  partialFile.getD [] <+: artifact ∨ artifact.length ≤ (partialFile.getD []).length

section Attempts

variable {sha256 : Bytes → ByteArr 32} {url : String} {artifact : Bytes} {cut : Option String} {reads : List Bytes}
  {partialFile partialFile' : Option Bytes} {disk : DiskFaults} {resumed : Bool}

/-- **What the loop writes**: all of the pieces where it ends well, and a beginning of them where it does not. -/
theorem copyLoop_spec {fault : Option (Nat × Nat × String)} {file file' : Bytes} {r : Except DownloadError (Bytes × Nat)}
    (hpieces : ∀ piece ∈ reads, piece ≠ []) (h : copyLoop cut fault reads file file.length file = (r, file')) :
    (∃ written, file' = file ++ written ∧ written <+: reads.flatten) ∧
      ∀ hashed size, r = .ok (hashed, size) →
        cut = none ∧ file' = file ++ reads.flatten ∧ hashed = file' ∧ size = file'.length := by
  induction reads generalizing fault file with
  | nil =>
      unfold copyLoop at h
      cases cut with
      | some e =>
          obtain ⟨rfl, rfl⟩ := Prod.mk.inj h
          exact ⟨⟨[], (List.append_nil _).symm, List.nil_prefix⟩, fun hashed size hr => absurd hr (by simp)⟩
      | none =>
          obtain ⟨rfl, rfl⟩ := Prod.mk.inj h
          refine ⟨⟨[], (List.append_nil _).symm, List.nil_prefix⟩, fun hashed size hr => ?_⟩
          obtain ⟨rfl, rfl⟩ := Prod.mk.inj (Except.ok.inj hr)
          exact ⟨rfl, (List.append_nil _).symm, rfl, rfl⟩
  | cons piece reads ih =>
      have hne : piece.isEmpty = false := List.isEmpty_eq_false_iff.mpr (hpieces piece List.mem_cons_self)
      -- a piece that was written is hashed, and the loop goes on
      have hrest : ∀ {fault}, copyLoop cut fault reads (file ++ piece) (file.length + piece.length) (file ++ piece) = (r, file') →
          (∃ written, file' = file ++ written ∧ written <+: (piece :: reads).flatten) ∧
            ∀ hashed size, r = .ok (hashed, size) →
              cut = none ∧ file' = file ++ (piece :: reads).flatten ∧ hashed = file' ∧ size = file'.length := by
        intro fault h
        rw [← List.length_append] at h
        obtain ⟨⟨written, hfile, hpre⟩, hok⟩ := ih (fun p hp => hpieces p (List.mem_cons_of_mem _ hp)) h
        rw [List.flatten_cons, ← List.append_assoc]
        exact ⟨⟨piece ++ written, by rw [hfile, List.append_assoc], List.prefix_append_right_inj piece |>.mpr hpre⟩, hok⟩
      unfold copyLoop at h
      rw [hne] at h
      -- the fault is counted down; where it strikes a part of the piece is on disk
      rcases fault with _ | ⟨_ | k, n, e⟩
      · exact hrest h
      · obtain ⟨rfl, rfl⟩ := Prod.mk.inj h
        refine ⟨⟨piece.take n, rfl, ?_⟩, fun hashed size hr => absurd hr (by simp)⟩
        exact (List.take_prefix n piece).trans (List.prefix_append _ _)
      · exact hrest h

/-- **A body that is received**, on top of what is kept of the file. -/
theorem receiveBody_spec {kept b : Bytes} {r : Except DownloadError (Nat × ByteArr 32)}
    (hkept : kept = if !resumed && !(partialFile.getD []).isEmpty then [] else partialFile.getD [])
    (hbody : BodyOf b reads cut) (h : receiveBody sha256 disk resumed reads cut partialFile = (r, partialFile')) :
    (partialFile' = partialFile ∨ ∃ written, partialFile' = some (kept ++ written) ∧ written <+: b) ∧
      ∀ size digest, r = .ok (size, digest) →
        partialFile' = some (kept ++ b) ∧ size = (kept ++ b).length ∧ digest = sha256 (kept ++ b) := by
  unfold receiveBody at h
  cases hopen : disk.openPartial with
  | some e =>
      simp only [hopen] at h
      obtain ⟨rfl, rfl⟩ := Prod.mk.inj h
      exact ⟨Or.inl rfl, fun size digest hr => absurd hr (by simp)⟩
  | none =>
      simp only [hopen, ← hkept] at h
      cases hcopy : copyLoop cut disk.write reads kept kept.length kept with
      | mk result file =>
          obtain ⟨⟨written, hfile, hpre⟩, hok⟩ := copyLoop_spec hbody.pieces hcopy
          rw [hcopy] at h
          -- whatever goes wrong from here on, the file is a prefix
          have hleft : ∃ written, some file = some (kept ++ written) ∧ written <+: b :=
            ⟨written, congrArg some hfile, hpre.trans hbody.initial⟩
          cases result with
          | error e =>
              obtain ⟨rfl, rfl⟩ := Prod.mk.inj h
              exact ⟨Or.inr hleft, fun size digest hr => absurd hr (by simp)⟩
          | ok result =>
              obtain ⟨hashed, size⟩ := result
              simp only at h
              cases hsync : disk.sync with
              | some e =>
                  rw [hsync] at h
                  obtain ⟨rfl, rfl⟩ := Prod.mk.inj h
                  exact ⟨Or.inr hleft, fun size digest hr => absurd hr (by simp)⟩
              | none =>
                  rw [hsync] at h
                  obtain ⟨rfl, rfl⟩ := Prod.mk.inj h
                  refine ⟨Or.inr hleft, fun size' digest hr => ?_⟩
                  obtain ⟨rfl, rfl⟩ := Prod.mk.inj (Except.ok.inj hr)
                  obtain ⟨hcut, hall, rfl, rfl⟩ := hok hashed size rfl
                  rw [hbody.whole hcut] at hall
                  exact ⟨congrArg some hall, congrArg List.length hall, congrArg sha256 hall⟩

theorem Resumable.of_isPrefix {file : Bytes} (h : file <+: artifact) : Resumable artifact (some file) := Or.inl h

/-- A refused request leaves the file or removes it. -/
theorem refuseStatus_spec {status : StatusCode} {r : Except DownloadError (Nat × ByteArr 32)}
    (h : refuseStatus url disk status partialFile = (r, partialFile')) :
    (partialFile' = partialFile ∨ partialFile' = none) ∧ ∀ result, r ≠ .ok result := by
  unfold refuseStatus at h
  simp only at h
  by_cases hrange : status.code = 416 ∧ 0 < (partialFile.getD []).length
  · rw [if_pos hrange] at h
    obtain ⟨rfl, rfl⟩ := Prod.mk.inj h
    refine ⟨?_, fun result => by simp⟩
    cases disk.removePartial
    · exact Or.inr rfl
    · exact Or.inl rfl
  · rw [if_neg hrange] at h
    by_cases hretry : status.code = 429 ∨ status.isServerError
    · rw [if_pos hretry] at h
      obtain ⟨rfl, rfl⟩ := Prod.mk.inj h
      exact ⟨Or.inl rfl, fun result => by simp⟩
    · rw [if_neg hretry] at h
      obtain ⟨rfl, rfl⟩ := Prod.mk.inj h
      exact ⟨Or.inl rfl, fun result => by simp⟩

/-- **An answer with all of the artifact** replaces what was there. -/
theorem receiveBody_full {r : Except DownloadError (Nat × ByteArr 32)} (hresume : Resumable artifact partialFile)
    (hbody : BodyOf artifact reads cut) (h : receiveBody sha256 disk false reads cut partialFile = (r, partialFile')) :
    Resumable artifact partialFile' ∧ ∀ size digest, r = .ok (size, digest) →
      partialFile' = some artifact ∧ size = artifact.length ∧ digest = sha256 artifact := by
  have hkept : ([] : Bytes) = if !false && !(partialFile.getD []).isEmpty then [] else partialFile.getD [] := by
    cases hempty : (partialFile.getD []).isEmpty with
    | false => rfl
    | true => exact (List.isEmpty_iff.mp hempty).symm
  obtain ⟨hfile, hok⟩ := receiveBody_spec hkept hbody h
  refine ⟨?_, hok⟩
  rcases hfile with rfl | ⟨written, rfl, hpre⟩
  · exact hresume
  · exact .of_isPrefix hpre

/-- **An answer with the rest of the artifact** completes what was there. -/
theorem receiveBody_suffix {r : Except DownloadError (Nat × ByteArr 32)} (hresume : Resumable artifact partialFile)
    (hstart : (partialFile.getD []).length < artifact.length)
    (hbody : BodyOf (artifact.drop (partialFile.getD []).length) reads cut)
    (h : receiveBody sha256 disk true reads cut partialFile = (r, partialFile')) :
    Resumable artifact partialFile' ∧ ∀ size digest, r = .ok (size, digest) →
      partialFile' = some artifact ∧ size = artifact.length ∧ digest = sha256 artifact := by
  have hinitial : partialFile.getD [] <+: artifact := hresume.resolve_right (by omega)
  have hwhole : partialFile.getD [] ++ artifact.drop (partialFile.getD []).length = artifact := by
    obtain ⟨rest, hrest⟩ := hinitial
    conv_lhs => rw [← hrest, List.drop_left]
    exact hrest
  obtain ⟨hfile, hok⟩ := receiveBody_spec rfl hbody h
  refine ⟨?_, fun size digest hr => ?_⟩
  · rcases hfile with rfl | ⟨written, rfl, hpre⟩
    · exact hresume
    · refine .of_isPrefix ?_
      rw [← hwhole]
      exact (List.prefix_append_right_inj _).mpr hpre
  · obtain ⟨hall, hsize, hdigest⟩ := hok size digest hr
    have hkept : (if !true && !(partialFile.getD []).isEmpty then [] else partialFile.getD []) = partialFile.getD [] := rfl
    rw [hkept, hwhole] at hall hsize hdigest
    exact ⟨hall, hsize, hdigest⟩

/-- **An attempt on a file that can be taken up** ends with the artifact, or with such a file. -/
theorem runAttempt_spec {a : Attempt} {r : Except DownloadError (Nat × ByteArr 32)} (hresume : Resumable artifact partialFile)
    (hhonest : ∀ start, HonestReply artifact start (a.reply start))
    (h : runAttempt sha256 url a partialFile = (r, partialFile')) :
    Resumable artifact partialFile' ∧ ∀ size digest, r = .ok (size, digest) →
      partialFile' = some artifact ∧ size = artifact.length ∧ digest = sha256 artifact := by
  -- an attempt that fails before the body leaves the file
  have hfailed : ∀ e : DownloadError, (Except.error e, partialFile) = (r, partialFile') →
      Resumable artifact partialFile' ∧ ∀ size digest, r = .ok (size, digest) →
        partialFile' = some artifact ∧ size = artifact.length ∧ digest = sha256 artifact := by
    intro e heq
    obtain ⟨rfl, rfl⟩ := Prod.mk.inj heq
    exact ⟨hresume, fun size digest hr => absurd hr (by simp)⟩
  have hreply := hhonest (partialFile.getD []).length
  unfold runAttempt at h
  simp only at h
  cases hread : (if 0 < (partialFile.getD []).length then a.disk.readPartial else none) with
  | some e =>
      rw [hread] at h
      exact hfailed _ h
  | none =>
      rw [hread] at h
      generalize a.reply (partialFile.getD []).length = reply at hreply h
      cases hreply with
      | failed e => exact hfailed e h
      | full hcode hbody =>
          rename_i status contentRange reads cut
          have hsuccess : (!status.isSuccess) = false := by
            unfold StatusCode.isSuccess
            rw [hcode]
            rfl
          simp only [hsuccess, hcode] at h
          exact receiveBody_full hresume hbody h
      | suffix hcode hpos hstart hbody =>
          rename_i status reads cut
          have hsuccess : (!status.isSuccess) = false := by
            unfold StatusCode.isSuccess
            rw [hcode]
            rfl
          simp only [hsuccess, hcode] at h
          cases hparse : (some (contentRangeOf (partialFile.getD []).length artifact.length)).bind
              parseContentRangeFirstByte with
          | none =>
              rw [hparse] at h
              exact hfailed _ h
          | some start =>
              rw [hparse] at h
              -- a range that begins elsewhere is refused
              by_cases hsame : start = (partialFile.getD []).length
              · simp only [if_pos hsame] at h
                exact receiveBody_suffix hresume hstart hbody h
              · simp only [if_neg hsame] at h
                exact hfailed _ h
      | refused herror =>
          rename_i status contentRange reads cut
          simp only [herror] at h
          obtain ⟨hfile, hnotok⟩ := refuseStatus_spec h
          refine ⟨?_, fun size digest hr => absurd hr (hnotok _)⟩
          -- a refusal keeps the file, or drops it
          rcases hfile with rfl | rfl
          · exact hresume
          · exact Or.inl List.nil_prefix

/-- **Any number of attempts**, each on what the one before it left. -/
theorem attemptLoop_spec {attempts : Nat → Attempt} {left attempt : Nat} {r : Except DownloadError (Nat × ByteArr 32)}
    (hresume : Resumable artifact partialFile)
    (hhonest : ∀ i start, HonestReply artifact start ((attempts i).reply start))
    (h : attemptLoop sha256 url attempts left attempt partialFile = (r, partialFile')) :
    Resumable artifact partialFile' ∧ ∀ size digest, r = .ok (size, digest) →
      partialFile' = some artifact ∧ size = artifact.length ∧ digest = sha256 artifact := by
  induction left generalizing attempt partialFile with
  | zero =>
      obtain ⟨rfl, rfl⟩ := Prod.mk.inj h
      exact ⟨hresume, fun size digest hr => absurd hr (by simp)⟩
  | succ left ih =>
      unfold attemptLoop at h
      cases hattempt : runAttempt sha256 url (attempts attempt) partialFile with
      | mk result file =>
          obtain ⟨hfile, hok⟩ := runAttempt_spec hresume (hhonest attempt) hattempt
          rw [hattempt] at h
          cases result with
          | ok result =>
              obtain ⟨rfl, rfl⟩ := Prod.mk.inj h
              exact ⟨hfile, hok⟩
          | error e =>
              simp only at h
              by_cases hlast : (!isRetryableError e || decide (left = 0)) = true
              · rw [if_pos hlast] at h
                obtain ⟨rfl, rfl⟩ := Prod.mk.inj h
                exact ⟨hfile, fun size digest hr => absurd hr (by simp)⟩
              · rw [if_neg hlast] at h
                exact ih hfile h

end Attempts

/-! ## Calls -/

/-- **A call that is lawful**: an `Ok` delivers what is registered, an `Err` leaves the destination. -/
def LawfulDownload (sha256 : Bytes → ByteArr 32) (destPath : String) (artifact : String → Bytes) (modelId modelVersion : String)
    (env : CallEnv) (files : ModelFiles) : Prop :=
  ∀ r files', downloadModel sha256 destPath modelId modelVersion env files = (r, files') →
    (∀ a, r = .ok a → ∃ entry, files.registry (modelId, modelVersion) = some entry ∧
      files'.dest = some (artifact entry.url) ∧ a.sizeBytes = (artifact entry.url).length ∧
      a.sha256 = sha256 (artifact entry.url)) ∧
    ∀ e, r = .error e → files'.dest = files.dest

/-- The servers of a call are honest: the one the entry's URL names serves its artifact. -/
def CallEnv.Honest (env : CallEnv) (artifact : Bytes) : Prop :=
  ∀ i start, HonestReply artifact start ((env.attempts i).reply start)

/-- **A registration, or a call against an honest server.** -/
inductive DownloadCall
  | register (modelId modelVersion : String) (entry : DownloadEntry)
  | download (modelId modelVersion : String) (env : CallEnv)

section Calls

variable {sha256 : Bytes → ByteArr 32} {destPath modelId modelVersion : String} {artifact : String → Bytes} {env : CallEnv}
  {files files₀ : ModelFiles} {tr : List (ModelFiles × DownloadCall)}

/-- **A call that finds a file it can take up** is lawful, and leaves a file that can be taken up for the same artifact. -/
theorem downloadModel_lawful
    (hresume : ∀ entry, files.registry (modelId, modelVersion) = some entry → Resumable (artifact entry.url) files.partialFile)
    (hhonest : ∀ entry, files.registry (modelId, modelVersion) = some entry → env.Honest (artifact entry.url)) :
    LawfulDownload sha256 destPath artifact modelId modelVersion env files ∧
      ∀ entry, files.registry (modelId, modelVersion) = some entry → Resumable (artifact entry.url)
        (downloadModel sha256 destPath modelId modelVersion env files).2.partialFile := by
  unfold LawfulDownload downloadModel
  cases hentry : files.registry (modelId, modelVersion) with
  | none =>
      refine ⟨fun r files' h => ?_, fun entry h => absurd h (by simp)⟩
      obtain ⟨rfl, rfl⟩ := Prod.mk.inj h
      exact ⟨fun a hr => absurd hr (by simp), fun e _ => rfl⟩
  | some entry =>
      have hkept := hresume entry hentry
      simp only
      cases hmkdir : env.mkdir with
      | some refusal =>
          refine ⟨fun r files' h => ?_, fun entry' h => by rwa [← Option.some.inj h]⟩
          obtain ⟨rfl, rfl⟩ := Prod.mk.inj h
          exact ⟨fun a hr => absurd hr (by simp), fun e _ => rfl⟩
      | none =>
          simp only
          cases hloop : attemptLoop sha256 entry.url env.attempts retryAttempts 0 files.partialFile with
          | mk result file =>
              obtain ⟨hfile, hok⟩ := attemptLoop_spec hkept (hhonest entry hentry) hloop
              cases result with
              | error e =>
                  refine ⟨fun r files' h => ?_, fun entry' h => by rwa [← Option.some.inj h]⟩
                  obtain ⟨rfl, rfl⟩ := Prod.mk.inj h
                  exact ⟨fun a hr => absurd hr (by simp), fun e _ => rfl⟩
              | ok result =>
                  obtain ⟨size, digest⟩ := result
                  simp only
                  -- only a file that was renamed is at the destination
                  cases hrename : env.rename with
                  | some e =>
                      refine ⟨fun r files' h => ?_, fun entry' h => by rwa [← Option.some.inj h]⟩
                      obtain ⟨rfl, rfl⟩ := Prod.mk.inj h
                      exact ⟨fun a hr => absurd hr (by simp), fun e _ => rfl⟩
                  | none =>
                      refine ⟨fun r files' h => ?_, fun entry' _ => Or.inl List.nil_prefix⟩
                      obtain ⟨rfl, rfl⟩ := Prod.mk.inj h
                      refine ⟨fun a hr => ⟨entry, rfl, ?_⟩, fun e hr => absurd hr (by simp)⟩
                      obtain rfl := Except.ok.inj hr
                      exact hok size digest rfl

end Calls

/-! ## A file that cannot be taken up -/

section Splice

variable {sha256 : Bytes → ByteArr 32} {destPath modelId modelVersion : String} {artifact : String → Bytes}
  {files : ModelFiles}

theorem isWhitespace_of_isDigit {c : Char} (h : c.isDigit = true) : c.isWhitespace = false := by
  have hdigit := Char.isDigit_iff_toNat.mp h
  have hzero : '0'.toNat = 48 := rfl
  have hne : ∀ d : Char, d.toNat < 48 → c ≠ d := by
    rintro d hd rfl
    omega
  simp [Char.isWhitespace, hne]

/-- A text that neither begins nor ends with a blank. -/
theorem trimHeader_eq_self {s : List Char} (hhead : ∀ c ∈ s.head?, c.isWhitespace = false)
    (hlast : ∀ c ∈ s.getLast?, c.isWhitespace = false) : trimHeader s = s := by
  have hdrop : ∀ l : List Char, (∀ c ∈ l.head?, c.isWhitespace = false) → l.dropWhile Char.isWhitespace = l := by
    intro l hl
    cases l with
    | nil => rfl
    | cons c l => exact List.dropWhile_cons_of_neg (by simpa using hl c rfl)
  unfold trimHeader
  rw [hdrop s hhead, hdrop s.reverse (by rwa [List.head?_reverse]), List.reverse_reverse]

/-- What is a digit is not any other character. -/
theorem ne_of_mem_toDigits {n : Nat} {c d : Char} (hc : c ∈ Nat.toDigits 10 n) (hd : d.isDigit = false) : c ≠ d := by
  rintro rfl
  have hdigit := Nat.isDigit_of_mem_toDigits (by omega) (by omega) hc
  rw [hd] at hdigit
  exact absurd hdigit (by decide)

theorem isWhitespace_of_mem_toDigits {n : Nat} {c : Char} (hc : c ∈ Nat.toDigits 10 n) : c.isWhitespace = false :=
  isWhitespace_of_isDigit (Nat.isDigit_of_mem_toDigits (by omega) (by omega) hc)

/-- The digits of a number begin with one. -/
theorem exists_toDigits_eq_cons (n : Nat) : ∃ d digits, Nat.toDigits 10 n = d :: digits ∧ d ∈ Nat.toDigits 10 n := by
  obtain ⟨d, digits, hd⟩ := List.exists_cons_of_ne_nil (@Nat.toDigits_ne_nil n 10)
  exact ⟨d, digits, hd, hd ▸ List.mem_cons_self⟩

theorem trimHeader_toDigits (n : Nat) : trimHeader (Nat.toDigits 10 n) = Nat.toDigits 10 n := by
  apply trimHeader_eq_self
  · intro c hc
    exact isWhitespace_of_mem_toDigits (List.mem_of_mem_head? hc)
  · intro c hc
    exact isWhitespace_of_mem_toDigits (List.mem_of_getLast? hc)

theorem parseU64_toDigits {n : Nat} (hn : n < 2 ^ 64) : parseU64 (Nat.toDigits 10 n) = some n := by
  have hdigits : ∀ c ∈ Nat.toDigits 10 n, c.isDigit = true := fun c hc => Nat.isDigit_of_mem_toDigits (by omega) (by omega) hc
  have hplus : ¬ (Nat.toDigits 10 n).head? = some '+' := by
    intro h
    exact ne_of_mem_toDigits (List.mem_of_mem_head? h) (by decide) rfl
  have hsome : ((Nat.toDigits 10 n).isEmpty || !(Nat.toDigits 10 n).all Char.isDigit) = false := by
    rw [Bool.or_eq_false_iff, List.isEmpty_eq_false_iff, Bool.not_eq_false', List.all_eq_true]
    exact ⟨Nat.toDigits_ne_nil, hdigits⟩
  unfold parseU64
  simp only [if_neg hplus, hsome, Bool.false_eq_true, if_false]
  rw [Nat.ofDigitChars_toDigits (by omega) (by omega), if_pos hn]

/-- What stands behind the first byte. -/
def rangeTail (len : Nat) : List Char := '-' :: (Nat.toDigits 10 (len - 1) ++ '/' :: Nat.toDigits 10 len)

/-- The header, by its characters. -/
theorem toList_contentRangeOf (start len : Nat) :
    (contentRangeOf start len).toList = "bytes".toList ++ ' ' :: (Nat.toDigits 10 start ++ rangeTail len) := by
  unfold contentRangeOf rangeTail
  simp only [String.toList_append, Nat.toString_eq_ofList_toDigits, String.toList_ofList, List.append_assoc]
  rfl

/-- The header begins with a letter and ends with a digit. -/
theorem trimHeader_contentRangeOf (start len : Nat) :
    trimHeader (contentRangeOf start len).toList = (contentRangeOf start len).toList := by
  apply trimHeader_eq_self
  · rw [toList_contentRangeOf]
    rintro c ⟨⟩
    decide
  · intro c hc
    have hsplit : (contentRangeOf start len).toList = ("bytes".toList ++ ' ' :: (Nat.toDigits 10 start ++
        '-' :: (Nat.toDigits 10 (len - 1) ++ ['/']))) ++ Nat.toDigits 10 len := by
      rw [toList_contentRangeOf, rangeTail]
      simp
    rw [hsplit, List.getLast?_append_of_ne_nil _ Nat.toDigits_ne_nil] at hc
    exact isWhitespace_of_mem_toDigits (List.mem_of_getLast? hc)

section RangeStart

variable {start len : Nat}

/-- The blank behind the unit is dropped, and no digit. -/
theorem dropWhile_rangeStart : (' ' :: (Nat.toDigits 10 start ++ rangeTail len)).dropWhile Char.isWhitespace =
    Nat.toDigits 10 start ++ rangeTail len := by
  obtain ⟨d, digits, hd, hmem⟩ := exists_toDigits_eq_cons start
  rw [List.dropWhile_cons_of_pos (by decide), hd, List.cons_append]
  exact List.dropWhile_cons_of_neg (by simpa using isWhitespace_of_mem_toDigits hmem)

theorem head?_rangeStart : ¬ (Nat.toDigits 10 start ++ rangeTail len).head? = some '*' := by
  obtain ⟨d, digits, hd, hmem⟩ := exists_toDigits_eq_cons start
  rw [hd]
  intro h
  exact ne_of_mem_toDigits hmem (by decide) (Option.some.inj h)

theorem contains_rangeStart : (Nat.toDigits 10 start ++ rangeTail len).contains '-' = true := by
  rw [List.contains_iff_mem, rangeTail]
  simp

/-- The first byte stands before the dash. -/
theorem takeWhile_rangeStart :
    (Nat.toDigits 10 start ++ rangeTail len).takeWhile (fun c => decide (c ≠ '-')) = Nat.toDigits 10 start := by
  rw [List.takeWhile_append_of_pos, rangeTail, List.takeWhile_cons_of_neg (by decide), List.append_nil]
  intro c hc
  exact decide_eq_true (ne_of_mem_toDigits hc (by decide))

end RangeStart

/-- **The first byte of an honest header is read.** -/
theorem parse_contentRangeOf {start len : Nat} (hstart : start < 2 ^ 64) :
    parseContentRangeFirstByte (contentRangeOf start len) = some start := by
  unfold parseContentRangeFirstByte
  simp only [trimHeader_contentRangeOf]
  rw [toList_contentRangeOf, if_pos (by rfl)]
  -- what follows the unit
  show (if !(' ').isWhitespace then none
    else
      if ((' ' :: (Nat.toDigits 10 start ++ rangeTail len)).dropWhile Char.isWhitespace).head? = some '*' then none
      else
        if ((' ' :: (Nat.toDigits 10 start ++ rangeTail len)).dropWhile Char.isWhitespace).contains '-' then
          parseU64 (trimHeader (((' ' :: (Nat.toDigits 10 start ++ rangeTail len)).dropWhile Char.isWhitespace).takeWhile
            fun c => decide (c ≠ '-')))
        else none) = some start
  rw [if_neg (by decide), dropWhile_rangeStart, if_neg head?_rangeStart, if_pos contains_rangeStart, takeWhile_rangeStart,
    trimHeader_toDigits]
  exact parseU64_toDigits hstart

/-- A server that sends the rest where there is one. -/
def resumingAttempt (b : Bytes) : Attempt where
  reply start :=
    if 0 < start ∧ start < b.length then
      .answer ⟨206, "206 Partial Content"⟩ (some (contentRangeOf start b.length)) [b.drop start] none
    else .answer ⟨404, "404 Not Found"⟩ none [] none
  disk := .none

/-- A call of such a server, and nothing is refused. -/
def resumingEnv (b : Bytes) : CallEnv := ⟨fun _ => resumingAttempt b, none, none⟩

theorem resumingEnv_honest (b : Bytes) : (resumingEnv b).Honest b := by
  intro i start
  show HonestReply b start (if 0 < start ∧ start < b.length then _ else _)
  by_cases h : 0 < start ∧ start < b.length
  · rw [if_pos h]
    refine .suffix rfl h.1 h.2 ⟨fun piece hpiece => ?_, ?_, fun _ => ?_⟩
    · rw [List.mem_singleton.mp hpiece]
      exact List.ne_nil_of_length_pos (by rw [List.length_drop]; omega)
    · rw [List.flatten_singleton]
    · exact List.flatten_singleton
  · rw [if_neg h]
    exact .refused rfl

/-- **The rest of one artifact after the beginning of another.** -/
theorem runAttempt_splices {b p : Bytes} {url : String} (hpos : 0 < p.length) (hlt : p.length < b.length)
    (hlen : b.length ≤ 2 ^ 64) : runAttempt sha256 url (resumingAttempt b) (some p) =
      (.ok ((p ++ b.drop p.length).length, sha256 (p ++ b.drop p.length)), some (p ++ b.drop p.length)) := by
  have hreply : (resumingAttempt b).reply p.length =
      .answer ⟨206, "206 Partial Content"⟩ (some (contentRangeOf p.length b.length)) [b.drop p.length] none :=
    if_pos ⟨hpos, hlt⟩
  have hrest : (b.drop p.length).isEmpty = false := by
    rw [List.isEmpty_eq_false_iff]
    exact List.ne_nil_of_length_pos (by rw [List.length_drop]; omega)
  have hcopy : copyLoop none none [b.drop p.length] p p.length p =
      (.ok (p ++ b.drop p.length, p.length + (b.drop p.length).length), p ++ b.drop p.length) := by
    unfold copyLoop
    rw [hrest]
    rfl
  have hreceive : receiveBody sha256 DiskFaults.none true [b.drop p.length] none (some p) =
      (.ok ((p ++ b.drop p.length).length, sha256 (p ++ b.drop p.length)), some (p ++ b.drop p.length)) := by
    unfold receiveBody
    simp only [DiskFaults.none, Option.getD_some, Bool.not_true, Bool.false_and, Bool.false_eq_true, if_false, hcopy,
      List.length_append]
  have hparse := @parse_contentRangeOf p.length b.length (by omega)
  have hread : (if 0 < p.length then (none : Option String) else none) = none := ite_self _
  unfold runAttempt
  simp only [Option.getD_some, resumingAttempt, DiskFaults.none] at hreply ⊢
  rw [hread]
  simp only [hreply, Option.bind_some, hparse]
  exact hreceive

/-- **A file that cannot be taken up** is taken up by an honest server. -/
theorem splices_of_not_resumable {entry : DownloadEntry} (hentry : files.registry (modelId, modelVersion) = some entry)
    (hlen : (artifact entry.url).length ≤ 2 ^ 64) (h : ¬ Resumable (artifact entry.url) files.partialFile) :
    ¬ LawfulDownload sha256 destPath artifact modelId modelVersion (resumingEnv (artifact entry.url)) files := by
  obtain ⟨hpre, hlt⟩ := not_or.mp h
  cases hfile : files.partialFile with
  | none =>
      rw [hfile] at hpre
      exact absurd List.nil_prefix hpre
  | some p =>
      rw [hfile, Option.getD_some] at hpre hlt
      have hpos : 0 < p.length := List.length_pos_iff.mpr fun hnil => hpre (hnil ▸ List.nil_prefix)
      have hattempt : runAttempt sha256 entry.url (resumingAttempt (artifact entry.url)) (some p) = _ :=
        runAttempt_splices hpos (not_le.mp hlt) hlen
      have hloop : attemptLoop sha256 entry.url (resumingEnv (artifact entry.url)).attempts retryAttempts 0 (some p) =
          (.ok ((p ++ (artifact entry.url).drop p.length).length, sha256 (p ++ (artifact entry.url).drop p.length)),
            some (p ++ (artifact entry.url).drop p.length)) := by
        have hfirst : (resumingEnv (artifact entry.url)).attempts 0 = resumingAttempt (artifact entry.url) := rfl
        unfold retryAttempts attemptLoop
        rw [hfirst, hattempt]
      have hcall : (downloadModel sha256 destPath modelId modelVersion (resumingEnv (artifact entry.url)) files) =
          (.ok ⟨modelId, modelVersion, destPath, (p ++ (artifact entry.url).drop p.length).length, entry.quantization,
            sha256 (p ++ (artifact entry.url).drop p.length)⟩,
            { files with dest := some (p ++ (artifact entry.url).drop p.length), partialFile := none }) := by
        have hmkdir : (resumingEnv (artifact entry.url)).mkdir = none := rfl
        have hrename : (resumingEnv (artifact entry.url)).rename = none := rfl
        unfold downloadModel
        simp only [hentry, hmkdir, hfile, hloop, hrename]
      intro hlawful
      obtain ⟨entry', hentry', hdest, -⟩ := (hlawful _ _ hcall).1 _ rfl
      obtain rfl := Option.some.inj (hentry.symm.trans hentry')
      exact hpre ⟨_, Option.some.inj hdest⟩

end Splice

/-! ## Runs -/

/-- One step: a registration, or a call against honest servers. -/
def DownloadStep (sha256 : Bytes → ByteArr 32) (destPath : String) (artifact : String → Bytes) (files : ModelFiles)
    (call : DownloadCall) (files' : ModelFiles) : Prop :=
  match call with
  | .register modelId modelVersion entry => files' = registerEntry modelId modelVersion entry files
  | .download modelId modelVersion env =>
      (∀ entry, files.registry (modelId, modelVersion) = some entry → env.Honest (artifact entry.url)) ∧
        files' = (downloadModel sha256 destPath modelId modelVersion env files).2

/-- **What a call finds can be taken up** for the artifact that is registered. -/
def FindsResumable (artifact : String → Bytes) (files : ModelFiles) : DownloadCall → Prop
  | .register _ _ _ => True
  | .download modelId modelVersion _ =>
      ∀ entry, files.registry (modelId, modelVersion) = some entry → Resumable (artifact entry.url) files.partialFile

/-- The call is lawful, and what it leaves can be taken up for the same artifact; a registration is. -/
def LawfulCall (sha256 : Bytes → ByteArr 32) (destPath : String) (artifact : String → Bytes) (files : ModelFiles) :
    DownloadCall → Prop
  | .register _ _ _ => True
  | .download modelId modelVersion env => LawfulDownload sha256 destPath artifact modelId modelVersion env files ∧
      ∀ entry, files.registry (modelId, modelVersion) = some entry → Resumable (artifact entry.url)
        (downloadModel sha256 destPath modelId modelVersion env files).2.partialFile

/-- **In a run each of whose calls finds a file it can take up, every call is lawful**; and a call that finds another is not,
against some honest server. -/
theorem downloads_deliver (sha256 : Bytes → ByteArr 32) (destPath : String) (artifact : String → Bytes) :
    (∀ files₀ tr files, Run (DownloadStep sha256 destPath artifact) files₀ tr files →
      (∀ p ∈ tr, FindsResumable artifact p.1 p.2) → ∀ p ∈ tr, LawfulCall sha256 destPath artifact p.1 p.2) ∧
    ∀ files modelId modelVersion entry, files.registry (modelId, modelVersion) = some entry →
      (artifact entry.url).length ≤ 2 ^ 64 →
        ((∀ env : CallEnv, env.Honest (artifact entry.url) →
          LawfulDownload sha256 destPath artifact modelId modelVersion env files) ↔
          Resumable (artifact entry.url) files.partialFile) := by
  constructor
  · intro files₀ tr files hrun hresume p hp
    obtain ⟨before, after, hsplit⟩ := List.append_of_mem hp
    obtain ⟨-, files', hstep⟩ := hrun.split hsplit
    have hfinds := hresume p hp
    obtain ⟨files, call⟩ := p
    cases call with
    | register modelId modelVersion entry => trivial
    | download modelId modelVersion env => exact downloadModel_lawful hfinds hstep.1
  · intro files modelId modelVersion entry hentry hlen
    constructor
    · -- a server that resumes splices the file onto what is there
      intro hlawful
      by_contra hnot
      exact splices_of_not_resumable hentry hlen hnot (hlawful _ (resumingEnv_honest _))
    · intro hresume env hhonest
      refine (downloadModel_lawful (fun entry' h => ?_) fun entry' h => ?_).1
      · rwa [← Option.some.inj (hentry.symm.trans h)]
      · rwa [← Option.some.inj (hentry.symm.trans h)]

/-! ## Two variants of a model -/

/-- The variants' artifacts: the same id, version and destination. -/
def variantBytes (url : String) : Bytes := if url = "https://m.example/xlmr-int8.onnx" then [1, 2, 9] else [3, 4, 5]

/-- The 8-bit variant. -/
def int8Entry : DownloadEntry := ⟨"https://m.example/xlmr-int8.onnx", .int8⟩

/-- The 4-bit variant. -/
def int4Entry : DownloadEntry := ⟨"https://m.example/xlmr-int4.onnx", .int4⟩

/-- A first attempt that is cut after two bytes, and then nothing is found. -/
def cutEnv : CallEnv where
  attempts i :=
    ⟨fun _ => if i = 0 then .answer ⟨200, "200 OK"⟩ none [[1, 2]] (some "connection reset")
      else .answer ⟨404, "404 Not Found"⟩ none [] none, .none⟩
  mkdir := none
  rename := none

/-- A digest that only counts. -/
def countingDigest (b : Bytes) : ByteArr 32 := leBytes 32 b.length

/-- The destination of both variants. -/
def xlmrPath : String := resolveDestination "/models" "xlmr" "xlmr@v1"

/-- The 8-bit variant is registered, and nothing has been downloaded. -/
def int8Files : ModelFiles := registerEntry "xlmr" "xlmr@v1" int8Entry ⟨fun _ => none, none, none⟩

/-- What the call that is cut leaves. -/
def cutFiles : ModelFiles := (downloadModel countingDigest xlmrPath "xlmr" "xlmr@v1" cutEnv int8Files).2

theorem registerEntry_registry (id ver : String) (entry : DownloadEntry) (files : ModelFiles) :
    (registerEntry id ver entry files).registry (id, ver) = some entry := by
  show Function.update files.registry (id, ver) (some entry) (id, ver) = some entry
  exact Function.update_self _ _ _

theorem int8Files_registry : int8Files.registry ("xlmr", "xlmr@v1") = some int8Entry :=
  registerEntry_registry _ _ _ _

theorem cutFiles_eq : cutFiles = { int8Files with partialFile := some [1, 2] } := by
  unfold cutFiles downloadModel
  rw [int8Files_registry]
  rfl

theorem variantBytes_int8 : variantBytes int8Entry.url = [1, 2, 9] := if_pos rfl

theorem variantBytes_int4 : variantBytes int4Entry.url = [3, 4, 5] := if_neg (by decide)

theorem cutEnv_honest : cutEnv.Honest (variantBytes int8Entry.url) := by
  intro i start
  rw [variantBytes_int8]
  show HonestReply [1, 2, 9] start (if i = 0 then _ else _)
  by_cases h : i = 0
  · rw [if_pos h]
    exact .full rfl ⟨by decide, ⟨[9], rfl⟩, fun h => absurd h (by decide)⟩
  · rw [if_neg h]
    exact .refused rfl

theorem cutStep : DownloadStep countingDigest xlmrPath variantBytes int8Files (.download "xlmr" "xlmr@v1" cutEnv) cutFiles := by
  refine ⟨fun entry h => ?_, rfl⟩
  obtain rfl := Option.some.inj (int8Files_registry.symm.trans h)
  exact cutEnv_honest

/-- **The tail of the 4-bit variant after the head of the 8-bit one**, delivered as `Ok`. -/
theorem downloads_splice : ∃ tr files, Run (DownloadStep countingDigest xlmrPath variantBytes) int8Files tr files ∧
    tr.map Prod.snd = [.download "xlmr" "xlmr@v1" cutEnv, .register "xlmr" "xlmr@v1" int4Entry,
      .download "xlmr" "xlmr@v1" (resumingEnv (variantBytes int4Entry.url))] ∧
    ¬ ∀ p ∈ tr, LawfulCall countingDigest xlmrPath variantBytes p.1 p.2 := by
  have hregistry : (registerEntry "xlmr" "xlmr@v1" int4Entry cutFiles).registry ("xlmr", "xlmr@v1") = some int4Entry :=
    registerEntry_registry _ _ _ _
  have hcall : DownloadStep countingDigest xlmrPath variantBytes (registerEntry "xlmr" "xlmr@v1" int4Entry cutFiles)
      (.download "xlmr" "xlmr@v1" (resumingEnv (variantBytes int4Entry.url)))
      (downloadModel countingDigest xlmrPath "xlmr" "xlmr@v1" (resumingEnv (variantBytes int4Entry.url))
        (registerEntry "xlmr" "xlmr@v1" int4Entry cutFiles)).2 := by
    refine ⟨fun entry h => ?_, rfl⟩
    obtain rfl := Option.some.inj (hregistry.symm.trans h)
    exact resumingEnv_honest _
  have hfirst := Run.single cutStep
  have hsecond : Run (DownloadStep countingDigest xlmrPath variantBytes) cutFiles
      [(cutFiles, .register "xlmr" "xlmr@v1" int4Entry)] (registerEntry "xlmr" "xlmr@v1" int4Entry cutFiles) := Run.single rfl
  refine ⟨_, _, (hfirst.trans hsecond).trans (Run.single hcall), rfl, fun hall => ?_⟩
  -- the last call finds the bytes of the other variant
  have hlast := (hall (registerEntry "xlmr" "xlmr@v1" int4Entry cutFiles, _)
    (List.mem_append_right _ List.mem_cons_self)).1
  refine splices_of_not_resumable hregistry (by rw [variantBytes_int4]; norm_num) ?_ hlast
  rw [variantBytes_int4]
  show ¬ Resumable [3, 4, 5] cutFiles.partialFile
  rw [cutFiles_eq]
  exact fun h => h.elim (by decide) (by decide)

/-- The same variant, taken up again. -/
theorem downloads_deliver_int8 : LawfulDownload countingDigest xlmrPath variantBytes "xlmr" "xlmr@v1" cutEnv int8Files ∧
    LawfulDownload countingDigest xlmrPath variantBytes "xlmr" "xlmr@v1" (resumingEnv (variantBytes int8Entry.url)) cutFiles := by
  have hregistry : cutFiles.registry ("xlmr", "xlmr@v1") = some int8Entry := by
    rw [cutFiles_eq]
    exact int8Files_registry
  have hcall : DownloadStep countingDigest xlmrPath variantBytes cutFiles
      (.download "xlmr" "xlmr@v1" (resumingEnv (variantBytes int8Entry.url)))
      (downloadModel countingDigest xlmrPath "xlmr" "xlmr@v1" (resumingEnv (variantBytes int8Entry.url))
        cutFiles).2 := by
    refine ⟨fun entry h => ?_, rfl⟩
    obtain rfl := Option.some.inj (hregistry.symm.trans h)
    exact resumingEnv_honest _
  have hall := (downloads_deliver countingDigest xlmrPath variantBytes).1 _ _ _
    ((Run.single cutStep).trans (Run.single hcall)) fun p hp => by
      rcases List.mem_cons.mp hp with rfl | hp
      · exact fun entry _ => Or.inl List.nil_prefix
      · obtain rfl := List.mem_singleton.mp hp
        intro entry h
        obtain rfl := Option.some.inj (hregistry.symm.trans h)
        rw [variantBytes_int8, cutFiles_eq]
        exact Or.inl ⟨[9], rfl⟩
  exact ⟨(hall _ List.mem_cons_self).1, (hall _ (List.mem_append_right _ List.mem_cons_self)).1⟩

end KChatCore.Models
