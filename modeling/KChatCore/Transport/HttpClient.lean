import KChatCore.Lib.Hex
import KChatCore.Lib.Retry
import KChatCore.Lib.Urls
import KChatCore.Media.Chunker
import KChatCore.Message.RemoteIngest
import KChatCore.Models.HttpDownloader
import KChatCore.Transport.HttpEncoding

/-!
# `Transport.HttpClient` — a call of the transport, as HTTP requests

`HttpTransportClient` writes a call into the URL, the headers and the body of one request, sends it up to three times, and
reads the answer's status and body. A `Network` is what sending does to the world; reqwest and `serde_json` are behind
`Json` and the errors.

`readRequest` is what the documented endpoints make of a request: a URL standard reader, a route, and the headers the
client sets.

* `request_reads_back` — what a service makes of the request of a call, for any text in the call.
-/

namespace KChatCore.Transport

open Lib Media Message Models
open Lib.Urls (BaseUrl Url readUrl percentEncode)

/-! ## What goes over the wire -/

/-- `InitBlobBody`. -/
structure InitBlobBody where
  size : UInt64
  blobClass : BlobClass
  expectedMerkleRoot : String
  deriving DecidableEq, Repr

/-- `ChunkReceiptWire`. -/
structure ChunkReceiptWire where
  blobId : String
  chunkIdx : UInt32
  sha256Hex : String
  deriving DecidableEq, Repr

/-- `CommitBlobWire`. -/
structure CommitBlobWire where
  blobId : String
  chunkCount : UInt32
  merkleRootHex : String
  deriving DecidableEq, Repr

/-- `EncryptedManifestWire`. -/
structure EncryptedManifestWire where
  generation : UInt64
  previousManifestHashHex : String
  payloadB64 : String
  deriving DecidableEq, Repr

/-- `FetchMessagesResponse`. -/
structure FetchMessagesResponse where
  messages : List RawDeliveryMessage
  nextCursor : Option String
  deriving DecidableEq

/-- `BlobUploadHandle`. -/
structure BlobUploadHandle where
  blobId : String
  blobClass : BlobClass
  expiresAtMs : ℤ
  deriving DecidableEq, Repr

/-- `ChunkReceipt`, with the id the server echoes. -/
structure BlobChunkReceipt where
  blobId : String
  chunkIdx : UInt32
  sha256 : ByteArr 32
  deriving DecidableEq

/-- `CommitBlobResponse`. -/
structure CommitBlobResponse where
  blobId : String
  chunkCount : UInt32
  merkleRoot : ByteArr 32
  deriving DecidableEq

/-- `EncryptedManifest`. -/
structure EncryptedManifest where
  generation : UInt64
  previousManifestHash : ByteArr 32
  payload : Bytes
  deriving DecidableEq

/-- The methods the client uses. -/
inductive Method
  | get
  | post
  | put
  deriving DecidableEq, Repr

/-- What a request carries. -/
inductive RequestBody
  | empty
  | json (body : InitBlobBody)
  | octets (bytes : Bytes)
  deriving DecidableEq, Repr

/-- A request, as it is built. -/
structure HttpRequest where
  method : Method
  url : String
  headers : List (String × String)
  body : RequestBody
  deriving DecidableEq, Repr

/-- `reqwest::Error`: what its predicates answer, and its `Display` form. -/
structure ReqwestError where
  isTimeout : Bool
  isConnect : Bool
  isRequest : Bool
  isBody : Bool
  display : String
  deriving DecidableEq, Repr

/-- `reqwest::blocking::Response`: the status, and what reading the body brings. -/
structure Response where
  status : StatusCode
  body : Except ReqwestError Bytes

/-- `TransportError`, as this client builds it. -/
inductive ClientError
  | network (message : String)
  | auth (message : String)
  | server (message : String)
  deriving DecidableEq, Repr

/-- `serde_json`, and what reqwest makes of a body as text. -/
structure Json where
  text : Bytes → String
  decodeError : Bytes → String
  fetchMessages : Codec FetchMessagesResponse
  blobUploadHandle : Codec BlobUploadHandle
  chunkReceipt : Codec ChunkReceiptWire
  commitBlob : Codec CommitBlobWire
  encryptedManifests : Codec (List EncryptedManifestWire)

/-- What sending a request, and sleeping, do to the world. -/
structure Network (σ : Type) where
  send : HttpRequest → σ → Except ReqwestError Response × σ
  sleep : ℕ → σ → σ

/-! ## Hex and URL helpers -/

/-- `hex_encode`. -/
def hexEncode (bytes : Bytes) : String := String.ofList (bytes.flatMap Uuid.hexByte)

/-- `decode_nibble`. -/
def decodeNibble (b : UInt8) : Except String UInt8 :=
  if 0x30 ≤ b ∧ b ≤ 0x39 then .ok (b - 0x30)
  else if 0x61 ≤ b ∧ b ≤ 0x66 then .ok (b - 0x61 + 10)
  else if 0x41 ≤ b ∧ b ≤ 0x46 then .ok (b - 0x41 + 10)
  else .error ("invalid hex byte: 0x" ++ String.ofList (Nat.toDigits 16 b.toNat))

/-- `hex_decode_into`, into a buffer of `n` bytes; `readPairs` is its loop. -/
def hexDecodeInto (n : ℕ) (input : String) : Except String (ByteArr n) :=
  if (utf8 input).length ≠ n * 2 then
    .error ("hex length mismatch: expected " ++ toString (n * 2) ++ ", got " ++ toString (utf8 input).length)
  else (readPairs decodeNibble (utf8 input)).map fun bytes => if h : bytes.length = n then ⟨bytes, h⟩ else ByteArr.zeros n

/-- What `urlencoding_encode` pushes for a byte. -/
def urlencodedByte (b : UInt8) : List Char :=
  if (0x41 ≤ b ∧ b ≤ 0x5a) ∨ (0x61 ≤ b ∧ b ≤ 0x7a) ∨ (0x30 ≤ b ∧ b ≤ 0x39) ∨ b = 0x2d ∨ b = 0x5f ∨ b = 0x2e ∨ b = 0x7e then
    [Char.ofNat b.toNat]
  else '%' :: (Uuid.hexByte b).map Char.toUpper

/-- `urlencoding_encode`. -/
def urlencodingEncode (s : String) : String := String.ofList ((utf8 s).flatMap urlencodedByte)

/-! ## Calls -/

/-- A call of the `TransportClient` interface. -/
inductive Call
  | fetchMessages (conversationId : String) (afterCursor : Option String)
  | initBlobUpload (size : UInt64) (blobClass : BlobClass) (expectedMerkleRoot : ByteArr 32)
  | uploadChunk (blobId : String) (chunkIdx : UInt32) (ciphertext : Bytes) (sha256 : ByteArr 32)
  | commitBlob (blobId : String)
  | fetchBlobRange (blobId : String) (start stop : UInt64)
  | fetchArchiveManifests (afterGeneration : Option UInt64)
  | fetchArchiveSegment (segmentId : String)
  | fetchIndexShards (conversationHash bucket shardType : String)
  deriving DecidableEq

namespace Call

/-- What the call returns. -/
abbrev Answer : Call → Type
  | fetchMessages .. => FetchMessagesResponse
  | initBlobUpload .. => BlobUploadHandle
  | uploadChunk .. => BlobChunkReceipt
  | commitBlob .. => CommitBlobResponse
  | fetchBlobRange .. => Bytes
  | fetchArchiveManifests .. => List EncryptedManifest
  | fetchArchiveSegment .. => Bytes
  | fetchIndexShards .. => Bytes

/-- The call's name in the texts of its errors. -/
def label : Call → String
  | fetchMessages .. => "fetch_messages"
  | initBlobUpload .. => "init_blob_upload"
  | uploadChunk .. => "upload_chunk"
  | commitBlob .. => "commit_blob"
  | fetchBlobRange .. => "fetch_blob_range"
  | fetchArchiveManifests .. => "fetch_archive_manifests"
  | fetchArchiveSegment .. => "fetch_archive_segment"
  | fetchIndexShards .. => "fetch_index_shards"

end Call

/-- `HTTP_TRANSPORT_RETRY_ATTEMPTS`. -/
def httpTransportRetryAttempts : ℕ := 3

/-- `HttpTransportClient`. Its two `reqwest` clients differ in their timeouts only. -/
structure HttpTransportClient where
  baseUrl : String
  authToken : String
  deriving DecidableEq, Repr

namespace HttpTransportClient

/-- `HttpTransportClient::new`: the trailing slashes of the base go. -/
def new (baseUrl authToken : String) : HttpTransportClient :=
  ⟨String.ofList (baseUrl.toList.rdropWhile (· == '/')), authToken⟩

/-- `url`. -/
def url (c : HttpTransportClient) (path : String) : String := c.baseUrl ++ path

/-- `auth_header`. -/
def authHeader (c : HttpTransportClient) : String := "Bearer " ++ c.authToken

/-- The request each method builds. -/
def request (c : HttpTransportClient) : Call → HttpRequest
  | .fetchMessages conversationId afterCursor =>
      ⟨.get, c.url "/v1/messages" ++ ("?conversation_id=" ++ urlencodingEncode conversationId) ++
        (match afterCursor with
          | some cursor => "&cursor=" ++ urlencodingEncode cursor
          | none => ""), [("Authorization", c.authHeader)], .empty⟩
  | .initBlobUpload size blobClass expectedMerkleRoot =>
      ⟨.post, c.url "/v1/blobs/init", [("Authorization", c.authHeader)],
        .json ⟨size, blobClass, hexEncode expectedMerkleRoot.toList⟩⟩
  | .uploadChunk blobId chunkIdx ciphertext sha256 =>
      ⟨.put, c.url ("/v1/blobs/" ++ urlencodingEncode blobId ++ "/chunks/" ++ toString chunkIdx.toNat),
        [("Authorization", c.authHeader), ("Content-Type", "application/octet-stream"),
          ("X-Sha256", hexEncode sha256.toList)], .octets ciphertext⟩
  | .commitBlob blobId =>
      ⟨.post, c.url ("/v1/blobs/" ++ urlencodingEncode blobId ++ "/commit"), [("Authorization", c.authHeader)], .empty⟩
  | .fetchBlobRange blobId start stop =>
      -- `range.end.saturating_sub(1)`: the header names the last byte
      ⟨.get, c.url ("/v1/blobs/" ++ urlencodingEncode blobId),
        [("Authorization", c.authHeader), ("Range", "bytes=" ++ toString start.toNat ++ "-" ++ toString (stop.toNat - 1))],
        .empty⟩
  | .fetchArchiveManifests afterGeneration =>
      ⟨.get, c.url "/v1/archive/manifests" ++
        (match afterGeneration with
          | some after => "?after=" ++ toString after.toNat
          | none => ""), [("Authorization", c.authHeader)], .empty⟩
  | .fetchArchiveSegment segmentId =>
      ⟨.get, c.url ("/v1/archive/segments/" ++ urlencodingEncode segmentId), [("Authorization", c.authHeader)], .empty⟩
  | .fetchIndexShards conversationHash bucket shardType =>
      ⟨.get, c.url ("/v1/archive/index-shards?conversation_hash=" ++ urlencodingEncode conversationHash ++ "&bucket=" ++
        urlencodingEncode bucket ++ "&type=" ++ urlencodingEncode shardType), [("Authorization", c.authHeader)], .empty⟩

end HttpTransportClient

/-! ## Errors and retries -/

/-- `err_is_retryable`. -/
def errIsRetryable (e : ReqwestError) : Bool := e.isTimeout || e.isConnect || e.isRequest || e.isBody

/-- `response_status_is_retryable`. -/
def responseStatusIsRetryable (status : StatusCode) : Bool := status.code == 429 || status.isServerError

/-- `map_err`. -/
def mapErr (label : String) (err : ReqwestError) : ClientError :=
  let msg := label ++ ": " ++ err.display
  if err.isTimeout || err.isConnect || err.isRequest || err.isBody then .network msg else .server msg

/-- `map_status`. -/
def mapStatus (label : String) (status : StatusCode) (body : String) : ClientError :=
  let msg := label ++ ": HTTP " ++ toString status.code ++ " — " ++ String.ofList (body.toList.take 256)
  if status.code = 401 ∨ status.code = 403 then .auth msg
  else if status.code ≥ 500 ∨ status.code = 429 then .network msg
  else .server msg

/-- What `with_retry` asks of a result. -/
def isRetryable : Except ReqwestError Response → Bool
  | .ok response => responseStatusIsRetryable response.status
  | .error e => errIsRetryable e

section Perform

variable {σ : Type} (net : Network σ)

/-- `with_retry`, for at least one attempt. -/
def withRetry (attempts : ℕ) (request : HttpRequest) (s : σ) : Except ReqwestError Response × σ :=
  retry (net.send request) isRetryable (fun attempt => net.sleep (1000 <<< attempt)) 0 (attempts - 1) s

variable (J : Json)

/-- `response.text()`. -/
def Response.text (response : Response) : String :=
  match response.body with
  | .ok bytes => J.text bytes
  | .error _ => "<no body>"

/-- `response.bytes()`. -/
def Response.bytes (label : String) (response : Response) : Except ClientError Bytes :=
  match response.body with
  | .ok bytes => .ok bytes
  | .error e => .error (mapErr (label ++ " bytes") e)

/-- `response.json()`: a body that does not decode is an error none of the predicates knows. -/
def Response.json {α : Type} (codec : Codec α) (label : String) (response : Response) : Except ClientError α :=
  match response.body with
  | .error e => .error (mapErr (label ++ " decode") e)
  | .ok bytes =>
      match codec.decode bytes with
      | some a => .ok a
      | none => .error (mapErr (label ++ " decode") ⟨false, false, false, false, J.decodeError bytes⟩)

/-- A value in the body that does not decode: the answer would not be another one. -/
def payloadDecoded {α : Type} (label : String) (r : Except String α) : Except ClientError α :=
  r.mapError fun e => .server (label ++ ": " ++ e)

/-- One manifest of `fetch_archive_manifests`. -/
def EncryptedManifestWire.decode (debugChar : Char → String) (w : EncryptedManifestWire) :
    Except ClientError EncryptedManifest := do
  let hash ← payloadDecoded "fetch_archive_manifests" (hexDecodeInto 32 w.previousManifestHashHex)
  let payload ← payloadDecoded "fetch_archive_manifests" (base64Decode debugChar w.payloadB64)
  return ⟨w.generation, hash, payload⟩

variable (debugChar : Char → String)

/-- What each method makes of a successful response. -/
def Call.read : (call : Call) → Response → Except ClientError call.Answer
  | .fetchMessages .., response => response.json J J.fetchMessages "fetch_messages"
  | .initBlobUpload .., response => response.json J J.blobUploadHandle "init_blob_upload"
  | .uploadChunk .., response => do
      let wire ← response.json J J.chunkReceipt "upload_chunk"
      let sha256 ← payloadDecoded "upload_chunk" (hexDecodeInto 32 wire.sha256Hex)
      return (⟨wire.blobId, wire.chunkIdx, sha256⟩ : BlobChunkReceipt)
  | .commitBlob .., response => do
      let wire ← response.json J J.commitBlob "commit_blob"
      let root ← payloadDecoded "commit_blob" (hexDecodeInto 32 wire.merkleRootHex)
      return (⟨wire.blobId, wire.chunkCount, root⟩ : CommitBlobResponse)
  | .fetchBlobRange .., response => response.bytes "fetch_blob_range"
  | .fetchArchiveManifests .., response => do
      let wires ← response.json J J.encryptedManifests "fetch_archive_manifests"
      wires.mapM (EncryptedManifestWire.decode debugChar)
  | .fetchArchiveSegment .., response => response.bytes "fetch_archive_segment"
  | .fetchIndexShards .., response => response.bytes "fetch_index_shards"

/-- What each method returns. -/
def Call.conclude (call : Call) : Except ReqwestError Response → Except ClientError call.Answer
  | .error e => .error (mapErr call.label e)
  | .ok response =>
      if !response.status.isSuccess then .error (mapStatus call.label response.status (response.text J))
      else call.read J debugChar response

/-- The shape of every method: the request, retried, and what comes of it. -/
def HttpTransportClient.perform (c : HttpTransportClient) (call : Call) (s : σ) : Except ClientError call.Answer × σ :=
  match withRetry net httpTransportRetryAttempts (c.request call) s with
  | (result, s) => (call.conclude J debugChar result, s)

end Perform

/-! ## The other side of the wire -/

/-- A decimal of 64 bits. -/
def readU64 (s : String) : Option UInt64 := (parseU64 s.toList).map UInt64.ofNat

/-- A decimal of 32 bits. -/
def readU32 (s : String) : Option UInt32 :=
  (parseU64 s.toList).bind fun n => if n < 2 ^ 32 then some (UInt32.ofNat n) else none

/-- A digest in hex. -/
def readDigest (s : String) : Option (ByteArr 32) := (hexDecodeInto 32 s).toOption

/-- `bytes=first-last`, as a half-open range. A range whose last byte stands before its first is none. -/
def readRange (value : String) : Option (UInt64 × UInt64) :=
  if value.toList.take 6 = "bytes=".toList then
    let range := value.toList.drop 6
    match parseU64 (range.takeWhile (· ≠ '-')), parseU64 ((range.dropWhile (· ≠ '-')).drop 1) with
    | some first, some last => if first ≤ last then some (UInt64.ofNat first, UInt64.ofNat (last + 1)) else none
    | _, _ => none
  else none

/-- **The documented endpoints**, behind the segments of the base. -/
def readCall (headers : List (String × String)) (body : RequestBody) (query : List (String × String)) :
    Method → List String → Option Call
  | .get, ["v1", "messages"] =>
      match query with
      | [("conversation_id", conversationId)] => some (.fetchMessages conversationId none)
      | [("conversation_id", conversationId), ("cursor", cursor)] => some (.fetchMessages conversationId (some cursor))
      | _ => none
  | .post, ["v1", "blobs", "init"] =>
      match body with
      | .json b => (readDigest b.expectedMerkleRoot).map (.initBlobUpload b.size b.blobClass)
      | _ => none
  | .put, ["v1", "blobs", blobId, "chunks", idx] =>
      match body, readU32 idx, (headers.lookup "X-Sha256").bind readDigest with
      | .octets ciphertext, some chunkIdx, some sha256 => some (.uploadChunk blobId chunkIdx ciphertext sha256)
      | _, _, _ => none
  | .post, ["v1", "blobs", blobId, "commit"] => some (.commitBlob blobId)
  | .get, ["v1", "blobs", blobId] =>
      -- without a range it is the whole blob that is asked for, which no call of the interface does
      ((headers.lookup "Range").bind readRange).map fun range => .fetchBlobRange blobId range.1 range.2
  | .get, ["v1", "archive", "manifests"] =>
      match query with
      | [] => some (.fetchArchiveManifests none)
      | [("after", after)] => (readU64 after).map fun generation => .fetchArchiveManifests (some generation)
      | _ => none
  | .get, ["v1", "archive", "segments", segmentId] => some (.fetchArchiveSegment segmentId)
  | .get, ["v1", "archive", "index-shards"] =>
      match query with
      | [("conversation_hash", conversationHash), ("bucket", bucket), ("type", shardType)] =>
          some (.fetchIndexShards conversationHash bucket shardType)
      | _ => none
  | _, _ => none

/-- What a service under `base` makes of a request. -/
def readRequest (base : BaseUrl) (request : HttpRequest) : Option Call :=
  match readUrl request.url.toList with
  | none => none
  | some url =>
      if url.scheme = base.scheme ∧ url.authority = base.authority ∧ base.mount <+: url.path then
        readCall request.headers request.body url.query request.method (url.path.drop base.mount.length)
      else none

/-- **What is to be seen of a call.** An id that stands alone in a segment is lost if it is a dot, which a reader resolves,
and an empty range is written as one of a byte or as none. -/
def Call.seen : Call → Option Call
  | .uploadChunk blobId chunkIdx ciphertext sha256 =>
      if blobId = ".." ∨ blobId = "." then none else some (.uploadChunk blobId chunkIdx ciphertext sha256)
  | .commitBlob blobId => if blobId = ".." ∨ blobId = "." then none else some (.commitBlob blobId)
  | .fetchBlobRange blobId start stop =>
      if blobId = ".." ∨ stop.toNat - 1 < start.toNat then none
      else some (.fetchBlobRange (if blobId = "." then "" else blobId) start (UInt64.ofNat (stop.toNat - 1 + 1)))
  | .fetchArchiveSegment segmentId =>
      if segmentId = ".." then none else some (.fetchArchiveSegment (if segmentId = "." then "" else segmentId))
  | call => some call

/-- A call whose request says what it means. -/
def Call.Plain : Call → Prop
  | .uploadChunk blobId .. | .commitBlob blobId | .fetchArchiveSegment blobId => blobId ≠ ".." ∧ blobId ≠ "."
  | .fetchBlobRange blobId start stop => (blobId ≠ ".." ∧ blobId ≠ ".") ∧ start < stop
  | _ => True

theorem Call.seen_eq_some_iff (call : Call) : call.seen = some call ↔ call.Plain := by
  cases call with
  | fetchBlobRange blobId start stop =>
      simp only [seen, Plain]
      constructor
      · intro h
        split at h
        · exact absurd h (by simp)
        · rename_i hpos
          push Not at hpos
          obtain ⟨hid, -, hstop⟩ := Call.fetchBlobRange.inj (Option.some.inj h)
          have hne : blobId ≠ "." := by
            rintro rfl
            exact absurd hid (by decide)
          have hlast : stop.toNat = (stop.toNat - 1 + 1) % 2 ^ 64 := by
            conv_lhs => rw [← hstop]
            rfl
          have := stop.toNat_lt
          refine ⟨⟨hpos.1, hne⟩, UInt64.lt_iff_toNat_lt.mpr ?_⟩
          omega
      · rintro ⟨⟨hdots, hdot⟩, hlt⟩
        have hlt' := UInt64.lt_iff_toNat_lt.mp hlt
        have hstop : stop.toNat - 1 + 1 = stop.toNat := by omega
        rw [if_neg (by simp only [hdots, false_or]; omega), if_neg hdot, hstop, UInt64.ofNat_toNat]
  | fetchArchiveSegment segmentId =>
      simp only [seen, Plain]
      by_cases hdots : segmentId = ".."
      · simp [hdots]
      · by_cases hdot : segmentId = "."
        · simp [hdot]
        · simp [hdots, hdot]
  | _ => simp [seen, Plain]

/-! ## A request is read back -/

theorem toList_urlencodingEncode (s : String) : (urlencodingEncode s).toList = percentEncode s := by
  have hbyte : ∀ n : Fin 256, urlencodedByte (UInt8.ofNat n.val) = Urls.encodeByte (UInt8.ofNat n.val) := by decide +kernel
  have hall : ∀ b, urlencodedByte b = Urls.encodeByte b := by
    intro b
    have h := hbyte ⟨b.toNat, b.toNat_lt⟩
    rwa [UInt8.ofNat_toNat] at h
  rw [urlencodingEncode, String.toList_ofList, percentEncode, funext hall]
  rfl

theorem utf8_hexEncode (bytes : Bytes) : utf8 (hexEncode bytes) = hexBytes bytes := toUTF8_hexText bytes

theorem readsDigits_decodeNibble : ReadsDigits decodeNibble := by
  intro b v
  unfold decodeNibble nibbleOfDigit
  split_ifs <;> simp

/-- A digest is read back. -/
theorem hexDecodeInto_hexEncode {n : ℕ} (d : ByteArr n) : hexDecodeInto n (hexEncode d.toList) = .ok d := by
  obtain ⟨hlength, hread⟩ := readPairs_hexBytes readsDigits_decodeNibble d.toList
  rw [hexDecodeInto, utf8_hexEncode, if_neg (by simp [hlength]), hread]
  exact congrArg Except.ok (dif_pos d.toList_length)

@[simp] theorem readDigest_hexEncode (d : ByteArr 32) : readDigest (hexEncode d.toList) = some d := by
  rw [readDigest, hexDecodeInto_hexEncode]
  rfl

/-! ### Decimals -/

theorem toList_toString (n : ℕ) : (toString n).toList = Nat.toDigits 10 n := by
  rw [Nat.toString_eq_ofList_toDigits, String.toList_ofList]

theorem percentEncode_repr (n : ℕ) : percentEncode n.repr = Nat.toDigits 10 n := by
  rw [Urls.percentEncode_eq_self, Nat.toList_repr]
  intro c hc
  rw [Nat.toList_repr] at hc
  have hdigit := Nat.isDigit_of_mem_toDigits (by omega) (by omega) hc
  simp [Urls.isUnreserved, Char.isAlphanum, hdigit]

@[simp] theorem readU64_toString (n : UInt64) : readU64 (toString n.toNat) = some n := by
  rw [readU64, toList_toString, parseU64_toDigits n.toNat_lt, Option.map_some, UInt64.ofNat_toNat]

@[simp] theorem readU32_toString (n : UInt32) : readU32 (toString n.toNat) = some n := by
  have hn := n.toNat_lt
  rw [readU32, toList_toString, parseU64_toDigits (by omega), Option.bind_some, if_pos hn, UInt32.ofNat_toNat]

/-- The header of a range is read back, unless its last byte stands before its first. -/
theorem readRange_text (start last : ℕ) (hstart : start < 2 ^ 64) (hlast : last < 2 ^ 64) :
    readRange ("bytes=" ++ toString start ++ "-" ++ toString last) =
      if start ≤ last then some (UInt64.ofNat start, UInt64.ofNat (last + 1)) else none := by
  have htext : ("bytes=" ++ toString start ++ "-" ++ toString last).toList =
      "bytes=".toList ++ (Nat.toDigits 10 start ++ '-' :: Nat.toDigits 10 last) := by
    simp only [String.toList_append, toList_toString, List.append_assoc]
    rfl
  obtain ⟨htake, hdrop⟩ := Urls.takeWhile_dropWhile_of_free (p := fun c => decide (c ≠ '-')) (a := Nat.toDigits 10 start)
    (b := '-' :: Nat.toDigits 10 last) (fun c hc => by simpa using ne_of_mem_toDigits hc (by decide)) (by simp)
  have hsix : "bytes=".toList.length = 6 := by decide
  rw [readRange, htext, List.take_left' hsix, if_pos rfl]
  simp only [List.drop_left' hsix, htake, hdrop, List.drop_one, List.tail_cons, parseU64_toDigits hstart, parseU64_toDigits hlast]

/-! ### The URL of a call -/

/-- The segments and the pairs of a call's URL. -/
def Call.target : Call → List String × List (String × String)
  | .fetchMessages conversationId afterCursor =>
      (["v1", "messages"], ("conversation_id", conversationId) :: (afterCursor.map fun cursor => ("cursor", cursor)).toList)
  | .initBlobUpload .. => (["v1", "blobs", "init"], [])
  | .uploadChunk blobId chunkIdx .. => (["v1", "blobs", blobId, "chunks", toString chunkIdx.toNat], [])
  | .commitBlob blobId => (["v1", "blobs", blobId, "commit"], [])
  | .fetchBlobRange blobId .. => (["v1", "blobs", blobId], [])
  | .fetchArchiveManifests afterGeneration =>
      (["v1", "archive", "manifests"], (afterGeneration.map fun after => ("after", toString after.toNat)).toList)
  | .fetchArchiveSegment segmentId => (["v1", "archive", "segments", segmentId], [])
  | .fetchIndexShards conversationHash bucket shardType =>
      (["v1", "archive", "index-shards"],
        [("conversation_hash", conversationHash), ("bucket", bucket), ("type", shardType)])

/-- The client's literals are their own encodings. -/
theorem percentEncode_literal {s : String} (h : s.toList.all Urls.isUnreserved = true) : percentEncode s = s.toList :=
  Urls.percentEncode_eq_self (List.all_eq_true.mp h)

theorem toList_url_request (c : HttpTransportClient) (call : Call) : (c.request call).url.toList =
    c.baseUrl.toList ++ (Urls.pathText call.target.1 ++ Urls.queryText call.target.2) := by
  have hv1 := percentEncode_literal (s := "v1") (by decide)
  have hblobs := percentEncode_literal (s := "blobs") (by decide)
  have harchive := percentEncode_literal (s := "archive") (by decide)
  cases call with
  | fetchMessages conversationId afterCursor =>
      have hmessages := percentEncode_literal (s := "messages") (by decide)
      have hid := percentEncode_literal (s := "conversation_id") (by decide)
      have hcursor := percentEncode_literal (s := "cursor") (by decide)
      cases afterCursor <;>
        simp [HttpTransportClient.request, HttpTransportClient.url, Call.target, Urls.pathText, Urls.queryText,
          Urls.pairText, toList_urlencodingEncode, hv1, hmessages, hid, hcursor]
  | initBlobUpload size blobClass expectedMerkleRoot =>
      have hinit := percentEncode_literal (s := "init") (by decide)
      simp [HttpTransportClient.request, HttpTransportClient.url, Call.target, Urls.pathText, Urls.queryText, hv1, hblobs,
        hinit]
  | uploadChunk blobId chunkIdx ciphertext sha256 =>
      have hchunks := percentEncode_literal (s := "chunks") (by decide)
      simp [HttpTransportClient.request, HttpTransportClient.url, Call.target, Urls.pathText, Urls.queryText,
        toList_urlencodingEncode, hv1, hblobs, hchunks, percentEncode_repr]
  | commitBlob blobId =>
      have hcommit := percentEncode_literal (s := "commit") (by decide)
      simp [HttpTransportClient.request, HttpTransportClient.url, Call.target, Urls.pathText, Urls.queryText,
        toList_urlencodingEncode, hv1, hblobs, hcommit]
  | fetchBlobRange blobId start stop =>
      simp [HttpTransportClient.request, HttpTransportClient.url, Call.target, Urls.pathText, Urls.queryText,
        toList_urlencodingEncode, hv1, hblobs]
  | fetchArchiveManifests afterGeneration =>
      have hmanifests := percentEncode_literal (s := "manifests") (by decide)
      have hafter := percentEncode_literal (s := "after") (by decide)
      cases afterGeneration <;>
        simp [HttpTransportClient.request, HttpTransportClient.url, Call.target, Urls.pathText, Urls.queryText,
          Urls.pairText, hv1, harchive, hmanifests, hafter, percentEncode_repr]
  | fetchArchiveSegment segmentId =>
      have hsegments := percentEncode_literal (s := "segments") (by decide)
      simp [HttpTransportClient.request, HttpTransportClient.url, Call.target, Urls.pathText, Urls.queryText,
        toList_urlencodingEncode, hv1, harchive, hsegments]
  | fetchIndexShards conversationHash bucket shardType =>
      have hshards := percentEncode_literal (s := "index-shards") (by decide)
      have hhash := percentEncode_literal (s := "conversation_hash") (by decide)
      have hbucket := percentEncode_literal (s := "bucket") (by decide)
      have htype := percentEncode_literal (s := "type") (by decide)
      simp [HttpTransportClient.request, HttpTransportClient.url, Call.target, Urls.pathText, Urls.queryText,
        Urls.pairText, toList_urlencodingEncode, hv1, harchive, hshards, hhash, hbucket, htype]

/-- The client of a base, however many slashes end its text. -/
def clientOf (base : BaseUrl) (slashes : ℕ) (token : String) : HttpTransportClient :=
  HttpTransportClient.new (String.ofList (base.text ++ List.replicate slashes '/')) token

theorem toList_baseUrl_clientOf (base : BaseUrl) (slashes : ℕ) (token : String) :
    (clientOf base slashes token).baseUrl.toList = base.text := by
  simp only [clientOf, HttpTransportClient.new, String.toList_ofList]
  induction slashes with
  | zero =>
      rw [List.replicate_zero, List.append_nil, List.rdropWhile_eq_self_iff]
      intro hne hlast
      exact base.getLast?_text _ (List.getLast_mem_getLast? hne) (beq_iff_eq.mp hlast)
  | succ slashes ih => rw [List.replicate_succ', ← List.append_assoc, List.rdropWhile_concat_pos _ _ _ (by rfl), ih]

/-- A number is no dot. -/
theorem repr_ne_dots (n : ℕ) : n.repr ≠ "." ∧ n.repr ≠ ".." := by
  have hdot : '.' ∉ n.repr.toList := by
    rw [Nat.toList_repr]
    exact fun hmem => ne_of_mem_toDigits hmem (by decide) rfl
  constructor <;> intro h <;> exact hdot (by simp [h])

/-- The path of a call, as it is read behind the segments of the base, names what is to be seen of the call. -/
theorem readCall_target (mount : List String) (call : Call) :
    ∃ path, Urls.resolveDots mount call.target.1 = mount ++ path ∧ ∀ c : HttpTransportClient,
      readCall (c.request call).headers (c.request call).body call.target.2 (c.request call).method path = call.seen := by
  cases call with
  | fetchMessages conversationId afterCursor =>
      refine ⟨["v1", "messages"], by simp [Call.target, Urls.resolveDots], fun c => ?_⟩
      cases afterCursor <;> rfl
  | initBlobUpload size blobClass expectedMerkleRoot =>
      refine ⟨["v1", "blobs", "init"], by simp [Call.target, Urls.resolveDots], fun c => ?_⟩
      simp [HttpTransportClient.request, readCall, Call.seen]
  | uploadChunk blobId chunkIdx ciphertext sha256 =>
      obtain ⟨hone, htwo⟩ := repr_ne_dots chunkIdx.toNat
      by_cases hdots : blobId = ".."
      · refine ⟨["v1", "chunks", chunkIdx.toNat.repr], ?_, fun c => ?_⟩
        · simp [Call.target, Urls.resolveDots, hdots, hone, htwo]
        · simp [HttpTransportClient.request, readCall, Call.seen, hdots]
      · by_cases hdot : blobId = "."
        · refine ⟨["v1", "blobs", "chunks", chunkIdx.toNat.repr], ?_, fun c => ?_⟩
          · simp [Call.target, Urls.resolveDots, hdot, hone, htwo]
          · simp [HttpTransportClient.request, readCall, Call.seen, hdot]
        · refine ⟨["v1", "blobs", blobId, "chunks", chunkIdx.toNat.repr], ?_, fun c => ?_⟩
          · simp [Call.target, Urls.resolveDots, hdots, hdot, hone, htwo]
          · have hidx := readU32_toString chunkIdx
            rw [Nat.toString_eq_repr] at hidx
            simp [HttpTransportClient.request, readCall, Call.seen, hdots, hdot, hidx, List.lookup]
  | commitBlob blobId =>
      by_cases hdots : blobId = ".."
      · refine ⟨["v1", "commit"], ?_, fun c => ?_⟩
        · simp [Call.target, Urls.resolveDots, hdots]
        · simp [HttpTransportClient.request, readCall, Call.seen, hdots]
      · by_cases hdot : blobId = "."
        · refine ⟨["v1", "blobs", "commit"], ?_, fun c => ?_⟩
          · simp [Call.target, Urls.resolveDots, hdot]
          · simp [HttpTransportClient.request, readCall, Call.seen, hdot]
        · refine ⟨["v1", "blobs", blobId, "commit"], ?_, fun c => ?_⟩
          · simp [Call.target, Urls.resolveDots, hdots, hdot]
          · simp [HttpTransportClient.request, readCall, Call.seen, hdots, hdot]
  | fetchBlobRange blobId start stop =>
      have hstop := stop.toNat_lt
      have hrange := readRange_text start.toNat (stop.toNat - 1) start.toNat_lt (by omega)
      by_cases hdots : blobId = ".."
      · refine ⟨["v1", ""], ?_, fun c => ?_⟩
        · simp [Call.target, Urls.resolveDots, hdots]
        · simp [HttpTransportClient.request, readCall, Call.seen, hdots]
      · refine ⟨["v1", "blobs", if blobId = "." then "" else blobId], ?_, fun c => ?_⟩
        · by_cases hdot : blobId = "."
          · simp [Call.target, Urls.resolveDots, hdot]
          · simp [Call.target, Urls.resolveDots, hdots, hdot]
        · have hheader : (c.request (.fetchBlobRange blobId start stop)).headers.lookup "Range" =
              some ("bytes=" ++ toString start.toNat ++ "-" ++ toString (stop.toNat - 1)) := rfl
          show ((List.lookup "Range" _).bind readRange).map _ = _
          rw [hheader, Option.bind_some, hrange]
          by_cases hlast : start.toNat ≤ stop.toNat - 1
          · rw [if_pos hlast]
            simp [Call.seen, hdots, not_lt.mpr hlast]
          · rw [if_neg hlast]
            simp [Call.seen, not_le.mp hlast]
  | fetchArchiveManifests afterGeneration =>
      refine ⟨["v1", "archive", "manifests"], by simp [Call.target, Urls.resolveDots], fun c => ?_⟩
      cases afterGeneration with
      | none => rfl
      | some after =>
          have hafter := readU64_toString after
          rw [Nat.toString_eq_repr] at hafter
          simp [HttpTransportClient.request, readCall, Call.seen, Call.target, hafter]
  | fetchArchiveSegment segmentId =>
      by_cases hdots : segmentId = ".."
      · refine ⟨["v1", "archive", ""], ?_, fun c => ?_⟩
        · simp [Call.target, Urls.resolveDots, hdots]
        · simp [HttpTransportClient.request, readCall, Call.seen, hdots]
      · refine ⟨["v1", "archive", "segments", if segmentId = "." then "" else segmentId], ?_, fun c => ?_⟩
        · by_cases hdot : segmentId = "."
          · simp [Call.target, Urls.resolveDots, hdot]
          · simp [Call.target, Urls.resolveDots, hdots, hdot]
        · simp [HttpTransportClient.request, readCall, Call.seen, hdots]
  | fetchIndexShards conversationHash bucket shardType =>
      exact ⟨["v1", "archive", "index-shards"], by simp [Call.target, Urls.resolveDots], fun c => rfl⟩

/-- The request of a call, as it is read. -/
theorem readRequest_request (base : BaseUrl) (slashes : ℕ) (token : String) (call : Call) :
    readRequest base ((clientOf base slashes token).request call) = call.seen := by
  obtain ⟨path, hpath, hcall⟩ := readCall_target base.mount call
  have hne : call.target.1 ≠ [] := by cases call <;> simp [Call.target]
  have hurl := Urls.readUrl_text base hne call.target.2
  rw [← toList_baseUrl_clientOf base slashes token, ← toList_url_request] at hurl
  simp only [readRequest, hurl, hpath, List.prefix_append, and_self, if_true, List.drop_left, hcall]

end KChatCore.Transport
