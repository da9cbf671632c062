import KChatCore.Primitives

/-!
# `Message.Payload` — the payloads a message writes into the journals

The backup journal gets a few hand-rolled CBOR items naming the message; no text is among them. The archive journal
gets the text, in the body-bearing envelope that hydration looks for.
-/

namespace KChatCore.Message

/-- `to_be_bytes`. -/
def beBytes (n v : Nat) : Bytes := (leBytes n v).toList.reverse

/-- The head of a CBOR item, for a major type and an argument. -/
def pushCborUintWithMajor (major v : Nat) : Bytes :=
  let m := major * 32
  if v < 24 then [UInt8.ofNat (m + v)]
  else if v < 2 ^ 8 then UInt8.ofNat (m + 24) :: beBytes 1 v
  else if v < 2 ^ 16 then UInt8.ofNat (m + 25) :: beBytes 2 v
  else if v < 2 ^ 32 then UInt8.ofNat (m + 26) :: beBytes 4 v
  else UInt8.ofNat (m + 27) :: beBytes 8 v

/-- `push_cbor_int`. -/
def pushCborInt (v : Int) : Bytes :=
  if 0 ≤ v then pushCborUintWithMajor 0 v.toNat else pushCborUintWithMajor 1 (-(v + 1)).toNat

/-- `push_cbor_text`: the length is cut to 32 bits. -/
def pushCborText (s : String) : Bytes :=
  let bytes := utf8 s
  let len := bytes.length
  (if len < 24 then [UInt8.ofNat (0x60 + len)]
    else if len < 2 ^ 8 then 0x78 :: beBytes 1 len
    else if len < 2 ^ 16 then 0x79 :: beBytes 2 len
    else 0x7a :: beBytes 4 (len % 2 ^ 32)) ++ bytes

/-- `encode_event_payload`. -/
def encodeEventPayload (messageId conversationId : Uuid) (senderId : String) (createdAtMs : Int) : Bytes :=
  0x84 :: (pushCborText messageId.hyphenated ++ pushCborText conversationId.hyphenated ++ pushCborText senderId ++
    pushCborInt createdAtMs)

/-- `encode_edit_event_payload`. -/
def encodeEditEventPayload (messageId : Uuid) (editedAtMs : Int) : Bytes :=
  0xa2 :: (pushCborText "message_id" ++ pushCborText messageId.hyphenated ++ pushCborText "edited_at_ms" ++
    pushCborInt editedAtMs)

/-- `encode_delete_event_payload`. -/
def encodeDeleteEventPayload (messageId : Uuid) (scope : String) : Bytes :=
  0xa2 :: (pushCborText "message_id" ++ pushCborText messageId.hyphenated ++ pushCborText "scope" ++ pushCborText scope)

/-- `encode_media_delete_event_payload`. -/
def encodeMediaDeleteEventPayload (assetId messageId : Uuid) : Bytes :=
  0xa2 :: (pushCborText "asset_id" ++ pushCborText assetId.hyphenated ++ pushCborText "message_id" ++
    pushCborText messageId.hyphenated)

/-- `body_payload::encode`. -/
def encodeBodyPayload (P : Primitives) (textContent : Option String) : Bytes :=
  P.cborBodyPayload.encode ⟨archiveBodyPayloadMagic, textContent⟩

/-- `body_payload::try_decode_text`. -/
def tryDecodeText (P : Primitives) (bytes : Bytes) : Option String :=
  match P.cborBodyPayload.decode bytes with
  | some payload =>
      if payload.magic ≠ archiveBodyPayloadMagic then none else payload.textContent.filter fun t => !t.isEmpty
  | none => none

/-- **A text comes back out of its payload**, unless it is empty. -/
@[simp] theorem tryDecodeText_encodeBodyPayload (P : Primitives) (text : Option String) :
    tryDecodeText P (encodeBodyPayload P text) = text.filter fun t => !t.isEmpty := by
  simp [tryDecodeText, encodeBodyPayload]

end KChatCore.Message
