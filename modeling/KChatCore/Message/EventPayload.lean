import KChatCore.Message.Payload
import KChatCore.SerdeItems

/-!
# `Message.EventPayload` — the hand-rolled journal payloads are CBOR

The journal payloads are written byte by byte. What the helpers write is what the library writes for the same
item, so a decoder reads the item back: an array of four for a received or sent message, a map of two for an edit
or a deletion. A text keeps only the low 32 bits of its length in its head, so the texts have to be shorter than
that.

The archive journal carries a second kind of payload, the body envelope, which a derived reader takes from a map
alone; an array of four is never one.
-/

namespace KChatCore.Message

open Lib Lib.Cbor

namespace EventPayload

/-- `encode_event_payload`, on the texts its callers hand it. -/
def encodeEventPayload (messageId conversationId senderId : String) (createdAtMs : Int) : Bytes :=
  0x84 :: (pushCborText messageId ++ pushCborText conversationId ++ pushCborText senderId ++
    pushCborInt createdAtMs)

/-- The item an event payload stands for. -/
def eventItem (messageId conversationId senderId : String) (createdAtMs : Int) : Value :=
  .array [.text messageId, .text conversationId, .text senderId, .int createdAtMs]

/-! ## The helpers write items -/

/-- The head of a text can hold its length. -/
def Short (s : String) : Prop := (utf8 s).length < 2 ^ 32

theorem beBytes_eq (n v : Nat) : beBytes n v = be n v := reverse_leBytes n v

theorem pushCborUintWithMajor_eq (major v : Nat) : pushCborUintWithMajor major v = head major v := by
  simp only [pushCborUintWithMajor, head, initial, beBytes_eq]

theorem pushCborInt_eq (v : Int) : pushCborInt v = encode (.int v) := by
  unfold pushCborInt Value.int
  by_cases h : 0 ≤ v
  · rw [if_pos h, if_pos h, encode, pushCborUintWithMajor_eq]
  · rw [if_neg h, if_neg h, encode, pushCborUintWithMajor_eq]

/-- **A short text is written as its item**: below 2^32 the length is not cut. -/
theorem pushCborText_eq {s : String} (h : Short s) : pushCborText s = encode (.text s) := by
  have hlen : (utf8 s).length < 2 ^ 32 := h
  have hbytes : textBytes s = utf8 s := rfl
  have hmod : (utf8 s).length % 2 ^ 32 = (utf8 s).length := Nat.mod_eq_of_lt hlen
  rw [encode, hbytes, pushCborText, hmod]
  simp only [head, initial, beBytes_eq, if_pos hlen]
  rfl

theorem Short.fits {s : String} (h : Short s) : (Value.text s).Fits := by
  refine .text ?_
  have hlen : (textBytes s).length < 2 ^ 32 := h
  omega

section Decodes

variable {m c s : String} {t : Int}

/-- **An event payload is the CBOR of its item.** -/
theorem encodeEventPayload_eq (hm : Short m) (hc : Short c) (hs : Short s) :
    encodeEventPayload m c s t = encode (eventItem m c s t) := by
  rw [encodeEventPayload, pushCborText_eq hm, pushCborText_eq hc, pushCborText_eq hs, pushCborInt_eq]
  simp [eventItem, encode, encodeItems, head, initial]

theorem eventItem_fits (hm : Short m) (hc : Short c) (hs : Short s) (ht : -(2 ^ 63) ≤ t ∧ t < 2 ^ 63) :
    (eventItem m c s t).Fits := by
  refine .array (by simp) fun v hv => ?_
  simp only [List.mem_cons, List.not_mem_nil, or_false] at hv
  rcases hv with rfl | rfl | rfl | rfl
  · exact hm.fits
  · exact hc.fits
  · exact hs.fits
  · exact .int ht

theorem decode_encodeEventPayload (hm : Short m) (hc : Short c) (hs : Short s)
    (ht : -(2 ^ 63) ≤ t ∧ t < 2 ^ 63) : decode (encodeEventPayload m c s t) = some (eventItem m c s t) := by
  rw [encodeEventPayload_eq hm hc hs]
  exact decode_encode (eventItem_fits hm hc hs ht)

/-- **The payloads of edits and deletions are maps**: a map of two short texts, or of a short text and a
timestamp, is read back. -/
theorem decode_mapOfTwo {k₁ k₂ : String} {v₁ v₂ : Value} (hk₁ : Short k₁) (hk₂ : Short k₂) (hv₁ : v₁.Fits)
    (hv₂ : v₂.Fits) : decode (0xa2 :: (pushCborText k₁ ++ encode v₁ ++ pushCborText k₂ ++ encode v₂)) =
      some (.map [(.text k₁, v₁), (.text k₂, v₂)]) := by
  have hbytes : 0xa2 :: (pushCborText k₁ ++ encode v₁ ++ pushCborText k₂ ++ encode v₂) =
      encode (.map [(.text k₁, v₁), (.text k₂, v₂)]) := by
    rw [pushCborText_eq hk₁, pushCborText_eq hk₂]
    simp [encode, encodeEntries, head, initial]
  rw [hbytes]
  refine decode_encode (.map (by simp) ?_ ?_)
  · intro e he
    simp only [List.mem_cons, List.not_mem_nil, or_false] at he
    rcases he with rfl | rfl
    · exact hk₁.fits
    · exact hk₂.fits
  · intro e he
    simp only [List.mem_cons, List.not_mem_nil, or_false] at he
    rcases he with rfl | rfl
    · exact hv₁
    · exact hv₂

/-- `encode_edit_event_payload`, `encode_delete_event_payload` and `encode_media_delete_event_payload` write a
map of exactly the values they are given. -/
theorem decode_editAndDeletePayloads (messageId assetId : Uuid) (scope : String) (hscope : Short scope)
    (ht : -(2 ^ 63) ≤ t ∧ t < 2 ^ 63) (hmessage : Short messageId.hyphenated) (hasset : Short assetId.hyphenated) :
    decode (encodeEditEventPayload messageId t) =
        some (.map [(.text "message_id", .text messageId.hyphenated), (.text "edited_at_ms", .int t)]) ∧
      decode (encodeDeleteEventPayload messageId scope) =
        some (.map [(.text "message_id", .text messageId.hyphenated), (.text "scope", .text scope)]) ∧
      decode (encodeMediaDeleteEventPayload assetId messageId) =
        some (.map [(.text "asset_id", .text assetId.hyphenated),
          (.text "message_id", .text messageId.hyphenated)]) := by
  have hid : Short "message_id" := by unfold Short; decide
  have hat : Short "edited_at_ms" := by unfold Short; decide
  have hsc : Short "scope" := by unfold Short; decide
  have hass : Short "asset_id" := by unfold Short; decide
  refine ⟨?_, ?_, ?_⟩
  · rw [encodeEditEventPayload, pushCborText_eq hmessage, pushCborInt_eq]
    exact decode_mapOfTwo hid hat hmessage.fits (.int ht)
  · rw [encodeDeleteEventPayload, pushCborText_eq hmessage, pushCborText_eq hscope]
    exact decode_mapOfTwo hid hsc hmessage.fits hscope.fits
  · rw [encodeMediaDeleteEventPayload, pushCborText_eq hmessage, pushCborText_eq hasset]
    exact decode_mapOfTwo hass hid hasset.fits hmessage.fits

end Decodes

/-! ## The body envelope -/

/-- The item serde writes for a body payload: a map of its two fields. -/
def bodyPayloadItem (p : ArchiveMessageBodyPayload) : Value :=
  structItem [("magic", .text p.magic), ("text_content", (p.textContent.map Value.text).getD .null)]

/-- The texts of a body payload have lengths a `String` can have. -/
def BodyFits (p : ArchiveMessageBodyPayload) : Prop :=
  (textBytes p.magic).length < 2 ^ 64 ∧ ∀ t ∈ p.textContent, (textBytes t).length < 2 ^ 64

instance : DecidablePred BodyFits := fun p =>
  inferInstanceAs (Decidable ((textBytes p.magic).length < 2 ^ 64 ∧
    ∀ t ∈ p.textContent, (textBytes t).length < 2 ^ 64))

/-- **What `crate::cbor` does with a body payload**: it writes a derived struct as a map, and reads one only where
the first head past any tags is a map's. -/
structure BodyPayloadCbor (P : Primitives) : Prop where
  encode_eq : ∀ p, BodyFits p → P.cborBodyPayload.encode p = encode (bodyPayloadItem p)
  decode_map : ∀ bytes p, P.cborBodyPayload.decode bytes = some p →
    (readUntagged bytes.length bytes).map Head.major = some 5

theorem bodyPayloadItem_fits {p : ArchiveMessageBodyPayload} (h : BodyFits p) : (bodyPayloadItem p).Fits := by
  refine structItem_fits (by simp) ?_ fun f hf => ?_
  · show ∀ name ∈ ["magic", "text_content"], (utf8 name).length < 2 ^ 64
    decide +kernel
  · simp only [List.mem_cons, List.not_mem_nil, or_false] at hf
    rcases hf with rfl | rfl
    · exact .text h.1
    · cases htext : p.textContent with
      | none => exact .null
      | some t => exact .text (h.2 t htext)

section Envelopes

variable {P : Primitives} (hP : BodyPayloadCbor P)

include hP

/-- **An event payload is no body**: its first byte announces an array. -/
theorem tryDecodeText_encodeEventPayload (m c s : String) (t : Int) :
    tryDecodeText P (encodeEventPayload m c s t) = none := by
  have hnone : P.cborBodyPayload.decode (encodeEventPayload m c s t) = none := by
    cases hdec : P.cborBodyPayload.decode (encodeEventPayload m c s t) with
    | none => rfl
    | some p =>
        have hmap := hP.decode_map _ _ hdec
        have hmajor : (readUntagged (encodeEventPayload m c s t).length (encodeEventPayload m c s t)).map
            Head.major = some 4 := rfl
        rw [hmajor] at hmap
        exact absurd hmap (by decide)
  rw [tryDecodeText, hnone]

/-- **A body is no event payload**: it is read as a map. -/
theorem decode_encodeBodyPayload {text : Option String} (h : ∀ t ∈ text, (textBytes t).length < 2 ^ 64) :
    decode (encodeBodyPayload P text) = some (bodyPayloadItem ⟨archiveBodyPayloadMagic, text⟩) := by
  have hmagic : (textBytes archiveBodyPayloadMagic).length < 2 ^ 64 := by decide +kernel
  have hfits : BodyFits ⟨archiveBodyPayloadMagic, text⟩ := ⟨hmagic, h⟩
  rw [encodeBodyPayload, hP.encode_eq _ hfits]
  exact decode_encode (bodyPayloadItem_fits hfits)

end Envelopes

/-! ## A body codec that behaves so -/

/-- The body payload an item stands for; a missing text reads as none. -/
def bodyPayloadOf (v : Value) : Option ArchiveMessageBodyPayload :=
  ((v.field "magic").bind Value.asText?).bind fun magic =>
    match v.field "text_content" with
    | some (.text s) => some ⟨magic, some s⟩
    | some (.simple 22) => some ⟨magic, none⟩
    | none => some ⟨magic, none⟩
    | _ => none

theorem bodyPayloadOf_item (p : ArchiveMessageBodyPayload) : bodyPayloadOf (bodyPayloadItem p) = some p := by
  obtain ⟨magic, textContent⟩ := p
  cases textContent <;> rfl

/-- Texts no `String` can hold have no CBOR; they get the reference encoding behind an empty map's head. -/
def encodeBody (p : ArchiveMessageBodyPayload) : Bytes :=
  if BodyFits p then encode (bodyPayloadItem p) else 0xa0 :: Primitives.bodyPayloadCodec.toCodec.encode p

/-- Read what `encodeBody` writes, and any other map with the two fields. -/
def decodeBody (bytes : Bytes) : Option ArchiveMessageBodyPayload :=
  if (readUntagged bytes.length bytes).map Head.major = some 5 then
    if bytes.head? = some 0xa0 then Primitives.bodyPayloadCodec.toCodec.decode bytes.tail
    else (decode bytes).bind bodyPayloadOf
  else none

theorem decodeBody_encodeBody (p : ArchiveMessageBodyPayload) : decodeBody (encodeBody p) = some p := by
  unfold decodeBody encodeBody
  by_cases hfits : BodyFits p
  · obtain ⟨rest, hrest⟩ : ∃ rest, encode (bodyPayloadItem p) = 0xa2 :: rest := ⟨_, rfl⟩
    have hmap : (readUntagged (encode (bodyPayloadItem p)).length (encode (bodyPayloadItem p))).map Head.major =
        some 5 := by
      rw [hrest]
      rfl
    have hhead : (encode (bodyPayloadItem p)).head? ≠ some 0xa0 := by
      rw [hrest]
      simp
    rw [if_pos hfits, if_pos hmap, if_neg hhead, decode_encode (bodyPayloadItem_fits hfits), Option.bind_some,
      bodyPayloadOf_item]
  · rw [if_neg hfits]
    exact Primitives.bodyPayloadCodec.toCodec.decode_encode p

/-- The reference primitives with the body codec. -/
def bodyPrimitives : Primitives := { Primitives.reference with
  cborBodyPayload := ⟨encodeBody, decodeBody, decodeBody_encodeBody⟩ }

theorem bodyPrimitives_cbor : BodyPayloadCbor bodyPrimitives where
  encode_eq _ h := if_pos h
  decode_map bytes p h := by
    by_contra hne
    have hnone : bodyPrimitives.cborBodyPayload.decode bytes = none := if_neg hne
    rw [hnone] at h
    exact absurd h (by simp)

/-! ## The payloads are well formed -/

/-- **The journal payloads are well formed and told apart.** Texts below 2^32 bytes and any `i64` timestamp are
read back as an array of four, all input consumed; no event payload is taken for a body, and no body for an event
payload. -/
theorem eventPayloads_wellFormed {P : Primitives} (hP : BodyPayloadCbor P) :
    (∀ (m c s : String) (t : Int), Short m → Short c → Short s → -(2 ^ 63) ≤ t ∧ t < 2 ^ 63 →
      decode (encodeEventPayload m c s t) = some (.array [.text m, .text c, .text s, .int t])) ∧
    (∀ (m c s : String) (t : Int), tryDecodeText P (encodeEventPayload m c s t) = none) ∧
    (∀ text : Option String, (∀ t ∈ text, (utf8 t).length < 2 ^ 64) → ∀ (m c s : String) (t : Int),
      decode (encodeBodyPayload P text) ≠ some (.array [.text m, .text c, .text s, .int t])) := by
  refine ⟨fun m c s t hm hc hs ht => decode_encodeEventPayload hm hc hs ht,
    fun m c s t => tryDecodeText_encodeEventPayload hP m c s t, fun text htext m c s t heq => ?_⟩
  rw [decode_encodeBodyPayload hP htext] at heq
  exact absurd (Option.some.inj heq) (by simp [bodyPayloadItem, structItem])

/-- The earliest timestamp, and a body. -/
theorem eventPayloads_wellFormed_min :
    decode (encodeEventPayload "m" "c" "s" (-(2 ^ 63))) =
        some (.array [.text "m", .text "c", .text "s", .int (-(2 ^ 63))]) ∧
      tryDecodeText bodyPrimitives (encodeEventPayload "m" "c" "s" (-(2 ^ 63))) = none ∧
      decode (encodeBodyPayload bodyPrimitives (some "hi")) ≠
        some (.array [.text "m", .text "c", .text "s", .int 0]) :=
  have hshort : Short "m" ∧ Short "c" ∧ Short "s" := by unfold Short; decide
  ⟨(eventPayloads_wellFormed bodyPrimitives_cbor).1 _ _ _ _ hshort.1 hshort.2.1 hshort.2.2 (by omega),
    (eventPayloads_wellFormed bodyPrimitives_cbor).2.1 _ _ _ _,
    (eventPayloads_wellFormed bodyPrimitives_cbor).2.2 _ (by simp; decide) _ _ _ _⟩

/-! ## A text of 2^32 bytes -/

/-- Where the length of the last text is cut to zero, its first bytes are read as the fourth item. -/
theorem decode_cutLength (rest : Bytes) (hrest : rest ≠ []) :
    decode (0x84 :: 0x60 :: 0x60 :: 0x7a :: 0 :: 0 :: 0 :: 0 :: 0x61 :: 0x61 :: rest) = none := by
  have hempty : ∀ fuel rest, readItem (fuel + 1) (0x60 :: rest) = some (.text "", rest) := by
    intro fuel rest
    have hlen : (encode (.text "")).length = 1 := by decide
    exact readItem_encode (v := .text "") (.text (by decide)) (by omega) rest
  have hlong : ∀ fuel rest, readItem (fuel + 1) (0x7a :: 0 :: 0 :: 0 :: 0 :: rest) = some (.text "", rest) := by
    intro fuel rest
    have hhead : readHead (0x7a :: 0 :: 0 :: 0 :: 0 :: rest) = some (⟨3, 26, 0⟩, rest) :=
      @readHead_long 3 26 0 (by omega) (by omega) (by omega) (by norm_num) rest
    have htext : textOf [] = some "" := textOf_textBytes ""
    rw [readItem, hhead, Option.bind_some, if_neg (by simp)]
    simp [readContent, takeBytes, htext]
  have hlast : ∀ fuel rest, readItem (fuel + 2) (0x61 :: 0x61 :: rest) = some (.text "a", rest) := by
    intro fuel rest
    have hlen : (encode (.text "a")).length = 2 := by decide
    exact readItem_encode (v := .text "a") (.text (by decide)) (by omega) rest
  have harray : ∀ fuel, readItem (fuel + 3)
      (0x84 :: 0x60 :: 0x60 :: 0x7a :: 0 :: 0 :: 0 :: 0 :: 0x61 :: 0x61 :: rest) =
        some (.array [.text "", .text "", .text "", .text "a"], rest) := by
    intro fuel
    have hread := @readItem_head (fuel + 2) 4 4 (by omega) (by omega)
      (0x60 :: 0x60 :: 0x7a :: 0 :: 0 :: 0 :: 0 :: 0x61 :: 0x61 :: rest)
    rw [show head 4 4 = [0x84] by decide, List.singleton_append] at hread
    rw [hread]
    show (readN (readItem (fuel + 2)) 4 _).map _ = _
    simp only [readN, hempty, hlong, hlast, Option.bind_some, Option.map_some]
  obtain ⟨b, rest', rfl⟩ := List.exists_cons_of_ne_nil hrest
  simp only [decode, List.length_cons]
  rw [harray]

/-- The head of a text whose length is a multiple of 2^32 says that the text is empty. -/
theorem pushCborText_cut {s : String} (h : 2 ^ 32 ≤ (utf8 s).length) (hmod : (utf8 s).length % 2 ^ 32 = 0) :
    pushCborText s = 0x7a :: 0 :: 0 :: 0 :: 0 :: utf8 s := by
  have hhead : 0x7a :: beBytes 4 0 = ([0x7a, 0, 0, 0, 0] : Bytes) := by decide
  rw [pushCborText, if_neg (by omega), if_neg (by omega), if_neg (by omega), hmod, hhead]
  rfl

theorem decode_overlong {n : Nat} (hn : 2 ^ 32 ≤ n) (hmod : n % 2 ^ 32 = 0) :
    decode (encodeEventPayload "" "" (String.ofList (List.replicate n 'a')) 0) = none := by
  have hlen : (utf8 (String.ofList (List.replicate n 'a'))).length = n := by
    rw [utf8_replicate, List.length_replicate]
  have htext := pushCborText_cut (by rw [hlen]; exact hn) (by rw [hlen]; exact hmod)
  have hempty : pushCborText "" = [0x60] := by decide
  obtain ⟨k, hk⟩ : ∃ k, n = k + 2 := ⟨n - 2, by omega⟩
  have hbytes : utf8 (String.ofList (List.replicate n 'a')) = 0x61 :: 0x61 :: List.replicate k 0x61 := by
    rw [utf8_replicate, hk, List.replicate_succ, List.replicate_succ]
  rw [encodeEventPayload, htext, hbytes, hempty]
  simp only [List.cons_append, List.nil_append]
  refine decode_cutLength _ fun hnil => ?_
  have hint : pushCborInt 0 = [0] := by decide
  rw [hint] at hnil
  exact absurd hnil (by simp)

/-- **An event payload is an array, not a map**, and a text whose length its head cannot hold makes it unreadable. -/
theorem eventPayload_is_array :
    decode (encodeEventPayload "" "" "" 0) = some (.array [.text "", .text "", .text "", .uint 0]) ∧
      decode (encodeEventPayload "" "" (String.ofList (List.replicate (2 ^ 32) 'a')) 0) = none := by
  have hshort : Short "" := by
    unfold Short
    decide
  exact ⟨decode_encodeEventPayload hshort hshort hshort (by omega), decode_overlong le_rfl (by norm_num)⟩

end EventPayload

end KChatCore.Message
