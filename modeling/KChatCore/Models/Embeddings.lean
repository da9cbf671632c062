import KChatCore.Lib.Bits
import KChatCore.Models.Machine

/-!
# `Models.Embeddings` — the INT4 codec of embeddings

An embedding is stored as a scale and a value in `[-7, 7]` for each component, packed two to a byte. The number of values
stands in a field of sixteen bits, and the encoder takes it with `as u16`: what does not fit is cut off.

* `packInt4_eq` — the layout: scale, length, nibbles.
* `decodeInt4_returns` — on every byte string the decoder returns nothing, or the declared number of values.
* `int4_round_trip_iff` — which lists come back whole.
-/

namespace KChatCore.Models

open Lib

/-! ## The codec -/

/-- **Arithmetic of `f32`**, as far as the codec uses it. -/
structure Float32Ops (α : Type) where
  /-- `(max_abs / 7.0).max(QUANT_EPS)`, over the absolute values of an embedding. -/
  scaleOf : List α → α
  /-- `(x / scale).round().clamp(-7.0, 7.0) as i8`. -/
  quantise : α → α → Int8
  quantise_bounds : ∀ x scale, -7 ≤ quantise x scale ∧ quantise x scale ≤ 7
  /-- `signed as f32 * scale`. -/
  dequantise : Int8 → α → α
  toLeBytes : α → ByteArr 4
  fromLeBytes : Bytes → α
  fromLeBytes_toLeBytes : ∀ x, fromLeBytes (toLeBytes x).toList = x

/-- `INT4_HEADER_LEN`. -/
def int4HeaderLen : Nat := 6

/-- The variables of the loop of `encode_int4`. -/
structure PackLoop where
  byte : UInt8
  out : Bytes

/-- The four bits of a quantised value: `(q as u8) & 0x0F`. -/
def nibbleOf (q : Int8) : UInt8 := q.toUInt8 &&& 0x0F

/-- One turn of the loop of `encode_int4`, for a value and its place among `len` of them. -/
def PackLoop.push (len : Nat) (st : PackLoop) (qi : Int8 × Nat) : PackLoop :=
  let nibble := nibbleOf qi.1
  if qi.2 % 2 = 0 then
    if qi.2 = len - 1 then ⟨nibble, st.out ++ [nibble]⟩ else ⟨nibble, st.out⟩
  else ⟨0, st.out ++ [st.byte ||| (nibble <<< 4)]⟩

section Codec

variable {α β : Type} (F : Float32Ops α)

/-- `encode_int4`, from the quantised values on. -/
def packInt4 (scale : α) (qs : List Int8) : Bytes :=
  let len := qs.length % 2 ^ 16
  let header := (F.toLeBytes scale).toList ++ (leBytes 2 len).toList
  (qs.zipIdx.foldl (PackLoop.push qs.length) ⟨0, header⟩).out

/-- `encode_int4`. -/
def encodeInt4 (embedding : List α) : Bytes :=
  let scale := F.scaleOf embedding
  packInt4 F scale (embedding.map fun x => F.quantise x scale)

/-- Sign extension of four bits to an `i8`. -/
def signExtend (nibble : UInt8) : Int8 := if nibble &&& 0x08 ≠ 0 then (nibble ||| 0xF0).toInt8 else nibble.toInt8

/-- One turn of the loop of `decode_int4`. -/
def unpackAt (push : Int8 → α → β) (scale : α) (packed : Bytes) (i : Nat) : Checked β := do
  let byte ← index packed (i / 2)
  let nibble := if i % 2 = 0 then byte &&& 0x0F else (byte >>> 4) &&& 0x0F
  pure (push (signExtend nibble) scale)

/-- `decode_int4`, with what it pushes for a signed value and the scale. -/
def decodeInt4With (push : Int8 → α → β) (blob : Bytes) : Checked (List β) := do
  if blob.length < int4HeaderLen then return []
  let scale := F.fromLeBytes [← index blob 0, ← index blob 1, ← index blob 2, ← index blob 3]
  let len := (← index blob 4).toNat + 256 * (← index blob 5).toNat
  let needPacked := (len + 1) / 2
  if blob.length < int4HeaderLen + needPacked then return []
  let packed ← slice blob int4HeaderLen (int4HeaderLen + needPacked)
  (List.range len).mapM (unpackAt push scale packed)

/-- `decode_int4`. -/
def decodeInt4 (blob : Bytes) : Checked (List α) := decodeInt4With F F.dequantise blob

/-- The signed values that `decode_int4` reads. -/
def signedInt4 (blob : Bytes) : Checked (List Int8) := decodeInt4With F (fun signed _ => signed) blob

end Codec

/-! ## What is packed -/

/-- **Packing**, from an even place on: the nibbles, two to a byte. -/
theorem foldl_push (qs : List Int8) (len i : Nat) (heven : i % 2 = 0) (hlen : i + qs.length = len) (byte : UInt8)
    (out : Bytes) : ((qs.zipIdx i).foldl (PackLoop.push len) ⟨byte, out⟩).out =
      out ++ packNibbles (qs.map nibbleOf) := by
  match qs with
  | [] => exact (List.append_nil out).symm
  | [q] =>
      have hlast : i = len - 1 := by
        simp only [List.length_singleton] at hlen
        omega
      simp only [List.zipIdx_cons, List.zipIdx_nil, List.foldl_cons, List.foldl_nil, PackLoop.push]
      rw [if_pos heven, if_pos hlast]
      rfl
  | q :: q' :: rest =>
      simp only [List.length_cons] at hlen
      have hnext : ¬ (i + 1) % 2 = 0 := by omega
      have hmore : ¬ i = len - 1 := by omega
      have hrest := foldl_push rest len (i + 2) (by omega) (by omega) 0 (out ++ [nibbleOf q ||| (nibbleOf q' <<< 4)])
      simp only [List.zipIdx_cons, List.foldl_cons, PackLoop.push]
      rw [if_pos heven, if_neg hmore, if_neg hnext]
      rw [show i + 1 + 1 = i + 2 from rfl]
      refine hrest.trans ?_
      rw [List.append_assoc]
      rfl

section RoundTrip

variable {α β : Type} {F : Float32Ops α}

/-- **The layout.** -/
theorem packInt4_eq (scale : α) (qs : List Int8) : packInt4 F scale qs =
    (F.toLeBytes scale).toList ++ (leBytes 2 (qs.length % 2 ^ 16)).toList ++ packNibbles (qs.map nibbleOf) :=
  foldl_push qs qs.length 0 rfl (Nat.zero_add _) 0 _

/-- The number of values that a byte string declares. -/
def declaredLen (blob : Bytes) : Nat := (blob.getD 4 0).toNat + 256 * (blob.getD 5 0).toNat

/-- A map each of whose calls returns. -/
theorem mapM_eq_pure {γ δ : Type} {f : γ → Checked δ} {g : γ → δ} {l : List γ} (h : ∀ a ∈ l, f a = pure (g a)) :
    l.mapM f = pure (l.map g) := by
  induction l with
  | nil => rfl
  | cons a l ih =>
      rw [List.mapM_cons, h a List.mem_cons_self, pure_bind, ih fun b hb => h b (List.mem_cons_of_mem a hb), pure_bind]
      rfl

/-- The scale that a byte string declares. -/
def declaredScale (F : Float32Ops α) (blob : Bytes) : α :=
  F.fromLeBytes [blob.getD 0 0, blob.getD 1 0, blob.getD 2 0, blob.getD 3 0]

/-- The bytes of the declared values. -/
def packedOf (blob : Bytes) : Bytes := (blob.drop int4HeaderLen).take ((declaredLen blob + 1) / 2)

/-- Once there is a header, nothing is read out of range. -/
theorem decodeInt4With_of_header {push : Int8 → α → β} {blob : Bytes} (hheader : 6 ≤ blob.length) :
    decodeInt4With F push blob =
      if blob.length < int4HeaderLen + (declaredLen blob + 1) / 2 then pure []
      else slice blob int4HeaderLen (int4HeaderLen + (declaredLen blob + 1) / 2) >>= fun packed =>
        (List.range (declaredLen blob)).mapM (unpackAt push (declaredScale F blob) packed) := by
  have hlong : ¬ blob.length < int4HeaderLen := not_lt.mpr hheader
  unfold decodeInt4With
  rw [if_neg hlong, index_eq (by omega), index_eq (by omega), index_eq (by omega), index_eq (by omega),
    index_eq (by omega), index_eq (by omega)]
  rfl

theorem unpackAt_eq {push : Int8 → α → β} {scale : α} {packed : Bytes} {i : Nat} (h : i / 2 < packed.length) :
    unpackAt push scale packed i = pure (push (signExtend ((nibbleAt packed i).getD 0)) scale) := by
  have hbyte : packed[i / 2]? = some (packed.getD (i / 2) 0) := by
    rw [List.getD_eq_getElem?_getD, List.getElem?_eq_getElem h]
    rfl
  rw [unpackAt, index_eq h, pure_bind, nibbleAt, hbyte]
  rfl

/-- **What the decoder returns** on a byte string that is long enough. -/
theorem decodeInt4With_of_whole {push : Int8 → α → β} {blob : Bytes}
    (hwhole : int4HeaderLen + (declaredLen blob + 1) / 2 ≤ blob.length) :
    decodeInt4With F push blob = pure ((List.range (declaredLen blob)).map fun i =>
      push (signExtend ((nibbleAt (packedOf blob) i).getD 0)) (declaredScale F blob)) := by
  have hheader : 6 ≤ blob.length := le_trans (Nat.le_add_right _ _) hwhole
  rw [decodeInt4With_of_header hheader, if_neg (not_lt.mpr hwhole), slice_eq (Nat.le_add_right _ _) hwhole, pure_bind,
    Nat.add_sub_cancel_left]
  refine mapM_eq_pure fun i hi => ?_
  have hplace : i < declaredLen blob := List.mem_range.mp hi
  have hin : i / 2 < (packedOf blob).length := by
    rw [packedOf, List.length_take, List.length_drop]
    omega
  exact unpackAt_eq hin

theorem decodeInt4With_of_short {push : Int8 → α → β} {blob : Bytes}
    (hshort : blob.length < int4HeaderLen + (declaredLen blob + 1) / 2) : decodeInt4With F push blob = pure [] := by
  by_cases hheader : 6 ≤ blob.length
  · rw [decodeInt4With_of_header hheader, if_pos hshort]
  · exact if_pos (not_le.mp hheader)

/-- **The decoder is total**: on every byte string it returns nothing, or the declared number of values. -/
theorem decodeInt4_returns (blob : Bytes) :
    ∃ out, decodeInt4 F blob = pure out ∧ (out = [] ∨ out.length = declaredLen blob) := by
  by_cases hwhole : int4HeaderLen + (declaredLen blob + 1) / 2 ≤ blob.length
  · refine ⟨_, decodeInt4With_of_whole hwhole, Or.inr ?_⟩
    rw [List.length_map, List.length_range]
  · exact ⟨[], decodeInt4With_of_short (not_le.mp hwhole), Or.inl rfl⟩

/-! ## The round trip -/

/-- **A quantised value comes back** out of its four bits. -/
theorem signExtend_nibbleOf {q : Int8} (h : -7 ≤ q ∧ q ≤ 7) : signExtend (nibbleOf q) = q := by
  have hlow : -7 ≤ q.toInt := Int8.le_iff_toInt_le.mp h.1
  have hhigh : q.toInt ≤ 7 := Int8.le_iff_toInt_le.mp h.2
  obtain ⟨k, hk⟩ : ∃ k, q.toInt = k := ⟨_, rfl⟩
  obtain rfl : q = Int8.ofInt k := by rw [← hk, Int8.ofInt_toInt]
  rw [hk] at hlow hhigh
  interval_cases k <;> decide

theorem nibbleOf_lt (q : Int8) : (nibbleOf q).toNat < 16 := by
  have hlow := toNat_low q.toUInt8 (k := 4) (by decide)
  exact hlow.trans_lt (Nat.mod_lt _ (by decide))

theorem length_packInt4 (scale : α) (qs : List Int8) :
    (packInt4 F scale qs).length = int4HeaderLen + (qs.length + 1) / 2 := by
  rw [packInt4_eq, List.length_append, List.length_append, List.Vector.toList_length, List.Vector.toList_length,
    length_packNibbles, List.length_map]
  rfl

/-- **The header is read back.** -/
theorem declared_packInt4 (scale : α) (qs : List Int8) :
    declaredScale F (packInt4 F scale qs) = scale ∧ declaredLen (packInt4 F scale qs) = qs.length % 2 ^ 16 ∧
      (packInt4 F scale qs).drop int4HeaderLen = packNibbles (qs.map nibbleOf) := by
  have hbytes : (F.toLeBytes scale).toList.length = 4 := List.Vector.toList_length _
  have hscale := F.fromLeBytes_toLeBytes scale
  have hlen : (leBytes 2 (qs.length % 2 ^ 16)).toList =
      [UInt8.ofNat (qs.length % 2 ^ 16 / 256 ^ 0), UInt8.ofNat (qs.length % 2 ^ 16 / 256 ^ 1)] := rfl
  rw [packInt4_eq, hlen]
  match hs : (F.toLeBytes scale).toList, hbytes with
  | [s0, s1, s2, s3], _ =>
      rw [hs] at hscale
      refine ⟨hscale, ?_, rfl⟩
      show (UInt8.ofNat _).toNat + 256 * (UInt8.ofNat _).toNat = _
      rw [UInt8.toNat_ofNat', UInt8.toNat_ofNat']
      omega

/-- **What comes back** of a packed list: as many values as the field of the length tells. -/
theorem decode_packInt4 (push : Int8 → α → β) (scale : α) (qs : List Int8) (hq : ∀ q ∈ qs, -7 ≤ q ∧ q ≤ 7) :
    decodeInt4With F push (packInt4 F scale qs) =
      pure ((qs.take (qs.length % 2 ^ 16)).map fun q => push q scale) := by
  obtain ⟨hscale, hlen, hpacked⟩ := declared_packInt4 (F := F) scale qs
  have hshorter : qs.length % 2 ^ 16 ≤ qs.length := Nat.mod_le _ _
  have hwhole : int4HeaderLen + (declaredLen (packInt4 F scale qs) + 1) / 2 ≤ (packInt4 F scale qs).length := by
    rw [hlen, length_packInt4]
    omega
  rw [decodeInt4With_of_whole hwhole, hscale, hlen]
  refine congrArg pure (List.ext_getElem ?_ fun i hi _ => ?_)
  · rw [List.length_map, List.length_map, List.length_range, List.length_take, Nat.min_eq_left hshorter]
  · rw [List.length_map, List.length_range] at hi
    have hmem : i < qs.length := hi.trans_le hshorter
    -- a place that is read is not behind the bytes that are taken
    have hnibble : nibbleAt (packedOf (packInt4 F scale qs)) i = nibbleAt (packNibbles (qs.map nibbleOf)) i := by
      unfold packedOf nibbleAt
      rw [hpacked, hlen, List.getElem?_take_of_lt (by omega)]
    have hnibbles : ∀ b ∈ qs.map nibbleOf, b.toNat < 16 := by
      intro b hb
      obtain ⟨q, -, rfl⟩ := List.mem_map.mp hb
      exact nibbleOf_lt q
    rw [List.getElem_map, List.getElem_map, List.getElem_range, List.getElem_take, hnibble,
      nibbleAt_packNibbles hnibbles i (by rwa [List.length_map]), List.getElem?_map, List.getElem?_eq_getElem hmem]
    exact congrArg (fun q => push q scale) (signExtend_nibbleOf (hq _ (List.getElem_mem hmem)))

/-- A packed list comes back whole exactly if its length fits the field. -/
theorem decode_packInt4_iff (push : Int8 → α → β) (scale : α) {qs : List Int8} (hq : ∀ q ∈ qs, -7 ≤ q ∧ q ≤ 7) :
    decodeInt4With F push (packInt4 F scale qs) = pure (qs.map fun q => push q scale) ↔ qs.length < 2 ^ 16 := by
  rw [decode_packInt4 push scale qs hq]
  constructor
  · intro h
    have hlists := congrArg List.length (Except.ok.inj (Option.some.inj h))
    rw [List.length_map, List.length_map, List.length_take] at hlists
    have hlt := Nat.mod_lt qs.length (show 0 < 2 ^ 16 by decide)
    omega
  · intro h
    rw [Nat.mod_eq_of_lt h, List.take_length]

/-- **The INT4 codec.** A list of quantised values comes back as it was, under every scale, exactly if it has fewer than
2^16 values, and so does the quantised form of an embedding; on every byte string the decoder returns nothing or the
declared number of values. -/
theorem int4_round_trip_iff (F : Float32Ops α) (scale : α) (qs : List Int8) (hq : ∀ q ∈ qs, -7 ≤ q ∧ q ≤ 7) :
    ((signedInt4 F (packInt4 F scale qs) = pure qs ∧
        decodeInt4 F (packInt4 F scale qs) = pure (qs.map fun q => F.dequantise q scale)) ↔ qs.length < 2 ^ 16) ∧
      (∀ embedding : List α, signedInt4 F (encodeInt4 F embedding) =
        pure (embedding.map fun x => F.quantise x (F.scaleOf embedding)) ↔ embedding.length < 2 ^ 16) ∧
      ∀ blob, ∃ out, decodeInt4 F blob = pure out ∧ (out = [] ∨ out.length = declaredLen blob) := by
  have hsigned : ∀ (scale : α) (qs : List Int8), (∀ q ∈ qs, -7 ≤ q ∧ q ≤ 7) →
      (signedInt4 F (packInt4 F scale qs) = pure qs ↔ qs.length < 2 ^ 16) := by
    intro scale qs hq
    have hiff := decode_packInt4_iff (F := F) (fun signed _ => signed) scale hq
    rwa [List.map_id'] at hiff
  refine ⟨?_, ?_, decodeInt4_returns⟩
  · constructor
    · exact fun h => (hsigned scale qs hq).mp h.1
    · exact fun h => ⟨(hsigned scale qs hq).mpr h, (decode_packInt4_iff F.dequantise scale hq).mpr h⟩
  · intro embedding
    -- what the encoder quantises is in range
    have hbounds : ∀ q ∈ embedding.map fun x => F.quantise x (F.scaleOf embedding), -7 ≤ q ∧ q ≤ 7 := by
      intro q hmem
      obtain ⟨x, -, rfl⟩ := List.mem_map.mp hmem
      exact F.quantise_bounds x _
    have hiff := hsigned (F.scaleOf embedding) _ hbounds
    rwa [List.length_map] at hiff

end RoundTrip

/-! Floats by their bits, for embeddings whose greatest absolute value is 7: their scale is 1. -/

/-- The bits of the float of a small integer. -/
def bitsOfInt (q : Int8) : UInt32 :=
  let bits : UInt32 := [0, 0x3f800000, 0x40000000, 0x40400000, 0x40800000, 0x40a00000, 0x40c00000, 0x40e00000].getD
    q.toInt.natAbs 0
  if q < 0 then 0x80000000 ||| bits else bits

/-- The small integer with the bits of a float. -/
def intOfBits (x : UInt32) : Int8 :=
  ([-7, -6, -5, -4, -3, -2, -1, 1, 2, 3, 4, 5, 6, 7].find? fun q => bitsOfInt q = x).getD 0

theorem intOfBits_bounds (x : UInt32) : -7 ≤ intOfBits x ∧ intOfBits x ≤ 7 := by
  unfold intOfBits
  cases h : [-7, -6, -5, -4, -3, -2, -1, 1, 2, 3, 4, 5, 6, 7].find? fun q => bitsOfInt q = x with
  | none => decide
  | some q =>
      have hbounds : ∀ q ∈ [-7, -6, -5, -4, -3, -2, -1, 1, 2, 3, 4, 5, 6, 7], (-7 : Int8) ≤ q ∧ q ≤ 7 := by
        decide +kernel
      exact hbounds q (List.mem_of_find?_eq_some h)

theorem ofDigits_leBytes (x : UInt32) :
    UInt32.ofNat (Nat.ofDigits 256 ((leBytes 4 x.toNat).toList.map UInt8.toNat)) = x := by
  have hlt := x.toNat_lt
  have hbytes : (leBytes 4 x.toNat).toList = [UInt8.ofNat (x.toNat / 256 ^ 0), UInt8.ofNat (x.toNat / 256 ^ 1),
      UInt8.ofNat (x.toNat / 256 ^ 2), UInt8.ofNat (x.toNat / 256 ^ 3)] := rfl
  have hdigits : Nat.ofDigits 256 ((leBytes 4 x.toNat).toList.map UInt8.toNat) = x.toNat := by
    rw [hbytes]
    simp only [List.map_cons, List.map_nil, UInt8.toNat_ofNat', Nat.ofDigits_cons, Nat.ofDigits_nil]
    omega
  rw [hdigits, UInt32.ofNat_toNat]

def unitScaleOps : Float32Ops UInt32 where
  scaleOf _ := 0x3f800000
  quantise x _ := intOfBits x
  quantise_bounds x _ := intOfBits_bounds x
  dequantise q _ := bitsOfInt q
  toLeBytes x := leBytes 4 x.toNat
  fromLeBytes b := UInt32.ofNat (Nat.ofDigits 256 (b.map UInt8.toNat))
  fromLeBytes_toLeBytes := ofDigits_leBytes

theorem small_embedding_comes_back :
    signedInt4 unitScaleOps (packInt4 unitScaleOps 0x3f800000 [7, -7, 3]) = pure [7, -7, 3] ∧
      decodeInt4 unitScaleOps (packInt4 unitScaleOps 0x3f800000 [7, -7, 3]) =
        pure [0x40e00000, 0xc0e00000, 0x40400000] :=
  (int4_round_trip_iff unitScaleOps 0x3f800000 [7, -7, 3] (by decide +kernel)).1.mpr (by decide)

/-- 65536 zeros are stored under the length 0, and nothing comes back. -/
theorem long_embedding_is_lost : ¬ (∀ (F : Float32Ops UInt32) (scale : UInt32) (qs : List Int8),
    (∀ q ∈ qs, -7 ≤ q ∧ q ≤ 7) → signedInt4 F (packInt4 F scale qs) = pure qs) := by
  intro h
  have hq : ∀ q ∈ List.replicate (2 ^ 16) (0 : Int8), -7 ≤ q ∧ q ≤ 7 := by
    intro q hmem
    rw [List.eq_of_mem_replicate hmem]
    decide
  have hback := h unitScaleOps 0x3f800000 (List.replicate (2 ^ 16) 0) hq
  have hread := decode_packInt4 (F := unitScaleOps) (fun signed _ => signed) 0x3f800000 _ hq
  rw [List.map_id'] at hread
  have hlists := congrArg List.length (Except.ok.inj (Option.some.inj (hread.symm.trans hback)))
  rw [List.length_take, List.length_replicate] at hlists
  exact absurd hlists (by decide)

end KChatCore.Models
