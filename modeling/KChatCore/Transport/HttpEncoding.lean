import KChatCore.Crypto.PatternC
import KChatCore.Lib.Bits
import KChatCore.Lib.Sextets

/-!
# `Transport.HttpEncoding` — base64 as the HTTP transport writes and reads it

`base64Encode` is RFC 4648 with padding. `base64Decode` drops the `=` at the end, however many there are, and shifts six
bits a character through a 32-bit buffer: it never asks how many characters there were, nor what the bits left over are.

* `toList_base64Encode`, `base64Decode_eq_ok_iff` — both functions over sextets.
* `base64_exact_iff` — the round trip, and which accepted strings the encoder produces.
-/

namespace KChatCore.Transport

open Lib
open Archive (chunksOf)
open Crypto (chunksOf_of_ne_nil)

/-! ## The functions of the transport -/

/-- `ALPHA`. -/
def alpha : List Char := "ABCDEFGHIJKLMNOPQRSTUVWXYZabcdefghijklmnopqrstuvwxyz0123456789+/".toList

/-- `ALPHA[i as usize] as char`: no index is out of bounds. -/
def alphaAt (i : UInt8) : Char := alpha.getD i.toNat '='

/-- What `base64_encode` pushes for one chunk. -/
def encodeChunk (chunk : Bytes) : List Char :=
  let b0 := chunk.getD 0 0
  let b1 := chunk.getD 1 0
  let b2 := chunk.getD 2 0
  [alphaAt (b0 >>> 2), alphaAt (((b0 &&& 3) <<< 4) ||| (b1 >>> 4)),
    if 2 ≤ chunk.length then alphaAt (((b1 &&& 15) <<< 2) ||| (b2 >>> 6)) else '=',
    if 3 ≤ chunk.length then alphaAt (b2 &&& 63) else '=']

/-- `base64_encode`. -/
def base64Encode (bytes : Bytes) : String := String.ofList ((chunksOf 3 bytes).flatMap encodeChunk)

/-- The `match` on a character: its value in the alphabet, if it is in it. -/
def sextetOf (c : Char) : Option Nat :=
  if 'A' ≤ c ∧ c ≤ 'Z' then some (c.toNat - 'A'.toNat)
  else if 'a' ≤ c ∧ c ≤ 'z' then some (c.toNat - 'a'.toNat + 26)
  else if '0' ≤ c ∧ c ≤ '9' then some (c.toNat - '0'.toNat + 52)
  else if c = '+' then some 62
  else if c = '/' then some 63
  else none

/-- The variables of the loop of `base64_decode`. -/
structure Base64Loop where
  buf : UInt32
  bits : Nat
  out : Bytes

/-- `buf = (buf << 6) | v`: what is shifted out is gone. -/
def pushSextet (buf : UInt32) (v : Nat) : UInt32 := (buf <<< 6) ||| UInt32.ofNat v

/-- `((buf >> bits) & 0xff) as u8`. -/
def octetAt (buf : UInt32) (bits : Nat) : UInt8 := ((buf >>> UInt32.ofNat bits) &&& 0xff).toUInt8

/-- One turn of the loop, for a character of the alphabet. -/
def Base64Loop.feed (st : Base64Loop) (v : Nat) : Base64Loop :=
  let buf := pushSextet st.buf v
  let bits := st.bits + 6
  if 8 ≤ bits then ⟨buf, bits - 8, st.out ++ [octetAt buf (bits - 8)]⟩
  else ⟨buf, bits, st.out⟩

section Decoder

variable (debugChar : Char → String)

/-- One turn of the loop of `base64_decode`; `debugChar` is the `{:?}` of a character. -/
def readChar (st : Base64Loop) (c : Char) : Except String Base64Loop :=
  match sextetOf c with
  | some v => .ok (st.feed v)
  | none => .error ("invalid base64 char: " ++ debugChar c)

/-- `input.trim_end_matches('=')`. -/
def trimmed (input : String) : List Char := input.toList.rdropWhile (· == '=')

/-- `base64_decode`. -/
def base64Decode (input : String) : Except String Bytes :=
  ((trimmed input).foldlM (readChar debugChar) ⟨0, 0, []⟩).map Base64Loop.out

end Decoder

/-! ## The alphabet -/

/-- The character of a sextet. -/
def digit (v : Nat) : Char := alpha.getD v '='

theorem alphaAt_eq {i : UInt8} {v : Nat} (h : i.toNat = v) : alphaAt i = digit v := by
  rw [alphaAt, h]
  rfl

theorem sextetOf_digit_fin : ∀ v : Fin 64, sextetOf (digit v) = some v.val ∧ digit v ≠ '=' := by decide +kernel

theorem sextetOf_digit {v : Nat} (h : v < 64) : sextetOf (digit v) = some v := (sextetOf_digit_fin ⟨v, h⟩).1

theorem digit_ne_pad {v : Nat} (h : v < 64) : digit v ≠ '=' := (sextetOf_digit_fin ⟨v, h⟩).2

/-- Of a range of characters, each has its place in the alphabet. -/
theorem digit_of_range {first last : Char} {shift : Nat}
    (hrange : ∀ n : Fin (last.toNat + 1 - first.toNat), digit (n + shift) = Char.ofNat (first.toNat + n)) {c : Char}
    (hfirst : first ≤ c) (hlast : c ≤ last) : digit (c.toNat - first.toNat + shift) = c := by
  have hfirst' : first.toNat ≤ c.toNat := hfirst
  have hlast' : c.toNat ≤ last.toNat := hlast
  have hplace := hrange ⟨c.toNat - first.toNat, by omega⟩
  simp only at hplace
  rw [hplace, Nat.add_sub_cancel' hfirst', Char.ofNat_toNat]

/-- **A character of the alphabet is the digit of its value.** -/
theorem digit_sextetOf {c : Char} {v : Nat} (h : sextetOf c = some v) : v < 64 ∧ digit v = c := by
  unfold sextetOf at h
  split_ifs at h with hupper hlower hnumber hplus hslash
  · obtain rfl := Option.some.inj h
    have hlast : c.toNat ≤ 'Z'.toNat := hupper.2
    have hbound : 'Z'.toNat - 'A'.toNat < 64 := by decide
    have hdigit : digit (c.toNat - 'A'.toNat + 0) = c := digit_of_range (by decide) hupper.1 hupper.2
    exact ⟨by omega, hdigit⟩
  · obtain rfl := Option.some.inj h
    have hlast : c.toNat ≤ 'z'.toNat := hlower.2
    have hbound : 'z'.toNat - 'a'.toNat + 26 < 64 := by decide
    exact ⟨by omega, digit_of_range (by decide) hlower.1 hlower.2⟩
  · obtain rfl := Option.some.inj h
    have hlast : c.toNat ≤ '9'.toNat := hnumber.2
    have hbound : '9'.toNat - '0'.toNat + 52 < 64 := by decide
    exact ⟨by omega, digit_of_range (by decide) hnumber.1 hnumber.2⟩
  · obtain rfl := Option.some.inj h
    exact ⟨by decide, hplus.symm ▸ by decide⟩
  · obtain rfl := Option.some.inj h
    exact ⟨by decide, hslash.symm ▸ by decide⟩

/-! ## The bits of the buffer -/

theorem toNat_pushSextet (buf : UInt32) {v : Nat} (h : v < 64) :
    (pushSextet buf v).toNat = (buf.toNat * 64 + v) % 2 ^ 32 := by
  have hv : (UInt32.ofNat v).toNat = v := by
    rw [UInt32.toNat_ofNat']
    omega
  have hsix : (6 : UInt32).toNat % 32 = 6 := rfl
  have hkept : buf.toNat * 2 ^ 6 % 2 ^ 32 = (buf.toNat % 2 ^ 26) <<< 6 := by
    rw [Nat.shiftLeft_eq]
    omega
  rw [pushSextet, UInt32.toNat_or, UInt32.toNat_shiftLeft, hv, hsix, Nat.shiftLeft_eq, hkept,
    ← Nat.shiftLeft_add_eq_or_of_lt h, Nat.shiftLeft_eq]
  omega

theorem octetAt_eq (buf : UInt32) {k : Nat} (hk : k < 8) : octetAt buf k = UInt8.ofNat (buf.toNat / 2 ^ k) := by
  apply UInt8.toNat_inj.mp
  have hshift : (UInt32.ofNat k).toNat % 32 = k := by
    rw [UInt32.toNat_ofNat']
    omega
  have hmask : (0xff : UInt32).toNat = 2 ^ 8 - 1 := rfl
  rw [octetAt, UInt32.toNat_toUInt8, UInt32.toNat_and, UInt32.toNat_shiftRight, hshift, hmask,
    Nat.and_two_pow_sub_one_eq_mod, Nat.shiftRight_eq_div_pow, UInt8.toNat_ofNat', Nat.mod_mod]

/-! ## The encoder -/

theorem first_sextet (b0 : UInt8) : alphaAt (b0 >>> 2) = digit (b0.toNat / 4) :=
  alphaAt_eq (toNat_high (k := 2) (by decide))

theorem second_sextet (b0 b1 : UInt8) :
    alphaAt (((b0 &&& 3) <<< 4) ||| (b1 >>> 4)) = digit (b0.toNat % 4 * 16 + b1.toNat / 16) := by
  have hlow : (b0 &&& 3).toNat = b0.toNat % 4 := toNat_low b0 (k := 2) (by decide)
  have hhigh : (b1 >>> 4).toNat = b1.toNat / 16 := toNat_high (k := 4) (by decide)
  have h1 := b1.toNat_lt
  rw [← hlow, ← hhigh]
  exact alphaAt_eq (toNat_join (k := 4) (by decide) (by omega) (by omega))

theorem third_sextet (b1 b2 : UInt8) :
    alphaAt (((b1 &&& 15) <<< 2) ||| (b2 >>> 6)) = digit (b1.toNat % 16 * 4 + b2.toNat / 64) := by
  have hlow : (b1 &&& 15).toNat = b1.toNat % 16 := toNat_low b1 (k := 4) (by decide)
  have hhigh : (b2 >>> 6).toNat = b2.toNat / 64 := toNat_high (k := 6) (by decide)
  have h2 := b2.toNat_lt
  rw [← hlow, ← hhigh]
  exact alphaAt_eq (toNat_join (k := 2) (by decide) (by omega) (by omega))

theorem fourth_sextet (b2 : UInt8) : alphaAt (b2 &&& 63) = digit (b2.toNat % 64) :=
  alphaAt_eq (toNat_low b2 (k := 6) (by decide))

/-- How many `=` follow so many digits. -/
def padding (digits : Nat) : Nat := (4 - digits % 4) % 4

/-- **The encoder** writes the digits of the sextets, and fills the last quantum up. -/
theorem toList_base64Encode (b : Bytes) :
    (base64Encode b).toList = (sextets b).map digit ++ List.replicate (padding (sextets b).length) '=' := by
  rw [base64Encode, String.toList_ofList]
  induction b using sextets.induct with
  | case1 b0 b1 b2 rest ih =>
      have hchunks : chunksOf 3 (b0 :: b1 :: b2 :: rest) = [b0, b1, b2] :: chunksOf 3 rest :=
        chunksOf_of_ne_nil (by decide) (List.cons_ne_nil _ _)
      -- four more sextets ask for the same padding
      have hpadding : padding (sextets (b0 :: b1 :: b2 :: rest)).length = padding (sextets rest).length := by
        simp only [sextets, List.length_cons, padding]
        omega
      have hchunk : encodeChunk [b0, b1, b2] = [digit (b0.toNat / 4), digit (b0.toNat % 4 * 16 + b1.toNat / 16),
          digit (b1.toNat % 16 * 4 + b2.toNat / 64), digit (b2.toNat % 64)] := by
        rw [← first_sextet, ← second_sextet, ← third_sextet, ← fourth_sextet]
        rfl
      rw [hchunks, List.flatMap_cons, ih, hpadding, hchunk]
      rfl
  | case2 b0 b1 =>
      have hchunk : encodeChunk [b0, b1] = [digit (b0.toNat / 4), digit (b0.toNat % 4 * 16 + b1.toNat / 16),
          digit (b1.toNat % 16 * 4), '='] := by
        -- the octets that are missing count as zero
        have hthird := third_sextet b1 0
        simp only [UInt8.toNat_zero, Nat.zero_div, Nat.add_zero] at hthird
        rw [← first_sextet, ← second_sextet, ← hthird]
        rfl
      have hchunks : (chunksOf 3 [b0, b1]).flatMap encodeChunk = encodeChunk [b0, b1] := List.append_nil _
      rw [hchunks, hchunk]
      rfl
  | case3 b0 =>
      have hchunk : encodeChunk [b0] = [digit (b0.toNat / 4), digit (b0.toNat % 4 * 16), '=', '='] := by
        have hsecond := second_sextet b0 0
        simp only [UInt8.toNat_zero, Nat.zero_div, Nat.add_zero] at hsecond
        rw [← first_sextet, ← hsecond]
        rfl
      have hchunks : (chunksOf 3 [b0]).flatMap encodeChunk = encodeChunk [b0] := List.append_nil _
      rw [hchunks, hchunk]
      rfl
  | case4 => rfl

/-! ## The decoder -/

/-! One turn of the loop, by the bits that wait in the buffer. -/

theorem feed_zero (buf : UInt32) (out : Bytes) (v : Nat) :
    Base64Loop.feed ⟨buf, 0, out⟩ v = ⟨pushSextet buf v, 6, out⟩ := rfl

theorem feed_six (buf : UInt32) (out : Bytes) (v : Nat) :
    Base64Loop.feed ⟨buf, 6, out⟩ v = ⟨pushSextet buf v, 4, out ++ [octetAt (pushSextet buf v) 4]⟩ := rfl

theorem feed_four (buf : UInt32) (out : Bytes) (v : Nat) :
    Base64Loop.feed ⟨buf, 4, out⟩ v = ⟨pushSextet buf v, 2, out ++ [octetAt (pushSextet buf v) 2]⟩ := rfl

theorem feed_two (buf : UInt32) (out : Bytes) (v : Nat) :
    Base64Loop.feed ⟨buf, 2, out⟩ v = ⟨pushSextet buf v, 0, out ++ [octetAt (pushSextet buf v) 0]⟩ := rfl

/-- **Whole octets come out of the buffer**, whatever the bits before them were. -/
theorem out_foldl_feed (vs : List Nat) (hlt : ∀ v ∈ vs, v < 64) (buf : UInt32) (out : Bytes) :
    (vs.foldl Base64Loop.feed ⟨buf, 0, out⟩).out = out ++ octets vs := by
  -- the octets that stand at bits 4, 2 and 0 after two, three and four sextets
  have hfirst : ∀ buf v0 v1, v0 < 64 → v1 < 64 →
      octetAt (pushSextet (pushSextet buf v0) v1) 4 = UInt8.ofNat (v0 * 4 + v1 / 16) := by
    intro buf v0 v1 h0 h1
    rw [octetAt_eq _ (by decide), toNat_pushSextet _ h1, toNat_pushSextet _ h0]
    apply UInt8.toNat_inj.mp
    rw [UInt8.toNat_ofNat', UInt8.toNat_ofNat']
    omega
  have hsecond : ∀ buf v1 v2, v1 < 64 → v2 < 64 →
      octetAt (pushSextet (pushSextet buf v1) v2) 2 = UInt8.ofNat (v1 % 16 * 16 + v2 / 4) := by
    intro buf v1 v2 h1 h2
    rw [octetAt_eq _ (by decide), toNat_pushSextet _ h2, toNat_pushSextet _ h1]
    apply UInt8.toNat_inj.mp
    rw [UInt8.toNat_ofNat', UInt8.toNat_ofNat']
    omega
  have hthird : ∀ buf v2 v3, v2 < 64 → v3 < 64 →
      octetAt (pushSextet (pushSextet buf v2) v3) 0 = UInt8.ofNat (v2 % 4 * 64 + v3) := by
    intro buf v2 v3 h2 h3
    rw [octetAt_eq _ (by decide), toNat_pushSextet _ h3, toNat_pushSextet _ h2]
    apply UInt8.toNat_inj.mp
    rw [UInt8.toNat_ofNat', UInt8.toNat_ofNat']
    omega
  induction vs using octets.induct generalizing buf out with
  | case1 v0 v1 v2 v3 rest ih =>
      simp only [List.mem_cons, forall_eq_or_imp] at hlt
      obtain ⟨h0, h1, h2, h3, hrest⟩ := hlt
      simp only [List.foldl_cons, feed_zero, feed_six, feed_four, feed_two]
      rw [ih hrest, hfirst _ _ _ h0 h1, hsecond _ _ _ h1 h2, hthird _ _ _ h2 h3, List.append_assoc, List.append_assoc,
        List.append_assoc]
      rfl
  | case2 v0 v1 v2 =>
      simp only [List.mem_cons, List.not_mem_nil, or_false, forall_eq_or_imp, forall_eq] at hlt
      obtain ⟨h0, h1, h2⟩ := hlt
      simp only [List.foldl_cons, List.foldl_nil, feed_zero, feed_six, feed_four]
      rw [hfirst _ _ _ h0 h1, hsecond _ _ _ h1 h2, List.append_assoc]
      rfl
  | case3 v0 v1 =>
      simp only [List.mem_cons, List.not_mem_nil, or_false, forall_eq_or_imp, forall_eq] at hlt
      obtain ⟨h0, h1⟩ := hlt
      simp only [List.foldl_cons, List.foldl_nil, feed_zero, feed_six]
      rw [hfirst _ _ _ h0 h1]
      rfl
  | case4 vs hfour hthree htwo =>
      rcases at_most_one hfour hthree htwo with rfl | ⟨v, rfl⟩
      · exact (List.append_nil out).symm
      · exact (List.append_nil out).symm

variable {debugChar : Char → String}

theorem foldlM_readChar_digits (vs : List Nat) (hlt : ∀ v ∈ vs, v < 64) (st : Base64Loop) :
    (vs.map digit).foldlM (readChar debugChar) st = .ok (vs.foldl Base64Loop.feed st) := by
  induction vs generalizing st with
  | nil => rfl
  | cons v vs ih =>
      have hread : readChar debugChar st (digit v) = .ok (st.feed v) := by
        rw [readChar, sextetOf_digit (hlt v List.mem_cons_self)]
      rw [List.map_cons, List.foldlM_cons, hread, List.foldl_cons, ← ih fun w hw => hlt w (List.mem_cons_of_mem _ hw)]
      rfl

/-- The loop gets to the end only over digits. -/
theorem digits_of_foldlM {chars : List Char} {st st' : Base64Loop} (h : chars.foldlM (readChar debugChar) st = .ok st') :
    ∃ vs : List Nat, (∀ v ∈ vs, v < 64) ∧ chars = vs.map digit := by
  induction chars generalizing st with
  | nil => exact ⟨[], fun v hv => absurd hv List.not_mem_nil, rfl⟩
  | cons c chars ih =>
      rw [List.foldlM_cons] at h
      obtain ⟨next, hnext, hrest⟩ := except_bind_eq_ok.mp h
      obtain ⟨vs, hlt, rfl⟩ := ih hrest
      unfold readChar at hnext
      split at hnext
      · next v hv =>
        obtain ⟨hv64, hdigit⟩ := digit_sextetOf hv
        refine ⟨v :: vs, ?_, by rw [List.map_cons, hdigit]⟩
        rintro w (_ | ⟨_, hw⟩)
        · exact hv64
        · exact hlt w hw
      · exact absurd hnext (by simp)

/-- **What the decoder accepts**: digits, then any number of `=`; it returns their whole octets. -/
theorem base64Decode_eq_ok_iff {input : String} {out : Bytes} :
    base64Decode debugChar input = .ok out ↔
      ∃ vs : List Nat, (∀ v ∈ vs, v < 64) ∧ trimmed input = vs.map digit ∧ out = octets vs := by
  unfold base64Decode
  constructor
  · intro h
    cases hloop : (trimmed input).foldlM (readChar debugChar) ⟨0, 0, []⟩ with
    | error e => rw [hloop] at h; exact absurd h (by simp [Except.map])
    | ok st =>
        rw [hloop] at h
        obtain ⟨vs, hlt, hchars⟩ := digits_of_foldlM hloop
        rw [hchars, foldlM_readChar_digits vs hlt] at hloop
        refine ⟨vs, hlt, hchars, ?_⟩
        rw [← Except.ok.inj h, ← Except.ok.inj hloop, out_foldl_feed vs hlt, List.nil_append]
  · rintro ⟨vs, hlt, hchars, rfl⟩
    rw [hchars, foldlM_readChar_digits vs hlt]
    exact congrArg Except.ok (out_foldl_feed vs hlt 0 [])

/-! ## Trimming -/

/-- What is trimmed is a run of `=`. -/
theorem toList_eq_trimmed (input : String) : ∃ pads, input.toList = trimmed input ++ List.replicate pads '=' := by
  refine ⟨(input.toList.rtakeWhile (· == '=')).length, ?_⟩
  have hpads : input.toList.rtakeWhile (· == '=') =
      List.replicate (input.toList.rtakeWhile (· == '=')).length '=' :=
    List.eq_replicate_iff.mpr ⟨rfl, fun c hc => beq_iff_eq.mp (List.mem_rtakeWhile_imp (p := fun c => c == '=') hc)⟩
  rw [← hpads, trimmed, List.rdropWhile_append_rtakeWhile]

/-- Digits are not trimmed. -/
theorem trimmed_of_digits {input : String} {vs : List Nat} {pads : Nat} (hlt : ∀ v ∈ vs, v < 64)
    (h : input.toList = vs.map digit ++ List.replicate pads '=') : trimmed input = vs.map digit := by
  rw [trimmed, h]
  clear h
  induction pads with
  | zero =>
      rw [List.replicate_zero, List.append_nil, List.rdropWhile_eq_self_iff]
      intro hne hlast
      obtain ⟨v, hv, hdigit⟩ := List.mem_map.mp (List.getLast_mem hne)
      exact digit_ne_pad (hlt v hv) (hdigit.trans (beq_iff_eq.mp hlast))
  | succ pads ih =>
      rw [List.replicate_succ', ← List.append_assoc, List.rdropWhile_concat_pos _ _ _ (by rfl), ih]

theorem trimmed_base64Encode (b : Bytes) : trimmed (base64Encode b) = (sextets b).map digit :=
  trimmed_of_digits (sextets_lt b) (toList_base64Encode b)

/-! ## Exactness -/

/-- The value of the last character before the `=`. -/
def lastSextet (input : String) : Nat := ((trimmed input).getLast?.bind sextetOf).getD 0

/-- **Canonical padding**: whole quanta of four characters, at most two `=`, and no unused bit set. -/
structure CanonicalText (input : String) : Prop where
  quanta : input.length % 4 = 0
  pads : input.length ≤ (trimmed input).length + 2
  fourUnused : (trimmed input).length % 4 = 2 → lastSextet input % 16 = 0
  twoUnused : (trimmed input).length % 4 = 3 → lastSextet input % 4 = 0

theorem lastSextet_of_digits {input : String} {vs : List Nat} (hlt : ∀ v ∈ vs, v < 64)
    (h : trimmed input = vs.map digit) : lastSextet input = vs.getLast?.getD 0 := by
  rw [lastSextet, h, List.getLast?_map]
  cases hlast : vs.getLast? with
  | none => rfl
  | some v =>
      have hv : v < 64 := hlt v (List.mem_of_getLast? hlast)
      rw [Option.map_some, Option.bind_some, sextetOf_digit hv]

/-- **Canonical text is what the encoder writes**, of digits. -/
theorem canonicalText_iff {input : String} {vs : List Nat} (hlt : ∀ v ∈ vs, v < 64)
    (h : trimmed input = vs.map digit) : CanonicalText input ↔ ∃ b, input = base64Encode b := by
  obtain ⟨pads, hpads⟩ := toList_eq_trimmed input
  have hlength : input.length = vs.length + pads := by
    rw [← String.length_toList, hpads, h, List.length_append, List.length_map, List.length_replicate]
  have htrimmed : (trimmed input).length = vs.length := by rw [h, List.length_map]
  have hlast := lastSextet_of_digits hlt h
  constructor
  · rintro ⟨hquanta, hfew, hfour, htwo⟩
    rw [hlength] at hquanta hfew
    rw [htrimmed] at hfew hfour htwo
    rw [hlast] at hfour htwo
    -- whole quanta, few pads and unused bits that are zero: the text is that of its octets
    have hcanonical : Canonical vs := (canonical_iff vs).mpr ⟨by omega, hfour, htwo⟩
    have hpadding : pads = padding vs.length := by
      unfold padding
      omega
    refine ⟨octets vs, String.ext ?_⟩
    rw [toList_base64Encode, sextets_octets vs hlt hcanonical, hpads, h, hpadding]
  · rintro ⟨b, rfl⟩
    -- a text that was encoded has the sextets of its octets
    have hvs : (sextets b).map digit = vs.map digit := (trimmed_base64Encode b).symm.trans h
    have hsame : (sextets b).length = vs.length := by
      rw [← List.length_map (f := digit), hvs, List.length_map]
    have hwhole : (base64Encode b).length = vs.length + padding vs.length := by
      rw [← String.length_toList, toList_base64Encode, List.length_append, List.length_map, List.length_replicate, hsame]
    have hlast' : (sextets b).getLast?.getD 0 = vs.getLast?.getD 0 :=
      (lastSextet_of_digits (sextets_lt b) (trimmed_base64Encode b)).symm.trans hlast
    obtain ⟨hone, hfour, htwo⟩ := (canonical_iff _).mp (canonical_sextets b)
    rw [hsame] at hone hfour htwo
    rw [hlast'] at hfour htwo
    refine ⟨?_, ?_, ?_, ?_⟩
    · rw [hwhole, padding]
      omega
    · rw [hwhole, htrimmed, padding]
      omega
    · rw [htrimmed, hlast]
      exact hfour
    · rw [htrimmed, hlast]
      exact htwo

/-- The characters before the `=` are digits, or one of them is outside the alphabet. -/
theorem digits_or_invalid (chars : List Char) :
    (∃ vs : List Nat, (∀ v ∈ vs, v < 64) ∧ chars = vs.map digit) ∨ ∃ c ∈ chars, sextetOf c = none := by
  induction chars with
  | nil => exact Or.inl ⟨[], fun v hv => absurd hv List.not_mem_nil, rfl⟩
  | cons c chars ih =>
      cases hc : sextetOf c with
      | none => exact Or.inr ⟨c, List.mem_cons_self, hc⟩
      | some v =>
          obtain ⟨hv, hdigit⟩ := digit_sextetOf hc
          rcases ih with ⟨vs, hlt, rfl⟩ | ⟨d, hd, hinvalid⟩
          · refine Or.inl ⟨v :: vs, ?_, by rw [List.map_cons, hdigit]⟩
            rintro w (_ | ⟨_, hw⟩)
            · exact hv
            · exact hlt w hw
          · exact Or.inr ⟨d, List.mem_cons_of_mem c hd, hinvalid⟩

/-- **Base64 of manifest payloads.** Every byte string comes back out of its encoding. A string that the decoder accepts is
one the encoder produces exactly if it holds a character outside the alphabet, so that it is not accepted, or is padded
canonically. -/
theorem base64_exact_iff (debugChar : Char → String) (b : Bytes) (input : String) :
    base64Decode debugChar (base64Encode b) = .ok b ∧
      (((∃ out, base64Decode debugChar input = .ok out) → ∃ b', input = base64Encode b') ↔
        (∃ c ∈ trimmed input, sextetOf c = none) ∨ CanonicalText input) := by
  refine ⟨?_, ?_⟩
  · exact base64Decode_eq_ok_iff.mpr ⟨sextets b, sextets_lt b, trimmed_base64Encode b, (octets_sextets b).symm⟩
  · constructor
    · intro h
      rcases digits_or_invalid (trimmed input) with ⟨vs, hlt, hdigits⟩ | hinvalid
      · -- the text is read, so it has to be that of its octets
        have hread : base64Decode debugChar input = .ok (octets vs) :=
          base64Decode_eq_ok_iff.mpr ⟨vs, hlt, hdigits, rfl⟩
        exact Or.inr ((canonicalText_iff hlt hdigits).mpr (h ⟨_, hread⟩))
      · exact Or.inl hinvalid
    · rintro hcondition ⟨out, hread⟩
      obtain ⟨vs, hlt, hdigits, -⟩ := base64Decode_eq_ok_iff.mp hread
      rcases hcondition with ⟨c, hc, hinvalid⟩ | hcanonical
      · rw [hdigits] at hc
        obtain ⟨v, hv, rfl⟩ := List.mem_map.mp hc
        rw [sextetOf_digit (hlt v hv)] at hinvalid
        exact absurd hinvalid (Option.some_ne_none v)
      · exact (canonicalText_iff hlt hdigits).mp hcanonical

/-- `"QR=="` reads as the octet of `"QQ=="`, and so does `"QQ"`, cut off before its padding. -/
theorem altered_payload_is_accepted : ¬ (∀ (debugChar : Char → String) (b : Bytes) (input : String),
    base64Decode debugChar (base64Encode b) = .ok b ∧
      ((∃ out, base64Decode debugChar input = .ok out) → ∃ b', input = base64Encode b')) := by
  intro h
  have hread : base64Decode Char.quote "QR==" = .ok [0x41] := by decide +kernel
  obtain ⟨b, hb⟩ := (h Char.quote [] "QR==").2 ⟨_, hread⟩
  have hback := (h Char.quote b "QR==").1
  rw [← hb, hread] at hback
  rw [← Except.ok.inj hback] at hb
  exact absurd hb (by decide +kernel)

end KChatCore.Transport
