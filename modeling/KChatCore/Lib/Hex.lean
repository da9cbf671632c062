import Mathlib

/-!
# `Lib.Hex` — bytes as pairs of hex digits

`hexBytes` writes every byte as two lower-case digits. A reader is given by what it makes of one digit; one that takes the
digits of either case reads exactly the texts whose lower-case form was written.

* `readPairs_eq_ok_iff` — which texts are read, and as what.
-/

namespace KChatCore.Lib

/-- `u8::to_ascii_lowercase`. -/
def asciiLower (b : UInt8) : UInt8 := if 0x41 ≤ b ∧ b ≤ 0x5a then b + 0x20 else b

/-- The lower-case digit of a number below sixteen. -/
def hexDigit (n : ℕ) : UInt8 := UInt8.ofNat (Nat.digitChar n).toNat

/-- The digits of some bytes. -/
def hexBytes (bytes : List UInt8) : List UInt8 := bytes.flatMap fun b => [hexDigit (b.toNat / 16), hexDigit (b.toNat % 16)]

/-- The digits as a text. -/
def hexText (bytes : List UInt8) : String :=
  String.ofList (bytes.flatMap fun b => [Nat.digitChar (b.toNat / 16), Nat.digitChar (b.toNat % 16)])

/-- The value of a digit of either case. -/
def nibbleOfDigit (b : UInt8) : Option UInt8 :=
  if 0x30 ≤ b ∧ b ≤ 0x39 then some (b - 0x30)
  else if 0x61 ≤ b ∧ b ≤ 0x66 then some (b - 0x61 + 10)
  else if 0x41 ≤ b ∧ b ≤ 0x46 then some (b - 0x41 + 10)
  else none

/-- Two digits a byte; the first digit that is none ends the reading. -/
def readPairs {ε : Type} (nibble : UInt8 → Except ε UInt8) : List UInt8 → Except ε (List UInt8)
  | high :: low :: rest => do
      let hi ← nibble high
      let lo ← nibble low
      let bytes ← readPairs nibble rest
      return ((hi <<< 4) ||| lo) :: bytes
  | _ => .ok []

theorem utf8EncodeChar_digitChar_fin : ∀ n : Fin 16, String.utf8EncodeChar (Nat.digitChar n.val) = [hexDigit n.val] := by
  decide +kernel

/-- Every digit is one byte of the text. -/
theorem toUTF8_hexText (bytes : List UInt8) : (hexText bytes).toUTF8.data.toList = hexBytes bytes := by
  have hdigit : ∀ n < 16, String.utf8EncodeChar (Nat.digitChar n) = [hexDigit n] :=
    fun n hn => utf8EncodeChar_digitChar_fin ⟨n, hn⟩
  rw [String.toUTF8_eq_toByteArray, ← String.utf8Encode_toList, hexText, String.toList_ofList, List.utf8Encode,
    List.toList_data_toByteArray, List.flatMap_assoc]
  refine List.flatMap_congr fun b _ => ?_
  have hb := b.toNat_lt
  rw [List.flatMap_cons, List.flatMap_singleton, hdigit _ (by omega), hdigit _ (by omega)]
  rfl

theorem nibbleOfDigit_eq_some_iff_fin : ∀ b : Fin 256, ∀ v : Fin 16,
    nibbleOfDigit (UInt8.ofNat b.val) = some (UInt8.ofNat v.val) ↔ asciiLower (UInt8.ofNat b.val) = hexDigit v.val := by
  decide +kernel

theorem nibbleOfDigit_lt_fin : ∀ b : Fin 256, ∀ v ∈ nibbleOfDigit (UInt8.ofNat b.val), v.toNat < 16 := by decide +kernel

theorem nibbleOfDigit_lt {b v : UInt8} (h : nibbleOfDigit b = some v) : v.toNat < 16 := by
  have hfin := nibbleOfDigit_lt_fin ⟨b.toNat, b.toNat_lt⟩ v
  rw [UInt8.ofNat_toNat] at hfin
  exact hfin h

/-- A digit is read as the number it is the digit of. -/
theorem nibbleOfDigit_eq_some_iff {b : UInt8} {n : ℕ} (hn : n < 16) :
    nibbleOfDigit b = some (UInt8.ofNat n) ↔ asciiLower b = hexDigit n := by
  have hfin := nibbleOfDigit_eq_some_iff_fin ⟨b.toNat, b.toNat_lt⟩ ⟨n, hn⟩
  rwa [UInt8.ofNat_toNat] at hfin

/-- The byte of two numbers below sixteen, and the numbers of a byte. -/
theorem shiftLeft_or_fin : ∀ hi lo : Fin 16, ((UInt8.ofNat hi.val <<< 4) ||| UInt8.ofNat lo.val).toNat = 16 * hi.val + lo.val := by
  decide +kernel

theorem shiftLeft_or {hi lo : ℕ} (hhi : hi < 16) (hlo : lo < 16) :
    ((UInt8.ofNat hi <<< 4) ||| UInt8.ofNat lo).toNat = 16 * hi + lo :=
  shiftLeft_or_fin ⟨hi, hhi⟩ ⟨lo, hlo⟩

/-- A digit reader that takes the digits of either case, and nothing else. -/
def ReadsDigits {ε : Type} (nibble : UInt8 → Except ε UInt8) : Prop := ∀ b v, nibble b = .ok v ↔ nibbleOfDigit b = some v

section Reader

variable {ε : Type} {nibble : UInt8 → Except ε UInt8}

/-- A pair is read as the byte whose digits it is. -/
theorem ReadsDigits.pair_iff (h : ReadsDigits nibble) {high low b : UInt8} :
    (∃ hi lo, nibble high = .ok hi ∧ nibble low = .ok lo ∧ (hi <<< 4) ||| lo = b) ↔
      asciiLower high = hexDigit (b.toNat / 16) ∧ asciiLower low = hexDigit (b.toNat % 16) := by
  have hb := b.toNat_lt
  rw [← nibbleOfDigit_eq_some_iff (by omega), ← nibbleOfDigit_eq_some_iff (by omega)]
  constructor
  · rintro ⟨hi, lo, hhi, hlo, rfl⟩
    rw [h] at hhi hlo
    have hvalue := shiftLeft_or (nibbleOfDigit_lt hhi) (nibbleOfDigit_lt hlo)
    rw [UInt8.ofNat_toNat, UInt8.ofNat_toNat] at hvalue
    have hlt := nibbleOfDigit_lt hlo
    rw [hhi, hlo, hvalue, show (16 * hi.toNat + lo.toNat) / 16 = hi.toNat by omega,
      show (16 * hi.toNat + lo.toNat) % 16 = lo.toNat by omega, UInt8.ofNat_toNat, UInt8.ofNat_toNat]
    exact ⟨rfl, rfl⟩
  · rintro ⟨hhi, hlo⟩
    refine ⟨_, _, (h _ _).mpr hhi, (h _ _).mpr hlo, UInt8.toNat_inj.mp ?_⟩
    rw [shiftLeft_or (by omega) (by omega)]
    omega

theorem readPairs_cons_eq_ok {high low b : UInt8} {rest bytes : List UInt8} :
    readPairs nibble (high :: low :: rest) = .ok (b :: bytes) ↔
      (∃ hi lo, nibble high = .ok hi ∧ nibble low = .ok lo ∧ (hi <<< 4) ||| lo = b) ∧ readPairs nibble rest = .ok bytes := by
  cases hhi : nibble high with
  | error e => simp [readPairs, hhi, bind, Except.bind]
  | ok hi =>
      cases hlo : nibble low with
      | error e => simp [readPairs, hhi, hlo, bind, Except.bind]
      | ok lo =>
          cases hrest : readPairs nibble rest <;> simp [readPairs, hhi, hlo, hrest, bind, Except.bind, pure, Except.pure]

theorem length_of_readPairs {text bytes : List UInt8} (hread : readPairs nibble text = .ok bytes) :
    bytes.length = text.length / 2 := by
  induction text using readPairs.induct generalizing bytes with
  | case1 high low rest ih =>
      cases bytes with
      | nil =>
          cases hhi : nibble high <;> cases hlo : nibble low <;> cases hrest : readPairs nibble rest <;>
            simp [readPairs, hhi, hlo, hrest, bind, Except.bind, pure, Except.pure] at hread
      | cons b bytes =>
          have := ih (readPairs_cons_eq_ok.mp hread).2
          simp only [List.length_cons]
          omega
  | case2 text hshort =>
      rw [readPairs.eq_2 nibble text hshort] at hread
      obtain rfl := Except.ok.inj hread
      match text, hshort with
      | [], _ => rfl
      | [_], _ => simp
      | high :: low :: rest, hshort => exact absurd rfl (hshort high low rest)

/-- **Which texts are read**: those whose lower-case form was written. -/
theorem readPairs_eq_ok_iff (h : ReadsDigits nibble) {text bytes : List UInt8} :
    text.length = bytes.length * 2 ∧ readPairs nibble text = .ok bytes ↔ text.map asciiLower = hexBytes bytes := by
  induction text using readPairs.induct generalizing bytes with
  | case1 high low rest ih =>
      cases bytes with
      | nil => simp [hexBytes]
      | cons b bytes =>
          have hrest := @ih bytes
          have hlength : (high :: low :: rest).length = (b :: bytes).length * 2 ↔ rest.length = bytes.length * 2 := by
            simp only [List.length_cons]
            omega
          rw [readPairs_cons_eq_ok, h.pair_iff, hlength, and_left_comm, hrest]
          simp [hexBytes, and_assoc]
  | case2 text hshort =>
      -- a text too short for a pair is no text of a byte
      have htext : text.length < 2 := by
        match text, hshort with
        | [], _ => simp
        | [_], _ => simp
        | high :: low :: rest, hshort => exact absurd rfl (hshort high low rest)
      cases bytes with
      | nil =>
          have hread : readPairs nibble text = .ok [] := readPairs.eq_2 nibble text hshort
          simp [hread, hexBytes, List.length_eq_zero_iff]
      | cons b bytes =>
          constructor
          · rintro ⟨hlength, -⟩
            simp only [List.length_cons] at hlength
            omega
          · intro heq
            have := congrArg List.length heq
            simp [hexBytes] at this
            omega

end Reader

theorem asciiLower_hexDigit_fin : ∀ n : Fin 16, asciiLower (hexDigit n.val) = hexDigit n.val := by decide +kernel

/-- What was written is in lower case. -/
theorem map_asciiLower_hexBytes (bytes : List UInt8) : (hexBytes bytes).map asciiLower = hexBytes bytes := by
  have hdigit : ∀ n < 16, asciiLower (hexDigit n) = hexDigit n := fun n hn => asciiLower_hexDigit_fin ⟨n, hn⟩
  induction bytes with
  | nil => rfl
  | cons b bytes ih =>
      have hb := b.toNat_lt
      simp only [hexBytes, List.flatMap_cons, List.map_append, List.map_cons, List.map_nil] at ih ⊢
      rw [ih, hdigit _ (by omega), hdigit _ (by omega)]

/-- What was written is read back. -/
theorem readPairs_hexBytes {ε : Type} {nibble : UInt8 → Except ε UInt8} (h : ReadsDigits nibble) (bytes : List UInt8) :
    (hexBytes bytes).length = bytes.length * 2 ∧ readPairs nibble (hexBytes bytes) = .ok bytes :=
  (readPairs_eq_ok_iff h).mpr (map_asciiLower_hexBytes bytes)

end KChatCore.Lib
