import Mathlib

/-!
# `Lib.Codec` — byte codecs with a round trip

A `Codec α` writes a value as bytes and reads it back; reading what was written gives the value. A
`PrefixCodec α` also leaves whatever follows the value untouched, so prefix codecs compose: numbers, lists,
pairs and every record that is isomorphic to one of those. A prefix codec is a codec that, as a strict
reader does, refuses trailing bytes.
-/

namespace KChatCore.Lib

universe u v

/-- **A codec**: `decode` reads back what `encode` writes. -/
structure Codec (α : Type u) where
  encode : α → List UInt8
  decode : List UInt8 → Option α
  decode_encode : ∀ a, decode (encode a) = some a

attribute [simp] Codec.decode_encode

theorem Codec.encode_injective {α : Type u} (c : Codec α) : Function.Injective c.encode := by
  intro a b h
  have hdec := congrArg c.decode h
  simpa using hdec

/-- **A prefix codec**: reading stops exactly where writing did. -/
structure PrefixCodec (α : Type u) where
  enc : α → List UInt8
  dec : List UInt8 → Option (α × List UInt8)
  dec_enc : ∀ a rest, dec (enc a ++ rest) = some (a, rest)

namespace PrefixCodec

variable {α : Type u} {β : Type v}

/-- Read one value and nothing after it. -/
def strict (c : PrefixCodec α) (bs : List UInt8) : Option α :=
  match c.dec bs with
  | some (a, []) => some a
  | _ => none

/-- A prefix codec read strictly. -/
def toCodec (c : PrefixCodec α) : Codec α where
  encode := c.enc
  decode := c.strict
  decode_encode a := by
    have h := c.dec_enc a []
    rw [List.append_nil] at h
    simp [strict, h]

/-! ## Building codecs -/

/-- One byte. -/
def byte : PrefixCodec UInt8 where
  enc b := [b]
  dec
    | b :: rest => some (b, rest)
    | [] => none
  dec_enc _ _ := rfl

/-- A value carried as another one. -/
def iso (c : PrefixCodec α) (f : β → α) (g : α → β) (hgf : ∀ b, g (f b) = b) : PrefixCodec β where
  enc b := c.enc (f b)
  dec bs := (c.dec bs).map fun p => (g p.1, p.2)
  dec_enc b rest := by simp [c.dec_enc, hgf]

/-- One value after another. -/
def prod (c : PrefixCodec α) (d : PrefixCodec β) : PrefixCodec (α × β) where
  enc p := c.enc p.1 ++ d.enc p.2
  dec bs := (c.dec bs).bind fun p => (d.dec p.2).map fun q => ((p.1, q.1), q.2)
  dec_enc p rest := by simp [List.append_assoc, c.dec_enc, d.dec_enc]

/-- The byte that ends a number. -/
def stop : UInt8 := 255

/-- A number, least significant digit first in base 255, ended by `stop`. -/
def natEnc (n : Nat) : List UInt8 := (Nat.digits 255 n).map UInt8.ofNat ++ [stop]

/-- Read digits up to `stop`. -/
def natDec : List UInt8 → Option (Nat × List UInt8)
  | [] => none
  | b :: bs =>
      if b = stop then some (0, bs)
      else (natDec bs).map fun p => (b.toNat + 255 * p.1, p.2)

theorem natDec_digits (ds : List Nat) (h : ∀ d ∈ ds, d < 255) (rest : List UInt8) :
    natDec (ds.map UInt8.ofNat ++ stop :: rest) = some (Nat.ofDigits 255 ds, rest) := by
  induction ds with
  | nil => simp [natDec]
  | cons d ds ih =>
      have hd : d < 255 := h d (by simp)
      have hval : (UInt8.ofNat d).toNat = d := by
        rw [UInt8.toNat_ofNat']
        omega
      have hne : UInt8.ofNat d ≠ stop := by
        intro heq
        have := congrArg UInt8.toNat heq
        rw [hval] at this
        exact absurd this (by simp [stop]; omega)
      simp only [List.map_cons, List.cons_append, natDec, if_neg hne]
      rw [ih fun d' hd' => h d' (by simp [hd']), Option.map_some, hval, Nat.ofDigits_cons]

/-- A number. -/
def nat : PrefixCodec Nat where
  enc := natEnc
  dec := natDec
  dec_enc n rest := by
    have hdig := natDec_digits (Nat.digits 255 n) (fun d hd => Nat.digits_lt_base (by norm_num) hd) rest
    rw [natEnc, List.append_assoc, List.singleton_append, hdig, Nat.ofDigits_digits]

/-- Read `n` values. -/
def decN (c : PrefixCodec α) : Nat → List UInt8 → Option (List α × List UInt8)
  | 0, bs => some ([], bs)
  | n + 1, bs => (c.dec bs).bind fun p => (c.decN n p.2).map fun q => (p.1 :: q.1, q.2)

theorem decN_flatMap (c : PrefixCodec α) (l : List α) (rest : List UInt8) :
    c.decN l.length (l.flatMap c.enc ++ rest) = some (l, rest) := by
  induction l with
  | nil => rfl
  | cons a l ih => simp [decN, List.append_assoc, c.dec_enc, ih]

/-- A list, with its length in front. -/
def list (c : PrefixCodec α) : PrefixCodec (List α) where
  enc l := nat.enc l.length ++ l.flatMap c.enc
  dec bs := (nat.dec bs).bind fun p => c.decN p.1 p.2
  dec_enc l rest := by simp [List.append_assoc, nat.dec_enc, decN_flatMap]

/-- A byte string. -/
def bytes : PrefixCodec (List UInt8) := list byte

/-- A byte array of fixed length, which needs no length in front. -/
def array (n : Nat) : PrefixCodec (List.Vector UInt8 n) where
  enc v := v.toList.flatMap byte.enc
  dec bs := (byte.decN n bs).bind fun p => if h : p.1.length = n then some (⟨p.1, h⟩, p.2) else none
  dec_enc v rest := by
    obtain ⟨l, rfl⟩ := v
    have h := decN_flatMap byte l rest
    simp only [List.Vector.toList]
    rw [h]
    simp

/-- A signed number. -/
def int : PrefixCodec Int := nat.iso Equiv.intEquivNat Equiv.intEquivNat.symm (by simp)

/-- An optional value, as a list of at most one. -/
def option (c : PrefixCodec α) : PrefixCodec (Option α) :=
  (list c).iso Option.toList List.head? (by intro o; cases o <;> rfl)

/-- A string, as its code points. -/
def string : PrefixCodec String :=
  (list (nat.iso Char.toNat Char.ofNat Char.ofNat_toNat)).iso String.toList String.ofList
    (fun _ => String.ofList_toList)

end PrefixCodec

end KChatCore.Lib
