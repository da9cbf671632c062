import Mathlib

/-!
# `Base` — bytes, machine integers, identifiers and errors

* `Bytes`, `ByteArr n` — `Vec<u8>` and `[u8; n]`.
* `wrapI64`, `satSubI64` — the two `i64` operations whose overflow behaviour the code can reach; every other
  `i64` value is an `Int`.
* `Uuid` — identifiers; `nowV7` draws the next one from the process's entropy, so no draw repeats.
* `IdText` — a TEXT column that is supposed to hold a UUID: what `Uuid::parse_str` makes of it is all that
  the code ever asks.
* `Error` — the crate's error type, with the variants the modelled functions build.
-/

namespace KChatCore

/-- `Vec<u8>`. -/
abbrev Bytes := List UInt8

/-- `[u8; n]`. -/
abbrev ByteArr (n : Nat) := List.Vector UInt8 n

/-- `[0u8; n]`. -/
def ByteArr.zeros (n : Nat) : ByteArr n := List.Vector.replicate n 0

/-- The bytes of a string: `str::as_bytes`. -/
def utf8 (s : String) : Bytes := s.toUTF8.data.toList

/-- The first `n` bytes (least significant first) of a number: `to_le_bytes`. -/
def leBytes (n v : Nat) : ByteArr n := List.Vector.ofFn fun i => UInt8.ofNat (v / 256 ^ i.val)

/-! ## Machine integers -/

/-- Two's-complement wrap-around of an `i64` result. -/
def wrapI64 (x : Int) : Int := Int.bmod x (2 ^ 64)

/-- `i64::saturating_sub`. -/
def satSubI64 (a b : Int) : Int := max (-(2 ^ 63)) (min (2 ^ 63 - 1) (a - b))

/-- `u64::MAX`. -/
def u64Max : Nat := 2 ^ 64 - 1

/-- `u32::MAX`. -/
def u32Max : Nat := 2 ^ 32 - 1

/-! ## Identifiers -/

/-- `uuid::Uuid`, as its 128-bit value. -/
structure Uuid where
  val : Nat
deriving DecidableEq, Repr

/-- What a TEXT column for an id holds: a UUID in text form, or something `Uuid::parse_str` rejects. -/
inductive IdText
  | uuid (u : Uuid)
  | malformed (s : String)
deriving DecidableEq, Repr

namespace Uuid

/-- `Uuid::nil()`. -/
def nil : Uuid := ⟨0⟩

/-- `Uuid::is_nil`. -/
def isNil (u : Uuid) : Bool := u.val == 0

/-- `Uuid::as_bytes`: sixteen bytes, most significant first. -/
def asBytes (u : Uuid) : Bytes := (leBytes 16 u.val).toList.reverse

/-- `Uuid::get_version_num`. -/
def getVersionNum (u : Uuid) : Nat := u.val / 2 ^ 76 % 16

/-- `Uuid::now_v7()`: version 7, RFC variant, and the draw counter in the remaining bits. -/
def nowV7 (drawn : Nat) : Uuid := ⟨drawn / 2 ^ 62 * 2 ^ 80 + 7 * 2 ^ 76 + 2 ^ 63 + drawn % 2 ^ 62⟩

/-- The two hex digits of a byte: `{:02x}`. -/
def hexByte (b : UInt8) : List Char := [Nat.digitChar (b.toNat / 16), Nat.digitChar (b.toNat % 16)]

/-- The hyphenated form, as messages show it. -/
def hyphenated (u : Uuid) : String :=
  let hex := u.asBytes.flatMap hexByte
  "-".intercalate ([hex.take 8, (hex.drop 8).take 4, (hex.drop 12).take 4, (hex.drop 16).take 4,
    hex.drop 20].map String.ofList)

/-- `Uuid::to_string` into a TEXT column. -/
def toText (u : Uuid) : IdText := .uuid u

/-- `Uuid::parse_str` on a TEXT column. -/
def parseStr : IdText → Option Uuid
  | .uuid u => some u
  | .malformed _ => none

@[simp] theorem parseStr_toText (u : Uuid) : parseStr u.toText = some u := rfl

@[simp] theorem toText_inj {u v : Uuid} : u.toText = v.toText ↔ u = v := by simp [toText]

/-- No draw of `now_v7` repeats. -/
theorem nowV7_injective : Function.Injective nowV7 := by
  intro a b h
  have hval := congrArg Uuid.val h
  simp only [nowV7] at hval
  omega

@[simp] theorem nowV7_inj {a b : Nat} : nowV7 a = nowV7 b ↔ a = b := nowV7_injective.eq_iff

end Uuid

/-- The nonce `rand::thread_rng().fill_bytes` leaves in the buffer. -/
def fillNonce (drawn : Nat) : ByteArr 24 := leBytes 24 drawn

/-! ## Errors -/

/-- `crypto::CryptoError`. -/
inductive CryptoError
  | aead (what : String)
  | kdf (what : String)
  | invalidInput (what : String)
  | frame (detail : String)
deriving DecidableEq, Repr

/-- `local_store::StorageError`; upstream error values are dropped. -/
inductive StorageError
  | custom (msg : String)
  | cborDecode (context : String)
  | zstd (context : String)
  | invalidId (kind : String)
  | subsystemNotInstalled (name : String)
deriving DecidableEq, Repr

/-- `message::MessageError`. -/
inductive MessageError
  | validation (field detail : String)
  | idempotencyClash (messageId : Uuid) (detail : String)
  | custom (msg : String)
deriving DecidableEq, Repr

/-- `transport::TransportError`. -/
inductive TransportError
  | network (msg : String)
  | custom (msg : String)
deriving DecidableEq, Repr

/-- The crate-wide `Error`. -/
inductive Error
  | crypto (e : CryptoError)
  | storage (e : StorageError)
  | message (e : MessageError)
  | transport (e : TransportError)
  | notImplemented (what : String)
deriving DecidableEq, Repr

/-- `Error::Storage("...".into())`. -/
def Error.storageMsg (msg : String) : Error := .storage (.custom msg)

/-! ## Peeling a fallible computation apart -/

theorem except_bind_eq_ok {ε α β : Type} {x : Except ε α} {f : α → Except ε β} {b : β} :
    (x >>= f) = .ok b ↔ ∃ a, x = .ok a ∧ f a = .ok b := by
  cases x with
  | error e => simp [bind, Except.bind]
  | ok a => simp [bind, Except.bind]

theorem except_bind_eq_error {ε α β : Type} {x : Except ε α} {f : α → Except ε β} {e : ε} :
    (x >>= f) = .error e ↔ x = .error e ∨ ∃ a, x = .ok a ∧ f a = .error e := by
  cases x with
  | error e => simp [bind, Except.bind]
  | ok a => simp [bind, Except.bind]

/-- `Option::ok_or`. -/
def okOr {α : Type} (o : Option α) (e : Error) : Except Error α :=
  match o with
  | some a => .ok a
  | none => .error e

@[simp] theorem okOr_some {α : Type} (a : α) (e : Error) : okOr (some a) e = .ok a := rfl

@[simp] theorem okOr_none {α : Type} (e : Error) : okOr (none : Option α) e = .error e := rfl

theorem okOr_eq_ok {α : Type} {o : Option α} {e : Error} {a : α} : okOr o e = .ok a ↔ o = some a := by
  cases o <;> simp

end KChatCore
