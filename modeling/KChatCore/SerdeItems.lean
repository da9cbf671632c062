import KChatCore.Base
import KChatCore.Lib.Cbor

/-!
# `SerdeItems` — the items derived serializers hand to CBOR

A derived struct is a map of its fields in order, keyed by their names. An identifier and a fixed-size array are
byte strings, a list is an array, and an enumeration is the name of its variant. Each item comes with the reader
that takes the value back out of it.
-/

namespace KChatCore

open Lib Lib.Cbor

/-- The item of a struct. -/
def structItem (fields : List (String × Value)) : Value := .map (fields.map fun f => (.text f.1, f.2))

/-- `to_be_bytes`, as the library writes it. -/
theorem reverse_leBytes (n v : Nat) : (leBytes n v).toList.reverse = be n v := by
  have hrev : ∀ n, (List.ofFn fun i : Fin n => UInt8.ofNat (v / 256 ^ i.val)).reverse = be n v := by
    intro n
    induction n with
    | zero => rfl
    | succ n ih =>
        rw [List.ofFn_succ', List.concat_eq_append, List.reverse_append, be, ← ih]
        rfl
  rw [leBytes, List.Vector.toList_ofFn, hrev]

/-! ## Identifiers -/

/-- The item of an identifier. -/
def uuidItem (u : Uuid) : Value := .bytes u.asBytes

/-- The identifier of a sixteen-byte string. -/
def uuidOf (v : Value) : Option Uuid :=
  v.asBytes?.bind fun b => if b.length = 16 then some ⟨ofBe b⟩ else none

/-- The value is one of the 2^128 that an identifier has. -/
def Uuid.InRange (u : Uuid) : Prop := u.val < 2 ^ 128

theorem Uuid.asBytes_eq (u : Uuid) : u.asBytes = be 16 u.val := reverse_leBytes 16 u.val

theorem uuidOf_uuidItem {u : Uuid} (h : u.InRange) : uuidOf (uuidItem u) = some u := by
  have hval : u.val < 256 ^ 16 := lt_of_lt_of_le h (by norm_num)
  simp [uuidOf, uuidItem, Value.asBytes?, Uuid.asBytes_eq, ofBe_be hval]

/-! ## Arrays and lists -/

/-- The array of a byte string of the right length. -/
def byteArrOf (n : Nat) (v : Value) : Option (ByteArr n) :=
  v.asBytes?.bind fun b => if h : b.length = n then some ⟨b, h⟩ else none

@[simp] theorem byteArrOf_bytes {n : Nat} (a : ByteArr n) : byteArrOf n (.bytes a.toList) = some a := by
  obtain ⟨b, hb⟩ := a
  simp [byteArrOf, Value.asBytes?, List.Vector.toList, hb]

/-- Every item of an array, read alike. -/
def listOf {α : Type} (read : Value → Option α) (v : Value) : Option (List α) :=
  v.asArray?.bind fun items => items.mapM read

theorem listOf_array {α : Type} {read : Value → Option α} {item : α → Value} {l : List α}
    (h : ∀ a ∈ l, read (item a) = some a) : listOf read (.array (l.map item)) = some l := by
  show (l.map item).mapM read = some l
  induction l with
  | nil => rfl
  | cons a l ih =>
      rw [List.map_cons, List.mapM_cons, h a (by simp), ih fun a' ha' => h a' (by simp [ha'])]
      rfl

/-! ## Fitting -/

section Fits

variable {fields : List (String × Value)}

/-- A struct fits if its field names and its field values do. -/
theorem structItem_fits (hlen : fields.length < 2 ^ 64)
    (hnames : ∀ name ∈ fields.map Prod.fst, (utf8 name).length < 2 ^ 64)
    (hvalues : ∀ f ∈ fields, f.2.Fits) : (structItem fields).Fits := by
  refine .map (by rw [List.length_map]; exact hlen) ?_ ?_
  · intro e he
    obtain ⟨f, hf, rfl⟩ := List.mem_map.mp he
    exact .text (hnames f.1 (List.mem_map_of_mem hf))
  · intro e he
    obtain ⟨f, hf, rfl⟩ := List.mem_map.mp he
    exact hvalues f hf

theorem uuidItem_fits (u : Uuid) : (uuidItem u).Fits := by
  refine .bytes ?_
  rw [Uuid.asBytes_eq, length_be]
  norm_num

theorem byteArr_fits {n : Nat} (a : ByteArr n) (h : n < 2 ^ 64) : (Value.bytes a.toList).Fits := by
  refine .bytes ?_
  rw [List.Vector.toList_length]
  exact h

theorem array_fits {α : Type} {item : α → Value} {l : List α} (hlen : l.length < 2 ^ 64)
    (h : ∀ a ∈ l, (item a).Fits) : (Value.array (l.map item)).Fits := by
  refine .array (by rw [List.length_map]; exact hlen) fun v hv => ?_
  obtain ⟨a, ha, rfl⟩ := List.mem_map.mp hv
  exact h a ha

end Fits

/-! ## Lengths -/

theorem utf8_replicate (n : Nat) : utf8 (String.ofList (List.replicate n 'a')) = List.replicate n 0x61 := by
  have hflat : (List.replicate n 'a').flatMap String.utf8EncodeChar = List.replicate n 0x61 := by
    induction n with
    | zero => rfl
    | succ n ih =>
        rw [List.replicate_succ, List.flatMap_cons, ih]
        rfl
  simp [utf8, List.utf8Encode, hflat]

/-- The bytes a string of `n` bytes takes. -/
def stringLength (n : Nat) : Nat := headLength n + n

@[simp] theorem length_encode_bytes (b : Bytes) : (encode (.bytes b)).length = stringLength b.length := by
  simp [encode, stringLength]

@[simp] theorem length_encode_text (s : String) : (encode (.text s)).length = stringLength (utf8 s).length := by
  simp [encode, stringLength, textBytes, utf8]

@[simp] theorem length_encode_uint (n : Nat) : (encode (.uint n)).length = headLength n := by
  simp [encode]

/-- A struct takes a head, and each field its name and its value. -/
theorem length_structItem (fields : List (String × Value)) : (encode (structItem fields)).length =
    headLength fields.length +
      (fields.map fun f => stringLength (utf8 f.1).length + (encode f.2).length).sum := by
  rw [structItem, encode, encodeEntries_eq, List.length_append, length_head, List.length_map, List.length_flatMap,
    List.map_map]
  congr 2
  refine List.map_congr_left fun f _ => ?_
  simp

theorem length_array {α : Type} (item : α → Value) (l : List α) : (encode (.array (l.map item))).length =
    headLength l.length + (l.map fun a => (encode (item a)).length).sum := by
  rw [encode, encodeItems_eq, List.length_append, length_head, List.length_map, List.length_flatMap, List.map_map]
  rfl

end KChatCore
