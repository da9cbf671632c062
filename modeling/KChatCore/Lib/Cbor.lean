import KChatCore.Lib.Codec

/-!
# `Lib.Cbor` — concise binary object representation

A data item is a head and what the head announces. The head is one byte, three bits of major type and five of
additional information, and up to eight more bytes of argument. `encode` writes every item with the shortest
head and definite lengths; `decode` is a whole decoder: it also takes longer heads, indefinite lengths, tags and
floats, and refuses input that is not exactly one item.

* `decode_encode` — an item whose numbers fit their heads is read back.
* `length_head` — how many bytes a head takes.
-/

namespace KChatCore.Lib.Cbor

/-! ## Items -/

/-- The widths of a float. -/
inductive FloatWidth
  | half
  | single
  | double
deriving DecidableEq, Repr

/-- The additional information that announces the width. -/
def FloatWidth.info : FloatWidth → Nat
  | half => 25
  | single => 26
  | double => 27

/-- **A data item.** `nint n` is the number `-1 - n`; a float is its bits. -/
inductive Value
  | uint (n : Nat)
  | nint (n : Nat)
  | bytes (b : List UInt8)
  | text (s : String)
  | array (items : List Value)
  | map (entries : List (Value × Value))
  | tag (number : Nat) (content : Value)
  | simple (n : Nat)
  | float (width : FloatWidth) (bits : Nat)

/-- The item of a number of either sign. -/
def Value.int (v : Int) : Value := if 0 ≤ v then .uint v.toNat else .nint (-(v + 1)).toNat

/-- The item that stands for no value. -/
def Value.null : Value := .simple 22

/-- The number an item stands for. -/
def Value.toInt? : Value → Option Int
  | .uint n => some n
  | .nint n => some (-1 - n)
  | _ => none

@[simp] theorem Value.toInt?_int (v : Int) : (Value.int v).toInt? = some v := by
  unfold Value.int
  by_cases h : 0 ≤ v
  · rw [if_pos h]
    simp [toInt?, h]
  · rw [if_neg h]
    simp only [toInt?, Option.some.injEq]
    omega

/-! ## What a typed reader asks of an item -/

namespace Value

/-- The bytes of a byte string. -/
def asBytes? : Value → Option (List UInt8)
  | .bytes b => some b
  | _ => none

/-- The text of a text string. -/
def asText? : Value → Option String
  | .text s => some s
  | _ => none

/-- The number of a non-negative item. -/
def asUint? : Value → Option Nat
  | .uint n => some n
  | _ => none

/-- The items of an array. -/
def asArray? : Value → Option (List Value)
  | .array items => some items
  | _ => none

/-- The first value under a text key. -/
def lookupText (name : String) : List (Value × Value) → Option Value
  | [] => none
  | (.text s, v) :: es => if s = name then some v else lookupText name es
  | _ :: es => lookupText name es

/-- The field of a map. -/
def field (name : String) : Value → Option Value
  | .map entries => lookupText name entries
  | _ => none

end Value

/-! ## Texts -/

/-- The bytes of a text. -/
def textBytes (s : String) : List UInt8 := s.toUTF8.data.toList

/-- The text of some bytes, if they are UTF-8. -/
def textOf (b : List UInt8) : Option String := String.fromUTF8? b.toByteArray

@[simp] theorem textOf_textBytes (s : String) : textOf (textBytes s) = some s := by
  have harr : (textBytes s).toByteArray = s.toByteArray := by
    refine ByteArray.ext ?_
    simp [textBytes]
  rw [textOf, harr, String.fromUTF8?, dif_pos s.isValidUTF8]
  rfl

/-! ## Writing -/

/-- The low `n` bytes of a number, most significant first. -/
def be : Nat → Nat → List UInt8
  | 0, _ => []
  | n + 1, v => UInt8.ofNat (v / 256 ^ n) :: be n v

/-- A byte of major type and additional information. -/
def initial (major info : Nat) : UInt8 := UInt8.ofNat (major * 32 + info)

/-- The shortest head for an argument. -/
def head (major n : Nat) : List UInt8 :=
  if n < 24 then [initial major n]
  else if n < 2 ^ 8 then initial major 24 :: be 1 n
  else if n < 2 ^ 16 then initial major 25 :: be 2 n
  else if n < 2 ^ 32 then initial major 26 :: be 4 n
  else initial major 27 :: be 8 n

mutual

/-- **The bytes of an item.** -/
def encode : Value → List UInt8
  | .uint n => head 0 n
  | .nint n => head 1 n
  | .bytes b => head 2 b.length ++ b
  | .text s => head 3 (textBytes s).length ++ textBytes s
  | .array items => head 4 items.length ++ encodeItems items
  | .map entries => head 5 entries.length ++ encodeEntries entries
  | .tag number content => head 6 number ++ encode content
  | .simple n => head 7 n
  | .float width bits => initial 7 width.info :: be (2 ^ (width.info - 24)) bits

/-- The items of an array. -/
def encodeItems : List Value → List UInt8
  | [] => []
  | v :: vs => encode v ++ encodeItems vs

/-- The keys and values of a map. -/
def encodeEntries : List (Value × Value) → List UInt8
  | [] => []
  | (k, v) :: es => encode k ++ encode v ++ encodeEntries es

end

/-! ## Reading -/

/-- A number from its bytes, most significant first. -/
def ofBe (bs : List UInt8) : Nat := bs.foldl (fun acc b => acc * 256 + b.toNat) 0

/-- The head of an item: major type, additional information, argument. -/
structure Head where
  major : Nat
  info : Nat
  arg : Nat

/-- The first `n` bytes. -/
def takeBytes (n : Nat) (bs : List UInt8) : Option (List UInt8 × List UInt8) :=
  if n ≤ bs.length then some (bs.take n, bs.drop n) else none

/-- A head; additional information 28 to 30 is reserved, and 31 stands for an indefinite length. -/
def readHead : List UInt8 → Option (Head × List UInt8)
  | [] => none
  | b :: rest =>
      let major := b.toNat / 32
      let info := b.toNat % 32
      if info < 24 then some (⟨major, info, info⟩, rest)
      else if info < 28 then
        (takeBytes (2 ^ (info - 24)) rest).map fun p => (⟨major, info, ofBe p.1⟩, p.2)
      else if info = 31 then some (⟨major, info, 0⟩, rest)
      else none

section Repeat

variable {α : Type}

/-- `n` things in a row. -/
def readN (read : List UInt8 → Option (α × List UInt8)) : Nat → List UInt8 → Option (List α × List UInt8)
  | 0, bs => some ([], bs)
  | n + 1, bs => (read bs).bind fun p => (readN read n p.2).map fun q => (p.1 :: q.1, q.2)

/-- Things in a row, up to the break byte. -/
def readUntilBreak (read : List UInt8 → Option (α × List UInt8)) :
    Nat → List UInt8 → Option (List α × List UInt8)
  | 0, _ => none
  | fuel + 1, bs =>
      if bs.head? = some 0xff then some ([], bs.tail)
      else (read bs).bind fun p => (readUntilBreak read fuel p.2).map fun q => (p.1 :: q.1, q.2)

/-- One thing and then another. -/
def readPair (read : List UInt8 → Option (α × List UInt8)) (bs : List UInt8) :
    Option ((α × α) × List UInt8) :=
  (read bs).bind fun p => (read p.2).map fun q => ((p.1, q.1), q.2)

end Repeat

/-- One chunk of an indefinite-length string: a definite-length string of the same major type. -/
def readChunk (major : Nat) (bs : List UInt8) : Option (List UInt8 × List UInt8) :=
  (readHead bs).bind fun p =>
    if p.1.major = major ∧ p.1.info ≠ 31 then takeBytes p.1.arg p.2 else none

/-- What a head of definite length announces. -/
def readContent (read : List UInt8 → Option (Value × List UInt8)) (h : Head) (bs : List UInt8) :
    Option (Value × List UInt8) :=
  match h.major with
  | 0 => some (.uint h.arg, bs)
  | 1 => some (.nint h.arg, bs)
  | 2 => (takeBytes h.arg bs).map fun p => (.bytes p.1, p.2)
  | 3 => (takeBytes h.arg bs).bind fun p => (textOf p.1).map fun s => (.text s, p.2)
  | 4 => (readN read h.arg bs).map fun p => (.array p.1, p.2)
  | 5 => (readN (readPair read) h.arg bs).map fun p => (.map p.1, p.2)
  | 6 => (read bs).map fun p => (.tag h.arg p.1, p.2)
  | _ =>
      if h.info < 24 then some (.simple h.arg, bs)
      else if h.info = 24 then if 32 ≤ h.arg then some (.simple h.arg, bs) else none
      else if h.info = 25 then some (.float .half h.arg, bs)
      else if h.info = 26 then some (.float .single h.arg, bs)
      else some (.float .double h.arg, bs)

/-- What a head of indefinite length announces; the break byte ends it. -/
def readOpenContent (read : List UInt8 → Option (Value × List UInt8)) (h : Head) (bs : List UInt8) :
    Option (Value × List UInt8) :=
  match h.major with
  | 2 => (readUntilBreak (readChunk 2) (bs.length + 1) bs).map fun p => (.bytes p.1.flatten, p.2)
  | 3 =>
      (readUntilBreak (readChunk 3) (bs.length + 1) bs).bind fun p =>
        (p.1.mapM textOf).map fun ss => (.text (String.join ss), p.2)
  | 4 => (readUntilBreak read (bs.length + 1) bs).map fun p => (.array p.1, p.2)
  | 5 => (readUntilBreak (readPair read) (bs.length + 1) bs).map fun p => (.map p.1, p.2)
  | _ => none

/-- One item, nested at most `fuel` deep, and the bytes after it. -/
def readItem : Nat → List UInt8 → Option (Value × List UInt8)
  | 0, _ => none
  | fuel + 1, bs =>
      (readHead bs).bind fun p =>
        if p.1.info = 31 then readOpenContent (readItem fuel) p.1 p.2 else readContent (readItem fuel) p.1 p.2

/-- **The item the bytes are**, with nothing after it. -/
def decode (bs : List UInt8) : Option Value :=
  match readItem bs.length bs with
  | some (v, []) => some v
  | _ => none

/-- The first head that is not a tag: what a reader that skips tags dispatches on. -/
def readUntagged : Nat → List UInt8 → Option Head
  | 0, _ => none
  | fuel + 1, bs => (readHead bs).bind fun p => if p.1.major = 6 then readUntagged fuel p.2 else some p.1

/-! ## Heads -/

@[simp] theorem length_be (n v : Nat) : (be n v).length = n := by
  induction n with
  | zero => rfl
  | succ n ih => simp [be, ih]

theorem foldl_be (n v acc : Nat) :
    (be n v).foldl (fun acc b => acc * 256 + b.toNat) acc = acc * 256 ^ n + v % 256 ^ n := by
  induction n generalizing acc with
  | zero => simp [be, Nat.mod_one]
  | succ n ih =>
      have hbyte : (UInt8.ofNat (v / 256 ^ n)).toNat = v / 256 ^ n % 256 := by simp
      have hsplit : v % 256 ^ (n + 1) = v / 256 ^ n % 256 * 256 ^ n + v % 256 ^ n := by
        rw [pow_succ, Nat.mod_mul, Nat.add_comm, Nat.mul_comm]
      rw [be, List.foldl_cons, ih, hbyte, hsplit, pow_succ]
      ring

theorem ofBe_be {n v : Nat} (h : v < 256 ^ n) : ofBe (be n v) = v := by
  rw [ofBe, foldl_be, Nat.zero_mul, Nat.zero_add, Nat.mod_eq_of_lt h]

theorem takeBytes_append {n : Nat} {b : List UInt8} (h : b.length = n) (rest : List UInt8) :
    takeBytes n (b ++ rest) = some (b, rest) := by
  subst h
  simp [takeBytes]

/-- How many bytes a head takes. -/
def headLength (n : Nat) : Nat :=
  if n < 24 then 1 else if n < 2 ^ 8 then 2 else if n < 2 ^ 16 then 3 else if n < 2 ^ 32 then 5 else 9

@[simp] theorem length_head (major n : Nat) : (head major n).length = headLength n := by
  unfold head headLength
  split_ifs <;> simp

theorem headLength_pos (n : Nat) : 0 < headLength n := by
  unfold headLength
  split_ifs <;> omega

/-- The additional information of the shortest head. -/
def infoOf (n : Nat) : Nat :=
  if n < 24 then n else if n < 2 ^ 8 then 24 else if n < 2 ^ 16 then 25 else if n < 2 ^ 32 then 26 else 27

theorem infoOf_lt (n : Nat) : infoOf n < 28 := by
  unfold infoOf
  split_ifs <;> omega

theorem readHead_short {major info : Nat} (hm : major < 8) (hi : info < 24) (rest : List UInt8) :
    readHead (initial major info :: rest) = some (⟨major, info, info⟩, rest) := by
  have hbyte : (initial major info).toNat = major * 32 + info := by
    rw [initial, UInt8.toNat_ofNat']
    omega
  have hmajor : (major * 32 + info) / 32 = major := by omega
  have hinfo : (major * 32 + info) % 32 = info := by omega
  simp [readHead, hbyte, hmajor, hinfo, hi]

theorem readHead_long {major info v : Nat} (hm : major < 8) (hlo : 24 ≤ info) (hhi : info < 28)
    (hv : v < 256 ^ 2 ^ (info - 24)) (rest : List UInt8) :
    readHead (initial major info :: (be (2 ^ (info - 24)) v ++ rest)) = some (⟨major, info, v⟩, rest) := by
  have hbyte : (initial major info).toNat = major * 32 + info := by
    rw [initial, UInt8.toNat_ofNat']
    omega
  have hmajor : (major * 32 + info) / 32 = major := by omega
  have hinfo : (major * 32 + info) % 32 = info := by omega
  have htake : takeBytes (2 ^ (info - 24)) (be (2 ^ (info - 24)) v ++ rest) =
      some (be (2 ^ (info - 24)) v, rest) := takeBytes_append (length_be _ _) rest
  simp only [readHead, hbyte, hmajor, hinfo]
  rw [if_neg (not_lt.mpr hlo), if_pos hhi, htake, Option.map_some, ofBe_be hv]

/-- **The shortest head is read back.** -/
theorem readHead_head {major n : Nat} (hm : major < 8) (hn : n < 2 ^ 64) (rest : List UInt8) :
    readHead (head major n ++ rest) = some (⟨major, infoOf n, n⟩, rest) := by
  unfold head infoOf
  split_ifs with h₀ h₁ h₂ h₃
  · exact readHead_short hm h₀ rest
  · exact @readHead_long major 24 n hm (by omega) (by omega) (by norm_num; omega) rest
  · exact @readHead_long major 25 n hm (by omega) (by omega) (by norm_num; omega) rest
  · exact @readHead_long major 26 n hm (by omega) (by omega) (by norm_num; omega) rest
  · exact @readHead_long major 27 n hm (by omega) (by omega) (by norm_num; omega) rest

/-! ## Items fit, and are read back -/

/-- **The numbers of an item fit their heads.** -/
inductive Value.Fits : Value → Prop
  | uint {n : Nat} : n < 2 ^ 64 → Fits (.uint n)
  | nint {n : Nat} : n < 2 ^ 64 → Fits (.nint n)
  | bytes {b : List UInt8} : b.length < 2 ^ 64 → Fits (.bytes b)
  | text {s : String} : (textBytes s).length < 2 ^ 64 → Fits (.text s)
  | array {items : List Value} : items.length < 2 ^ 64 → (∀ v ∈ items, Fits v) → Fits (.array items)
  | map {entries : List (Value × Value)} : entries.length < 2 ^ 64 → (∀ e ∈ entries, Fits e.1) →
      (∀ e ∈ entries, Fits e.2) → Fits (.map entries)
  | tag {number : Nat} {content : Value} : number < 2 ^ 64 → Fits content → Fits (.tag number content)
  | simple {n : Nat} : n < 24 ∨ 32 ≤ n ∧ n < 2 ^ 8 → Fits (.simple n)
  | float {width : FloatWidth} {bits : Nat} : bits < 256 ^ 2 ^ (width.info - 24) → Fits (.float width bits)

theorem Value.Fits.int {v : Int} (h : -(2 ^ 63) ≤ v ∧ v < 2 ^ 63) : (Value.int v).Fits := by
  unfold Value.int
  by_cases hv : 0 ≤ v
  · rw [if_pos hv]
    exact .uint (by omega)
  · rw [if_neg hv]
    exact .nint (by omega)

theorem Value.Fits.null : Value.null.Fits := .simple (Or.inl (by omega))

section Repeat

variable {α : Type} {read : List UInt8 → Option (α × List UInt8)} {write : α → List UInt8}

/-- Reading `n` things back needs only that each is read back. -/
theorem readN_flatMap {l : List α} (h : ∀ a ∈ l, ∀ rest, read (write a ++ rest) = some (a, rest))
    (rest : List UInt8) : readN read l.length (l.flatMap write ++ rest) = some (l, rest) := by
  induction l with
  | nil => rfl
  | cons a l ih =>
      have ha : read (write a ++ (l.flatMap write ++ rest)) = some (a, l.flatMap write ++ rest) :=
        h a (by simp) _
      have hl : readN read l.length (l.flatMap write ++ rest) = some (l, rest) :=
        ih fun a' ha' => h a' (by simp [ha'])
      rw [List.flatMap_cons, List.append_assoc, List.length_cons, readN, ha, Option.bind_some, hl]
      rfl

end Repeat

theorem encodeItems_eq (items : List Value) : encodeItems items = items.flatMap encode := by
  induction items with
  | nil => rfl
  | cons v vs ih => rw [encodeItems, ih, List.flatMap_cons]

theorem encodeEntries_eq (entries : List (Value × Value)) :
    encodeEntries entries = entries.flatMap fun e => encode e.1 ++ encode e.2 := by
  induction entries with
  | nil => rfl
  | cons e es ih =>
      obtain ⟨k, v⟩ := e
      rw [encodeEntries, ih, List.flatMap_cons]

theorem length_le_flatMap {α : Type} {write : α → List UInt8} {l : List α} {a : α} (h : a ∈ l) :
    (write a).length ≤ (l.flatMap write).length := by
  obtain ⟨l₁, l₂, rfl⟩ := List.append_of_mem h
  simp only [List.flatMap_append, List.flatMap_cons, List.length_append]
  omega

/-- A head that is not of indefinite length hands over to the content. -/
theorem readItem_head {fuel major n : Nat} (hm : major < 8) (hn : n < 2 ^ 64) (rest : List UInt8) :
    readItem (fuel + 1) (head major n ++ rest) = readContent (readItem fuel) ⟨major, infoOf n, n⟩ rest := by
  have hinfo : infoOf n ≠ 31 := by
    have := infoOf_lt n
    omega
  rw [readItem, readHead_head hm hn, Option.bind_some, if_neg hinfo]

/-- **Reading one item back**, whatever follows it. The induction is on the fuel: the parts of an item are
written in fewer bytes than the item. -/
theorem readItem_encode {fuel : Nat} {v : Value} (hfits : v.Fits) (hfuel : (encode v).length ≤ fuel)
    (rest : List UInt8) : readItem fuel (encode v ++ rest) = some (v, rest) := by
  induction fuel generalizing v rest with
  | zero =>
      have hpos : 0 < (encode v).length := by
        cases v with
        | float width bits => simp [encode]
        | _ => simp [encode, headLength_pos]
      omega
  | succ fuel ih =>
      cases hfits with
      | uint hn => rw [encode, readItem_head (by omega) hn]; rfl
      | nint hn => rw [encode, readItem_head (by omega) hn]; rfl
      | @bytes b hb =>
          rw [encode, List.append_assoc, readItem_head (by omega) hb]
          show (takeBytes b.length (b ++ rest)).map _ = _
          rw [takeBytes_append rfl]
          rfl
      | @text s hs =>
          rw [encode, List.append_assoc, readItem_head (by omega) hs]
          show (takeBytes (textBytes s).length (textBytes s ++ rest)).bind _ = _
          rw [takeBytes_append rfl, Option.bind_some, textOf_textBytes]
          rfl
      | @array items hlen hitems =>
          -- an item of an array is shorter than the array, so the fuel left reads it
          have hitem : ∀ v ∈ items, ∀ rest, readItem fuel (encode v ++ rest) = some (v, rest) := by
            intro v hv rest
            have hle : (encode v).length ≤ (items.flatMap encode).length := length_le_flatMap hv
            have hhead := headLength_pos items.length
            refine ih (hitems v hv) ?_ rest
            rw [encode, encodeItems_eq, List.length_append, length_head] at hfuel
            omega
          rw [encode, encodeItems_eq, List.append_assoc, readItem_head (by omega) hlen]
          show (readN (readItem fuel) items.length (items.flatMap encode ++ rest)).map _ = _
          rw [readN_flatMap hitem]
          rfl
      | @map entries hlen hkeys hvalues =>
          -- a key and its value are two items in a row
          have hentry : ∀ e ∈ entries, ∀ rest,
              readPair (readItem fuel) ((encode e.1 ++ encode e.2) ++ rest) = some (e, rest) := by
            intro e he rest
            have hle : (encode e.1 ++ encode e.2).length ≤
                (entries.flatMap fun e => encode e.1 ++ encode e.2).length :=
              @length_le_flatMap _ (fun e : Value × Value => encode e.1 ++ encode e.2) _ _ he
            have hhead := headLength_pos entries.length
            rw [encode, encodeEntries_eq, List.length_append, length_head] at hfuel
            rw [List.length_append] at hle
            rw [readPair, List.append_assoc, ih (hkeys e he) (by omega), Option.bind_some,
              ih (hvalues e he) (by omega)]
            rfl
          rw [encode, encodeEntries_eq, List.append_assoc, readItem_head (by omega) hlen]
          show (readN (readPair (readItem fuel)) entries.length _).map _ = _
          rw [@readN_flatMap _ _ (fun e : Value × Value => encode e.1 ++ encode e.2) _ hentry]
          rfl
      | @tag number content hn hcontent =>
          have hhead := headLength_pos number
          rw [encode, List.length_append, length_head] at hfuel
          rw [encode, List.append_assoc, readItem_head (by omega) hn]
          show (readItem fuel (encode content ++ rest)).map _ = _
          rw [ih hcontent (by omega)]
          rfl
      | @simple n hn =>
          rw [encode, readItem_head (by omega) (by omega)]
          -- a simple value stands in the head, or in the byte behind it
          rcases hn with hlt | ⟨hge, hlt⟩
          · have hinfo : infoOf n = n := if_pos hlt
            simp [readContent, hinfo, hlt]
          · have hinfo : infoOf n = 24 := by
              rw [infoOf, if_neg (by omega), if_pos hlt]
            simp [readContent, hinfo, hge]
      | @float width bits hbits =>
          have hinfo : 24 ≤ width.info ∧ width.info < 28 := by cases width <;> decide
          have hne : width.info ≠ 31 := by omega
          rw [encode, List.cons_append, readItem, readHead_long (by omega) hinfo.1 hinfo.2 hbits, Option.bind_some,
            if_neg hne]
          cases width <;> rfl

/-- **What was written is read back**: an item that fits decodes to itself, all input consumed. -/
theorem decode_encode {v : Value} (h : v.Fits) : decode (encode v) = some v := by
  have hread := readItem_encode h (le_refl (encode v).length) []
  rw [List.append_nil] at hread
  rw [decode, hread]

/-- The break byte starts no item. -/
theorem decode_break (bs : List UInt8) : decode (0xff :: bs) = none := rfl

/-! ## Codecs -/

section TypedCodec

variable {α : Type} [DecidableEq α] (item : α → Value) (read : Value → Option α) (fallback : Codec α)

/-- Write a value as its item where the item is read back, and behind a break byte where it is not. -/
def writeTyped (a : α) : List UInt8 :=
  if (decode (encode (item a))).bind read = some a then encode (item a) else 0xff :: fallback.encode a

/-- Read what `writeTyped` writes, and any other item the reader takes. -/
def readTyped (bs : List UInt8) : Option α :=
  if bs.head? = some 0xff then fallback.decode bs.tail else (decode bs).bind read

theorem readTyped_writeTyped (a : α) : readTyped read fallback (writeTyped item read fallback a) = some a := by
  unfold readTyped writeTyped
  by_cases h : (decode (encode (item a))).bind read = some a
  · have hhead : (encode (item a)).head? ≠ some 0xff := by
      intro hff
      obtain ⟨bs, hbs⟩ := List.head?_eq_some_iff.mp hff
      rw [hbs, decode_break] at h
      exact absurd h (by simp)
    rw [if_pos h, if_neg hhead, h]
  · rw [if_neg h]
    exact fallback.decode_encode a

/-- **The codec of a type whose values are items**; values without one are left to the fallback. -/
def typedCodec : Codec α := ⟨writeTyped item read fallback, readTyped read fallback, readTyped_writeTyped item read fallback⟩

variable {item read fallback}

/-- A value whose item fits and is read back is written as the item. -/
theorem typedCodec_encode {a : α} (hfits : (item a).Fits) (hread : read (item a) = some a) :
    (typedCodec item read fallback).encode a = encode (item a) := by
  have h : (decode (encode (item a))).bind read = some a := by
    rw [decode_encode hfits, Option.bind_some, hread]
  exact if_pos h

end TypedCodec

end KChatCore.Lib.Cbor
