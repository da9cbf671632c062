import KChatCore.Lib.Bits
import KChatCore.Search.BloomPruning
import KChatCore.Search.Shards

/-!
# `Search.BloomShard` — the bloom filter as bytes, sealed and restored

The filter keeps its bits in a byte vector, beside the number of bits that positions are taken modulo. A write behind the
vector is dropped and a read behind it says no, so what protects a search is that vector and number fit together. They do
from the start, no insertion changes either, and the shard carries both.

* `toBits_fromWords` — the filter of bytes is the filter of bits.
* `restoreBloomShard_build` — the filter comes back out of its shard.
* `bloom_has_no_false_negatives` — no word is denied, and no write is dropped.
-/

namespace KChatCore.Search

open Lib LocalStore

/-! ## The filter -/

/-- `BloomFilter`, with its bytes; `usize` has 64 bits. -/
structure BloomBytes where
  bitCount : Nat
  hashCount : Nat
  bits : Bytes
deriving DecidableEq

/-- `blake3::keyed_hash`. -/
abbrev KeyedHash := KeyMaterial → Bytes → ByteArr 32

/-- The key of a slot: its name and number at the beginning of 32 zeros. -/
def slotKey (slot : Nat) : KeyMaterial :=
  List.Vector.ofFn fun i => (utf8 "kchat-bloom-shard-slot-" ++ (leBytes 4 slot).toList).getD i.val 0

/-- `u64::from_le_bytes` of the first eight bytes of the keyed hash of a word. -/
def slotHash (keyedHash : KeyedHash) (slot : Nat) (word : String) : Nat :=
  Nat.ofDigits 256 (((keyedHash (slotKey slot) (utf8 word)).toList.take 8).map UInt8.toNat)

namespace BloomBytes

/-- `BloomFilter::for_expected_count`. -/
def forExpectedCount (expectedCount hashCount : Nat) : BloomBytes :=
  let bitsNeeded := min u64Max (expectedCount * bloomBitsPerElement)
  let bitCount := (max bitsNeeded bloomMinBits + 7) / 8 * 8 % 2 ^ 64
  ⟨bitCount, max hashCount 1, List.replicate (bitCount / 8) 0⟩

/-- `set_bit`: a position behind the bytes is ignored. -/
def setBit (f : BloomBytes) (pos : Nat) : BloomBytes :=
  let byte := pos / 8
  let bit := pos % 8
  if byte < f.bits.length then { f with bits := f.bits.set byte (f.bits.getD byte 0 ||| (1 <<< UInt8.ofNat bit)) }
  else f

/-- `get_bit`: a position behind the bytes is not set. -/
def getBit (f : BloomBytes) (pos : Nat) : Bool :=
  let byte := pos / 8
  let bit := pos % 8
  if f.bits.length ≤ byte then false
  else ((f.bits.getD byte 0 >>> UInt8.ofNat bit) &&& 1) == 1

section Words

variable (keyedHash : KeyedHash)

/-- `position`. -/
def position (f : BloomBytes) (word : String) (slot : Nat) : Nat :=
  let v := slotHash keyedHash slot word
  if f.bitCount = 0 then 0 else v % f.bitCount

/-- `insert_word`. -/
def insertWord (f : BloomBytes) (word : String) : BloomBytes :=
  (List.range f.hashCount).foldl (fun f slot => f.setBit (f.position keyedHash word slot)) f

/-- `maybe_contains`. -/
def maybeContains (f : BloomBytes) (word : String) : Bool :=
  (List.range f.hashCount).all fun slot => f.getBit (f.position keyedHash word slot)

/-- `from_words`. -/
def fromWords (words : List String) (expectedCount : Nat) : BloomBytes :=
  words.foldl (insertWord keyedHash) (forExpectedCount (max expectedCount words.length) bloomHashCount)

end Words

/-! ## Bytes and bits -/

/-- The filter with its bytes as bits. -/
def toBits (f : BloomBytes) : BloomBits := ⟨f.bitCount, f.hashCount, bitsOf f.bits⟩

theorem toBits_setBit (f : BloomBytes) (pos : Nat) : (f.setBit pos).toBits = f.toBits.setBit pos := by
  unfold setBit
  simp only
  split_ifs with hbyte
  · exact congrArg (BloomBits.mk f.bitCount f.hashCount) (bitsOf_set hbyte)
  · -- both drop a position behind the bytes
    have hout : (bitsOf f.bits).length ≤ pos := by
      rw [length_bitsOf]
      omega
    exact congrArg (BloomBits.mk f.bitCount f.hashCount) (List.set_eq_of_length_le hout).symm

theorem getBit_toBits (f : BloomBytes) (pos : Nat) : f.toBits.getBit pos = f.getBit pos := by
  unfold BloomBits.getBit getBit toBits
  simp only
  rw [List.getD_eq_getElem?_getD, getElem?_bitsOf]
  split_ifs with hbyte
  · rw [List.getElem?_eq_none hbyte]
    rfl
  · have hbyte' : f.bits[pos / 8]? = some (f.bits.getD (pos / 8) 0) := by
      rw [List.getD_eq_getElem?_getD, List.getElem?_eq_getElem (not_le.mp hbyte)]
      rfl
    rw [hbyte', testBit_high (Nat.mod_lt _ (by decide))]
    rfl

variable {keyedHash : KeyedHash}

theorem position_toBits (f : BloomBytes) (word : String) (slot : Nat) :
    f.toBits.position (slotHash keyedHash) word slot = f.position keyedHash word slot := rfl

theorem toBits_insertWord (f : BloomBytes) (word : String) :
    (f.insertWord keyedHash word).toBits = f.toBits.insertWord (slotHash keyedHash) word := by
  have hslots : ∀ (slots : List Nat) (f : BloomBytes),
      (slots.foldl (fun f slot => f.setBit (f.position keyedHash word slot)) f).toBits =
        slots.foldl (fun f slot => f.setBit (f.position (slotHash keyedHash) word slot)) f.toBits := by
    intro slots
    induction slots with
    | nil => exact fun _ => rfl
    | cons slot slots ih =>
        intro f
        rw [List.foldl_cons, List.foldl_cons, ih, toBits_setBit, position_toBits]
  exact hslots _ f

theorem toBits_words (words : List String) (f : BloomBytes) :
    (words.foldl (insertWord keyedHash) f).toBits = words.foldl (BloomBits.insertWord (slotHash keyedHash)) f.toBits := by
  induction words generalizing f with
  | nil => rfl
  | cons word words ih => rw [List.foldl_cons, List.foldl_cons, ih, toBits_insertWord]

theorem maybeContains_toBits (f : BloomBytes) (word : String) :
    f.toBits.maybeContains (slotHash keyedHash) word = f.maybeContains keyedHash word := by
  unfold BloomBits.maybeContains maybeContains
  simp only [getBit_toBits, position_toBits]
  rfl

/-! ## The size of the filter -/

/-- So many entries that the number of bits does not overflow. -/
def Sizeable (count : Nat) : Prop := count * bloomBitsPerElement < 2 ^ 64 - 8

theorem bitCount_forExpectedCount {count hashCount : Nat} (h : Sizeable count) :
    (forExpectedCount count hashCount).bitCount = (max (count * bloomBitsPerElement) bloomMinBits + 7) / 8 * 8 := by
  unfold Sizeable at h
  have hneeded : min u64Max (count * bloomBitsPerElement) = count * bloomBitsPerElement := by
    unfold u64Max
    omega
  have hmin : bloomMinBits = 64 := rfl
  unfold forExpectedCount
  simp only [hneeded]
  refine Nat.mod_eq_of_lt ?_
  omega

theorem bitsOf_replicate_zero (n : Nat) : bitsOf (List.replicate n 0) = List.replicate (8 * n) false := by
  induction n with
  | zero => rfl
  | succ n ih =>
      have hcons : bitsOf (List.replicate (n + 1) 0) = List.replicate 8 false ++ bitsOf (List.replicate n 0) := rfl
      rw [hcons, ih, List.replicate_append_replicate]
      congr 1
      omega

theorem toBits_forExpectedCount {count hashCount : Nat} (h : Sizeable count) :
    (forExpectedCount count hashCount).toBits = BloomBits.forExpectedCount count hashCount := by
  have hcount : (forExpectedCount count hashCount).bitCount =
      (max (count * bloomBitsPerElement) bloomMinBits + 7) / 8 * 8 := bitCount_forExpectedCount h
  have hneeded : min u64Max (count * bloomBitsPerElement) = count * bloomBitsPerElement := by
    unfold Sizeable at h
    unfold u64Max
    omega
  have hbits : bitsOf (forExpectedCount count hashCount).bits =
      List.replicate (forExpectedCount count hashCount).bitCount false := by
    refine (bitsOf_replicate_zero _).trans (congrArg (fun n => List.replicate n false) ?_)
    change 8 * ((forExpectedCount count hashCount).bitCount / 8) = _
    rw [hcount]
    omega
  unfold toBits
  rw [hbits, hcount]
  unfold BloomBits.forExpectedCount
  simp only [hneeded]
  rfl

/-- **The filter of bytes is the filter of bits**, as long as the number of bits does not overflow. -/
theorem toBits_fromWords {words : List String} {expectedCount : Nat} (h : Sizeable (max expectedCount words.length)) :
    (fromWords keyedHash words expectedCount).toBits = BloomBits.fromWords (slotHash keyedHash) words expectedCount := by
  unfold fromWords BloomBits.fromWords
  rw [toBits_words, toBits_forExpectedCount h]

/-- **Vector and number fit together**: there is a bit, and every position has its bit in the vector. -/
structure Fitting (f : BloomBytes) : Prop where
  bits : 8 * f.bits.length = f.bitCount
  pos : 0 < f.bitCount

theorem fitting_forExpectedCount {count hashCount : Nat} (h : Sizeable count) :
    (forExpectedCount count hashCount).Fitting := by
  have hcount : (forExpectedCount count hashCount).bitCount =
      (max (count * bloomBitsPerElement) bloomMinBits + 7) / 8 * 8 := bitCount_forExpectedCount h
  have hmin : bloomMinBits = 64 := rfl
  constructor
  · change 8 * (List.replicate ((forExpectedCount count hashCount).bitCount / 8) (0 : UInt8)).length = _
    rw [List.length_replicate, hcount]
    omega
  · rw [hcount]
    omega

theorem Fitting.setBit {f : BloomBytes} (h : f.Fitting) (pos : Nat) : (f.setBit pos).Fitting := by
  unfold BloomBytes.setBit
  simp only
  split_ifs
  · exact ⟨by rw [List.length_set]; exact h.bits, h.pos⟩
  · exact h

theorem Fitting.insertWord {f : BloomBytes} (h : f.Fitting) (word : String) : (f.insertWord keyedHash word).Fitting := by
  have hslots : ∀ (slots : List Nat) (f : BloomBytes), f.Fitting →
      (slots.foldl (fun f slot => f.setBit (f.position keyedHash word slot)) f).Fitting := by
    intro slots
    induction slots with
    | nil => exact fun _ h => h
    | cons slot slots ih => exact fun f h => ih _ (h.setBit _)
  exact hslots _ f h

theorem Fitting.words {f : BloomBytes} (h : f.Fitting) (words : List String) :
    (words.foldl (BloomBytes.insertWord keyedHash) f).Fitting := by
  induction words generalizing f with
  | nil => exact h
  | cons word words ih => exact ih (h.insertWord word)

/-- **Every position is in the vector**, and what is written there is read back. -/
theorem Fitting.position_lt {f : BloomBytes} (h : f.Fitting) (word : String) (slot : Nat) :
    f.position keyedHash word slot < 8 * f.bits.length := by
  have hne : ¬ f.bitCount = 0 := Nat.pos_iff_ne_zero.mp h.pos
  unfold position
  simp only
  rw [if_neg hne, h.bits]
  exact Nat.mod_lt _ h.pos

theorem getBit_setBit_self {f : BloomBytes} {pos : Nat} (h : pos < 8 * f.bits.length) :
    (f.setBit pos).getBit pos = true := by
  have hbits : pos < f.toBits.bits.length := by
    change pos < (bitsOf f.bits).length
    rwa [length_bitsOf]
  rw [← getBit_toBits, toBits_setBit, BloomBits.getBit_setBit, if_pos ⟨rfl, hbits⟩]

end BloomBytes

/-! ## The shard -/

/-- `BloomShardPayload`. -/
structure BloomShardPayload where
  magic : Bytes
  bitCount : Nat
  hashCount : Nat
  bits : Bytes
deriving DecidableEq

/-- `BLOOM_SHARD_PAYLOAD_MAGIC`. -/
def bloomShardPayloadMagic : Bytes := utf8 "KCHAT_BLOOM_SHARD_PAYLOAD_V1"

/-- What a bloom shard needs besides what the other shards do. -/
structure BloomPrimitives extends ShardPrimitives where
  keyedHash : KeyedHash
  /-- CBOR of a bloom shard's payload. -/
  cborBloomPayload : Codec BloomShardPayload

section Shard

variable (P : BloomPrimitives)

/-- `build_bloom_shard`: the shard. -/
def buildBloomShard (words : List String) (expectedCount : Nat) (conversationId : IdText) (timeBucket : String)
    (kBloomIndexShard conversationHashKey : KeyMaterial) (drawn : Nat) : SearchIndexShard :=
  let filter := BloomBytes.fromWords P.keyedHash words expectedCount
  let payload : BloomShardPayload := ⟨bloomShardPayloadMagic, filter.bitCount, filter.hashCount, filter.bits⟩
  let cbor := P.cborBloomPayload.encode payload
  let conversationIdHash := P.keyedConversationIdHash conversationHashKey conversationId
  sealShard P.toShardPrimitives cbor .bloom conversationIdHash timeBucket words.length kBloomIndexShard drawn

/-- `restore_bloom_shard`. -/
def restoreBloomShard (shard : SearchIndexShard) (kBloomIndexShard : KeyMaterial) : Except Error BloomBytes :=
  if shard.indexType ≠ .bloom then
    .error (.storageMsg ("restore_bloom_shard: index_type " ++ IndexType.debug shard.indexType ++ " != Bloom"))
  else do
    let cbor ← openShard P.toShardPrimitives shard kBloomIndexShard
    let payload ← okOr (P.cborBloomPayload.decode cbor) (.storage (.cborDecode "bloom shard"))
    if payload.magic ≠ bloomShardPayloadMagic then .error (.storageMsg "bloom shard payload magic mismatch")
    else return ⟨payload.bitCount, payload.hashCount, payload.bits⟩

/-- **The filter comes back** out of its shard. -/
theorem restoreBloomShard_build (words : List String) (expectedCount : Nat) (conversationId : IdText)
    (timeBucket : String) (k conversationHashKey : KeyMaterial) (drawn : Nat) :
    restoreBloomShard P (buildBloomShard P words expectedCount conversationId timeBucket k conversationHashKey drawn) k =
      .ok (BloomBytes.fromWords P.keyedHash words expectedCount) := by
  unfold restoreBloomShard buildBloomShard
  simp only
  rw [openShard_sealShard]
  simp [sealShard, bind, Except.bind, pure, Except.pure, P.cborBloomPayload.decode_encode]

/-- **Bloom shards have no false negatives.** Every word is in the filter built from the list, and in the one its shard
restores to. In no filter of the insertion loop does a position lie outside of the bytes, so no write is dropped. A vector
of strings, of 24 bytes each, is at most `isize::MAX` bytes long. -/
theorem bloom_has_no_false_negatives (words : List String) (expectedCount : Nat) (conversationId : IdText)
    (timeBucket : String) (k conversationHashKey : KeyMaterial) (drawn : Nat) (hexpected : expectedCount < 2 ^ 56)
    (hwords : 24 * words.length < 2 ^ 63) :
    (∀ w ∈ words, (BloomBytes.fromWords P.keyedHash words expectedCount).maybeContains P.keyedHash w = true) ∧
      (∃ f, restoreBloomShard P
          (buildBloomShard P words expectedCount conversationId timeBucket k conversationHashKey drawn) k = .ok f ∧
        (∀ w ∈ words, f.maybeContains P.keyedHash w = true) ∧
        ∀ word slot, f.position P.keyedHash word slot < 8 * f.bits.length) ∧
      ∀ inserted : List String, ∀ f, f = inserted.foldl (BloomBytes.insertWord P.keyedHash)
          (BloomBytes.forExpectedCount (max expectedCount words.length) bloomHashCount) →
        ∀ word slot, f.position P.keyedHash word slot < 8 * f.bits.length ∧
          (f.setBit (f.position P.keyedHash word slot)).getBit (f.position P.keyedHash word slot) = true := by
  have hsize : BloomBytes.Sizeable (max expectedCount words.length) := by
    have hper : bloomBitsPerElement = 12 := rfl
    unfold BloomBytes.Sizeable
    rw [hper]
    omega
  -- the filter of bytes is the filter of bits
  have hcontains : ∀ w ∈ words,
      (BloomBytes.fromWords P.keyedHash words expectedCount).maybeContains P.keyedHash w = true := by
    intro w hw
    rw [← BloomBytes.maybeContains_toBits, BloomBytes.toBits_fromWords hsize]
    exact BloomBits.maybeContains_fromWords hw
  have hfitting : ∀ inserted : List String, (inserted.foldl (BloomBytes.insertWord P.keyedHash)
      (BloomBytes.forExpectedCount (max expectedCount words.length) bloomHashCount)).Fitting :=
    (BloomBytes.fitting_forExpectedCount hsize).words
  refine ⟨hcontains, ⟨_, restoreBloomShard_build P words expectedCount conversationId timeBucket k conversationHashKey drawn,
    hcontains, (hfitting words).position_lt⟩, ?_⟩
  rintro inserted f rfl word slot
  have hin : (inserted.foldl (BloomBytes.insertWord P.keyedHash)
      (BloomBytes.forExpectedCount (max expectedCount words.length) bloomHashCount)).position P.keyedHash word slot < _ :=
    (hfitting inserted).position_lt word slot
  exact ⟨hin, BloomBytes.getBit_setBit_self hin⟩

end Shard

namespace BloomPrimitives

open Lib.PrefixCodec

def bloomPayloadCodec : PrefixCodec BloomShardPayload :=
  (bytes.prod <| nat.prod <| nat.prod bytes).iso (fun p => (p.magic, p.bitCount, p.hashCount, p.bits))
    (fun t => ⟨t.1, t.2.1, t.2.2.1, t.2.2.2⟩) fun _ => rfl

/-- Executable primitives; the keyed hash is the content hash of key and word. -/
def reference : BloomPrimitives where
  toShardPrimitives := ShardPrimitives.reference
  keyedHash key word := Primitives.reference.contentHash (key.toList ++ word)
  cborBloomPayload := bloomPayloadCodec.toCodec

end BloomPrimitives

theorem bloom_finds_invoice : ∃ f, restoreBloomShard .reference
    (buildBloomShard .reference ["invoice", "offer"] 10 (.uuid ⟨7⟩) "2026-01" (ByteArr.zeros 32) (ByteArr.zeros 32) 1)
      (ByteArr.zeros 32) = .ok f ∧
    f.maybeContains BloomPrimitives.reference.keyedHash "invoice" = true ∧
    f.maybeContains BloomPrimitives.reference.keyedHash "offer" = true := by
  obtain ⟨-, ⟨f, hrestored, hcontains, -⟩, -⟩ := bloom_has_no_false_negatives .reference ["invoice", "offer"] 10
    (.uuid ⟨7⟩) "2026-01" (ByteArr.zeros 32) (ByteArr.zeros 32) 1 (by decide) (by decide)
  exact ⟨f, hrestored, hcontains "invoice" (by decide), hcontains "offer" (by decide)⟩

end KChatCore.Search
