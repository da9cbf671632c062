import KChatCore.LocalStore.Schema
import KChatCore.Primitives

/-!
# `Search.Shards` — sealing index rows into a search shard and opening it again

A text shard holds the `search_fts` rows of a bucket and a fuzzy shard its `search_fuzzy` rows. The frame carries a
header, the AAD's hash and the ciphertext; opening checks the header and the hash before the AEAD.

* `restoreTextSearchShard_build`, `restoreFuzzySearchShard_build` — a shard opens to the rows it was built from.
-/

namespace KChatCore.Search

open Lib LocalStore

/-- `SHARD_MAGIC`. -/
def shardMagic : String := "KCHAT_INDEX_SHARD_V1"

/-- `SHARD_VERSION`. -/
def shardVersion : Nat := 1

/-- `SHARD_COMPRESSION`. -/
def shardCompression : String := "zstd"

/-- `SHARD_ENCRYPTION`. -/
def shardEncryption : String := "xchacha20-poly1305"

/-- `SearchIndexShard`. -/
structure SearchIndexShard where
  magic : String
  version : Nat
  shardId : Uuid
  indexType : IndexType
  conversationIdHash : Bytes
  timeBucket : String
  docCount : Nat
  compression : String
  encryption : String
  nonce : ByteArr 24
  aadHash : ByteArr 32
  ciphertext : Bytes
  ciphertextSha256 : ByteArr 32
deriving DecidableEq

/-- `SearchIndexShard::has_valid_header`. -/
def SearchIndexShard.hasValidHeader (shard : SearchIndexShard) : Bool :=
  shard.magic = shardMagic && shard.version = shardVersion && shard.compression = shardCompression &&
    shard.encryption = shardEncryption

/-- `TEXT_SHARD_PAYLOAD_MAGIC`. -/
def textShardPayloadMagic : Bytes := utf8 "KCHAT_TEXT_SHARD_PAYLOAD_V1"

/-- `FUZZY_SHARD_PAYLOAD_MAGIC`. -/
def fuzzyShardPayloadMagic : Bytes := utf8 "KCHAT_FUZZY_SHARD_PAYLOAD_V1"

/-- `FtsShardPayload` and `FuzzyShardPayload`: a magic and the rows. -/
structure ShardPayload (ρ : Type) where
  magic : Bytes
  rows : List ρ
deriving DecidableEq

/-- **The third-party functions shards need beyond those of the pipelines.** No two conversation ids share a hash, and
no frame encodes to nothing. -/
structure ShardPrimitives extends Primitives where
  /-- `keyed_conversation_id_hash`, keyed BLAKE3 of the id. -/
  keyedConversationIdHash : KeyMaterial → IdText → Bytes
  keyedConversationIdHash_inj : ∀ k c c', keyedConversationIdHash k c = keyedConversationIdHash k c' → c = c'
  /-- CBOR of a text shard's payload. -/
  cborTextPayload : Codec (ShardPayload FtsRow)
  /-- CBOR of a fuzzy shard's payload. -/
  cborFuzzyPayload : Codec (ShardPayload FuzzyRow)
  /-- CBOR of the frame. -/
  cborShard : Codec SearchIndexShard
  cborShard_ne_nil : ∀ shard, cborShard.encode shard ≠ []

/-! ## Sealing -/

/-- The byte an index type has in the AAD. -/
def IndexType.aadByte : IndexType → UInt8
  | .text => 1
  | .fuzzy => 2
  | .vector => 3
  | .media => 4
  | .bloom => 5

/-- `build_shard_aad`. -/
def buildShardAad (shardId : Uuid) (indexType : IndexType) (conversationIdHash : Bytes) (timeBucket : String) : Bytes :=
  utf8 "KCHAT_SEARCH_SHARD_AAD_V1" ++ [IndexType.aadByte indexType] ++ shardId.asBytes ++ conversationIdHash ++ utf8 timeBucket

/-- `seal_shard`; the fresh id and the nonce come from one draw of entropy. -/
def sealShard (P : ShardPrimitives) (rowsCbor : Bytes) (indexType : IndexType) (conversationIdHash : Bytes)
    (timeBucket : String) (docCount : Nat) (kShard : KeyMaterial) (drawn : Nat) : SearchIndexShard :=
  let compressed := P.encodeAll rowsCbor
  let shardId := Uuid.nowV7 drawn
  let nonce := fillNonce drawn
  let aad := buildShardAad shardId indexType conversationIdHash timeBucket
  let ciphertext := P.aeadSeal kShard nonce compressed aad
  { magic := shardMagic
    version := shardVersion
    shardId := shardId
    indexType := indexType
    conversationIdHash := conversationIdHash
    timeBucket := timeBucket
    docCount := docCount
    compression := shardCompression
    encryption := shardEncryption
    nonce := nonce
    aadHash := P.contentHash aad
    ciphertext := ciphertext
    ciphertextSha256 := P.sha256 ciphertext }

/-- `build_text_search_shard`. -/
def buildTextSearchShard (P : ShardPrimitives) (rows : List FtsRow) (conversationId : IdText) (timeBucket : String)
    (kTextIndexShard conversationHashKey : KeyMaterial) (drawn : Nat) : SearchIndexShard :=
  sealShard P (P.cborTextPayload.encode ⟨textShardPayloadMagic, rows⟩) .text
    (P.keyedConversationIdHash conversationHashKey conversationId) timeBucket rows.length kTextIndexShard drawn

/-- `build_fuzzy_search_shard`. -/
def buildFuzzySearchShard (P : ShardPrimitives) (rows : List FuzzyRow) (conversationId : IdText) (timeBucket : String)
    (kFuzzyIndexShard conversationHashKey : KeyMaterial) (drawn : Nat) : SearchIndexShard :=
  sealShard P (P.cborFuzzyPayload.encode ⟨fuzzyShardPayloadMagic, rows⟩) .fuzzy
    (P.keyedConversationIdHash conversationHashKey conversationId) timeBucket rows.length kFuzzyIndexShard drawn

/-! ## Opening -/

/-- `open_shard`. -/
def openShard (P : ShardPrimitives) (shard : SearchIndexShard) (k : KeyMaterial) : Except Error Bytes :=
  if !shard.hasValidHeader then .error (.storageMsg "search shard header / version mismatch")
  else
    let aad := buildShardAad shard.shardId shard.indexType shard.conversationIdHash shard.timeBucket
    if P.contentHash aad ≠ shard.aadHash then .error (.storageMsg "search shard aad_hash mismatch")
    else do
      let compressed ← okOr (P.aeadOpen k shard.nonce shard.ciphertext aad)
        (.crypto (.aead "xchacha20-poly1305 open failed"))
      okOr (P.decodeAll compressed) (.storage (.zstd "search shard decode"))

/-- `{:?}` of an index type. -/
def IndexType.debug : IndexType → String
  | .bloom => "Bloom"
  | .text => "Text"
  | .fuzzy => "Fuzzy"
  | .vector => "Vector"
  | .media => "Media"

/-- What the restorers of the two kinds of shard do: they differ in the type they expect, its name, the codec and the
magic. -/
def restoreSearchShard {ρ : Type} (P : ShardPrimitives) (expected : IndexType) (name : String)
    (codec : Codec (ShardPayload ρ)) (magic : Bytes) (shard : SearchIndexShard) (k : KeyMaterial) : Except Error (List ρ) :=
  if shard.indexType ≠ expected then
    .error (.storageMsg ("restore_" ++ name ++ "_search_shard: index_type " ++ IndexType.debug shard.indexType ++ " != " ++
      IndexType.debug expected))
  else do
    let cbor ← openShard P shard k
    let payload ← okOr (codec.decode cbor) (.storage (.cborDecode (name ++ " shard")))
    if payload.magic ≠ magic then .error (.storageMsg (name ++ " shard payload magic mismatch"))
    else return payload.rows

/-- `restore_text_search_shard`. -/
def restoreTextSearchShard (P : ShardPrimitives) (shard : SearchIndexShard) (kTextIndexShard : KeyMaterial) :
    Except Error (List FtsRow) :=
  restoreSearchShard P .text "text" P.cborTextPayload textShardPayloadMagic shard kTextIndexShard

/-- `restore_fuzzy_search_shard`. -/
def restoreFuzzySearchShard (P : ShardPrimitives) (shard : SearchIndexShard) (kFuzzyIndexShard : KeyMaterial) :
    Except Error (List FuzzyRow) :=
  restoreSearchShard P .fuzzy "fuzzy" P.cborFuzzyPayload fuzzyShardPayloadMagic shard kFuzzyIndexShard

section RoundTrip

variable {P : ShardPrimitives}

/-- **A sealed shard opens** under its own key. -/
theorem openShard_sealShard (rowsCbor : Bytes) (indexType : IndexType) (conversationIdHash : Bytes) (timeBucket : String)
    (docCount : Nat) (k : KeyMaterial) (drawn : Nat) :
    openShard P (sealShard P rowsCbor indexType conversationIdHash timeBucket docCount k drawn) k = .ok rowsCbor := by
  have hheader : (sealShard P rowsCbor indexType conversationIdHash timeBucket docCount k drawn).hasValidHeader = true := by
    simp [SearchIndexShard.hasValidHeader, sealShard]
  unfold openShard
  rw [hheader]
  simp [sealShard, bind, Except.bind]

theorem restoreTextSearchShard_build (rows : List FtsRow) (conversationId : IdText) (timeBucket : String)
    (k conversationHashKey : KeyMaterial) (drawn : Nat) :
    restoreTextSearchShard P (buildTextSearchShard P rows conversationId timeBucket k conversationHashKey drawn) k = .ok rows := by
  unfold restoreTextSearchShard restoreSearchShard buildTextSearchShard
  rw [openShard_sealShard]
  simp [sealShard, bind, Except.bind, pure, Except.pure]

theorem restoreFuzzySearchShard_build (rows : List FuzzyRow) (conversationId : IdText) (timeBucket : String)
    (k conversationHashKey : KeyMaterial) (drawn : Nat) :
    restoreFuzzySearchShard P (buildFuzzySearchShard P rows conversationId timeBucket k conversationHashKey drawn) k =
      .ok rows := by
  unfold restoreFuzzySearchShard restoreSearchShard buildFuzzySearchShard
  rw [openShard_sealShard]
  simp [sealShard, bind, Except.bind, pure, Except.pure]

end RoundTrip

/-! ## A reference instance -/

namespace ShardPrimitives

open PrefixCodec Primitives

def idTextCodec : PrefixCodec IdText :=
  (nat.prod string).iso (fun | .uuid u => (u.val + 1, "") | .malformed s => (0, s))
    (fun p => if p.1 = 0 then .malformed p.2 else .uuid ⟨p.1 - 1⟩) (by intro t; cases t <;> simp)

def ftsRowCodec : PrefixCodec FtsRow :=
  (idTextCodec.prod <| uuidCodec.prod <| string.prod <| int.prod string).iso
    (fun r => (r.messageId, r.conversationId, r.senderId, r.createdAtMs, r.textContent))
    (fun t => ⟨t.1, t.2.1, t.2.2.1, t.2.2.2.1, t.2.2.2.2⟩) fun _ => rfl

def fuzzyRowCodec : PrefixCodec FuzzyRow :=
  (string.prod <| string.prod idTextCodec).iso (fun r => (r.token, r.script, r.messageId))
    (fun t => ⟨t.1, t.2.1, t.2.2⟩) fun _ => rfl

def shardPayloadCodec {ρ : Type} (row : PrefixCodec ρ) : PrefixCodec (ShardPayload ρ) :=
  (bytes.prod (list row)).iso (fun p => (p.magic, p.rows)) (fun t => ⟨t.1, t.2⟩) fun _ => rfl

def shardCodec : PrefixCodec SearchIndexShard :=
  (string.prod <| nat.prod <| uuidCodec.prod <| indexTypeCodec.prod <| bytes.prod <| string.prod <| nat.prod <|
    string.prod <| string.prod <| (array 24).prod <| (array 32).prod <| bytes.prod (array 32)).iso
    (fun s => (s.magic, s.version, s.shardId, s.indexType, s.conversationIdHash, s.timeBucket, s.docCount, s.compression,
      s.encryption, s.nonce, s.aadHash, s.ciphertext, s.ciphertextSha256))
    (fun (a, b, c, d, e, f, g, h, i, j, k, l, m) => ⟨a, b, c, d, e, f, g, h, i, j, k, l, m⟩) fun _ => rfl

/-- **Executable shard primitives with every law**; the hash of an id is the id behind the key. -/
def reference : ShardPrimitives where
  toPrimitives := Primitives.reference
  keyedConversationIdHash k c := k.toList ++ idTextCodec.toCodec.encode c
  keyedConversationIdHash_inj k c c' h := by
    exact idTextCodec.toCodec.encode_injective (List.append_cancel_left h)
  cborTextPayload := (shardPayloadCodec ftsRowCodec).toCodec
  cborFuzzyPayload := (shardPayloadCodec fuzzyRowCodec).toCodec
  cborShard := shardCodec.toCodec
  cborShard_ne_nil shard := by
    intro h
    have hnothing : shardCodec.toCodec.decode [] = none := by decide
    have hdec := shardCodec.toCodec.decode_encode shard
    rw [h, hnothing] at hdec
    exact absurd hdec (by simp)

end ShardPrimitives

end KChatCore.Search
