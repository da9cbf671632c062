import KChatCore.Restore.ColdShards
import KChatCore.Search.ShardCache

/-!
# `Search.TransportSource` — shards read from a backend that is not trusted

`TransportColdShardSource` asks the backend for the shard of a conversation and a bucket, and opens whatever comes back
under the key that is registered for the two. The AAD is put together from the fields of the shard that came back, so what
the AEAD vouches for is the key, not what was asked for.

* `fetchTextRows_sealed`, `fetchFuzzyRows_sealed` — the rows were sealed by some call, under the key that is registered.
* `coldShards_bound` — when they were sealed for what was asked for.
-/

namespace KChatCore.Search

open Lib LocalStore Restore

/-! ## The source -/

/-- `TransportColdShardSource`. -/
structure TransportColdShardSource where
  transport : ShardTransport
  coldBuckets : List (IdText × String)
  keyRegistry : ShardKeyRegistry
  conversationHashKey : KeyMaterial

namespace TransportColdShardSource

/-- `({conversation_id}, {time_bucket})`. -/
def pairText (conversationId : IdText) (timeBucket : String) : String :=
  let id := match conversationId with
    | .uuid u => u.hyphenated
    | .malformed s => s
  "(" ++ id ++ ", " ++ timeBucket ++ ")"

/-- `fetch_shard`: `none` when the backend has nothing. -/
def fetchShard (P : ShardPrimitives) (source : TransportColdShardSource) (conversationId : IdText) (timeBucket : String)
    (indexType : IndexType) : Except Error (Option SearchIndexShard) := do
  let convHash := P.keyedConversationIdHash source.conversationHashKey conversationId
  let bytes ← source.transport.fetchIndexShards convHash timeBucket (shardTypeStr indexType)
  if bytes.isEmpty then return none
  let shard ← okOr (P.cborShard.decode bytes) (.storageMsg
    ("TransportColdShardSource: shard cbor decode failed for " ++ tripleText conversationId timeBucket indexType))
  -- Neither the hash nor the bucket of `shard` is compared with what was asked for.
  return some shard

/-- What the two readers of rows do: they differ in the index type, the name of its key and the restorer. -/
def fetchRows {ρ : Type} (P : ShardPrimitives) (source : TransportColdShardSource) (indexType : IndexType) (keyName : String)
    (restore : SearchIndexShard → KeyMaterial → Except Error (List ρ)) (conversationId : IdText) (timeBucket : String) :
    Except Error (List ρ) := do
  let fetched ← fetchShard P source conversationId timeBucket indexType
  match fetched with
  | none => return []
  | some shard =>
      let kShard ← okOr (source.keyRegistry conversationId timeBucket indexType) (.storageMsg
        ("TransportColdShardSource: missing " ++ keyName ++ " for " ++ pairText conversationId timeBucket))
      restore shard kShard

/-- `fetch_text_rows`. -/
def fetchTextRows (P : ShardPrimitives) (source : TransportColdShardSource) (conversationId : IdText) (timeBucket : String) :
    Except Error (List FtsRow) :=
  fetchRows P source .text "K_text_index_shard" (restoreTextSearchShard P) conversationId timeBucket

/-- `fetch_fuzzy_rows`. -/
def fetchFuzzyRows (P : ShardPrimitives) (source : TransportColdShardSource) (conversationId : IdText) (timeBucket : String) :
    Except Error (List FuzzyRow) :=
  fetchRows P source .fuzzy "K_fuzzy_index_shard" (restoreFuzzySearchShard P) conversationId timeBucket

/-- The adapter as the query engine sees it; it offers no bloom shards. -/
def toColdShardSource (P : ShardPrimitives) (source : TransportColdShardSource) : ColdShardSource where
  coldBuckets := .ok source.coldBuckets
  fetchTextRows := fetchTextRows P source
  fetchFuzzyRows := fetchFuzzyRows P source
  fetchBloomShard _ _ := .ok none

end TransportColdShardSource

/-! ## What has been sealed -/

/-- The kinds of shard that are neither text nor fuzzy. -/
inductive OtherIndex
  | bloom
  | vector
  | media
deriving DecidableEq, Repr

/-- The index type of such a kind. -/
def OtherIndex.indexType : OtherIndex → IndexType
  | .bloom => .bloom
  | .vector => .vector
  | .media => .media

/-- One call of a shard builder, with what it drew. -/
inductive BuildCall
  | text (rows : List FtsRow) (conversationId : IdText) (timeBucket : String) (kShard hashKey : KeyMaterial) (drawn : Nat)
  | fuzzy (rows : List FuzzyRow) (conversationId : IdText) (timeBucket : String) (kShard hashKey : KeyMaterial) (drawn : Nat)
  | other (kind : OtherIndex) (payloadCbor : Bytes) (docCount : Nat) (conversationId : IdText) (timeBucket : String)
      (kShard hashKey : KeyMaterial) (drawn : Nat)

namespace BuildCall

/-- The shard that is uploaded. -/
def shard (P : ShardPrimitives) : BuildCall → SearchIndexShard
  | .text rows conversationId timeBucket k hashKey drawn =>
      buildTextSearchShard P rows conversationId timeBucket k hashKey drawn
  | .fuzzy rows conversationId timeBucket k hashKey drawn =>
      buildFuzzySearchShard P rows conversationId timeBucket k hashKey drawn
  | .other kind payloadCbor docCount conversationId timeBucket k hashKey drawn =>
      sealShard P payloadCbor kind.indexType (P.keyedConversationIdHash hashKey conversationId) timeBucket docCount k drawn

/-- The key it is sealed under. -/
def key : BuildCall → KeyMaterial
  | .text _ _ _ k _ _ => k
  | .fuzzy _ _ _ k _ _ => k
  | .other _ _ _ _ _ k _ _ => k

/-- The payload that is compressed and sealed. -/
def payload (P : ShardPrimitives) : BuildCall → Bytes
  | .text rows _ _ _ _ _ => P.cborTextPayload.encode ⟨textShardPayloadMagic, rows⟩
  | .fuzzy rows _ _ _ _ _ => P.cborFuzzyPayload.encode ⟨fuzzyShardPayloadMagic, rows⟩
  | .other _ payloadCbor _ _ _ _ _ _ => payloadCbor

end BuildCall

/-- The AAD that a shard's own fields make. -/
def SearchIndexShard.aad (shard : SearchIndexShard) : Bytes :=
  buildShardAad shard.shardId shard.indexType shard.conversationIdHash shard.timeBucket

/-- **An ideal AEAD**: a ciphertext opens under the key, nonce and AAD it was sealed under, to what was sealed, and under
no others. -/
def IdealAead (P : ShardPrimitives) : Prop :=
  ∀ k n p a k' n' a' p', P.aeadOpen k' n' (P.aeadSeal k n p a) a' = some p' → k' = k ∧ n' = n ∧ a' = a ∧ p' = p

/-- **Bytes that carry no forgery**: the ciphertext in them, if they are a frame at all, is that of a shard that was built or
one that opens under nothing. -/
def NothingForged (P : ShardPrimitives) (calls : List BuildCall) (bytes : Bytes) : Prop :=
  ∀ shard, P.cborShard.decode bytes = some shard →
    (∃ call ∈ calls, shard.ciphertext = (call.shard P).ciphertext) ∨ ∀ k n a, P.aeadOpen k n shard.ciphertext a = none

/-- **A backend without keys**: it may replay, alter and make up, but not forge. -/
def KeylessBackend (P : ShardPrimitives) (calls : List BuildCall) (transport : ShardTransport) : Prop :=
  ∀ convHash timeBucket shardType bytes, transport.fetchIndexShards convHash timeBucket shardType = .ok bytes →
    NothingForged P calls bytes

/-- The rows were sealed for the conversation and the bucket, by one call. -/
def SealedText (calls : List BuildCall) (conversationId : IdText) (timeBucket : String) (rows : List FtsRow) : Prop :=
  ∃ k hashKey drawn, .text rows conversationId timeBucket k hashKey drawn ∈ calls

/-- The same of fuzzy rows. -/
def SealedFuzzy (calls : List BuildCall) (conversationId : IdText) (timeBucket : String) (rows : List FuzzyRow) : Prop :=
  ∃ k hashKey drawn, .fuzzy rows conversationId timeBucket k hashKey drawn ∈ calls

/-! ## What opening tells -/

section Opening

variable {P : ShardPrimitives} {calls : List BuildCall} {source : TransportColdShardSource} {conversationId : IdText}
  {timeBucket : String} {k : KeyMaterial}

/-- Every call seals its payload with the AAD of its own fields. -/
theorem ciphertext_shard (call : BuildCall) : (call.shard P).ciphertext =
    P.aeadSeal call.key (call.shard P).nonce (P.encodeAll (call.payload P)) (call.shard P).aad := by
  cases call <;> rfl

/-- The AAD determines the index type, which stands behind a magic of fixed length. -/
theorem indexType_of_buildShardAad {id id' : Uuid} {t t' : IndexType} {hash hash' : Bytes} {bucket bucket' : String}
    (h : buildShardAad id t hash bucket = buildShardAad id' t' hash' bucket') : t = t' := by
  unfold buildShardAad at h
  simp only [List.append_assoc] at h
  have hbyte := (List.cons.inj (List.append_cancel_left h)).1
  cases t <;> cases t' <;> first | rfl | exact absurd hbyte (by decide)

/-- What a shard that opens has been through. -/
theorem openShard_eq_ok {shard : SearchIndexShard} {cbor : Bytes} (h : openShard P shard k = .ok cbor) :
    ∃ compressed, P.aeadOpen k shard.nonce shard.ciphertext shard.aad = some compressed ∧
      P.decodeAll compressed = some cbor := by
  unfold openShard at h
  split at h
  · exact absurd h (by simp)
  · simp only at h
    split at h
    · exact absurd h (by simp)
    · obtain ⟨compressed, hopen, hdecode⟩ := except_bind_eq_ok.mp h
      exact ⟨compressed, okOr_eq_ok.mp hopen, okOr_eq_ok.mp hdecode⟩

/-- What a shard whose rows come back has been through. -/
theorem restoreSearchShard_eq_ok {ρ : Type} {expected : IndexType} {name : String} {codec : Codec (ShardPayload ρ)}
    {magic : Bytes} {shard : SearchIndexShard} {rows : List ρ}
    (h : restoreSearchShard P expected name codec magic shard k = .ok rows) :
    shard.indexType = expected ∧ ∃ cbor, openShard P shard k = .ok cbor ∧ codec.decode cbor = some ⟨magic, rows⟩ := by
  unfold restoreSearchShard at h
  split at h
  · exact absurd h (by simp)
  · next htype =>
      obtain ⟨cbor, hopen, h⟩ := except_bind_eq_ok.mp h
      obtain ⟨payload, hdecode, h⟩ := except_bind_eq_ok.mp h
      split at h
      · exact absurd h (by simp)
      · next hmagic =>
          obtain rfl := Except.ok.inj h
          refine ⟨not_not.mp htype, cbor, hopen, ?_⟩
          rw [okOr_eq_ok.mp hdecode, ← not_not.mp hmagic]

/-- **A shard that opens was sealed**: by a call with the same key, index type and payload. Its conversation and its bucket
need not be those of the call. -/
theorem exists_call_of_openShard (hideal : IdealAead P) {shard : SearchIndexShard} {cbor : Bytes}
    (hcipher : (∃ call ∈ calls, shard.ciphertext = (call.shard P).ciphertext) ∨
      ∀ k n a, P.aeadOpen k n shard.ciphertext a = none)
    (hopen : openShard P shard k = .ok cbor) :
    ∃ call ∈ calls, call.key = k ∧ (call.shard P).indexType = shard.indexType ∧ call.payload P = cbor := by
  obtain ⟨compressed, haead, hdecode⟩ := openShard_eq_ok hopen
  rcases hcipher with ⟨call, hcall, hsame⟩ | hnone
  · rw [hsame, ciphertext_shard] at haead
    obtain ⟨hkey, -, haad, hplain⟩ := hideal _ _ _ _ _ _ _ _ haead
    refine ⟨call, hcall, hkey.symm, (indexType_of_buildShardAad haad).symm, ?_⟩
    rw [hplain, P.decodeAll_encodeAll] at hdecode
    exact Option.some.inj hdecode
  · rw [hnone] at haead
    exact absurd haead (by simp)

/-- What a fetch that brings rows has been through. -/
theorem fetchRows_eq_ok {ρ : Type} {indexType : IndexType} {keyName : String}
    {restore : SearchIndexShard → KeyMaterial → Except Error (List ρ)} {rows : List ρ}
    (h : source.fetchRows P indexType keyName restore conversationId timeBucket = .ok rows) (hne : rows ≠ []) :
    ∃ bytes shard k, source.transport.fetchIndexShards (P.keyedConversationIdHash source.conversationHashKey conversationId)
        timeBucket (shardTypeStr indexType) = .ok bytes ∧ P.cborShard.decode bytes = some shard ∧
      source.keyRegistry conversationId timeBucket indexType = some k ∧ restore shard k = .ok rows := by
  unfold TransportColdShardSource.fetchRows at h
  obtain ⟨fetched, hfetch, h⟩ := except_bind_eq_ok.mp h
  unfold TransportColdShardSource.fetchShard at hfetch
  obtain ⟨bytes, hbytes, hfetch⟩ := except_bind_eq_ok.mp hfetch
  split at hfetch
  · obtain rfl := Except.ok.inj hfetch
    exact absurd (Except.ok.inj h).symm hne
  · obtain ⟨shard, hdecode, hfetch⟩ := except_bind_eq_ok.mp hfetch
    obtain rfl := Except.ok.inj hfetch
    obtain ⟨k, hkey, hrestore⟩ := except_bind_eq_ok.mp h
    exact ⟨bytes, shard, k, hbytes, okOr_eq_ok.mp hdecode, okOr_eq_ok.mp hkey, hrestore⟩

/-- **Text rows that come back were sealed under the registered key**, for some conversation and bucket. -/
theorem fetchTextRows_sealed (hideal : IdealAead P) (hbackend : KeylessBackend P calls source.transport)
    {rows : List FtsRow} (h : source.fetchTextRows P conversationId timeBucket = .ok rows) (hne : rows ≠ []) :
    ∃ k, source.keyRegistry conversationId timeBucket .text = some k ∧
      ∃ c b hashKey drawn, .text rows c b k hashKey drawn ∈ calls := by
  obtain ⟨bytes, shard, k, hbytes, hdecode, hkey, hrestore⟩ := fetchRows_eq_ok h hne
  obtain ⟨htype, cbor, hopen, hpayload⟩ := restoreSearchShard_eq_ok hrestore
  obtain ⟨call, hcall, rfl, hsame, rfl⟩ := exists_call_of_openShard hideal (hbackend _ _ _ _ hbytes shard hdecode) hopen
  rw [htype] at hsame
  refine ⟨call.key, hkey, ?_⟩
  cases call with
  | text rows' c b k hashKey drawn =>
      have hrows := hpayload
      rw [BuildCall.payload, P.cborTextPayload.decode_encode] at hrows
      obtain rfl : rows' = rows := congrArg ShardPayload.rows (Option.some.inj hrows)
      exact ⟨c, b, hashKey, drawn, hcall⟩
  | fuzzy rows' c b k hashKey drawn => exact absurd hsame (by simp [BuildCall.shard, buildFuzzySearchShard, sealShard])
  | other kind cbor n c b k hashKey drawn => cases kind <;> exact absurd hsame (by simp [BuildCall.shard, sealShard, OtherIndex.indexType])

/-- **Fuzzy rows that come back were sealed under the registered key**, for some conversation and bucket. -/
theorem fetchFuzzyRows_sealed (hideal : IdealAead P) (hbackend : KeylessBackend P calls source.transport)
    {rows : List FuzzyRow} (h : source.fetchFuzzyRows P conversationId timeBucket = .ok rows) (hne : rows ≠ []) :
    ∃ k, source.keyRegistry conversationId timeBucket .fuzzy = some k ∧
      ∃ c b hashKey drawn, .fuzzy rows c b k hashKey drawn ∈ calls := by
  obtain ⟨bytes, shard, k, hbytes, hdecode, hkey, hrestore⟩ := fetchRows_eq_ok h hne
  obtain ⟨htype, cbor, hopen, hpayload⟩ := restoreSearchShard_eq_ok hrestore
  obtain ⟨call, hcall, rfl, hsame, rfl⟩ := exists_call_of_openShard hideal (hbackend _ _ _ _ hbytes shard hdecode) hopen
  rw [htype] at hsame
  refine ⟨call.key, hkey, ?_⟩
  cases call with
  | text rows' c b k hashKey drawn => exact absurd hsame (by simp [BuildCall.shard, buildTextSearchShard, sealShard])
  | fuzzy rows' c b k hashKey drawn =>
      have hrows := hpayload
      rw [BuildCall.payload, P.cborFuzzyPayload.decode_encode] at hrows
      obtain rfl : rows' = rows := congrArg ShardPayload.rows (Option.some.inj hrows)
      exact ⟨c, b, hashKey, drawn, hcall⟩
  | other kind cbor n c b k hashKey drawn => cases kind <;> exact absurd hsame (by simp [BuildCall.shard, sealShard, OtherIndex.indexType])

end Opening

/-! ## Replaying -/

/-- A backend that answers everything with one uploaded shard. -/
def replaying (P : ShardPrimitives) (call : BuildCall) : ShardTransport :=
  ⟨fun _ _ _ => .ok (P.cborShard.encode (call.shard P))⟩

section Replaying

variable {P : ShardPrimitives} {calls : List BuildCall} {buckets : List (IdText × String)} {registry : ShardKeyRegistry}
  {hashKey : KeyMaterial} {conversationId : IdText} {timeBucket : String} {k : KeyMaterial}

theorem replaying_keyless {call : BuildCall} (h : call ∈ calls) : KeylessBackend P calls (replaying P call) := by
  intro convHash bucket shardType bytes hbytes shard hdecode
  obtain rfl := Except.ok.inj hbytes
  rw [P.cborShard.decode_encode] at hdecode
  obtain rfl := Option.some.inj hdecode
  exact Or.inl ⟨call, h, rfl⟩

/-- Whatever is asked for, the reader restores the shard that is replayed. -/
theorem fetchRows_replaying {ρ : Type} {indexType : IndexType} {keyName : String}
    {restore : SearchIndexShard → KeyMaterial → Except Error (List ρ)} (call : BuildCall)
    (hkey : registry conversationId timeBucket indexType = some k) :
    TransportColdShardSource.fetchRows P ⟨replaying P call, buckets, registry, hashKey⟩ indexType keyName restore
      conversationId timeBucket = restore (call.shard P) k := by
  have hne : (P.cborShard.encode (call.shard P)).isEmpty = false :=
    List.isEmpty_eq_false_iff.mpr (P.cborShard_ne_nil _)
  simp only [TransportColdShardSource.fetchRows, TransportColdShardSource.fetchShard, replaying, bind, Except.bind, pure,
    Except.pure, hne, Bool.false_eq_true, if_false, P.cborShard.decode_encode, okOr_some, hkey]

/-- **A text shard is accepted in place of any other of its key.** -/
theorem fetchTextRows_replaying (rows : List FtsRow) (c : IdText) (b : String) (hashKey' : KeyMaterial) (drawn : Nat)
    (hkey : registry conversationId timeBucket .text = some k) :
    TransportColdShardSource.fetchTextRows P ⟨replaying P (.text rows c b k hashKey' drawn), buckets, registry, hashKey⟩
      conversationId timeBucket = .ok rows := by
  unfold TransportColdShardSource.fetchTextRows
  rw [fetchRows_replaying _ hkey]
  exact restoreTextSearchShard_build _ _ _ _ _ _

/-- **A fuzzy shard is accepted in place of any other of its key.** -/
theorem fetchFuzzyRows_replaying (rows : List FuzzyRow) (c : IdText) (b : String) (hashKey' : KeyMaterial) (drawn : Nat)
    (hkey : registry conversationId timeBucket .fuzzy = some k) :
    TransportColdShardSource.fetchFuzzyRows P ⟨replaying P (.fuzzy rows c b k hashKey' drawn), buckets, registry, hashKey⟩
      conversationId timeBucket = .ok rows := by
  unfold TransportColdShardSource.fetchFuzzyRows
  rw [fetchRows_replaying _ hkey]
  exact restoreFuzzySearchShard_build _ _ _ _ _ _

end Replaying

/-! ## When a shard is bound to what was asked for -/

/-- **The key registered for a conversation and bucket has sealed no other text rows**: whatever text rows a shard under it
holds were also built for the two. -/
def TextKeyApart (calls : List BuildCall) (registry : ShardKeyRegistry) (conversationId : IdText) (timeBucket : String) : Prop :=
  ∀ k, registry conversationId timeBucket .text = some k →
    ∀ rows c b hashKey drawn, .text rows c b k hashKey drawn ∈ calls → rows ≠ [] → SealedText calls conversationId timeBucket rows

/-- The same of fuzzy rows. -/
def FuzzyKeyApart (calls : List BuildCall) (registry : ShardKeyRegistry) (conversationId : IdText) (timeBucket : String) : Prop :=
  ∀ k, registry conversationId timeBucket .fuzzy = some k →
    ∀ rows c b hashKey drawn, .fuzzy rows c b k hashKey drawn ∈ calls → rows ≠ [] → SealedFuzzy calls conversationId timeBucket rows

/-- **No text shard can be substituted**: whatever backend without keys answers, rows that come back were sealed for what was
asked for. -/
def TextUnsubstituted (P : ShardPrimitives) (calls : List BuildCall) (buckets : List (IdText × String))
    (registry : ShardKeyRegistry) (hashKey : KeyMaterial) (conversationId : IdText) (timeBucket : String) : Prop :=
  ∀ transport, KeylessBackend P calls transport → ∀ rows,
    TransportColdShardSource.fetchTextRows P ⟨transport, buckets, registry, hashKey⟩ conversationId timeBucket = .ok rows →
      rows ≠ [] → SealedText calls conversationId timeBucket rows

/-- No fuzzy shard can be substituted. -/
def FuzzyUnsubstituted (P : ShardPrimitives) (calls : List BuildCall) (buckets : List (IdText × String))
    (registry : ShardKeyRegistry) (hashKey : KeyMaterial) (conversationId : IdText) (timeBucket : String) : Prop :=
  ∀ transport, KeylessBackend P calls transport → ∀ rows,
    TransportColdShardSource.fetchFuzzyRows P ⟨transport, buckets, registry, hashKey⟩ conversationId timeBucket = .ok rows →
      rows ≠ [] → SealedFuzzy calls conversationId timeBucket rows

/-- **Shards cannot be substituted exactly where the registered key is apart**: the key is all that binds them. -/
theorem coldShards_bound (P : ShardPrimitives) (hideal : IdealAead P) (calls : List BuildCall)
    (buckets : List (IdText × String)) (registry : ShardKeyRegistry) (hashKey : KeyMaterial) (conversationId : IdText)
    (timeBucket : String) :
    (TextUnsubstituted P calls buckets registry hashKey conversationId timeBucket ↔
      TextKeyApart calls registry conversationId timeBucket) ∧
    (FuzzyUnsubstituted P calls buckets registry hashKey conversationId timeBucket ↔
      FuzzyKeyApart calls registry conversationId timeBucket) := by
  refine ⟨⟨?_, ?_⟩, ⟨?_, ?_⟩⟩
  · intro h k hkey rows c b hashKey' drawn hcall hne
    -- a backend can replay any text shard it has seen
    exact h _ (replaying_keyless hcall) rows (fetchTextRows_replaying rows c b hashKey' drawn hkey) hne
  · intro h transport hbackend rows hfetch hne
    obtain ⟨k, hkey, c, b, hashKey', drawn, hcall⟩ := fetchTextRows_sealed hideal hbackend hfetch hne
    exact h k hkey rows c b hashKey' drawn hcall hne
  · intro h k hkey rows c b hashKey' drawn hcall hne
    exact h _ (replaying_keyless hcall) rows (fetchFuzzyRows_replaying rows c b hashKey' drawn hkey) hne
  · intro h transport hbackend rows hfetch hne
    obtain ⟨k, hkey, c, b, hashKey', drawn, hcall⟩ := fetchFuzzyRows_sealed hideal hbackend hfetch hne
    exact h k hkey rows c b hashKey' drawn hcall hne

/-! ## Two buckets under one key -/

/-- What a ciphertext of the ideal reference starts with: its key, nonce and AAD. -/
def sealedUnder : PrefixCodec (ByteArr 32 × ByteArr 24 × Bytes) :=
  (PrefixCodec.array 32).prod ((PrefixCodec.array 24).prod PrefixCodec.bytes)

/-- Open what was sealed under exactly these. -/
def idealOpen (k : KeyMaterial) (n : ByteArr 24) (c a : Bytes) : Option Bytes :=
  (sealedUnder.dec c).bind fun p => if p.1 = (k, n, a) then some p.2 else none

/-- **The reference primitives with an ideal AEAD.** -/
def idealPrimitives : ShardPrimitives := { ShardPrimitives.reference with
  aeadSeal := fun k n p a => sealedUnder.enc (k, n, a) ++ p
  aeadOpen := idealOpen
  aeadOpen_aeadSeal := fun k n p a => by simp [idealOpen, sealedUnder.dec_enc]
  length_le_aeadSeal := fun k n p a => by
    rw [List.length_append]
    exact Nat.le_add_left _ _ }

theorem idealPrimitives_ideal : IdealAead idealPrimitives := by
  intro k n p a k' n' a' p' h
  have hopen : idealOpen k' n' (sealedUnder.enc (k, n, a) ++ p) a' = some p' := h
  simp only [idealOpen, sealedUnder.dec_enc, Option.bind_some] at hopen
  split at hopen
  · next hsame =>
      obtain ⟨hk, hrest⟩ := Prod.mk.inj hsame
      obtain ⟨hn, ha⟩ := Prod.mk.inj hrest
      exact ⟨hk.symm, hn.symm, ha.symm, (Option.some.inj hopen).symm⟩
  · exact absurd hopen (by simp)

/-- A row of the April bucket. -/
def aprilRow : FtsRow := ⟨.malformed "msg-1", ⟨1⟩, "sender-1", 1_777_000_000_000, "hello world"⟩

/-- April is built under the one key there is. -/
def aprilCall : BuildCall := .text [aprilRow] (.malformed "conv-A") "2026-04" (.replicate 32 1) (.replicate 32 2) 0

/-- A registry that gives every bucket the same key. -/
def oneKeyRegistry : ShardKeyRegistry := fun _ _ _ => some (.replicate 32 1)

/-- **May is answered with April's shard**, and its rows are accepted. -/
theorem coldShards_substituted : IdealAead idealPrimitives ∧
    ¬ TextUnsubstituted idealPrimitives [aprilCall] [] oneKeyRegistry (.replicate 32 2) (.malformed "conv-A") "2026-05" := by
  refine ⟨idealPrimitives_ideal, fun h => ?_⟩
  obtain ⟨k, hashKey, drawn, hcall⟩ := h _ (replaying_keyless List.mem_cons_self) [aprilRow]
    (fetchTextRows_replaying [aprilRow] (.malformed "conv-A") "2026-04" (.replicate 32 2) 0 rfl) (by simp)
  obtain ⟨-, -, hbucket, -⟩ := BuildCall.text.inj (List.mem_singleton.mp hcall)
  exact absurd hbucket (by decide)

/-- April's own bucket is bound, where no other shard has its key. -/
theorem coldShards_bound_april : TextUnsubstituted idealPrimitives [aprilCall] [] oneKeyRegistry (.replicate 32 2)
    (.malformed "conv-A") "2026-04" := by
  refine (coldShards_bound idealPrimitives idealPrimitives_ideal [aprilCall] [] oneKeyRegistry (.replicate 32 2)
    (.malformed "conv-A") "2026-04").1.mpr fun k hkey rows c b hashKey drawn hcall hne => ?_
  obtain ⟨hrows, -⟩ := BuildCall.text.inj (List.mem_singleton.mp hcall)
  rw [hrows]
  exact ⟨_, _, _, List.mem_cons_self⟩

end KChatCore.Search
