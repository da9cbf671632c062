import KChatCore.Archive.Rehydration
import KChatCore.Backup.Calls
import KChatCore.Backup.Invariant
import KChatCore.Lib.Buckets
import KChatCore.Restore.ColdShards

/-!
# `Backup.SearchShards` — a backup pass that uploads search shards

`runIncrementalBackupWithSearchShards` runs an incremental backup and then goes over what it sealed: for each
conversation and bucket, it takes the index rows of the messages the sealed events name and uploads them as a text
and a fuzzy shard. A shard takes the place of the one before it.

* `ShardServer` — a transport that keeps the last blob per conversation hash, bucket and shard type.
* `storedRows_uploadBuckets` — what a sweep leaves in each bucket.
-/

namespace KChatCore.Backup

open Archive Lib LocalStore Restore Search

/-! ## The server -/

/-- The `Display` form. -/
def transportDisplay : TransportError → String
  | .network msg => "network: " ++ msg
  | .custom msg => msg

/-- **A shard server**: the blobs uploaded so far, latest first, and what it answers to each upload. -/
structure ShardServer where
  blobs : List ((Bytes × String × String) × Bytes)
  attempts : Nat
  answers : Nat → Except Error Unit

namespace ShardServer

/-- A server that holds nothing and takes everything. -/
def empty : ShardServer := ⟨[], 0, fun _ => .ok ()⟩

/-- A blob that lands. -/
def keep (s : ShardServer) (key : Bytes × String × String) (ciphertext : Bytes) : ShardServer :=
  { s with blobs := (key, ciphertext) :: s.blobs, attempts := s.attempts + 1 }

/-- `upload_index_shard`. -/
def uploadIndexShard (s : ShardServer) (conversationHash : Bytes) (bucket shardType : String) (ciphertext : Bytes) :
    Except Error Unit × ShardServer :=
  match s.answers s.attempts with
  | .ok () => (.ok (), s.keep (conversationHash, bucket, shardType) ciphertext)
  | .error e => (.error e, { s with attempts := s.attempts + 1 })

/-- What it serves: the last blob uploaded, or nothing. -/
def transport (s : ShardServer) : ShardTransport :=
  ⟨fun conversationHash bucket shardType => .ok ((s.blobs.lookup (conversationHash, bucket, shardType)).getD [])⟩

/-- Every upload goes through. -/
def Accepts (s : ShardServer) : Prop := ∀ n, s.answers n = .ok ()

end ShardServer

/-! ## One bucket -/

/-- `UploadedShardMetadata`. -/
structure UploadedShardMetadata where
  shardId : Uuid
  docCount : Nat
  ciphertextLen : Nat
  ciphertextSha256 : ByteArr 32
deriving DecidableEq

/-- `UploadedSearchShards`; the hash is not base64 here. -/
structure UploadedSearchShards where
  conversationHash : Bytes
  timeBucket : String
  textShard : Option UploadedShardMetadata
  fuzzyShard : Option UploadedShardMetadata
  textError : Option String
  fuzzyError : Option String
deriving DecidableEq

/-- What an upload reads and writes: the server, and the entropy shard ids and nonces are drawn from. -/
structure UploadState where
  server : ShardServer
  drawn : Nat

/-- One half of `upload_search_shards`: without rows nothing is built. A transport error is recorded, any other is
returned. -/
def uploadHalf (P : ShardPrimitives) (conversationHash : Bytes) (timeBucket shardType : String) (noRows : Bool)
    (build : Nat → SearchIndexShard) (st : UploadState) :
    Except Error (Option UploadedShardMetadata × Option String) × UploadState :=
  if noRows then (.ok (none, none), st)
  else
    let shard := build st.drawn
    let bytes := P.cborShard.encode shard
    match st.server.uploadIndexShard conversationHash timeBucket shardType bytes with
    | (.ok (), server) =>
        (.ok (some ⟨shard.shardId, shard.docCount, bytes.length, shard.ciphertextSha256⟩, none), ⟨server, st.drawn + 1⟩)
    | (.error (.transport e), server) =>
        (.ok (none, some ("upload_search_shards " ++ shardType ++ ": " ++ transportDisplay e)), ⟨server, st.drawn + 1⟩)
    | (.error e, server) => (.error e, ⟨server, st.drawn + 1⟩)

/-- `upload_search_shards`. -/
def uploadSearchShards (P : ShardPrimitives) (conversationId : IdText) (timeBucket : String) (ftsRows : List FtsRow)
    (fuzzyRows : List FuzzyRow) (kTextIndexShard kFuzzyIndexShard conversationHashKey : KeyMaterial) (st : UploadState) :
    Except Error UploadedSearchShards × UploadState :=
  let conversationHash := P.keyedConversationIdHash conversationHashKey conversationId
  match uploadHalf P conversationHash timeBucket "text" ftsRows.isEmpty
      (buildTextSearchShard P ftsRows conversationId timeBucket kTextIndexShard conversationHashKey) st with
  | (.error e, st) => (.error e, st)
  | (.ok (textShard, textError), st) =>
      match uploadHalf P conversationHash timeBucket "fuzzy" fuzzyRows.isEmpty
          (buildFuzzySearchShard P fuzzyRows conversationId timeBucket kFuzzyIndexShard conversationHashKey) st with
      | (.error e, st) => (.error e, st)
      | (.ok (fuzzyShard, fuzzyError), st) =>
          (.ok ⟨conversationHash, timeBucket, textShard, fuzzyShard, textError, fuzzyError⟩, st)

/-! ## The sweep -/

/-- `key_for_bucket`: the keys of a bucket's text and fuzzy shard. -/
abbrev KeyForBucket := IdText → String → Except Error (KeyMaterial × KeyMaterial)

/-- The bucket a sealed event falls into: that of the event, not of the message. -/
def SealedBackupEventRef.bucket (sealed : SealedBackupEventRef) : Uuid × String :=
  (sealed.conversationId, defaultTimeBucketForMs sealed.createdAtMs)

/-- The sealed events by conversation and bucket, as the messages they name: one entry for each event. -/
def bucketMap (sealed : List SealedBackupEventRef) : List ((Uuid × String) × List Uuid) :=
  (buckets bucketLe (fun e : SealedBackupEventRef => some e.bucket) sealed).map fun p =>
    (p.1, p.2.map SealedBackupEventRef.messageId)

/-- The index rows of the messages: the first `search_fts` row of each and all its `search_fuzzy` rows. -/
def bucketRows (db : LocalStoreDb) (mids : List Uuid) : List FtsRow × List FuzzyRow :=
  (mids.filterMap fun m => db.fts.find? fun r => r.messageId = m.toText,
    mids.flatMap fun m => db.fuzzy.rows.filter fun r => r.messageId = m.toText)

/-- The upload sweep over the buckets. -/
def uploadBuckets (P : ShardPrimitives) (db : LocalStoreDb) (conversationHashKey : KeyMaterial) (keyForBucket : KeyForBucket) :
    List ((Uuid × String) × List Uuid) → UploadState → Except Error (List UploadedSearchShards) × UploadState
  | [], st => (.ok [], st)
  | ((conversationId, bucket), mids) :: rest, st =>
      let rows := bucketRows db mids
      if rows.1.isEmpty && rows.2.isEmpty then uploadBuckets P db conversationHashKey keyForBucket rest st
      else
        match keyForBucket conversationId.toText bucket with
        | .error e => (.error e, st)
        | .ok (kText, kFuzzy) =>
            match uploadSearchShards P conversationId.toText bucket rows.1 rows.2 kText kFuzzy conversationHashKey st with
            | (.error e, st) => (.error e, st)
            | (.ok receipt, st) =>
                match uploadBuckets P db conversationHashKey keyForBucket rest st with
                | (.error e, st) => (.error e, st)
                | (.ok receipts, st) => (.ok (receipt :: receipts), st)

/-! ## The call -/

/-- A call of the inner pipeline leaves the journal alone. -/
theorem journal_runIncrementalBackupInner (P : Primitives) (nowPersistMs : Int) (c : Core) :
    (runIncrementalBackupInner P nowPersistMs c).2.db.journal = c.db.journal := by
  rcases hrun : runIncrementalBackupInner P nowPersistMs c with ⟨r, c'⟩
  rcases runIncrementalBackupInner_cases hrun with ⟨hu, -⟩ | ⟨keys, batch, tracked, sealed, c₂, ru, hi, hup, -⟩
  · exact congrArg BackupDb.journal hu.db
  · exact (congrArg BackupDb.journal (uploadStep_frame hup).1).trans hi.committed.journal

/-- **A device that backs up**: its store, its backup pipelines over the journal of that store, and a shard server. -/
structure Device where
  store : LocalStoreDb
  core : Core
  server : ShardServer
  journal : core.db.journal = store.backupJournal

/-- After an upload. -/
def Device.uploaded (d : Device) (st : UploadState) : Device where
  store := d.store
  core := { d.core with drawn := st.drawn }
  server := st.server
  journal := d.journal

/-- After a call of the inner pipeline. -/
def Device.backedUp (P : Primitives) (nowPersistMs : Int) (d : Device) : Device where
  store := d.store
  core := (runIncrementalBackupInner P nowPersistMs d.core).2
  server := d.server
  journal := (journal_runIncrementalBackupInner P nowPersistMs d.core).trans d.journal

/-- `RunIncrementalBackupWithShards`. -/
structure RunIncrementalBackupWithShards where
  backup : BackupResult
  shards : List UploadedSearchShards

/-- `run_incremental_backup_with_search_shards`. -/
def runIncrementalBackupWithSearchShards (P : ShardPrimitives) (nowPersistMs : Int) (conversationHashKey : KeyMaterial)
    (keyForBucket : KeyForBucket) (d : Device) : Except Error RunIncrementalBackupWithShards × Device :=
  let d' := d.backedUp P.toPrimitives nowPersistMs
  match (runIncrementalBackupInner P.toPrimitives nowPersistMs d.core).1 with
  | .error e => (.error e, d')
  | .ok (backup, sealedEvents) =>
      let buckets := bucketMap sealedEvents
      if buckets.isEmpty || backup.segmentsBuilt = 0 then (.ok ⟨backup, []⟩, d')
      else
        match uploadBuckets P d'.store conversationHashKey keyForBucket buckets ⟨d'.server, d'.core.drawn⟩ with
        | (.error e, st) => (.error e, d'.uploaded st)
        | (.ok shards, st) => (.ok ⟨backup, shards⟩, d'.uploaded st)

/-! ## What a server holds -/

section Stored

variable (P : ShardPrimitives) (conversationHashKey : KeyMaterial) (keyForBucket : KeyForBucket)

/-- The rows of a stored shard: none if there is no blob, or none that opens. -/
def ShardServer.openRows {ρ : Type} (s : ShardServer) (conversationHash : Bytes) (bucket shardType : String)
    (restore : SearchIndexShard → Except Error (List ρ)) : List ρ :=
  (((s.blobs.lookup (conversationHash, bucket, shardType)).bind P.cborShard.decode).bind fun shard =>
    (restore shard).toOption).getD []

/-- **The rows of a bucket's two shards**, opened under the bucket's keys. -/
def storedRows (s : ShardServer) (key : Uuid × String) : List FtsRow × List FuzzyRow :=
  match keyForBucket key.1.toText key.2 with
  | .error _ => ([], [])
  | .ok (kText, kFuzzy) =>
      let conversationHash := P.keyedConversationIdHash conversationHashKey key.1.toText
      (s.openRows P conversationHash key.2 "text" fun shard => restoreTextSearchShard P shard kText,
        s.openRows P conversationHash key.2 "fuzzy" fun shard => restoreFuzzySearchShard P shard kFuzzy)

/-- Rows uploaded over rows: a shard without rows is not uploaded. -/
def overlay (rows stored : List FtsRow × List FuzzyRow) : List FtsRow × List FuzzyRow :=
  (if rows.1.isEmpty then stored.1 else rows.1, if rows.2.isEmpty then stored.2 else rows.2)

end Stored

/-! ## What an upload leaves -/

section Upload

variable {P : ShardPrimitives} {conversationHashKey : KeyMaterial} {keyForBucket : KeyForBucket} {st st' : UploadState}

/-- A kept shard is served under its own key, the others as before. -/
theorem openRows_keep {ρ : Type} (s : ShardServer) (key : Bytes × String × String) (shard : SearchIndexShard)
    (conversationHash : Bytes) (bucket shardType : String) (restore : SearchIndexShard → Except Error (List ρ)) :
    (s.keep key (P.cborShard.encode shard)).openRows P conversationHash bucket shardType restore =
      if (conversationHash, bucket, shardType) = key then (restore shard).toOption.getD []
      else s.openRows P conversationHash bucket shardType restore := by
  unfold ShardServer.openRows ShardServer.keep
  by_cases hkey : (conversationHash, bucket, shardType) = key
  · subst hkey
    simp
  · have hskip : ((conversationHash, bucket, shardType) == key) = false := beq_eq_false_iff_ne.mpr hkey
    rw [if_neg hkey]
    simp only [List.lookup_cons, hskip]

/-- **What one half leaves** on a server that takes everything. -/
theorem uploadHalf_of_accepts (haccepts : st.server.Accepts) (conversationHash : Bytes) (timeBucket shardType : String)
    (noRows : Bool) (build : Nat → SearchIndexShard) :
    ∃ receipt st', uploadHalf P conversationHash timeBucket shardType noRows build st = (.ok (receipt, none), st') ∧
      st'.server.Accepts ∧
      ∀ {ρ : Type} (hash : Bytes) (bucket type : String) (restore : SearchIndexShard → Except Error (List ρ)),
        st'.server.openRows P hash bucket type restore =
          if noRows = false ∧ (hash, bucket, type) = (conversationHash, timeBucket, shardType) then
            (restore (build st.drawn)).toOption.getD []
          else st.server.openRows P hash bucket type restore := by
  unfold uploadHalf
  cases noRows with
  | true =>
      refine ⟨none, st, rfl, haccepts, ?_⟩
      intro ρ hash bucket type restore
      simp
  | false =>
      refine ⟨some ⟨(build st.drawn).shardId, (build st.drawn).docCount, (P.cborShard.encode (build st.drawn)).length,
        (build st.drawn).ciphertextSha256⟩,
        ⟨st.server.keep (conversationHash, timeBucket, shardType) (P.cborShard.encode (build st.drawn)), st.drawn + 1⟩,
        ?_, haccepts, ?_⟩
      · simp only [Bool.false_eq_true, if_false, ShardServer.uploadIndexShard, haccepts st.server.attempts]
      · intro ρ hash bucket type restore
        rw [openRows_keep]
        simp only [true_and]

/-- The shards of two buckets have different keys. -/
theorem hash_ne {key key' : Uuid × String} (hne : key' ≠ key) (type type' : String) :
    (P.keyedConversationIdHash conversationHashKey key'.1.toText, key'.2, type) ≠
      (P.keyedConversationIdHash conversationHashKey key.1.toText, key.2, type') := by
  intro heq
  simp only [Prod.mk.injEq] at heq
  obtain ⟨hhash, hbucket, -⟩ := heq
  have hid := Uuid.toText_inj.mp (P.keyedConversationIdHash_inj _ _ _ hhash)
  exact hne (Prod.ext hid hbucket)

/-- **What the upload of a bucket leaves**: its rows over those that were there, and the other buckets as before. -/
theorem uploadSearchShards_of_accepts (haccepts : st.server.Accepts) {key : Uuid × String} {kText kFuzzy : KeyMaterial}
    (hkeys : keyForBucket key.1.toText key.2 = .ok (kText, kFuzzy)) (rows : List FtsRow × List FuzzyRow) :
    ∃ receipt st', uploadSearchShards P key.1.toText key.2 rows.1 rows.2 kText kFuzzy conversationHashKey st =
        (.ok receipt, st') ∧ st'.server.Accepts ∧
      ∀ key', storedRows P conversationHashKey keyForBucket st'.server key' =
        if key' = key then overlay rows (storedRows P conversationHashKey keyForBucket st.server key')
        else storedRows P conversationHashKey keyForBucket st.server key' := by
  obtain ⟨textShard, st₁, htext, haccepts₁, hopen₁⟩ := uploadHalf_of_accepts (P := P) haccepts
    (P.keyedConversationIdHash conversationHashKey key.1.toText) key.2 "text" rows.1.isEmpty
    (buildTextSearchShard P rows.1 key.1.toText key.2 kText conversationHashKey)
  obtain ⟨fuzzyShard, st₂, hfuzzy, haccepts₂, hopen₂⟩ := uploadHalf_of_accepts (P := P) haccepts₁
    (P.keyedConversationIdHash conversationHashKey key.1.toText) key.2 "fuzzy" rows.2.isEmpty
    (buildFuzzySearchShard P rows.2 key.1.toText key.2 kFuzzy conversationHashKey)
  refine ⟨⟨P.keyedConversationIdHash conversationHashKey key.1.toText, key.2, textShard, fuzzyShard, none, none⟩, st₂, ?_,
    haccepts₂, ?_⟩
  · unfold uploadSearchShards
    simp only [htext, hfuzzy]
  · intro key'
    unfold storedRows
    by_cases hkey : key' = key
    · subst hkey
      have hkinds : "fuzzy" ≠ "text" := by decide
      simp only [hkeys, hopen₂, hopen₁, overlay, Prod.mk.injEq, hkinds, hkinds.symm, and_false, if_false, if_true,
        and_true, restoreTextSearchShard_build, restoreFuzzySearchShard_build, Except.toOption, Option.getD_some]
      constructor
      · cases rows.1.isEmpty <;> rfl
      · cases rows.2.isEmpty <;> rfl
    · rw [if_neg hkey]
      cases keyForBucket key'.1.toText key'.2 with
      | error e => rfl
      | ok ks => simp only [hopen₂, hopen₁, hash_ne hkey, and_false, if_false]

/-- Nothing is uploaded over what is there. -/
@[simp] theorem overlay_nothing (stored : List FtsRow × List FuzzyRow) : overlay ([], []) stored = stored := rfl

/-- **What the sweep leaves**: in each bucket, the rows of the messages named for it over those that were there. -/
theorem storedRows_uploadBuckets {db : LocalStoreDb} {groups : List ((Uuid × String) × List Uuid)}
    {receipts : List UploadedSearchShards}
    (h : uploadBuckets P db conversationHashKey keyForBucket groups st = (.ok receipts, st')) (haccepts : st.server.Accepts)
    (hkeys : (groups.map Prod.fst).Nodup) :
    st'.server.Accepts ∧ ∀ key, storedRows P conversationHashKey keyForBucket st'.server key =
      overlay (bucketRows db ((groups.lookup key).getD [])) (storedRows P conversationHashKey keyForBucket st.server key) := by
  induction groups generalizing st receipts with
  | nil =>
      obtain ⟨-, rfl⟩ := Prod.mk.inj h
      exact ⟨haccepts, fun key => rfl⟩
  | cons group groups ih =>
      obtain ⟨⟨conv, bucket⟩, mids⟩ := group
      obtain ⟨hnew, hrest⟩ := List.nodup_cons.mp hkeys
      -- no later group is of this bucket, so what it uploads stays
      have hlater : groups.lookup (conv, bucket) = none := lookup_eq_none_of_not_mem hnew
      have hlookup : ∀ key, (((((conv, bucket), mids) :: groups).lookup key).getD []) =
          if key = (conv, bucket) then mids else (groups.lookup key).getD [] := by
        intro key
        rw [lookup_cons_ite]
        split_ifs <;> rfl
      unfold uploadBuckets at h
      by_cases hempty : ((bucketRows db mids).1.isEmpty && (bucketRows db mids).2.isEmpty) = true
      · simp only [hempty, if_true] at h
        obtain ⟨haccepts', hstored⟩ := ih h haccepts hrest
        refine ⟨haccepts', fun key => ?_⟩
        rw [hstored, hlookup]
        by_cases hkey : key = (conv, bucket)
        · -- no rows: nothing is uploaded, and the overlay is that of nothing
          obtain ⟨hfts, hfuzzy⟩ := Bool.and_eq_true_iff.mp hempty
          subst hkey
          rw [if_pos rfl, hlater]
          show storedRows P conversationHashKey keyForBucket st.server (conv, bucket) = overlay (bucketRows db mids) _
          rw [overlay, hfts, hfuzzy, if_pos rfl, if_pos rfl]
        · rw [if_neg hkey]
      · simp only [hempty, if_false, Bool.false_eq_true] at h
        cases hk : keyForBucket conv.toText bucket with
        | error e => simp [hk] at h
        | ok ks =>
            obtain ⟨kText, kFuzzy⟩ := ks
            obtain ⟨receipt, st₁, hup, haccepts₁, hstored₁⟩ :=
              @uploadSearchShards_of_accepts P conversationHashKey keyForBucket st haccepts (conv, bucket) _ _ hk (bucketRows db mids)
            simp only [hk, hup] at h
            rcases hgo : uploadBuckets P db conversationHashKey keyForBucket groups st₁ with ⟨r, st₂⟩
            rw [hgo] at h
            cases r with
            | error e => simp at h
            | ok receipts' =>
                obtain ⟨-, rfl⟩ := Prod.mk.inj h
                obtain ⟨haccepts', hstored⟩ := ih hgo haccepts₁ hrest
                refine ⟨haccepts', fun key => ?_⟩
                rw [hstored, hlookup, hstored₁]
                by_cases hkey : key = (conv, bucket)
                · subst hkey
                  rw [if_pos rfl, if_pos rfl, hlater]
                  rfl
                · rw [if_neg hkey, if_neg hkey]

end Upload

end KChatCore.Backup
