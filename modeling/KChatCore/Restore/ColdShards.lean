import KChatCore.LocalStore.Db
import KChatCore.Search.Shards

/-!
# `Restore.ColdShards` — search shards replayed into the local index

`fetchAndRestoreColdShards` fetches the shards of a bucket, opens them and inserts their rows in one transaction.
`search_fts` has no key, so a row is inserted again; `search_fuzzy` is all key, so a row that is there aborts the call.

* `replay_eq_ok` — what a replay that goes through leaves.
* `idempotent_iff` — when a second call changes nothing.
-/

namespace KChatCore.Restore

open Lib LocalStore Search

/-! ## Fetching -/

/-- What a reader of shards asks of the transport: hash of the conversation, bucket, shard type. -/
structure ShardTransport where
  fetchIndexShards : Bytes → String → String → Except Error Bytes

/-- `shard_type_str`. -/
def shardTypeStr : IndexType → String
  | .bloom => "bloom"
  | .text => "text"
  | .fuzzy => "fuzzy"
  | .vector => "vector"
  | .media => "media"

/-- `PREFETCH_ORDER`. -/
def prefetchOrder : List IndexType := [.bloom, .text, .fuzzy, .vector, .media]

/-- `PrefetchedShard`. -/
structure PrefetchedShard where
  shardType : IndexType
  conversationHash : Bytes
  bucket : String
  ciphertext : Bytes
deriving DecidableEq

/-- The types still to fetch, in order; an empty answer means that there is no such shard. -/
def prefetchShards (transport : ShardTransport) (conversationHash : Bytes) (bucket : String) :
    List IndexType → Except Error (List PrefetchedShard)
  | [] => .ok []
  | shardType :: types => do
      let bytes ← transport.fetchIndexShards conversationHash bucket (shardTypeStr shardType)
      let rest ← prefetchShards transport conversationHash bucket types
      return if bytes.isEmpty then rest else ⟨shardType, conversationHash, bucket, bytes⟩ :: rest

/-- `batch_prefetch_shards`. -/
def batchPrefetchShards (transport : ShardTransport) (conversationHash : Bytes) (bucket : String) :
    Except Error (List PrefetchedShard) :=
  prefetchShards transport conversationHash bucket prefetchOrder

/-- `ShardKeyRegistry`, as its `get`. -/
abbrev ShardKeyRegistry := IdText → String → IndexType → Option KeyMaterial

/-- `SealedSearchShardEntry`. -/
structure SealedSearchShardEntry where
  shard : SearchIndexShard
  kShard : KeyMaterial

/-- `({conversation_id}, {time_bucket}, {:?})`. -/
def tripleText (conversationId : IdText) (timeBucket : String) (shardType : IndexType) : String :=
  let id := match conversationId with
    | .uuid u => u.hyphenated
    | .malformed s => s
  "(" ++ id ++ ", " ++ timeBucket ++ ", " ++ IndexType.debug shardType ++ ")"

/-- Decode each blob and look its key up, under the type it was fetched as. -/
def decodeShards (P : ShardPrimitives) (conversationId : IdText) (timeBucket : String) (keyRegistry : ShardKeyRegistry) :
    List PrefetchedShard → Except Error (List SealedSearchShardEntry)
  | [] => .ok []
  | ps :: prefetched => do
      let shard ← okOr (P.cborShard.decode ps.ciphertext) (.storageMsg
        ("fetch_and_restore_cold_shards: shard cbor decode failed for " ++ tripleText conversationId timeBucket ps.shardType))
      let k ← okOr (keyRegistry conversationId timeBucket ps.shardType) (.storageMsg
        ("fetch_and_restore_cold_shards: missing shard key for " ++ tripleText conversationId timeBucket ps.shardType))
      let rest ← decodeShards P conversationId timeBucket keyRegistry prefetched
      return ⟨shard, k⟩ :: rest

/-! ## Replaying -/

/-- `RestoredShardSummary`. -/
structure RestoredShardSummary where
  indexType : IndexType
  rowsInserted : Nat
deriving DecidableEq, Repr

/-- `INSERT INTO search_fuzzy`. -/
def insertFuzzyRow (db : LocalStoreDb) (row : FuzzyRow) : Except Error LocalStoreDb :=
  match db.fuzzy.insert? row with
  | some fuzzy => .ok { db with fuzzy := fuzzy }
  | none => .error (.storageMsg ("restore_search_index_shards: insert search_fuzzy: UNIQUE constraint failed: " ++
      "search_fuzzy.token, search_fuzzy.script, search_fuzzy.message_id"))

/-- The rows of a fuzzy shard, one by one. -/
def insertFuzzyRows : List FuzzyRow → LocalStoreDb → Except Error LocalStoreDb
  | [], db => .ok db
  | row :: rows, db => do
      let db ← insertFuzzyRow db row
      insertFuzzyRows rows db

/-- The rows of a text shard, one by one. -/
def insertFtsRows (rows : List FtsRow) (db : LocalStoreDb) : LocalStoreDb := rows.foldl LocalStoreDb.insertFtsRow db

/-- One entry of the replay; shards of the other types count as empty. -/
def replayEntry (P : ShardPrimitives) (db : LocalStoreDb) (entry : SealedSearchShardEntry) :
    Except Error (RestoredShardSummary × LocalStoreDb) :=
  match entry.shard.indexType with
  | .text => do
      let rows ← restoreTextSearchShard P entry.shard entry.kShard
      return (⟨.text, rows.length⟩, insertFtsRows rows db)
  | .fuzzy => do
      let rows ← restoreFuzzySearchShard P entry.shard entry.kShard
      let db ← insertFuzzyRows rows db
      return (⟨.fuzzy, rows.length⟩, db)
  | other => .ok (⟨other, 0⟩, db)

/-- `restore_search_index_shards_with_replay`: one transaction, so an error leaves nothing. -/
def restoreSearchIndexShardsWithReplay (P : ShardPrimitives) :
    List SealedSearchShardEntry → LocalStoreDb → Except Error (List RestoredShardSummary × LocalStoreDb)
  | [], db => .ok ([], db)
  | entry :: entries, db => do
      let (summary, db) ← replayEntry P db entry
      let (summaries, db) ← restoreSearchIndexShardsWithReplay P entries db
      return (summary :: summaries, db)

/-- `RestoreColdShardsSummary`. -/
structure RestoreColdShardsSummary where
  conversationId : IdText
  timeBucket : String
  fetchedShards : Nat
  textRowsInserted : Nat
  fuzzyRowsInserted : Nat
deriving DecidableEq, Repr

/-- The rows the shards of one type brought. -/
def rowsOfType (indexType : IndexType) (summaries : List RestoredShardSummary) : Nat :=
  ((summaries.filter fun s => s.indexType = indexType).map RestoredShardSummary.rowsInserted).sum

/-- A bucket's shards, fetched and paired with their keys. -/
def coldEntries (P : ShardPrimitives) (transport : ShardTransport) (conversationId : IdText) (timeBucket : String)
    (conversationHashKey : KeyMaterial) (keyRegistry : ShardKeyRegistry) : Except Error (List SealedSearchShardEntry) := do
  let prefetched ← batchPrefetchShards transport (P.keyedConversationIdHash conversationHashKey conversationId) timeBucket
  decodeShards P conversationId timeBucket keyRegistry prefetched

/-- `fetch_and_restore_cold_shards`. -/
def fetchAndRestoreColdShards (P : ShardPrimitives) (transport : ShardTransport) (conversationId : IdText)
    (timeBucket : String) (conversationHashKey : KeyMaterial) (keyRegistry : ShardKeyRegistry) (db : LocalStoreDb) :
    Except Error RestoreColdShardsSummary × LocalStoreDb :=
  match (coldEntries P transport conversationId timeBucket conversationHashKey keyRegistry).bind fun entries =>
      restoreSearchIndexShardsWithReplay P entries db with
  | .error e => (.error e, db)
  | .ok (summaries, db') => (.ok {
      conversationId := conversationId
      timeBucket := timeBucket
      fetchedShards := summaries.length
      textRowsInserted := rowsOfType .text summaries
      fuzzyRowsInserted := rowsOfType .fuzzy summaries }, db')

/-! ## What a replay leaves -/

/-- The rows an entry opens to. -/
def entryRows (P : ShardPrimitives) (entry : SealedSearchShardEntry) : Except Error (List FtsRow × List FuzzyRow) :=
  match entry.shard.indexType with
  | .text => (restoreTextSearchShard P entry.shard entry.kShard).map fun rows => (rows, [])
  | .fuzzy => (restoreFuzzySearchShard P entry.shard entry.kShard).map fun rows => ([], rows)
  | _ => .ok ([], [])

/-- The rows the entries open to, in order. -/
def shardRows (P : ShardPrimitives) : List SealedSearchShardEntry → Except Error (List FtsRow × List FuzzyRow)
  | [] => .ok ([], [])
  | entry :: entries => do
      let here ← entryRows P entry
      let rest ← shardRows P entries
      return (here.1 ++ rest.1, here.2 ++ rest.2)

section Replay

variable {P : ShardPrimitives} {db db' : LocalStoreDb}

theorem fts_insertFtsRows (rows : List FtsRow) (db : LocalStoreDb) : (insertFtsRows rows db).fts = db.fts ++ rows := by
  induction rows generalizing db with
  | nil => simp [insertFtsRows]
  | cons row rows ih =>
      have hrest : (insertFtsRows (row :: rows) db).fts = (insertFtsRows rows (db.insertFtsRow row)).fts := rfl
      rw [hrest, ih, LocalStoreDb.insertFtsRow, List.append_assoc, List.singleton_append]

theorem fuzzy_insertFtsRows (rows : List FtsRow) (db : LocalStoreDb) : (insertFtsRows rows db).fuzzy = db.fuzzy := by
  induction rows generalizing db with
  | nil => rfl
  | cons row rows ih => exact ih (db.insertFtsRow row)

/-- Fuzzy rows that all land are appended. -/
theorem insertFuzzyRows_eq_ok {rows : List FuzzyRow} (h : insertFuzzyRows rows db = .ok db') :
    db'.fts = db.fts ∧ db'.fuzzy.rows = db.fuzzy.rows ++ rows := by
  induction rows generalizing db with
  | nil =>
      obtain rfl := Except.ok.inj h
      simp
  | cons row rows ih =>
      obtain ⟨db₁, hrow, h⟩ := except_bind_eq_ok.mp h
      unfold insertFuzzyRow at hrow
      split at hrow
      · next fuzzy hinsert =>
          obtain rfl := Except.ok.inj hrow
          obtain ⟨hfree, rfl⟩ := Table.insert?_eq_some.mp hinsert
          obtain ⟨hfts, hfuzzy⟩ := ih h
          exact ⟨hfts, by rw [hfuzzy, Table.rows_append, List.append_assoc, List.singleton_append]⟩
      · exact absurd hrow (by simp)

/-- **One entry**: its rows are appended. -/
theorem replayEntry_eq_ok {entry : SealedSearchShardEntry} {summary : RestoredShardSummary}
    (h : replayEntry P db entry = .ok (summary, db')) :
    ∃ rows, entryRows P entry = .ok rows ∧ db'.fts = db.fts ++ rows.1 ∧ db'.fuzzy.rows = db.fuzzy.rows ++ rows.2 := by
  unfold replayEntry at h
  unfold entryRows
  cases htype : entry.shard.indexType with
  | text =>
      simp only [htype] at h
      obtain ⟨rows, hrows, h⟩ := except_bind_eq_ok.mp h
      obtain ⟨-, rfl⟩ := Prod.mk.inj (Except.ok.inj h)
      refine ⟨(rows, []), by rw [hrows]; rfl, fts_insertFtsRows rows db, ?_⟩
      rw [fuzzy_insertFtsRows, List.append_nil]
  | fuzzy =>
      simp only [htype] at h
      obtain ⟨rows, hrows, h⟩ := except_bind_eq_ok.mp h
      obtain ⟨db₁, hinsert, h⟩ := except_bind_eq_ok.mp h
      obtain ⟨-, rfl⟩ := Prod.mk.inj (Except.ok.inj h)
      obtain ⟨hfts, hfuzzy⟩ := insertFuzzyRows_eq_ok hinsert
      exact ⟨([], rows), by rw [hrows]; rfl, by rw [hfts, List.append_nil], hfuzzy⟩
  | _ =>
      simp only [htype] at h
      obtain ⟨-, rfl⟩ := Prod.mk.inj (Except.ok.inj h)
      exact ⟨([], []), rfl, by simp, by simp⟩

/-- **A replay that goes through appends the rows of its shards.** -/
theorem replay_eq_ok {entries : List SealedSearchShardEntry} {summaries : List RestoredShardSummary}
    (h : restoreSearchIndexShardsWithReplay P entries db = .ok (summaries, db')) :
    ∃ rows, shardRows P entries = .ok rows ∧ db'.fts = db.fts ++ rows.1 ∧ db'.fuzzy.rows = db.fuzzy.rows ++ rows.2 := by
  induction entries generalizing db summaries with
  | nil =>
      obtain ⟨-, rfl⟩ := Prod.mk.inj (Except.ok.inj h)
      exact ⟨([], []), rfl, by simp, by simp⟩
  | cons entry entries ih =>
      obtain ⟨⟨summary, db₁⟩, hentry, h⟩ := except_bind_eq_ok.mp h
      obtain ⟨⟨rest, db₂⟩, hrest, h⟩ := except_bind_eq_ok.mp h
      obtain ⟨-, rfl⟩ := Prod.mk.inj (Except.ok.inj h)
      obtain ⟨here, hhere, hfts, hfuzzy⟩ := replayEntry_eq_ok hentry
      obtain ⟨later, hlater, hfts', hfuzzy'⟩ := ih hrest
      refine ⟨(here.1 ++ later.1, here.2 ++ later.2), ?_, ?_, ?_⟩
      · unfold shardRows
        rw [hhere, hlater]
        rfl
      · rw [hfts', hfts, List.append_assoc]
      · rw [hfuzzy', hfuzzy, List.append_assoc]

/-- An entry without rows goes through and leaves the store as it is. -/
theorem replayEntry_of_no_rows {entry : SealedSearchShardEntry} (h : entryRows P entry = .ok ([], [])) (db : LocalStoreDb) :
    ∃ summary, replayEntry P db entry = .ok (summary, db) := by
  unfold entryRows at h
  unfold replayEntry
  cases htype : entry.shard.indexType with
  | text =>
      simp only [htype] at h
      cases hrows : restoreTextSearchShard P entry.shard entry.kShard with
      | error e =>
          rw [hrows] at h
          exact absurd h (by simp [Except.map])
      | ok rows =>
          rw [hrows] at h
          obtain ⟨rfl, -⟩ := Prod.mk.inj (Except.ok.inj h)
          exact ⟨⟨.text, 0⟩, rfl⟩
  | fuzzy =>
      simp only [htype] at h
      cases hrows : restoreFuzzySearchShard P entry.shard entry.kShard with
      | error e =>
          rw [hrows] at h
          exact absurd h (by simp [Except.map])
      | ok rows =>
          rw [hrows] at h
          obtain ⟨-, rfl⟩ := Prod.mk.inj (Except.ok.inj h)
          exact ⟨⟨.fuzzy, 0⟩, rfl⟩
  | _ => exact ⟨_, rfl⟩

/-- So does a list of them. -/
theorem replay_of_no_rows {entries : List SealedSearchShardEntry} (h : shardRows P entries = .ok ([], []))
    (db : LocalStoreDb) : ∃ summaries, restoreSearchIndexShardsWithReplay P entries db = .ok (summaries, db) := by
  induction entries with
  | nil => exact ⟨[], rfl⟩
  | cons entry entries ih =>
      obtain ⟨here, hhere, h⟩ := except_bind_eq_ok.mp h
      obtain ⟨rest, hrest, h⟩ := except_bind_eq_ok.mp h
      obtain ⟨htexts, hfuzzies⟩ := Prod.mk.inj (Except.ok.inj h)
      obtain ⟨htext, htexts⟩ := List.append_eq_nil_iff.mp htexts
      obtain ⟨hfuzzy, hfuzzies⟩ := List.append_eq_nil_iff.mp hfuzzies
      obtain ⟨summary, hsummary⟩ := replayEntry_of_no_rows (hhere.trans (congrArg Except.ok (Prod.ext htext hfuzzy))) db
      obtain ⟨summaries, hsummaries⟩ := ih (hrest.trans (congrArg Except.ok (Prod.ext htexts hfuzzies)))
      refine ⟨summary :: summaries, ?_⟩
      unfold restoreSearchIndexShardsWithReplay
      rw [hsummary]
      show (restoreSearchIndexShardsWithReplay P entries db).bind _ = _
      rw [hsummaries]
      rfl

end Replay

/-! ## Restoring again -/

/-- The rows a bucket's shards hold, if they can all be had and opened. -/
def coldRows (P : ShardPrimitives) (transport : ShardTransport) (conversationId : IdText) (timeBucket : String)
    (conversationHashKey : KeyMaterial) (keyRegistry : ShardKeyRegistry) : Except Error (List FtsRow × List FuzzyRow) :=
  (coldEntries P transport conversationId timeBucket conversationHashKey keyRegistry).bind (shardRows P)

/-- No two rows of `search_fts` are of one message. -/
def OneRowEach (db : LocalStoreDb) : Prop := (db.fts.map FtsRow.messageId).Nodup

/-- The store after `n` calls. -/
def afterCalls (restore : LocalStoreDb → Except Error RestoreColdShardsSummary × LocalStoreDb) (n : Nat) (db : LocalStoreDb) :
    LocalStoreDb :=
  (fun db => (restore db).2)^[n] db

/-- **A restore is idempotent**: every call of a series succeeds, the indexes after it are those after the first, and
there is one row for each message. -/
structure Idempotent (restore : LocalStoreDb → Except Error RestoreColdShardsSummary × LocalStoreDb) (db : LocalStoreDb) :
    Prop where
  succeeds : ∀ n, ∃ summary, (restore (afterCalls restore n db)).1 = .ok summary
  fts : ∀ n, (afterCalls restore (n + 1) db).fts = (afterCalls restore 1 db).fts
  fuzzy : ∀ n, (afterCalls restore (n + 1) db).fuzzy.rows = (afterCalls restore 1 db).fuzzy.rows
  unique : OneRowEach (afterCalls restore 1 db)

section Again

variable {P : ShardPrimitives} {transport : ShardTransport} {conversationId : IdText} {timeBucket : String}
  {conversationHashKey : KeyMaterial} {keyRegistry : ShardKeyRegistry} {db db' : LocalStoreDb}

/-- **A call that succeeds appends the rows of the bucket.** -/
theorem fetchAndRestore_eq_ok {summary : RestoreColdShardsSummary}
    (h : fetchAndRestoreColdShards P transport conversationId timeBucket conversationHashKey keyRegistry db =
      (.ok summary, db')) :
    ∃ rows, coldRows P transport conversationId timeBucket conversationHashKey keyRegistry = .ok rows ∧
      db'.fts = db.fts ++ rows.1 ∧ db'.fuzzy.rows = db.fuzzy.rows ++ rows.2 := by
  unfold fetchAndRestoreColdShards at h
  split at h
  · exact absurd (congrArg Prod.fst h) (by simp)
  · next summaries db₁ hreplay =>
      obtain ⟨entries, hentries, hreplay⟩ := except_bind_eq_ok.mp hreplay
      obtain ⟨-, rfl⟩ := Prod.mk.inj h
      obtain ⟨rows, hrows, hfts, hfuzzy⟩ := replay_eq_ok hreplay
      exact ⟨rows, except_bind_eq_ok.mpr ⟨entries, hentries, hrows⟩, hfts, hfuzzy⟩

/-- A bucket without rows is restored by doing nothing. -/
theorem fetchAndRestore_of_no_rows
    (h : coldRows P transport conversationId timeBucket conversationHashKey keyRegistry = .ok ([], [])) (db : LocalStoreDb) :
    ∃ summary, fetchAndRestoreColdShards P transport conversationId timeBucket conversationHashKey keyRegistry db =
      (.ok summary, db) := by
  obtain ⟨entries, hentries, hrows⟩ := except_bind_eq_ok.mp h
  obtain ⟨summaries, hsummaries⟩ := replay_of_no_rows hrows db
  have hreplay : (coldEntries P transport conversationId timeBucket conversationHashKey keyRegistry).bind (fun entries =>
      restoreSearchIndexShardsWithReplay P entries db) = .ok (summaries, db) :=
    except_bind_eq_ok.mpr ⟨entries, hentries, hsummaries⟩
  unfold fetchAndRestoreColdShards
  rw [hreplay]
  exact ⟨_, rfl⟩

/-- An idempotent restore has nothing to insert. -/
theorem Idempotent.no_rows
    (h : Idempotent (fetchAndRestoreColdShards P transport conversationId timeBucket conversationHashKey keyRegistry) db) :
    coldRows P transport conversationId timeBucket conversationHashKey keyRegistry = .ok ([], []) ∧ OneRowEach db := by
  obtain ⟨summary, hfirst⟩ := h.succeeds 0
  obtain ⟨summary', hsecond⟩ := h.succeeds 1
  have hagain := h.fts 1
  have hunique := h.unique
  -- the two calls, each with the store it leaves
  generalize hone : afterCalls (fetchAndRestoreColdShards P transport conversationId timeBucket conversationHashKey
    keyRegistry) 1 db = db₁ at hsecond hagain hunique
  generalize htwo : afterCalls (fetchAndRestoreColdShards P transport conversationId timeBucket conversationHashKey
    keyRegistry) (1 + 1) db = db₂ at hagain
  have hcall : fetchAndRestoreColdShards P transport conversationId timeBucket conversationHashKey keyRegistry db =
      (.ok summary, db₁) := Prod.ext hfirst hone
  have hcall' : fetchAndRestoreColdShards P transport conversationId timeBucket conversationHashKey keyRegistry db₁ =
      (.ok summary', db₂) := by
    refine Prod.ext hsecond ?_
    rw [← htwo, afterCalls, Function.iterate_succ_apply']
    rw [← hone]
    rfl
  obtain ⟨rows, hrows, hfts, hfuzzy⟩ := fetchAndRestore_eq_ok hcall
  obtain ⟨rows', hrows', hfts', hfuzzy'⟩ := fetchAndRestore_eq_ok hcall'
  obtain rfl : rows = rows' := Except.ok.inj (hrows.symm.trans hrows')
  -- a text row would be there twice
  have htexts : rows.1 = [] := by
    rw [hfts'] at hagain
    exact List.append_right_eq_self.mp hagain
  -- a fuzzy row would have found its key taken
  have hfuzzies : rows.2 = [] := by
    have hkeyed := db₂.fuzzy.keyed
    rw [hfuzzy', hfuzzy, List.append_assoc, List.map_append, List.map_append, List.nodup_append] at hkeyed
    have htwice := (List.nodup_append.mp hkeyed.2.1).2.2
    cases hcase : rows.2 with
    | nil => rfl
    | cons row rest =>
        rw [hcase] at htwice
        exact absurd rfl (htwice row.key (by simp) row.key (by simp))
  refine ⟨hrows.trans (congrArg Except.ok (Prod.ext htexts hfuzzies)), ?_⟩
  rw [OneRowEach, hfts, htexts, List.append_nil] at hunique
  exact hunique

/-- **When restoring cold shards is idempotent**: when the shards can be opened and hold no rows, and no message had two
rows before. -/
theorem idempotent_iff :
    Idempotent (fetchAndRestoreColdShards P transport conversationId timeBucket conversationHashKey keyRegistry) db ↔
      coldRows P transport conversationId timeBucket conversationHashKey keyRegistry = .ok ([], []) ∧ OneRowEach db := by
  constructor
  · exact Idempotent.no_rows
  · rintro ⟨hrows, hunique⟩
    -- a call that brings no rows leaves the store
    have hcall : ∀ db, ∃ summary, fetchAndRestoreColdShards P transport conversationId timeBucket conversationHashKey
        keyRegistry db = (.ok summary, db) := fetchAndRestore_of_no_rows hrows
    have hstays : ∀ n, afterCalls (fetchAndRestoreColdShards P transport conversationId timeBucket conversationHashKey
        keyRegistry) n db = db := by
      intro n
      induction n with
      | zero => rfl
      | succ n ih =>
          obtain ⟨summary, hsame⟩ := hcall db
          rw [afterCalls, Function.iterate_succ_apply']
          show (fetchAndRestoreColdShards P transport conversationId timeBucket conversationHashKey keyRegistry
            (afterCalls _ n db)).2 = db
          rw [ih, hsame]
    refine ⟨?_, ?_, ?_, ?_⟩
    · intro n
      obtain ⟨summary, hsame⟩ := hcall db
      exact ⟨summary, by rw [hstays, hsame]⟩
    · intro n
      rw [hstays, hstays]
    · intro n
      rw [hstays, hstays]
    · rw [hstays]
      exact hunique

end Again

/-! A text shard with one row. -/

/-- The row. -/
def hiRow : FtsRow := ⟨Uuid.toText ⟨2⟩, ⟨1⟩, "alice", 1000, "hi"⟩

/-- Its shard. -/
def hiShard : SearchIndexShard :=
  buildTextSearchShard .reference [hiRow] (Uuid.toText ⟨1⟩) "1970-01" (leBytes 32 1) (leBytes 32 2) 0

/-- A transport that has this shard only. -/
def hiTransport : ShardTransport :=
  ⟨fun _ _ shardType => .ok (if shardType = "text" then ShardPrimitives.reference.cborShard.encode hiShard else [])⟩

theorem coldRows_hi : coldRows .reference hiTransport (Uuid.toText ⟨1⟩) "1970-01" (leBytes 32 2)
    (fun _ _ _ => some (leBytes 32 1)) = .ok ([hiRow], []) := by
  have hne : (ShardPrimitives.reference.cborShard.encode hiShard).isEmpty = false := by
    rw [List.isEmpty_eq_false_iff]
    exact ShardPrimitives.reference.cborShard_ne_nil hiShard
  have hopen : restoreTextSearchShard .reference hiShard (leBytes 32 1) = .ok [hiRow] :=
    restoreTextSearchShard_build [hiRow] _ _ _ _ _
  have hentries : coldEntries .reference hiTransport (Uuid.toText ⟨1⟩) "1970-01" (leBytes 32 2)
      (fun _ _ _ => some (leBytes 32 1)) = .ok [⟨hiShard, leBytes 32 1⟩] := by
    simp [coldEntries, batchPrefetchShards, prefetchOrder, prefetchShards, hiTransport, shardTypeStr, hne, decodeShards,
      bind, Except.bind, pure, Except.pure]
  have htype : hiShard.indexType = .text := rfl
  rw [coldRows, hentries]
  simp [shardRows, entryRows, htype, hopen, bind, Except.bind, pure, Except.pure, Except.map]

/-- **A second call inserts the text row again.** -/
theorem cold_rows_restored_twice : ∃ (transport : ShardTransport) (keyRegistry : ShardKeyRegistry) (rows : _),
    coldRows .reference transport (Uuid.toText ⟨1⟩) "1970-01" (leBytes 32 2) keyRegistry = .ok rows ∧
      ¬ Idempotent (fetchAndRestoreColdShards .reference transport (Uuid.toText ⟨1⟩) "1970-01" (leBytes 32 2) keyRegistry)
        (.fresh Table.empty) := by
  refine ⟨hiTransport, fun _ _ _ => some (leBytes 32 1), _, coldRows_hi, ?_⟩
  intro h
  have hnothing := h.no_rows.1
  rw [coldRows_hi] at hnothing
  exact absurd (congrArg Prod.fst (Except.ok.inj hnothing)) (by simp)

end KChatCore.Restore
