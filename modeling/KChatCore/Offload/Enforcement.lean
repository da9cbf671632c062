import KChatCore.Lib.Like
import KChatCore.LocalStore.Db
import KChatCore.Offload.Budget

/-!
# `Offload.Enforcement` — from the tables to an eviction

`enforceStorageBudget` measures the tables, collects the assets that may go, plans two passes over them and executes one
after the other. An eviction is one `UPDATE` for each candidate of its plan; the statement names the asset alone, and the
bytes that are reported are the candidate's.

The `UPDATE`s stand in no transaction: one that fails ends the pass, and what the ones before it wrote stays.

* `executeEviction_store` — a pass writes the candidates it reaches, one after the other;
* `executeEviction_eq_ok` — when a pass reports, and what.
-/

namespace KChatCore.Offload

open Lib LocalStore

/-! ## Measuring the tables -/

/-- An `i64` sum of the database, which fails where it overflows. -/
def addI64 (a b : Int) : Except Error Int :=
  if -(2 ^ 63) ≤ a + b ∧ a + b < 2 ^ 63 then .ok (a + b) else .error (.storageMsg "integer overflow")

/-- `COALESCE(SUM(..), 0)`. -/
def sqlSum (column : List Int) : Except Error Int := column.foldlM addI64 0

/-- `LENGTH` of a text: its characters before the first NUL. -/
def sqlLength (text : String) : Int := (text.toList.takeWhile fun c => c ≠ Char.ofNat 0).length

/-- `scalar_u64`, once the query has answered. -/
def scalarU64 (v : Int) : UInt64 := UInt64.ofNat v.toNat

/-- `a + b`; nothing where it panics. -/
def addU64 (checks : OverflowChecks) (a b : UInt64) : Option UInt64 :=
  if checks = .on ∧ 2 ^ 64 ≤ a.toNat + b.toNat then none else some (a + b)

/-- The usage, from its buckets; nothing where a sum panics. -/
def storageUsage (checks : OverflowChecks) (messageBytes mediaBytes ftsBytes fuzzyBytes vectorBytes mediaSearchBytes : UInt64) :
    Option StorageUsage := do
  let indexBytes ← addU64 checks ftsBytes fuzzyBytes
  let indexBytes ← addU64 checks indexBytes vectorBytes
  let indexBytes ← addU64 checks indexBytes mediaSearchBytes
  let totalBytes ← addU64 checks messageBytes mediaBytes
  let totalBytes ← addU64 checks totalBytes indexBytes
  return ⟨totalBytes, messageBytes, mediaBytes, indexBytes, 0⟩

/-- `collect_storage_usage`. -/
def collectStorageUsage (checks : OverflowChecks) (db : LocalStoreDb) : Except Error (Option StorageUsage) := do
  let textBytes ← sqlSum (db.bodies.rows.filterMap fun b => b.textContent.map sqlLength)
  let messageBytes ← addI64 textBytes (db.skeletons.rows.length * 256)
  let mediaBytes ← sqlSum (db.assets.rows.map MediaAsset.bytesLocal)
  let ftsBytes ← sqlSum (db.fts.map fun r => sqlLength r.textContent)
  let fuzzyBytes ← sqlSum (db.fuzzy.rows.map fun r => sqlLength r.token + 8)
  let vectorBytes ← sqlSum (db.vectors.rows.map fun r => r.embedding.length)
  let mediaSearchBytes ← sqlSum (db.mediaSearch.rows.map fun r => sqlLength r.text)
  return storageUsage checks (scalarU64 messageBytes) (scalarU64 mediaBytes) (scalarU64 ftsBytes) (scalarU64 fuzzyBytes)
    (scalarU64 vectorBytes) (scalarU64 mediaSearchBytes)

/-- `StorageBudgetEnforcer::assess`. -/
def assess (checks : OverflowChecks) (db : LocalStoreDb) (budget : StorageBudget) : Except Error (Option BudgetAssessment) := do
  let usage ← collectStorageUsage checks db
  return usage.bind fun usage => assessWithUsage checks usage budget

/-- `PressureLevel::requires_eviction`. -/
def PressureLevel.requiresEviction (level : PressureLevel) : Bool := level ≠ .none

/-! ## The candidates -/

/-- `mime_type LIKE 'group/%'`, without regard to ASCII case. -/
def mimeGroup (group mimeType : String) : Bool :=
  Like.matchItems Char.toLower (group.toList.map Like.Item.lit ++ [.lit '/', .any]) mimeType.toList

/-- `classify_mime_type`. -/
def classifyMimeType (mimeType : String) : ContentKind :=
  if mimeGroup "video" mimeType then .video
  else if mimeGroup "audio" mimeType then .voice
  else if mimeGroup "image" mimeType then .image
  else if mimeGroup "application" mimeType then .document
  else if mimeGroup "text" mimeType then .text
  else .document

/-- The priority of the query's `ORDER BY`. -/
def mimePriority (mimeType : String) : Nat :=
  if mimeGroup "video" mimeType then 1
  else if mimeGroup "application" mimeType then 2
  else if mimeGroup "image" mimeType then 3
  else if mimeGroup "audio" mimeType then 4
  else 5

/-- The `WHERE` of the query over an asset, joined with its message and its conversation; `pinned` is that column of
`conversation`. -/
def mayGo (pinned : Uuid → Bool) (cutoffMs : Int) (db : LocalStoreDb) (asset : MediaAsset) : Option (MediaAsset × MessageSkeleton) := do
  let skel ← db.skeletons.find? asset.messageId
  let conversation ← db.conversations.find? skel.conversationId
  if skel.archiveState = .archiveVerified ∧ pinned conversation.conversationId = false ∧ asset.mediaState = .originalLocal ∧
      skel.createdAtMs < cutoffMs then
    return (asset, skel)
  else none

/-- The candidate a row of the query stands for. -/
def candidateOf (row : MediaAsset × MessageSkeleton) : EvictionCandidate where
  assetId := row.1.assetId
  messageId := row.1.messageId
  conversationId := row.2.conversationId
  contentKind := classifyMimeType row.1.mimeType
  bytes := scalarU64 row.1.bytesLocal
  lastAccessedMs := row.2.createdAtMs
  isPinned := false
  archiveState := .archiveVerified
  storageSink := row.1.storageSink

/-- The order of the query: by priority, the oldest first. -/
def rowBefore (a b : MediaAsset × MessageSkeleton) : Bool :=
  decide (toLex (mimePriority a.1.mimeType, a.2.createdAtMs) ≤ toLex (mimePriority b.1.mimeType, b.2.createdAtMs))

/-- `collect_eviction_candidates`. -/
def collectEvictionCandidates (pinned : Uuid → Bool) (db : LocalStoreDb) (minOffloadAgeMs nowMs : Int) :
    List EvictionCandidate :=
  let cutoffMs := satSubI64 nowMs minOffloadAgeMs
  ((db.assets.rows.filterMap (mayGo pinned cutoffMs db)).mergeSort rowBefore).map candidateOf

/-! ## A pass -/

/-- `EvictionResult`, and `OffloadResult`. -/
structure EvictionResult where
  freedBytes : Nat
  evictedCount : Nat
deriving DecidableEq

/-- `UPDATE media_asset SET media_state = 'evicted', bytes_local = 0 WHERE asset_id = assetId`. -/
def evictAsset (db : LocalStoreDb) (assetId : Uuid) : LocalStoreDb :=
  db.updateAsset assetId (fun r => { r with mediaState := .evicted, bytesLocal := 0 }) (fun _ => rfl) fun _ => rfl

/-- The loop of `execute_eviction`; `fault` counts the statements that go through before one fails. -/
def evictLoop : Option Nat → List EvictionCandidate → EvictionResult → LocalStoreDb → Except Error EvictionResult × LocalStoreDb
  | _, [], result, db => (.ok result, db)
  | fault, cand :: rest, result, db =>
      if fault = some 0 then (.error (.storageMsg "disk I/O error"), db)
      else
        evictLoop (fault.map fun n => n - 1) rest
          (if db.assets.has cand.assetId then
            ⟨min u64Max (result.freedBytes + cand.bytes.toNat), min u32Max (result.evictedCount + 1)⟩
          else result)
          (evictAsset db cand.assetId)

/-- `execute_eviction`. -/
def executeEviction (fault : Option Nat) (db : LocalStoreDb) (plan : EvictionPlan) : Except Error EvictionResult × LocalStoreDb :=
  evictLoop fault plan.selected ⟨0, 0⟩ db

/-- `MIN_OFFLOAD_AGE_MS`. -/
def minOffloadAgeMs : Int := 24 * 60 * 60 * 1000

/-- The two passes of a tiered plan. -/
def executeTiered (cloudFault fullFault : Option Nat) (db : LocalStoreDb) (tiered : TieredEvictionPlan) :
    Except Error EvictionResult × LocalStoreDb :=
  match executeEviction cloudFault db tiered.cloudOffload with
  | (.error e, db) => (.error e, db)
  | (.ok cloud, db) =>
      match executeEviction fullFault db tiered.fullEviction with
      | (.error e, db) => (.error e, db)
      | (.ok full, db) =>
          (.ok ⟨min u64Max (cloud.freedBytes + full.freedBytes), min u32Max (cloud.evictedCount + full.evictedCount)⟩, db)

/-- The plan of `enforce_storage_budget`: nothing where a sum panics, and no plan where there is no pressure. -/
def enforcementPlan (halfPow : Rat → Rat) (checks : OverflowChecks) (pinned : Uuid → Bool) (nowMs : Int) (db : LocalStoreDb) :
    Except Error (Option (Option TieredEvictionPlan)) := do
  let assessment ← assess checks db StorageBudget.defaultRecommended
  return do
    let assessment ← assessment
    if assessment.pressureLevel.requiresEviction then
      let targetBytes ← assessment.evictionTargetBytes checks
      let candidates := collectEvictionCandidates pinned db minOffloadAgeMs nowMs
      return some (planTieredEviction halfPow candidates targetBytes nowMs assessment.pressureLevel)
    else return none

/-- `enforce_storage_budget`; no result where it panics. -/
def enforceStorageBudget (halfPow : Rat → Rat) (checks : OverflowChecks) (pinned : Uuid → Bool) (nowMs : Int)
    (cloudFault fullFault : Option Nat) (db : LocalStoreDb) : Option (Except Error EvictionResult) × LocalStoreDb :=
  match enforcementPlan halfPow checks pinned nowMs db with
  | .error e => (some (.error e), db)
  | .ok none => (none, db)
  | .ok (some none) => (some (.ok ⟨0, 0⟩), db)
  | .ok (some (some tiered)) =>
      let (result, db) := executeTiered cloudFault fullFault db tiered
      (some result, db)

/-! ## What a pass writes and reports -/

/-- The candidates whose statement goes through. -/
def reached (fault : Option Nat) (cands : List EvictionCandidate) : List EvictionCandidate :=
  match fault with
  | none => cands
  | some n => cands.take n

@[simp] theorem reached_none (cands : List EvictionCandidate) : reached none cands = cands := rfl

@[simp] theorem reached_some (n : Nat) (cands : List EvictionCandidate) : reached (some n) cands = cands.take n := rfl

/-- The candidates of some assets, evicted one after the other. -/
def evictAll (db : LocalStoreDb) (cands : List EvictionCandidate) : LocalStoreDb :=
  cands.foldl (fun db cand => evictAsset db cand.assetId) db

/-- The bytes recorded for the candidates whose asset is there. -/
def presentBytes (db : LocalStoreDb) (cands : List EvictionCandidate) : Nat :=
  freedBytes (cands.filter fun cand => db.assets.has cand.assetId)

section Passes

variable {db : LocalStoreDb} {cand : EvictionCandidate} {cands : List EvictionCandidate} {fault : Option Nat}
  {result result' : EvictionResult}

theorem getMediaAsset_evictAsset (db : LocalStoreDb) (assetId k : Uuid) : (evictAsset db assetId).getMediaAsset k =
    if k = assetId then (db.getMediaAsset k).map fun r => { r with mediaState := .evicted, bytesLocal := 0 }
    else db.getMediaAsset k :=
  LocalStoreDb.find?_updateAsset _ _ _ _ _

/-- An eviction removes no row. -/
@[simp] theorem has_evictAsset (db : LocalStoreDb) (assetId k : Uuid) :
    (evictAsset db assetId).assets.has k = db.assets.has k := by
  show ((evictAsset db assetId).getMediaAsset k).isSome = (db.getMediaAsset k).isSome
  rw [getMediaAsset_evictAsset]
  by_cases h : k = assetId
  · rw [if_pos h, Option.isSome_map]
  · rw [if_neg h]

theorem presentBytes_evictAsset (assetId : Uuid) : presentBytes (evictAsset db assetId) cands = presentBytes db cands := by
  unfold presentBytes
  simp only [has_evictAsset]

theorem presentBytes_cons : presentBytes db (cand :: cands) =
    (if db.assets.has cand.assetId then cand.bytes.toNat else 0) + presentBytes db cands := by
  unfold presentBytes
  rw [List.filter_cons]
  by_cases h : db.assets.has cand.assetId = true
  · rw [if_pos h, if_pos h]
    rfl
  · rw [if_neg h, if_neg h, Nat.zero_add]

/-- **The store a pass leaves.** -/
theorem evictLoop_store : (evictLoop fault cands result db).2 = evictAll db (reached fault cands) := by
  induction cands generalizing fault result db with
  | nil => cases fault <;> simp [evictLoop, evictAll]
  | cons cand cands ih =>
      unfold evictLoop
      rcases fault with _ | _ | n
      · rw [if_neg (by simp)]
        exact ih
      · rfl
      · rw [if_neg (by simp)]
        exact ih

/-- A pass that reports has reached all its candidates. -/
theorem evictLoop_eq_ok (hresult : result.freedBytes ≤ u64Max) (h : (evictLoop fault cands result db).1 = .ok result') :
    reached fault cands = cands ∧ result'.freedBytes = min u64Max (result.freedBytes + presentBytes db cands) := by
  induction cands generalizing fault result db with
  | nil =>
      obtain rfl := Except.ok.inj h
      refine ⟨by cases fault <;> simp, ?_⟩
      show _ = min u64Max (_ + 0)
      rw [Nat.add_zero, Nat.min_eq_right hresult]
  | cons cand cands ih =>
      unfold evictLoop at h
      by_cases hfault : fault = some 0
      · rw [if_pos hfault] at h
        exact absurd h (by simp)
      · rw [if_neg hfault] at h
        have hnext := ih (by split_ifs <;> simp [hresult]) h
        rw [presentBytes_evictAsset] at hnext
        refine ⟨?_, ?_⟩
        · rcases fault with _ | _ | n
          · rfl
          · exact absurd rfl hfault
          · exact congrArg (cand :: ·) hnext.1
        · rw [hnext.2, presentBytes_cons]
          by_cases hthere : db.assets.has cand.assetId = true
          · simp only [if_pos hthere]
            omega
          · simp only [if_neg hthere, Nat.zero_add]

/-- **The store `execute_eviction` leaves.** -/
theorem executeEviction_store {plan : EvictionPlan} :
    (executeEviction fault db plan).2 = evictAll db (reached fault plan.selected) := evictLoop_store

/-- **When `execute_eviction` reports, and what.** -/
theorem executeEviction_eq_ok {plan : EvictionPlan} (h : (executeEviction fault db plan).1 = .ok result') :
    reached fault plan.selected = plan.selected ∧ result'.freedBytes = min u64Max (presentBytes db plan.selected) := by
  obtain ⟨hall, hfreed⟩ := evictLoop_eq_ok (Nat.zero_le _) h
  rw [Nat.zero_add] at hfreed
  exact ⟨hall, hfreed⟩

end Passes

end KChatCore.Offload
