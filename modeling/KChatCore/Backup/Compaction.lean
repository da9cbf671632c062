import KChatCore.Backup.EventJournal
import KChatCore.Lib.Buckets
import KChatCore.Lib.Resolution

/-!
# `Backup.Compaction` — the compaction policy and the tombstone filter

* `CompactionPolicy.plan` — buckets the ledger's segments by (tier, week or month of their first event) and
  turns every bucket of at least `minGroupSize` segments into a group for the next tier.
* `applyTombstones` — the two-pass filter run over one group's events.
* `backupTombstones` — what a backup tombstone covers, as a relation on events; `applyTombstones` is its
  resolution (`applyTombstones_eq_resolve`).
* `plan_supersedes_once` — a plan takes segments from the ledger, each at most once.
-/

namespace KChatCore

/-- Both ids of an event, when it has both. -/
def BackupEvent.ids (e : BackupEvent) : Option (Uuid × Uuid) :=
  match e.conversationId, e.messageId with
  | some conv, some mid => some (conv, mid)
  | _, _ => none

/-- `MessageReceived | MessageEdited | MediaReceived`: the events a message tombstone drops. -/
def BackupEventType.isMessageContent : BackupEventType → Bool
  | .messageReceived | .messageEdited | .mediaReceived => true
  | _ => false

/-- The three tombstone types. -/
def BackupEventType.isTombstone : BackupEventType → Bool
  | .messageDeleted | .conversationDeleted | .mediaDeleted => true
  | _ => false

namespace Backup

open Lib

/-- `CompactionTier`. -/
inductive CompactionTier
  | daily
  | weekly
  | monthly
deriving DecidableEq, Repr

/-- `CompactionTier::next_tier`. -/
def CompactionTier.nextTier : CompactionTier → Option CompactionTier
  | daily => some weekly
  | weekly => some monthly
  | monthly => none

/-- `BackupSegmentRef`. -/
structure BackupSegmentRef where
  segmentId : Uuid
  tier : CompactionTier
  minEventMs : Int
  maxEventMs : Int
  eventCount : Nat
deriving DecidableEq, Repr

/-- `DAY_MS`. -/
def dayMs : Int := 86400 * 1000

/-- `CompactionPolicy`. -/
structure CompactionPolicy where
  dailyToWeeklyMs : Int
  weeklyToMonthlyMs : Int
  minGroupSize : Nat
deriving DecidableEq, Repr

/-- `CompactionPolicy::default`. -/
def CompactionPolicy.default : CompactionPolicy where
  dailyToWeeklyMs := 7 * dayMs
  weeklyToMonthlyMs := 30 * dayMs
  minGroupSize := 2

/-- `week_start_ms`: integer division truncates towards zero. -/
def weekStartMs (tMs : Int) : Int :=
  let shifted := satSubI64 tMs (4 * dayMs)
  shifted.tdiv (7 * dayMs) * (7 * dayMs) + 4 * dayMs

/-- `month_start_ms`. -/
def monthStartMs (tMs : Int) : Int := tMs.tdiv (30 * dayMs) * (30 * dayMs)

/-! ## The planner -/

/-- `CompactionGroup`. -/
structure CompactionGroup where
  sourceTier : CompactionTier
  targetTier : CompactionTier
  members : List BackupSegmentRef
deriving DecidableEq, Repr

/-- `CompactionPlan`. -/
structure CompactionPlan where
  groups : List CompactionGroup
deriving DecidableEq, Repr

/-- `CompactionPlan::superseded_segment_ids`. -/
def CompactionPlan.supersededSegmentIds (p : CompactionPlan) : List Uuid :=
  p.groups.flatMap fun g => g.members.map BackupSegmentRef.segmentId

/-- The bucket the planner puts a segment into; none while it is too young, or already monthly. -/
def CompactionPolicy.bucketKey (policy : CompactionPolicy) (nowMs : Int) (seg : BackupSegmentRef) :
    Option (CompactionTier × Int) :=
  match seg.tier with
  | .daily =>
      if wrapI64 (nowMs - seg.maxEventMs) < policy.dailyToWeeklyMs then none
      else some (.daily, weekStartMs seg.minEventMs)
  | .weekly =>
      if wrapI64 (nowMs - seg.maxEventMs) < policy.weeklyToMonthlyMs then none
      else some (.weekly, monthStartMs seg.minEventMs)
  | .monthly => none

/-- The order of the planner's bucket map. -/
def bucketKeyLe (a b : CompactionTier × Int) : Bool :=
  a.1.ctorIdx < b.1.ctorIdx || (a.1.ctorIdx == b.1.ctorIdx && a.2 ≤ b.2)

/-- The order of the members inside a group: `(min_event_ms, segment_id)`. -/
def memberLe (a b : BackupSegmentRef) : Bool :=
  a.minEventMs < b.minEventMs || (a.minEventMs == b.minEventMs && a.segmentId.val ≤ b.segmentId.val)

/-- A bucket becomes a group once it has enough members. -/
def CompactionPolicy.groupOfBucket (policy : CompactionPolicy) :
    (CompactionTier × Int) × List BackupSegmentRef → Option CompactionGroup
  | ((sourceTier, _), members) =>
      if members.length < policy.minGroupSize then none
      else sourceTier.nextTier.map fun targetTier =>
        ⟨sourceTier, targetTier, members.insertionSort fun a b => memberLe a b⟩

/-- `CompactionPolicy::plan`. -/
def CompactionPolicy.plan (policy : CompactionPolicy) (segments : List BackupSegmentRef) (nowMs : Int) :
    CompactionPlan :=
  ⟨(buckets bucketKeyLe (policy.bucketKey nowMs) segments).filterMap policy.groupOfBucket⟩

theorem groupOfBucket_perm {policy : CompactionPolicy} {p : (CompactionTier × Int) × List BackupSegmentRef}
    {g : CompactionGroup} (h : policy.groupOfBucket p = some g) : g.members.Perm p.2 := by
  obtain ⟨⟨tier, start⟩, members⟩ := p
  simp only [CompactionPolicy.groupOfBucket] at h
  split at h
  · exact absurd h (by simp)
  · obtain ⟨target, _, rfl⟩ := Option.map_eq_some_iff.mp h
    exact List.perm_insertionSort _ _

/-- Every planned member is a segment of the ledger. -/
theorem mem_of_mem_plan {policy : CompactionPolicy} {segments : List BackupSegmentRef} {nowMs : Int}
    {g : CompactionGroup} (hg : g ∈ (policy.plan segments nowMs).groups) {m : BackupSegmentRef}
    (hm : m ∈ g.members) : m ∈ segments :=
  mem_of_mem_selected (fun _ _ => groupOfBucket_perm)
    (List.mem_flatMap.mpr ⟨g, hg, hm⟩ :
      m ∈ ((policy.plan segments nowMs).groups).flatMap CompactionGroup.members)

/-- **A plan supersedes each segment at most once.** -/
theorem plan_supersedes_once {policy : CompactionPolicy} {segments : List BackupSegmentRef} {nowMs : Int}
    (hids : (segments.map BackupSegmentRef.segmentId).Nodup) :
    (policy.plan segments nowMs).supersededSegmentIds.Nodup := by
  have hnodup : (((policy.plan segments nowMs).groups).flatMap CompactionGroup.members).Nodup :=
    selected_nodup (fun _ _ => groupOfBucket_perm) hids.of_map
  have hmap : (policy.plan segments nowMs).supersededSegmentIds =
      (((policy.plan segments nowMs).groups).flatMap CompactionGroup.members).map
        BackupSegmentRef.segmentId := by
    rw [List.map_flatMap]
    rfl
  rw [hmap]
  refine List.Nodup.map_on (fun a ha b hb hab => ?_) hnodup
  obtain ⟨g, hg, ha⟩ := List.mem_flatMap.mp ha
  obtain ⟨g', hg', hb⟩ := List.mem_flatMap.mp hb
  exact List.inj_on_of_nodup_map hids (mem_of_mem_plan hg ha) (mem_of_mem_plan hg' hb) hab

/-! ## The tombstone filter -/

/-- `apply_tombstones`: pass 1 collects the tombstones, pass 2 keeps the survivors in order. -/
def applyTombstones (events : List BackupEvent) : List BackupEvent :=
  let deletedMessages :=
    events.filterMap fun ev => if ev.eventType = .messageDeleted then ev.ids else none
  let deletedConversations :=
    events.filterMap fun ev => if ev.eventType = .conversationDeleted then ev.conversationId else none
  let deletedMedia :=
    events.filterMap fun ev => if ev.eventType = .mediaDeleted then ev.ids else none
  events.filter fun ev =>
    if ev.eventType.isTombstone then false
    else if ev.conversationId.any (deletedConversations.contains ·) then false
    else if ev.eventType.isMessageContent && ev.ids.any (deletedMessages.contains ·)
      then false
    else if ev.eventType = .mediaReceived && ev.ids.any (deletedMedia.contains ·) then false
    else true

/-! ## What a tombstone covers -/

/-- Tombstone `t` covers event `e`. -/
def tombstoneCovers (t e : BackupEvent) : Bool :=
  match t.eventType with
  | .messageDeleted =>
      e.eventType.isMessageContent && e.ids.any fun ids => t.ids = some ids
  | .conversationDeleted => e.conversationId.any fun conv => t.conversationId = some conv
  | .mediaDeleted => e.eventType = .mediaReceived && e.ids.any fun ids => t.ids = some ids
  | _ => false

/-- **Backup tombstones**, as a resolution discipline. -/
def backupTombstones : Tombstoning BackupEvent where
  isTombstone e := e.eventType.isTombstone
  covers := tombstoneCovers
  isTombstone_of_covers t e h := by
    unfold tombstoneCovers at h
    cases hty : t.eventType <;> simp_all [BackupEventType.isTombstone]

/-- The three ways to be covered, one per tombstone type. -/
theorem covered_eq (l : List BackupEvent) (e : BackupEvent) :
    backupTombstones.covered l e =
      ((l.any fun t => decide (t.eventType = .conversationDeleted) &&
          e.conversationId.any fun conv => t.conversationId = some conv) ||
        (e.eventType.isMessageContent && l.any fun t => decide (t.eventType = .messageDeleted) &&
          e.ids.any fun ids => t.ids = some ids) ||
        (decide (e.eventType = .mediaReceived) && l.any fun t => decide (t.eventType = .mediaDeleted) &&
          e.ids.any fun ids => t.ids = some ids)) := by
  induction l with
  | nil => simp [Tombstoning.covered]
  | cons t l ih =>
      have hcons : backupTombstones.covered (t :: l) e =
          (tombstoneCovers t e || backupTombstones.covered l e) := rfl
      rw [hcons, ih]
      simp only [List.any_cons, tombstoneCovers]
      cases t.eventType <;> cases e.eventType.isMessageContent <;>
        cases decide (e.eventType = .mediaReceived) <;>
        simp [Bool.or_assoc, Bool.or_left_comm]

/-- A closure that returns `false` at the first test that fires. -/
theorem early_return_chain (a b c : Bool) :
    (if a then false else if b then false else if c then false else true) = !(a || b || c) := by
  cases a <;> cases b <;> cases c <;> rfl

/-- **The two-pass filter is the resolution of the covering relation.** -/
theorem applyTombstones_eq_resolve (events : List BackupEvent) :
    applyTombstones events = backupTombstones.resolve events := by
  unfold applyTombstones Tombstoning.resolve
  refine List.filter_congr fun e _ => ?_
  rw [covered_eq, any_contains_filterMap, any_contains_filterMap, any_contains_filterMap]
  show _ = (!e.eventType.isTombstone && _)
  cases e.eventType.isTombstone with
  | true => simp
  | false =>
      simp only [Bool.false_eq_true, if_false, Bool.not_false, Bool.true_and]
      exact early_return_chain _ _ _

end Backup

end KChatCore
