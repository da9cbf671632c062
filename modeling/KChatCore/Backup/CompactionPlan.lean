import KChatCore.Backup.Compaction

/-!
# `Backup.CompactionPlan` — the plan as a partition of the aged segments

* `bucketStart_mono` — both bucket starts divide towards zero, so the two periods next to the origin fall into
  one bucket; they are monotone all the same. Segments of a later bucket therefore start later, which is what
  puts the groups in the order of their first events.
* `Partitions` — what a plan has to be: every group made of aged segments of one tier and one bucket, no segment
  twice, none left behind.
-/

namespace KChatCore.Backup

open Lib

/-- Two keys compare by their tier, then by their start. -/
theorem bucketKeyLe_iff {a b : CompactionTier × Int} :
    bucketKeyLe a b = true ↔ a.1.ctorIdx < b.1.ctorIdx ∨ a.1.ctorIdx = b.1.ctorIdx ∧ a.2 ≤ b.2 := by
  simp only [bucketKeyLe, Bool.or_eq_true, Bool.and_eq_true, decide_eq_true_eq, beq_iff_eq]

instance : Std.Total fun a b : CompactionTier × Int => (bucketKeyLe a b : Prop) where
  total a b := by
    rw [bucketKeyLe_iff, bucketKeyLe_iff]
    omega

instance : IsTrans (CompactionTier × Int) fun a b => bucketKeyLe a b where
  trans a b c hab hbc := by
    rw [bucketKeyLe_iff] at hab hbc ⊢
    omega

/-! ## The start of a bucket -/

/-- The start of the bucket of a tier that `tMs` falls into. -/
def CompactionTier.bucketStart : CompactionTier → Int → Int
  | .daily, tMs => weekStartMs tMs
  | .weekly, tMs | .monthly, tMs => monthStartMs tMs

theorem truncate_mono {width s t : Int} (hwidth : 0 < width) (h : s ≤ t) :
    s.tdiv width * width ≤ t.tdiv width * width :=
  Int.mul_le_mul_of_nonneg_right (Int.tdiv_le_tdiv hwidth h) hwidth.le

theorem satSubI64_mono {s t : Int} (h : s ≤ t) (d : Int) : satSubI64 s d ≤ satSubI64 t d := by
  unfold satSubI64
  omega

/-- **The start of a bucket is monotone in the event.** -/
theorem bucketStart_mono (tier : CompactionTier) {s t : Int} (h : s ≤ t) : tier.bucketStart s ≤ tier.bucketStart t := by
  cases tier with
  | daily =>
      have hweek : 0 < 7 * dayMs := by decide
      have htrunc := truncate_mono hweek (satSubI64_mono h (4 * dayMs))
      simp only [CompactionTier.bucketStart, weekStartMs]
      omega
  | weekly => exact truncate_mono (by decide) h
  | monthly => exact truncate_mono (by decide) h

/-! ## Which segments are aged -/

/-- The age at which the segments of a tier roll up, if they do. -/
def CompactionPolicy.threshold (policy : CompactionPolicy) : CompactionTier → Option Int
  | .daily => some policy.dailyToWeeklyMs
  | .weekly => some policy.weeklyToMonthlyMs
  | .monthly => none

/-- The segment is aged past the threshold of its tier. -/
def CompactionPolicy.Aged (policy : CompactionPolicy) (nowMs : Int) (seg : BackupSegmentRef) : Prop :=
  ∃ threshold, policy.threshold seg.tier = some threshold ∧ threshold ≤ nowMs - seg.maxEventMs

/-- The key of the bucket a segment belongs to once it is aged. -/
def BackupSegmentRef.bucket (seg : BackupSegmentRef) : CompactionTier × Int :=
  (seg.tier, seg.tier.bucketStart seg.minEventMs)

/-- `now_ms - max_event_ms` is an `i64`. -/
def AgeFits (nowMs : Int) (seg : BackupSegmentRef) : Prop :=
  -(2 ^ 63) ≤ nowMs - seg.maxEventMs ∧ nowMs - seg.maxEventMs < 2 ^ 63

theorem wrapI64_of_fits {x : Int} (h : -(2 ^ 63) ≤ x ∧ x < 2 ^ 63) : wrapI64 x = x := by
  unfold wrapI64
  exact Int.bmod_eq_of_le (by omega) (by omega)

/-- **The planner buckets exactly the aged segments.** -/
theorem bucketKey_eq_some_iff {policy : CompactionPolicy} {nowMs : Int} {seg : BackupSegmentRef}
    (hfits : AgeFits nowMs seg) {key : CompactionTier × Int} :
    policy.bucketKey nowMs seg = some key ↔ policy.Aged nowMs seg ∧ key = seg.bucket := by
  unfold CompactionPolicy.bucketKey CompactionPolicy.Aged CompactionPolicy.threshold BackupSegmentRef.bucket
  rw [wrapI64_of_fits hfits]
  cases seg.tier with
  | daily =>
      simp only [Option.some.injEq, exists_eq_left', CompactionTier.bucketStart]
      split_ifs with hyoung
      · simp only [false_iff, not_and]
        omega
      · rw [Option.some.injEq, eq_comm]
        exact ⟨fun h => ⟨by omega, h⟩, fun h => h.2⟩
  | weekly =>
      simp only [Option.some.injEq, exists_eq_left', CompactionTier.bucketStart]
      split_ifs with hyoung
      · simp only [false_iff, not_and]
        omega
      · rw [Option.some.injEq, eq_comm]
        exact ⟨fun h => ⟨by omega, h⟩, fun h => h.2⟩
  | monthly => simp

/-! ## The groups -/

/-- What the planner makes of a bucket. -/
theorem groupOfBucket_eq_some_iff {policy : CompactionPolicy} {p : (CompactionTier × Int) × List BackupSegmentRef}
    {g : CompactionGroup} :
    policy.groupOfBucket p = some g ↔ policy.minGroupSize ≤ p.2.length ∧ g.sourceTier = p.1.1 ∧
      p.1.1.nextTier = some g.targetTier ∧ g.members = p.2.insertionSort fun a b => memberLe a b := by
  obtain ⟨⟨tier, start⟩, members⟩ := p
  obtain ⟨source, target, sorted⟩ := g
  simp only [CompactionPolicy.groupOfBucket]
  split_ifs with hsmall
  · simp only [false_iff, not_and]
    omega
  · rw [Option.map_eq_some_iff]
    constructor
    · rintro ⟨next, hnext, heq⟩
      cases heq
      exact ⟨by omega, rfl, hnext, rfl⟩
    · rintro ⟨-, rfl, hnext, rfl⟩
      exact ⟨target, hnext, rfl⟩

/-- The earliest `min_event_ms` of the members. -/
def CompactionGroup.firstEventMs (g : CompactionGroup) : Option Int := (g.members.map BackupSegmentRef.minEventMs).min?

/-- `(source_tier, min_event_ms)` of one group is before that of the other. -/
def CompactionGroup.Before (g g' : CompactionGroup) : Prop :=
  ∃ first first', g.firstEventMs = some first ∧ g'.firstEventMs = some first' ∧
    (g.sourceTier.ctorIdx < g'.sourceTier.ctorIdx ∨ g.sourceTier = g'.sourceTier ∧ first < first')

/-- **A plan partitions the aged segments** that are worth rewriting. -/
structure CompactionPlan.Partitions (plan : CompactionPlan) (policy : CompactionPolicy)
    (segments : List BackupSegmentRef) (nowMs : Int) : Prop where
  disjoint : plan.groups.Pairwise fun g g' => ∀ m ∈ g.members, ∀ m' ∈ g'.members, m.segmentId ≠ m'.segmentId
  sublist : ∀ g ∈ plan.groups, g.members.Subperm segments
  size : ∀ g ∈ plan.groups, policy.minGroupSize ≤ g.members.length
  notMonthly : ∀ g ∈ plan.groups, g.sourceTier ≠ .monthly
  successor : ∀ g ∈ plan.groups, g.sourceTier.nextTier = some g.targetTier
  tier : ∀ g ∈ plan.groups, ∀ m ∈ g.members, m.tier = g.sourceTier
  aged : ∀ g ∈ plan.groups, ∀ m ∈ g.members, policy.Aged nowMs m
  oneBucket : ∀ g ∈ plan.groups, ∀ m ∈ g.members, ∀ m' ∈ g.members, m.bucket = m'.bucket
  covers : ∀ seg ∈ segments, policy.Aged nowMs seg →
    (∃ peers : List BackupSegmentRef, peers.Sublist segments ∧ policy.minGroupSize ≤ peers.length ∧
      ∀ peer ∈ peers, policy.Aged nowMs peer ∧ peer.bucket = seg.bucket) →
    ∃ g ∈ plan.groups, seg ∈ g.members
  ordered : plan.groups.Pairwise CompactionGroup.Before

section Plan

variable {policy : CompactionPolicy} {segments : List BackupSegmentRef} {nowMs : Int}

/-- Where a group of the plan comes from: a bucket of aged segments, large enough, sorted. -/
theorem exists_bucket_of_mem_plan {g : CompactionGroup} (hg : g ∈ (policy.plan segments nowMs).groups) :
    ∃ p ∈ buckets bucketKeyLe (policy.bucketKey nowMs) segments, policy.groupOfBucket p = some g :=
  List.mem_filterMap.mp hg

/-- **The members of a group** are the aged segments of its bucket. -/
theorem mem_members_iff (hfits : ∀ seg ∈ segments, AgeFits nowMs seg) {g : CompactionGroup}
    {p : (CompactionTier × Int) × List BackupSegmentRef}
    (hp : p ∈ buckets bucketKeyLe (policy.bucketKey nowMs) segments) (hgroup : policy.groupOfBucket p = some g)
    {m : BackupSegmentRef} : m ∈ g.members ↔ m ∈ segments ∧ policy.Aged nowMs m ∧ m.bucket = p.1 := by
  rw [(groupOfBucket_perm hgroup).mem_iff, mem_buckets hp]
  refine and_congr_right fun hm => ?_
  rw [bucketKey_eq_some_iff (hfits m hm), @eq_comm _ p.1]

/-- The first event of a group is that of one of its members. -/
theorem exists_first_member {g : CompactionGroup} (hne : g.members ≠ []) :
    ∃ m ∈ g.members, g.firstEventMs = some m.minEventMs := by
  cases hmin : g.firstEventMs with
  | none => exact absurd (List.map_eq_nil_iff.mp (List.min?_eq_none_iff.mp hmin)) hne
  | some first =>
      obtain ⟨m, hm, rfl⟩ := List.mem_map.mp (List.min?_mem hmin)
      exact ⟨m, hm, rfl⟩

/-- **Two buckets in key order give two groups in the order of their first events**, as the bucket starts are
monotone. -/
theorem before_of_key_le (hfits : ∀ seg ∈ segments, AgeFits nowMs seg) {g g' : CompactionGroup}
    {p p' : (CompactionTier × Int) × List BackupSegmentRef}
    (hp : p ∈ buckets bucketKeyLe (policy.bucketKey nowMs) segments) (hgroup : policy.groupOfBucket p = some g)
    (hp' : p' ∈ buckets bucketKeyLe (policy.bucketKey nowMs) segments) (hgroup' : policy.groupOfBucket p' = some g')
    (hle : bucketKeyLe p.1 p'.1 = true) (hne : p.1 ≠ p'.1) : g.Before g' := by
  have hnil : g.members ≠ [] := fun h => bucket_ne_nil hp (List.Perm.nil_eq (h ▸ groupOfBucket_perm hgroup)).symm
  have hnil' : g'.members ≠ [] := fun h => bucket_ne_nil hp' (List.Perm.nil_eq (h ▸ groupOfBucket_perm hgroup')).symm
  obtain ⟨m, hm, hfirst⟩ := exists_first_member hnil
  obtain ⟨m', hm', hfirst'⟩ := exists_first_member hnil'
  have hkey := ((mem_members_iff hfits hp hgroup).mp hm).2.2
  have hkey' := ((mem_members_iff hfits hp' hgroup').mp hm').2.2
  have hsource := (groupOfBucket_eq_some_iff.mp hgroup).2.1
  have hsource' := (groupOfBucket_eq_some_iff.mp hgroup').2.1
  refine ⟨m.minEventMs, m'.minEventMs, hfirst, hfirst', ?_⟩
  rw [hsource, hsource']
  rcases bucketKeyLe_iff.mp hle with hlt | ⟨heq, hstart⟩
  · exact .inl hlt
  · -- the same tier: the later bucket starts later, so its first event cannot be the earlier one
    have htier : p.1.1 = p'.1.1 := by
      cases h : p.1.1 <;> cases h' : p'.1.1 <;> simp_all [CompactionTier.ctorIdx]
    refine .inr ⟨htier, ?_⟩
    by_contra hge
    have hmono := bucketStart_mono m.tier (not_lt.mp hge)
    have htiers : m.tier = m'.tier := by
      have h₁ : m.tier = p.1.1 := congrArg Prod.fst hkey
      have h₂ : m'.tier = p'.1.1 := congrArg Prod.fst hkey'
      rw [h₁, h₂, htier]
    have hstarts : p'.1.2 ≤ p.1.2 := by
      rw [← hkey, ← hkey']
      show m'.tier.bucketStart _ ≤ m.tier.bucketStart _
      rwa [← htiers]
    exact hne (Prod.ext htier (le_antisymm hstart hstarts))

theorem plan_groups_ordered (hfits : ∀ seg ∈ segments, AgeFits nowMs seg) :
    (policy.plan segments nowMs).groups.Pairwise CompactionGroup.Before := by
  have hsorted : (buckets bucketKeyLe (policy.bucketKey nowMs) segments).Pairwise _ := buckets_sorted
  refine List.pairwise_filterMap.mpr (hsorted.imp_of_mem fun hp hp' hkeys => ?_)
  intro g hg g' hg'
  exact before_of_key_le hfits hp hg hp' hg' hkeys.1 hkeys.2

theorem plan_groups_disjoint (hids : (segments.map BackupSegmentRef.segmentId).Nodup) :
    (policy.plan segments nowMs).groups.Pairwise fun g g' =>
      ∀ m ∈ g.members, ∀ m' ∈ g'.members, m.segmentId ≠ m'.segmentId := by
  have honce : (policy.plan segments nowMs).supersededSegmentIds.Nodup := plan_supersedes_once hids
  unfold CompactionPlan.supersededSegmentIds at honce
  refine (List.nodup_flatMap.mp honce).2.imp fun {g g'} hdisjoint m hm m' hm' heq => ?_
  exact hdisjoint (List.mem_map_of_mem hm) (heq ▸ List.mem_map_of_mem hm')

/-- **An aged segment with enough peers is planned.** -/
theorem plan_covers (hfits : ∀ seg ∈ segments, AgeFits nowMs seg) {seg : BackupSegmentRef} (hseg : seg ∈ segments)
    (haged : policy.Aged nowMs seg) {peers : List BackupSegmentRef} (hpeers : peers.Sublist segments)
    (hsize : policy.minGroupSize ≤ peers.length)
    (hpeer : ∀ peer ∈ peers, policy.Aged nowMs peer ∧ peer.bucket = seg.bucket) :
    ∃ g ∈ (policy.plan segments nowMs).groups, seg ∈ g.members := by
  have hkey : policy.bucketKey nowMs seg = some seg.bucket := (bucketKey_eq_some_iff (hfits seg hseg)).mpr ⟨haged, rfl⟩
  have hbucket : _ ∈ buckets bucketKeyLe (policy.bucketKey nowMs) segments := mem_buckets_of_key hseg hkey
  set members := segments.filter fun s => policy.bucketKey nowMs s = some seg.bucket with hmembers
  have hin : peers.Sublist members := by
    have hkept : peers.filter (fun s => policy.bucketKey nowMs s = some seg.bucket) = peers := by
      refine List.filter_eq_self.mpr fun peer hp => decide_eq_true ?_
      have hfit := hfits peer (hpeers.subset hp)
      exact (bucketKey_eq_some_iff hfit).mpr ⟨(hpeer peer hp).1, (hpeer peer hp).2.symm⟩
    rw [← hkept]
    exact hpeers.filter _
  -- an aged segment is not monthly, so its bucket has a tier to go to
  obtain ⟨target, htarget⟩ : ∃ target, seg.tier.nextTier = some target := by
    obtain ⟨threshold, hthreshold, -⟩ := haged
    cases htier : seg.tier with
    | daily => exact ⟨.weekly, rfl⟩
    | weekly => exact ⟨.monthly, rfl⟩
    | monthly => rw [htier] at hthreshold; cases hthreshold
  have hgroup : policy.groupOfBucket (seg.bucket, members) =
      some ⟨seg.tier, target, members.insertionSort fun a b => memberLe a b⟩ :=
    groupOfBucket_eq_some_iff.mpr ⟨hsize.trans hin.length_le, rfl, htarget, rfl⟩
  refine ⟨_, List.mem_filterMap.mpr ⟨_, hbucket, hgroup⟩, ?_⟩
  exact (mem_members_iff hfits hbucket hgroup).mpr ⟨hseg, haged, rfl⟩

/-- **The compaction plan partitions correctly.** -/
theorem plan_partitions (policy : CompactionPolicy) {segments : List BackupSegmentRef} {nowMs : Int}
    (hids : (segments.map BackupSegmentRef.segmentId).Nodup) (hfits : ∀ seg ∈ segments, AgeFits nowMs seg) :
    (policy.plan segments nowMs).Partitions policy segments nowMs where
  disjoint := plan_groups_disjoint hids
  sublist g hg := by
    obtain ⟨p, hp, hgroup⟩ := exists_bucket_of_mem_plan hg
    obtain ⟨k, -, rfl⟩ := List.mem_map.mp hp
    exact (groupOfBucket_perm hgroup).subperm.trans List.filter_sublist.subperm
  size g hg := by
    obtain ⟨p, -, hgroup⟩ := exists_bucket_of_mem_plan hg
    rw [(groupOfBucket_perm hgroup).length_eq]
    exact (groupOfBucket_eq_some_iff.mp hgroup).1
  notMonthly g hg hmonthly := by
    obtain ⟨p, -, hgroup⟩ := exists_bucket_of_mem_plan hg
    obtain ⟨-, hsource, hnext, -⟩ := groupOfBucket_eq_some_iff.mp hgroup
    -- a monthly segment has no tier to go to
    rw [← hsource, hmonthly] at hnext
    cases hnext
  successor g hg := by
    obtain ⟨p, -, hgroup⟩ := exists_bucket_of_mem_plan hg
    obtain ⟨-, hsource, hnext, -⟩ := groupOfBucket_eq_some_iff.mp hgroup
    rwa [hsource]
  tier g hg m hm := by
    obtain ⟨p, hp, hgroup⟩ := exists_bucket_of_mem_plan hg
    rw [(groupOfBucket_eq_some_iff.mp hgroup).2.1, ← ((mem_members_iff hfits hp hgroup).mp hm).2.2]
    rfl
  aged g hg m hm := by
    obtain ⟨p, hp, hgroup⟩ := exists_bucket_of_mem_plan hg
    exact ((mem_members_iff hfits hp hgroup).mp hm).2.1
  oneBucket g hg m hm m' hm' := by
    obtain ⟨p, hp, hgroup⟩ := exists_bucket_of_mem_plan hg
    rw [((mem_members_iff hfits hp hgroup).mp hm).2.2, ((mem_members_iff hfits hp hgroup).mp hm').2.2]
  covers seg hseg haged := by
    rintro ⟨peers, hpeers, hsize, hpeer⟩
    exact plan_covers hfits hseg haged hpeers hsize hpeer
  ordered := plan_groups_ordered hfits

end Plan

/-- Two aged daily segments of one week. -/
def twoDays : List BackupSegmentRef :=
  [⟨⟨1⟩, .daily, 5 * dayMs, 5 * dayMs, 1⟩, ⟨⟨2⟩, .daily, 6 * dayMs, 6 * dayMs, 1⟩]

theorem plan_partitions_twoDays :
    (CompactionPolicy.default.plan twoDays (30 * dayMs)).Partitions CompactionPolicy.default twoDays (30 * dayMs) :=
  plan_partitions CompactionPolicy.default (by decide)
    (by simp only [twoDays, List.forall_mem_cons, AgeFits, dayMs]; decide)

end KChatCore.Backup
