import KChatCore.Base
import KChatCore.Lib.Greedy
import KChatCore.LocalStore.StateMachines

/-!
# `Offload.Eviction` — the eviction planner

`planEvictionWithPressure` keeps the candidates that may go, orders them by score and takes them until the target is
reached; `planTieredEviction` runs it over the candidates on a cloud sink, and over the others with what is left of the
target.

Scores are exact fractions, `⊥` where the code has negative infinity; the power of one half, a float function, is a
parameter. No statement depends on the order the scores give.

* `planEviction_chosen` — what one pass takes;
* `planTieredEviction_sound` — the two passes are safe, sufficient and minimal.
-/

namespace KChatCore.Offload

open Lib

/-- `PressureLevel`. -/
inductive PressureLevel
  | none
  | warning
  | critical
  | extreme
deriving DecidableEq, Repr

/-- `ContentKind`. -/
inductive ContentKind
  | video
  | document
  | image
  | voice
  | thumbnail
  | text
deriving DecidableEq, Repr

/-- `ContentKind::weight`. -/
def ContentKind.weight : ContentKind → Rat
  | video => 1
  | document => 9 / 10
  | image => 7 / 10
  | voice => 5 / 10
  | thumbnail => 3 / 10
  | text => 1 / 10

/-- `ContentKind::is_eligible_for_pressure`. -/
def ContentKind.isEligibleForPressure : ContentKind → PressureLevel → Bool
  | video, pressure | document, pressure | image, pressure | voice, pressure => pressure ≠ .none
  | thumbnail, pressure => pressure = .critical || pressure = .extreme
  | text, pressure => pressure = .extreme

/-- `EvictionCandidate`. -/
structure EvictionCandidate where
  assetId : Uuid
  messageId : Uuid
  conversationId : Uuid
  contentKind : ContentKind
  bytes : UInt64
  lastAccessedMs : Int
  isPinned : Bool
  archiveState : ArchiveState
  storageSink : String
deriving DecidableEq

/-- `RECENCY_HALF_LIFE_MS`. -/
def recencyHalfLifeMs : Rat := 30 * 24 * 60 * 60 * 1000

/-- `SIZE_BONUS_DIVISOR`. -/
def sizeBonusDivisor : Rat := 16 * 1024 * 1024

/-- `compute_eviction_score`; `halfPow` is `0.5_f64.powf`. -/
def computeEvictionScore (halfPow : Rat → Rat) (candidate : EvictionCandidate) (nowMs : Int) : WithBot Rat :=
  if candidate.isPinned then ⊥
  else
    let kindWeight := candidate.contentKind.weight
    let ageMs : Rat := max (wrapI64 (nowMs - candidate.lastAccessedMs)) 0
    let recency := 1 - halfPow (ageMs / recencyHalfLifeMs)
    let sizeBonus := (candidate.bytes.toNat : Rat) / sizeBonusDivisor
    ((kindWeight * 1 + recency * (1 / 2) + sizeBonus * (1 / 10) : Rat) : WithBot Rat)

/-- `EvictionPlan`. -/
structure EvictionPlan where
  candidates : List (EvictionCandidate × WithBot Rat)
  targetBytes : Nat
  totalBytes : Nat

/-- `EvictionTier`. -/
inductive EvictionTier
  | cloudOffload
  | fullEviction
deriving DecidableEq, Repr

/-- `EvictionTier::classify`. -/
def EvictionTier.classify (candidate : EvictionCandidate) : EvictionTier :=
  if candidate.storageSink = "kchat_backend" || candidate.storageSink = "" then .fullEviction else .cloudOffload

/-- `TieredEvictionPlan`. -/
structure TieredEvictionPlan where
  cloudOffload : EvictionPlan
  fullEviction : EvictionPlan
  totalBytes : Nat
  targetBytes : Nat

/-- The filters of the planner. -/
def isEligible (pressure : PressureLevel) (c : EvictionCandidate) : Bool :=
  !c.isPinned && c.archiveState = .archiveVerified && c.contentKind.isEligibleForPressure pressure

section Planner

variable (halfPow : Rat → Rat)

/-- The eligible candidates with their scores, highest first. -/
def scoredCandidates (candidates : List EvictionCandidate) (nowMs : Int) (pressure : PressureLevel) :
    List (EvictionCandidate × WithBot Rat) :=
  ((candidates.filter (isEligible pressure)).map fun c => (c, computeEvictionScore halfPow c nowMs)).mergeSort
    fun a b => decide (b.2 ≤ a.2)

/-- `plan_eviction_with_pressure`. -/
def planEvictionWithPressure (candidates : List EvictionCandidate) (targetBytes : Nat) (nowMs : Int)
    (pressure : PressureLevel) : EvictionPlan :=
  let scored := scoredCandidates halfPow candidates nowMs pressure
  let (chosen, accumulated) := takeUntil (fun cand => cand.1.bytes.toNat) u64Max targetBytes 0 scored
  ⟨chosen, targetBytes, accumulated⟩

/-- `plan_tiered_eviction`. -/
def planTieredEviction (candidates : List EvictionCandidate) (targetBytes : UInt64) (nowMs : Int)
    (pressure : PressureLevel) : TieredEvictionPlan :=
  let (cloudPool, fullPool) := candidates.partition fun c => EvictionTier.classify c = .cloudOffload
  let cloudPlan := planEvictionWithPressure halfPow cloudPool targetBytes.toNat nowMs pressure
  let remaining := targetBytes.toNat - cloudPlan.totalBytes
  let fullPlan :=
    if remaining = 0 then ⟨[], 0, 0⟩ else planEvictionWithPressure halfPow fullPool remaining nowMs pressure
  ⟨cloudPlan, fullPlan, min u64Max (cloudPlan.totalBytes + fullPlan.totalBytes), targetBytes.toNat⟩

end Planner

/-! ## One pass -/

/-- The candidates a plan evicts. -/
def EvictionPlan.selected (plan : EvictionPlan) : List EvictionCandidate := plan.candidates.map Prod.fst

/-- What evicting some candidates frees. -/
def freedBytes (candidates : List EvictionCandidate) : Nat := (candidates.map fun c => c.bytes.toNat).sum

@[simp] theorem freedBytes_append (l l' : List EvictionCandidate) :
    freedBytes (l ++ l') = freedBytes l + freedBytes l' := by
  simp [freedBytes]

theorem freedBytes_perm {l l' : List EvictionCandidate} (h : l.Perm l') : freedBytes l = freedBytes l' :=
  (h.map _).sum_eq

section Pass

variable {halfPow : Rat → Rat} {candidates : List EvictionCandidate} {target : Nat} {nowMs : Int}
  {pressure : PressureLevel}

theorem scoredCandidates_perm : ((scoredCandidates halfPow candidates nowMs pressure).map Prod.fst).Perm
    (candidates.filter (isEligible pressure)) := by
  unfold scoredCandidates
  refine ((List.mergeSort_perm _ _).map Prod.fst).trans ?_
  rw [List.map_map]
  show (List.map id _).Perm _
  rw [List.map_id]

theorem freedBytes_candidates (l : List (EvictionCandidate × WithBot Rat)) :
    (l.map fun cand => cand.1.bytes.toNat).sum = freedBytes (l.map Prod.fst) := by
  rw [freedBytes, List.map_map]
  rfl

/-- A pass picks among the eligible candidates, each at most once. -/
theorem selected_subperm : (planEvictionWithPressure halfPow candidates target nowMs pressure).selected.Subperm
    (candidates.filter (isEligible pressure)) := by
  have hfirst : (planEvictionWithPressure halfPow candidates target nowMs pressure).selected <+:
      (scoredCandidates halfPow candidates nowMs pressure).map Prod.fst := (takeUntil_initial 0 _).map Prod.fst
  exact hfirst.sublist.subperm.trans scoredCandidates_perm.subperm

/-- The total is what the picked candidates hold, as far as it can be counted. -/
theorem totalBytes_eq : (planEvictionWithPressure halfPow candidates target nowMs pressure).totalBytes =
    min u64Max (freedBytes (planEvictionWithPressure halfPow candidates target nowMs pressure).selected) := by
  refine (takeUntil_total (Nat.zero_le _) _).trans ?_
  rw [Nat.zero_add, freedBytes_candidates]
  rfl

/-- **A pass reaches its target**, or takes everything. -/
theorem pass_reaches : target ≤ (planEvictionWithPressure halfPow candidates target nowMs pressure).totalBytes ∨
    (planEvictionWithPressure halfPow candidates target nowMs pressure).selected.Perm
      (candidates.filter (isEligible pressure)) := by
  rcases @takeUntil_reaches _ (fun cand : EvictionCandidate × WithBot Rat => cand.1.bytes.toNat) u64Max target 0
    (scoredCandidates halfPow candidates nowMs pressure) with hreached | hall
  · exact .inl hreached
  · refine .inr ?_
    show (List.map Prod.fst _).Perm _
    unfold planEvictionWithPressure
    simp only [hall]
    exact scoredCandidates_perm

/-- **A pass takes nothing it does not need.** -/
theorem pass_minimal (htarget : target ≤ u64Max) {init : List EvictionCandidate} {last : EvictionCandidate}
    (h : (planEvictionWithPressure halfPow candidates target nowMs pressure).selected = init ++ [last]) :
    freedBytes init < target := by
  obtain ⟨front, back, hsplit, rfl, hback⟩ := List.map_eq_append_iff.mp h
  obtain ⟨cand, rest, rfl, -, hrest⟩ := List.map_eq_cons_iff.mp hback
  obtain rfl := List.map_eq_nil_iff.mp hrest
  have hsum := takeUntil_minimal htarget hsplit
  rwa [Nat.zero_add, freedBytes_candidates] at hsum

end Pass

/-! ## The two passes -/

/-- Everything a tiered plan evicts. -/
def TieredEvictionPlan.selected (plan : TieredEvictionPlan) : List EvictionCandidate :=
  plan.cloudOffload.selected ++ plan.fullEviction.selected

/-- **A tiered plan that is safe, sufficient and minimal.** -/
structure TieredEvictionPlan.Sound (plan : TieredEvictionPlan) (candidates : List EvictionCandidate)
    (targetBytes : UInt64) (pressure : PressureLevel) : Prop where
  safe : ∀ c ∈ plan.selected, c ∈ candidates ∧ c.isPinned = false ∧ c.archiveState = .archiveVerified ∧
    c.contentKind.isEligibleForPressure pressure = true
  once : (plan.selected.map EvictionCandidate.assetId).Nodup
  sufficient : min targetBytes.toNat (freedBytes (candidates.filter (isEligible pressure))) ≤ freedBytes plan.selected
  counted : plan.totalBytes = min u64Max (freedBytes plan.selected)
  cloudTier : ∀ c ∈ plan.cloudOffload.selected, EvictionTier.classify c = .cloudOffload
  fullTier : ∀ c ∈ plan.fullEviction.selected, EvictionTier.classify c = .fullEviction
  cloudFirst : (∃ c ∈ plan.selected, EvictionTier.classify c = .fullEviction) →
    ∀ c ∈ candidates, isEligible pressure c = true → EvictionTier.classify c = .cloudOffload → c ∈ plan.selected
  cloudTarget : plan.cloudOffload.targetBytes = targetBytes.toNat
  fullTarget : plan.fullEviction.targetBytes = targetBytes.toNat - freedBytes plan.cloudOffload.selected
  minimal : ∀ tier ∈ [plan.cloudOffload, plan.fullEviction], ∀ init last, tier.selected = init ++ [last] →
    freedBytes init < tier.targetBytes

section Tiers

variable (halfPow : Rat → Rat) (candidates : List EvictionCandidate) (targetBytes : UInt64) (nowMs : Int)
  (pressure : PressureLevel)

/-- The candidates of a tier. -/
def poolOf (tier : EvictionTier) : List EvictionCandidate :=
  candidates.filter fun c => decide (EvictionTier.classify c = tier)

/-- What the first pass leaves of the target. -/
def remainingBytes : Nat :=
  targetBytes.toNat -
    (planEvictionWithPressure halfPow (poolOf candidates .cloudOffload) targetBytes.toNat nowMs pressure).totalBytes

theorem planTieredEviction_cloud : (planTieredEviction halfPow candidates targetBytes nowMs pressure).cloudOffload =
    planEvictionWithPressure halfPow (poolOf candidates .cloudOffload) targetBytes.toNat nowMs pressure := by
  unfold planTieredEviction poolOf
  rw [List.partition_eq_filter_filter]

theorem planTieredEviction_full : (planTieredEviction halfPow candidates targetBytes nowMs pressure).fullEviction =
    if remainingBytes halfPow candidates targetBytes nowMs pressure = 0 then ⟨[], 0, 0⟩
    else planEvictionWithPressure halfPow (poolOf candidates .fullEviction)
      (remainingBytes halfPow candidates targetBytes nowMs pressure) nowMs pressure := by
  have hpool : candidates.filter (not ∘ fun c => decide (EvictionTier.classify c = .cloudOffload)) =
      poolOf candidates .fullEviction := by
    refine List.filter_congr fun c _ => ?_
    simp only [Function.comp_apply]
    cases EvictionTier.classify c <;> rfl
  unfold planTieredEviction remainingBytes
  rw [List.partition_eq_filter_filter, hpool]
  rfl

theorem mem_eligible {c : EvictionCandidate} {tier : EvictionTier} :
    c ∈ (poolOf candidates tier).filter (isEligible pressure) ↔
      c ∈ candidates ∧ EvictionTier.classify c = tier ∧ isEligible pressure c = true := by
  unfold poolOf
  rw [List.mem_filter, List.mem_filter, decide_eq_true_iff, and_assoc]

/-- The eligible candidates of the two tiers are the eligible candidates. -/
theorem pools_perm : ((poolOf candidates .cloudOffload).filter (isEligible pressure) ++
    (poolOf candidates .fullEviction).filter (isEligible pressure)).Perm (candidates.filter (isEligible pressure)) := by
  unfold poolOf
  rw [← List.filter_append]
  refine List.Perm.filter _ ?_
  have hother : candidates.filter (fun c => decide (EvictionTier.classify c = .fullEviction)) =
      candidates.filter fun c => !decide (EvictionTier.classify c = .cloudOffload) := by
    refine List.filter_congr fun c _ => ?_
    cases EvictionTier.classify c <;> rfl
  rw [hother]
  exact List.filter_append_perm _ _

/-- What the second pass takes is a selection of its pool. -/
theorem full_selected_subperm :
    (planTieredEviction halfPow candidates targetBytes nowMs pressure).fullEviction.selected.Subperm
      ((poolOf candidates .fullEviction).filter (isEligible pressure)) := by
  rw [planTieredEviction_full]
  split_ifs
  · exact List.nil_subperm
  · exact selected_subperm

/-- A plan takes each candidate at most once, and only eligible ones. -/
theorem tiered_selected_subperm :
    (planTieredEviction halfPow candidates targetBytes nowMs pressure).selected.Subperm
      (candidates.filter (isEligible pressure)) := by
  have hcloud : (planTieredEviction halfPow candidates targetBytes nowMs pressure).cloudOffload.selected.Subperm
      ((poolOf candidates .cloudOffload).filter (isEligible pressure)) := by
    rw [planTieredEviction_cloud]
    exact selected_subperm
  exact (hcloud.append (full_selected_subperm halfPow candidates targetBytes nowMs pressure)).trans
    (pools_perm candidates pressure).subperm

/-- Where the first pass leaves something of the target, it took all it could, and nothing was lost in counting. -/
theorem remaining_pos (h : remainingBytes halfPow candidates targetBytes nowMs pressure ≠ 0) :
    (planTieredEviction halfPow candidates targetBytes nowMs pressure).cloudOffload.selected.Perm
      ((poolOf candidates .cloudOffload).filter (isEligible pressure)) ∧
    remainingBytes halfPow candidates targetBytes nowMs pressure =
      targetBytes.toNat -
        freedBytes (planTieredEviction halfPow candidates targetBytes nowMs pressure).cloudOffload.selected := by
  have hcap : targetBytes.toNat ≤ u64Max := Nat.le_pred_of_lt targetBytes.toNat_lt
  rw [planTieredEviction_cloud]
  unfold remainingBytes at h ⊢
  refine ⟨?_, ?_⟩
  · rcases @pass_reaches halfPow (poolOf candidates .cloudOffload) targetBytes.toNat nowMs pressure with hreached | hall
    · omega
    · exact hall
  · rw [totalBytes_eq] at h ⊢
    omega

/-- **Both passes together reach the target**, or take everything that may go. -/
theorem tiered_sufficient : min targetBytes.toNat (freedBytes (candidates.filter (isEligible pressure))) ≤
    freedBytes (planTieredEviction halfPow candidates targetBytes nowMs pressure).selected := by
  unfold TieredEvictionPlan.selected
  rw [freedBytes_append]
  by_cases hdone : remainingBytes halfPow candidates targetBytes nowMs pressure = 0
  · -- the first pass was enough
    have hcloud := hdone
    unfold remainingBytes at hcloud
    rw [totalBytes_eq] at hcloud
    rw [planTieredEviction_cloud]
    omega
  · obtain ⟨hall, hleft⟩ := remaining_pos halfPow candidates targetBytes nowMs pressure hdone
    rw [planTieredEviction_full, if_neg hdone]
    rcases @pass_reaches halfPow (poolOf candidates .fullEviction)
      (remainingBytes halfPow candidates targetBytes nowMs pressure) nowMs pressure with hreached | hrest
    · rw [totalBytes_eq] at hreached
      omega
    · rw [freedBytes_perm hall, freedBytes_perm hrest, ← freedBytes_append,
        freedBytes_perm (pools_perm candidates pressure)]
      exact Nat.min_le_right _ _

theorem tiered_total : (planTieredEviction halfPow candidates targetBytes nowMs pressure).totalBytes =
    min u64Max (freedBytes (planTieredEviction halfPow candidates targetBytes nowMs pressure).selected) := by
  have hcloud : (planTieredEviction halfPow candidates targetBytes nowMs pressure).cloudOffload.totalBytes =
      min u64Max (freedBytes (planTieredEviction halfPow candidates targetBytes nowMs pressure).cloudOffload.selected) := by
    rw [planTieredEviction_cloud]
    exact totalBytes_eq
  have hfull : (planTieredEviction halfPow candidates targetBytes nowMs pressure).fullEviction.totalBytes =
      min u64Max (freedBytes (planTieredEviction halfPow candidates targetBytes nowMs pressure).fullEviction.selected) := by
    rw [planTieredEviction_full]
    split_ifs
    · rfl
    · exact totalBytes_eq
  unfold TieredEvictionPlan.selected
  rw [freedBytes_append]
  show min u64Max ((planTieredEviction halfPow candidates targetBytes nowMs pressure).cloudOffload.totalBytes +
    (planTieredEviction halfPow candidates targetBytes nowMs pressure).fullEviction.totalBytes) = _
  omega

/-- **A tiered eviction plan is safe, sufficient and minimal.** -/
theorem planTieredEviction_sound (hids : (candidates.map EvictionCandidate.assetId).Nodup) :
    (planTieredEviction halfPow candidates targetBytes nowMs pressure).Sound candidates targetBytes pressure where
  safe c hc := by
    have hmem := (tiered_selected_subperm halfPow candidates targetBytes nowMs pressure).subset hc
    rw [List.mem_filter] at hmem
    obtain ⟨hin, heligible⟩ := hmem
    simp only [isEligible, Bool.and_eq_true, Bool.not_eq_true', decide_eq_true_eq] at heligible
    exact ⟨hin, heligible.1.1, heligible.1.2, heligible.2⟩
  once := by
    obtain ⟨l, hperm, hsub⟩ := (tiered_selected_subperm halfPow candidates targetBytes nowMs pressure).trans
      List.filter_sublist.subperm
    exact (hperm.map _).nodup_iff.mp (hids.sublist (hsub.map _))
  sufficient := tiered_sufficient halfPow candidates targetBytes nowMs pressure
  counted := tiered_total halfPow candidates targetBytes nowMs pressure
  cloudTier c hc := by
    rw [planTieredEviction_cloud] at hc
    exact ((mem_eligible candidates pressure).mp (selected_subperm.subset hc)).2.1
  fullTier c hc :=
    ((mem_eligible candidates pressure).mp
      ((full_selected_subperm halfPow candidates targetBytes nowMs pressure).subset hc)).2.1
  cloudFirst := by
    rintro ⟨c, hc, hfull⟩ c' hc' heligible hcloud
    -- a candidate of the second tier is chosen only where the first one did not do
    have hleft : remainingBytes halfPow candidates targetBytes nowMs pressure ≠ 0 := by
      intro hdone
      rcases List.mem_append.mp hc with hc | hc
      · rw [planTieredEviction_cloud] at hc
        have htier := ((mem_eligible candidates pressure).mp (selected_subperm.subset hc)).2.1
        rw [hfull] at htier
        cases htier
      · rw [planTieredEviction_full, if_pos hdone] at hc
        exact absurd hc List.not_mem_nil
    have hall := (remaining_pos halfPow candidates targetBytes nowMs pressure hleft).1
    exact List.mem_append_left _
      (hall.mem_iff.mpr ((mem_eligible candidates pressure).mpr ⟨hc', hcloud, heligible⟩))
  cloudTarget := by
    rw [planTieredEviction_cloud]
    rfl
  fullTarget := by
    rw [planTieredEviction_full]
    split_ifs with hdone
    · rw [planTieredEviction_cloud]
      unfold remainingBytes at hdone
      rw [totalBytes_eq] at hdone
      show 0 = _
      omega
    · exact (remaining_pos halfPow candidates targetBytes nowMs pressure hdone).2
  minimal tier htier init last hsplit := by
    have hcap : targetBytes.toNat ≤ u64Max := Nat.le_pred_of_lt targetBytes.toNat_lt
    simp only [List.mem_cons, List.not_mem_nil, or_false] at htier
    -- each tier is a pass of its own, with its own target
    rcases htier with rfl | rfl
    · rw [planTieredEviction_cloud] at hsplit ⊢
      exact pass_minimal hcap hsplit
    · rw [planTieredEviction_full] at hsplit ⊢
      split_ifs at hsplit ⊢ with hdone
      · exact absurd hsplit (by simp [EvictionPlan.selected])
      · have hremaining : remainingBytes halfPow candidates targetBytes nowMs pressure ≤ u64Max :=
          (Nat.sub_le _ _).trans hcap
        exact pass_minimal hremaining hsplit

end Tiers

/-- A picture on a cloud sink. -/
def cloudPicture : EvictionCandidate := ⟨⟨1⟩, ⟨2⟩, ⟨3⟩, .image, 8, 0, false, .archiveVerified, "icloud"⟩

theorem planTieredEviction_sound_cloudPicture :
    (planTieredEviction (fun _ => 1) [cloudPicture] 4 0 .warning).Sound [cloudPicture] 4 .warning :=
  planTieredEviction_sound (fun _ => 1) [cloudPicture] 4 0 .warning (by decide)

end KChatCore.Offload
