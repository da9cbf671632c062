import KChatCore.Offload.Eviction

/-!
# `Offload.Budget` — the storage budget and its pressure levels

A budget has a ceiling and two thresholds, as percentages of it. `pressureLevel` says in which of the four regions the
usage is, and `evictionTargetBytes` how much has to go to leave the region.

The thresholds are products of `u64`, divided. A product that overflows panics in a build that checks, and wraps in one
that does not (`mulU64`).

* `relievesPressure_iff` — freeing the target leaves the region, and nothing overflows, exactly where the product for the
  upper threshold does not.
-/

namespace KChatCore.Offload

/-- How a build treats an overflow. -/
inductive OverflowChecks
  | on
  | off
deriving DecidableEq, Repr

/-- A product of `u64` overflows. -/
def MulOverflows (a b : UInt64) : Prop := 2 ^ 64 ≤ a.toNat * b.toNat

instance (a b : UInt64) : Decidable (MulOverflows a b) := inferInstanceAs (Decidable (2 ^ 64 ≤ a.toNat * b.toNat))

/-- `a * b`; nothing where it panics. -/
def mulU64 (checks : OverflowChecks) (a b : UInt64) : Option UInt64 :=
  if checks = .on ∧ MulOverflows a b then none else some (a * b)

/-- `StorageBudget`. -/
structure StorageBudget where
  maxBytes : UInt64
  warningThresholdPct : UInt8
  criticalThresholdPct : UInt8
deriving DecidableEq

/-- `StorageBudget::default_recommended`. -/
def StorageBudget.defaultRecommended : StorageBudget := ⟨8 * 1024 * 1024 * 1024, 75, 90⟩

/-- `max_bytes * pct / 100`. -/
def StorageBudget.percentBytes (checks : OverflowChecks) (budget : StorageBudget) (pct : UInt8) : Option UInt64 :=
  (mulU64 checks budget.maxBytes pct.toUInt64).map fun product => product / 100

/-- `StorageBudget::warning_bytes`. -/
def StorageBudget.warningBytes (checks : OverflowChecks) (budget : StorageBudget) : Option UInt64 :=
  budget.percentBytes checks budget.warningThresholdPct

/-- `StorageBudget::critical_bytes`. -/
def StorageBudget.criticalBytes (checks : OverflowChecks) (budget : StorageBudget) : Option UInt64 :=
  budget.percentBytes checks budget.criticalThresholdPct

/-- `StorageUsage`. -/
structure StorageUsage where
  totalBytes : UInt64
  messageBytes : UInt64
  mediaBytes : UInt64
  indexBytes : UInt64
  cacheBytes : UInt64
deriving DecidableEq

/-- `BudgetAssessment`. -/
structure BudgetAssessment where
  usage : StorageUsage
  budget : StorageBudget
  headroomBytes : Int
  pressureLevel : PressureLevel
deriving DecidableEq

/-- `BudgetAssessment::eviction_target_bytes`. -/
def BudgetAssessment.evictionTargetBytes (checks : OverflowChecks) (a : BudgetAssessment) : Option UInt64 :=
  let above (threshold : UInt64) : UInt64 :=
    if threshold ≤ a.usage.totalBytes then a.usage.totalBytes - threshold else 0
  match a.pressureLevel with
  | .none => some 0
  | .warning => (a.budget.warningBytes checks).map above
  | .critical => (a.budget.criticalBytes checks).map above
  | .extreme => some (above a.budget.maxBytes)

/-- `compute_headroom`. -/
def computeHeadroom (usage : StorageUsage) (budget : StorageBudget) : Int :=
  max (-(2 ^ 63)) (min (2 ^ 63 - 1) (budget.maxBytes.toNat - usage.totalBytes.toNat))

/-- `pressure_level`: a threshold is computed only where the comparison before it has failed. -/
def pressureLevel (checks : OverflowChecks) (usage : StorageUsage) (budget : StorageBudget) : Option PressureLevel :=
  if budget.maxBytes < usage.totalBytes then some .extreme
  else do
    let critical ← budget.criticalBytes checks
    if critical < usage.totalBytes then return .critical
    let warning ← budget.warningBytes checks
    return if warning < usage.totalBytes then .warning else .none

/-- `StorageBudgetEnforcer::assess_with_usage`. -/
def assessWithUsage (checks : OverflowChecks) (usage : StorageUsage) (budget : StorageBudget) : Option BudgetAssessment :=
  (pressureLevel checks usage budget).map fun level => ⟨usage, budget, computeHeadroom usage budget, level⟩

example : (assessWithUsage .on ⟨900, 900, 0, 0, 0⟩ ⟨1024, 50, 80⟩).bind (BudgetAssessment.evictionTargetBytes .on) =
    some 81 := by decide

/-- The severity of a level. -/
def PressureLevel.severity : PressureLevel → Nat
  | none => 0
  | warning => 1
  | critical => 2
  | extreme => 3

/-! ## Relief -/

/-- The usage, once some bytes are freed. -/
def StorageUsage.freed (usage : StorageUsage) (bytes : UInt64) : StorageUsage :=
  { usage with totalBytes := usage.totalBytes - bytes }

/-- **The thresholds stand in their order, and freeing the target leaves the region**, without an overflow. -/
structure RelievesPressure (checks : OverflowChecks) (usage : StorageUsage) (budget : StorageBudget) : Prop where
  noOverflow : ¬ MulOverflows budget.maxBytes budget.warningThresholdPct.toUInt64 ∧
    ¬ MulOverflows budget.maxBytes budget.criticalThresholdPct.toUInt64
  thresholds : ∃ warning critical, budget.warningBytes checks = some warning ∧ budget.criticalBytes checks = some critical ∧
    warning ≤ critical ∧ critical ≤ budget.maxBytes
  relief : ∃ assessment target level, assessWithUsage checks usage budget = some assessment ∧
    assessment.evictionTargetBytes checks = some target ∧ target ≤ usage.totalBytes ∧
    pressureLevel checks (usage.freed target) budget = some level ∧
    (level.severity < assessment.pressureLevel.severity ∨
      (assessment.pressureLevel = .none ∧ target = 0 ∧ level = .none))

section Thresholds

variable {checks : OverflowChecks} {budget : StorageBudget} {usage : StorageUsage} {a b max critical warning total : UInt64}

theorem mulU64_eq_some (h : ¬ MulOverflows a b) : mulU64 checks a b = some (a * b) := by
  unfold mulU64
  exact if_neg fun hoverflows => h hoverflows.2

theorem toNat_mul_of_not_overflows (h : ¬ MulOverflows a b) : (a * b).toNat = a.toNat * b.toNat := by
  rw [UInt64.toNat_mul]
  exact Nat.mod_eq_of_lt (not_le.mp h)

/-- A threshold whose product does not overflow. -/
theorem percentBytes_eq_some {pct : UInt8} (h : ¬ MulOverflows budget.maxBytes pct.toUInt64) :
    ∃ bytes, budget.percentBytes checks pct = some bytes ∧ bytes.toNat = budget.maxBytes.toNat * pct.toNat / 100 := by
  refine ⟨budget.maxBytes * pct.toUInt64 / 100, ?_, ?_⟩
  · unfold StorageBudget.percentBytes
    rw [mulU64_eq_some h]
    rfl
  · rw [UInt64.toNat_div, toNat_mul_of_not_overflows h, UInt8.toNat_toUInt64]
    rfl

/-- The level, by the thresholds. -/
def levelOf (max critical warning total : UInt64) : PressureLevel :=
  if max < total then .extreme else if critical < total then .critical else if warning < total then .warning else .none

/-- What has to go to leave a level. -/
def targetOf (max critical warning total : UInt64) : UInt64 :=
  match levelOf max critical warning total with
  | .none => 0
  | .warning => total - warning
  | .critical => total - critical
  | .extreme => total - max

theorem pressureLevel_eq (hwarning : budget.warningBytes checks = some warning)
    (hcritical : budget.criticalBytes checks = some critical) :
    pressureLevel checks usage budget = some (levelOf budget.maxBytes critical warning usage.totalBytes) := by
  unfold pressureLevel levelOf
  rw [hwarning, hcritical]
  simp only [Option.bind_eq_bind, Option.bind_some]
  split_ifs <;> rfl

theorem evictionTargetBytes_eq (hwarning : budget.warningBytes checks = some warning)
    (hcritical : budget.criticalBytes checks = some critical) (headroom : Int) :
    BudgetAssessment.evictionTargetBytes checks
        ⟨usage, budget, headroom, levelOf budget.maxBytes critical warning usage.totalBytes⟩ =
      some (targetOf budget.maxBytes critical warning usage.totalBytes) := by
  unfold BudgetAssessment.evictionTargetBytes targetOf
  dsimp only
  rw [hwarning, hcritical]
  unfold levelOf
  split_ifs with hextreme hcrit hwarn
  · exact congrArg some (if_pos (UInt64.le_of_lt hextreme))
  · exact congrArg some (if_pos (UInt64.le_of_lt hcrit))
  · exact congrArg some (if_pos (UInt64.le_of_lt hwarn))
  · rfl

theorem levelOf_le_critical (h : ¬ max < total) : (levelOf max critical warning total).severity ≤ 2 := by
  unfold levelOf
  rw [if_neg h]
  split_ifs <;> decide

theorem levelOf_le_warning (h : ¬ max < total) (h' : ¬ critical < total) :
    (levelOf max critical warning total).severity ≤ 1 := by
  unfold levelOf
  rw [if_neg h, if_neg h']
  split_ifs <;> decide

/-- **Thresholds in their order**: what is freed leads to a lower level. -/
theorem relieved (hwarning : warning ≤ critical) (hcritical : critical ≤ max) :
    targetOf max critical warning total ≤ total ∧
      ((levelOf max critical warning (total - targetOf max critical warning total)).severity <
          (levelOf max critical warning total).severity ∨
        (levelOf max critical warning total = .none ∧ targetOf max critical warning total = 0 ∧
          levelOf max critical warning (total - targetOf max critical warning total) = .none)) := by
  -- what is left is the threshold that was crossed
  have hleft : ∀ threshold : UInt64, threshold < total → total - threshold ≤ total ∧ total - (total - threshold) = threshold := by
    intro threshold h
    have hlt := UInt64.lt_iff_toNat_lt.mp h
    have hsub : (total - threshold).toNat = total.toNat - threshold.toNat := UInt64.toNat_sub_of_le _ _ (UInt64.le_of_lt h)
    have hle : total - threshold ≤ total := UInt64.le_iff_toNat_le.mpr (by omega)
    refine ⟨hle, UInt64.toNat.inj ?_⟩
    rw [UInt64.toNat_sub_of_le _ _ hle, hsub]
    omega
  have hnot : ∀ {x y : UInt64}, x ≤ y → ¬ y < x := fun h hlt => absurd h (UInt64.not_le.mpr hlt)
  by_cases hextreme : max < total
  · have hlevel : levelOf max critical warning total = .extreme := if_pos hextreme
    have htarget : targetOf max critical warning total = total - max := by simp only [targetOf, hlevel]
    rw [htarget, hlevel, (hleft max hextreme).2]
    refine ⟨(hleft max hextreme).1, .inl (Nat.lt_of_le_of_lt (levelOf_le_critical (hnot (UInt64.le_refl max))) ?_)⟩
    decide
  by_cases hcrit : critical < total
  · have hlevel : levelOf max critical warning total = .critical := (if_neg hextreme).trans (if_pos hcrit)
    have htarget : targetOf max critical warning total = total - critical := by simp only [targetOf, hlevel]
    rw [htarget, hlevel, (hleft critical hcrit).2]
    refine ⟨(hleft critical hcrit).1, .inl (Nat.lt_of_le_of_lt (levelOf_le_warning (hnot hcritical)
      (hnot (UInt64.le_refl critical))) ?_)⟩
    decide
  by_cases hwarn : warning < total
  · have hlevel : levelOf max critical warning total = .warning :=
      (if_neg hextreme).trans ((if_neg hcrit).trans (if_pos hwarn))
    have htarget : targetOf max critical warning total = total - warning := by simp only [targetOf, hlevel]
    rw [htarget, hlevel, (hleft warning hwarn).2]
    have hnone : levelOf max critical warning warning = .none :=
      (if_neg (hnot (UInt64.le_trans hwarning hcritical))).trans
        ((if_neg (hnot hwarning)).trans (if_neg (hnot (UInt64.le_refl warning))))
    rw [hnone]
    exact ⟨(hleft warning hwarn).1, .inl (by decide)⟩
  · have hlevel : levelOf max critical warning total = .none :=
      (if_neg hextreme).trans ((if_neg hcrit).trans (if_neg hwarn))
    have htarget : targetOf max critical warning total = 0 := by simp only [targetOf, hlevel]
    rw [htarget, UInt64.sub_zero, hlevel]
    exact ⟨UInt64.zero_le, .inr ⟨rfl, rfl, rfl⟩⟩

end Thresholds

/-- **Freeing the target relieves pressure, and nothing overflows, exactly up to a ceiling of `u64::MAX / critical`.** -/
theorem relievesPressure_iff (checks : OverflowChecks) (usage : StorageUsage) {budget : StorageBudget}
    (horder : budget.warningThresholdPct < budget.criticalThresholdPct) (hpct : budget.criticalThresholdPct ≤ 100) :
    RelievesPressure checks usage budget ↔
      budget.maxBytes.toNat ≤ u64Max / budget.criticalThresholdPct.toNat := by
  have hlt := UInt8.lt_iff_toNat_lt.mp horder
  have hle : budget.criticalThresholdPct.toNat ≤ 100 := UInt8.le_iff_toNat_le.mp hpct
  have hfits : ¬ MulOverflows budget.maxBytes budget.criticalThresholdPct.toUInt64 ↔
      budget.maxBytes.toNat ≤ u64Max / budget.criticalThresholdPct.toNat := by
    unfold MulOverflows u64Max
    rw [UInt8.toNat_toUInt64, Nat.le_div_iff_mul_le (by omega)]
    omega
  rw [← hfits]
  constructor
  · intro h
    exact h.noOverflow.2
  · intro hcritical
    -- the lower threshold does not overflow where the higher one does not
    have hwarning : ¬ MulOverflows budget.maxBytes budget.warningThresholdPct.toUInt64 := by
      unfold MulOverflows at hcritical ⊢
      rw [UInt8.toNat_toUInt64] at hcritical ⊢
      have hmul := Nat.mul_le_mul_left budget.maxBytes.toNat hlt.le
      omega
    obtain ⟨warning, hw, hwNat⟩ := @percentBytes_eq_some checks _ _ hwarning
    obtain ⟨critical, hc, hcNat⟩ := @percentBytes_eq_some checks _ _ hcritical
    have hwc : warning ≤ critical := by
      rw [UInt64.le_iff_toNat_le, hwNat, hcNat]
      exact Nat.div_le_div_right (Nat.mul_le_mul_left _ hlt.le)
    have hcm : critical ≤ budget.maxBytes := by
      rw [UInt64.le_iff_toNat_le, hcNat]
      have hmul := Nat.mul_le_mul_left budget.maxBytes.toNat hle
      omega
    obtain ⟨htarget, hrelief⟩ := @relieved _ _ _ usage.totalBytes hwc hcm
    refine ⟨⟨hwarning, hcritical⟩, ⟨warning, critical, hw, hc, hwc, hcm⟩, ?_⟩
    refine ⟨_, _, _, congrArg _ (pressureLevel_eq hw hc), evictionTargetBytes_eq hw hc _, htarget, pressureLevel_eq hw hc,
      hrelief⟩

/-- Nine gigabytes are too many for eight. -/
theorem relievesPressure_default : RelievesPressure .on ⟨9663676416, 0, 9663676416, 0, 0⟩ .defaultRecommended :=
  (relievesPressure_iff .on _ (by decide) (by decide)).mpr (by decide)

/-- **No limit**: the level cannot be computed where overflows are checked, and is wrong where they are not. -/
theorem unlimited_budget_overflows :
    ¬ (∀ checks usage budget, budget.warningThresholdPct < budget.criticalThresholdPct → budget.criticalThresholdPct ≤ 100 →
        RelievesPressure checks usage budget) ∧
      pressureLevel .on ⟨1, 1, 0, 0, 0⟩ ⟨18446744073709551615, 75, 90⟩ = none ∧
      pressureLevel .off ⟨1000000000000000000, 0, 1000000000000000000, 0, 0⟩ ⟨18446744073709551615, 75, 90⟩ =
        some .critical := by
  refine ⟨?_, by decide, by decide⟩
  intro h
  exact (h .on ⟨1, 1, 0, 0, 0⟩ ⟨18446744073709551615, 75, 90⟩ (by decide) (by decide)).noOverflow.2 (by decide)

end KChatCore.Offload
