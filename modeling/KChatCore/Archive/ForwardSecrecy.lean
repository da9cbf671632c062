import KChatCore.Archive.EpochKeys

/-!
# `Archive.ForwardSecrecy` — what a deleted epoch key is worth

Deletion drops the wrapped key and nothing else. The manager does not remember which epochs it deleted, so a
rotation back to one derives its key from the root again.

* `forwardSecrecy_iff` — the key stays out of reach exactly while no rotation names the deleted epoch and no
  ingested entry carries a copy of it.
* `forwardSecrecy_without_ingest` — where nothing is ingested there is no such copy.
-/

namespace KChatCore.Archive

open Lib

/-- A sequence of rotations; a refused one changes nothing. -/
def rotateAll (P : Primitives) (kArchiveRoot : KeyMaterial) (ids : List String) (m : EpochKeyManager) :
    EpochKeyManager :=
  ids.foldl (fun m newEpochId => (m.rotateEpoch P kArchiveRoot newEpochId).2) m

/-- **The key of an epoch is obtainable**: it is the current key, or some retained entry unwraps to it. -/
def Obtainable (P : Primitives) (kArchiveRoot : KeyMaterial) (epochId : String) (m : EpochKeyManager) : Prop :=
  m.currentEpochKey = EpochKeyManager.deriveArchiveEpochKey P kArchiveRoot epochId ∨
    ∃ id, m.unwrapPriorEpochKey P id kArchiveRoot =
      .ok (EpochKeyManager.deriveArchiveEpochKey P kArchiveRoot epochId)

section Rotations

variable {P : Primitives} {kArchiveRoot : KeyMaterial} {m m₀ : EpochKeyManager} {epochId : String}
  {ids : List String}

/-- The epoch is neither current nor retired. -/
def Absent (epochId : String) (m : EpochKeyManager) : Prop :=
  epochId ≠ m.currentEpochId ∧ epochId ∉ m.priorEpochKeys

/-- A rotation to another epoch does not bring the epoch in. -/
theorem Absent.rotateEpoch {newEpochId : String} (h : Absent epochId m) (hne : newEpochId ≠ epochId) :
    Absent epochId (m.rotateEpoch P kArchiveRoot newEpochId).2 := by
  rcases rotateEpoch_cases P kArchiveRoot newEpochId m with ⟨-, hsame⟩ | ⟨-, -, hok⟩
  · rw [hsame]
    exact h
  · rw [hok]
    constructor
    · exact fun heq => hne heq.symm
    · show epochId ∉ m.priorEpochKeys.insert _ _
      rw [Std.ExtTreeMap.mem_insert, Std.LawfulEqCmp.compare_eq_iff_eq]
      rintro (heq | hmem)
      · exact h.1 heq.symm
      · exact h.2 hmem

theorem Absent.rotateAll (h : Absent epochId m) (hids : epochId ∉ ids) :
    Absent epochId (rotateAll P kArchiveRoot ids m) := by
  induction ids generalizing m with
  | nil => exact h
  | cons newEpochId ids ih =>
      rw [List.mem_cons, not_or] at hids
      exact ih (h.rotateEpoch fun heq => hids.1 heq.symm) hids.2

/-- **A rotation to an absent epoch derives its key.** -/
theorem Absent.obtainable (h : Absent epochId m) :
    Obtainable P kArchiveRoot epochId (m.rotateEpoch P kArchiveRoot epochId).2 := by
  rcases rotateEpoch_cases P kArchiveRoot epochId m with ⟨hor, -⟩ | ⟨-, -, hok⟩
  · exact absurd hor (not_or.mpr h)
  · rw [hok]
    exact Or.inl rfl

/-- **The key is forgotten**: the current key is that of another epoch, and no entry unwraps to it. -/
structure Forgotten (P : Primitives) (kArchiveRoot : KeyMaterial) (epochId : String) (m : EpochKeyManager) :
    Prop where
  currentKey : m.currentEpochKey ≠ EpochKeyManager.deriveArchiveEpochKey P kArchiveRoot epochId
  priorKeys : ∀ id, m.unwrapPriorEpochKey P id kArchiveRoot ≠
    .ok (EpochKeyManager.deriveArchiveEpochKey P kArchiveRoot epochId)

theorem Forgotten.not_obtainable (h : Forgotten P kArchiveRoot epochId m) :
    ¬ Obtainable P kArchiveRoot epochId m := by
  rintro (hcur | ⟨id, hid⟩)
  · exact h.currentKey hcur
  · exact h.priorKeys id hid

/-- A rotation to an epoch with another key keeps the key forgotten. -/
theorem Forgotten.rotateEpoch {newEpochId : String} (h : Forgotten P kArchiveRoot epochId m)
    (hne : EpochKeyManager.deriveArchiveEpochKey P kArchiveRoot newEpochId ≠
      EpochKeyManager.deriveArchiveEpochKey P kArchiveRoot epochId) :
    Forgotten P kArchiveRoot epochId (m.rotateEpoch P kArchiveRoot newEpochId).2 := by
  rcases rotateEpoch_cases P kArchiveRoot newEpochId m with ⟨-, hsame⟩ | ⟨-, -, hok⟩
  · rw [hsame]
    exact h
  · rw [hok]
    constructor
    · exact hne
    · intro id hid
      by_cases heq : m.currentEpochId = id
      · -- the entry of the outgoing epoch unwraps to the outgoing key
        have hwrapped : (m.priorEpochKeys.insert m.currentEpochId
            (wrapKAsset P m.currentEpochKey kArchiveRoot))[id]? =
              some (wrapKAsset P m.currentEpochKey kArchiveRoot) := by
          rw [Std.ExtTreeMap.getElem?_insert, if_pos (Std.LawfulEqCmp.compare_eq_iff_eq.mpr heq)]
        have hout := (unwrapPriorEpochKey_of_wrapped hwrapped).symm.trans hid
        exact h.currentKey (Except.ok.inj hout)
      · refine h.priorKeys id ?_
        unfold EpochKeyManager.unwrapPriorEpochKey at hid ⊢
        rw [Std.ExtTreeMap.getElem?_insert, if_neg (fun hc => heq (Std.LawfulEqCmp.compare_eq_iff_eq.mp hc))] at hid
        exact hid

theorem Forgotten.rotateAll (h : Forgotten P kArchiveRoot epochId m)
    (hids : ∀ id ∈ ids, EpochKeyManager.deriveArchiveEpochKey P kArchiveRoot id ≠
      EpochKeyManager.deriveArchiveEpochKey P kArchiveRoot epochId) :
    Forgotten P kArchiveRoot epochId (rotateAll P kArchiveRoot ids m) := by
  induction ids generalizing m with
  | nil => exact h
  | cons newEpochId ids ih =>
      refine ih (h.rotateEpoch (hids newEpochId (by simp))) ?_
      intro id hid
      exact hids id (by simp [hid])

/-- **A manager that only ever rotated and deleted keeps no copy** of a key under another id. -/
theorem no_copy_of_wrapsDerived (hwraps : WrapsDerived P kArchiveRoot m) (habsent : epochId ∉ m.priorEpochKeys)
    (hcollision : ∀ id ∈ m.priorEpochKeys, EpochKeyManager.deriveArchiveEpochKey P kArchiveRoot id =
      EpochKeyManager.deriveArchiveEpochKey P kArchiveRoot epochId → id = epochId) (id : String) :
    m.unwrapPriorEpochKey P id kArchiveRoot ≠
      .ok (EpochKeyManager.deriveArchiveEpochKey P kArchiveRoot epochId) := by
  intro hid
  by_cases hmem : id ∈ m.priorEpochKeys
  · obtain ⟨wrapped, hwrapped⟩ := Option.isSome_iff_exists.mp (Std.ExtTreeMap.mem_iff_isSome_getElem?.mp hmem)
    rw [hwraps id wrapped hwrapped] at hwrapped
    have hkey := Except.ok.inj ((unwrapPriorEpochKey_of_wrapped hwrapped).symm.trans hid)
    exact habsent (hcollision id hmem hkey ▸ hmem)
  · exact unwrapPriorEpochKey_of_notMem hmem _ hid

end Rotations

section Secrecy

variable {P : Primitives} {kArchiveRoot : KeyMaterial} {m m₀ : EpochKeyManager} {epochId start : String}
  {tr : List (EpochKeyManager × EpochCall)}

/-- A deletion that removed a key leaves the epoch absent. -/
theorem absent_of_deleteEpochKey
    (hrun : Run (EpochStep P kArchiveRoot) (EpochKeyManager.new P kArchiveRoot start) tr m)
    (hdelete : m.deleteEpochKey epochId = (true, m₀)) : Absent epochId m₀ := by
  obtain ⟨hcontains, rfl⟩ := Prod.mk.inj hdelete
  have hmem : epochId ∈ m.priorEpochKeys := hcontains
  constructor
  · intro heq
    have heq' : epochId = m.currentEpochId := heq
    exact currentEpochId_notMem_of_run hrun (heq' ▸ hmem)
  · show epochId ∉ m.priorEpochKeys.erase epochId
    rw [Std.ExtTreeMap.mem_erase]
    rintro ⟨hne, -⟩
    exact hne (Std.LawfulEqCmp.compare_eq_iff_eq.mpr rfl)

/-- **Epoch forward secrecy.** After any run and a deletion that removed the key of an epoch, a sequence of
rotations never makes it obtainable again exactly when no rotation names the epoch and the deletion left no copy
under another id. The hypothesis says that no other epoch of the sequence derives the same key. -/
theorem forwardSecrecy_iff (ids : List String)
    (hrun : Run (EpochStep P kArchiveRoot) (EpochKeyManager.new P kArchiveRoot start) tr m)
    (hdelete : m.deleteEpochKey epochId = (true, m₀))
    (hcollision : ∀ id ∈ m.currentEpochId :: ids, EpochKeyManager.deriveArchiveEpochKey P kArchiveRoot id =
      EpochKeyManager.deriveArchiveEpochKey P kArchiveRoot epochId → id = epochId) :
    (∀ rotated, rotated <+: ids → ¬ Obtainable P kArchiveRoot epochId (rotateAll P kArchiveRoot rotated m₀)) ↔
      epochId ∉ ids ∧ ∀ id, m₀.unwrapPriorEpochKey P id kArchiveRoot ≠
        .ok (EpochKeyManager.deriveArchiveEpochKey P kArchiveRoot epochId) := by
  have habsent := absent_of_deleteEpochKey hrun hdelete
  constructor
  · intro hsecret
    constructor
    · intro hmem
      -- at its first occurrence the epoch is still absent, so the rotation derives its key
      obtain ⟨before, after, rfl, hbefore⟩ := List.eq_append_cons_of_mem hmem
      refine hsecret (before ++ [epochId]) ⟨after, by simp⟩ ?_
      rw [rotateAll, List.foldl_append]
      exact (habsent.rotateAll hbefore).obtainable
    · intro id hid
      exact hsecret [] (List.nil_prefix) (Or.inr ⟨id, hid⟩)
  · rintro ⟨hids, hcopy⟩ rotated hfront
    have hkey : m₀.currentEpochKey =
        EpochKeyManager.deriveArchiveEpochKey P kArchiveRoot m₀.currentEpochId := by
      have hderived := currentEpochKey_of_run hrun
      obtain ⟨-, rfl⟩ := Prod.mk.inj hdelete
      exact hderived
    have hcurrent : m₀.currentEpochId = m.currentEpochId := by
      obtain ⟨-, rfl⟩ := Prod.mk.inj hdelete
      rfl
    have hforgotten : Forgotten P kArchiveRoot epochId m₀ := by
      constructor
      · rw [hkey]
        intro heq
        exact habsent.1 (hcollision m₀.currentEpochId (by simp [hcurrent]) heq).symm
      · exact hcopy
    refine (hforgotten.rotateAll ?_).not_obtainable
    intro id hid heq
    have hmem : id ∈ ids := hfront.subset hid
    exact hids (hcollision id (by simp [hmem]) heq ▸ hmem)

/-- **Without ingested entries** nothing but a rotation to the epoch brings its key back. -/
theorem forwardSecrecy_without_ingest (ids : List String)
    (hrun : Run (EpochStep P kArchiveRoot) (EpochKeyManager.new P kArchiveRoot start) tr m)
    (hcalls : ∀ p ∈ tr, p.2.rotatesOrDeletes = true) (hdelete : m.deleteEpochKey epochId = (true, m₀))
    (hcollision : ∀ id, id ∈ m.currentEpochId :: ids ∨ id ∈ m₀.priorEpochKeys →
      EpochKeyManager.deriveArchiveEpochKey P kArchiveRoot id =
        EpochKeyManager.deriveArchiveEpochKey P kArchiveRoot epochId → id = epochId) :
    (∀ rotated, rotated <+: ids → ¬ Obtainable P kArchiveRoot epochId (rotateAll P kArchiveRoot rotated m₀)) ↔
      epochId ∉ ids := by
  have hwraps : WrapsDerived P kArchiveRoot m₀ := by
    have hlast : EpochStep P kArchiveRoot m (.deleteEpochKey epochId) m₀ := (Prod.mk.inj hdelete).2
    refine wrapsDerived_of_run (hrun.tail hlast) ?_
    intro p hp
    rcases List.mem_append.mp hp with hold | hnew
    · exact hcalls p hold
    · rw [List.mem_singleton.mp hnew]
      rfl
  rw [forwardSecrecy_iff ids hrun hdelete fun id hid => hcollision id (Or.inl hid)]
  apply and_iff_left
  intro id
  refine no_copy_of_wrapsDerived hwraps (absent_of_deleteEpochKey hrun hdelete).2 ?_ id
  intro id hid
  exact hcollision id (Or.inr hid)

end Secrecy

/-! ## A retired epoch, deleted -/

/-- The manager that retired January. -/
def februaryManager : EpochKeyManager :=
  [EpochCall.rotateEpoch "2026-02"].foldl (fun m call => call.run Primitives.reference exampleRoot m)
    (EpochKeyManager.new Primitives.reference exampleRoot "2026-01")

/-- January's key deleted. -/
def forgetfulManager : EpochKeyManager := (februaryManager.deleteEpochKey "2026-01").2

theorem february_run : ∃ tr, (∀ p ∈ tr, p.2.rotatesOrDeletes = true) ∧
    Run (EpochStep Primitives.reference exampleRoot)
      (EpochKeyManager.new Primitives.reference exampleRoot "2026-01") tr februaryManager := by
  obtain ⟨tr, hcalls, hrun⟩ := Run.exists_of_foldl (EpochCall.run Primitives.reference exampleRoot)
    (EpochKeyManager.new Primitives.reference exampleRoot "2026-01") [.rotateEpoch "2026-02"]
  refine ⟨tr, ?_, hrun⟩
  intro p hp
  have hmem : p.2 ∈ [EpochCall.rotateEpoch "2026-02"] := hcalls ▸ List.mem_map_of_mem hp
  rw [List.mem_singleton.mp hmem]
  rfl

theorem january_deleted : februaryManager.deleteEpochKey "2026-01" = (true, forgetfulManager) := by
  have hcontains : februaryManager.priorEpochKeys.contains "2026-01" = true := by
    show (Std.ExtTreeMap.insert ∅ "2026-01" _).contains "2026-01" = true
    exact Std.ExtTreeMap.contains_insert_self
  exact Prod.ext hcontains rfl

/-- **Rotating back to January brings its key back.** -/
theorem deleted_epoch_returns :
    ∃ tr, Run (EpochStep Primitives.reference exampleRoot)
        (EpochKeyManager.new Primitives.reference exampleRoot "2026-01") tr februaryManager ∧
      februaryManager.deleteEpochKey "2026-01" = (true, forgetfulManager) ∧
      Obtainable Primitives.reference exampleRoot "2026-01"
        (rotateAll Primitives.reference exampleRoot ["2026-01"] forgetfulManager) := by
  obtain ⟨tr, -, hrun⟩ := february_run
  exact ⟨tr, hrun, january_deleted, (absent_of_deleteEpochKey hrun january_deleted).obtainable⟩

/-- Rotating on to March does not. -/
theorem deleted_epoch_stays_deleted :
    ¬ Obtainable Primitives.reference exampleRoot "2026-01" forgetfulManager ∧
    ¬ Obtainable Primitives.reference exampleRoot "2026-01"
      (rotateAll Primitives.reference exampleRoot ["2026-03"] forgetfulManager) := by
  obtain ⟨tr, hcalls, hrun⟩ := february_run
  have hcollision : ∀ id ∈ februaryManager.currentEpochId :: ["2026-03"],
      EpochKeyManager.deriveArchiveEpochKey Primitives.reference exampleRoot id =
        EpochKeyManager.deriveArchiveEpochKey Primitives.reference exampleRoot "2026-01" → id = "2026-01" := by
    decide +kernel
  have hempty : ∀ id, id ∉ forgetfulManager.priorEpochKeys := by
    intro id hid
    have hid' : id ∈ (Std.ExtTreeMap.insert (∅ : Std.ExtTreeMap String Bytes) "2026-01" _).erase "2026-01" := hid
    rw [Std.ExtTreeMap.mem_erase, Std.ExtTreeMap.mem_insert, Std.LawfulEqCmp.compare_eq_iff_eq] at hid'
    rcases hid' with ⟨hne, heq | hmem⟩
    · exact hne (Std.LawfulEqCmp.compare_eq_iff_eq.mpr heq)
    · exact Std.ExtTreeMap.not_mem_empty hmem
  have hgone := (forwardSecrecy_iff ["2026-03"] hrun january_deleted hcollision).mpr
    ⟨by decide, fun id => unwrapPriorEpochKey_of_notMem (hempty id) _⟩
  exact ⟨hgone [] List.nil_prefix, hgone ["2026-03"] List.prefix_rfl⟩

end KChatCore.Archive
