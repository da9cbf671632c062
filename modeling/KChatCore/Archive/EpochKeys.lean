import KChatCore.Primitives
import KChatCore.Lib.Run

/-!
# `Archive.EpochKeys` — the epoch key manager

One epoch key is current; every retired one is kept wrapped under the archive root. Rotation retires the current
key and derives the next, deletion forgets a retired key, and the retired keys travel in the archive manifest.

* `keysDerived_of_run` — under rotation and deletion the manager only ever holds derived keys.
* `ingestAll_export` — ingesting an export, in any order, rebuilds the retired keys.
* `epochKeys_correct` — the two together, over every run of rotations and deletions.
-/

namespace KChatCore.Archive

open Lib

/-- `WrappedEpochKeyRef`. -/
structure WrappedEpochKeyRef where
  epochId : String
  wrappedKey : Bytes
deriving DecidableEq, Repr

/-- `EpochKeyManager`. -/
structure EpochKeyManager where
  currentEpochId : String
  currentEpochKey : KeyMaterial
  priorEpochKeys : Std.ExtTreeMap String Bytes

namespace EpochKeyManager

/-- The derived key of an epoch: `derive_archive_epoch_key`. -/
def deriveArchiveEpochKey (P : Primitives) (kArchiveRoot : KeyMaterial) (epochId : String) : KeyMaterial :=
  P.deriveArchiveEpoch kArchiveRoot (utf8 epochId)

/-- `EpochKeyManager::new`. -/
def new (P : Primitives) (kArchiveRoot : KeyMaterial) (epochId : String) : EpochKeyManager where
  currentEpochId := epochId
  currentEpochKey := deriveArchiveEpochKey P kArchiveRoot epochId
  priorEpochKeys := ∅

/-- `rotate_epoch`: the outgoing key is wrapped and stashed, then the new one is derived. -/
def rotateEpoch (P : Primitives) (kArchiveRoot : KeyMaterial) (newEpochId : String) (m : EpochKeyManager) :
    Except Error Unit × EpochKeyManager :=
  if newEpochId = m.currentEpochId then
    (.error (.storageMsg ("rotate_epoch: new_epoch_id " ++ newEpochId.quote ++ " matches current epoch id")), m)
  else if m.priorEpochKeys.contains newEpochId then
    (.error (.storageMsg ("rotate_epoch: new_epoch_id " ++ newEpochId.quote ++ " already retired")), m)
  else
    (.ok (), {
      currentEpochId := newEpochId
      currentEpochKey := deriveArchiveEpochKey P kArchiveRoot newEpochId
      priorEpochKeys :=
        m.priorEpochKeys.insert m.currentEpochId (wrapKAsset P m.currentEpochKey kArchiveRoot) })

/-- `unwrap_prior_epoch_key`. -/
def unwrapPriorEpochKey (P : Primitives) (epochId : String) (kArchiveRoot : KeyMaterial) (m : EpochKeyManager) :
    Except Error KeyMaterial :=
  match m.priorEpochKeys[epochId]? with
  | none => .error (.storageMsg ("unwrap_prior_epoch_key: epoch " ++ epochId.quote ++
      " is not retired or has been deleted"))
  | some wrapped => (unwrapKAsset P wrapped kArchiveRoot).mapError Error.crypto

/-- `delete_epoch_key`: whether a key was removed. -/
def deleteEpochKey (epochId : String) (m : EpochKeyManager) : Bool × EpochKeyManager :=
  (m.priorEpochKeys.contains epochId, { m with priorEpochKeys := m.priorEpochKeys.erase epochId })

/-- `wrapped_prior_epoch_keys_for_manifest`, in epoch-id order. -/
def wrappedPriorEpochKeysForManifest (m : EpochKeyManager) : List WrappedEpochKeyRef :=
  m.priorEpochKeys.toList.map fun (id, wrapped) => ⟨id, wrapped⟩

/-- `ingest_wrapped_prior_epoch_key`. -/
def ingestWrappedPriorEpochKey (w : WrappedEpochKeyRef) (m : EpochKeyManager) :
    Except Error Unit × EpochKeyManager :=
  if w.epochId = m.currentEpochId then
    (.error (.storageMsg ("ingest_wrapped_prior_epoch_key: epoch_id " ++ w.epochId.quote ++
      " matches current epoch")), m)
  else if w.wrappedKey.length ≠ wrappedKeyLen then
    (.error (.storageMsg ("ingest_wrapped_prior_epoch_key: wrapped_key length " ++ toString w.wrappedKey.length ++
      " != expected " ++ toString wrappedKeyLen)), m)
  else if m.priorEpochKeys.contains w.epochId then
    (.error (.storageMsg ("ingest_wrapped_prior_epoch_key: epoch_id " ++ w.epochId.quote ++ " already known")), m)
  else
    (.ok (), { m with priorEpochKeys := m.priorEpochKeys.insert w.epochId w.wrappedKey })

/-- Ingest a manifest's entries one after the other, up to the first that is refused. -/
def ingestAll : List WrappedEpochKeyRef → EpochKeyManager → Except Error Unit × EpochKeyManager
  | [], m => (.ok (), m)
  | w :: ws, m =>
      match ingestWrappedPriorEpochKey w m with
      | (.ok _, m') => ingestAll ws m'
      | (.error e, m') => (.error e, m')

end EpochKeyManager

/-! ## Runs -/

/-- A call of the manager, under its one root. -/
inductive EpochCall
  | rotateEpoch (newEpochId : String)
  | ingestWrappedPriorEpochKey (w : WrappedEpochKeyRef)
  | unwrapPriorEpochKey (epochId : String)
  | deleteEpochKey (epochId : String)
deriving DecidableEq, Repr

/-- What a call leaves. -/
def EpochCall.run (P : Primitives) (kArchiveRoot : KeyMaterial) : EpochCall → EpochKeyManager → EpochKeyManager
  | .rotateEpoch newEpochId, m => (m.rotateEpoch P kArchiveRoot newEpochId).2
  | .ingestWrappedPriorEpochKey w, m => (m.ingestWrappedPriorEpochKey w).2
  | .unwrapPriorEpochKey _, m => m
  | .deleteEpochKey epochId, m => (m.deleteEpochKey epochId).2

/-- The rotations and the deletions. -/
def EpochCall.rotatesOrDeletes : EpochCall → Bool
  | .rotateEpoch _ => true
  | .deleteEpochKey _ => true
  | _ => false

/-- The step relation of the manager. -/
def EpochStep (P : Primitives) (kArchiveRoot : KeyMaterial) (m : EpochKeyManager) (call : EpochCall)
    (m' : EpochKeyManager) : Prop :=
  call.run P kArchiveRoot m = m'

section Calls

variable {P : Primitives} {kArchiveRoot : KeyMaterial} {m m' : EpochKeyManager} {epochId : String}

/-- **What a rotation does**: it refuses and changes nothing, or the outgoing key is retired and the id is new. -/
theorem rotateEpoch_cases (P : Primitives) (kArchiveRoot : KeyMaterial) (newEpochId : String) (m : EpochKeyManager) :
    ((newEpochId = m.currentEpochId ∨ newEpochId ∈ m.priorEpochKeys) ∧
        (m.rotateEpoch P kArchiveRoot newEpochId).2 = m) ∨
      (newEpochId ≠ m.currentEpochId ∧ newEpochId ∉ m.priorEpochKeys ∧
        m.rotateEpoch P kArchiveRoot newEpochId = (.ok (), {
          currentEpochId := newEpochId
          currentEpochKey := EpochKeyManager.deriveArchiveEpochKey P kArchiveRoot newEpochId
          priorEpochKeys :=
            m.priorEpochKeys.insert m.currentEpochId (wrapKAsset P m.currentEpochKey kArchiveRoot) })) := by
  unfold EpochKeyManager.rotateEpoch
  by_cases hcur : newEpochId = m.currentEpochId
  · rw [if_pos hcur]
    exact Or.inl ⟨Or.inl hcur, rfl⟩
  · rw [if_neg hcur]
    by_cases hprior : m.priorEpochKeys.contains newEpochId = true
    · rw [if_pos hprior]
      exact Or.inl ⟨Or.inr hprior, rfl⟩
    · rw [if_neg hprior]
      exact Or.inr ⟨hcur, hprior, rfl⟩

/-- **What an ingest does**: it refuses and changes nothing, or a new entry for another epoch is kept. -/
theorem ingestWrappedPriorEpochKey_cases (w : WrappedEpochKeyRef) (m : EpochKeyManager) :
    (m.ingestWrappedPriorEpochKey w).2 = m ∨
      (w.epochId ≠ m.currentEpochId ∧
        (m.ingestWrappedPriorEpochKey w).2 =
          { m with priorEpochKeys := m.priorEpochKeys.insert w.epochId w.wrappedKey }) := by
  unfold EpochKeyManager.ingestWrappedPriorEpochKey
  by_cases hcur : w.epochId = m.currentEpochId
  · rw [if_pos hcur]
    exact Or.inl rfl
  · rw [if_neg hcur]
    split
    · exact Or.inl rfl
    · split
      · exact Or.inl rfl
      · exact Or.inr ⟨hcur, rfl⟩

/-- **An acceptable entry is kept.** -/
theorem ingestWrappedPriorEpochKey_ok {w : WrappedEpochKeyRef} (hcur : w.epochId ≠ m.currentEpochId)
    (hlen : w.wrappedKey.length = wrappedKeyLen) (hnew : w.epochId ∉ m.priorEpochKeys) :
    m.ingestWrappedPriorEpochKey w =
      (.ok (), { m with priorEpochKeys := m.priorEpochKeys.insert w.epochId w.wrappedKey }) := by
  have hnew' : ¬ m.priorEpochKeys.contains w.epochId = true := hnew
  unfold EpochKeyManager.ingestWrappedPriorEpochKey
  rw [if_neg hcur, if_neg (not_not_intro hlen), if_neg hnew']

/-- Unwrapping succeeds on what was wrapped. -/
theorem unwrapPriorEpochKey_of_wrapped {k : KeyMaterial}
    (h : m.priorEpochKeys[epochId]? = some (wrapKAsset P k kArchiveRoot)) :
    m.unwrapPriorEpochKey P epochId kArchiveRoot = .ok k := by
  simp [EpochKeyManager.unwrapPriorEpochKey, h, Except.mapError]

/-- Nothing is unwrapped for an epoch that is not retained. -/
theorem unwrapPriorEpochKey_of_notMem (h : epochId ∉ m.priorEpochKeys) (k : KeyMaterial) :
    m.unwrapPriorEpochKey P epochId kArchiveRoot ≠ .ok k := by
  rw [Std.ExtTreeMap.mem_iff_isSome_getElem?, Bool.not_eq_true, Option.isSome_eq_false_iff,
    Option.isNone_iff_eq_none] at h
  simp [EpochKeyManager.unwrapPriorEpochKey, h]

/-- **The current epoch is never among the retired ones.** -/
theorem currentEpochId_notMem_of_run {start : String} {tr : List (EpochKeyManager × EpochCall)}
    (hrun : Run (EpochStep P kArchiveRoot) (EpochKeyManager.new P kArchiveRoot start) tr m) :
    m.currentEpochId ∉ m.priorEpochKeys := by
  refine hrun.invariant (I := fun m => m.currentEpochId ∉ m.priorEpochKeys) ?_ ?_
  · intro m call m' hinv hstep
    obtain rfl : call.run P kArchiveRoot m = m' := hstep
    cases call with
    | rotateEpoch newEpochId =>
        show ((m.rotateEpoch P kArchiveRoot newEpochId).2).currentEpochId ∉ _
        -- a rotation to the current epoch, or to one that is filed, is refused
        rcases rotateEpoch_cases P kArchiveRoot newEpochId m with ⟨-, hsame⟩ | ⟨hne, hnew, hok⟩
        · rw [EpochCall.run, hsame]
          exact hinv
        · rw [EpochCall.run, hok]
          show newEpochId ∉ m.priorEpochKeys.insert _ _
          rw [Std.ExtTreeMap.mem_insert, Std.LawfulEqCmp.compare_eq_iff_eq]
          rintro (heq | hmem)
          · exact hne heq.symm
          · exact hnew hmem
    | ingestWrappedPriorEpochKey w =>
        -- so is the current epoch as a prior one
        rcases ingestWrappedPriorEpochKey_cases w m with hsame | ⟨hne, hok⟩
        · rw [EpochCall.run, hsame]
          exact hinv
        · rw [EpochCall.run, hok]
          show m.currentEpochId ∉ m.priorEpochKeys.insert _ _
          rw [Std.ExtTreeMap.mem_insert, Std.LawfulEqCmp.compare_eq_iff_eq]
          rintro (heq | hmem)
          · exact hne heq
          · exact hinv hmem
    | unwrapPriorEpochKey epochId => exact hinv
    | deleteEpochKey epochId =>
        show m.currentEpochId ∉ m.priorEpochKeys.erase epochId
        rw [Std.ExtTreeMap.mem_erase]
        rintro ⟨-, hmem⟩
        exact hinv hmem
  · show start ∉ (∅ : Std.ExtTreeMap String Bytes)
    exact Std.ExtTreeMap.not_mem_empty

/-- **The current key is the derived one**, whatever was ingested. -/
theorem currentEpochKey_of_run {start : String} {tr : List (EpochKeyManager × EpochCall)}
    (hrun : Run (EpochStep P kArchiveRoot) (EpochKeyManager.new P kArchiveRoot start) tr m) :
    m.currentEpochKey = EpochKeyManager.deriveArchiveEpochKey P kArchiveRoot m.currentEpochId := by
  refine hrun.invariant (I := fun m => m.currentEpochKey =
    EpochKeyManager.deriveArchiveEpochKey P kArchiveRoot m.currentEpochId) ?_ rfl
  intro m call m' hinv hstep
  obtain rfl : call.run P kArchiveRoot m = m' := hstep
  cases call with
  | rotateEpoch newEpochId =>
      rcases rotateEpoch_cases P kArchiveRoot newEpochId m with ⟨-, hsame⟩ | ⟨-, -, hok⟩
      · rw [EpochCall.run, hsame]
        exact hinv
      · rw [EpochCall.run, hok]
  | ingestWrappedPriorEpochKey w =>
      rcases ingestWrappedPriorEpochKey_cases w m with hsame | ⟨-, hok⟩
      · rw [EpochCall.run, hsame]
        exact hinv
      · rw [EpochCall.run, hok]
        exact hinv
  | unwrapPriorEpochKey epochId => exact hinv
  | deleteEpochKey epochId => exact hinv

end Calls

/-! ## The retained keys -/

/-- **Only derived keys**: the current epoch is not retired, and every key is the one its id derives. -/
structure KeysDerived (P : Primitives) (kArchiveRoot : KeyMaterial) (m : EpochKeyManager) : Prop where
  currentNotPrior : m.currentEpochId ∉ m.priorEpochKeys
  currentKey : m.currentEpochKey = EpochKeyManager.deriveArchiveEpochKey P kArchiveRoot m.currentEpochId
  priorKeys : ∀ epochId ∈ m.priorEpochKeys, m.unwrapPriorEpochKey P epochId kArchiveRoot =
    .ok (EpochKeyManager.deriveArchiveEpochKey P kArchiveRoot epochId)

/-- What the manager stores for a retired epoch: its derived key, wrapped. -/
def WrapsDerived (P : Primitives) (kArchiveRoot : KeyMaterial) (m : EpochKeyManager) : Prop :=
  ∀ epochId wrapped, m.priorEpochKeys[epochId]? = some wrapped →
    wrapped = wrapKAsset P (EpochKeyManager.deriveArchiveEpochKey P kArchiveRoot epochId) kArchiveRoot

section Derived

variable {P : Primitives} {kArchiveRoot : KeyMaterial} {m : EpochKeyManager} {start : String}
  {tr : List (EpochKeyManager × EpochCall)}

/-- Rotations and deletions keep only wrapped derived keys. -/
theorem wrapsDerived_of_run
    (hrun : Run (EpochStep P kArchiveRoot) (EpochKeyManager.new P kArchiveRoot start) tr m)
    (hcalls : ∀ p ∈ tr, p.2.rotatesOrDeletes = true) : WrapsDerived P kArchiveRoot m := by
  induction hrun with
  | refl =>
      intro epochId wrapped h
      exact absurd h (by simp [EpochKeyManager.new])
  | @tail tr m m' call hfront hstep ih =>
      have hinv := ih fun p hp => hcalls p (by simp [hp])
      have hcall : call.rotatesOrDeletes = true := hcalls (m, call) (by simp)
      obtain rfl : call.run P kArchiveRoot m = m' := hstep
      cases call with
      | rotateEpoch newEpochId =>
          rcases rotateEpoch_cases P kArchiveRoot newEpochId m with ⟨-, hsame⟩ | ⟨-, -, hok⟩
          · rw [EpochCall.run, hsame]
            exact hinv
          · intro epochId wrapped h
            rw [EpochCall.run, hok] at h
            simp only [Std.ExtTreeMap.getElem?_insert, Std.LawfulEqCmp.compare_eq_iff_eq] at h
            by_cases heq : m.currentEpochId = epochId
            · -- the outgoing key is the current one, and that one is derived
              rw [if_pos heq, Option.some.injEq] at h
              rw [← h, currentEpochKey_of_run hfront, heq]
            · rw [if_neg heq] at h
              exact hinv epochId wrapped h
      | ingestWrappedPriorEpochKey w => exact absurd hcall (by simp [EpochCall.rotatesOrDeletes])
      | unwrapPriorEpochKey epochId => exact hinv
      | deleteEpochKey deleted =>
          intro epochId wrapped h
          have h' : (m.priorEpochKeys.erase deleted)[epochId]? = some wrapped := h
          rw [Std.ExtTreeMap.getElem?_erase] at h'
          split at h'
          · exact absurd h' (by simp)
          · exact hinv epochId wrapped h'

/-- **The run invariant**: rotations and deletions keep the manager on derived keys. -/
theorem keysDerived_of_run
    (hrun : Run (EpochStep P kArchiveRoot) (EpochKeyManager.new P kArchiveRoot start) tr m)
    (hcalls : ∀ p ∈ tr, p.2.rotatesOrDeletes = true) : KeysDerived P kArchiveRoot m := by
  constructor
  · exact currentEpochId_notMem_of_run hrun
  · exact currentEpochKey_of_run hrun
  · intro epochId hmem
    obtain ⟨wrapped, hwrapped⟩ := Option.isSome_iff_exists.mp (Std.ExtTreeMap.mem_iff_isSome_getElem?.mp hmem)
    refine unwrapPriorEpochKey_of_wrapped ?_
    rw [hwrapped, wrapsDerived_of_run hrun hcalls epochId wrapped hwrapped]

end Derived

/-! ## Export and ingest -/

section Export

variable {P : Primitives} {kArchiveRoot : KeyMaterial} {m : EpochKeyManager}

/-- The pair an entry stands for. -/
def WrappedEpochKeyRef.pair (w : WrappedEpochKeyRef) : String × Bytes := (w.epochId, w.wrappedKey)

/-- **Ingesting acceptable entries** inserts them all. -/
theorem ingestAll_ok {entries : List WrappedEpochKeyRef} (hcur : ∀ w ∈ entries, w.epochId ≠ m.currentEpochId)
    (hlen : ∀ w ∈ entries, w.wrappedKey.length = wrappedKeyLen)
    (hnodup : (entries.map WrappedEpochKeyRef.epochId).Nodup)
    (hnew : ∀ w ∈ entries, w.epochId ∉ m.priorEpochKeys) :
    m.ingestAll entries =
      (.ok (), { m with priorEpochKeys := m.priorEpochKeys.insertMany (entries.map WrappedEpochKeyRef.pair) }) := by
  induction entries generalizing m with
  | nil => simp [EpochKeyManager.ingestAll]
  | cons w ws ih =>
      rw [List.map_cons, List.nodup_cons] at hnodup
      have hw := ingestWrappedPriorEpochKey_ok (hcur w (by simp)) (hlen w (by simp)) (hnew w (by simp))
      rw [EpochKeyManager.ingestAll, hw]
      simp only
      rw [ih]
      · rw [List.map_cons, Std.ExtTreeMap.insertMany_cons]
        rfl
      · intro w' hw'
        exact hcur w' (by simp [hw'])
      · intro w' hw'
        exact hlen w' (by simp [hw'])
      · exact hnodup.2
      · -- the id just inserted does not come again
        intro w' hw' hmem
        rw [Std.ExtTreeMap.mem_insert, Std.LawfulEqCmp.compare_eq_iff_eq] at hmem
        rcases hmem with heq | hold
        · exact hnodup.1 (heq ▸ List.mem_map_of_mem hw')
        · exact hnew w' (by simp [hw']) hold

/-- The keys of a map's entries are distinct, in any order of the entries. -/
theorem nodup_keys_of_perm {prior : Std.ExtTreeMap String Bytes} {l : List (String × Bytes)}
    (hperm : l.Perm prior.toList) : (l.map Prod.fst).Nodup := by
  rw [(hperm.map Prod.fst).nodup_iff, List.Nodup, List.pairwise_map]
  refine Std.ExtTreeMap.distinct_keys_toList.imp ?_
  intro a b hne heq
  exact hne (Std.LawfulEqCmp.compare_eq_iff_eq.mpr heq)

/-- The entries of a map, in any order, make the map. -/
theorem insertMany_eq_of_perm {prior : Std.ExtTreeMap String Bytes} {l : List (String × Bytes)}
    (hperm : l.Perm prior.toList) : (∅ : Std.ExtTreeMap String Bytes).insertMany l = prior := by
  have hmem : ∀ k v, (k, v) ∈ l ↔ prior[k]? = some v := fun k v =>
    hperm.mem_iff.trans Std.ExtTreeMap.mem_toList_iff_getElem?_eq_some
  have hdistinct : l.Pairwise fun a b => ¬ compare a.1 b.1 = .eq := by
    have h := nodup_keys_of_perm hperm
    rw [List.Nodup, List.pairwise_map] at h
    refine h.imp ?_
    intro a b hne heq
    exact hne (Std.LawfulEqCmp.compare_eq_iff_eq.mp heq)
  apply Std.ExtTreeMap.ext_getElem?
  intro k
  rcases hk : prior[k]? with _ | v
  · rw [Std.ExtTreeMap.getElem?_insertMany_list_of_contains_eq_false]
    · exact Std.ExtTreeMap.getElem?_empty
    · rw [Bool.eq_false_iff, Ne, List.contains_iff_mem]
      intro hin
      obtain ⟨⟨k', v⟩, hl, rfl⟩ := List.mem_map.mp hin
      rw [(hmem k' v).mp hl] at hk
      exact absurd hk (by simp)
  · exact Std.ExtTreeMap.getElem?_insertMany_list_of_mem (Std.LawfulEqCmp.compare_eq_iff_eq.mpr rfl) hdistinct
      ((hmem k v).mpr hk)

/-- **The round trip**: a fresh manager at the same epoch that ingests an export, in any order, is the manager
that was exported. -/
theorem ingestAll_export (h : KeysDerived P kArchiveRoot m) (hwraps : WrapsDerived P kArchiveRoot m)
    {entries : List WrappedEpochKeyRef} (hperm : entries.Perm m.wrappedPriorEpochKeysForManifest) :
    (EpochKeyManager.new P kArchiveRoot m.currentEpochId).ingestAll entries = (.ok (), m) := by
  have hmem : ∀ w ∈ entries, m.priorEpochKeys[w.epochId]? = some w.wrappedKey := by
    intro w hw
    obtain ⟨⟨id, wrapped⟩, hpair, rfl⟩ := List.mem_map.mp (hperm.mem_iff.mp hw)
    exact Std.ExtTreeMap.mem_toList_iff_getElem?_eq_some.mp hpair
  have hpairs : (entries.map WrappedEpochKeyRef.pair).Perm m.priorEpochKeys.toList := by
    have h := hperm.map WrappedEpochKeyRef.pair
    rw [EpochKeyManager.wrappedPriorEpochKeysForManifest, List.map_map] at h
    have hid : (WrappedEpochKeyRef.pair ∘ fun p : String × Bytes => (⟨p.1, p.2⟩ : WrappedEpochKeyRef)) = id := rfl
    simpa [hid] using h
  rw [ingestAll_ok]
  · rw [show (EpochKeyManager.new P kArchiveRoot m.currentEpochId).priorEpochKeys = ∅ from rfl,
      insertMany_eq_of_perm hpairs, EpochKeyManager.new, ← h.currentKey]
  · intro w hw heq
    have heq' : w.epochId = m.currentEpochId := heq
    have hin : w.epochId ∈ m.priorEpochKeys := by
      rw [Std.ExtTreeMap.mem_iff_isSome_getElem?, hmem w hw]
      rfl
    exact h.currentNotPrior (heq' ▸ hin)
  · intro w hw
    rw [hwraps w.epochId w.wrappedKey (hmem w hw)]
    simp [wrapKAsset]
  · have hkeys := nodup_keys_of_perm hpairs
    rw [List.map_map] at hkeys
    exact hkeys
  · intro w hw
    exact Std.ExtTreeMap.not_mem_empty

/-- **Epoch key chain correctness.** After any rotations and deletions the manager holds only derived keys, and a
fresh manager at the same epoch that ingests its export, in any order, is the same manager. -/
theorem epochKeys_correct {start : String} {tr : List (EpochKeyManager × EpochCall)}
    (hrun : Run (EpochStep P kArchiveRoot) (EpochKeyManager.new P kArchiveRoot start) tr m)
    (hcalls : ∀ p ∈ tr, p.2.rotatesOrDeletes = true) :
    KeysDerived P kArchiveRoot m ∧ ∀ entries : List WrappedEpochKeyRef,
      entries.Perm m.wrappedPriorEpochKeysForManifest →
        (EpochKeyManager.new P kArchiveRoot m.currentEpochId).ingestAll entries = (.ok (), m) := by
  have hkeys := keysDerived_of_run hrun hcalls
  constructor
  · exact hkeys
  · intro entries hperm
    exact ingestAll_export hkeys (wrapsDerived_of_run hrun hcalls) hperm

end Export

/-! ## Three epochs, the first one deleted -/

/-- An archive root. -/
def exampleRoot : KeyMaterial := leBytes 32 7

/-- Two rotations and a deletion. -/
def exampleCalls : List EpochCall :=
  [.rotateEpoch "2026-02", .rotateEpoch "2026-03", .deleteEpochKey "2026-01"]

/-- The manager they lead to. -/
def exampleManager : EpochKeyManager :=
  exampleCalls.foldl (fun m call => call.run Primitives.reference exampleRoot m)
    (EpochKeyManager.new Primitives.reference exampleRoot "2026-01")

theorem example_epoch_run : ∃ tr, (∀ p ∈ tr, p.2.rotatesOrDeletes = true) ∧
    Run (EpochStep Primitives.reference exampleRoot)
      (EpochKeyManager.new Primitives.reference exampleRoot "2026-01") tr exampleManager := by
  obtain ⟨tr, hcalls, hrun⟩ := Run.exists_of_foldl (EpochCall.run Primitives.reference exampleRoot)
    (EpochKeyManager.new Primitives.reference exampleRoot "2026-01") exampleCalls
  refine ⟨tr, ?_, hrun⟩
  intro p hp
  have hmem : p.2 ∈ exampleCalls := hcalls ▸ List.mem_map_of_mem hp
  have hall : ∀ call ∈ exampleCalls, call.rotatesOrDeletes = true := by decide
  exact hall p.2 hmem

/-- The export of the example, ingested backwards, rebuilds it. -/
theorem example_epoch_round_trip :
    KeysDerived Primitives.reference exampleRoot exampleManager ∧
      (EpochKeyManager.new Primitives.reference exampleRoot exampleManager.currentEpochId).ingestAll
        exampleManager.wrappedPriorEpochKeysForManifest.reverse = (.ok (), exampleManager) := by
  obtain ⟨tr, hcalls, hrun⟩ := example_epoch_run
  obtain ⟨hkeys, hround⟩ := epochKeys_correct hrun hcalls
  exact ⟨hkeys, hround _ (List.reverse_perm _)⟩

end KChatCore.Archive
