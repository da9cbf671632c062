import KChatCore.Backup.ChainLinearity
import KChatCore.Lib.HashChain

/-!
# `Restore.ManifestVerifier` — walking the manifest chain

`verifyManifestChain` checks the genesis manifest, and then, one manifest at a time, both signature legs, the
generation and the link to the manifest before. It looks at no magic and no version.

* `verifyManifestChain_eq_ok` — it accepts exactly the non-empty, linear, signed chains.
* `verifyManifestChain_of_built` — it accepts whatever the builder chains together.
* `verifyManifestChain_sound_iff` — what it accepts has valid headers only if the signer put them there.
-/

namespace KChatCore.Restore

open Backup Lib

/-- `VerificationError`. -/
inductive VerificationError
  | emptyChain
  | signatureInvalid (generation : Nat)
  | chainBreak (generation : Nat) (expected actual : ByteArr 32)
  | gapDetected (missingGeneration : Nat)
  | genesisHashNotZero (actual : ByteArr 32)
deriving DecidableEq

/-- The walk: `prev` is the manifest before, if there was one. -/
def walkChain (P : Primitives) (verifyingKey : Bytes) :
    Option BackupManifest → List BackupManifest → Except VerificationError Unit
  | _, [] => .ok ()
  | prev, m :: ms =>
      match verifyBackupManifest P m verifyingKey with
      | .error _ => .error (.signatureInvalid m.generation)
      | .ok () =>
          match prev with
          | none => walkChain P verifyingKey (some m) ms
          | some p =>
              if m.generation ≠ p.generation + 1 then .error (.gapDetected (p.generation + 1))
              else if m.previousManifestHash ≠ computeManifestHash P p then
                .error (.chainBreak m.generation (computeManifestHash P p) m.previousManifestHash)
              else walkChain P verifyingKey (some m) ms

/-- `verify_manifest_chain`. -/
def verifyManifestChain (P : Primitives) (verifyingKey : Bytes) (manifests : List BackupManifest) :
    Except VerificationError Unit :=
  match manifests with
  | [] => .error .emptyChain
  | genesis :: _ =>
      if genesis.generation ≠ 0 then .error (.gapDetected 0)
      else if genesis.previousManifestHash ≠ genesisPreviousHash then
        .error (.genesisHashNotZero genesis.previousManifestHash)
      else walkChain P verifyingKey none manifests

/-! ## What is accepted -/

/-- Manifests as blocks. -/
def manifestBlock (P : Primitives) : Block BackupManifest (ByteArr 32) where
  number := BackupManifest.generation
  hash := computeManifestHash P
  prev := BackupManifest.previousManifestHash

/-- Every manifest verifies under the key. -/
def AllVerify (P : Primitives) (verifyingKey : Bytes) (ms : List BackupManifest) : Prop :=
  ∀ m ∈ ms, verifyBackupManifest P m verifyingKey = .ok ()

section Walk

variable {P : Primitives} {verifyingKey : Bytes} {ms ms' : List BackupManifest} {m : BackupManifest}

/-- A linear chain is a hash chain from zero, started by the zero hash. -/
theorem linearChain_cons_iff :
    LinearChain P (m :: ms) ↔
      m.previousManifestHash = genesisPreviousHash ∧ HashChain (manifestBlock P) 0 (m :: ms) := by
  constructor
  · intro h
    refine ⟨h.genesis m rfl, ?_, ?_⟩
    · rw [List.isChain_iff_getElem]
      intro k hk
      have hprev : (m :: ms)[k]? = some (m :: ms)[k] := List.getElem?_eq_getElem (by omega)
      have hnext : (m :: ms)[k + 1]? = some (m :: ms)[k + 1] := List.getElem?_eq_getElem hk
      constructor
      · show (m :: ms)[k + 1].generation = (m :: ms)[k].generation + 1
        rw [h.generation _ _ hnext, h.generation _ _ hprev]
      · exact h.link k _ _ hprev hnext
    · intro b hb
      obtain rfl : m = b := by simpa using hb
      exact h.generation 0 m rfl
  · rintro ⟨hgenesis, hlinked, hstart⟩
    have hgen0 : m.generation = 0 := hstart m rfl
    rw [List.isChain_iff_getElem] at hlinked
    constructor
    · intro k
      -- the generation counts the links before it
      induction k with
      | zero =>
          intro m' hm'
          obtain rfl : m = m' := by simpa using hm'
          exact hgen0
      | succ k ih =>
          intro m' hm'
          obtain ⟨hlt, rfl⟩ := List.getElem?_eq_some_iff.mp hm'
          have hprev := ih _ (List.getElem?_eq_getElem (Nat.lt_of_succ_lt hlt))
          have hlink := (hlinked k hlt).1
          exact hlink.trans (congrArg (· + 1) hprev)
    · intro m' hm'
      obtain rfl : m = m' := by simpa using hm'
      exact hgenesis
    · intro k prev next hprev hnext
      obtain ⟨hlt, rfl⟩ := List.getElem?_eq_some_iff.mp hnext
      obtain ⟨_, rfl⟩ := List.getElem?_eq_some_iff.mp hprev
      exact (hlinked k hlt).2

/-- **One manifest of the walk after another.** -/
theorem walkChain_some_eq_ok {p : BackupManifest} :
    walkChain P verifyingKey (some p) ms = .ok () ↔
      AllVerify P verifyingKey ms ∧ (p :: ms).IsChain (manifestBlock P).Links := by
  induction ms generalizing p with
  | nil => simp [walkChain, AllVerify]
  | cons m ms ih =>
      unfold walkChain
      rcases hv : verifyBackupManifest P m verifyingKey with e | u
      · simp only [AllVerify, List.mem_cons, forall_eq_or_imp, hv]
        simp
      · have hall : AllVerify P verifyingKey (m :: ms) ↔ AllVerify P verifyingKey ms := by
          simp [AllVerify, hv]
        rw [hall, List.isChain_cons_cons]
        by_cases hgen : m.generation = p.generation + 1
        · by_cases hhash : m.previousManifestHash = computeManifestHash P p
          · have hlinks : (manifestBlock P).Links p m := ⟨hgen, hhash⟩
            simp [hgen, hhash, hlinks, ih]
          · have hlinks : ¬ (manifestBlock P).Links p m := fun h => hhash h.2
            simp [hgen, hhash, hlinks]
        · have hlinks : ¬ (manifestBlock P).Links p m := fun h => hgen h.1
          simp [hgen, hlinks]

/-- **What is accepted**: the non-empty, linear chains whose manifests all verify. -/
theorem verifyManifestChain_eq_ok :
    verifyManifestChain P verifyingKey ms = .ok () ↔
      ms ≠ [] ∧ LinearChain P ms ∧ AllVerify P verifyingKey ms := by
  rcases ms with _ | ⟨m, ms⟩
  · simp [verifyManifestChain]
  · simp only [verifyManifestChain]
    rw [linearChain_cons_iff]
    by_cases hgen : m.generation = 0
    · by_cases hhash : m.previousManifestHash = genesisPreviousHash
      · have hstart : ∀ b ∈ (m :: ms).head?, (manifestBlock P).number b = 0 := by
          intro b hb
          obtain rfl : m = b := by simpa using hb
          exact hgen
        rw [if_neg (not_not.mpr hgen), if_neg (not_not.mpr hhash)]
        unfold walkChain
        rcases hv : verifyBackupManifest P m verifyingKey with e | u
        · simp only [AllVerify, List.mem_cons, forall_eq_or_imp, hv]
          simp
        · have hall : AllVerify P verifyingKey (m :: ms) ↔ AllVerify P verifyingKey ms := by
            simp [AllVerify, hv]
          rw [hall]
          show walkChain P verifyingKey (some m) ms = .ok () ↔ _
          rw [walkChain_some_eq_ok]
          constructor
          · rintro ⟨hverify, hlinked⟩
            exact ⟨by simp, ⟨hhash, hlinked, hstart⟩, hverify⟩
          · rintro ⟨-, ⟨-, hchain⟩, hverify⟩
            exact ⟨hverify, hchain.linked⟩
      · simp [hgen, hhash]
    · have hnot : ¬ HashChain (manifestBlock P) 0 (m :: ms) := fun h => hgen (h.start m rfl)
      simp [hgen, hnot]

/-- **An accepted chain commits to its whole history.** -/
theorem eq_of_accepted (h : verifyManifestChain P verifyingKey ms = .ok ())
    (h' : verifyManifestChain P verifyingKey ms' = .ok ()) (hlast : ms.getLast? = ms'.getLast?)
    (hinj : ∀ m ∈ ms, ∀ m' ∈ ms', computeManifestHash P m = computeManifestHash P m' → m = m') : ms = ms' := by
  obtain ⟨hne, hlinear, -⟩ := verifyManifestChain_eq_ok.mp h
  obtain ⟨hne', hlinear', -⟩ := verifyManifestChain_eq_ok.mp h'
  obtain ⟨m, rest, rfl⟩ := List.exists_cons_of_ne_nil hne
  obtain ⟨m', rest', rfl⟩ := List.exists_cons_of_ne_nil hne'
  exact HashChain.eq_of_getLast?_eq (linearChain_cons_iff.mp hlinear).2 (linearChain_cons_iff.mp hlinear').2 hne
    hlast hinj

end Walk

/-! ## What the builder chains -/

/-- **A chain the builder made** with one signing key, each manifest on top of the one before. -/
inductive BuiltChain (P : Primitives) (signingKey : Bytes) : List BackupManifest → Prop
  | genesis {request : BackupManifestBuildRequest} {k : KeyMaterial} {drawn : Nat} {sealed : SealedBackupManifest} :
      request.previous = none → buildBackupManifest P request signingKey k drawn = .ok sealed →
      BuiltChain P signingKey [sealed.manifest]
  | next {ms : List BackupManifest} {prev : BackupManifest} {request : BackupManifestBuildRequest}
      {k : KeyMaterial} {drawn : Nat} {sealed : SealedBackupManifest} :
      BuiltChain P signingKey ms → ms.getLast? = some prev → request.previous = some prev →
      buildBackupManifest P request signingKey k drawn = .ok sealed →
      BuiltChain P signingKey (ms ++ [sealed.manifest])

section Built

variable {P : Primitives} {signingKey : Bytes} {ms : List BackupManifest}

/-- A manifest built on the last one of a signed linear chain extends it. -/
theorem verifyManifestChain_push {verifyingKey : Bytes} {m : BackupManifest}
    (hlinear : LinearChain P ms) (hverify : AllVerify P verifyingKey ms)
    (hlink : chainLink P ms.getLast? = .ok (m.generation, m.previousManifestHash))
    (hm : verifyBackupManifest P m verifyingKey = .ok ()) :
    verifyManifestChain P verifyingKey (ms ++ [m]) = .ok () := by
  refine verifyManifestChain_eq_ok.mpr ⟨by simp, hlinear.push hlink, ?_⟩
  intro m' hm'
  rcases List.mem_append.mp hm' with hold | hnew
  · exact hverify m' hold
  · rw [List.mem_singleton.mp hnew]
    exact hm

/-- **What the builder chains is accepted.** -/
theorem verifyManifestChain_of_built (h : BuiltChain P signingKey ms) :
    verifyManifestChain P (P.verifyingKey signingKey) ms = .ok () := by
  induction h with
  | genesis hprev hbuild =>
      have hlink := (buildBackupManifest_fields hbuild).1
      rw [hprev] at hlink
      exact verifyManifestChain_push (linearChain_nil P) (by simp [AllVerify]) hlink
        (verifyBackupManifest_of_build hbuild)
  | next _ hlast hprev hbuild ih =>
      have hlink := (buildBackupManifest_fields hbuild).1
      rw [hprev, ← hlast] at hlink
      obtain ⟨-, hlinear, hverify⟩ := verifyManifestChain_eq_ok.mp ih
      exact verifyManifestChain_push hlinear hverify hlink (verifyBackupManifest_of_build hbuild)

end Built

/-! ## Soundness -/

/-- The magic and the version this build writes. -/
def KnownHeader (m : BackupManifest) : Prop := m.magic = backupManifestMagic ∧ m.version = manifestVersion

instance (m : BackupManifest) : Decidable (KnownHeader m) := by
  unfold KnownHeader
  infer_instance

/-- Both signature legs verify. -/
def BothLegsVerify (P : Primitives) (verifyingKey : Bytes) (m : BackupManifest) : Prop :=
  m.manifestSignature.length = signatureLength ∧ m.pqcSignature.length = mlDsa65SignatureLen ∧
    P.verifyPayload verifyingKey (canonicalSigningPayload P m) m.manifestSignature m.pqcSignature = .ok ()

/-- **A sound chain**: what an accepted chain is supposed to be. -/
structure SoundChain (P : Primitives) (verifyingKey : Bytes) (ms : List BackupManifest) : Prop where
  nonempty : ms ≠ []
  headers : ∀ m ∈ ms, m.hasValidHeader = true
  signatures : ∀ m ∈ ms, BothLegsVerify P verifyingKey m
  linear : LinearChain P ms

/-- The checks the verifier does make. -/
structure SignedChain (P : Primitives) (verifyingKey : Bytes) (ms : List BackupManifest) : Prop where
  nonempty : ms ≠ []
  signatures : ∀ m ∈ ms, BothLegsVerify P verifyingKey m
  linear : LinearChain P ms

section Sound

variable {P : Primitives} {verifyingKey : Bytes} {ms : List BackupManifest} {m : BackupManifest}

theorem verifyBackupManifest_eq_ok :
    verifyBackupManifest P m verifyingKey = .ok () ↔ BothLegsVerify P verifyingKey m := by
  unfold verifyBackupManifest BothLegsVerify
  by_cases hed : m.manifestSignature.length = signatureLength
  · by_cases hml : m.pqcSignature.length = mlDsa65SignatureLen
    · rw [if_neg (not_not.mpr hed), if_neg (not_not.mpr hml)]
      rcases P.verifyPayload verifyingKey (canonicalSigningPayload P m) m.manifestSignature m.pqcSignature
        with (_ | _) | _ <;> simp [hed, hml]
    · simp [hed, hml]
  · simp [hed]

theorem signedChain_iff : SignedChain P verifyingKey ms ↔ verifyManifestChain P verifyingKey ms = .ok () := by
  rw [verifyManifestChain_eq_ok]
  have hall : AllVerify P verifyingKey ms ↔ ∀ m ∈ ms, BothLegsVerify P verifyingKey m :=
    forall₂_congr fun m _ => verifyBackupManifest_eq_ok
  rw [hall]
  constructor
  · rintro ⟨hne, hsig, hlinear⟩
    exact ⟨hne, hlinear, hsig⟩
  · rintro ⟨hne, hlinear, hsig⟩
    exact ⟨hne, hsig, hlinear⟩

/-- The header of a manifest of a linear chain is valid when its magic and version are known. -/
theorem hasValidHeader_iff (h : LinearChain P ms) (hm : m ∈ ms) : m.hasValidHeader = true ↔ KnownHeader m := by
  obtain ⟨k, hk⟩ := List.mem_iff_getElem?.mp hm
  have hgenesis : m.generation = 0 → m.previousManifestHash = genesisPreviousHash := by
    intro hgen
    obtain rfl : 0 = k := hgen.symm.trans (h.generation k m hk)
    exact h.genesis m hk
  unfold BackupManifest.hasValidHeader KnownHeader
  by_cases hmagic : m.magic = backupManifestMagic <;> by_cases hversion : m.version = manifestVersion <;>
    by_cases hgen : m.generation = 0 <;> simp [hmagic, hversion, hgen, hgenesis]

end Sound

/-- **Chain verification.** Whether an accepted list is a sound chain depends on its magics and versions alone,
which no check looks at; what the builder chains is accepted; and accepted chains that end alike are equal,
unless two of their manifests collide. -/
theorem verifyManifestChain_sound_iff (P : Primitives) :
    (∀ (verifyingKey : Bytes) (ms : List BackupManifest),
      (verifyManifestChain P verifyingKey ms = .ok () → SoundChain P verifyingKey ms) ↔
        (∀ m ∈ ms, KnownHeader m) ∨ ¬ SignedChain P verifyingKey ms) ∧
    (∀ (signingKey : Bytes) (ms : List BackupManifest), BuiltChain P signingKey ms →
      verifyManifestChain P (P.verifyingKey signingKey) ms = .ok ()) ∧
    ∀ (verifyingKey : Bytes) (ms ms' : List BackupManifest),
      (∀ m ∈ ms, ∀ m' ∈ ms', computeManifestHash P m = computeManifestHash P m' → m = m') →
      verifyManifestChain P verifyingKey ms = .ok () → verifyManifestChain P verifyingKey ms' = .ok () →
      ms.getLast? = ms'.getLast? → ms = ms' := by
  refine ⟨fun verifyingKey ms => ?_, fun signingKey ms h => verifyManifestChain_of_built h,
    fun verifyingKey ms ms' hinj h h' hlast => eq_of_accepted h h' hlast hinj⟩
  -- the verifier checks signatures and links, and no header
  rw [← signedChain_iff]
  constructor
  · intro hsound
    by_cases hsigned : SignedChain P verifyingKey ms
    · left
      intro m hm
      exact (hasValidHeader_iff hsigned.linear hm).mp ((hsound hsigned).headers m hm)
    · exact Or.inr hsigned
  · rintro (hknown | hnot) hsigned
    · exact ⟨hsigned.nonempty, fun m hm => (hasValidHeader_iff hsigned.linear hm).mpr (hknown m hm),
        hsigned.signatures, hsigned.linear⟩
    · exact absurd hsigned hnot

/-! ## A foreign magic -/

/-- A genesis manifest over nothing. -/
def emptyRequest : BackupManifestBuildRequest := ⟨[], [], [], [], none, "device-A", some ⟨7⟩⟩

/-- The genesis manifest a version-1 producer signs. -/
def staleManifest (P : Primitives) (signingKey : Bytes) : BackupManifest :=
  (signBackupManifest P { unsignedManifest P emptyRequest (0, genesisPreviousHash) ⟨7⟩ with
    magic := "KCHAT_BAK_MANIFEST_V1", version := 1 } signingKey).1

/-- **A version-1 manifest is accepted**, magic and all. -/
theorem stale_manifest_accepted :
    verifyManifestChain Primitives.reference (Primitives.reference.verifyingKey [1])
        [staleManifest Primitives.reference [1]] = .ok () ∧
      (staleManifest Primitives.reference [1]).hasValidHeader = false ∧
      ¬ SoundChain Primitives.reference (Primitives.reference.verifyingKey [1])
        [staleManifest Primitives.reference [1]] := by
  have hheader : (staleManifest Primitives.reference [1]).hasValidHeader = false := rfl
  have hverify : verifyBackupManifest Primitives.reference (staleManifest Primitives.reference [1])
      (Primitives.reference.verifyingKey [1]) = .ok () :=
    verifyBackupManifest_signBackupManifest Primitives.reference _ [1]
  have hlink : chainLink Primitives.reference ([] : List BackupManifest).getLast? =
      .ok ((staleManifest Primitives.reference [1]).generation,
        (staleManifest Primitives.reference [1]).previousManifestHash) := rfl
  refine ⟨?_, hheader, fun h => ?_⟩
  · rw [← List.nil_append [staleManifest Primitives.reference [1]]]
    exact verifyManifestChain_push (linearChain_nil _) (by simp [AllVerify]) hlink hverify
  · rw [h.headers _ (by simp)] at hheader
    exact absurd hheader (by simp)

/-- A built genesis manifest is accepted, and is a sound chain. -/
theorem built_genesis_accepted :
    ∃ m, BuiltChain Primitives.reference [1] [m] ∧
      verifyManifestChain Primitives.reference (Primitives.reference.verifyingKey [1]) [m] = .ok () ∧
      SoundChain Primitives.reference (Primitives.reference.verifyingKey [1]) [m] := by
  obtain ⟨sealed, hbuild⟩ : ∃ sealed, buildBackupManifest Primitives.reference emptyRequest [1]
      (ByteArr.zeros 32) 0 = .ok sealed := buildBackupManifest_isOk rfl
  obtain ⟨hsound, hcomplete, -⟩ := verifyManifestChain_sound_iff Primitives.reference
  have hchain : BuiltChain Primitives.reference [1] [sealed.manifest] := .genesis rfl hbuild
  have hok := hcomplete [1] _ hchain
  have hknown : KnownHeader sealed.manifest := by
    have hlinear := (verifyManifestChain_eq_ok.mp hok).2.1
    exact (hasValidHeader_iff hlinear (by simp)).mp (hasValidHeader_of_build hbuild)
  exact ⟨sealed.manifest, hchain, hok, (hsound _ _).mpr (Or.inl (by simpa using hknown)) hok⟩

end KChatCore.Restore
