import KChatCore.Lib.Hex
import KChatCore.Message.Platform

/-!
# `Restore.KeyRecovery` — how the master key comes to a new device

Three ways: a recovery key the user types in, a passphrase, and a transfer from the old device under a code. Each of them
turns a typed text into a key, and opens a box with it. A typed text is trimmed; a recovery key may be typed in either
case, a passphrase and a code may not.

HKDF, Argon2id and the CBOR of a transfer come from other crates, as `RecoveryPrimitives`.

* `fromDisplay_eq_ok_iff` — which texts are a recovery key.
* `recovery_is_exact` — which texts open a box, and to what.
-/

namespace KChatCore.Restore

open Lib

/-! ## What is derived, sealed and sent -/

/-- `Argon2Params`. -/
structure Argon2Params where
  mCost : UInt32
  tCost : UInt32
  pCost : UInt32
  deriving DecidableEq, Repr

/-- `Argon2Params::owasp_mobile`. -/
def Argon2Params.owaspMobile : Argon2Params := ⟨65536, 3, 1⟩

/-- `RecoveredKeys`. -/
structure RecoveredKeys where
  kUserMaster : KeyMaterial
  kArchiveRoot : KeyMaterial
  kBackupRoot : KeyMaterial
  kSearchRoot : KeyMaterial
  deriving DecidableEq

/-- `DeviceTransferEnvelope`: what a transfer seals. -/
structure DeviceTransferEnvelope where
  kUserMaster : Bytes
  kArchiveRoot : Bytes
  kBackupRoot : Bytes
  kSearchRoot : Bytes
  deriving DecidableEq, Repr

/-- `DeviceTransferPayload`. -/
structure DeviceTransferPayload where
  nonce : Bytes
  ciphertext : Bytes
  deriving DecidableEq, Repr

/-- `PassphraseRecoveryEnvelope`. -/
structure PassphraseRecoveryEnvelope where
  salt : Bytes
  wrappedKey : Bytes
  argon2Params : Argon2Params
  deriving DecidableEq, Repr

/-- **What other crates do for a recovery.** -/
structure RecoveryPrimitives extends Primitives where
  /-- HKDF-SHA-256, 32 bytes of it (salt, input key, info). -/
  hkdfExpand : Bytes → Bytes → Bytes → Option KeyMaterial
  /-- `argon2::Params::new` with an output of 32 bytes. -/
  argon2ParamsNew : Argon2Params → Bool
  /-- `hash_password_into` (parameters, password, salt). -/
  argon2id : Argon2Params → Bytes → Bytes → Option KeyMaterial
  /-- CBOR of what a transfer seals. -/
  cborTransferEnvelope : Codec DeviceTransferEnvelope

/-! ## The recovery key -/

/-- `RecoveryKey`. -/
structure RecoveryKey where
  bytes : KeyMaterial
  deriving DecidableEq

/-- `to_display`. -/
def RecoveryKey.toDisplay (key : RecoveryKey) : String := String.ofList (key.bytes.toList.flatMap Uuid.hexByte)

/-- `decode_hex_nibble`. -/
def decodeHexNibble (b : UInt8) : Except CryptoError UInt8 :=
  if 0x30 ≤ b ∧ b ≤ 0x39 then .ok (b - 0x30)
  else if 0x61 ≤ b ∧ b ≤ 0x66 then .ok (10 + (b - 0x61))
  else if 0x41 ≤ b ∧ b ≤ 0x46 then .ok (10 + (b - 0x41))
  else .error (.invalidInput "recovery key: invalid hex digit")

/-- The array the loop of `from_display` fills. -/
def filled (bytes : Bytes) : KeyMaterial := if h : bytes.length = 32 then ⟨bytes, h⟩ else ByteArr.zeros 32

/-- `from_display`; `readPairs` is its loop. -/
def RecoveryKey.fromDisplay (s : String) : Except CryptoError RecoveryKey :=
  let trimmed := utf8 (trim s)
  if trimmed.length ≠ 2 * 32 then .error (.invalidInput "recovery key: must be 64 hex chars")
  else (readPairs decodeHexNibble trimmed).map fun bytes => ⟨filled bytes⟩

section Flows

variable (R : RecoveryPrimitives)

/-- `generate_recovery_key`; `drawn` is what the entropy is. -/
def generateRecoveryKey (kUserMaster : KeyMaterial) (drawn : Nat) : RecoveryKey × Bytes :=
  let key := leBytes 32 drawn
  (⟨key⟩, wrapKAsset R.toPrimitives kUserMaster key)

/-- `recover_from_key`. -/
def recoverFromKey (recoveryKey : RecoveryKey) (wrappedMaster : Bytes) : Except CryptoError KeyMaterial :=
  if wrappedMaster.length ≠ wrappedKeyLen then .error (.invalidInput "wrapped master: must be 40 bytes")
  else unwrapKAsset R.toPrimitives wrappedMaster recoveryKey.bytes

/-! ## The transfer -/

/-- `DEVICE_TRANSFER_DOMAIN`. -/
def deviceTransferDomain : Bytes := utf8 "kchat-device-transfer-v1"

/-- `derive_transfer_key`. -/
def deriveTransferKey (transferCode : String) : Except CryptoError KeyMaterial :=
  let trimmed := trim transferCode
  if trimmed.isEmpty then .error (.invalidInput "transfer code must be non-empty")
  else
    match R.hkdfExpand (utf8 "kchat-device-transfer-salt-v1") (utf8 trimmed) deviceTransferDomain with
    | some okm => .ok okm
    | none => .error (.kdf "device-transfer hkdf expand failed")

/-- `prepare_device_transfer`. -/
def prepareDeviceTransfer (keys : RecoveredKeys) (transferCode : String) (drawn : Nat) :
    Except CryptoError DeviceTransferPayload := do
  let key ← deriveTransferKey R transferCode
  let nonce := fillNonce drawn
  let plaintext := R.cborTransferEnvelope.encode
    ⟨keys.kUserMaster.toList, keys.kArchiveRoot.toList, keys.kBackupRoot.toList, keys.kSearchRoot.toList⟩
  return ⟨nonce.toList, R.aeadSeal key nonce plaintext deviceTransferDomain⟩

/-- `to_arr`. -/
def toArr (v : Bytes) : Except Error KeyMaterial :=
  if h : v.length = 32 then .ok ⟨v, h⟩
  else .error (.crypto (.invalidInput "device-transfer: each key must be 32 bytes"))

/-- `accept_device_transfer`. -/
def acceptDeviceTransfer (payload : DeviceTransferPayload) (transferCode : String) : Except Error RecoveredKeys := do
  let key ← (deriveTransferKey R transferCode).mapError Error.crypto
  if hnonce : payload.nonce.length = 24 then
    match R.aeadOpen key ⟨payload.nonce, hnonce⟩ payload.ciphertext deviceTransferDomain with
    | none => .error (.crypto (.aead "xchacha20-poly1305 open failed"))
    | some plaintext =>
        match R.cborTransferEnvelope.decode plaintext with
        | none => .error (.storage (.cborDecode "device-transfer"))
        | some envelope => do
            let kUserMaster ← toArr envelope.kUserMaster
            let kArchiveRoot ← toArr envelope.kArchiveRoot
            let kBackupRoot ← toArr envelope.kBackupRoot
            let kSearchRoot ← toArr envelope.kSearchRoot
            return ⟨kUserMaster, kArchiveRoot, kBackupRoot, kSearchRoot⟩
  else .error (.crypto (.invalidInput "device-transfer: nonce must be 24 bytes"))

/-! ## The passphrase -/

/-- `PASSPHRASE_SALT_LEN`. -/
def passphraseSaltLen : Nat := 16

/-- `derive_passphrase_key_with_params`. -/
def derivePassphraseKeyWithParams (passphrase : String) (salt : ByteArr passphraseSaltLen) (params : Argon2Params) :
    Except CryptoError KeyMaterial :=
  let trimmed := trim passphrase
  if trimmed.isEmpty then .error (.invalidInput "passphrase: must not be empty")
  else if !R.argon2ParamsNew params then .error (.kdf "argon2 params: invalid m/t/p combination")
  else
    match R.argon2id params (utf8 trimmed) salt.toList with
    | some out => .ok out
    | none => .error (.kdf "argon2id hash_password_into failed")

/-- `wrap_master_key_with_passphrase`. -/
def wrapMasterKeyWithPassphrase (kUserMaster : KeyMaterial) (passphrase : String) (drawn : Nat) :
    Except CryptoError PassphraseRecoveryEnvelope := do
  let salt := leBytes passphraseSaltLen drawn
  let params := Argon2Params.owaspMobile
  let kek ← derivePassphraseKeyWithParams R passphrase salt params
  return ⟨salt.toList, wrapKAsset R.toPrimitives kUserMaster kek, params⟩

/-- `unwrap_master_key_with_passphrase`. -/
def unwrapMasterKeyWithPassphrase (envelope : PassphraseRecoveryEnvelope) (passphrase : String) :
    Except CryptoError KeyMaterial :=
  if hsalt : envelope.salt.length = passphraseSaltLen then
    if envelope.wrappedKey.length ≠ wrappedKeyLen then
      .error (.invalidInput "passphrase envelope: wrapped_key must be 40 bytes")
    else do
      let kek ← derivePassphraseKeyWithParams R passphrase ⟨envelope.salt, hsalt⟩ envelope.argon2Params
      unwrapKAsset R.toPrimitives envelope.wrappedKey kek
  else .error (.invalidInput "passphrase envelope: salt must be 16 bytes")

end Flows

/-! ## What a typed text opens -/

/-- The same text but for the case of its ASCII letters: `eq_ignore_ascii_case`, of a text in lower case. -/
def TypedAs (typed display : String) : Prop := (utf8 (trim typed)).map asciiLower = utf8 display

theorem toList_filled {bytes : Bytes} (h : bytes.length = 32) : (filled bytes).toList = bytes :=
  congrArg List.Vector.toList (dif_pos h)

theorem filled_toList (key : KeyMaterial) : filled key.toList = key := dif_pos key.toList_length

theorem readsDigits_decodeHexNibble : ReadsDigits decodeHexNibble := by
  intro b v
  unfold decodeHexNibble nibbleOfDigit
  split_ifs <;> simp [UInt8.add_comm]

theorem utf8_toDisplay (key : RecoveryKey) : utf8 key.toDisplay = hexBytes key.bytes.toList := toUTF8_hexText _

/-- **Which texts are a recovery key**: its digits, in either case and between blanks. -/
theorem fromDisplay_eq_ok_iff {typed : String} {key : RecoveryKey} :
    RecoveryKey.fromDisplay typed = .ok key ↔ TypedAs typed key.toDisplay := by
  rw [TypedAs, utf8_toDisplay, ← readPairs_eq_ok_iff readsDigits_decodeHexNibble, List.Vector.toList_length]
  unfold RecoveryKey.fromDisplay
  simp only
  by_cases hlength : (utf8 (trim typed)).length = 2 * 32
  · rw [if_neg (by simp [hlength])]
    constructor
    · intro h
      cases hread : readPairs decodeHexNibble (utf8 (trim typed)) with
      | error e => exact absurd h (by simp [hread, Except.map])
      | ok bytes =>
          have hbytes : bytes.length = 32 := by
            have := length_of_readPairs hread
            omega
          rw [hread] at h
          obtain rfl := Except.ok.inj h
          exact ⟨by omega, by rw [toList_filled hbytes]⟩
    · rintro ⟨-, hread⟩
      rw [hread, Except.map, filled_toList]
  · rw [if_pos hlength]
    simp only [reduceCtorEq, false_iff, not_and]
    intro h
    omega

section Exact

variable {R : RecoveryPrimitives}

theorem unwrapKAsset_wrapKAsset_iff {P : Primitives} {root root' k k' : KeyMaterial} :
    unwrapKAsset P (wrapKAsset P k root) root' = .ok k' ↔ P.kekUnwrap root' (wrapKAsset P k root) = some k' := by
  have hlength : (wrapKAsset P k root).length = wrappedKeyLen := List.Vector.toList_length _
  rw [unwrapKAsset, if_neg (by simp [hlength])]
  cases P.kekUnwrap root' (wrapKAsset P k root) <;> simp

/-- What is derived from a text depends on the text without its blanks only. -/
theorem deriveTransferKey_congr {s t : String} (h : trim s = trim t) : deriveTransferKey R s = deriveTransferKey R t := by
  rw [deriveTransferKey, deriveTransferKey, h]

theorem derivePassphraseKey_congr {s t : String} (h : trim s = trim t) (salt : ByteArr passphraseSaltLen)
    (params : Argon2Params) :
    derivePassphraseKeyWithParams R s salt params = derivePassphraseKeyWithParams R t salt params := by
  rw [derivePassphraseKeyWithParams, derivePassphraseKeyWithParams, h]

theorem toArr_toList (k : KeyMaterial) : toArr k.toList = .ok k := by
  rw [toArr, dif_pos k.toList_length]
  rfl

/-- Two texts that differ by more than their blanks, with one key. -/
def Collide (derive : String → Except CryptoError KeyMaterial) (secret typed : String) : Prop :=
  trim typed ≠ trim secret ∧ ∃ key, derive secret = .ok key ∧ derive typed = .ok key

/-- A box that opens under another key than its own. -/
def Forced (opens : KeyMaterial → Prop) (key : KeyMaterial) : Prop := ∃ key', key' ≠ key ∧ opens key'

/-- A box that opens under the key of a text was made for that text, or is forced. -/
theorem made_for_or_forced {derive : String → Except CryptoError KeyMaterial} {opens : KeyMaterial → Prop}
    {secret typed : String} {key key' : KeyMaterial} (hkey : derive secret = .ok key) (hkey' : derive typed = .ok key')
    (hopens : opens key') : trim typed = trim secret ∨ Collide derive secret typed ∨
      ∃ key, derive secret = .ok key ∧ Forced opens key := by
  by_cases htyped : trim typed = trim secret
  · exact .inl htyped
  by_cases heq : key' = key
  · exact .inr (.inl ⟨htyped, key, hkey, heq ▸ hkey'⟩)
  · exact .inr (.inr ⟨key, hkey, key', heq, hopens⟩)

section RecoveryKeys

variable {kUserMaster k : KeyMaterial} {drawn : Nat} {typed : String}

/-- What the text of a recovery key recovers. -/
def recovered (R : RecoveryPrimitives) (made : RecoveryKey × Bytes) (typed : String) : Except CryptoError KeyMaterial :=
  RecoveryKey.fromDisplay typed >>= fun key => recoverFromKey R key made.2

theorem recovered_of_typed (htyped : TypedAs typed (generateRecoveryKey R kUserMaster drawn).1.toDisplay) :
    recovered R (generateRecoveryKey R kUserMaster drawn) typed = .ok kUserMaster := by
  have hlength : (generateRecoveryKey R kUserMaster drawn).2.length = wrappedKeyLen := List.Vector.toList_length _
  simp only [recovered, fromDisplay_eq_ok_iff.mpr htyped, bind, Except.bind]
  rw [recoverFromKey, if_neg (by simp [hlength])]
  exact unwrapKAsset_wrapKAsset R.toPrimitives kUserMaster _

theorem typed_of_recovered (h : recovered R (generateRecoveryKey R kUserMaster drawn) typed = .ok k) :
    TypedAs typed (generateRecoveryKey R kUserMaster drawn).1.toDisplay ∨
      Forced (fun key => R.kekUnwrap key (generateRecoveryKey R kUserMaster drawn).2 = some k)
        (generateRecoveryKey R kUserMaster drawn).1.bytes := by
  have hlength : (generateRecoveryKey R kUserMaster drawn).2.length = wrappedKeyLen := List.Vector.toList_length _
  obtain ⟨key, hkey, hrecover⟩ := except_bind_eq_ok.mp h
  rw [recoverFromKey, if_neg (by simp [hlength])] at hrecover
  by_cases heq : key = (generateRecoveryKey R kUserMaster drawn).1
  · exact .inl (fromDisplay_eq_ok_iff.mp (heq ▸ hkey))
  · refine .inr ⟨key.bytes, fun hbytes => heq ?_, unwrapKAsset_wrapKAsset_iff.mp hrecover⟩
    cases key
    exact congrArg RecoveryKey.mk hbytes

end RecoveryKeys

section DeviceTransfer

variable {keys keys' : RecoveredKeys} {code typed : String} {drawn : Nat} {payload : DeviceTransferPayload}

/-- What was prepared opens under its key. -/
theorem acceptDeviceTransfer_of_prepare (h : prepareDeviceTransfer R keys code drawn = .ok payload)
    (htyped : trim typed = trim code) : acceptDeviceTransfer R payload typed = .ok keys := by
  obtain ⟨key, hkey, hpayload⟩ := except_bind_eq_ok.mp h
  obtain rfl := Except.ok.inj hpayload
  have hnonce : (fillNonce drawn).toList.length = 24 := List.Vector.toList_length _
  have hnonce' : (⟨(fillNonce drawn).toList, hnonce⟩ : ByteArr 24) = fillNonce drawn := Subtype.ext rfl
  simp only [acceptDeviceTransfer, deriveTransferKey_congr htyped, hkey, Except.mapError, bind, Except.bind, dif_pos hnonce,
    hnonce', Primitives.aeadOpen_aeadSeal, Codec.decode_encode, toArr_toList]
  rfl

theorem typed_of_accepted (h : prepareDeviceTransfer R keys code drawn = .ok payload)
    (haccept : acceptDeviceTransfer R payload typed = .ok keys') : trim typed = trim code ∨
      Collide (deriveTransferKey R) code typed ∨
      ∃ key, deriveTransferKey R code = .ok key ∧ Forced (fun key' => ∃ plaintext,
        R.aeadOpen key' (fillNonce drawn) payload.ciphertext deviceTransferDomain = some plaintext) key := by
  obtain ⟨key, hkey, hpayload⟩ := except_bind_eq_ok.mp h
  obtain rfl := Except.ok.inj hpayload
  obtain ⟨key', hmapped, hopen⟩ := except_bind_eq_ok.mp haccept
  have hkey' : deriveTransferKey R typed = .ok key' := by
    cases hderive : deriveTransferKey R typed with
    | error e => exact absurd hmapped (by simp [hderive, Except.mapError])
    | ok k => simpa [hderive, Except.mapError] using hmapped
  have hnonce : (fillNonce drawn).toList.length = 24 := List.Vector.toList_length _
  have hnonce' : (⟨(fillNonce drawn).toList, hnonce⟩ : ByteArr 24) = fillNonce drawn := Subtype.ext rfl
  simp only [dif_pos hnonce, hnonce'] at hopen
  refine made_for_or_forced hkey hkey' ?_
  split at hopen
  · exact absurd hopen (by simp)
  · exact ⟨_, by assumption⟩

end DeviceTransfer

section Passphrase

variable {kUserMaster k : KeyMaterial} {passphrase typed : String} {drawn : Nat} {envelope : PassphraseRecoveryEnvelope}

/-- What an envelope that was made asks of a passphrase. -/
theorem unwrap_eq (kek : KeyMaterial) (typed : String) :
    unwrapMasterKeyWithPassphrase R
        ⟨(leBytes passphraseSaltLen drawn).toList, wrapKAsset R.toPrimitives kUserMaster kek, .owaspMobile⟩ typed =
      derivePassphraseKeyWithParams R typed (leBytes passphraseSaltLen drawn) .owaspMobile >>= fun kek' =>
        unwrapKAsset R.toPrimitives (wrapKAsset R.toPrimitives kUserMaster kek) kek' := by
  have hsalt : (leBytes passphraseSaltLen drawn).toList.length = passphraseSaltLen := List.Vector.toList_length _
  have hsalt' : (⟨(leBytes passphraseSaltLen drawn).toList, hsalt⟩ : ByteArr passphraseSaltLen) =
      leBytes passphraseSaltLen drawn := Subtype.ext rfl
  have hwrapped : (wrapKAsset R.toPrimitives kUserMaster kek).length = wrappedKeyLen := List.Vector.toList_length _
  simp only [unwrapMasterKeyWithPassphrase, dif_pos hsalt, hwrapped, ne_eq, not_true_eq_false, if_false, hsalt']

/-- What was wrapped unwraps. -/
theorem unwrap_of_wrap (h : wrapMasterKeyWithPassphrase R kUserMaster passphrase drawn = .ok envelope)
    (htyped : trim typed = trim passphrase) : unwrapMasterKeyWithPassphrase R envelope typed = .ok kUserMaster := by
  obtain ⟨kek, hkek, henvelope⟩ := except_bind_eq_ok.mp h
  obtain rfl := Except.ok.inj henvelope
  rw [unwrap_eq, derivePassphraseKey_congr htyped, except_bind_eq_ok]
  exact ⟨kek, hkek, unwrapKAsset_wrapKAsset R.toPrimitives kUserMaster kek⟩

theorem typed_of_unwrapped (h : wrapMasterKeyWithPassphrase R kUserMaster passphrase drawn = .ok envelope)
    (hunwrap : unwrapMasterKeyWithPassphrase R envelope typed = .ok k) : trim typed = trim passphrase ∨
      Collide (fun s => derivePassphraseKeyWithParams R s (leBytes passphraseSaltLen drawn) .owaspMobile) passphrase typed ∨
      ∃ key, derivePassphraseKeyWithParams R passphrase (leBytes passphraseSaltLen drawn) .owaspMobile = .ok key ∧
        Forced (fun key' => R.kekUnwrap key' envelope.wrappedKey = some k) key := by
  obtain ⟨kek, hkek, henvelope⟩ := except_bind_eq_ok.mp h
  obtain rfl := Except.ok.inj henvelope
  rw [unwrap_eq] at hunwrap
  obtain ⟨kek', hkek', hopens⟩ := except_bind_eq_ok.mp hunwrap
  exact made_for_or_forced hkek hkek' (unwrapKAsset_wrapKAsset_iff.mp hopens)

end Passphrase

/-- **A box opens for the text it was made for, and to what was put in**: the recovery key in either case and between
blanks, the passphrase and the code between blanks. For any other text it opens only if two texts have one key, or if the box
opens under another key than its own. -/
theorem recovery_is_exact (R : RecoveryPrimitives) :
    (∀ kUserMaster drawn typed,
      let made := generateRecoveryKey R kUserMaster drawn
      (TypedAs typed made.1.toDisplay → recovered R made typed = .ok kUserMaster) ∧
      ∀ k, recovered R made typed = .ok k → TypedAs typed made.1.toDisplay ∨
        Forced (fun key => R.kekUnwrap key made.2 = some k) made.1.bytes) ∧
    (∀ keys code drawn payload, prepareDeviceTransfer R keys code drawn = .ok payload → ∀ typed,
      (trim typed = trim code → acceptDeviceTransfer R payload typed = .ok keys) ∧
      ∀ keys', acceptDeviceTransfer R payload typed = .ok keys' → trim typed = trim code ∨
        Collide (deriveTransferKey R) code typed ∨
        ∃ key, deriveTransferKey R code = .ok key ∧ Forced (fun key' => ∃ plaintext,
          R.aeadOpen key' (fillNonce drawn) payload.ciphertext deviceTransferDomain = some plaintext) key) ∧
    (∀ kUserMaster passphrase drawn envelope, wrapMasterKeyWithPassphrase R kUserMaster passphrase drawn = .ok envelope →
      ∀ typed,
      (trim typed = trim passphrase → unwrapMasterKeyWithPassphrase R envelope typed = .ok kUserMaster) ∧
      ∀ k, unwrapMasterKeyWithPassphrase R envelope typed = .ok k → trim typed = trim passphrase ∨
        Collide (fun s => derivePassphraseKeyWithParams R s (leBytes passphraseSaltLen drawn) .owaspMobile) passphrase typed ∨
        ∃ key, derivePassphraseKeyWithParams R passphrase (leBytes passphraseSaltLen drawn) .owaspMobile = .ok key ∧
          Forced (fun key' => R.kekUnwrap key' envelope.wrappedKey = some k) key) :=
  ⟨fun _ _ _ => ⟨recovered_of_typed, fun _ => typed_of_recovered⟩,
    fun _ _ _ _ hprepare _ => ⟨acceptDeviceTransfer_of_prepare hprepare, fun _ => typed_of_accepted hprepare⟩,
    fun _ _ _ _ hwrap _ => ⟨unwrap_of_wrap hwrap, fun _ => typed_of_unwrapped hwrap⟩⟩

end Exact

end KChatCore.Restore
