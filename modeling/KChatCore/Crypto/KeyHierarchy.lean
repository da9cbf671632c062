import KChatCore.Lib.Tagged
import KChatCore.Media.Chunker

/-!
# `Crypto.KeyHierarchy` — the info strings of the key derivation tree

Every key below the master key is an HKDF expansion of its parent under an info string: a versioned label, and behind it the
ids of the object the key is for. Labels have different lengths and ids have any, so two info strings could agree without
labels and ids agreeing. They do not: no label is the beginning of another one, a single id takes all that is left, and of
two ids the first one stands behind its length.

* `apply_eq_derive` — the info string of each derivation.
* `labels_prefixFree`, `frame_inj` — what tells labels and ids apart.
* `derivations_never_collide` — equal info strings, and equal keys under one parent, are of one label and the same ids.
-/

namespace KChatCore.Crypto

open Lib
open Media (beBytes ofBeBytes ofBeBytes_beBytes length_beBytes)

/-! ## The labels -/

namespace Info

def archiveRoot : Bytes := utf8 "kchat-archive-root-v1"
def backupRoot : Bytes := utf8 "kchat-backup-root-v1"
def searchRoot : Bytes := utf8 "kchat-search-root-v1"
def profilePrivateData : Bytes := utf8 "kchat-profile-private-data-v1"
def archiveSegment : Bytes := utf8 "kchat-archive-segment-v1"
def archiveManifest : Bytes := utf8 "kchat-archive-manifest-v1"
def backupSegment : Bytes := utf8 "kchat-backup-segment-v1"
def backupManifest : Bytes := utf8 "kchat-backup-manifest-v1"
def textIndexShard : Bytes := utf8 "kchat-text-index-shard-v1"
def vectorIndexShard : Bytes := utf8 "kchat-vector-index-shard-v1"
def mediaIndexShard : Bytes := utf8 "kchat-media-index-shard-v1"
def bloomIndexShard : Bytes := utf8 "kchat-bloom-index-shard-v1"
def archiveEpoch : Bytes := utf8 "kchat-archive-epoch-v1"
def b2bTenantRoot : Bytes := utf8 "kchat-b2b-tenant-root-v1"
def b2bArchiveEpoch : Bytes := utf8 "kchat-b2b-archive-epoch-v1"
def b2bTextIndexShard : Bytes := utf8 "kchat-b2b-text-index-shard-v1"

end Info

/-! ## The derivations -/

/-- HKDF-SHA256 without a salt: `Hkdf::new(None, parent)`, then `expand(info, okm)`. -/
abbrev HkdfExpand := Bytes → Bytes → Option KeyMaterial

section Derivations

variable (expand : HkdfExpand)

/-- `derive`. -/
def derive (parent info : Bytes) : Except CryptoError KeyMaterial :=
  match expand parent info with
  | some okm => .ok okm
  | none => .error (.kdf "hkdf-sha256 expand failed")

/-- `derive_with_id`. -/
def deriveWithId (parent label id : Bytes) : Except CryptoError KeyMaterial := derive expand parent (label ++ id)

/-- `u32::try_from(len).unwrap_or(u32::MAX).to_be_bytes()`. -/
def lenBytes (len : Nat) : Bytes := beBytes 4 (if len ≤ u32Max then len else u32Max)

/-- `derive_with_two_ids`. -/
def deriveWithTwoIds (parent label idA idB : Bytes) : Except CryptoError KeyMaterial :=
  derive expand parent (label ++ lenBytes idA.length ++ idA ++ idB)

def deriveArchiveRoot (master : KeyMaterial) : Except CryptoError KeyMaterial :=
  derive expand master.toList Info.archiveRoot

def deriveBackupRoot (master : KeyMaterial) : Except CryptoError KeyMaterial :=
  derive expand master.toList Info.backupRoot

def deriveSearchRoot (master : KeyMaterial) : Except CryptoError KeyMaterial :=
  derive expand master.toList Info.searchRoot

def deriveProfilePrivateData (master : KeyMaterial) : Except CryptoError KeyMaterial :=
  derive expand master.toList Info.profilePrivateData

def deriveArchiveSegment (archiveRoot : KeyMaterial) (segmentId : Bytes) : Except CryptoError KeyMaterial :=
  deriveWithId expand archiveRoot.toList Info.archiveSegment segmentId

def deriveArchiveManifest (archiveRoot : KeyMaterial) (manifestId : Bytes) : Except CryptoError KeyMaterial :=
  deriveWithId expand archiveRoot.toList Info.archiveManifest manifestId

def deriveBackupSegment (backupRoot : KeyMaterial) (segmentId : Bytes) : Except CryptoError KeyMaterial :=
  deriveWithId expand backupRoot.toList Info.backupSegment segmentId

def deriveBackupManifest (backupRoot : KeyMaterial) (manifestId : Bytes) : Except CryptoError KeyMaterial :=
  deriveWithId expand backupRoot.toList Info.backupManifest manifestId

def deriveTextIndexShard (searchRoot : KeyMaterial) (shardId : Bytes) : Except CryptoError KeyMaterial :=
  deriveWithId expand searchRoot.toList Info.textIndexShard shardId

def deriveVectorIndexShard (searchRoot : KeyMaterial) (shardId : Bytes) : Except CryptoError KeyMaterial :=
  deriveWithId expand searchRoot.toList Info.vectorIndexShard shardId

def deriveMediaIndexShard (searchRoot : KeyMaterial) (shardId : Bytes) : Except CryptoError KeyMaterial :=
  deriveWithId expand searchRoot.toList Info.mediaIndexShard shardId

def deriveBloomIndexShard (searchRoot : KeyMaterial) (shardId : Bytes) : Except CryptoError KeyMaterial :=
  deriveWithId expand searchRoot.toList Info.bloomIndexShard shardId

def deriveB2bTenantRoot (kUserMaster : KeyMaterial) (tenantId : String) : Except CryptoError KeyMaterial :=
  deriveWithId expand kUserMaster.toList Info.b2bTenantRoot (utf8 tenantId)

def deriveB2bArchiveEpoch (kTenantRoot : KeyMaterial) (tenantId epochId : String) : Except CryptoError KeyMaterial :=
  deriveWithTwoIds expand kTenantRoot.toList Info.b2bArchiveEpoch (utf8 tenantId) (utf8 epochId)

def deriveB2bTextIndexShard (kSearchRoot : KeyMaterial) (tenantId shardId : String) : Except CryptoError KeyMaterial :=
  deriveWithTwoIds expand kSearchRoot.toList Info.b2bTextIndexShard (utf8 tenantId) (utf8 shardId)

def deriveArchiveEpochKey (kArchiveRoot : KeyMaterial) (epochId : String) : Except CryptoError KeyMaterial :=
  deriveWithId expand kArchiveRoot.toList Info.archiveEpoch (utf8 epochId)

/-- `derive_archive_segment_key`: the label of `derive_archive_segment`, under an epoch key. -/
def deriveArchiveSegmentKey (kArchiveEpoch : KeyMaterial) (segmentId : String) : Except CryptoError KeyMaterial :=
  deriveWithId expand kArchiveEpoch.toList Info.archiveSegment (utf8 segmentId)

/-- `derive_archive_manifest_key`: the label of `derive_archive_manifest`, under an epoch key. -/
def deriveArchiveManifestKey (kArchiveEpoch : KeyMaterial) (manifestId : String) : Except CryptoError KeyMaterial :=
  deriveWithId expand kArchiveEpoch.toList Info.archiveManifest (utf8 manifestId)

end Derivations

/-- A derivation of the hierarchy, with its ids. -/
inductive Derivation
  | archiveRoot
  | backupRoot
  | searchRoot
  | profilePrivateData
  | archiveSegment (segmentId : Bytes)
  | archiveManifest (manifestId : Bytes)
  | backupSegment (segmentId : Bytes)
  | backupManifest (manifestId : Bytes)
  | textIndexShard (shardId : Bytes)
  | vectorIndexShard (shardId : Bytes)
  | mediaIndexShard (shardId : Bytes)
  | bloomIndexShard (shardId : Bytes)
  | b2bTenantRoot (tenantId : String)
  | b2bArchiveEpoch (tenantId epochId : String)
  | b2bTextIndexShard (tenantId shardId : String)
  | archiveEpochKey (epochId : String)
  | archiveSegmentKey (segmentId : String)
  | archiveManifestKey (manifestId : String)

namespace Derivation

/-- The key a derivation makes of its parent. -/
def apply (expand : HkdfExpand) (parent : KeyMaterial) : Derivation → Except CryptoError KeyMaterial
  | archiveRoot => deriveArchiveRoot expand parent
  | backupRoot => deriveBackupRoot expand parent
  | searchRoot => deriveSearchRoot expand parent
  | profilePrivateData => deriveProfilePrivateData expand parent
  | archiveSegment segmentId => deriveArchiveSegment expand parent segmentId
  | archiveManifest manifestId => deriveArchiveManifest expand parent manifestId
  | backupSegment segmentId => deriveBackupSegment expand parent segmentId
  | backupManifest manifestId => deriveBackupManifest expand parent manifestId
  | textIndexShard shardId => deriveTextIndexShard expand parent shardId
  | vectorIndexShard shardId => deriveVectorIndexShard expand parent shardId
  | mediaIndexShard shardId => deriveMediaIndexShard expand parent shardId
  | bloomIndexShard shardId => deriveBloomIndexShard expand parent shardId
  | b2bTenantRoot tenantId => deriveB2bTenantRoot expand parent tenantId
  | b2bArchiveEpoch tenantId epochId => deriveB2bArchiveEpoch expand parent tenantId epochId
  | b2bTextIndexShard tenantId shardId => deriveB2bTextIndexShard expand parent tenantId shardId
  | archiveEpochKey epochId => deriveArchiveEpochKey expand parent epochId
  | archiveSegmentKey segmentId => deriveArchiveSegmentKey expand parent segmentId
  | archiveManifestKey manifestId => deriveArchiveManifestKey expand parent manifestId

/-- The label constant of a derivation. -/
def label : Derivation → Bytes
  | archiveRoot => Info.archiveRoot
  | backupRoot => Info.backupRoot
  | searchRoot => Info.searchRoot
  | profilePrivateData => Info.profilePrivateData
  | archiveSegment _ => Info.archiveSegment
  | archiveManifest _ => Info.archiveManifest
  | backupSegment _ => Info.backupSegment
  | backupManifest _ => Info.backupManifest
  | textIndexShard _ => Info.textIndexShard
  | vectorIndexShard _ => Info.vectorIndexShard
  | mediaIndexShard _ => Info.mediaIndexShard
  | bloomIndexShard _ => Info.bloomIndexShard
  | b2bTenantRoot _ => Info.b2bTenantRoot
  | b2bArchiveEpoch _ _ => Info.b2bArchiveEpoch
  | b2bTextIndexShard _ _ => Info.b2bTextIndexShard
  | archiveEpochKey _ => Info.archiveEpoch
  | archiveSegmentKey _ => Info.archiveSegment
  | archiveManifestKey _ => Info.archiveManifest

/-- The ids of a derivation, as bytes. -/
def ids : Derivation → List Bytes
  | archiveRoot | backupRoot | searchRoot | profilePrivateData => []
  | archiveSegment id | archiveManifest id | backupSegment id | backupManifest id => [id]
  | textIndexShard id | vectorIndexShard id | mediaIndexShard id | bloomIndexShard id => [id]
  | b2bTenantRoot id | archiveEpochKey id | archiveSegmentKey id | archiveManifestKey id => [utf8 id]
  | b2bArchiveEpoch idA idB | b2bTextIndexShard idA idB => [utf8 idA, utf8 idB]

/-- Every id is shorter than 2^32 bytes. -/
def IdsFit (d : Derivation) : Prop := ∀ id ∈ d.ids, id.length < 2 ^ 32

end Derivation

/-! ## What is behind a label -/

/-- Which of the three helpers assembles the info string. -/
inductive Builder
  | derive
  | deriveWithId
  | deriveWithTwoIds
deriving DecidableEq, Repr

/-- What a helper puts behind the label. -/
def Builder.frame : Builder → List Bytes → Bytes
  | .deriveWithId, [id] => id
  | .deriveWithTwoIds, [idA, idB] => lengthPrefixed lenBytes idA idB
  | _, _ => []

/-- The ids a helper takes, each of a length that fits. -/
def Builder.Takes (b : Builder) (ids : List Bytes) : Prop :=
  (match b with
    | .derive => ids.length = 0
    | .deriveWithId => ids.length = 1
    | .deriveWithTwoIds => ids.length = 2) ∧
  ∀ id ∈ ids, id.length < 2 ^ 32

/-- The labels, each with the helper it goes to. -/
def labels : List (Bytes × Builder) :=
  [(Info.archiveRoot, .derive), (Info.backupRoot, .derive), (Info.searchRoot, .derive),
    (Info.profilePrivateData, .derive), (Info.archiveSegment, .deriveWithId), (Info.archiveManifest, .deriveWithId),
    (Info.backupSegment, .deriveWithId), (Info.backupManifest, .deriveWithId), (Info.textIndexShard, .deriveWithId),
    (Info.vectorIndexShard, .deriveWithId), (Info.mediaIndexShard, .deriveWithId), (Info.bloomIndexShard, .deriveWithId),
    (Info.archiveEpoch, .deriveWithId), (Info.b2bTenantRoot, .deriveWithId), (Info.b2bArchiveEpoch, .deriveWithTwoIds),
    (Info.b2bTextIndexShard, .deriveWithTwoIds)]

/-- **No label is the beginning of another one.** -/
theorem labels_prefixFree : PrefixFree labels := by decide +kernel

theorem lenBytes_inj (m n : Nat) (hm : m < 2 ^ 32) (hn : n < 2 ^ 32) (h : lenBytes m = lenBytes n) : m = n := by
  unfold lenBytes at h
  rw [if_pos (by simp only [u32Max]; omega), if_pos (by simp only [u32Max]; omega)] at h
  have hread := congrArg ofBeBytes h
  rw [ofBeBytes_beBytes, ofBeBytes_beBytes] at hread
  omega

/-- **A helper frames different ids differently.** -/
theorem frame_inj (b : Builder) (x y : List Bytes) (hx : b.Takes x) (hy : b.Takes y) (h : b.frame x = b.frame y) :
    x = y := by
  obtain ⟨hxlen, hxfit⟩ := hx
  obtain ⟨hylen, hyfit⟩ := hy
  cases b with
  | derive =>
      rw [List.length_eq_zero_iff.mp hxlen, List.length_eq_zero_iff.mp hylen]
  | deriveWithId =>
      obtain ⟨idX, rfl⟩ := List.length_eq_one_iff.mp hxlen
      obtain ⟨idY, rfl⟩ := List.length_eq_one_iff.mp hylen
      exact congrArg (fun id => [id]) h
  | deriveWithTwoIds =>
      obtain ⟨xA, xB, rfl⟩ := List.length_eq_two.mp hxlen
      obtain ⟨yA, yB, rfl⟩ := List.length_eq_two.mp hylen
      have hA : xA.length < 2 ^ 32 := hxfit xA List.mem_cons_self
      have hA' : yA.length < 2 ^ 32 := hyfit yA List.mem_cons_self
      obtain ⟨rfl, rfl⟩ := lengthPrefixed_inj (fun n => length_beBytes 4 _) lenBytes_inj hA hA' h
      rfl

namespace Derivation

/-- The helper a derivation calls. -/
def builder : Derivation → Builder
  | archiveRoot | backupRoot | searchRoot | profilePrivateData => .derive
  | b2bArchiveEpoch _ _ | b2bTextIndexShard _ _ => .deriveWithTwoIds
  | _ => .deriveWithId

/-- The info string of a derivation. -/
def info (d : Derivation) : Bytes := d.label ++ d.builder.frame d.ids

/-- **The key of a derivation** is the expansion of its parent under its info string. -/
theorem apply_eq_derive (expand : HkdfExpand) (parent : KeyMaterial) (d : Derivation) :
    d.apply expand parent = derive expand parent.toList d.info := by
  cases d with
  | archiveRoot | backupRoot | searchRoot | profilePrivateData => rfl
  | b2bArchiveEpoch idA idB | b2bTextIndexShard idA idB =>
      refine congrArg (derive expand parent.toList) ?_
      rw [List.append_assoc, List.append_assoc, ← List.append_assoc (lenBytes _)]
      rfl
  | _ => rfl

theorem label_mem (d : Derivation) : (d.label, d.builder) ∈ labels := by
  cases d <;> simp [labels, label, builder]

theorem builder_takes {d : Derivation} (h : d.IdsFit) : d.builder.Takes d.ids := by
  refine ⟨?_, h⟩
  cases d <;> rfl

/-- **An info string is of one label and of one list of ids.** -/
theorem info_inj {d e : Derivation} (hd : d.IdsFit) (he : e.IdsFit) (h : d.info = e.info) :
    d.label = e.label ∧ d.ids = e.ids :=
  labels_prefixFree.tagged_inj frame_inj d.label_mem e.label_mem (builder_takes hd) (builder_takes he) h

end Derivation

/-- A key comes out of HKDF. -/
theorem derive_eq_ok {expand : HkdfExpand} {parent info : Bytes} {k : KeyMaterial} :
    derive expand parent info = .ok k ↔ expand parent info = some k := by
  unfold derive
  cases expand parent info with
  | none => simp
  | some okm => simp

/-- **Key derivation labels never collide.** Each derivation expands its parent under its own info string, and two
info strings are equal only for one label and the same ids. So among derivations for which HKDF does not collide on their
info strings, a key that two of them make of one parent is of one purpose and of the same ids. -/
theorem derivations_never_collide (expand : HkdfExpand) (parent : KeyMaterial) (used : Set Derivation)
    (hids : ∀ d ∈ used, d.IdsFit)
    (hinjective : ∀ d ∈ used, ∀ e ∈ used, ∀ k, expand parent.toList d.info = some k →
      expand parent.toList e.info = some k → d.info = e.info) :
    (∀ d : Derivation, d.apply expand parent = derive expand parent.toList d.info) ∧
      (∀ d e : Derivation, d.IdsFit → e.IdsFit → d.info = e.info → d.label = e.label ∧ d.ids = e.ids) ∧
      ∀ d ∈ used, ∀ e ∈ used, ∀ k, d.apply expand parent = .ok k → e.apply expand parent = .ok k →
        d.label = e.label ∧ d.ids = e.ids := by
  refine ⟨Derivation.apply_eq_derive expand parent, fun d e => Derivation.info_inj, ?_⟩
  intro d hd e he k hdk hek
  rw [Derivation.apply_eq_derive, derive_eq_ok] at hdk hek
  exact Derivation.info_inj (hids d hd) (hids e he) (hinjective d hd e he k hdk hek)

/-! Two tenants whose ids and shard ids run together to the same text, below a master key of zeros. -/

def tenantShard : Derivation := .b2bTextIndexShard "tenant-a" "shard-1"

def otherTenantShard : Derivation := .b2bTextIndexShard "tenant-as" "hard-1"

def tenantShardKey : KeyMaterial := List.Vector.ofFn fun i => ([176, 192, 237, 232, 90, 230, 82, 3, 192, 77, 16, 155, 128,
  26, 32, 201, 133, 131, 155, 255, 178, 47, 167, 45, 195, 247, 248, 5, 13, 2, 208, 90] : Bytes).getD i.val 0

def otherTenantShardKey : KeyMaterial := List.Vector.ofFn fun i => ([45, 221, 90, 99, 1, 23, 110, 119, 99, 212, 222, 136,
  231, 155, 49, 149, 168, 105, 52, 164, 253, 211, 87, 163, 180, 243, 3, 103, 254, 91, 23, 201] : Bytes).getD i.val 0

/-- What HKDF-SHA256 makes of the two info strings. -/
def tenantExpand : HkdfExpand := fun parent info =>
  if parent ≠ List.replicate 32 0 then none
  else if info = tenantShard.info then some tenantShardKey
  else if info = otherTenantShard.info then some otherTenantShardKey
  else none

theorem tenants_share_no_key : tenantShard.apply tenantExpand (ByteArr.zeros 32) = .ok tenantShardKey ∧
    otherTenantShard.apply tenantExpand (ByteArr.zeros 32) = .ok otherTenantShardKey ∧
    ¬ ∃ k, tenantShard.apply tenantExpand (ByteArr.zeros 32) = .ok k ∧
      otherTenantShard.apply tenantExpand (ByteArr.zeros 32) = .ok k := by
  have hcollide := derivations_never_collide tenantExpand (ByteArr.zeros 32) {tenantShard, otherTenantShard}
    (by
      intro d hd
      rcases hd with rfl | rfl
      · unfold Derivation.IdsFit
        decide +kernel
      · unfold Derivation.IdsFit
        decide +kernel)
    (by
      have hfirst : tenantExpand (ByteArr.zeros 32).toList tenantShard.info = some tenantShardKey := by decide +kernel
      have hsecond : tenantExpand (ByteArr.zeros 32).toList otherTenantShard.info = some otherTenantShardKey := by
        decide +kernel
      have hkeys : tenantShardKey ≠ otherTenantShardKey := by decide +kernel
      intro d hd e he k hdk hek
      rcases hd with rfl | rfl
      · rcases he with rfl | rfl
        · rfl
        · exact absurd (Option.some.inj (hfirst.symm.trans (hdk.trans (hek.symm.trans hsecond)))) hkeys
      · rcases he with rfl | rfl
        · exact absurd (Option.some.inj (hfirst.symm.trans (hek.trans (hdk.symm.trans hsecond)))) hkeys
        · rfl)
  refine ⟨by decide +kernel, by decide +kernel, ?_⟩
  rintro ⟨k, hk, hk'⟩
  have hsame := hcollide.2.2 tenantShard (Or.inl rfl) otherTenantShard (Or.inr rfl) k hk hk'
  exact absurd hsame.2 (by decide +kernel)

end KChatCore.Crypto
