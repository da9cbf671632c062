import KChatCore.Archive.Upload
import KChatCore.Backup.SinkCompleteness
import KChatCore.Lib.ObjectStore
import KChatCore.Restore.FromBackup

/-!
# `Backup.PlatformSinks` — what the platform's backup sinks give back

Three implementations of `BackupSink` over a faithful bridge or object store: CloudKit records, Android's Auto
Backup and document tree, and the ZK object fabric, which seals everything once more (Pattern C) on upload and
returns the sealed bytes on fetch. Manifests and segments share one key space, except on Android.

* `returned_iff` — which uploads a sink gives back: all on Android; on iCloud those whose keys do not collide;
  on the fabric the empty ones.
* `sinks_return_iff` — so which uploaded manifests the restore can decode.
-/

namespace KChatCore.Backup

open Lib Archive Restore

/-! ## The implementations -/

/-- The bridges and stores, keyed by record name, document URI or object key. -/
abbrev Bridge (σ : Type) := ObjectStore String Bytes σ

/-- **The `BackupSink` implementations.** `ZkofBackupSink::new` rejects an empty tenant id. -/
inductive PlatformSink (σ : Type)
  | iCloud (bridge : Bridge σ)
  | android (autoBackup saf : Bridge σ)
  | zkof (s3 : Bridge σ) (tenantId : String) (tenantId_ne : tenantId ≠ "")

/-- What the bridges hold: records, objects or Auto Backup entries, and Android's documents. -/
structure SinkStore (σ : Type) where
  objects : σ
  documents : σ

/-- `segment_record_name`, `segment_uri` and `segment_key`. -/
def segmentKey (segmentId : String) : String := "backups/segments/" ++ segmentId

/-- `manifest_record_name` and `manifest_key`. -/
def manifestKey (manifestId : String) : String := "backups/" ++ manifestId

/-- `ZkofBackupSink::pattern_c_seal`. -/
def zkofPatternCSeal (P : Primitives) (tenantId : String) (plaintext : Bytes) : Except Error Bytes :=
  let dek := P.deriveConvergentDek (P.contentHash plaintext).toList (utf8 tenantId)
  (encryptObjectPatternC P plaintext dek).mapError fun e =>
    .storageMsg ("ZkofBackupSink: pattern C seal: " ++ displayCryptoError e)

/-- The error of a key a bridge does not hold. -/
def noSuchObject (key : String) : Error := .storageMsg ("no such record: " ++ key)

/-- Read a key of a bridge. -/
def Bridge.read {σ : Type} (bridge : Bridge σ) (key : String) (s : σ) : Except Error Bytes :=
  okOr (bridge.get key s) (noSuchObject key)

namespace PlatformSink

variable {σ : Type}

/-- `upload_backup_segment`. -/
def uploadBackupSegment (P : Primitives) (sink : PlatformSink σ) (segmentId : String) (ciphertext : Bytes)
    (s : SinkStore σ) : Except Error Unit × SinkStore σ :=
  match sink with
  | .iCloud bridge => (.ok (), { s with objects := bridge.put (segmentKey segmentId) ciphertext s.objects })
  | .android _ saf => (.ok (), { s with documents := saf.put (segmentKey segmentId) ciphertext s.documents })
  | .zkof s3 tenantId _ =>
      match zkofPatternCSeal P tenantId ciphertext with
      | .error e => (.error e, s)
      | .ok sealedBytes => (.ok (), { s with objects := s3.put (segmentKey segmentId) sealedBytes s.objects })

/-- `upload_backup_manifest`. -/
def uploadBackupManifest (P : Primitives) (sink : PlatformSink σ) (manifestId : String) (bundle : Bytes)
    (s : SinkStore σ) : Except Error Unit × SinkStore σ :=
  match sink with
  | .iCloud bridge => (.ok (), { s with objects := bridge.put (manifestKey manifestId) bundle s.objects })
  | .android autoBackup _ =>
      (.ok (), { s with objects := autoBackup.put (manifestKey manifestId) bundle s.objects })
  | .zkof s3 tenantId _ =>
      match zkofPatternCSeal P tenantId bundle with
      | .error e => (.error e, s)
      | .ok convergent => (.ok (), { s with objects := s3.put (manifestKey manifestId) convergent s.objects })

/-- `fetch_backup_manifest`. -/
def fetchBackupManifest (sink : PlatformSink σ) (manifestId : String) (s : SinkStore σ) : Except Error Bytes :=
  match sink with
  | .iCloud bridge => bridge.read (manifestKey manifestId) s.objects
  | .android autoBackup _ => autoBackup.read (manifestKey manifestId) s.objects
  | .zkof s3 _ _ => s3.read (manifestKey manifestId) s.objects

/-- `fetch_backup_segment`. -/
def fetchBackupSegment (sink : PlatformSink σ) (segmentId : String) (s : SinkStore σ) : Except Error Bytes :=
  match sink with
  | .iCloud bridge => bridge.read (segmentKey segmentId) s.objects
  | .android _ saf => saf.read (segmentKey segmentId) s.documents
  | .zkof s3 _ _ => s3.read (segmentKey segmentId) s.objects

end PlatformSink

/-! ## Sequences of uploads -/

/-- Which of the two kinds of object an upload is about. -/
inductive UploadKind
  | segment
  | manifest
deriving DecidableEq, Repr

/-- One `upload_backup_segment` or `upload_backup_manifest` call. -/
structure Upload where
  kind : UploadKind
  id : String
  bytes : Bytes
deriving DecidableEq, Repr

/-- One call. -/
def PlatformSink.upload {σ : Type} (P : Primitives) (sink : PlatformSink σ) (u : Upload) (s : SinkStore σ) :
    Except Error Unit × SinkStore σ :=
  match u.kind with
  | .segment => sink.uploadBackupSegment P u.id u.bytes s
  | .manifest => sink.uploadBackupManifest P u.id u.bytes s

/-- The fetch of what a call uploaded. -/
def PlatformSink.fetch {σ : Type} (sink : PlatformSink σ) (u : Upload) (s : SinkStore σ) : Except Error Bytes :=
  match u.kind with
  | .segment => sink.fetchBackupSegment u.id s
  | .manifest => sink.fetchBackupManifest u.id s

/-- A sequence of calls: those that succeeded, and the store they leave. -/
def PlatformSink.uploadAll {σ : Type} (P : Primitives) (sink : PlatformSink σ) :
    List Upload → SinkStore σ → List Upload × SinkStore σ
  | [], s => ([], s)
  | u :: calls, s =>
      match sink.upload P u s with
      | (.error _, s') => PlatformSink.uploadAll P sink calls s'
      | (.ok _, s') =>
          let rest := PlatformSink.uploadAll P sink calls s'
          (u :: rest.1, rest.2)

/-! ## An upload is one write -/

section Writes

variable {σ : Type} {P : Primitives} {sink : PlatformSink σ} {u : Upload} {s s' : SinkStore σ}

/-- The bridge for the objects, and the one for the documents. -/
def PlatformSink.bridges (sink : PlatformSink σ) : Bridge σ × Bridge σ :=
  match sink with
  | .iCloud bridge => (bridge, bridge)
  | .android autoBackup saf => (autoBackup, saf)
  | .zkof s3 _ _ => (s3, s3)

/-- Both halves of the store as one: `true` says document. -/
def PlatformSink.places (sink : PlatformSink σ) : ObjectStore (Bool × String) Bytes (SinkStore σ) where
  put k b s :=
    if k.1 then { s with documents := sink.bridges.2.put k.2 b s.documents }
    else { s with objects := sink.bridges.1.put k.2 b s.objects }
  get k s := if k.1 then sink.bridges.2.get k.2 s.documents else sink.bridges.1.get k.2 s.objects
  delete k s :=
    if k.1 then { s with documents := sink.bridges.2.delete k.2 s.documents }
    else { s with objects := sink.bridges.1.delete k.2 s.objects }
  get_put := by
    rintro ⟨d, k⟩ b s
    cases d <;> simp
  get_put_of_ne := by
    rintro ⟨d, k⟩ ⟨d', k'⟩ b s hne
    cases d <;> cases d' <;> simp_all [ObjectStore.get_put_of_ne]
  get_delete := by
    rintro ⟨d, k⟩ s
    cases d <;> simp
  get_delete_of_ne := by
    rintro ⟨d, k⟩ ⟨d', k'⟩ s hne
    cases d <;> cases d' <;> simp_all [ObjectStore.get_delete_of_ne]

/-- The key of an upload. -/
def Upload.key (u : Upload) : String :=
  match u.kind with
  | .segment => segmentKey u.id
  | .manifest => manifestKey u.id

/-- Where a sink puts an upload. Only Android keeps segments apart. -/
def PlatformSink.place (sink : PlatformSink σ) (u : Upload) : Bool × String :=
  match sink with
  | .android _ _ => (u.kind = .segment, u.key)
  | _ => (false, u.key)

/-- What a sink stores for an upload. -/
def PlatformSink.stored (P : Primitives) (sink : PlatformSink σ) (u : Upload) : Except Error Bytes :=
  match sink with
  | .zkof _ tenantId _ => zkofPatternCSeal P tenantId u.bytes
  | _ => .ok u.bytes

/-- **An upload stores once, or fails.** -/
theorem upload_eq (P : Primitives) (sink : PlatformSink σ) (u : Upload) (s : SinkStore σ) :
    sink.upload P u s =
      match sink.stored P u with
      | .error e => (.error e, s)
      | .ok bytes => (.ok (), sink.places.put (sink.place u) bytes s) := by
  obtain ⟨kind, id, bytes⟩ := u
  cases sink with
  | iCloud bridge => cases kind <;> rfl
  | android autoBackup saf => cases kind <;> rfl
  | zkof s3 tenantId hne =>
      cases kind with
      | segment =>
          simp only [PlatformSink.upload, PlatformSink.uploadBackupSegment, PlatformSink.stored]
          cases zkofPatternCSeal P tenantId bytes <;> rfl
      | manifest =>
          simp only [PlatformSink.upload, PlatformSink.uploadBackupManifest, PlatformSink.stored]
          cases zkofPatternCSeal P tenantId bytes <;> rfl

theorem fetch_eq :
    sink.fetch u s = okOr (sink.places.get (sink.place u) s) (noSuchObject u.key) := by
  obtain ⟨kind, id, bytes⟩ := u
  cases sink <;> cases kind <;> rfl

/-- The writes of the uploads that succeeded. -/
def PlatformSink.writes (P : Primitives) (sink : PlatformSink σ) (uploaded : List Upload) :
    List ((Bool × String) × Bytes) :=
  uploaded.filterMap fun u => (sink.stored P u).toOption.map fun bytes => (sink.place u, bytes)

theorem writes_cons {bytes : Bytes} {uploaded : List Upload} (h : sink.stored P u = .ok bytes) :
    sink.writes P (u :: uploaded) = (sink.place u, bytes) :: sink.writes P uploaded := by
  simp [PlatformSink.writes, h, Except.toOption]

theorem mem_writes {place : Bool × String} {bytes : Bytes} {uploaded : List Upload} :
    (place, bytes) ∈ sink.writes P uploaded ↔
      ∃ u ∈ uploaded, sink.place u = place ∧ sink.stored P u = .ok bytes := by
  unfold PlatformSink.writes
  rw [List.mem_filterMap]
  refine exists_congr fun u => and_congr_right fun _ => ?_
  cases sink.stored P u <;> simp [Except.toOption]

/-- **A sequence of uploads** is the sequence of the writes of those that succeeded. -/
theorem uploadAll_eq (calls : List Upload) (s : SinkStore σ) :
    sink.uploadAll P calls s =
      (calls.filter fun u => (sink.stored P u).toBool, sink.places.puts (sink.writes P calls) s) := by
  induction calls generalizing s with
  | nil => rfl
  | cons u calls ih =>
      rw [PlatformSink.uploadAll, upload_eq]
      cases hstored : sink.stored P u with
      | error e =>
          have hwrites : sink.writes P (u :: calls) = sink.writes P calls := by
            simp [PlatformSink.writes, hstored, Except.toOption]
          simp only [ih, List.filter_cons, hstored, Except.toBool, hwrites]
          rfl
      | ok bytes =>
          simp only [ih, List.filter_cons, hstored, Except.toBool, if_true, writes_cons hstored,
            ObjectStore.puts_cons]

theorem mem_uploaded {calls : List Upload} :
    u ∈ (sink.uploadAll P calls s).1 ↔ u ∈ calls ∧ ∃ bytes, sink.stored P u = .ok bytes := by
  rw [uploadAll_eq, List.mem_filter]
  refine and_congr_right fun _ => ?_
  cases sink.stored P u <;> simp [Except.toBool]

/-- What a fetch returns is what some upload to the same place stored. -/
theorem fetch_uploaded {calls : List Upload} (hu : u ∈ (sink.uploadAll P calls s).1) :
    ∃ v ∈ (sink.uploadAll P calls s).1, sink.place v = sink.place u ∧
      ∃ bytes, sink.stored P v = .ok bytes ∧ sink.fetch u (sink.uploadAll P calls s).2 = .ok bytes := by
  obtain ⟨hcall, bytes, hbytes⟩ := mem_uploaded.mp hu
  obtain ⟨bytes', hmem, hget⟩ :=
    sink.places.exists_get_puts (mem_writes.mpr ⟨u, hcall, rfl, hbytes⟩) s
  obtain ⟨v, hv, hplace, hstored⟩ := mem_writes.mp hmem
  refine ⟨v, mem_uploaded.mpr ⟨hv, bytes', hstored⟩, hplace, bytes', hstored, ?_⟩
  rw [fetch_eq, uploadAll_eq, hget]
  rfl

end Writes

/-! ## Which uploads come back -/

/-- No two calls of a kind are about one id. -/
def DistinctIds (calls : List Upload) : Prop := (calls.map fun u => (u.kind, u.id)).Nodup

/-- A manifest whose id runs into the segments' part of the key space. -/
def Collide (u v : Upload) : Prop :=
  u.kind = .manifest ∧ v.kind = .segment ∧ u.id = "segments/" ++ v.id

/-- **The uploads a sink can give back.** -/
def PlatformSink.GivesBack {σ : Type} (sink : PlatformSink σ) (uploaded : List Upload) : Prop :=
  match sink with
  | .iCloud _ => ∀ u ∈ uploaded, ∀ v ∈ uploaded, Collide u v → u.bytes = v.bytes
  | .android _ _ => True
  | .zkof _ _ _ => ∀ u ∈ uploaded, u.bytes = []

section Returned

variable {σ : Type} {P : Primitives} {sink : PlatformSink σ} {u v : Upload} {s : SinkStore σ}

/-- The keys of a manifest and a segment are equal when the manifest's id is below the segments' prefix. -/
theorem manifestKey_eq_segmentKey {manifestId segmentId : String} :
    manifestKey manifestId = segmentKey segmentId ↔ manifestId = "segments/" ++ segmentId := by
  have hfront : "backups/segments/" = "backups/" ++ "segments/" := by decide
  show "backups/" ++ manifestId = "backups/segments/" ++ segmentId ↔ _
  rw [hfront, String.append_assoc]
  exact String.append_right_inj _

theorem key_eq (h : u.key = v.key) : (u.kind, u.id) = (v.kind, v.id) ∨ Collide u v ∨ Collide v u := by
  obtain ⟨ku, iu, bu⟩ := u
  obtain ⟨kv, iv, bv⟩ := v
  cases ku <;> cases kv
  · exact Or.inl (by rw [(String.append_right_inj _).mp h])
  · exact Or.inr (Or.inr ⟨rfl, rfl, manifestKey_eq_segmentKey.mp (Eq.symm h)⟩)
  · exact Or.inr (Or.inl ⟨rfl, rfl, manifestKey_eq_segmentKey.mp h⟩)
  · exact Or.inl (by rw [(String.append_right_inj _).mp h])

theorem key_eq_of_place (h : sink.place u = sink.place v) : u.key = v.key := by
  cases sink <;> exact (Prod.mk.inj h).2

theorem key_eq_of_collide (h : Collide u v) : u.key = v.key := by
  obtain ⟨hu, hv, hid⟩ := h
  rw [Upload.key, Upload.key, hu, hv]
  exact manifestKey_eq_segmentKey.mpr hid

/-- Two uploads of a kind and an id are the same call. -/
theorem eq_of_distinct {calls : List Upload} (hids : DistinctIds calls) (hu : u ∈ calls) (hv : v ∈ calls)
    (h : (u.kind, u.id) = (v.kind, v.id)) : u = v :=
  List.inj_on_of_nodup_map hids hu hv h

theorem zkofPatternCSeal_nil (P : Primitives) (tenantId : String) : zkofPatternCSeal P tenantId [] = .ok [] := rfl

/-- Only nothing seals to itself. -/
theorem eq_nil_of_sealed_self {tenantId : String} {bytes : Bytes} (h : zkofPatternCSeal P tenantId bytes = .ok bytes) :
    bytes = [] := by
  by_contra hne
  unfold zkofPatternCSeal at h
  simp only at h
  cases hc : encryptObjectPatternC P bytes (P.deriveConvergentDek (P.contentHash bytes).toList (utf8 tenantId)) with
  | error e =>
      rw [hc] at h
      exact absurd h (by simp [Except.mapError])
  | ok out =>
      rw [hc] at h
      obtain rfl : out = bytes := Except.ok.inj h
      exact lt_irrefl _ (length_encryptObjectPatternC hne hc)

/-- **What comes back.** After a sequence of uploads with distinct ids, every fetch returns the uploaded bytes
exactly when the sink can give them back. -/
theorem returned_iff {calls : List Upload} (hids : DistinctIds calls) :
    (∀ u ∈ (sink.uploadAll P calls s).1, sink.fetch u (sink.uploadAll P calls s).2 = .ok u.bytes) ↔
      sink.GivesBack (sink.uploadAll P calls s).1 := by
  have hcalls : ∀ {u}, u ∈ (sink.uploadAll P calls s).1 → u ∈ calls := fun hu => (mem_uploaded.mp hu).1
  cases sink with
  | iCloud bridge =>
      constructor
      · intro h u hu v hv hcol
        have hfetch : (PlatformSink.iCloud bridge).fetch u = (PlatformSink.iCloud bridge).fetch v := by
          funext s'
          rw [fetch_eq, fetch_eq]
          show okOr (bridge.get u.key _) _ = okOr (bridge.get v.key _) _
          rw [key_eq_of_collide hcol]
        have hu' := h u hu
        rw [hfetch, h v hv] at hu'
        exact (Except.ok.inj hu').symm
      · intro h u hu
        obtain ⟨v, hv, hplace, bytes, hstored, hfetch⟩ := fetch_uploaded hu
        obtain rfl : v.bytes = bytes := Except.ok.inj hstored
        rw [hfetch]
        rcases key_eq (key_eq_of_place hplace) with hsame | hcol | hcol
        · rw [eq_of_distinct hids (hcalls hv) (hcalls hu) hsame]
        · rw [h v hv u hu hcol]
        · rw [h u hu v hv hcol]
  | android autoBackup saf =>
      refine ⟨fun _ => trivial, fun _ u hu => ?_⟩
      obtain ⟨v, hv, hplace, bytes, hstored, hfetch⟩ := fetch_uploaded hu
      obtain rfl : v.bytes = bytes := Except.ok.inj hstored
      -- the document tree is not the Auto Backup, so the kinds agree
      have hkind : v.kind = .segment ↔ u.kind = .segment := by
        have hd := (Prod.mk.inj hplace).1
        simpa using hd
      rw [hfetch]
      rcases key_eq (key_eq_of_place hplace) with hsame | ⟨hm, hs, _⟩ | ⟨hm, hs, _⟩
      · rw [eq_of_distinct hids (hcalls hv) (hcalls hu) hsame]
      · rw [hkind.mpr hs] at hm
        exact absurd hm (by decide)
      · rw [hkind.mp hs] at hm
        exact absurd hm (by decide)
  | zkof s3 tenantId hne =>
      constructor
      · intro h u hu
        obtain ⟨v, hv, hplace, bytes, hstored, hfetch⟩ := fetch_uploaded hu
        have hu' := h u hu
        rw [hfetch] at hu'
        obtain rfl := Except.ok.inj hu'
        -- the upload that is read back was stored as what it was
        have hv' : (PlatformSink.zkof s3 tenantId hne).fetch v _ = .ok v.bytes := h v hv
        rw [fetch_eq, hplace] at hv'
        rw [fetch_eq] at hfetch
        have hb : u.bytes = v.bytes := by
          have hget := okOr_eq_ok.mp hfetch
          rw [hget] at hv'
          exact Except.ok.inj hv'
        have hnil : v.bytes = [] := by
          rw [hb] at hstored
          exact eq_nil_of_sealed_self hstored
        rw [hb, hnil]
      · intro h u hu
        obtain ⟨v, hv, _, bytes, hstored, hfetch⟩ := fetch_uploaded hu
        have hsealed : zkofPatternCSeal P tenantId v.bytes = .ok bytes := hstored
        rw [h v hv, zkofPatternCSeal_nil] at hsealed
        rw [hfetch, h u hu, Except.ok.inj hsealed]

end Returned

/-! ## The manifest of a backup -/

section Manifest

variable {σ : Type} {P : Primitives} {sink : PlatformSink σ} {s : SinkStore σ} {keys : BackupKeys}
  {sealed : SealedBackupManifest}

/-- The hyphenated form of an id starts with a hex digit. -/
theorem head_hyphenated (u : Uuid) : ∃ n rest, n < 16 ∧ u.hyphenated.toList = Nat.digitChar n :: rest := by
  obtain ⟨b, bytes, hb⟩ : ∃ b bytes, u.asBytes = b :: bytes :=
    List.exists_cons_of_ne_nil (by
      have hlen : u.asBytes.length = 16 := by simp [Uuid.asBytes]
      intro hnil
      simp [hnil] at hlen)
  have hlt := b.toNat_lt
  unfold Uuid.hyphenated
  rw [String.toList_intercalate]
  simp only [hb, List.flatMap_cons, Uuid.hexByte, List.cons_append, List.nil_append, List.take_succ_cons,
    List.map_cons, String.toList_ofList, List.intercalate]
  exact ⟨b.toNat / 16, _, by omega, rfl⟩

/-- No manifest of the orchestrator runs into the segments' keys. -/
theorem hyphenated_ne (u : Uuid) (segmentId : String) : u.hyphenated ≠ "segments/" ++ segmentId := by
  intro h
  obtain ⟨n, rest, hn, hrest⟩ := head_hyphenated u
  rw [h, String.toList_append] at hrest
  have hs : 's' = Nat.digitChar n := (List.cons.inj hrest).1
  interval_cases n <;> exact absurd hs (by decide)

/-- The bytes of a sealed manifest that the orchestrator hands to the sink. -/
def bundleBytes (P : Primitives) (keys : BackupKeys) (sealed : SealedBackupManifest) : Bytes :=
  ManifestBundle.encode P (ManifestBundle.fromSealed sealed keys.deviceId)

/-- The orchestrator's upload of a sealed manifest. -/
def manifestUpload (P : Primitives) (keys : BackupKeys) (sealed : SealedBackupManifest) : Upload :=
  ⟨.manifest, sealed.manifest.manifestId.hyphenated, bundleBytes P keys sealed⟩

/-- **The restore gets the manifest back**: the bytes are those uploaded, and they decode to the bundle. -/
structure Restorable (P : Primitives) (sink : PlatformSink σ) (keys : BackupKeys) (sealed : SealedBackupManifest)
    (s : SinkStore σ) : Prop where
  fetched : sink.fetchBackupManifest sealed.manifest.manifestId.hyphenated s = .ok (bundleBytes P keys sealed)
  decoded : ManifestBundle.decode P (bundleBytes P keys sealed) =
    .ok (ManifestBundle.fromSealed sealed keys.deviceId)

/-- The sink seals what it is given once more. -/
def PlatformSink.Reseals (sink : PlatformSink σ) : Prop := ∃ s3 tenantId hne, sink = .zkof s3 tenantId hne

/-- What is fetched for a manifest of the orchestrator is what the sink stored for it. -/
theorem fetch_manifestUpload {calls : List Upload} (hids : DistinctIds calls)
    (hu : manifestUpload P keys sealed ∈ (sink.uploadAll P calls s).1) :
    ∃ bytes, sink.stored P (manifestUpload P keys sealed) = .ok bytes ∧
      sink.fetchBackupManifest sealed.manifest.manifestId.hyphenated (sink.uploadAll P calls s).2 = .ok bytes := by
  obtain ⟨v, hv, hplace, bytes, hstored, hfetch⟩ := fetch_uploaded hu
  rcases key_eq (key_eq_of_place hplace) with hsame | ⟨_, hs, _⟩ | ⟨_, _, hid⟩
  · rw [eq_of_distinct hids (mem_uploaded.mp hv).1 (mem_uploaded.mp hu).1 hsame] at hstored
    exact ⟨bytes, hstored, hfetch⟩
  · exact absurd hs (by simp [manifestUpload])
  · exact absurd hid (hyphenated_ne _ _)

/-- **Which manifests can be restored.** -/
theorem restorable_iff {calls : List Upload} (hids : DistinctIds calls)
    (hu : manifestUpload P keys sealed ∈ (sink.uploadAll P calls s).1) :
    Restorable P sink keys sealed (sink.uploadAll P calls s).2 ↔
      (sink.Reseals → bundleBytes P keys sealed = []) ∧
        (bundleBytes P keys sealed).length ≤ maxManifestBundleBytes := by
  obtain ⟨bytes, hstored, hfetch⟩ := fetch_manifestUpload hids hu
  have hdecode : ManifestBundle.decode P (bundleBytes P keys sealed) =
      .ok (ManifestBundle.fromSealed sealed keys.deviceId) ↔
        (bundleBytes P keys sealed).length ≤ maxManifestBundleBytes :=
    ManifestBundle.decode_encode P sealed keys.deviceId
  constructor
  · rintro ⟨hfetched, hdecoded⟩
    refine ⟨?_, hdecode.mp hdecoded⟩
    rintro ⟨s3, tenantId, hne, rfl⟩
    rw [hfetch] at hfetched
    obtain rfl := Except.ok.inj hfetched
    exact eq_nil_of_sealed_self hstored
  · rintro ⟨hreseals, hlen⟩
    refine ⟨?_, hdecode.mpr hlen⟩
    rw [hfetch]
    cases sink with
    | iCloud bridge => exact hstored.symm
    | android autoBackup saf => exact hstored.symm
    | zkof s3 tenantId hne =>
        have hnil := hreseals ⟨s3, tenantId, hne, rfl⟩
        have hsealed : zkofPatternCSeal P tenantId (bundleBytes P keys sealed) = .ok bytes := hstored
        rw [hnil, zkofPatternCSeal_nil] at hsealed
        rw [hnil, Except.ok.inj hsealed]

/-- A successful incremental backup that uploaded hands the sink its manifest. -/
theorem manifest_of_runIncremental {nowPersistMs : Int} {c c' : Core} {log : BackupSink}
    {r : BackupResult × List SealedBackupEventRef} (hlog : c.backupSink = some log)
    (h : runIncrementalBackupInner P nowPersistMs c = (.ok r, c')) (huploaded : r.1.manifestUploaded = true) :
    ∃ keys sealed log', c'.backup.chainState.previousManifest = some sealed.manifest ∧
      c'.backupSink = some log' ∧ log'.HoldsManifest P keys sealed := by
  rcases runIncrementalBackupInner_cases h with ⟨_, hr⟩ | ⟨keys, batch, tracked, sealed, c₂, ru, hc, hup, hr⟩
  · obtain ⟨rfl, -, -⟩ := hr r rfl
    exact absurd huploaded (by simp [BackupResult.default])
  · have hids : (ledgerIds [tracked]).Nodup := List.nodup_singleton _
    obtain ⟨rb, log', hbundles, rfl, hok⟩ := uploadStep_some (hc.committed.backupSink.trans hlog) hup
    obtain ⟨x, rfl⟩ : ∃ x, ru = .ok x := by
      cases ru with
      | error e => exact absurd hr (by simp [Except.map])
      | ok x => exact ⟨x, rfl⟩
    obtain rfl := hok.mpr ⟨x, rfl⟩
    refine ⟨keys, sealed, log', by rw [hc.committed.chainState], rfl, ?_⟩
    rcases (uploadBundles_cases hids hbundles).2 with ⟨_, _, _, hholds⟩ | ⟨⟨e, he⟩, _⟩
    · exact hholds
    · exact absurd he (by simp)

end Manifest

/-- **Which sinks return what was uploaded.** Over a faithful bridge or store, every sequence of uploads with
distinct ids comes back exactly when the sink can give it back; and the manifest of a successful incremental
backup, uploaded in such a sequence, is decoded by the restore exactly when the sink does not seal it once more
and it is within the restore's cap. -/
theorem sinks_return_iff (P : Primitives) :
    (∀ {σ : Type} (sink : PlatformSink σ) (s : SinkStore σ) (calls : List Upload), DistinctIds calls →
      ((∀ u ∈ (sink.uploadAll P calls s).1, sink.fetch u (sink.uploadAll P calls s).2 = .ok u.bytes) ↔
        sink.GivesBack (sink.uploadAll P calls s).1)) ∧
    ∀ (nowPersistMs : Int) (c c' : Core) (log : BackupSink) (r : BackupResult × List SealedBackupEventRef),
      c.backupSink = some log → runIncrementalBackupInner P nowPersistMs c = (.ok r, c') →
      r.1.manifestUploaded = true →
      ∃ keys sealed log', c'.backup.chainState.previousManifest = some sealed.manifest ∧
        c'.backupSink = some log' ∧ log'.HoldsManifest P keys sealed ∧
        ∀ {σ : Type} (sink : PlatformSink σ) (s : SinkStore σ) (calls : List Upload), DistinctIds calls →
          manifestUpload P keys sealed ∈ (sink.uploadAll P calls s).1 →
          (Restorable P sink keys sealed (sink.uploadAll P calls s).2 ↔
            (sink.Reseals → bundleBytes P keys sealed = []) ∧
              (bundleBytes P keys sealed).length ≤ maxManifestBundleBytes) := by
  refine ⟨fun sink s calls hids => returned_iff hids, fun now c c' log r hlog hrun huploaded => ?_⟩
  obtain ⟨keys, sealed, log', hchain, hlog', hholds⟩ := manifest_of_runIncremental hlog hrun huploaded
  exact ⟨keys, sealed, log', hchain, hlog', hholds, fun sink s calls hids hu => restorable_iff hids hu⟩

/-- A store that holds nothing yet. -/
def noObjects : SinkStore (String → Option Bytes) := ⟨fun _ => none, fun _ => none⟩

/-- The fabric of one tenant, over a map. -/
def exampleFabric : PlatformSink (String → Option Bytes) :=
  .zkof (ObjectStore.ofMap String Bytes) "acme" (by decide)

/-- One byte under a manifest's id. -/
def exampleUpload : Upload := ⟨.manifest, "m", [1]⟩

theorem exampleUpload_uploaded :
    exampleUpload ∈ (exampleFabric.uploadAll Primitives.reference [exampleUpload] noObjects).1 := by
  have hstored : (exampleFabric.stored Primitives.reference exampleUpload).toBool = true := by decide +kernel
  rw [uploadAll_eq, List.mem_filter]
  exact ⟨List.mem_singleton_self _, hstored⟩

/-- The uploads of the example come back from Android's bridges. -/
theorem android_returns :
    ∀ u ∈ ((PlatformSink.android (ObjectStore.ofMap String Bytes) (ObjectStore.ofMap String Bytes)).uploadAll
        Primitives.reference [exampleUpload] noObjects).1,
      (PlatformSink.android (ObjectStore.ofMap String Bytes) (ObjectStore.ofMap String Bytes)).fetch u
        ((PlatformSink.android (ObjectStore.ofMap String Bytes) (ObjectStore.ofMap String Bytes)).uploadAll
          Primitives.reference [exampleUpload] noObjects).2 = .ok u.bytes :=
  ((sinks_return_iff Primitives.reference).1 _ noObjects [exampleUpload] (List.nodup_singleton _)).mpr trivial

/-- What was uploaded to the fabric is not what it returns. -/
theorem fabric_upload_not_returned :
    exampleUpload ∈ (exampleFabric.uploadAll Primitives.reference [exampleUpload] noObjects).1 ∧
      exampleFabric.fetch exampleUpload
        (exampleFabric.uploadAll Primitives.reference [exampleUpload] noObjects).2 ≠ .ok exampleUpload.bytes := by
  refine ⟨exampleUpload_uploaded, fun h => ?_⟩
  have hall : ∀ u ∈ (exampleFabric.uploadAll Primitives.reference [exampleUpload] noObjects).1,
      exampleFabric.fetch u (exampleFabric.uploadAll Primitives.reference [exampleUpload] noObjects).2 =
        .ok u.bytes := by
    intro u hu
    rw [List.mem_singleton.mp (mem_uploaded.mp hu).1]
    exact h
  have hids : DistinctIds [exampleUpload] := List.nodup_singleton _
  have hgives := (returned_iff hids).mp hall
  exact absurd (hgives exampleUpload exampleUpload_uploaded) (by decide)

end KChatCore.Backup
