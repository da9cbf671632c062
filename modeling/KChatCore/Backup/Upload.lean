import KChatCore.Backup.Progress

/-!
# `Backup.Upload` — what an upload leaves in the sink

An upload hands over the segments one by one and then the manifest, and stops at the first refusal. It touches
nothing the sink already holds under other ids.

* `uploadSegments_cases`, `uploadBundles_cases` — either everything was accepted and is held, or an attempt was
  refused or a segment was too large for its bundle.
-/

namespace KChatCore.Backup

open Lib

/-- The sink holds the bundle of the segment. -/
def BackupSink.HoldsSegment (P : Primitives) (keys : BackupKeys) (sink : BackupSink) (t : TrackedBackupSegment) :
    Prop :=
  ∃ bundle, SegmentBundle.fromBuilt P t.built t.kSegment keys.rootKey = .ok bundle ∧
    sink.fetchBackupSegment t.built.segmentId = .ok (SegmentBundle.encode P bundle)

/-- The sink holds the bundle of the sealed manifest. -/
def BackupSink.HoldsManifest (P : Primitives) (keys : BackupKeys) (sink : BackupSink)
    (sealed : SealedBackupManifest) : Prop :=
  sink.fetchBackupManifest sealed.manifest.manifestId =
    .ok (ManifestBundle.encode P (ManifestBundle.fromSealed sealed keys.deviceId))

/-- **What an upload cannot do**: change the sink's mind, or what it holds under other ids. -/
structure SinkGrown (sink sink' : BackupSink) (segmentIds manifestIds : List Uuid) : Prop where
  accepts : sink'.accepts = sink.accepts
  attempts : sink.attempts ≤ sink'.attempts
  segments : ∀ id, id ∉ segmentIds → sink'.segments.lookup id = sink.segments.lookup id
  manifests : ∀ id, id ∉ manifestIds → sink'.manifests.lookup id = sink.manifests.lookup id

/-- Some attempt made in between was refused. -/
def RefusedBetween (sink sink' : BackupSink) : Prop :=
  ∃ n, sink.attempts ≤ n ∧ n < sink'.attempts ∧ sink.accepts n = false

/-- Every attempt made in between was accepted. -/
def AcceptedBetween (sink sink' : BackupSink) : Prop :=
  ∀ n, sink.attempts ≤ n → n < sink'.attempts → sink.accepts n = true

theorem SinkGrown.refl (sink : BackupSink) (is js : List Uuid) : SinkGrown sink sink is js :=
  ⟨rfl, le_rfl, fun _ _ => rfl, fun _ _ => rfl⟩

theorem SinkGrown.trans {sink sink₁ sink₂ : BackupSink} {is is' js js' ks ls : List Uuid}
    (h : SinkGrown sink sink₁ is js) (h' : SinkGrown sink₁ sink₂ is' js') (hi : is ⊆ ks) (hi' : is' ⊆ ks)
    (hj : js ⊆ ls) (hj' : js' ⊆ ls) : SinkGrown sink sink₂ ks ls where
  accepts := h'.accepts.trans h.accepts
  attempts := h.attempts.trans h'.attempts
  segments := by
    intro id hid
    rw [h'.segments id fun hm => hid (hi' hm), h.segments id fun hm => hid (hi hm)]
  manifests := by
    intro id hid
    rw [h'.manifests id fun hm => hid (hj' hm), h.manifests id fun hm => hid (hj hm)]

theorem AcceptedBetween.trans {sink sink₁ sink₂ : BackupSink} (haccepts : sink₁.accepts = sink.accepts)
    (h : AcceptedBetween sink sink₁) (h' : AcceptedBetween sink₁ sink₂) : AcceptedBetween sink sink₂ := by
  intro n hlo hhi
  by_cases hn : n < sink₁.attempts
  · exact h n hlo hn
  · rw [← haccepts]
    exact h' n (not_lt.mp hn) hhi

section Upload

variable {P : Primitives} {keys : BackupKeys} {sink sink' : BackupSink}

theorem lookup_cons_ne {id id' : Uuid} (h : id ≠ id') (bytes : Bytes) (l : List (Uuid × Bytes)) :
    List.lookup id ((id', bytes) :: l) = l.lookup id := by
  have hbeq : (id == id') = false := beq_eq_false_iff_ne.mpr h
  simp only [List.lookup, hbeq]

/-- One segment. -/
theorem uploadSegment_cases {t : TrackedBackupSegment} {r : Except Error Unit}
    (h : uploadSegment P keys sink t = (r, sink')) :
    SinkGrown sink sink' [t.built.segmentId] [] ∧
      ((r = .ok () ∧ AcceptedBetween sink sink' ∧ sink'.HoldsSegment P keys t) ∨
        ((∃ e, r = .error e) ∧ (RefusedBetween sink sink' ∨ u32Max < t.built.eventCount))) := by
  unfold uploadSegment at h
  cases hb : SegmentBundle.fromBuilt P t.built t.kSegment keys.rootKey with
  | error e =>
      simp only [hb, Prod.mk.injEq] at h
      obtain ⟨rfl, rfl⟩ := h
      refine ⟨SinkGrown.refl _ _ _, Or.inr ⟨⟨e, rfl⟩, Or.inr ?_⟩⟩
      by_contra hle
      obtain ⟨bundle, hok⟩ : ∃ bundle, SegmentBundle.fromBuilt P t.built t.kSegment keys.rootKey = .ok bundle :=
        SegmentBundle.fromBuilt_isOk_iff.mpr (not_lt.mp hle)
      rw [hb] at hok
      exact absurd hok (by simp)
  | ok bundle =>
      simp only [hb, BackupSink.uploadBackupSegment] at h
      by_cases hacc : sink.accepts sink.attempts = true
      · rw [if_pos hacc, Prod.mk.injEq] at h
        obtain ⟨rfl, rfl⟩ := h
        refine ⟨⟨rfl, Nat.le_succ _, fun id hid => lookup_cons_ne (by simpa using hid) _ _, fun _ _ => rfl⟩,
          Or.inl ⟨rfl, fun n hlo hhi => ?_, bundle, hb, ?_⟩⟩
        · obtain rfl : n = sink.attempts := le_antisymm (Nat.le_of_lt_succ hhi) hlo
          exact hacc
        · rw [BackupSink.fetchBackupSegment, List.lookup_cons_self]
          rfl
      · rw [if_neg hacc, Prod.mk.injEq] at h
        obtain ⟨rfl, rfl⟩ := h
        refine ⟨⟨rfl, Nat.le_succ _, fun _ _ => rfl, fun _ _ => rfl⟩, Or.inr ⟨⟨_, rfl⟩, Or.inl ?_⟩⟩
        exact ⟨sink.attempts, le_rfl, Nat.lt_succ_self _, by simpa using hacc⟩

/-- What the sink holds stays while other ids are uploaded. -/
theorem BackupSink.HoldsSegment.grown {t : TrackedBackupSegment} {is js : List Uuid}
    (h : sink.HoldsSegment P keys t) (hg : SinkGrown sink sink' is js) (hid : t.built.segmentId ∉ is) :
    sink'.HoldsSegment P keys t := by
  obtain ⟨bundle, hb, hfetch⟩ := h
  refine ⟨bundle, hb, ?_⟩
  rw [BackupSink.fetchBackupSegment, hg.segments _ hid]
  exact hfetch

theorem BackupSink.HoldsManifest.grown {sealed : SealedBackupManifest} {is js : List Uuid}
    (h : sink.HoldsManifest P keys sealed) (hg : SinkGrown sink sink' is js)
    (hid : sealed.manifest.manifestId ∉ js) : sink'.HoldsManifest P keys sealed := by
  unfold BackupSink.HoldsManifest at h ⊢
  rw [BackupSink.fetchBackupManifest, hg.manifests _ hid]
  exact h

/-- **The segments**: all accepted and held, or stopped by a refusal or an oversized segment. -/
theorem uploadSegments_cases {outputs : List TrackedBackupSegment} {r : Except Error Unit}
    (hids : (ledgerIds outputs).Nodup) (h : uploadSegments P keys sink outputs = (r, sink')) :
    SinkGrown sink sink' (ledgerIds outputs) [] ∧
      ((r = .ok () ∧ AcceptedBetween sink sink' ∧ ∀ t ∈ outputs, sink'.HoldsSegment P keys t) ∨
        ((∃ e, r = .error e) ∧ (RefusedBetween sink sink' ∨ ∃ t ∈ outputs, u32Max < t.built.eventCount))) := by
  induction outputs generalizing sink with
  | nil =>
      obtain ⟨rfl, rfl⟩ := Prod.mk.inj h
      refine ⟨SinkGrown.refl _ _ _, Or.inl ⟨rfl, fun n hlo hhi => ?_, by simp⟩⟩
      omega
  | cons t outputs ih =>
      unfold uploadSegments at h
      rcases ht : uploadSegment P keys sink t with ⟨rt, sink₁⟩
      rw [ht] at h
      obtain ⟨hg₁, hcase₁⟩ := uploadSegment_cases ht
      rw [ledgerIds, List.map_cons, List.nodup_cons] at hids
      obtain ⟨hnew, hids⟩ := hids
      rcases hcase₁ with ⟨rfl, hacc₁, hholds₁⟩ | ⟨⟨e, rfl⟩, hwhy⟩
      · simp only at h
        obtain ⟨hg, hcase⟩ := ih hids h
        refine ⟨hg₁.trans hg (by simp [ledgerIds]) (by simp [ledgerIds]) (by simp) (by simp), ?_⟩
        rcases hcase with ⟨rfl, hacc, hholds⟩ | ⟨he, hwhy⟩
        · refine Or.inl ⟨rfl, hacc₁.trans hg₁.accepts hacc, fun t' ht' => ?_⟩
          rcases List.mem_cons.mp ht' with rfl | ht'
          · exact hholds₁.grown hg hnew
          · exact hholds t' ht'
        · refine Or.inr ⟨he, hwhy.imp ?_ ?_⟩
          · rintro ⟨n, hlo, hhi, hn⟩
            exact ⟨n, hg₁.attempts.trans hlo, hhi, by rw [← hg₁.accepts]; exact hn⟩
          · rintro ⟨t', ht', hlt⟩
            exact ⟨t', List.mem_cons_of_mem _ ht', hlt⟩
      · simp only [Prod.mk.injEq] at h
        obtain ⟨rfl, rfl⟩ := h
        refine ⟨hg₁.trans (SinkGrown.refl _ [] []) (by simp [ledgerIds]) (by simp) (by simp) (by simp),
          Or.inr ⟨⟨e, rfl⟩, hwhy.imp id fun hlt => ⟨t, by simp, hlt⟩⟩⟩

/-- **The segments and the manifest.** -/
theorem uploadBundles_cases {outputs : List TrackedBackupSegment} {sealed : SealedBackupManifest}
    {r : Except Error Unit} (hids : (ledgerIds outputs).Nodup)
    (h : uploadBundles P keys sink outputs sealed = (r, sink')) :
    SinkGrown sink sink' (ledgerIds outputs) [sealed.manifest.manifestId] ∧
      ((r = .ok () ∧ AcceptedBetween sink sink' ∧ (∀ t ∈ outputs, sink'.HoldsSegment P keys t) ∧
          sink'.HoldsManifest P keys sealed) ∨
        ((∃ e, r = .error e) ∧ sink'.manifests.lookup sealed.manifest.manifestId =
            sink.manifests.lookup sealed.manifest.manifestId ∧
          (RefusedBetween sink sink' ∨ ∃ t ∈ outputs, u32Max < t.built.eventCount))) := by
  unfold uploadBundles at h
  rcases hs : uploadSegments P keys sink outputs with ⟨rs, sink₁⟩
  rw [hs] at h
  obtain ⟨hg₁, hcase₁⟩ := uploadSegments_cases hids hs
  rcases hcase₁ with ⟨rfl, hacc₁, hholds₁⟩ | ⟨⟨e, rfl⟩, hwhy⟩
  · simp only [BackupSink.uploadBackupManifest] at h
    by_cases hacc : sink₁.accepts sink₁.attempts = true
    · rw [if_pos hacc, Prod.mk.injEq] at h
      obtain ⟨rfl, rfl⟩ := h
      have hg : SinkGrown sink₁ { sink₁ with
          manifests := (sealed.manifest.manifestId,
            ManifestBundle.encode P (ManifestBundle.fromSealed sealed keys.deviceId)) :: sink₁.manifests
          attempts := sink₁.attempts + 1 } [] [sealed.manifest.manifestId] :=
        ⟨rfl, Nat.le_succ _, fun _ _ => rfl, fun id hid => lookup_cons_ne (by simpa using hid) _ _⟩
      refine ⟨hg₁.trans hg (by simp) (by simp) (by simp) (by simp), Or.inl ⟨rfl, ?_, ?_, ?_⟩⟩
      · refine hacc₁.trans hg₁.accepts fun n hlo hhi => ?_
        obtain rfl : n = sink₁.attempts := le_antisymm (Nat.le_of_lt_succ hhi) hlo
        exact hacc
      · intro t ht
        exact (hholds₁ t ht).grown hg (by simp)
      · rw [BackupSink.HoldsManifest, BackupSink.fetchBackupManifest, List.lookup_cons_self]
        rfl
    · rw [if_neg hacc, Prod.mk.injEq] at h
      obtain ⟨rfl, rfl⟩ := h
      have hg : SinkGrown sink₁ { sink₁ with attempts := sink₁.attempts + 1 } [] [] :=
        ⟨rfl, Nat.le_succ _, fun _ _ => rfl, fun _ _ => rfl⟩
      refine ⟨hg₁.trans hg (by simp) (by simp) (by simp) (by simp), Or.inr ⟨⟨_, rfl⟩, ?_, Or.inl ?_⟩⟩
      · exact hg₁.manifests _ (by simp)
      · exact ⟨sink₁.attempts, hg₁.attempts, Nat.lt_succ_self _, by rw [← hg₁.accepts]; simpa using hacc⟩
  · simp only [Prod.mk.injEq] at h
    obtain ⟨rfl, rfl⟩ := h
    exact ⟨hg₁.trans (SinkGrown.refl _ [] []) (by simp) (by simp) (by simp) (by simp),
      Or.inr ⟨⟨e, rfl⟩, hg₁.manifests _ (by simp), hwhy⟩⟩

end Upload

end KChatCore.Backup
