import KChatCore.Backup.History

/-!
# `Backup.SinkCompleteness` — does the sink hold what the chain references?

A call commits before it uploads, and no later call uploads anything but its own objects. So one refused upload
leaves a manifest of the chain missing for good, whatever later calls report.

* `SinkComplete` — every manifest of the chain, every segment one of them references and every segment of the
  ledger is in the sink.
* `sinkComplete_iff` — that is so exactly when no attempt was ever refused and no compaction re-sealed a group
  too large for its bundle.
-/

namespace KChatCore.Backup

open Lib

/-- **The sink holds the chain and the ledger.** -/
structure SinkComplete (P : Primitives) (keys : BackupKeys) (s : BackupHistory) (sink : BackupSink) : Prop where
  manifests : ∀ m ∈ s.chain, ∃ sealed, sealed.manifest = m ∧ sink.HoldsManifest P keys sealed
  references : ∀ m ∈ s.chain, ∀ ref ∈ m.segments, ∃ t, segmentRef P t.built = ref ∧ sink.HoldsSegment P keys t
  ledger : ∀ t ∈ s.core.backup.chainState.trackedSegments, sink.HoldsSegment P keys t

/-- A manifest of the chain is missing from the sink. -/
def ManifestMissing (s : BackupHistory) (sink : BackupSink) : Prop :=
  ∃ m ∈ s.chain, sink.manifests.lookup m.manifestId = none

/-- **The condition on a call**: a compaction that gets to commit re-seals no group of more than `u32::MAX`
events. -/
def FitsBundles (P : Primitives) (c : Core) : BackupCall → Prop
  | .compaction nowMs _ =>
      nextGeneration c.backup.chainState.previousManifest ≤ u64Max →
        ∀ g ∈ groupEvents P c.backup.chainState.trackedSegments nowMs,
          (backupTombstones.resolve g).length ≤ u32Max
  | _ => True

instance (P : Primitives) (c : Core) (call : BackupCall) : Decidable (FitsBundles P c call) := by
  cases call <;> unfold FitsBundles <;> infer_instance

/-- What a history keeps true of its sink. -/
structure SinkInv (s : BackupHistory) (accepts : Nat → Bool) (sink : BackupSink) : Prop where
  installed : s.core.backupSink = some sink
  accepts_eq : sink.accepts = accepts
  undrawn : ∀ n, s.core.drawn ≤ n → sink.manifests.lookup (Uuid.nowV7 n) = none

section Commit

variable {P : Primitives} {keys : BackupKeys} {s : BackupHistory} {accepts : Nat → Bool} {sink : BackupSink}
  {c₂ c' : Core} {kept outputs listed : List TrackedBackupSegment} {sealed : SealedBackupManifest}
  {ru : Except Error (Nat × Bool)}

/-- A missing manifest is a hole in the chain. -/
theorem ManifestMissing.not_complete (h : ManifestMissing s sink) : ¬ SinkComplete P keys s sink := by
  intro hc
  obtain ⟨m, hm, hnone⟩ := h
  obtain ⟨sealed, rfl, hholds⟩ := hc.manifests m hm
  rw [BackupSink.HoldsManifest, BackupSink.fetchBackupManifest, hnone] at hholds
  exact absurd hholds (by simp)

theorem uploadStep_some {c : Core} (hs : c.backupSink = some sink)
    (h : uploadStep P keys outputs sealed c = (ru, c')) :
    ∃ r sink', uploadBundles P keys sink outputs sealed = (r, sink') ∧ c' = { c with backupSink := some sink' } ∧
      (r = .ok () ↔ ∃ x, ru = .ok x) := by
  unfold uploadStep at h
  simp only [hs] at h
  rcases hu : uploadBundles P keys sink outputs sealed with ⟨r, sink'⟩
  rw [hu] at h
  cases r with
  | error e =>
      obtain ⟨rfl, rfl⟩ := Prod.mk.inj h
      exact ⟨.error e, sink', rfl, rfl, by simp⟩
  | ok u =>
      obtain ⟨rfl, rfl⟩ := Prod.mk.inj h
      exact ⟨.ok u, sink', rfl, rfl, by simp⟩

/-- **What a commit and its upload do to the sink.** Accepted, it keeps the sink complete; otherwise the new
manifest is missing. What was missing stays missing. -/
theorem sinkInv_commit (h : HistoryInv P keys s) (hsink : SinkInv s accepts sink)
    (hc : Committed P s.core c₂ keys kept outputs listed sealed) (hlisted : listed ⊆ kept ++ outputs)
    (hup : uploadStep P keys outputs sealed c₂ = (ru, c')) :
    ∃ sink', SinkInv ⟨c', s.chain ++ [sealed.manifest]⟩ accepts sink' ∧ sink.attempts ≤ sink'.attempts ∧
      ((AcceptedBetween sink sink' ∧ (∀ t ∈ outputs, t.built.eventCount ≤ u32Max) ∧
          (SinkComplete P keys s sink → SinkComplete P keys ⟨c', s.chain ++ [sealed.manifest]⟩ sink')) ∨
        ((RefusedBetween sink sink' ∨ ∃ t ∈ outputs, u32Max < t.built.eventCount) ∧
          ManifestMissing ⟨c', s.chain ++ [sealed.manifest]⟩ sink')) ∧
      (ManifestMissing s sink → ManifestMissing ⟨c', s.chain ++ [sealed.manifest]⟩ sink') := by
  have hids : (ledgerIds outputs).Nodup := by
    rw [hc.output_ids]
    exact List.Nodup.map Uuid.nowV7_injective List.nodup_range'
  obtain ⟨r, sink', hbundles, rfl, _⟩ := uploadStep_some (hc.backupSink.trans hsink.installed) hup
  obtain ⟨hg, hcase⟩ := uploadBundles_cases hids hbundles
  have hidm : sealed.manifest.manifestId = Uuid.nowV7 (s.core.drawn + outputs.length) := hc.manifest.id
  -- what was drawn before keeps its bundle
  have hold_manifest : ∀ n < s.core.drawn, Uuid.nowV7 n ∉ [sealed.manifest.manifestId] := by
    intro n hn hmem
    rw [List.mem_singleton, hidm, Uuid.nowV7_inj] at hmem
    omega
  have hold_segment : ∀ n < s.core.drawn, Uuid.nowV7 n ∉ ledgerIds outputs := by
    intro n hn hmem
    rw [hc.output_ids, List.mem_map] at hmem
    obtain ⟨n', hn', heq⟩ := hmem
    rw [List.mem_range'_1] at hn'
    rw [Uuid.nowV7_inj] at heq
    omega
  have hholds : ∀ t, (∃ n < s.core.drawn, t.built.segmentId = Uuid.nowV7 n) → sink.HoldsSegment P keys t →
      sink'.HoldsSegment P keys t := by
    rintro t ⟨n, hn, hid⟩ ht
    exact ht.grown hg (hid ▸ hold_segment n hn)
  refine ⟨sink', ⟨rfl, hg.accepts.trans hsink.accepts_eq, fun n hn => ?_⟩, hg.attempts, ?_, ?_⟩
  · show sink'.manifests.lookup (Uuid.nowV7 n) = none
    have hd : s.core.drawn + outputs.length + 1 ≤ n := hc.drawn ▸ hn
    rw [hg.manifests, hsink.undrawn n (by omega)]
    rw [List.mem_singleton, hidm, Uuid.nowV7_inj]
    omega
  · rcases hcase with ⟨_, hacc, hsegs, hman⟩ | ⟨_, hsame, hwhy⟩
    · refine Or.inl ⟨hacc, fun t ht => ?_, fun hcomp => ?_⟩
      · obtain ⟨bundle, hb, _⟩ := hsegs t ht
        exact SegmentBundle.fromBuilt_isOk_iff.mp ⟨bundle, hb⟩
      · have hledger : ∀ t ∈ kept ++ outputs, sink'.HoldsSegment P keys t := by
          intro t ht
          rcases List.mem_append.mp ht with hk | ho
          · have hmem := hc.kept_sublist.subset hk
            exact hholds t (h.core.ids_drawn t hmem) (hcomp.ledger t hmem)
          · exact hsegs t ho
        refine ⟨fun m hm => ?_, fun m hm ref href => ?_, ?_⟩
        · rcases List.mem_append.mp hm with hold | hnew
          · obtain ⟨sealed', rfl, hh⟩ := hcomp.manifests m hold
            obtain ⟨n, hn, hid⟩ := h.chain_drawn _ hold
            exact ⟨sealed', rfl, hh.grown hg (hid ▸ hold_manifest n hn)⟩
          · exact ⟨sealed, (List.mem_singleton.mp hnew).symm, hman⟩
        · rcases List.mem_append.mp hm with hold | hnew
          · obtain ⟨t, rfl, hh⟩ := hcomp.references m hold ref href
            exact ⟨t, rfl, hholds t (h.refs_drawn m hold _ href) hh⟩
          · rw [List.mem_singleton.mp hnew, hc.manifest.segments_eq, List.map_map] at href
            obtain ⟨t, ht, rfl⟩ := List.mem_map.mp href
            exact ⟨t, rfl, hledger t (hlisted ht)⟩
        · intro t ht
          rw [show ({ c₂ with backupSink := some sink' } : Core).backup = c₂.backup from rfl,
            hc.chainState] at ht
          exact hledger t ht
    · refine Or.inr ⟨hwhy, sealed.manifest, by simp, ?_⟩
      rw [hsame, hidm]
      exact hsink.undrawn _ (Nat.le_add_right _ _)
  · rintro ⟨m, hm, hnone⟩
    obtain ⟨n, hn, hid⟩ := h.chain_drawn m hm
    exact ⟨m, List.mem_append_left _ hm, by rw [hg.manifests _ (hid ▸ hold_manifest n hn)]; exact hnone⟩

end Commit

/-! ## Oversized groups -/

section Oversized

variable {P : Primitives} {keys : BackupKeys} {nowMs nowPersistMs : Int} {c c' : Core}

/-- A batch never overflows a bundle. -/
theorem IncrementalCommitted.fits {batch : ReadBatch} {tracked : TrackedBackupSegment}
    {sealed : SealedBackupManifest} (h : IncrementalCommitted P nowPersistMs c c' keys batch tracked sealed) :
    tracked.built.eventCount ≤ u32Max := by
  have hcount := (h.committed.outputs_sealed tracked (by simp)).count
  have hlen : batch.events.length ≤ maxEventsPerBackupSegment := by
    have hread := h.read
    unfold readBatch at hread
    cases hr : c.db.readUnsegmented maxEventsPerBackupSegment with
    | error e => simp [hr, Except.map] at hread
    | ok out =>
        obtain ⟨_, hout⟩ := collectRows_eq_ok.mp hr
        simp only [hr, Except.map, Except.ok.injEq] at hread
        obtain ⟨last, _, rfl⟩ := Option.map_eq_some_iff.mp hread
        rw [List.length_map, hout]
        exact (List.length_filterMap_le _ _).trans (List.length_take_le _ _)
  rw [hcount, h.events]
  exact hlen.trans (by decide)

/-- A compaction's outputs fit their bundles exactly when its groups' survivors do. -/
theorem CompactionCommitted.fits_iff {outputs : List TrackedBackupSegment} {sealed : SealedBackupManifest}
    (h : CompactionCommitted P nowMs nowPersistMs c c' keys outputs sealed) :
    (∀ t ∈ outputs, t.built.eventCount ≤ u32Max) ↔ FitsBundles P c (.compaction nowMs nowPersistMs) := by
  have hgen := (chainLink_isOk_iff P _).mp ⟨_, h.committed.manifest.link⟩
  have hlists : ∀ l, l ∈ outputs.map (segmentEvents P) ↔
      (∃ g ∈ groupEvents P c.backup.chainState.trackedSegments nowMs, backupTombstones.resolve g = l) ∧
        l.isEmpty = false := by
    intro l
    rw [h.survivors, survivorLists, List.mem_filter, List.mem_map]
    simp
  constructor
  · intro hfit _ g hg
    by_cases hemp : (backupTombstones.resolve g).isEmpty = true
    · rw [List.isEmpty_iff.mp hemp]
      exact Nat.zero_le _
    · have hmem := (hlists (backupTombstones.resolve g)).mpr ⟨⟨g, hg, rfl⟩, by simpa using hemp⟩
      obtain ⟨t, ht, heq⟩ := List.mem_map.mp hmem
      rw [← heq, ← (h.committed.outputs_sealed t ht).count]
      exact hfit t ht
  · intro hfit t ht
    obtain ⟨⟨g, hg, heq⟩, _⟩ := (hlists _).mp (List.mem_map_of_mem ht)
    rw [(h.committed.outputs_sealed t ht).count, ← heq]
    exact hfit hgen g hg

end Oversized

/-! ## Histories -/

section Histories

variable {P : Primitives} {keys : BackupKeys} {accepts : Nat → Bool}

/-- Nothing has gone wrong: every attempt so far was accepted, and every call of the trace fits its bundles. -/
def AllUploaded (P : Primitives) (sink : BackupSink) (tr : List (BackupHistory × BackupCall)) : Prop :=
  (∀ n < sink.attempts, sink.accepts n = true) ∧ ∀ p ∈ tr, FitsBundles P p.1.core p.2

/-- Either nothing has gone wrong and the sink is complete, or something has and a manifest is missing. -/
def SinkVerdict (P : Primitives) (keys : BackupKeys) (tr : List (BackupHistory × BackupCall)) (s : BackupHistory)
    (sink : BackupSink) : Prop :=
  (AllUploaded P sink tr ∧ SinkComplete P keys s sink) ∨ (¬ AllUploaded P sink tr ∧ ManifestMissing s sink)

/-- A step without an upload leaves the verdict as it is. -/
theorem SinkVerdict.idle {tr : List (BackupHistory × BackupCall)} {s : BackupHistory} {sink : BackupSink}
    {call : BackupCall} {c' : Core} (h : SinkVerdict P keys tr s sink) (hfits : FitsBundles P s.core call)
    (hchain : c'.backup = s.core.backup) :
    SinkVerdict P keys (tr ++ [(s, call)]) ⟨c', s.chain ++ BackupHistory.newTail s.core c'⟩ sink := by
  have hnil : BackupHistory.newTail s.core c' = [] := if_pos (by rw [hchain])
  have hall : AllUploaded P sink (tr ++ [(s, call)]) ↔ AllUploaded P sink tr := by
    unfold AllUploaded
    refine and_congr_right fun _ => ⟨fun hf p hp => hf p (by simp [hp]), fun hf p hp => ?_⟩
    rcases List.mem_append.mp hp with hp | hp
    · exact hf p hp
    · rw [List.mem_singleton.mp hp]
      exact hfits
  rw [hnil, List.append_nil, SinkVerdict, hall]
  refine h.imp (And.imp id fun hc => ⟨hc.manifests, hc.references, ?_⟩) (And.imp id id)
  rw [show (BackupHistory.mk c' s.chain).core.backup = s.core.backup from hchain]
  exact hc.ledger

/-- A commit decides it: accepted and fitting, the verdict stays; otherwise the sink is incomplete from here. -/
theorem SinkVerdict.commit {tr : List (BackupHistory × BackupCall)} {s : BackupHistory} {sink : BackupSink}
    {call : BackupCall} {c₂ c' : Core} {kept outputs listed : List TrackedBackupSegment}
    {sealed : SealedBackupManifest} {ru : Except Error (Nat × Bool)} (h : HistoryInv P keys s)
    (hsink : SinkInv s accepts sink) (hv : SinkVerdict P keys tr s sink)
    (hc : Committed P s.core c₂ keys kept outputs listed sealed) (hlisted : listed ⊆ kept ++ outputs)
    (hfits : (∀ t ∈ outputs, t.built.eventCount ≤ u32Max) ↔ FitsBundles P s.core call)
    (hup : uploadStep P keys outputs sealed c₂ = (ru, c')) :
    ∃ sink', SinkInv ⟨c', s.chain ++ BackupHistory.newTail s.core c'⟩ accepts sink' ∧
      SinkVerdict P keys (tr ++ [(s, call)]) ⟨c', s.chain ++ BackupHistory.newTail s.core c'⟩ sink' := by
  rw [hc.newTail_eq (uploadStep_frame hup).2.1]
  obtain ⟨sink', hinv, hle, hcase, hmissing⟩ := sinkInv_commit h hsink hc hlisted hup
  refine ⟨sink', hinv, ?_⟩
  have haccepts : sink'.accepts = sink.accepts := hinv.accepts_eq.trans hsink.accepts_eq.symm
  rcases hcase with ⟨hacc, hfit, hcomp⟩ | ⟨hwhy, hmiss⟩
  · -- accepted: what decides is what came before
    have hall : AllUploaded P sink' (tr ++ [(s, call)]) ↔ AllUploaded P sink tr := by
      unfold AllUploaded
      rw [haccepts]
      constructor
      · rintro ⟨ha, hf⟩
        exact ⟨fun n hn => ha n (by omega), fun p hp => hf p (by simp [hp])⟩
      · rintro ⟨ha, hf⟩
        refine ⟨fun n hn => ?_, fun p hp => ?_⟩
        · by_cases hold : n < sink.attempts
          · exact ha n hold
          · exact hacc n (not_lt.mp hold) hn
        · rcases List.mem_append.mp hp with hp | hp
          · exact hf p hp
          · rw [List.mem_singleton.mp hp]
            exact hfits.mp hfit
    rw [SinkVerdict, hall]
    exact hv.imp (And.imp id hcomp) (And.imp id hmissing)
  · refine Or.inr ⟨?_, hmiss⟩
    rintro ⟨ha, hf⟩
    rcases hwhy with ⟨n, _, hn, hrefused⟩ | ⟨t, ht, hlt⟩
    · rw [← haccepts, ha n hn] at hrefused
      exact absurd hrefused (by simp)
    · have hfit := hfits.mpr (hf (s, call) (by simp)) t ht
      omega

/-- **Along a history the verdict holds.** -/
theorem sinkVerdict_of_run {tr : List (BackupHistory × BackupCall)} {s : BackupHistory}
    (hrun : Run (BackupHistory.Step P) (BackupHistory.init keys (some (BackupSink.empty accepts))) tr s) :
    HistoryInv P keys s ∧ ∃ sink, SinkInv s accepts sink ∧ SinkVerdict P keys tr s sink := by
  induction hrun with
  | refl =>
      refine ⟨historyInv_init P keys _, BackupSink.empty accepts, ⟨rfl, rfl, fun n _ => rfl⟩,
        Or.inl ⟨⟨fun n hn => ?_, by simp⟩, by simp [BackupHistory.init], by simp [BackupHistory.init],
          by simp [BackupHistory.init, Core.fresh]⟩⟩
      exact absurd hn (Nat.not_lt_zero n)
  | @tail tr s s' call _ hstep ih =>
      obtain ⟨hinv, sink, hsink, hv⟩ := ih
      obtain rfl : s.next P call = s' := hstep
      refine ⟨hinv.next call, ?_⟩
      have hout := callOutcome_of_run hinv.core call
      unfold BackupHistory.next
      generalize (call.run P s.core).1 = r at hout
      generalize (call.run P s.core).2 = c' at hout ⊢
      cases hout with
      | wrote tag conv mid payload ms =>
          exact ⟨sink, ⟨hsink.installed, hsink.accepts_eq, hsink.undrawn⟩, hv.idle trivial rfl⟩
      | idleIncremental hu hok =>
          exact ⟨sink, ⟨hu.backupSink.trans hsink.installed, hsink.accepts_eq,
            fun n hn => hsink.undrawn n (hu.drawn.trans hn)⟩, hv.idle trivial hu.backup⟩
      | idleCompaction hu hok hwhy =>
          refine ⟨sink, ⟨hu.backupSink.trans hsink.installed, hsink.accepts_eq,
            fun n hn => hsink.undrawn n (hu.drawn.trans hn)⟩, hv.idle (fun hroom g hg => ?_) hu.backup⟩
          rcases hwhy with hnone | hfull
          · rw [groupEvents, hnone] at hg
            exact absurd hg (by simp)
          · omega
      | incremental hi hup =>
          refine SinkVerdict.commit hinv hsink hv hi.committed (List.subset_append_right _ _) ?_ hup
          exact iff_of_true (fun t ht => by rw [List.mem_singleton.mp ht]; exact hi.fits) trivial
      | compaction hi hup =>
          exact SinkVerdict.commit hinv hsink hv hi.committed (List.Subset.refl _) hi.fits_iff hup

/-- **Sink completeness.** After any history over a sink that refuses whatever attempts it likes, the committed
manifests are one chain that ends in the tail, and the sink holds all of them, every segment they reference and
every segment of the ledger exactly when no attempt was refused and every call fitted its bundles. -/
theorem sinkComplete_iff {tr : List (BackupHistory × BackupCall)} {s : BackupHistory}
    (hrun : Run (BackupHistory.Step P) (BackupHistory.init keys (some (BackupSink.empty accepts))) tr s) :
    ∃ sink, s.core.backupSink = some sink ∧ sink.accepts = accepts ∧ LinearChain P s.chain ∧
      s.chain.getLast? = s.core.backup.chainState.previousManifest ∧
      (SinkComplete P keys s sink ↔
        (∀ n < sink.attempts, accepts n = true) ∧ ∀ p ∈ tr, FitsBundles P p.1.core p.2) := by
  obtain ⟨hinv, sink, hsink, hv⟩ := sinkVerdict_of_run hrun
  refine ⟨sink, hsink.installed, hsink.accepts_eq, hinv.linear, hinv.head, ?_⟩
  rw [← hsink.accepts_eq]
  show _ ↔ AllUploaded P sink tr
  rcases hv with ⟨hall, hcomp⟩ | ⟨hnot, hmiss⟩
  · exact iff_of_true hcomp hall
  · exact iff_of_false hmiss.not_complete hnot

end Histories

/-! ## A refused manifest -/

/-- Two messages, a pass after each. -/
def twoCalls : List BackupCall :=
  [.writeJournal "message_received" (some (Uuid.toText ⟨1⟩)) (some (Uuid.toText ⟨1⟩)) [] 1, .incremental 1,
    .writeJournal "message_received" (some (Uuid.toText ⟨1⟩)) (some (Uuid.toText ⟨2⟩)) [] 2]

/-- The sink refuses its second attempt, the manifest of the first pass. -/
def refusesSecond : Nat → Bool := fun n => n != 1

/-- The history before the second pass. -/
def beforeSecondPass (accepts : Nat → Bool) : BackupHistory :=
  (BackupHistory.init exampleKeys (some (BackupSink.empty accepts))).runCalls Primitives.reference twoCalls

set_option maxRecDepth 100000 in
/-- **A later pass reports its manifest uploaded while an earlier manifest is missing.** -/
theorem refused_manifest_stays_missing :
    (runIncrementalBackupInner Primitives.reference 2 (beforeSecondPass refusesSecond).core).1.toOption.map
        (fun x => x.1.manifestUploaded) = some true ∧
      ∃ tr sink, Run (BackupHistory.Step Primitives.reference)
          (BackupHistory.init exampleKeys (some (BackupSink.empty refusesSecond))) tr
          ((beforeSecondPass refusesSecond).next Primitives.reference (.incremental 2)) ∧
        ((beforeSecondPass refusesSecond).next Primitives.reference (.incremental 2)).core.backupSink = some sink ∧
        ¬ SinkComplete Primitives.reference exampleKeys
          ((beforeSecondPass refusesSecond).next Primitives.reference (.incremental 2)) sink := by
  refine ⟨by decide +kernel, ?_⟩
  have hrun := (BackupHistory.run_calls Primitives.reference
    (BackupHistory.init exampleKeys (some (BackupSink.empty refusesSecond))) twoCalls).tail
      (show BackupHistory.Step Primitives.reference (beforeSecondPass refusesSecond) (.incremental 2) _ from rfl)
  obtain ⟨_, sink, hsink, hv⟩ := sinkVerdict_of_run hrun
  refine ⟨_, sink, hrun, hsink.installed, ?_⟩
  -- two passes upload four bundles, so the second one was attempted
  have hattempts : ((((beforeSecondPass refusesSecond).next Primitives.reference
      (.incremental 2)).core.backupSink.map BackupSink.attempts).getD 0) = 4 := by decide +kernel
  rw [hsink.installed] at hattempts
  rcases hv with ⟨hall, _⟩ | ⟨_, hmiss⟩
  · have hone := hall.1 1 (by
      rw [show sink.attempts = 4 from hattempts]
      decide)
    rw [hsink.accepts_eq] at hone
    exact absurd hone (by decide)
  · exact hmiss.not_complete

set_option maxRecDepth 100000 in
/-- With a sink that accepts everything, the sink is complete after both passes. -/
theorem accepted_passes_complete :
    ∃ sink, ((beforeSecondPass fun _ => true).next Primitives.reference (.incremental 2)).core.backupSink =
        some sink ∧
      SinkComplete Primitives.reference exampleKeys
        ((beforeSecondPass fun _ => true).next Primitives.reference (.incremental 2)) sink := by
  obtain ⟨sink, hsome, _, _, _, hiff⟩ := sinkComplete_iff ((BackupHistory.run_calls Primitives.reference
    (BackupHistory.init exampleKeys (some (BackupSink.empty fun _ => true))) twoCalls).tail
      (show BackupHistory.Step Primitives.reference (beforeSecondPass fun _ => true) (.incremental 2) _ from rfl))
  exact ⟨sink, hsome, hiff.mpr ⟨fun _ _ => rfl, by decide +kernel⟩⟩

end KChatCore.Backup
