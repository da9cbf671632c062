import KChatCore.Backup.Faithfulness
import KChatCore.Restore.Fetch

/-!
# `Restore.Recovery` — does a restore recover what was backed up?

A restore fetches what the head manifest lists, and nothing else. A compaction lists the whole new ledger, an
incremental only the segment it has just sealed. So the head covers the ledger exactly when the call that
committed it was a compaction, or an incremental that found the ledger empty.

* `RecoveryInv.next` — what a history keeps true of its head, one call at a time.
* `recovers_iff` — after a history that loses no deletion, a restore from the head recovers the drained journal
  exactly when the head covers the ledger and the bundles are within the wire caps.
-/

namespace KChatCore.Restore

open Backup Lib

/-! ## Recovery -/

/-- **What a restore recovered**: `events` are what it fetched, they tell the history the drained journal
tells, and no segment of the ledger was left out. -/
structure Recovered (P : Primitives) (keys : BackupKeys) (sink : BackupSink) (core : Core)
    (source : BackupSource) (restored : Restored) (events : List BackupEvent) : Prop where
  fetched : fetchedEvents P keys sink restored.manifest.segments = .ok events
  summary : restored.summary = summaryOf [restored.manifest] events source.nowMs source.recencyWindowMs
  history : (messageHistory events).Perm (messageHistory core.db.drained)
  complete : ∀ t ∈ core.backup.chainState.trackedSegments, segmentRef P t.built ∈ restored.manifest.segments

/-- **Restoring from the source recovers the backup**, whatever an earlier restore left behind. -/
def Recovers (P : Primitives) (keys : BackupKeys) (sink : BackupSink) (core : Core) (source : BackupSource) :
    Prop :=
  ∀ db : RestoreDb, ∃ restored db' events, restoreSummary P core source db = (.ok restored, db') ∧
    restoreFromBackupInner P core source db = (.ok restored.result, db') ∧
    Recovered P keys sink core source restored events

/-! ## Which segments the head lists -/

/-- The call commits, provided it succeeds. -/
def commits (c : Core) : BackupCall → Bool
  | .writeJournal .. => false
  | .incremental _ => !(nextBatch c.db).isEmpty
  | .compaction nowMs _ => !(planFor c.backup.chainState.trackedSegments nowMs).groups.isEmpty

/-- The manifest the call commits lists the whole ledger it leaves. -/
def listsLedger (c : Core) : BackupCall → Bool
  | .incremental _ => c.backup.chainState.trackedSegments.isEmpty
  | _ => true

/-- **The head covers the ledger**: the last call that committed listed the whole ledger. -/
def headCovers (tr : List (BackupHistory × BackupCall)) : Bool :=
  (tr.reverse.find? fun p => commits p.1.core p.2).all fun p => listsLedger p.1.core p.2

theorem headCovers_idle {tr : List (BackupHistory × BackupCall)} {s : BackupHistory} {call : BackupCall}
    (h : commits s.core call = false) : headCovers (tr ++ [(s, call)]) = headCovers tr := by
  simp [headCovers, h]

theorem headCovers_commit {tr : List (BackupHistory × BackupCall)} {s : BackupHistory} {call : BackupCall}
    (h : commits s.core call = true) : headCovers (tr ++ [(s, call)]) = listsLedger s.core call := by
  simp [headCovers, h]

/-! ## The head of a history -/

/-- **The head manifest**: the tail in memory, sealed by this device over `listed`, and held by the sink. -/
structure HeadHeld (P : Primitives) (keys : BackupKeys) (core : Core) (sink : BackupSink)
    (listed : List TrackedBackupSegment) (sealed : SealedBackupManifest) : Prop where
  tail : core.backup.chainState.previousManifest = some sealed.manifest
  built : ∃ previous drawn, ManifestBuilt P keys (listed.map TrackedBackupSegment.built) previous drawn sealed
  held : sink.HoldsManifest P keys sealed
  listed_subset : listed ⊆ core.backup.chainState.trackedSegments

/-- The head lists the whole ledger, or misses a segment of it. -/
inductive HeadVerdict (covers : Bool) (ledger listed : List TrackedBackupSegment) : Prop
  | whole : covers = true → listed = ledger → HeadVerdict covers ledger listed
  | partly (t : TrackedBackupSegment) : covers = false → t ∈ ledger → t ∉ listed → HeadVerdict covers ledger listed

/-- **What a history of successful calls keeps true of its head.** -/
structure RecoveryInv (P : Primitives) (keys : BackupKeys) (tr : List (BackupHistory × BackupCall))
    (core : Core) : Prop where
  head : ∀ m, core.backup.chainState.previousManifest = some m → ∃ sink listed sealed,
    core.backupSink = some sink ∧ HeadHeld P keys core sink listed sealed ∧
      HeadVerdict (headCovers tr) core.backup.chainState.trackedSegments listed

section Inv

variable {P : Primitives} {keys : BackupKeys} {tr : List (BackupHistory × BackupCall)} {s : BackupHistory}
  {call : BackupCall} {c₂ c' : Core}

theorem recoveryInv_init (P : Primitives) (keys : BackupKeys) (sink : Option BackupSink) :
    RecoveryInv P keys [] (Core.fresh keys sink) :=
  ⟨fun m hm => absurd hm (by simp [Core.fresh])⟩

/-- A call that does not commit leaves the head as it was. -/
theorem RecoveryInv.idle (h : RecoveryInv P keys tr s.core) (hidle : commits s.core call = false)
    (hbackup : c'.backup = s.core.backup) (hsink : c'.backupSink = s.core.backupSink) :
    RecoveryInv P keys (tr ++ [(s, call)]) c' := by
  constructor
  intro m hm
  rw [hbackup] at hm
  obtain ⟨sink, listed, sealed, hinstalled, hheld, hverdict⟩ := h.head m hm
  refine ⟨sink, listed, sealed, hsink.trans hinstalled, ⟨?_, hheld.built, hheld.held, ?_⟩, ?_⟩
  · rw [hbackup]
    exact hheld.tail
  · rw [hbackup]
    exact hheld.listed_subset
  · rw [hbackup, headCovers_idle hidle]
    exact hverdict

/-- **A commit whose upload succeeds** puts a new head in the sink. -/
theorem RecoveryInv.commit {kept outputs listed : List TrackedBackupSegment} {sealed : SealedBackupManifest}
    {sink : BackupSink} {x : Nat × Bool} (hsink : s.core.backupSink = some sink)
    (hc : Committed P s.core c₂ keys kept outputs listed sealed) (hcommits : commits s.core call = true)
    (hlisted : listed ⊆ kept ++ outputs)
    (hverdict : HeadVerdict (listsLedger s.core call) (kept ++ outputs) listed)
    (hup : uploadStep P keys outputs sealed c₂ = (.ok x, c')) : RecoveryInv P keys (tr ++ [(s, call)]) c' := by
  have hids : (ledgerIds outputs).Nodup := by
    rw [hc.output_ids]
    exact List.Nodup.map Uuid.nowV7_injective List.nodup_range'
  obtain ⟨r, sink', hbundles, rfl, hok⟩ := uploadStep_some (hc.backupSink.trans hsink) hup
  have hr : r = .ok () := hok.mpr ⟨x, rfl⟩
  obtain ⟨-, hcase⟩ := uploadBundles_cases hids hbundles
  have hheld : sink'.HoldsManifest P keys sealed := by
    rcases hcase with ⟨-, -, -, hman⟩ | ⟨⟨e, he⟩, -⟩
    · exact hman
    · exact absurd (hr.symm.trans he) (by simp)
  have hledger : ({ c₂ with backupSink := some sink' } : Core).backup.chainState.trackedSegments =
      kept ++ outputs := by
    show c₂.backup.chainState.trackedSegments = _
    rw [hc.chainState]
  constructor
  intro m _
  refine ⟨sink', listed, sealed, rfl, ⟨?_, ⟨_, _, hc.manifest⟩, hheld, ?_⟩, ?_⟩
  · show c₂.backup.chainState.previousManifest = _
    rw [hc.chainState]
  · rw [hledger]
    exact hlisted
  · rw [hledger, headCovers_commit hcommits]
    exact hverdict

/-- An incremental commit lists what it sealed: the whole ledger only if that was empty. -/
theorem headVerdict_incremental {nowPersistMs : Int} {batch : ReadBatch} {tracked : TrackedBackupSegment}
    {sealed : SealedBackupManifest} (h : CoreInv P keys s.core)
    (hi : IncrementalCommitted P nowPersistMs s.core c₂ keys batch tracked sealed) :
    HeadVerdict (listsLedger s.core (.incremental nowPersistMs))
      (s.core.backup.chainState.trackedSegments ++ [tracked]) [tracked] := by
  rcases hledger : s.core.backup.chainState.trackedSegments with _ | ⟨t, ledger⟩
  · exact .whole (by simp [listsLedger, hledger]) rfl
  · refine .partly t (by simp [listsLedger, hledger]) (by simp) fun hmem => ?_
    -- the sealed segment's id was not drawn before
    obtain rfl := List.mem_singleton.mp hmem
    obtain ⟨n, hn, hid⟩ := h.ids_drawn t (by rw [hledger]; simp)
    obtain ⟨n', hn', -, hid'⟩ := hi.committed.output_drawn (List.mem_singleton.mpr rfl)
    rw [hid, Uuid.nowV7_inj] at hid'
    omega

/-- **A successful call keeps the invariant of the head.** -/
theorem RecoveryInv.next (h : RecoveryInv P keys tr s.core) (hinv : HistoryInv P keys s) {sink : BackupSink}
    (hsink : s.core.backupSink = some sink) (hok : (call.run P s.core).1 = .ok ()) :
    RecoveryInv P keys (tr ++ [(s, call)]) (s.next P call).core := by
  have hout := callOutcome_of_run hinv.core call
  unfold BackupHistory.next
  generalize (call.run P s.core).1 = r at hout hok
  generalize (call.run P s.core).2 = c' at hout ⊢
  have hupload : ∀ {ru : Except Error (Nat × Bool)}, (ru.map fun _ => ()) = .ok () → ∃ x, ru = .ok x := by
    rintro (e | x) hru
    · exact absurd hru (by simp [Except.map])
    · exact ⟨x, rfl⟩
  cases hout with
  | wrote tag conv mid payload ms => exact h.idle rfl rfl rfl
  | idleIncremental hu hidle =>
      exact h.idle (by simp [commits, nextBatch, (hidle hok).2]) hu.backup hu.backupSink
  | idleCompaction hu hidle hwhy => exact h.idle (by simp [commits, (hidle hok).2]) hu.backup hu.backupSink
  | incremental hi hup =>
      obtain ⟨x, rfl⟩ := hupload hok
      have hbatch : nextBatch s.core.db ≠ [] := by
        simp only [nextBatch, hi.read]
        exact (readBatch_eq_some hi.read).1
      exact RecoveryInv.commit hsink hi.committed (by simpa [commits] using hbatch) (List.subset_append_right _ _)
        (headVerdict_incremental hinv.core hi) hup
  | compaction hi hup =>
      obtain ⟨x, rfl⟩ := hupload hok
      exact RecoveryInv.commit hsink hi.committed (by simpa [commits] using hi.planned) (List.Subset.refl _)
        (.whole rfl rfl) hup

/-- Successful calls fit their bundles. -/
theorem fitsBundles_of_ok (hinv : HistoryInv P keys s) {sink : BackupSink} (hsink : s.core.backupSink = some sink)
    (hok : (call.run P s.core).1 = .ok ()) : FitsBundles P s.core call := by
  have hout := callOutcome_of_run hinv.core call
  generalize (call.run P s.core).1 = r at hout hok
  generalize (call.run P s.core).2 = c' at hout
  cases hout with
  | wrote tag conv mid payload ms => trivial
  | idleIncremental hu hidle => trivial
  | idleCompaction hu hidle hwhy =>
      intro _ g hg
      rw [groupEvents, (hidle hok).2] at hg
      exact absurd hg (by simp)
  | incremental hi hup => trivial
  | compaction hi hup =>
      rename_i outputs sealed c₂ ru
      cases ru with
      | error e => exact absurd hok (by simp [Except.map])
      | ok x =>
          have hids : (ledgerIds outputs).Nodup := by
            rw [hi.committed.output_ids]
            exact List.Nodup.map Uuid.nowV7_injective List.nodup_range'
          obtain ⟨r, sink', hbundles, -, hiff⟩ := uploadStep_some (hi.committed.backupSink.trans hsink) hup
          obtain ⟨-, hcase⟩ := uploadBundles_cases hids hbundles
          have hr : r = .ok () := hiff.mpr ⟨x, rfl⟩
          refine hi.fits_iff.mp fun t ht => ?_
          rcases hcase with ⟨-, -, hsegs, -⟩ | ⟨⟨e, he⟩, -⟩
          · obtain ⟨bundle, hb, -⟩ := hsegs t ht
            exact SegmentBundle.fromBuilt_isOk_iff.mp ⟨bundle, hb⟩
          · exact absurd (hr.symm.trans he) (by simp)

end Inv

/-! ## Histories -/

/-- Every call of the trace succeeded. -/
def AllSucceed (P : Primitives) (tr : List (BackupHistory × BackupCall)) : Prop :=
  ∀ p ∈ tr, (p.2.run P p.1.core).1 = .ok ()

/-- No call of the trace lost a deletion. -/
def AllKeepDeletions (P : Primitives) (tr : List (BackupHistory × BackupCall)) : Prop :=
  ∀ p ∈ tr, KeepsDeletions P p.1.core p.2

section Histories

variable {P : Primitives} {keys : BackupKeys} {tr : List (BackupHistory × BackupCall)} {s : BackupHistory}

/-- The sink that takes everything. -/
def acceptingSink : BackupSink := BackupSink.empty fun _ => true

/-- **The head of a history of successful calls**, every one of which fits its bundles. -/
theorem recoveryInv_of_run (hrun : Run (BackupHistory.Step P) (BackupHistory.init keys (some acceptingSink)) tr s)
    (hok : AllSucceed P tr) : RecoveryInv P keys tr s.core ∧ ∀ p ∈ tr, FitsBundles P p.1.core p.2 := by
  induction hrun with
  | refl => exact ⟨recoveryInv_init P keys _, by simp⟩
  | @tail tr s s' call hrun hstep ih =>
      obtain rfl : s.next P call = s' := hstep
      obtain ⟨hinv, sink, hsink, -⟩ := sinkVerdict_of_run hrun
      obtain ⟨hrec, hfits⟩ := ih fun p hp => hok p (by simp [hp])
      have hcall : (call.run P s.core).1 = .ok () := hok (s, call) (by simp)
      refine ⟨hrec.next hinv hsink.installed hcall, fun p hp => ?_⟩
      rcases List.mem_append.mp hp with hp | hp
      · exact hfits p hp
      · rw [List.mem_singleton.mp hp]
        exact fitsBundles_of_ok hinv hsink.installed hcall

/-- **The sink is complete** after a history of successful calls. -/
theorem sinkComplete_of_run
    (hrun : Run (BackupHistory.Step P) (BackupHistory.init keys (some acceptingSink)) tr s)
    (hok : AllSucceed P tr) : ∃ sink, s.core.backupSink = some sink ∧ SinkComplete P keys s sink := by
  obtain ⟨-, sink, hsink, hverdict⟩ := sinkVerdict_of_run hrun
  refine ⟨sink, hsink.installed, ?_⟩
  rcases hverdict with ⟨-, hcomp⟩ | ⟨hnot, -⟩
  · exact hcomp
  · refine absurd ⟨fun n _ => ?_, (recoveryInv_of_run hrun hok).2⟩ hnot
    rw [hsink.accepts_eq]

/-- **The ledger is faithful** after a history of successful calls that lost no deletion. -/
theorem ledgerFaithful_of_run
    (hrun : Run (BackupHistory.Step P) (BackupHistory.init keys (some acceptingSink)) tr s)
    (hok : AllSucceed P tr) (hkeep : AllKeepDeletions P tr) : LedgerFaithful P s.core := by
  induction hrun with
  | refl => exact ledgerFaithful_fresh P keys _
  | @tail tr s s' call hrun hstep ih =>
      obtain rfl : s.next P call = s' := hstep
      obtain ⟨hinv, -⟩ := sinkVerdict_of_run hrun
      have hfaithful := ih (fun p hp => hok p (by simp [hp])) fun p hp => hkeep p (by simp [hp])
      exact hfaithful.next hinv (hok (s, call) (by simp)) (hkeep (s, call) (by simp))

end Histories

/-! ## Restoring from the head -/

section Head

variable {P : Primitives} {keys : BackupKeys} {core : Core} {sink : BackupSink} {source : BackupSource}
  {listed : List TrackedBackupSegment} {sealed : SealedBackupManifest}

theorem HeadHeld.segments_eq (h : HeadHeld P keys core sink listed sealed) :
    sealed.manifest.segments = listed.map fun t => segmentRef P t.built := by
  obtain ⟨previous, drawn, hbuilt⟩ := h.built
  rw [hbuilt.segments_eq, List.map_map]
  rfl

/-- A segment of the ledger that the head does not list is not referenced by it. -/
theorem HeadHeld.not_referenced (h : HeadHeld P keys core sink listed sealed) (hinv : CoreInv P keys core)
    {t : TrackedBackupSegment} (ht : t ∈ core.backup.chainState.trackedSegments) (hnot : t ∉ listed) :
    segmentRef P t.built ∉ sealed.manifest.segments := by
  rw [h.segments_eq]
  intro hmem
  obtain ⟨t', ht', heq⟩ := List.mem_map.mp hmem
  have hid : t'.built.segmentId = t.built.segmentId := congrArg ManifestSegmentRef.segmentId heq
  obtain rfl := List.inj_on_of_nodup_map hinv.ids_nodup (h.listed_subset ht') ht hid
  exact hnot ht'

/-- **A restore from a held head**, within the wire caps, fetches the events of what the head lists. -/
theorem HeadHeld.restore (h : HeadHeld P keys core sink listed sealed) (hinv : CoreInv P keys core)
    (hsink : core.backupSink = some sink)
    (hledger : ∀ t ∈ core.backup.chainState.trackedSegments, sink.HoldsSegment P keys t)
    (hcaps : WithinCaps sink sealed.manifest) (hvalid : validateSource source = .ok ())
    (hid : source.manifestId = sealed.manifest.manifestId) (hdevice : source.deviceId = keys.deviceId)
    (db : RestoreDb) :
    ∃ restored db', restoreSummary P core source db = (.ok restored, db') ∧
      restored.manifest = sealed.manifest ∧
      fetchedEvents P keys sink restored.manifest.segments = .ok (ledgerEvents P listed) ∧
      restored.summary =
        summaryOf [restored.manifest] (ledgerEvents P listed) source.nowMs source.recencyWindowMs := by
  obtain ⟨previous, drawn, hbuilt⟩ := h.built
  have hhead := fetchHead_of_holds hbuilt h.held hid hdevice hcaps.manifest
  -- the sink holds every segment that the head lists
  have hfetch : ∀ t ∈ listed,
      fetchSegment P keys sink (segmentRef P t.built) = .ok (.events, segmentEvents P t) := by
    intro t ht
    have hmem := h.listed_subset ht
    have href : segmentRef P t.built ∈ sealed.manifest.segments := by
      rw [h.segments_eq]
      exact List.mem_map_of_mem ht
    exact fetchSegment_of_holds (hinv.sealed t hmem) (hledger t hmem) (hcaps.segments _ href)
  have hevents : fetchedEvents P keys sink sealed.manifest.segments = .ok (ledgerEvents P listed) := by
    rw [h.segments_eq]
    exact fetchedEvents_of_holds hfetch
  obtain ⟨restored, db', hrestore⟩ := restoreSummary_isOk hvalid hinv.keys_eq hsink hhead
    (fun ref href => by
      have href' : ref ∈ sealed.manifest.segments := href
      rw [h.segments_eq] at href'
      obtain ⟨t, ht, rfl⟩ := List.mem_map.mp href'
      exact ⟨_, _, hfetch t ht, (hinv.sealed t (h.listed_subset ht)).nonempty⟩) db
  -- what the restore read is what the sink holds
  obtain ⟨keys', sink', bundle, events, hkeys', hsink', hhead', hman, hev, -, hsum⟩ :=
    restoreSummary_eq_ok hrestore
  obtain rfl : keys = keys' := Option.some.inj (hinv.keys_eq.symm.trans hkeys')
  obtain rfl : sink = sink' := Option.some.inj (hsink.symm.trans hsink')
  obtain rfl := bundle_of_holds h.held hid hhead'
  have hman' : restored.manifest = sealed.manifest := hman
  obtain rfl : events = ledgerEvents P listed := Except.ok.inj (hev.symm.trans hevents)
  refine ⟨restored, db', hrestore, hman', ?_, ?_⟩
  · rw [hman']
    exact hevents
  · rw [hman]
    exact hsum

end Head

section Recovers

variable {P : Primitives} {keys : BackupKeys} {tr : List (BackupHistory × BackupCall)} {s : BackupHistory}
  {head : BackupManifest} {source : BackupSource}

/-- Restoring from the head recovers only what the head covers, and only within the caps. -/
theorem headCovers_of_recovers
    (hrun : Run (BackupHistory.Step P) (BackupHistory.init keys (some acceptingSink)) tr s)
    (hok : AllSucceed P tr) (hhead : s.chain.getLast? = some head) (hid : source.manifestId = head.manifestId)
    {sink : BackupSink} (hsink : s.core.backupSink = some sink) (hrecovers : Recovers P keys sink s.core source) :
    headCovers tr = true ∧ WithinCaps sink head := by
  obtain ⟨hinv, -⟩ := sinkVerdict_of_run hrun
  obtain ⟨hrec, -⟩ := recoveryInv_of_run hrun hok
  have htail : s.core.backup.chainState.previousManifest = some head := hinv.head.symm.trans hhead
  obtain ⟨sink', listed, sealed, hsink', hheld, hverdict⟩ := hrec.head head htail
  obtain rfl : sink = sink' := Option.some.inj (hsink.symm.trans hsink')
  obtain rfl : sealed.manifest = head := Option.some.inj (hheld.tail.symm.trans htail)
  obtain ⟨restored, db', events, hrestore, -, hr⟩ := hrecovers ⟨none, 0⟩
  obtain ⟨keys', sink', bundle, events', hkeys', hsink', hhead', hman, hev, -, -⟩ :=
    restoreSummary_eq_ok hrestore
  obtain rfl : keys = keys' := Option.some.inj (hinv.core.keys_eq.symm.trans hkeys')
  obtain rfl : sink = sink' := Option.some.inj (hsink.symm.trans hsink')
  have hcaps := withinCaps_of_fetched hhead' hev
  obtain rfl := bundle_of_holds hheld.held hid hhead'
  refine ⟨?_, hcaps⟩
  rcases hverdict with ⟨hcovers, -⟩ | ⟨t, -, ht, hnot⟩
  · exact hcovers
  · -- a segment the head does not list is not among what was restored
    refine absurd (hr.complete t ht) ?_
    rw [hman]
    exact hheld.not_referenced hinv.core ht hnot

/-- A head that covers the ledger recovers the drained journal. -/
theorem recovers_of_headCovers
    (hrun : Run (BackupHistory.Step P) (BackupHistory.init keys (some acceptingSink)) tr s)
    (hok : AllSucceed P tr) (hkeep : AllKeepDeletions P tr) (hhead : s.chain.getLast? = some head)
    (hvalid : validateSource source = .ok ()) (hid : source.manifestId = head.manifestId)
    (hdevice : source.deviceId = keys.deviceId) {sink : BackupSink} (hsink : s.core.backupSink = some sink)
    (hcovers : headCovers tr = true) (hcaps : WithinCaps sink head) : Recovers P keys sink s.core source := by
  obtain ⟨hinv, -⟩ := sinkVerdict_of_run hrun
  obtain ⟨hrec, -⟩ := recoveryInv_of_run hrun hok
  obtain ⟨sink', hsink', hcomp⟩ := sinkComplete_of_run hrun hok
  obtain rfl : sink = sink' := Option.some.inj (hsink.symm.trans hsink')
  have hfaithful := ledgerFaithful_of_run hrun hok hkeep
  have htail : s.core.backup.chainState.previousManifest = some head := hinv.head.symm.trans hhead
  obtain ⟨sink', listed, sealed, hsink', hheld, hverdict⟩ := hrec.head head htail
  obtain rfl : sink = sink' := Option.some.inj (hsink.symm.trans hsink')
  obtain rfl : sealed.manifest = head := Option.some.inj (hheld.tail.symm.trans htail)
  have hwhole : listed = s.core.backup.chainState.trackedSegments := by
    rcases hverdict with ⟨-, hwhole⟩ | ⟨t, hpart, -, -⟩
    · exact hwhole
    · exact absurd (hcovers.symm.trans hpart) (by simp)
  intro db
  obtain ⟨restored, db', hrestore, hman, hfetched, hsummary⟩ :=
    hheld.restore hinv.core hsink hcomp.ledger hcaps hvalid hid hdevice db
  refine ⟨restored, db', ledgerEvents P listed, hrestore, restoreFromBackupInner_eq_ok.mpr ⟨restored, hrestore, rfl⟩, ?_⟩
  constructor
  · exact hfetched
  · exact hsummary
  · rw [hwhole]
    exact hfaithful.history
  · intro t ht
    rw [hman, hheld.segments_eq, hwhole]
    exact List.mem_map_of_mem ht

/-- **Recovery.** After a history of journal writes and successful calls that lost no deletion, over a sink
that takes every upload, restoring from the last committed manifest recovers the drained journal exactly when
that manifest covers the ledger and the bundles it needs are within the wire caps. -/
theorem recovers_iff (hrun : Run (BackupHistory.Step P) (BackupHistory.init keys (some acceptingSink)) tr s)
    (hok : AllSucceed P tr) (hkeep : AllKeepDeletions P tr) (hhead : s.chain.getLast? = some head)
    (hvalid : validateSource source = .ok ()) (hid : source.manifestId = head.manifestId)
    (hdevice : source.deviceId = keys.deviceId) :
    ∃ sink, s.core.backupSink = some sink ∧
      (Recovers P keys sink s.core source ↔ headCovers tr = true ∧ WithinCaps sink head) := by
  obtain ⟨sink, hsink, -⟩ := sinkComplete_of_run hrun hok
  refine ⟨sink, hsink, ?_⟩
  constructor
  · exact headCovers_of_recovers hrun hok hhead hid hsink
  · rintro ⟨hcovers, hcaps⟩
    exact recovers_of_headCovers hrun hok hkeep hhead hvalid hid hdevice hsink hcovers hcaps

end Recovers

/-! ## Two passes -/

/-- A message and a pass. -/
def onePass : List BackupCall :=
  [.writeJournal "message_received" (some (Uuid.toText ⟨1⟩)) (some (Uuid.toText ⟨1⟩)) [] 1, .incremental 1]

/-- A message and a pass, twice. -/
def twoPasses : List BackupCall := twoCalls ++ [.incremental 2]

/-- Where a history starts. -/
def exampleStart : BackupHistory := BackupHistory.init exampleKeys (some acceptingSink)

/-- The history after some calls. -/
def exampleHistory (calls : List BackupCall) : BackupHistory := exampleStart.runCalls Primitives.reference calls

/-- Its trace. -/
def exampleTrace (calls : List BackupCall) : List (BackupHistory × BackupCall) :=
  BackupHistory.trace Primitives.reference exampleStart calls

/-- Restore from the manifest with the draw's id. -/
def sourceOf (drawn : Nat) : BackupSource := ⟨Uuid.nowV7 drawn, "device-A", 1000, 1000⟩

theorem example_run (calls : List BackupCall) :
    Run (BackupHistory.Step Primitives.reference) exampleStart (exampleTrace calls) (exampleHistory calls) :=
  BackupHistory.run_calls _ _ _

instance (P : Primitives) (tr : List (BackupHistory × BackupCall)) : Decidable (AllSucceed P tr) := by
  unfold AllSucceed
  infer_instance

instance (P : Primitives) (tr : List (BackupHistory × BackupCall)) : Decidable (AllKeepDeletions P tr) := by
  unfold AllKeepDeletions
  infer_instance

/-- The head of an example history, from the tail its core keeps. -/
theorem exists_head {calls : List BackupCall} {drawn : Nat}
    (h : (exampleHistory calls).core.backup.chainState.previousManifest.map BackupManifest.manifestId =
      some (Uuid.nowV7 drawn)) :
    ∃ head, (exampleHistory calls).chain.getLast? = some head ∧ (sourceOf drawn).manifestId = head.manifestId := by
  obtain ⟨hinv, -⟩ := sinkVerdict_of_run (example_run calls)
  rw [← hinv.head] at h
  obtain ⟨head, hhead, hid⟩ := Option.map_eq_some_iff.mp h
  exact ⟨head, hhead, hid.symm⟩

set_option maxRecDepth 100000 in
/-- **After two passes a restore from the head misses the first one**, though every call succeeded, every upload
was accepted and nothing was ever deleted. -/
theorem second_pass_hides_first :
    ∃ head sink, AllSucceed Primitives.reference (exampleTrace twoPasses) ∧
      Run (BackupHistory.Step Primitives.reference) exampleStart (exampleTrace twoPasses)
        (exampleHistory twoPasses) ∧
      (exampleHistory twoPasses).chain.getLast? = some head ∧
      (exampleHistory twoPasses).core.backupSink = some sink ∧ validateSource (sourceOf 3) = .ok () ∧
      (sourceOf 3).manifestId = head.manifestId ∧ (sourceOf 3).deviceId = exampleKeys.deviceId ∧
      ¬ Recovers Primitives.reference exampleKeys sink (exampleHistory twoPasses).core (sourceOf 3) := by
  have hok : AllSucceed Primitives.reference (exampleTrace twoPasses) := by decide +kernel
  have hrun := example_run twoPasses
  have headId : (exampleHistory twoPasses).core.backup.chainState.previousManifest.map
      BackupManifest.manifestId = some (Uuid.nowV7 3) := by decide +kernel
  obtain ⟨head, hhead, hid⟩ := exists_head headId
  obtain ⟨sink, hsink, -⟩ := sinkComplete_of_run hrun hok
  refine ⟨head, sink, hok, hrun, hhead, hsink, by decide +kernel, hid, rfl, fun hrecovers => ?_⟩
  -- the head lists the segments of its own pass
  have hcovers := (headCovers_of_recovers hrun hok hhead hid hsink hrecovers).1
  exact absurd hcovers (by decide +kernel)

/-- A sink whose bundles are all within the caps is within them for every manifest. -/
theorem withinCaps_of_all {sink : BackupSink}
    (hmanifests : ∀ p ∈ sink.manifests, p.2.length ≤ maxManifestBundleBytes)
    (hsegments : ∀ p ∈ sink.segments, p.2.length ≤ maxSegmentBundleBytes) (head : BackupManifest) :
    WithinCaps sink head := by
  constructor
  · intro bytes hbytes
    obtain ⟨before, after, heq, -⟩ := List.lookup_eq_some_iff.mp (okOr_eq_ok.mp hbytes)
    exact hmanifests (head.manifestId, bytes) (by simp [heq])
  · intro ref _ bytes hbytes
    obtain ⟨before, after, heq, -⟩ := List.lookup_eq_some_iff.mp (okOr_eq_ok.mp hbytes)
    exact hsegments (ref.segmentId, bytes) (by simp [heq])

set_option maxRecDepth 100000 in
theorem onePass_succeeds : AllSucceed Primitives.reference (exampleTrace onePass) ∧
    AllKeepDeletions Primitives.reference (exampleTrace onePass) ∧ headCovers (exampleTrace onePass) = true := by
  decide +kernel

set_option maxRecDepth 100000 in
theorem onePass_withinCaps : ∃ head sink, (exampleHistory onePass).chain.getLast? = some head ∧
    (sourceOf 1).manifestId = head.manifestId ∧ (exampleHistory onePass).core.backupSink = some sink ∧
    WithinCaps sink head := by
  have headId : (exampleHistory onePass).core.backup.chainState.previousManifest.map
      BackupManifest.manifestId = some (Uuid.nowV7 1) := by decide +kernel
  obtain ⟨head, hhead, hid⟩ := exists_head headId
  obtain ⟨sink, hsink, -⟩ := sinkComplete_of_run (example_run onePass) onePass_succeeds.1
  have hcaps : ((exampleHistory onePass).core.backupSink.all fun sink =>
      sink.manifests.all (fun p => p.2.length ≤ maxManifestBundleBytes) &&
        sink.segments.all fun p => p.2.length ≤ maxSegmentBundleBytes) = true := by decide +kernel
  rw [hsink, Option.all_some, Bool.and_eq_true, List.all_eq_true, List.all_eq_true] at hcaps
  refine ⟨head, sink, hhead, hid, hsink, withinCaps_of_all ?_ ?_ head⟩
  · intro p hp
    exact of_decide_eq_true (hcaps.1 p hp)
  · intro p hp
    exact of_decide_eq_true (hcaps.2 p hp)

/-- After one pass, a restore from the head recovers everything. -/
theorem one_pass_recovers :
    ∃ sink, (exampleHistory onePass).core.backupSink = some sink ∧
      Recovers Primitives.reference exampleKeys sink (exampleHistory onePass).core (sourceOf 1) := by
  obtain ⟨hok, hkeep, hcovers⟩ := onePass_succeeds
  obtain ⟨head, sink, hhead, hid, hsink, hcaps⟩ := onePass_withinCaps
  obtain ⟨sink', hsink', hiff⟩ := recovers_iff (example_run onePass) hok hkeep hhead
    (by decide +kernel : validateSource (sourceOf 1) = .ok ()) hid rfl
  obtain rfl := Option.some.inj (hsink.symm.trans hsink')
  exact ⟨sink, hsink, hiff.mpr ⟨hcovers, hcaps⟩⟩

end KChatCore.Restore
