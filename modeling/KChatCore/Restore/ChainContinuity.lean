import KChatCore.Restore.ManifestVerifier
import KChatCore.Restore.Recovery

/-!
# `Restore.ChainContinuity` — the manifest chain after a restore

A restore writes the restore state and nothing else: the coordinator keeps the chain tail it had. So the next
incremental chains under that tail, whatever manifest was restored.

* `continuesChain_iff` — it continues the restored chain exactly when the tail already was the restored manifest.
-/

namespace KChatCore.Restore

open Backup Lib

/-- **The tail continues the chain of `M`**: it is the next generation, it carries the hash of `M`, and an accepted
chain that ends in `M` is accepted with it on top. -/
structure ContinuesChain (P : Primitives) (keys : BackupKeys) (M : BackupManifest) (tail : BackupManifest) :
    Prop where
  generation : tail.generation = M.generation + 1
  previousHash : tail.previousManifestHash = computeManifestHash P M
  accepted : ∀ old, verifyManifestChain P (P.verifyingKey keys.signingKey) old = .ok () →
    old.getLast? = some M → verifyManifestChain P (P.verifyingKey keys.signingKey) (old ++ [tail]) = .ok ()

/-- The core a restore leaves: it has drawn entropy, and that is all. -/
def restoredCore (core : Core) (db : RestoreDb) : Core := { core with drawn := db.drawn }

section Between

variable {P : Primitives} {core c' : Core} {s : BackupHistory} {tr : List (BackupHistory × BackupCall)}

/-- A call leaves the coordinator as it was, or commits a tail under the same keys. -/
theorem run_backup_cases (call : BackupCall) (c : Core) :
    (call.run P c).2.backup = c.backup ∨
      ((call.run P c).2.backup.backupKeys = c.backup.backupKeys ∧
        ∃ m, (call.run P c).2.backup.chainState.previousManifest = some m) := by
  cases call with
  | writeJournal tag conv mid payload ms => exact Or.inl rfl
  | incremental nowPersistMs =>
      rcases hrun : runIncrementalBackupInner P nowPersistMs c with ⟨r, c'⟩
      simp only [BackupCall.run, hrun]
      rcases runIncrementalBackupInner_cases hrun with ⟨hu, -⟩ | ⟨keys, batch, t, sealed, c₂, ru, hi, hup, -⟩
      · exact Or.inl hu.backup
      · right
        rw [(uploadStep_frame hup).2.1]
        exact ⟨hi.committed.backupKeys, sealed.manifest, by rw [hi.committed.chainState]⟩
  | compaction nowMs nowPersistMs =>
      rcases hrun : compactBackup P nowMs nowPersistMs c with ⟨r, c'⟩
      simp only [BackupCall.run, hrun]
      rcases compactBackup_cases hrun with ⟨hu, -⟩ | ⟨keys, tally, sealed, c₂, ru, hi, hup, -⟩
      · exact Or.inl hu.backup
      · right
        rw [(uploadStep_frame hup).2.1]
        exact ⟨hi.committed.backupKeys, sealed.manifest, by rw [hi.committed.chainState]⟩

/-- Calls that commit no manifest keep the tail and the keys. -/
theorem tail_of_quiet (hrun : Run (BackupHistory.Step P) ⟨core, []⟩ tr s)
    (hquiet : ∀ p ∈ tr, BackupHistory.newTail p.1.core (p.2.run P p.1.core).2 = []) :
    s.core.backup.backupKeys = core.backup.backupKeys ∧
      s.core.backup.chainState.previousManifest = core.backup.chainState.previousManifest := by
  induction hrun with
  | refl => exact ⟨rfl, rfl⟩
  | @tail tr s s' call _ hstep ih =>
      obtain rfl : s.next P call = s' := hstep
      obtain ⟨hkeys, htail⟩ := ih fun p hp => hquiet p (by simp [hp])
      have hnil := hquiet (s, call) (by simp)
      show (call.run P s.core).2.backup.backupKeys = _ ∧
        (call.run P s.core).2.backup.chainState.previousManifest = _
      rcases run_backup_cases (P := P) call s.core with hsame | ⟨hkeys', m, hm⟩
      · rw [hsame]
        exact ⟨hkeys, htail⟩
      · refine ⟨hkeys'.trans hkeys, ?_⟩
        -- a tail was committed, so it is the one that was there
        unfold BackupHistory.newTail at hnil
        split at hnil
        · rename_i heq
          exact heq.trans htail
        · rw [hm] at hnil
          exact absurd hnil (by simp)

end Between

section Continues

variable {P : Primitives} {keys : BackupKeys} {core c' : Core} {source : BackupSource} {db db' : RestoreDb}
  {restored : Restored} {s : BackupHistory} {tr : List (BackupHistory × BackupCall)} {nowMs : Int}
  {res : BackupResult × List SealedBackupEventRef} {M : BackupManifest}

/-- **The tail an incremental leaves** is chained under the tail it found. -/
theorem incremental_chains (hkeys : s.core.backup.backupKeys = some keys)
    (hrun : runIncrementalBackupInner P nowMs s.core = (.ok res, c')) (hnew : res.1.manifestGeneration ≠ none) :
    ∃ m, c'.backup.chainState.previousManifest = some m ∧
      chainLink P s.core.backup.chainState.previousManifest = .ok (m.generation, m.previousManifestHash) ∧
      verifyBackupManifest P m (P.verifyingKey keys.signingKey) = .ok () := by
  rcases runIncrementalBackupInner_cases hrun with ⟨-, hok⟩ | ⟨keys', batch, t, sealed, c₂, ru, hi, hup, -⟩
  · obtain ⟨rfl, -⟩ := hok res rfl
    exact absurd rfl hnew
  · obtain rfl : keys = keys' := Option.some.inj (hkeys.symm.trans hi.committed.keys_eq)
    refine ⟨sealed.manifest, ?_, hi.committed.manifest.link, hi.committed.manifest.verifies⟩
    rw [(uploadStep_frame hup).2.1, hi.committed.chainState]

/-- **Continuity of a single link.** -/
theorem continuesChain_of_link {previous : Option BackupManifest} {m : BackupManifest}
    (hlink : chainLink P previous = .ok (m.generation, m.previousManifestHash))
    (hverify : verifyBackupManifest P m (P.verifyingKey keys.signingKey) = .ok ()) :
    ContinuesChain P keys M m ↔
      ∃ tail, previous = some tail ∧ tail.generation = M.generation ∧
        computeManifestHash P tail = computeManifestHash P M := by
  rcases previous with _ | tail
  · rw [chainLink, Except.ok.injEq, Prod.mk.injEq] at hlink
    constructor
    · intro h
      have hgen := h.generation
      omega
    · rintro ⟨tail, htail, -⟩
      exact absurd htail (by simp)
  · rw [chainLink] at hlink
    by_cases hroom : tail.generation + 1 ≤ u64Max
    · rw [if_pos hroom, Except.ok.injEq, Prod.mk.injEq] at hlink
      obtain ⟨hgen, hhash⟩ := hlink
      constructor
      · intro h
        refine ⟨tail, rfl, ?_, hhash.trans h.previousHash⟩
        have hM := h.generation
        omega
      · rintro ⟨tail', htail', hgenM, hhashM⟩
        obtain rfl := Option.some.inj htail'
        refine ⟨by omega, hhash.symm.trans hhashM, ?_⟩
        intro old hold hlast
        obtain ⟨-, hlinear, hall⟩ := verifyManifestChain_eq_ok.mp hold
        refine verifyManifestChain_push hlinear hall ?_ hverify
        rw [hlast, chainLink, if_pos (by omega), ← hhashM, hhash, ← hgenM, hgen]
    · rw [if_neg hroom] at hlink
      exact absurd hlink (by simp)

/-- **Chain continuity across a restore.** After a successful restore of `M` and any writes and calls that commit
no manifest, the manifest of the next incremental continues the chain of `M` exactly when the core's tail before
the restore already had `M`'s generation and hash. -/
theorem continuesChain_iff (hkeys : core.backup.backupKeys = some keys)
    (hrestore : restoreSummary P core source db = (.ok restored, db'))
    (hbetween : Run (BackupHistory.Step P) ⟨restoredCore core db', []⟩ tr s)
    (hquiet : ∀ p ∈ tr, BackupHistory.newTail p.1.core (p.2.run P p.1.core).2 = [])
    (hrun : runIncrementalBackupInner P nowMs s.core = (.ok res, c')) (hnew : res.1.manifestGeneration ≠ none) :
    restored.manifest.manifestId = source.manifestId ∧
      ∃ m, c'.backup.chainState.previousManifest = some m ∧
        (ContinuesChain P keys restored.manifest m ↔
          ∃ tail, core.backup.chainState.previousManifest = some tail ∧
            tail.generation = restored.manifest.generation ∧
            computeManifestHash P tail = computeManifestHash P restored.manifest) := by
  obtain ⟨keys', sink, bundle, events, -, -, hhead, hman, -⟩ := restoreSummary_eq_ok hrestore
  obtain ⟨-, -, -, hid⟩ := manifestId_of_fetchHead hhead
  obtain ⟨hkeysBetween, htail⟩ := tail_of_quiet hbetween hquiet
  -- the next manifest chains on the tail of the core, whatever was restored
  obtain ⟨m, hm, hlink, hverify⟩ := incremental_chains (hkeysBetween.trans hkeys) hrun hnew
  refine ⟨by rw [hman]; exact hid, m, hm, ?_⟩
  rw [htail] at hlink
  exact continuesChain_of_link hlink hverify

end Continues

/-! ## A restore on a new device -/

section Examples

/-- A restore looks at the installed keys and the sink only. -/
theorem restoreSummary_congr {P : Primitives} {core core' : Core} (source : BackupSource)
    (hkeys : core'.backup.backupKeys = core.backup.backupKeys) (hsink : core'.backupSink = core.backupSink) :
    restoreSummary P core' source = restoreSummary P core source := by
  unfold restoreSummary Coordinator.requireKeys
  rw [hkeys, hsink]

/-- With something to drain and a sink that takes everything, an incremental produces a manifest. -/
theorem incremental_succeeds {P : Primitives} {keys : BackupKeys} {c : Core} (h : CoreInv P keys c)
    (hbatch : nextBatch c.db ≠ []) (hroom : nextGeneration c.backup.chainState.previousManifest ≤ u64Max)
    {sink : BackupSink} (hsink : c.backupSink = some sink) (haccepts : ∀ n, sink.accepts n = true) (nowMs : Int) :
    ∃ res c', runIncrementalBackupInner P nowMs c = (.ok res, c') ∧ res.1.manifestGeneration ≠ none := by
  obtain ⟨batch, hread⟩ : ∃ batch, readBatch c.db = .ok (some batch) := by
    unfold nextBatch at hbatch
    split at hbatch
    · rename_i batch hread
      exact ⟨batch, hread⟩
    · exact absurd rfl hbatch
  rcases hrun : runIncrementalBackupInner P nowMs c with ⟨r, c'⟩
  obtain ⟨tracked, sealed, c₂, ru, hi, hup, rfl⟩ := runIncrementalBackupInner_commits h hread hroom hrun
  have hids : (ledgerIds [tracked]).Nodup := by simp [ledgerIds]
  obtain ⟨r, sink', hbundles, -, hiff⟩ := uploadStep_some (hi.committed.backupSink.trans hsink) hup
  obtain ⟨-, hcase⟩ := uploadBundles_cases hids hbundles
  rcases hcase with ⟨hr, -⟩ | ⟨-, -, hwhy⟩
  · obtain ⟨x, rfl⟩ := hiff.mp hr
    exact ⟨_, c', rfl, by simp [incrementalResult]⟩
  · exfalso
    rcases hwhy with ⟨n, -, -, hrefused⟩ | ⟨t, ht, hlarge⟩
    · rw [haccepts n] at hrefused
      exact absurd hrefused (by simp)
    · rw [List.mem_singleton.mp ht] at hlarge
      exact absurd hi.fits (not_le.mpr hlarge)

/-- The write that follows a restore. -/
def nextMessage : BackupCall :=
  .writeJournal "message_received" (some (Uuid.toText ⟨1⟩)) (some (Uuid.toText ⟨2⟩)) [] 2

/-- A new device: the keys installed, the sink at hand, nothing in the store. -/
def newDevice (sink : BackupSink) : Core := Core.fresh exampleKeys (some sink)

set_option maxRecDepth 100000 in
/-- The backup of one pass: its sink, its head, and a restore of it into any core that has the keys and the sink. -/
theorem onePass_restores :
    ∃ sink head, (exampleHistory onePass).core.backupSink = some sink ∧ (∀ n, sink.accepts n = true) ∧
      (exampleHistory onePass).core.backup.chainState.previousManifest = some head ∧ head.generation = 0 ∧
      ∀ (core : Core) (db : RestoreDb), core.backup.backupKeys = some exampleKeys → core.backupSink = some sink →
        ∃ restored db', restoreSummary Primitives.reference core (sourceOf 1) db = (.ok restored, db') ∧
          restored.manifest = head := by
  obtain ⟨hok, hkeep, hcovers⟩ := onePass_succeeds
  have hrun := example_run onePass
  obtain ⟨head, sink, hhead, hid, hsink, hcaps⟩ := onePass_withinCaps
  obtain ⟨hinv, sink', hsinkInv, -⟩ := sinkVerdict_of_run hrun
  obtain rfl : sink = sink' := Option.some.inj (hsink.symm.trans hsinkInv.installed)
  have htail : (exampleHistory onePass).core.backup.chainState.previousManifest = some head :=
    hinv.head.symm.trans hhead
  have hgen : (exampleHistory onePass).core.backup.chainState.previousManifest.map
      BackupManifest.generation = some 0 := by decide +kernel
  rw [htail, Option.map_some, Option.some.injEq] at hgen
  refine ⟨sink, head, hsink, ?_, htail, hgen, ?_⟩
  · intro n
    rw [hsinkInv.accepts_eq]
  · intro core db hkeys hsink'
    obtain ⟨restored, db', events, hrestore, -⟩ := recovers_of_headCovers hrun hok hkeep hhead
      (by decide +kernel : validateSource (sourceOf 1) = .ok ()) hid rfl hsink hcovers hcaps db
    rw [← restoreSummary_congr (sourceOf 1) (hkeys.trans hinv.core.keys_eq.symm) (hsink'.trans hsink.symm)] at hrestore
    refine ⟨restored, db', hrestore, ?_⟩
    obtain ⟨keys', sink', bundle, _, hkeys', hsink₂, hfetch, hman, -⟩ := restoreSummary_eq_ok hrestore
    obtain rfl : exampleKeys = keys' := Option.some.inj (hkeys.symm.trans hkeys')
    obtain rfl : sink = sink' := Option.some.inj (hsink'.symm.trans hsink₂)
    obtain ⟨hrec, -⟩ := recoveryInv_of_run hrun hok
    obtain ⟨sink', listed, sealed, hsink₃, hheld, -⟩ := hrec.head head htail
    obtain rfl : sink = sink' := Option.some.inj (hsink.symm.trans hsink₃)
    obtain rfl : sealed.manifest = head := Option.some.inj (hheld.tail.symm.trans htail)
    obtain rfl := bundle_of_holds hheld.held hid hfetch
    exact hman

/-- A write after a restore is a run. -/
theorem nextMessage_run (core : Core) :
    Run (BackupHistory.Step Primitives.reference) ⟨core, []⟩ [(⟨core, []⟩, nextMessage)]
      ((⟨core, []⟩ : BackupHistory).next Primitives.reference nextMessage) :=
  .tail .refl rfl

/-- The tail of a core is in memory; a write does not touch it. -/
theorem nextMessage_quiet (core : Core) :
    ∀ p ∈ [((⟨core, []⟩ : BackupHistory), nextMessage)],
      BackupHistory.newTail p.1.core (p.2.run Primitives.reference p.1.core).2 = [] := by
  intro p hp
  rw [List.mem_singleton.mp hp]
  show BackupHistory.newTail core (core.insertJournal _ _ _ _ _) = []
  unfold BackupHistory.newTail
  exact if_pos rfl

/-- A core with the write after it. -/
def withNextMessage (core : Core) : Core :=
  ((⟨core, []⟩ : BackupHistory).next Primitives.reference nextMessage).core

set_option maxRecDepth 100000 in
/-- The write is there to drain, on a new device and on the old one. -/
theorem nextMessage_pending : nextBatch (withNextMessage (Core.fresh exampleKeys none)).db ≠ [] ∧
    nextBatch (withNextMessage (exampleHistory onePass).core).db ≠ [] := by
  decide +kernel

/-- The core after a restore and a write still satisfies the invariant. -/
theorem coreInv_nextMessage {core : Core} {restored : Restored} {db' : RestoreDb}
    (h : CoreInv Primitives.reference exampleKeys core)
    (hrestore : restoreSummary Primitives.reference core (sourceOf 1) ⟨none, core.drawn⟩ = (.ok restored, db')) :
    CoreInv Primitives.reference exampleKeys
      (withNextMessage (restoredCore core db')) := by
  have hdrawn : core.drawn ≤ db'.drawn := by
    have hdraws : RestoreM.DrawsOn (restoreSummary Primitives.reference core (sourceOf 1)) := drawsOn_restoreSummary
    have h := hdraws ⟨none, core.drawn⟩
    rw [hrestore] at h
    exact h
  have hinv : CoreInv Primitives.reference exampleKeys (restoredCore core db') := h.of_eq rfl rfl hdrawn
  exact hinv.insertJournal _ _ _ _ _

/-- **On a new device the chain is re-rooted**: after a restore, the next pass leaves a manifest of generation 0. -/
theorem restore_reroots :
    ∃ (sink : BackupSink) (head tail : BackupManifest) (restored : Restored) (db' : RestoreDb)
      (res : BackupResult × List SealedBackupEventRef) (c' : Core),
      (exampleHistory onePass).core.backup.chainState.previousManifest = some head ∧
      restoreSummary Primitives.reference (newDevice sink) (sourceOf 1) ⟨none, 0⟩ = (.ok restored, db') ∧
      restored.manifest = head ∧
      runIncrementalBackupInner Primitives.reference 3 (withNextMessage (restoredCore (newDevice sink) db')) =
        (.ok res, c') ∧
      c'.backup.chainState.previousManifest = some tail ∧ tail.generation = 0 ∧
      ¬ ContinuesChain Primitives.reference exampleKeys restored.manifest tail := by
  obtain ⟨sink, head, -, haccepts, htail, hgen, hrestores⟩ := onePass_restores
  obtain ⟨restored, db', hrestore, hman⟩ := hrestores (newDevice sink) ⟨none, 0⟩ rfl rfl
  have hinv := coreInv_nextMessage (coreInv_fresh Primitives.reference exampleKeys (some sink)) hrestore
  have hsink : (withNextMessage (restoredCore (newDevice sink) db')).backupSink = some sink := rfl
  -- a restored core has no tail in its coordinator
  have htailNone : (withNextMessage (restoredCore (newDevice sink) db')).backup.chainState.previousManifest = none :=
    rfl
  obtain ⟨res, c', hrun, hnew⟩ := incremental_succeeds hinv nextMessage_pending.1 (Nat.zero_le _) hsink haccepts 3
  have hrun' : runIncrementalBackupInner Primitives.reference 3
      ((⟨restoredCore (newDevice sink) db', []⟩ : BackupHistory).next Primitives.reference nextMessage).core =
        (.ok res, c') := hrun
  obtain ⟨m, hm, hlink, hverify⟩ := incremental_chains hinv.keys_eq hrun' hnew
  refine ⟨sink, head, m, restored, db', res, c', htail, hrestore, hman, hrun, hm, ?_, ?_⟩
  · have hlink' : chainLink Primitives.reference none = .ok (m.generation, m.previousManifestHash) := hlink
    rw [chainLink, Except.ok.injEq, Prod.mk.injEq] at hlink'
    exact hlink'.1.symm
  · intro hcont
    obtain ⟨tail, htail', -⟩ := (continuesChain_of_link hlink hverify).mp hcont
    exact absurd (htailNone.symm.trans htail') (by simp)

/-- **On the device that made the backup the chain goes on** after a restore of its head. -/
theorem own_head_continues :
    ∃ (head tail : BackupManifest) (restored : Restored) (db' : RestoreDb)
      (res : BackupResult × List SealedBackupEventRef) (c' : Core),
      restoreSummary Primitives.reference (exampleHistory onePass).core (sourceOf 1)
        ⟨none, (exampleHistory onePass).core.drawn⟩ = (.ok restored, db') ∧
      restored.manifest = head ∧
      runIncrementalBackupInner Primitives.reference 3
        (withNextMessage (restoredCore (exampleHistory onePass).core db')) = (.ok res, c') ∧
      c'.backup.chainState.previousManifest = some tail ∧
      ContinuesChain Primitives.reference exampleKeys head tail := by
  obtain ⟨sink, head, hsink, haccepts, htail, hgen, hrestores⟩ := onePass_restores
  obtain ⟨hinvOnce, -⟩ := sinkVerdict_of_run (example_run onePass)
  have hcore := hinvOnce.core
  obtain ⟨restored, db', hrestore, rfl⟩ := hrestores _ ⟨none, (exampleHistory onePass).core.drawn⟩ hcore.keys_eq hsink
  have hinv := coreInv_nextMessage hcore hrestore
  have hroom : nextGeneration
      (withNextMessage (restoredCore (exampleHistory onePass).core db')).backup.chainState.previousManifest ≤
        u64Max := by
    show nextGeneration (exampleHistory onePass).core.backup.chainState.previousManifest ≤ u64Max
    rw [htail]
    show restored.manifest.generation + 1 ≤ u64Max
    rw [hgen]
    decide
  have hsink' : (withNextMessage (restoredCore (exampleHistory onePass).core db')).backupSink = some sink := hsink
  obtain ⟨res, c', hrun, hnew⟩ := incremental_succeeds hinv nextMessage_pending.2 hroom hsink' haccepts 3
  obtain ⟨-, m, hm, hiff⟩ := continuesChain_iff hcore.keys_eq hrestore (nextMessage_run _) (nextMessage_quiet _)
    hrun hnew
  refine ⟨restored.manifest, m, restored, db', res, c', hrestore, rfl, hrun, hm, hiff.mpr ?_⟩
  exact ⟨restored.manifest, htail, rfl, rfl⟩

end Examples

end KChatCore.Restore
