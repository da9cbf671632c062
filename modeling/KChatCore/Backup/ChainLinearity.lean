import KChatCore.Backup.Interleaving

/-!
# `Backup.ChainLinearity` — the manifest chain while calls interleave

A call reads the chain tail from memory, persists a manifest built on it, and only then puts that manifest into
memory. Two calls that read the same tail fork the chain, and commits out of order leave memory behind the
database.

* `ChainedOnTail` — the condition on a step that excludes both: what is persisted was built on the persisted tail.
* `LinearChain` — generations count up from zero and every manifest carries the hash of the one before it.
* `linear_of_chainedOnTail` — in a run whose persists are all chained on the tail, the persisted manifests are a
  linear chain, and whenever no call is between its persist and its commit, memory and database agree.

The invariant behind it: at most one call is between its persist and its commit, and its commit is exactly what
memory lacks.
-/

namespace KChatCore.Backup

open Lib

/-! ## Linear chains -/

/-- **A single chain**: the `k`-th manifest has generation `k` and the hash of the `(k-1)`-th. -/
structure LinearChain (P : Primitives) (ms : List BackupManifest) : Prop where
  generation : ∀ (k : Nat) (m : BackupManifest), ms[k]? = some m → m.generation = k
  genesis : ∀ m : BackupManifest, ms[0]? = some m → m.previousManifestHash = genesisPreviousHash
  link : ∀ (k : Nat) (prev m : BackupManifest), ms[k]? = some prev → ms[k + 1]? = some m →
    m.previousManifestHash = computeManifestHash P prev

theorem linearChain_nil (P : Primitives) : LinearChain P [] := ⟨by simp, by simp, by simp⟩

/-- **A chain grows by a manifest linked to its tail.** -/
theorem LinearChain.push {P : Primitives} {ms : List BackupManifest} (h : LinearChain P ms) {m : BackupManifest}
    (hlink : chainLink P ms.getLast? = .ok (m.generation, m.previousManifestHash)) : LinearChain P (ms ++ [m]) := by
  rcases ms.eq_nil_or_concat' with rfl | ⟨init, last, rfl⟩
  · rw [List.getLast?_nil, chainLink, Except.ok.injEq, Prod.mk.injEq] at hlink
    obtain ⟨hgen, hhash⟩ := hlink
    refine ⟨fun k m' hk => ?_, fun m' h0 => ?_, fun k prev m' hk hk' => ?_⟩
    · rw [List.nil_append, List.getElem?_singleton] at hk
      split at hk
      · rename_i h0
        rw [Option.some.injEq] at hk
        rw [← hk, ← hgen, h0]
      · exact absurd hk (by simp)
    · rw [List.nil_append, List.getElem?_singleton, if_pos rfl, Option.some.injEq] at h0
      rw [← h0, hhash]
    · simp at hk'
  · have hlast : (init ++ [last]).getLast? = some last := by simp
    have hgenLast : last.generation = init.length := h.generation init.length last (by simp)
    rw [hlast, chainLink] at hlink
    by_cases hle : last.generation + 1 ≤ u64Max
    · rw [if_pos hle, Except.ok.injEq, Prod.mk.injEq] at hlink
      obtain ⟨hgen, hhash⟩ := hlink
      have hlen : (init ++ [last]).length = init.length + 1 := by simp
      -- an index of the longer chain is an old one or the last
      have hnew : ∀ k m', (init ++ [last] ++ [m])[k]? = some m' →
          (init ++ [last])[k]? = some m' ∨ (k = init.length + 1 ∧ m' = m) := by
        intro k m' hk
        by_cases hlt : k < (init ++ [last]).length
        · rw [List.getElem?_append_left hlt] at hk
          exact Or.inl hk
        · rw [List.getElem?_append_right (not_lt.mp hlt), List.getElem?_singleton] at hk
          split at hk
          · exact Or.inr ⟨by omega, (Option.some.inj hk).symm⟩
          · exact absurd hk (by simp)
      refine ⟨fun k m' hk => ?_, fun m' h0 => ?_, fun k prev m' hk hk' => ?_⟩
      · rcases hnew k m' hk with hold | ⟨rfl, rfl⟩
        · exact h.generation k m' hold
        · rw [← hgen, hgenLast]
      · rcases hnew 0 m' h0 with hold | ⟨hk, _⟩
        · exact h.genesis m' hold
        · omega
      · rcases hnew (k + 1) m' hk' with hold' | ⟨hk1, rfl⟩
        · have hlt : k < (init ++ [last]).length := by
            have := (List.getElem?_eq_some_iff.mp hold').1
            omega
          rw [List.getElem?_append_left hlt] at hk
          exact h.link k prev m' hk hold'
        · obtain rfl : k = init.length := by omega
          have hprev : prev = last := by simpa using hk.symm
          rw [hprev, hhash]
    · -- a generation that would wrap is not linked
      rw [if_neg hle] at hlink
      exact absurd hlink (by simp)

/-! ## What the calls hold -/

namespace Call

/-- The manifest a call has built and not yet committed. -/
def uncommitted : Call → List BackupManifest
  | incrementalChained _ _ _ _ _ sealed => [sealed.manifest]
  | incrementalPersisted _ _ sealed => [sealed.manifest]
  | compactionChained _ _ _ _ _ sealed => [sealed.manifest]
  | compactionPersisted _ _ _ _ sealed => [sealed.manifest]
  | _ => []

/-- The tail a call is building on. -/
def readTail : Call → List BackupManifest
  | incrementalChained _ _ _ _ previous _ => previous.toList
  | compactionChained _ _ _ _ previous _ => previous.toList
  | _ => []

/-- What a pending call's commit will do to memory. -/
def commit : Call → BackupChainState → BackupChainState
  | incrementalPersisted _ tracked sealed, chain => ⟨some sealed.manifest, chain.trackedSegments ++ [tracked]⟩
  | compactionPersisted nowMs _ snapshot outputs sealed, _ =>
      ⟨some sealed.manifest, newLedger snapshot nowMs outputs⟩
  | _, chain => chain

end Call

namespace BackupSystem

/-- The manifests built and not yet committed. -/
def uncommitted (s : BackupSystem) : List BackupManifest := s.calls.flatMap Call.uncommitted

/-- The tails around: the one in memory, and those the calls are building on. -/
def tails (s : BackupSystem) : List BackupManifest :=
  s.core.backup.chainState.previousManifest.toList ++ s.calls.flatMap Call.readTail

/-- The calls between their persist and their commit. -/
def pending (s : BackupSystem) : List Call := s.calls.filter Call.isPending

end BackupSystem

/-- **Uncommitted manifests are new**: their ids are distinct, and no tail around has one of them. -/
structure NewIds (drawn : Nat) (uncommitted tails : List BackupManifest) : Prop where
  nodup : (uncommitted.map BackupManifest.manifestId).Nodup
  not_tail : ∀ m ∈ uncommitted, ∀ m' ∈ tails, m.manifestId ≠ m'.manifestId
  drawn_lt : ∀ m ∈ uncommitted ++ tails, ∃ n < drawn, m.manifestId = Uuid.nowV7 n

theorem NewIds.mono {drawn drawn' : Nat} {us us' ts ts' : List BackupManifest} (h : NewIds drawn us ts)
    (hu : us'.Subperm us) (ht : ts' ⊆ ts) (hle : drawn ≤ drawn') : NewIds drawn' us' ts' := by
  refine ⟨?_, fun m hm m' hm' => h.not_tail m (hu.subset hm) m' (ht hm'), fun m hm => ?_⟩
  · obtain ⟨l, hperm, hsublist⟩ := hu
    exact (hperm.map _).nodup_iff.mp (h.nodup.sublist (hsublist.map _))
  · have hm' : m ∈ us ++ ts := by
      rcases List.mem_append.mp hm with hm | hm
      · exact List.mem_append_left _ (hu.subset hm)
      · exact List.mem_append_right _ (ht hm)
    obtain ⟨n, hn, hid⟩ := h.drawn_lt m hm'
    exact ⟨n, hn.trans_le hle, hid⟩

/-- A manifest with a fresh id joins. -/
theorem NewIds.push {drawn : Nat} {us ts : List BackupManifest} (h : NewIds drawn us ts) {m : BackupManifest}
    (hid : m.manifestId = Uuid.nowV7 drawn) : NewIds (drawn + 1) (m :: us) ts := by
  have hne : ∀ m' ∈ us ++ ts, m.manifestId ≠ m'.manifestId := by
    intro m' hm' heq
    obtain ⟨n, hn, hid'⟩ := h.drawn_lt m' hm'
    rw [hid, hid', Uuid.nowV7_inj] at heq
    omega
  refine ⟨?_, fun m' hm' t ht => ?_, fun m' hm' => ?_⟩
  · rw [List.map_cons, List.nodup_cons]
    refine ⟨fun hmem => ?_, h.nodup⟩
    obtain ⟨m', hm', heq⟩ := List.mem_map.mp hmem
    exact hne m' (List.mem_append_left _ hm') heq.symm
  · rcases List.mem_cons.mp hm' with rfl | hm'
    · exact hne t (List.mem_append_right _ ht)
    · exact h.not_tail m' hm' t ht
  · rcases List.mem_cons.mp hm' with rfl | hm'
    · exact ⟨drawn, Nat.lt_succ_self _, hid⟩
    · obtain ⟨n, hn, hid'⟩ := h.drawn_lt m' hm'
      exact ⟨n, by omega, hid'⟩

/-- An uncommitted manifest becomes a tail. -/
theorem NewIds.commit {drawn : Nat} {us ts : List BackupManifest} {m : BackupManifest}
    (h : NewIds drawn (m :: us) ts) : NewIds drawn us (m :: ts) := by
  have hnodup := h.nodup
  rw [List.map_cons, List.nodup_cons] at hnodup
  refine ⟨hnodup.2, fun m' hm' t ht => ?_, fun m' hm' => h.drawn_lt m' ?_⟩
  · rcases List.mem_cons.mp ht with rfl | ht
    · intro heq
      exact hnodup.1 (heq ▸ List.mem_map_of_mem hm')
    · exact h.not_tail m' (List.mem_cons_of_mem _ hm') t ht
  · simp only [List.mem_append, List.mem_cons] at hm' ⊢
    tauto

/-! ## The invariant -/

/-- **The condition on a step of a call**: a manifest is persisted over the tail it was built on. (A batch the
cursor has already passed is refused.) -/
def CallChainedOnTail (P : Primitives) (db : BackupDb) : Call → Prop
  | .incrementalChained _ batch _ _ previous _ =>
      db.chain.map (fun row => P.cborManifest.decode row.manifestCbor) = previous.map some ∨
        batch.lastSeq < db.readCursor
  | .compactionChained _ _ _ _ previous _ =>
      db.chain.map (fun row => P.cborManifest.decode row.manifestCbor) = previous.map some
  | _ => True

instance (P : Primitives) (db : BackupDb) (call : Call) : Decidable (CallChainedOnTail P db call) :=
  match call with
  | .incrementalChained .. => inferInstanceAs (Decidable (_ ∨ _))
  | .compactionChained .. => inferInstanceAs (Decidable (_ = _))
  | .incrementalRead .. | .incrementalSealed .. | .incrementalPersisted .. | .compactionSnapshot ..
  | .compactionResealed .. | .compactionPersisted .. | .uploading .. => inferInstanceAs (Decidable True)

/-- The condition on an action: that on the call it advances. -/
def ChainedOnTail (P : Primitives) (s : BackupSystem) : Action → Prop
  | .advance index _ => ∀ call ∈ s.calls[index]?, CallChainedOnTail P s.core.db call
  | _ => True

instance (P : Primitives) (s : BackupSystem) (a : Action) : Decidable (ChainedOnTail P s a) :=
  match a with
  | .advance index _ => inferInstanceAs (Decidable (∀ call ∈ s.calls[index]?, CallChainedOnTail P s.core.db call))
  | .writeJournal .. | .startIncremental | .startCompaction _ => inferInstanceAs (Decidable True)

/-- What is true of a call in flight: it holds the installed keys, and its manifest links to the tail it read. -/
def ChainOk (P : Primitives) (keys : BackupKeys) : Call → Prop
  | .incrementalSealed _ _ k _ => k = keys
  | .incrementalChained _ _ k _ previous sealed =>
      k = keys ∧ chainLink P previous = .ok (sealed.manifest.generation, sealed.manifest.previousManifestHash)
  | .compactionSnapshot _ k _ => k = keys
  | .compactionResealed _ k _ _ => k = keys
  | .compactionChained _ k _ _ previous sealed =>
      k = keys ∧ chainLink P previous = .ok (sealed.manifest.generation, sealed.manifest.previousManifestHash)
  | _ => True

theorem chainOk_advance {P : Primitives} {keys : BackupKeys} {nowPersistMs : Int} {c c' : Core}
    {call call' : Call} (hkeys : c.backup.backupKeys = some keys) (h : ChainOk P keys call)
    (hadv : Advance P nowPersistMs c call (some call') c') : ChainOk P keys call' := by
  cases hadv with
  | sealed hk hid hev => exact Option.some.inj (hk.symm.trans hkeys)
  | chained hbuilt => exact ⟨h, hbuilt.link⟩
  | persisted hrow hcursor => trivial
  | committed => trivial
  | resealed hev hout hc' => exact h
  | compactionChained hbuilt => exact ⟨h, hbuilt.link⟩
  | compactionPersisted hrows => trivial
  | compactionCommitted => trivial

/-- **What carries linearity through an interleaving.** -/
structure Chained (P : Primitives) (keys : BackupKeys) (s : BackupSystem) : Prop where
  keys_eq : s.core.backup.backupKeys = some keys
  calls_ok : ∀ call ∈ s.calls, ChainOk P keys call
  new_ids : NewIds s.core.drawn s.uncommitted s.tails
  linear : LinearChain P s.persisted
  tail : s.core.db.chain.map (fun row => P.cborManifest.decode row.manifestCbor) =
    s.persisted.getLast?.map some
  one_pending : s.pending.length ≤ 1
  pending_tail : ∀ q ∈ s.pending, q.persistedManifest.head? = s.persisted.getLast?
  hydrates : Hydrates P keys.rootKey s.core.db (s.pending.foldr Call.commit s.core.backup.chainState)

theorem chained_init (P : Primitives) (keys : BackupKeys) (sink : Option BackupSink) :
    Chained P keys (BackupSystem.init keys sink) where
  keys_eq := rfl
  calls_ok := by simp [BackupSystem.init]
  new_ids := ⟨by simp [BackupSystem.init, BackupSystem.uncommitted],
    by simp [BackupSystem.init, BackupSystem.uncommitted],
    by simp [BackupSystem.init, BackupSystem.uncommitted, BackupSystem.tails, Core.fresh]⟩
  linear := linearChain_nil P
  tail := rfl
  one_pending := Nat.zero_le _
  pending_tail := by simp [BackupSystem.init, BackupSystem.pending]
  hydrates := ⟨List.Forall₂.nil, rfl⟩

section Advance

variable {P : Primitives} {keys : BackupKeys} {nowPersistMs : Int} {s : BackupSystem} {before after : List Call}
  {call : Call} {o : Option Call} {c' : Core}

theorem newIds_advance (erased : List BackupEvent) (persisted : List BackupManifest)
    (h : NewIds s.core.drawn s.uncommitted s.tails) (hcalls : s.calls = before ++ call :: after)
    (hadv : Advance P nowPersistMs s.core call o c') :
    NewIds c'.drawn (BackupSystem.mk c' (before ++ o.toList ++ after) erased persisted).uncommitted
      (BackupSystem.mk c' (before ++ o.toList ++ after) erased persisted).tails := by
  rw [BackupSystem.uncommitted, BackupSystem.tails, hcalls, List.flatMap_append, List.flatMap_cons,
    List.flatMap_append, List.flatMap_cons] at h
  simp only [BackupSystem.uncommitted, BackupSystem.tails, List.flatMap_append]
  -- where a manifest is chained its id was just drawn; elsewhere manifests only change places
  cases hadv with
  | left hpending hdb hbackup hdrawn =>
      rw [hbackup]
      refine h.mono ?_ ?_ hdrawn
      · simp only [Option.toList_none, List.flatMap_nil, List.append_nil]
        exact ((List.sublist_append_right _ _).append_left _).subperm
      · intro m hm
        simp only [Option.toList_none, List.flatMap_nil, List.append_nil, List.mem_append] at hm ⊢
        tauto
  | sealed hkeys hid hev => exact h.mono (by simp [Call.uncommitted, List.Subperm.refl]) (by simp [Call.readTail]) (Nat.le_succ _)
  | @chained readCursor batch k tracked sealed hbuilt =>
      simp only [Option.toList_some, List.flatMap_cons, List.flatMap_nil, Call.uncommitted, Call.readTail,
        List.append_nil, List.nil_append] at h ⊢
      refine (h.push hbuilt.id).mono (List.Perm.subperm ?_) ?_ le_rfl
      · rw [List.append_assoc]
        exact List.perm_middle
      · intro m hm
        simp only [List.mem_append] at hm ⊢
        tauto
  | persisted hrow hcursor =>
      refine h.mono (by simp [Call.uncommitted, List.Subperm.refl]) ?_ le_rfl
      intro m hm
      simp only [Option.toList_some, List.flatMap_cons, List.flatMap_nil, Call.readTail,
        List.append_nil, List.mem_append] at hm ⊢
      tauto
  | @committed k tracked sealed =>
      simp only [Option.toList_some, List.flatMap_cons, List.flatMap_nil, Call.uncommitted, Call.readTail,
        List.append_nil, List.nil_append, Coordinator.commitIncremental_chainState] at h ⊢
      -- the commit takes the manifest from the uncommitted ones to the tail
      have h' := h.mono (List.perm_middle (a := sealed.manifest)).symm.subperm (List.Subset.refl _) le_rfl
      refine h'.commit.mono (List.Subperm.refl _) ?_ le_rfl
      intro m hm
      simp only [List.mem_append, List.mem_cons] at hm ⊢
      tauto
  | resealed hev hids hc' =>
      subst hc'
      exact h.mono (by simp [Call.uncommitted, List.Subperm.refl]) (by simp [Call.readTail]) (Nat.le_add_right _ _)
  | @compactionChained nowMs k snapshot outputs sealed hbuilt =>
      simp only [Option.toList_some, List.flatMap_cons, List.flatMap_nil, Call.uncommitted, Call.readTail,
        List.append_nil, List.nil_append] at h ⊢
      refine (h.push hbuilt.id).mono (List.Perm.subperm ?_) ?_ le_rfl
      · rw [List.append_assoc]
        exact List.perm_middle
      · intro m hm
        simp only [List.mem_append] at hm ⊢
        tauto
  | compactionPersisted hrows =>
      refine h.mono (by simp [Call.uncommitted, List.Subperm.refl]) ?_ le_rfl
      intro m hm
      simp only [Option.toList_some, List.flatMap_cons, List.flatMap_nil, Call.readTail,
        List.append_nil, List.mem_append] at hm ⊢
      tauto
  | @compactionCommitted nowMs k snapshot outputs sealed =>
      simp only [Option.toList_some, List.flatMap_cons, List.flatMap_nil, Call.uncommitted, Call.readTail,
        List.append_nil, List.nil_append, Coordinator.commitCompaction_chainState] at h ⊢
      have h' := h.mono (List.perm_middle (a := sealed.manifest)).symm.subperm (List.Subset.refl _) le_rfl
      refine h'.commit.mono (List.Subperm.refl _) ?_ le_rfl
      intro m hm
      simp only [List.mem_append, List.mem_cons] at hm ⊢
      tauto

/-- A pending call holds the manifest it persisted, uncommitted. -/
theorem pending_uncommitted {q : Call} (h : q.isPending = true) :
    ∃ m, q.persistedManifest = [m] ∧ q.uncommitted = [m] := by
  cases q with
  | incrementalPersisted k tracked sealed => exact ⟨sealed.manifest, rfl, rfl⟩
  | compactionPersisted nowMs k snapshot outputs sealed => exact ⟨sealed.manifest, rfl, rfl⟩
  | _ => exact absurd h (by simp [Call.isPending])

/-- **Nobody is pending when a manifest is persisted over the tail it was built on**: the persisted tail would
be the pending manifest, which no call can have read. -/
theorem Chained.nothing_pending (h : Chained P keys s) (hcalls : s.calls = before ++ call :: after)
    {previous : Option BackupManifest} (hread : call.readTail = previous.toList)
    (htail : s.core.db.chain.map (fun row => P.cborManifest.decode row.manifestCbor) = previous.map some) :
    s.pending = [] := by
  rw [List.eq_nil_iff_forall_not_mem]
  intro q hq
  obtain ⟨hmem, hpending⟩ := List.mem_filter.mp hq
  obtain ⟨m, hman, hunc⟩ := pending_uncommitted hpending
  have hlast := h.pending_tail q hq
  rw [hman, List.head?_cons] at hlast
  have hprev : previous = some m := by
    rw [h.tail, ← hlast] at htail
    cases previous with
    | none => simp at htail
    | some m' => simpa using htail.symm
  have hmu : m ∈ s.uncommitted := List.mem_flatMap.mpr ⟨q, hmem, by simp [hunc]⟩
  have hmt : m ∈ s.tails := by
    refine List.mem_append_right _ (List.mem_flatMap.mpr ⟨call, by rw [hcalls]; simp, ?_⟩)
    rw [hread, hprev]
    simp
  exact h.new_ids.not_tail m hmu m hmt rfl

theorem pending_eq (hcalls : s.calls = before ++ call :: after) :
    s.pending = before.filter Call.isPending ++
      ([call].filter Call.isPending ++ after.filter Call.isPending) := by
  rw [BackupSystem.pending, hcalls, ← List.filter_append, ← List.filter_append]
  rfl

/-- The fields that a step's own case does not touch. -/
structure ChainKept (s s' : BackupSystem) : Prop where
  ledger : s'.core.db.ledger = s.core.db.ledger
  chain : s'.core.db.chain = s.core.db.chain
  chainState : s'.core.backup.chainState = s.core.backup.chainState
  pending : s'.pending = s.pending
  persisted : s'.persisted = s.persisted

theorem Chained.of_kept {s' : BackupSystem} (h : Chained P keys s) (hk : ChainKept s s')
    (hkeys : s'.core.backup.backupKeys = some keys) (hok : ∀ call ∈ s'.calls, ChainOk P keys call)
    (hnew : NewIds s'.core.drawn s'.uncommitted s'.tails) : Chained P keys s' where
  keys_eq := hkeys
  calls_ok := hok
  new_ids := hnew
  linear := by
    rw [hk.persisted]
    exact h.linear
  tail := by
    rw [hk.persisted, hk.chain]
    exact h.tail
  one_pending := by
    rw [hk.pending]
    exact h.one_pending
  pending_tail := by
    rw [hk.pending, hk.persisted]
    exact h.pending_tail
  hydrates := by
    rw [hk.pending, hk.chainState]
    refine ⟨?_, ?_⟩
    · rw [hk.ledger]
      exact h.hydrates.rows
    · rw [hk.chain]
      exact h.hydrates.tail

/-- **A persist over the tail**: the chain grows by one, and the pending commit is all that memory lacks. -/
theorem Chained.persist {s' : BackupSystem} (h : Chained P keys s) (call' : Call) (manifest : BackupManifest)
    (previous : Option BackupManifest) (row : ManifestChainRow)
    (hcalls : s.calls = before ++ call :: after) (hcalls' : s'.calls = before ++ call' :: after)
    (hread : call.readTail = previous.toList)
    (htail : s.core.db.chain.map (fun row => P.cborManifest.decode row.manifestCbor) = previous.map some)
    (hlink : chainLink P previous = .ok (manifest.generation, manifest.previousManifestHash))
    (hpending : call'.isPending = true) (hmanifest : call'.persistedManifest = [manifest])
    (hpersisted : s'.persisted = s.persisted ++ [manifest])
    (hrow : row.manifestCbor = P.cborManifest.encode manifest) (hchain : s'.core.db.chain = some row)
    (hkeys : s'.core.backup.backupKeys = some keys) (hok : ∀ call ∈ s'.calls, ChainOk P keys call)
    (hnew : NewIds s'.core.drawn s'.uncommitted s'.tails)
    (hydrates : Hydrates P keys.rootKey s.core.db s.core.backup.chainState →
      Hydrates P keys.rootKey s'.core.db (call'.commit s'.core.backup.chainState)) : Chained P keys s' := by
  have hnone := h.nothing_pending hcalls hread htail
  -- no other call is between its row and its commit
  have hpend' : s'.pending = [call'] := by
    rw [pending_eq hcalls] at hnone
    obtain ⟨hb, hrest⟩ := List.append_eq_nil_iff.mp hnone
    obtain ⟨_, ha⟩ := List.append_eq_nil_iff.mp hrest
    rw [pending_eq hcalls', hb, ha, List.nil_append, List.append_nil, List.filter_cons_of_pos hpending,
      List.filter_nil]
  -- the tail of the database is the manifest that the call chained on
  have hlast : s.persisted.getLast? = previous := by
    rw [h.tail] at htail
    exact Option.map_injective (Option.some_injective _) htail
  refine ⟨hkeys, hok, hnew, ?_, ?_, ?_, ?_, ?_⟩
  · rw [hpersisted]
    exact h.linear.push (by rw [hlast]; exact hlink)
  · rw [hchain, hpersisted]
    simp [hrow]
  · rw [hpend', List.length_singleton]
  · intro q hq
    rw [hpend', List.mem_singleton] at hq
    rw [hq, hmanifest, hpersisted]
    simp
  · rw [hpend', List.foldr_cons, List.foldr_nil]
    refine hydrates ?_
    have hbefore := h.hydrates
    rwa [hnone, List.foldr_nil] at hbefore

/-- **A commit**: memory gets what it lacks. -/
theorem Chained.commit {s' : BackupSystem} (h : Chained P keys s) (call' : Call)
    (hcalls : s.calls = before ++ call :: after) (hcalls' : s'.calls = before ++ call' :: after)
    (hpending : call.isPending = true) (hpending' : call'.isPending = false)
    (hdb : s'.core.db = s.core.db) (hpersisted : s'.persisted = s.persisted)
    (hcommit : s'.core.backup.chainState = call.commit s.core.backup.chainState)
    (hkeys : s'.core.backup.backupKeys = some keys) (hok : ∀ call ∈ s'.calls, ChainOk P keys call)
    (hnew : NewIds s'.core.drawn s'.uncommitted s'.tails) : Chained P keys s' := by
  have hp := pending_eq hcalls
  rw [List.filter_cons_of_pos hpending, List.filter_nil] at hp
  have hone := h.one_pending
  rw [hp, List.length_append, List.length_append, List.length_singleton] at hone
  have hb : before.filter Call.isPending = [] := List.length_eq_zero_iff.mp (by omega)
  have ha : after.filter Call.isPending = [] := List.length_eq_zero_iff.mp (by omega)
  have hpend' : s'.pending = [] := by
    rw [pending_eq hcalls', hb, ha, List.filter_cons_of_neg (by simp [hpending'])]
    rfl
  have hyd := h.hydrates
  rw [hp, hb, ha, List.nil_append, List.append_nil, List.foldr_cons, List.foldr_nil, ← hcommit, ← hdb] at hyd
  refine ⟨hkeys, hok, hnew, ?_, ?_, ?_, ?_, ?_⟩
  · rw [hpersisted]
    exact h.linear
  · rw [hdb, hpersisted]
    exact h.tail
  · rw [hpend']
    exact Nat.zero_le _
  · rw [hpend']
    simp
  · rw [hpend']
    exact hyd

/-- Every step leaves the installed keys alone. -/
theorem backupKeys_advance (hadv : Advance P nowPersistMs s.core call o c') :
    c'.backup.backupKeys = s.core.backup.backupKeys := by
  cases hadv with
  | left hpending hdb hbackup hdrawn => rw [hbackup]
  | resealed hev hids hc' => rw [hc']
  | _ => rfl

theorem chained_advance (h : Chained P keys s) (hcalls : s.calls = before ++ call :: after)
    (hadv : Advance P nowPersistMs s.core call o c')
    (hguard : ChainedOnTail P s (.advance before.length nowPersistMs)) :
    Chained P keys {
      core := c'
      calls := before ++ o.toList ++ after
      erased := s.erased ++ o.toList.flatMap (Call.erasedEvents P)
      persisted := s.persisted ++ o.toList.flatMap Call.persistedManifest } := by
  have hcall : CallChainedOnTail P s.core.db call := hguard call (by simp [hcalls])
  have hself : ChainOk P keys call := h.calls_ok call (by rw [hcalls]; simp)
  have hkeys := (backupKeys_advance hadv).trans h.keys_eq
  have hnew := newIds_advance (s.erased ++ o.toList.flatMap (Call.erasedEvents P))
    (s.persisted ++ o.toList.flatMap Call.persistedManifest) h.new_ids hcalls hadv
  -- the calls after the step
  have hok : ∀ call' ∈ before ++ o.toList ++ after, ChainOk P keys call' := by
    intro call' hcall'
    rcases List.mem_append.mp hcall' with hcall' | hafter
    · rcases List.mem_append.mp hcall' with hbefore | hnext
      · exact h.calls_ok call' (by rw [hcalls]; simp [hbefore])
      · cases o with
        | none => exact absurd hnext (by simp)
        | some call₁ =>
            rw [Option.toList_some, List.mem_singleton] at hnext
            subst hnext
            exact chainOk_advance h.keys_eq hself hadv
    · exact h.calls_ok call' (by rw [hcalls]; simp [hafter])
  have hpending := pending_eq hcalls
  -- five moves keep the chain as it is, two persist a manifest, two commit one
  cases hadv with
  | left hp hdb hbackup hdrawn =>
      refine h.of_kept ⟨by rw [hdb], by rw [hdb], by rw [hbackup], ?_, by simp⟩ hkeys hok hnew
      rw [hpending]
      simp [BackupSystem.pending, hp]
  | sealed hk hid hev =>
      refine h.of_kept ⟨rfl, rfl, rfl, ?_, by simp [Call.persistedManifest]⟩ hkeys hok hnew
      rw [hpending]
      simp [BackupSystem.pending, Call.isPending]
  | chained hbuilt =>
      refine h.of_kept ⟨rfl, rfl, rfl, ?_, by simp [Call.persistedManifest]⟩ hkeys hok hnew
      rw [hpending]
      simp [BackupSystem.pending, Call.isPending]
  | resealed hev hids hc' =>
      subst hc'
      refine h.of_kept ⟨rfl, rfl, rfl, ?_, by simp [Call.persistedManifest]⟩ hkeys hok hnew
      rw [hpending]
      simp [BackupSystem.pending, Call.isPending]
  | compactionChained hbuilt =>
      refine h.of_kept ⟨rfl, rfl, rfl, ?_, by simp [Call.persistedManifest]⟩ hkeys hok hnew
      rw [hpending]
      simp [BackupSystem.pending, Call.isPending]
  | @persisted readCursor batch k tracked previous sealed row hrow hcursor =>
      obtain ⟨rfl, hlink⟩ := hself
      refine h.persist (.incrementalPersisted k tracked sealed) sealed.manifest previous
        ⟨wrapI64 sealed.manifest.generation, P.cborManifest.encode sealed.manifest, nowPersistMs⟩
        hcalls (by simp) rfl
        -- a cursor that moved rules the stale tail out
        (Or.resolve_right hcall (not_lt.mpr hcursor)) hlink rfl rfl (by simp [Call.persistedManifest]) rfl rfl
        hkeys hok hnew fun hyd => ⟨?_, by simp [Call.commit]⟩
      exact List.rel_append hyd.rows (List.Forall₂.cons (materialise_ledgerRow hrow) List.Forall₂.nil)
  | @compactionPersisted nowMs k snapshot outputs previous sealed rows hrows =>
      obtain ⟨rfl, hlink⟩ := hself
      exact h.persist (.compactionPersisted nowMs k snapshot outputs sealed) sealed.manifest previous
        ⟨wrapI64 sealed.manifest.generation, P.cborManifest.encode sealed.manifest, nowPersistMs⟩
        hcalls (by simp) rfl
        hcall hlink rfl rfl (by simp [Call.persistedManifest]) rfl rfl
        hkeys hok hnew fun hyd => ⟨buildLedgerRows_eq_ok hrows, by simp [Call.commit]⟩
  | @committed k tracked sealed =>
      exact h.commit (.uploading k [tracked] sealed) hcalls (by simp) rfl rfl rfl
        (by simp [Call.persistedManifest]) rfl hkeys hok hnew
  | @compactionCommitted nowMs k snapshot outputs sealed =>
      exact h.commit (.uploading k outputs sealed) hcalls (by simp) rfl rfl rfl
        (by simp [Call.persistedManifest]) rfl hkeys hok hnew

end Advance

/-! ## Runs -/

section Runs

variable {P : Primitives} {keys : BackupKeys}

/-- **A persist over the tail it was built on keeps the chain linear.** -/
theorem chained_moved {s s' : BackupSystem} {a : Action} (h : Chained P keys s) (hguard : ChainedOnTail P s a)
    (hmove : Moved P s a s') : Chained P keys s' := by
  cases hmove with
  | nothing => exact h
  | wrote tag conv mid payload ms =>
      exact h.of_kept ⟨rfl, rfl, rfl, rfl, rfl⟩ h.keys_eq h.calls_ok h.new_ids
  | @startedIncremental batch hread =>
      refine h.of_kept ⟨rfl, rfl, rfl, ?_, rfl⟩ h.keys_eq (fun call hcall => ?_) ?_
      · simp [BackupSystem.pending, Call.isPending]
      · rcases List.mem_append.mp hcall with hold | hnew
        · exact h.calls_ok call hold
        · rw [List.mem_singleton.mp hnew]
          trivial
      · simpa [BackupSystem.uncommitted, BackupSystem.tails, Call.uncommitted, Call.readTail] using h.new_ids
  | @startedCompaction nowMs k hkeys =>
      refine h.of_kept ⟨rfl, rfl, rfl, ?_, rfl⟩ h.keys_eq (fun call hcall => ?_) ?_
      · simp [BackupSystem.pending, Call.isPending]
      · rcases List.mem_append.mp hcall with hold | hnew
        · exact h.calls_ok call hold
        · rw [List.mem_singleton.mp hnew]
          exact Option.some.inj (hkeys.symm.trans h.keys_eq)
      · simpa [BackupSystem.uncommitted, BackupSystem.tails, Call.uncommitted, Call.readTail] using h.new_ids
  | advanced hcalls hadv => exact chained_advance h hcalls hadv hguard

/-- **The claim about a state**: the persisted manifests are a single chain, and unless some call is between its
persist and its commit, memory holds what the database holds. -/
def SingleChain (P : Primitives) (keys : BackupKeys) (s : BackupSystem) : Prop :=
  LinearChain P s.persisted ∧
    ((∀ call ∈ s.calls, call.isPending = false) →
      Hydrates P keys.rootKey s.core.db s.core.backup.chainState)

/-- **A linear chain in every run whose persists are chained on the tail.** -/
theorem linear_of_chainedOnTail {sink : Option BackupSink} {tr : List (BackupSystem × Action)} {s : BackupSystem}
    (hrun : Run (BackupSystem.Step P) (BackupSystem.init keys sink) tr s)
    (hchained : ∀ p ∈ tr, ChainedOnTail P p.1 p.2) : SingleChain P keys s := by
  have hinv : Chained P keys s := by
    refine hrun.invariant_of_guarded (I := Chained P keys) (G := ChainedOnTail P) ?_ hchained
      (chained_init P keys sink)
    intro t a t' ht hguard hstep
    have hmove : Moved P t a t' := by
      rw [← show t.next P a = t' from hstep]
      exact moved_of_next t a
    exact chained_moved ht hguard hmove
  refine ⟨hinv.linear, fun hquiet => ?_⟩
  have hnone : s.pending = [] := List.filter_eq_nil_iff.mpr fun q hq => by simp [hquiet q hq]
  have hyd := hinv.hydrates
  rwa [hnone, List.foldr_nil] at hyd

end Runs

/-! ## A fork -/

/-- Two incrementals read the same events and build on the same tail; both persist. -/
def forkedPasses : List Action :=
  [.writeJournal "message_received" (some (Uuid.toText ⟨1⟩)) (some (Uuid.toText ⟨1⟩)) [] 1,
    .startIncremental, .startIncremental, .advance 0 0, .advance 0 0, .advance 1 0, .advance 1 0,
    .advance 0 0, .advance 0 0, .advance 1 0, .advance 1 0]

set_option maxRecDepth 100000 in
/-- **A fork**: two manifests of generation zero. -/
theorem incrementals_fork :
    ∃ tr s, Run (BackupSystem.Step Primitives.reference) (BackupSystem.init exampleKeys none) tr s ∧
      ¬ SingleChain Primitives.reference exampleKeys s := by
  refine ⟨_, _, BackupSystem.run_actions Primitives.reference (BackupSystem.init exampleKeys none) forkedPasses,
    fun h => ?_⟩
  have hsecond : (((BackupSystem.init exampleKeys none).runActions Primitives.reference
      forkedPasses).persisted[1]?.map BackupManifest.generation) = some 0 := by decide +kernel
  obtain ⟨m, hm, hgen⟩ := Option.map_eq_some_iff.mp hsecond
  have := h.1.generation 1 m hm
  omega

/-- A message backed up by one pass. -/
def singlePass : List Action :=
  [.writeJournal "message_received" (some (Uuid.toText ⟨1⟩)) (some (Uuid.toText ⟨1⟩)) [] 1, .startIncremental] ++
    List.replicate 5 (.advance 0 0)

set_option maxRecDepth 100000 in
/-- A pass that nothing interrupts is chained on the tail. -/
theorem singlePass_singleChain :
    SingleChain Primitives.reference exampleKeys
      ((BackupSystem.init exampleKeys none).runActions Primitives.reference singlePass) :=
  linear_of_chainedOnTail
    (BackupSystem.run_actions Primitives.reference (BackupSystem.init exampleKeys none) singlePass)
    (by decide +kernel)

end KChatCore.Backup
