import Mathlib

/-!
# `Lib.Cover` — requests among cover requests

A run sends requests one after the other to a backend that may remember all of them. What is kept of an answer depends on
the request; of a cover request nothing is kept, and its failure is no failure of the run.

* `gather_fst` — a backend that answers the real requests steadily might as well answer them from a table.
* `collect_filter` — the cover requests do not change the result.
* `collect_perm` — in another order the run fails or succeeds the same, with the same multiset.
-/

namespace KChatCore.Lib.Cover

universe u v w x y z

variable {ι : Type u} {σ : Type v} {β : Type w} {γ : Type x} {ε : Type y}

/-- What a run keeps of the answer to a request; `none` makes it a cover request. -/
abbrev Keep (ι : Type u) (β : Type w) (γ : Type x) := ι → Option (β → Option γ)

/-- **Send request after request.** The first real request that fails ends the run. -/
def gather (send : ι → σ → Except ε β × σ) (keep : Keep ι β γ) : List ι → σ → Except ε (List γ) × σ
  | [], s => (.ok [], s)
  | i :: requests, s =>
      match keep i, send i s with
      -- the answer is dropped, whatever it is; the backend has seen the request
      | none, (_, s') => gather send keep requests s'
      | some _, (.error e, s') => (.error e, s')
      | some f, (.ok b, s') =>
          match gather send keep requests s' with
          | (.error e, s'') => (.error e, s'')
          | (.ok rest, s'') => (.ok ((f b).toList ++ rest), s'')

/-- The same run over a table of answers. -/
def collect (answer : ι → Except ε β) (keep : Keep ι β γ) : List ι → Except ε (List γ)
  | [] => .ok []
  | i :: requests =>
      match keep i, answer i with
      | none, _ => collect answer keep requests
      | some _, .error e => .error e
      | some f, .ok b =>
          match collect answer keep requests with
          | .error e => .error e
          | .ok rest => .ok ((f b).toList ++ rest)

/-- A request whose answer matters. -/
def Wanted (keep : Keep ι β γ) (i : ι) : Bool := (keep i).isSome

/-- What is kept of the answer to one request. -/
def kept (answer : ι → Except ε β) (keep : Keep ι β γ) (i : ι) : Option γ :=
  match keep i, answer i with
  | some f, .ok b => f b
  | _, _ => none

/-- Every real request is answered. -/
def AllAnswered (answer : ι → Except ε β) (keep : Keep ι β γ) (requests : List ι) : Prop :=
  ∀ i ∈ requests, Wanted keep i = true → ∃ b, answer i = .ok b

/-- Two runs that both fail, or that both succeed with the same multiset. -/
inductive SameOutcome : Except ε (List γ) → Except ε (List γ) → Prop
  | failed (e e' : ε) : SameOutcome (.error e) (.error e')
  | fetched {out out' : List γ} (h : out.Perm out') : SameOutcome (.ok out) (.ok out')

theorem SameOutcome.refl (r : Except ε (List γ)) : SameOutcome r r := by
  cases r with
  | error e => exact .failed e e
  | ok out => exact .fetched (List.Perm.refl out)

variable {send : ι → σ → Except ε β × σ} {answer answer' : ι → Except ε β} {keep keep' : Keep ι β γ}
  {requests requests' : List ι}

/-! ## One request -/

theorem not_wanted {i : ι} (h : keep i = none) : Wanted keep i = false := by
  rw [Wanted, h]
  rfl

theorem wanted {i : ι} {f : β → Option γ} (h : keep i = some f) : Wanted keep i = true := by
  rw [Wanted, h]
  rfl

theorem gather_answered {i : ι} {f : β → Option γ} {b : β} {s s' : σ} (h : keep i = some f) (hsend : send i s = (.ok b, s')) :
    (gather send keep (i :: requests) s).1 = (gather send keep requests s').1.map ((f b).toList ++ ·) := by
  simp only [gather, h, hsend]
  rcases gather send keep requests s' with ⟨_ | rest, s''⟩ <;> rfl

theorem collect_cover {i : ι} (h : keep i = none) : collect answer keep (i :: requests) = collect answer keep requests := by
  simp only [collect, h]

theorem collect_failed {i : ι} {f : β → Option γ} {e : ε} (h : keep i = some f) (ha : answer i = .error e) :
    collect answer keep (i :: requests) = .error e := by
  simp only [collect, h, ha]

theorem collect_answered {i : ι} {f : β → Option γ} {b : β} (h : keep i = some f) (ha : answer i = .ok b) :
    collect answer keep (i :: requests) = (collect answer keep requests).map ((f b).toList ++ ·) := by
  simp only [collect, h, ha]
  cases collect answer keep requests <;> rfl

/-! ## A steady backend -/

/-- **The answers to the real requests decide the result**, whatever else the backend is asked and answers. -/
theorem gather_fst (steady : ∀ i ∈ requests, Wanted keep i = true → ∀ s, (send i s).1 = answer i) (s : σ) :
    (gather send keep requests s).1 = collect answer keep requests := by
  induction requests generalizing s with
  | nil => rfl
  | cons i requests ih =>
      have later : ∀ s, (gather send keep requests s).1 = collect answer keep requests :=
        ih fun j hj => steady j (List.mem_cons_of_mem i hj)
      cases hk : keep i with
      | none =>
          rw [collect_cover hk, ← later (send i s).2]
          simp only [gather, hk]
      | some f =>
          have now : (send i s).1 = answer i := steady i List.mem_cons_self (wanted hk) s
          cases ha : answer i with
          | error e =>
              have hsend : send i s = (.error e, (send i s).2) := Prod.ext (now.trans ha) rfl
              rw [collect_failed hk ha, gather, hk, hsend]
          | ok b =>
              have hsend : send i s = (.ok b, (send i s).2) := Prod.ext (now.trans ha) rfl
              rw [collect_answered hk ha, ← later (send i s).2, gather_answered hk hsend]

/-- Tables that agree on the real requests give the same result. -/
theorem collect_congr (hkeep : ∀ i ∈ requests, keep i = keep' i)
    (h : ∀ i ∈ requests, Wanted keep i = true → answer i = answer' i) :
    collect answer keep requests = collect answer' keep' requests := by
  induction requests with
  | nil => rfl
  | cons i requests ih =>
      have later := ih (fun j hj => hkeep j (List.mem_cons_of_mem i hj)) fun j hj => h j (List.mem_cons_of_mem i hj)
      have hk' := hkeep i List.mem_cons_self
      cases hk : keep i with
      | none => rw [collect_cover hk, collect_cover (hk' ▸ hk), later]
      | some f =>
          have now := h i List.mem_cons_self (wanted hk)
          cases ha : answer i with
          | error e => rw [collect_failed hk ha, collect_failed (hk' ▸ hk) (now ▸ ha)]
          | ok b => rw [collect_answered hk ha, collect_answered (hk' ▸ hk) (now ▸ ha), later]

/-- Requests under other names. -/
theorem collect_map {ι' : Type z} (name : ι' → ι) (requests : List ι') :
    collect answer keep (requests.map name) = collect (answer ∘ name) (keep ∘ name) requests := by
  induction requests with
  | nil => rfl
  | cons i requests ih =>
      simp only [List.map_cons, collect, ih, Function.comp_apply]

/-! ## Without the cover requests -/

/-- **Cover requests change nothing.** -/
theorem collect_filter : collect answer keep (requests.filter (Wanted keep)) = collect answer keep requests := by
  induction requests with
  | nil => rfl
  | cons i requests ih =>
      cases hk : keep i with
      | none => rw [List.filter_cons_of_neg (by simp [not_wanted hk]), collect_cover hk, ih]
      | some f =>
          rw [List.filter_cons_of_pos (wanted hk)]
          cases ha : answer i with
          | error e => rw [collect_failed hk ha, collect_failed hk ha]
          | ok b => rw [collect_answered hk ha, collect_answered hk ha, ih]

/-! ## In another order -/

/-- A run succeeds when every real request is answered. -/
theorem collect_of_answered (h : AllAnswered answer keep requests) :
    collect answer keep requests = .ok (requests.filterMap (kept answer keep)) := by
  induction requests with
  | nil => rfl
  | cons i requests ih =>
      have later := ih fun j hj => h j (List.mem_cons_of_mem i hj)
      cases hk : keep i with
      | none =>
          have hnone : kept answer keep i = none := by simp only [kept, hk]
          rw [collect_cover hk, later, List.filterMap_cons_none hnone]
      | some f =>
          obtain ⟨b, ha⟩ := h i List.mem_cons_self (wanted hk)
          have hkept : kept answer keep i = f b := by simp only [kept, hk, ha]
          rw [collect_answered hk ha, later]
          cases hf : f b with
          | none => rw [List.filterMap_cons_none (hkept.trans hf)]; rfl
          | some c => rw [List.filterMap_cons_some (hkept.trans hf)]; rfl

/-- And fails otherwise. -/
theorem collect_of_not_answered (h : ¬ AllAnswered answer keep requests) : ∃ e, collect answer keep requests = .error e := by
  induction requests with
  | nil => exact absurd (fun i hi => absurd hi (by simp)) h
  | cons i requests ih =>
      cases hk : keep i with
      | none =>
          rw [collect_cover hk]
          refine ih fun later => h fun j hj hwanted => ?_
          rcases List.mem_cons.mp hj with rfl | hj
          · rw [not_wanted hk] at hwanted
            exact absurd hwanted (by simp)
          · exact later j hj hwanted
      | some f =>
          cases ha : answer i with
          | error e => exact ⟨e, collect_failed hk ha⟩
          | ok b =>
              obtain ⟨e, he⟩ := ih fun later => h fun j hj hwanted => by
                rcases List.mem_cons.mp hj with rfl | hj
                · exact ⟨b, ha⟩
                · exact later j hj hwanted
              exact ⟨e, by rw [collect_answered hk ha, he]; rfl⟩

/-- **The order of the requests decides neither failure nor the multiset.** -/
theorem collect_perm (h : requests.Perm requests') :
    SameOutcome (collect answer keep requests) (collect answer keep requests') := by
  have hsame : AllAnswered answer keep requests ↔ AllAnswered answer keep requests' := by
    constructor
    · exact fun all i hi => all i (h.mem_iff.mpr hi)
    · exact fun all i hi => all i (h.mem_iff.mp hi)
  by_cases hall : AllAnswered answer keep requests
  · rw [collect_of_answered hall, collect_of_answered (hsame.mp hall)]
    exact .fetched (h.filterMap _)
  · obtain ⟨e, he⟩ := collect_of_not_answered hall
    obtain ⟨e', he'⟩ := collect_of_not_answered (mt hsame.mpr hall)
    rw [he, he']
    exact .failed e e'

end KChatCore.Lib.Cover
