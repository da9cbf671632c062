import KChatCore.Base

/-!
# `Models.Machine` — arithmetic and slices that may panic

A `Checked` computation returns, fails with a text, or panics: a sum of `usize` that overflows and an index out of range
have no result. A slice is never longer than `isize::MAX`.

* `Settles.bind` — what does not panic, step by step.
-/

namespace KChatCore.Models

/-- `ModelError`, as the modelled functions return it. -/
inductive ModelError
  | mediaDecode (op detail : String)
  | custom (message : String)
deriving DecidableEq, Repr

/-- The width of `usize`. -/
inductive PointerWidth
  | bits32
  | bits64
deriving DecidableEq, Repr

/-- `usize::MAX`. -/
def PointerWidth.usizeMax : PointerWidth → Nat
  | bits32 => 2 ^ 32 - 1
  | bits64 => 2 ^ 64 - 1

/-- `isize::MAX`. -/
def PointerWidth.isizeMax : PointerWidth → Nat
  | bits32 => 2 ^ 31 - 1
  | bits64 => 2 ^ 63 - 1

/-- **A computation that may fail or panic.** -/
abbrev Checked := ExceptT String Option

variable {α β : Type} {w : PointerWidth}

/-- A panic. -/
def crash : Checked α := ExceptT.mk none

/-- `Option::ok_or_else`. -/
def orFail (x : Option α) (message : String) : Checked α :=
  match x with
  | some a => pure a
  | none => throw message

/-- `a + b`. -/
def addUsize (w : PointerWidth) (a b : Nat) : Checked Nat := if a + b ≤ w.usizeMax then pure (a + b) else crash

/-- `a - b`. -/
def subUsize (a b : Nat) : Checked Nat := if b ≤ a then pure (a - b) else crash

/-- `usize::checked_add`. -/
def checkedAdd (w : PointerWidth) (a b : Nat) : Option Nat := if a + b ≤ w.usizeMax then some (a + b) else none

/-- `&bytes[start..stop]`. -/
def slice (bytes : Bytes) (start stop : Nat) : Checked Bytes :=
  if start ≤ stop ∧ stop ≤ bytes.length then pure ((bytes.drop start).take (stop - start)) else crash

/-- `bytes[i]`. -/
def index (bytes : Bytes) (i : Nat) : Checked UInt8 := if i < bytes.length then pure (bytes.getD i 0) else crash

/-- There is room for a few more above the longest slice. -/
theorem isizeMax_add_lt (w : PointerWidth) : w.isizeMax + 2 ^ 30 ≤ w.usizeMax := by
  cases w <;> decide

theorem addUsize_eq {a b : Nat} (h : a + b ≤ w.usizeMax) : addUsize w a b = pure (a + b) := if_pos h

theorem subUsize_eq {a b : Nat} (h : b ≤ a) : subUsize a b = pure (a - b) := if_pos h

theorem checkedAdd_eq {a b : Nat} (h : a + b ≤ w.usizeMax) : checkedAdd w a b = some (a + b) := if_pos h

theorem slice_eq {bytes : Bytes} {start stop : Nat} (h : start ≤ stop) (h' : stop ≤ bytes.length) :
    slice bytes start stop = pure ((bytes.drop start).take (stop - start)) := if_pos ⟨h, h'⟩

theorem index_eq {bytes : Bytes} {i : Nat} (h : i < bytes.length) : index bytes i = pure (bytes.getD i 0) := if_pos h

/-! ## What does not panic -/

/-- **The computation does not panic.** -/
def Settles (x : Checked α) : Prop := ∃ r : Except String α, x.run = some r

theorem settles_pure (a : α) : Settles (pure a : Checked α) := ⟨.ok a, rfl⟩

theorem settles_throw (message : String) : Settles (throw message : Checked α) := ⟨.error message, rfl⟩

theorem checked_bind_eq_ok {x : Checked α} {f : α → Checked β} {b : β} :
    x >>= f = pure b ↔ ∃ a, x = pure a ∧ f a = pure b := by
  rcases x with _ | e | a
  · exact ⟨fun h => absurd h (by rintro ⟨⟩), fun ⟨a, h, _⟩ => absurd h (by rintro ⟨⟩)⟩
  · exact ⟨fun h => absurd h (by rintro ⟨⟩), fun ⟨a, h, _⟩ => absurd h (by rintro ⟨⟩)⟩
  · refine ⟨fun h => ⟨a, rfl, h⟩, ?_⟩
    rintro ⟨a', h, hf⟩
    obtain rfl : a = a' := Except.ok.inj (Option.some.inj h)
    exact hf

/-- What does not panic, followed by what does not panic. -/
theorem Settles.bind {x : Checked α} {f : α → Checked β} (h : Settles x) (hf : ∀ a, x = pure a → Settles (f a)) :
    Settles (x >>= f) := by
  obtain ⟨e | a, hx⟩ := h
  · obtain rfl : x = throw e := hx
    exact settles_throw e
  · obtain rfl : x = pure a := hx
    exact hf a rfl

theorem settles_orFail (x : Option α) (message : String) : Settles (orFail x message) := by
  cases x with
  | none => exact settles_throw message
  | some a => exact settles_pure a

theorem orFail_eq_ok {x : Option α} {message : String} {a : α} : orFail x message = pure a ↔ x = some a := by
  cases x with
  | none => exact ⟨fun h => absurd h (by rintro ⟨⟩), fun h => absurd h (by simp)⟩
  | some b => exact ⟨fun h => congrArg some (Except.ok.inj (Option.some.inj h)), fun h => congrArg pure (Option.some.inj h)⟩

theorem throw_ne_pure {message : String} {a : α} : (throw message : Checked α) ≠ pure a := by
  rintro ⟨⟩

/-- A map each of whose calls returns. -/
theorem mapM_of_returns {f : α → Checked β} {l : List α} (h : ∀ a ∈ l, ∃ b, f a = pure b) :
    ∃ bs, l.mapM f = pure bs ∧ bs.length = l.length := by
  induction l with
  | nil => exact ⟨[], rfl, rfl⟩
  | cons a l ih =>
      obtain ⟨b, hb⟩ := h a List.mem_cons_self
      obtain ⟨bs, hbs, hlen⟩ := ih fun a' ha' => h a' (List.mem_cons_of_mem a ha')
      refine ⟨b :: bs, ?_, congrArg (· + 1) hlen⟩
      rw [List.mapM_cons, hb, pure_bind, hbs, pure_bind]

theorem settles_index {bytes : Bytes} {i : Nat} (h : i < bytes.length) : Settles (index bytes i) := by
  rw [index_eq h]
  exact settles_pure _

end KChatCore.Models
