import Mathlib

/-!
# `Lib.Tagged` — labels in front of framed arguments

A tagged string is a label followed by arguments, and the label says how the arguments are framed. Where no label is a
prefix of another one, the string says which label it carries; where every framing is injective, it says the arguments too.

* `PrefixFree.entry_eq` — the label is read off the front.
* `lengthPrefixed_inj` — two arguments without a mark between them, the first one behind its length.
* `PrefixFree.tagged_inj` — a tagged string determines label and arguments.
-/

namespace KChatCore.Lib

universe u v w

variable {α : Type u} {β : Type v} {γ : Type w}

/-- **A prefix-free table** of labels, each with the shape of its arguments: no label begins another entry's label. -/
def PrefixFree (table : List (List α × β)) : Prop := ∀ p ∈ table, ∀ q ∈ table, p.1 <+: q.1 → p = q

instance [DecidableEq α] [DecidableEq β] (table : List (List α × β)) : Decidable (PrefixFree table) :=
  inferInstanceAs (Decidable (∀ p ∈ table, ∀ q ∈ table, p.1 <+: q.1 → p = q))

variable {table : List (List α × β)}

/-- **The label is read off the front**, and with it the shape and what follows. -/
theorem PrefixFree.entry_eq (htable : PrefixFree table) {a b x y : List α} {m n : β} (ha : (a, m) ∈ table)
    (hb : (b, n) ∈ table) (h : a ++ x = b ++ y) : a = b ∧ m = n ∧ x = y := by
  -- of two beginnings of one string, one begins the other
  have hentry : (a, m) = (b, n) := by
    have ha' : a <+: a ++ x := List.prefix_append a x
    have hb' : b <+: a ++ x := h ▸ List.prefix_append b y
    rcases List.prefix_or_prefix_of_prefix ha' hb' with hab | hba
    · exact htable _ ha _ hb hab
    · exact (htable _ hb _ ha hba).symm
  obtain ⟨rfl, rfl⟩ := Prod.mk.inj hentry
  exact ⟨rfl, rfl, List.append_cancel_left h⟩

/-- Two arguments, the first one behind its length. -/
def lengthPrefixed (len : Nat → List α) (x y : List α) : List α := len x.length ++ x ++ y

/-- **A length in front of the first argument** tells where the second one starts. -/
theorem lengthPrefixed_inj {len : Nat → List α} {bound width : Nat} (hwidth : ∀ n, (len n).length = width)
    (hlen : ∀ m n, m < bound → n < bound → len m = len n → m = n) {x y x' y' : List α} (hx : x.length < bound)
    (hx' : x'.length < bound) (h : lengthPrefixed len x y = lengthPrefixed len x' y') : x = x' ∧ y = y' := by
  unfold lengthPrefixed at h
  rw [List.append_assoc, List.append_assoc] at h
  obtain ⟨hprefixes, hrest⟩ := List.append_inj h ((hwidth _).trans (hwidth _).symm)
  exact List.append_inj hrest (hlen _ _ hx hx' hprefixes)

/-- **A tagged string determines label and arguments**: the framing of each shape is injective on what it frames. -/
theorem PrefixFree.tagged_inj (htable : PrefixFree table) {frame : β → γ → List α} {fits : β → γ → Prop}
    (hframe : ∀ m x y, fits m x → fits m y → frame m x = frame m y → x = y) {a b : List α} {m n : β} {x y : γ}
    (ha : (a, m) ∈ table) (hb : (b, n) ∈ table) (hx : fits m x) (hy : fits n y)
    (h : a ++ frame m x = b ++ frame n y) : a = b ∧ x = y := by
  obtain ⟨hab, rfl, hframes⟩ := htable.entry_eq ha hb h
  exact ⟨hab, hframe _ _ _ hx hy hframes⟩

end KChatCore.Lib
