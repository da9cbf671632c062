import Mathlib

/-!
# `Lib.Fit` — the longest beginning of a sequence that fits into a budget

Every element has a size of at least one; `fit` takes elements as long as their sizes fit.

* `fit_longest` — it is the longest beginning that fits, and the only one (`LongestPart.unique`).
* `fit_weight` — a budget that ends between two elements cuts there.
-/

namespace KChatCore.Lib

universe u

variable {α : Type u} (size : α → Nat)

/-- The size of a sequence. -/
def weight (l : List α) : Nat := (l.map size).sum

/-- Elements from the beginning, as long as they fit. -/
def fit : Nat → List α → List α
  | _, [] => []
  | budget, a :: l => if size a ≤ budget then a :: fit (budget - size a) l else []

/-- **The longest beginning that fits** into a budget. -/
structure LongestPart (budget : Nat) (l part : List α) : Prop where
  begins : part <+: l
  fits : weight size part ≤ budget
  longest : ∀ p, p <+: l → weight size p ≤ budget → p <+: part

variable {size}

@[simp] theorem weight_nil : weight size ([] : List α) = 0 := rfl

@[simp] theorem weight_cons (a : α) (l : List α) : weight size (a :: l) = size a + weight size l := by
  rw [weight, weight, List.map_cons, List.sum_cons]

theorem weight_append (l l' : List α) : weight size (l ++ l') = weight size l + weight size l' := by
  rw [weight, weight, weight, List.map_append, List.sum_append]

theorem LongestPart.unique {budget : Nat} {l part part' : List α} (h : LongestPart size budget l part)
    (h' : LongestPart size budget l part') : part = part' :=
  (h'.longest _ h.begins h.fits).eq_of_length_le (h.longest _ h'.begins h'.fits).length_le

/-- **`fit` takes the longest beginning that fits.** -/
theorem fit_longest (budget : Nat) (l : List α) : LongestPart size budget l (fit size budget l) := by
  induction l generalizing budget with
  | nil =>
      refine ⟨List.nil_prefix, Nat.zero_le _, ?_⟩
      intro p hp _
      rw [List.prefix_nil.mp hp]
      exact List.nil_prefix
  | cons a l ih =>
      unfold fit
      split_ifs with hfits
      · obtain ⟨hpart, hweight, hlongest⟩ := ih (budget - size a)
        refine ⟨(List.prefix_cons_inj a).mpr hpart, ?_, ?_⟩
        · rw [weight_cons]
          omega
        · intro p hp hle
          cases p with
          | nil => exact List.nil_prefix
          | cons b p =>
              obtain ⟨rfl, hrest⟩ := List.cons_prefix_cons.mp hp
              rw [weight_cons] at hle
              exact (List.prefix_cons_inj _).mpr (hlongest p hrest (by omega))
      · refine ⟨List.nil_prefix, Nat.zero_le _, ?_⟩
        intro p hp hle
        cases p with
        | nil => exact List.nil_prefix
        | cons b p =>
            obtain ⟨rfl, -⟩ := List.cons_prefix_cons.mp hp
            rw [weight_cons] at hle
            omega

/-- What fits is taken whole. -/
theorem fit_of_le {budget : Nat} {l : List α} (h : weight size l ≤ budget) : fit size budget l = l :=
  (fit_longest budget l).unique ⟨List.prefix_refl l, h, fun _ hp _ => hp⟩

/-- Something is taken exactly if the first element fits. -/
theorem fit_ne_nil_iff {budget : Nat} {l : List α} :
    fit size budget l ≠ [] ↔ ∃ a rest, l = a :: rest ∧ size a ≤ budget := by
  cases l with
  | nil =>
      simp only [fit, ne_eq, not_true_eq_false, false_iff]
      rintro ⟨a, rest, h, -⟩
      exact absurd h (List.cons_ne_nil a rest).symm
  | cons a l =>
      unfold fit
      constructor
      · intro h
        split_ifs at h with hfits
        · exact ⟨a, l, rfl, hfits⟩
        · exact absurd rfl h
      · rintro ⟨b, rest, heq, hfits⟩
        obtain ⟨rfl, rfl⟩ := List.cons.inj heq
        rw [if_pos hfits]
        exact List.cons_ne_nil _ _

/-- **A budget that ends between two elements** cuts there. -/
theorem fit_weight (hsize : ∀ a, 0 < size a) (part rest : List α) :
    fit size (weight size part) (part ++ rest) = part := by
  induction part with
  | nil =>
      cases rest with
      | nil => rfl
      | cons a rest =>
          have hpos := hsize a
          rw [List.nil_append, weight_nil, fit, if_neg (by omega)]
  | cons a part ih =>
      rw [List.cons_append, fit, weight_cons, if_pos (Nat.le_add_right _ _), Nat.add_sub_cancel_left, ih]

end KChatCore.Lib
