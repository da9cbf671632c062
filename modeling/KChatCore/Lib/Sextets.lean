import Mathlib

/-!
# `Lib.Sextets` — octets cut into groups of six bits

Three octets are four sextets. One or two octets at the end are two or three sextets, whose unused bits are zero.

* `octets_sextets` — the octets come back out of their sextets.
* `sextets_octets` — the sextets come back out of their octets exactly if they are `Canonical`: no sextet stands alone,
  and no unused bit is set.
-/

namespace KChatCore.Lib

/-- The sextets of a string of octets. -/
def sextets : List UInt8 → List Nat
  | b0 :: b1 :: b2 :: rest =>
      b0.toNat / 4 :: (b0.toNat % 4 * 16 + b1.toNat / 16) :: (b1.toNat % 16 * 4 + b2.toNat / 64) :: b2.toNat % 64 ::
        sextets rest
  | [b0, b1] => [b0.toNat / 4, b0.toNat % 4 * 16 + b1.toNat / 16, b1.toNat % 16 * 4]
  | [b0] => [b0.toNat / 4, b0.toNat % 4 * 16]
  | [] => []

/-- The whole octets of a string of sextets; bits left over are dropped. -/
def octets : List Nat → List UInt8
  | v0 :: v1 :: v2 :: v3 :: rest =>
      UInt8.ofNat (v0 * 4 + v1 / 16) :: UInt8.ofNat (v1 % 16 * 16 + v2 / 4) :: UInt8.ofNat (v2 % 4 * 64 + v3) :: octets rest
  | [v0, v1, v2] => [UInt8.ofNat (v0 * 4 + v1 / 16), UInt8.ofNat (v1 % 16 * 16 + v2 / 4)]
  | [v0, v1] => [UInt8.ofNat (v0 * 4 + v1 / 16)]
  | _ => []

/-- **Sextets as an encoder leaves them**: nothing stands behind the last octet but zeros. -/
def Canonical : List Nat → Prop
  | _ :: _ :: _ :: _ :: rest => Canonical rest
  | [_, _, v2] => v2 % 4 = 0
  | [_, v1] => v1 % 16 = 0
  | [_] => False
  | [] => True

theorem sextets_lt (b : List UInt8) : ∀ v ∈ sextets b, v < 64 := by
  induction b using sextets.induct with
  | case1 b0 b1 b2 rest ih =>
      have h0 := b0.toNat_lt
      have h1 := b1.toNat_lt
      have h2 := b2.toNat_lt
      simp only [sextets, List.mem_cons]
      rintro v (rfl | rfl | rfl | rfl | hv)
      · omega
      · omega
      · omega
      · omega
      · exact ih v hv
  | case2 b0 b1 =>
      have h0 := b0.toNat_lt
      have h1 := b1.toNat_lt
      simp only [sextets, List.mem_cons, List.not_mem_nil, or_false]
      rintro v (rfl | rfl | rfl) <;> omega
  | case3 b0 =>
      have h0 := b0.toNat_lt
      simp only [sextets, List.mem_cons, List.not_mem_nil, or_false]
      rintro v (rfl | rfl) <;> omega
  | case4 => exact fun v hv => absurd hv List.not_mem_nil

theorem ofNat_eq {b : UInt8} {n : Nat} (h : n = b.toNat) : UInt8.ofNat n = b := by
  rw [h, UInt8.ofNat_toNat]

/-- **The octets come back** out of their sextets. -/
theorem octets_sextets (b : List UInt8) : octets (sextets b) = b := by
  induction b using sextets.induct with
  | case1 b0 b1 b2 rest ih =>
      have h1 := b1.toNat_lt
      have h2 := b2.toNat_lt
      simp only [sextets, octets, ih]
      rw [ofNat_eq (b := b0) (by omega), ofNat_eq (b := b1) (by omega), ofNat_eq (b := b2) (by omega)]
  | case2 b0 b1 =>
      have h1 := b1.toNat_lt
      simp only [sextets, octets]
      rw [ofNat_eq (b := b0) (by omega), ofNat_eq (b := b1) (by omega)]
  | case3 b0 =>
      simp only [sextets, octets]
      rw [ofNat_eq (b := b0) (by omega)]
  | case4 => rfl

/-- What an encoder leaves is canonical. -/
theorem canonical_sextets (b : List UInt8) : Canonical (sextets b) := by
  induction b using sextets.induct with
  | case1 b0 b1 b2 rest ih => exact ih
  | case2 b0 b1 => exact Nat.mul_mod_left _ 4
  | case3 b0 => exact Nat.mul_mod_left _ 16
  | case4 => trivial

/-- What `octets` has no case for is one sextet or none. -/
theorem at_most_one {vs : List Nat} (hfour : ∀ v0 v1 v2 v3 rest, vs = v0 :: v1 :: v2 :: v3 :: rest → False)
    (hthree : ∀ v0 v1 v2, vs = [v0, v1, v2] → False) (htwo : ∀ v0 v1, vs = [v0, v1] → False) :
    vs = [] ∨ ∃ v, vs = [v] := by
  rcases vs with _ | ⟨v0, _ | ⟨v1, _ | ⟨v2, _ | ⟨v3, rest⟩⟩⟩⟩
  · exact .inl rfl
  · exact .inr ⟨v0, rfl⟩
  · exact (htwo v0 v1 rfl).elim
  · exact (hthree v0 v1 v2 rfl).elim
  · exact (hfour v0 v1 v2 v3 rest rfl).elim

/-- **The sextets come back** out of their octets, if an encoder could have left them. -/
theorem sextets_octets (vs : List Nat) (hlt : ∀ v ∈ vs, v < 64) (h : Canonical vs) : sextets (octets vs) = vs := by
  induction vs using octets.induct with
  | case1 v0 v1 v2 v3 rest ih =>
      simp only [List.mem_cons, forall_eq_or_imp] at hlt
      obtain ⟨h0, h1, h2, h3, hrest⟩ := hlt
      simp only [octets, sextets, ih hrest h, UInt8.toNat_ofNat']
      congr 1
      · omega
      congr 1
      · omega
      congr 1
      · omega
      congr 1
      omega
  | case2 v0 v1 v2 =>
      simp only [List.mem_cons, List.not_mem_nil, or_false, forall_eq_or_imp, forall_eq] at hlt
      obtain ⟨h0, h1, h2⟩ := hlt
      -- the bits that no octet takes are zero
      have hunused : v2 % 4 = 0 := h
      simp only [octets, sextets, UInt8.toNat_ofNat']
      congr 1
      · omega
      congr 1
      · omega
      congr 1
      omega
  | case3 v0 v1 =>
      simp only [List.mem_cons, List.not_mem_nil, or_false, forall_eq_or_imp, forall_eq] at hlt
      obtain ⟨h0, h1⟩ := hlt
      have hunused : v1 % 16 = 0 := h
      simp only [octets, sextets, UInt8.toNat_ofNat']
      congr 1
      · omega
      congr 1
      omega
  | case4 vs hfour hthree htwo =>
      rcases at_most_one hfour hthree htwo with rfl | ⟨v, rfl⟩
      · rfl
      · exact absurd h id

/-- **Canonical, read off the end**: the number of sextets, and the unused bits of the last one. -/
theorem canonical_iff (vs : List Nat) : Canonical vs ↔ vs.length % 4 ≠ 1 ∧
    (vs.length % 4 = 2 → vs.getLast?.getD 0 % 16 = 0) ∧ (vs.length % 4 = 3 → vs.getLast?.getD 0 % 4 = 0) := by
  induction vs using octets.induct with
  | case1 v0 v1 v2 v3 rest ih =>
      have hlength : (v0 :: v1 :: v2 :: v3 :: rest).length % 4 = rest.length % 4 := by
        simp only [List.length_cons]
        omega
      rw [hlength]
      cases rest with
      | nil => simp [Canonical]
      | cons v rest =>
          simp only [List.getLast?_cons_cons]
          exact ih
  | case2 v0 v1 v2 => simp [Canonical]
  | case3 v0 v1 => simp [Canonical]
  | case4 vs hfour hthree htwo =>
      rcases at_most_one hfour hthree htwo with rfl | ⟨v, rfl⟩
      · simp [Canonical]
      · simp [Canonical]

end KChatCore.Lib
