import Mathlib

/-!
# `Lib.Bits` — parts of an octet

* `toNat_high`, `toNat_low`, `toNat_join` — shifts and masks of an octet, as arithmetic.
* `nibbleAt_packNibbles` — values of four bits, packed two to an octet, are read back at their places.
* `bitsOf`, `bitsOf_set` — octets as a list of bits, and a bit that is set in one of them.
-/

namespace KChatCore.Lib

/-! ## Shifts and masks -/

theorem toNat_high {b : UInt8} {k : Nat} (hk : k < 8) : (b >>> UInt8.ofNat k).toNat = b.toNat / 2 ^ k := by
  have hshift : (UInt8.ofNat k).toNat % 8 = k := by
    rw [UInt8.toNat_ofNat']
    omega
  rw [UInt8.toNat_shiftRight, hshift, Nat.shiftRight_eq_div_pow]

theorem toNat_low (b : UInt8) {k : Nat} (hk : k < 8) : (b &&& UInt8.ofNat (2 ^ k - 1)).toNat = b.toNat % 2 ^ k := by
  have hpow : 2 ^ k < 2 ^ 8 := Nat.pow_lt_pow_right (by decide) hk
  have hmask : (UInt8.ofNat (2 ^ k - 1)).toNat = 2 ^ k - 1 := by
    rw [UInt8.toNat_ofNat']
    omega
  rw [UInt8.toNat_and, hmask, Nat.and_two_pow_sub_one_eq_mod]

theorem toNat_join {hi lo : UInt8} {k : Nat} (hk : k < 8) (hlo : lo.toNat < 2 ^ k) (hhi : hi.toNat * 2 ^ k < 2 ^ 8) :
    ((hi <<< UInt8.ofNat k) ||| lo).toNat = hi.toNat * 2 ^ k + lo.toNat := by
  have hshift : (UInt8.ofNat k).toNat % 8 = k := by
    rw [UInt8.toNat_ofNat']
    omega
  rw [UInt8.toNat_or, UInt8.toNat_shiftLeft, hshift, Nat.shiftLeft_eq, Nat.mod_eq_of_lt hhi, ← Nat.shiftLeft_eq,
    Nat.shiftLeft_add_eq_or_of_lt hlo]

/-! ## Nibbles -/

/-- Nibbles packed two to an octet, the low one first; the last octet may have one. -/
def packNibbles : List UInt8 → List UInt8
  | lo :: hi :: rest => (lo ||| (hi <<< 4)) :: packNibbles rest
  | [lo] => [lo]
  | [] => []

/-- The nibble at a place of packed octets. -/
def nibbleAt (packed : List UInt8) (i : Nat) : Option UInt8 :=
  packed[i / 2]?.map fun byte => if i % 2 = 0 then byte &&& 0x0F else (byte >>> 4) &&& 0x0F

theorem length_packNibbles (nibbles : List UInt8) : (packNibbles nibbles).length = (nibbles.length + 1) / 2 := by
  induction nibbles using packNibbles.induct with
  | case1 lo hi rest ih =>
      simp only [packNibbles, List.length_cons, ih]
      omega
  | case2 lo => simp [packNibbles]
  | case3 => simp [packNibbles]

theorem low_of_nibble {b : UInt8} (h : b.toNat < 16) : b &&& 0x0F = b :=
  UInt8.toNat_inj.mp ((toNat_low b (k := 4) (by decide)).trans (Nat.mod_eq_of_lt h))

/-- **Both nibbles of an octet come back.** -/
theorem nibbles_of_join {lo hi : UInt8} (hlo : lo.toNat < 16) (hhi : hi.toNat < 16) :
    (lo ||| (hi <<< 4)) &&& 0x0F = lo ∧ ((lo ||| (hi <<< 4)) >>> 4) &&& 0x0F = hi := by
  have hjoin : (lo ||| (hi <<< 4)).toNat = hi.toNat * 16 + lo.toNat := by
    rw [UInt8.or_comm]
    exact toNat_join (k := 4) (by decide) (by omega) (by omega)
  constructor
  · have hlow := toNat_low (lo ||| (hi <<< 4)) (k := 4) (by decide)
    rw [hjoin] at hlow
    exact UInt8.toNat_inj.mp (hlow.trans (by omega))
  · have hhigh := toNat_high (b := lo ||| (hi <<< 4)) (k := 4) (by decide)
    rw [hjoin] at hhigh
    have hshifted : ((lo ||| (hi <<< 4)) >>> 4).toNat = hi.toNat := hhigh.trans (by omega)
    rw [low_of_nibble (hshifted.trans_lt hhi)]
    exact UInt8.toNat_inj.mp hshifted

/-- **Packed nibbles are read back** at their places, and nothing behind them. -/
theorem nibbleAt_packNibbles {nibbles : List UInt8} (h : ∀ b ∈ nibbles, b.toNat < 16) (i : Nat)
    (hplace : i < nibbles.length) : nibbleAt (packNibbles nibbles) i = nibbles[i]? := by
  induction nibbles using packNibbles.induct generalizing i with
  | case1 lo hi rest ih =>
      obtain ⟨hlow, hhigh⟩ := nibbles_of_join (h lo List.mem_cons_self) (h hi (List.mem_cons_of_mem _ List.mem_cons_self))
      match i with
      | 0 => exact congrArg some hlow
      | 1 => exact congrArg some hhigh
      | i + 2 =>
          have hbyte : (i + 2) / 2 = i / 2 + 1 := by omega
          have hparity : (i + 2) % 2 = i % 2 := by omega
          have hrest := ih (fun b hb => h b (List.mem_cons_of_mem _ (List.mem_cons_of_mem _ hb))) i
            (by simp only [List.length_cons] at hplace; omega)
          unfold nibbleAt at hrest ⊢
          rw [hbyte, hparity, packNibbles, List.getElem?_cons_succ, List.getElem?_cons_succ, List.getElem?_cons_succ]
          exact hrest
  | case2 lo =>
      obtain rfl : i = 0 := by simpa using hplace
      exact congrArg some (low_of_nibble (h lo List.mem_cons_self))
  | case3 => exact absurd hplace (Nat.not_lt_zero i)

/-! ## Arrays of bits -/

/-- **Octets as bits**, the least significant bit of each first. -/
def bitsOf (bytes : List UInt8) : List Bool := bytes.flatMap fun b => (List.range 8).map b.toNat.testBit

@[simp] theorem length_bitsOf (bytes : List UInt8) : (bitsOf bytes).length = 8 * bytes.length := by
  induction bytes with
  | nil => rfl
  | cons b bytes ih =>
      rw [bitsOf, List.flatMap_cons, List.length_append, List.length_map, List.length_range, List.length_cons]
      change 8 + (bitsOf bytes).length = _
      omega

/-- A bit stands in its octet. -/
theorem getElem?_bitsOf (bytes : List UInt8) (pos : Nat) :
    (bitsOf bytes)[pos]? = bytes[pos / 8]?.map fun b => b.toNat.testBit (pos % 8) := by
  induction bytes generalizing pos with
  | nil => rfl
  | cons b bytes ih =>
      have hcons : bitsOf (b :: bytes) = (List.range 8).map b.toNat.testBit ++ bitsOf bytes := rfl
      have hoctet : ((List.range 8).map b.toNat.testBit).length = 8 := by rw [List.length_map, List.length_range]
      rw [hcons]
      by_cases hpos : pos < 8
      · have hfirst : pos / 8 = 0 := by omega
        have hin : pos % 8 = pos := Nat.mod_eq_of_lt hpos
        rw [List.getElem?_append_left (by rw [hoctet]; exact hpos), hfirst, hin, List.getElem?_map,
          List.getElem?_range hpos]
        rfl
      · have hrest : pos / 8 = (pos - 8) / 8 + 1 := by omega
        have hin : pos % 8 = (pos - 8) % 8 := by omega
        rw [List.getElem?_append_right (by rw [hoctet]; omega), hoctet, ih, hrest, hin, List.getElem?_cons_succ]

theorem testBit_high {b : UInt8} {k : Nat} (hk : k < 8) :
    (((b >>> UInt8.ofNat k) &&& 1) == 1) = b.toNat.testBit k := by
  have hbit : ((b >>> UInt8.ofNat k) &&& 1).toNat = b.toNat / 2 ^ k % 2 := by
    have hlow := toNat_low (b >>> UInt8.ofNat k) (k := 1) (by decide)
    rw [toNat_high hk] at hlow
    exact hlow
  rw [Nat.testBit_eq_decide_div_mod_eq, ← hbit, Bool.eq_iff_iff, beq_iff_eq, decide_eq_true_eq]
  exact UInt8.toNat_inj.symm

theorem testBit_or_one_shiftLeft {b : UInt8} {k : Nat} (hk : k < 8) (j : Nat) (hj : j < 8) :
    (b ||| (1 <<< UInt8.ofNat k)).toNat.testBit j = (decide (k = j) || b.toNat.testBit j) := by
  have hshift : (UInt8.ofNat k).toNat % 8 = k := by
    rw [UInt8.toNat_ofNat']
    omega
  have hone : ((1 : UInt8) <<< UInt8.ofNat k).toNat.testBit j = decide (k = j) := by
    rw [UInt8.toNat_shiftLeft, hshift, UInt8.toNat_one, Nat.testBit_mod_two_pow, decide_eq_true hj, Bool.true_and,
      Nat.shiftLeft_eq, Nat.one_mul, Nat.testBit_two_pow]
  rw [UInt8.toNat_or, Nat.testBit_lor, hone, Bool.or_comm]

/-- **A bit that is set in its octet** is set in the array, and no other bit is touched. -/
theorem bitsOf_set {bytes : List UInt8} {pos : Nat} (h : pos / 8 < bytes.length) :
    bitsOf (bytes.set (pos / 8) (bytes.getD (pos / 8) 0 ||| (1 <<< UInt8.ofNat (pos % 8)))) = (bitsOf bytes).set pos true := by
  have hbyte : bytes[pos / 8]? = some (bytes.getD (pos / 8) 0) := by
    rw [List.getD_eq_getElem?_getD, List.getElem?_eq_getElem h]
    rfl
  refine List.ext_getElem? fun i => ?_
  rw [getElem?_bitsOf, List.getElem?_set, List.getElem?_set, getElem?_bitsOf, length_bitsOf]
  by_cases hoctet : pos / 8 = i / 8
  · rw [if_pos hoctet, if_pos h, ← hoctet, hbyte, Option.map_some, Option.map_some,
      testBit_or_one_shiftLeft (Nat.mod_lt _ (by decide)) _ (Nat.mod_lt _ (by decide))]
    by_cases hpos : pos = i
    · subst hpos
      rw [if_pos rfl, if_pos (by omega), decide_eq_true rfl, Bool.true_or]
    · have hplace : ¬ pos % 8 = i % 8 := by omega
      rw [if_neg hpos, decide_eq_false hplace, Bool.false_or]
  · have hpos : ¬ pos = i := fun heq => hoctet (heq ▸ rfl)
    rw [if_neg hoctet, if_neg hpos]

end KChatCore.Lib
