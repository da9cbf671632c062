import KChatCore.Message.Indexing

/-!
# `Message.RowOwners` — whose a row id is

A page's row id starts with the hyphenated id of its message, which tells ids of 128 bits apart. So a row id is of one
message at most.

* `hyphenated_append_inj` — the hyphenated form, with whatever follows it, gives the id back.
* `OwnRow.unique` — a row id is of one message.
-/

namespace KChatCore.Message

open Lib LocalStore

/-- What the Rust type says of an id. -/
def Is128 (u : Uuid) : Prop := u.val < 2 ^ 128

/-! ## The hyphenated form -/

theorem digitChar_inj {a b : Nat} (ha : a < 16) (hb : b < 16) (h : Nat.digitChar a = Nat.digitChar b) : a = b := by
  have hall : ∀ a b : Fin 16, Nat.digitChar a.val = Nat.digitChar b.val → a = b := by decide
  exact congrArg Fin.val (hall ⟨a, ha⟩ ⟨b, hb⟩ h)

theorem hexByte_inj {a b : UInt8} (h : Uuid.hexByte a = Uuid.hexByte b) : a = b := by
  obtain ⟨hhigh, hrest⟩ := List.cons.inj h
  obtain ⟨hlow, -⟩ := List.cons.inj hrest
  have ha := a.toNat_lt
  have hb := b.toNat_lt
  have hdiv : a.toNat / 16 = b.toNat / 16 := digitChar_inj (by omega) (by omega) hhigh
  have hmod : a.toNat % 16 = b.toNat % 16 := digitChar_inj (by omega) (by omega) hlow
  apply UInt8.toNat_inj.mp
  omega

theorem flatMap_hexByte_inj {as bs : Bytes} (h : as.flatMap Uuid.hexByte = bs.flatMap Uuid.hexByte) : as = bs := by
  induction as generalizing bs with
  | nil =>
      cases bs with
      | nil => rfl
      | cons b bs => exact absurd h (by simp [Uuid.hexByte])
  | cons a as ih =>
      cases bs with
      | nil => exact absurd h (by simp [Uuid.hexByte])
      | cons b bs =>
          rw [List.flatMap_cons, List.flatMap_cons] at h
          obtain ⟨hfirst, hrest⟩ := List.append_inj h rfl
          rw [hexByte_inj hfirst, ih hrest]

/-- The thirty-two digits. -/
def hexDigits (u : Uuid) : List Char := u.asBytes.flatMap Uuid.hexByte

theorem length_hexDigits (u : Uuid) : (hexDigits u).length = 32 := by
  have hbytes : u.asBytes.length = 16 := by simp [Uuid.asBytes]
  simp [hexDigits, List.length_flatMap, Uuid.hexByte, hbytes]

/-- Numbers with the same bytes. -/
theorem mod_pow_eq_of_bytes {v w n : Nat} (h : ∀ i < n, v / 256 ^ i % 256 = w / 256 ^ i % 256) : v % 256 ^ n = w % 256 ^ n := by
  induction n with
  | zero => simp [Nat.mod_one]
  | succ n ih =>
      rw [Nat.mod_pow_succ, Nat.mod_pow_succ, ih fun i hi => h i (by omega), h n (by omega)]

theorem asBytes_inj {u v : Uuid} (hu : Is128 u) (hv : Is128 v) (h : u.asBytes = v.asBytes) : u = v := by
  have hbytes : (leBytes 16 u.val).toList = (leBytes 16 v.val).toList := List.reverse_injective h
  have hmod : u.val % 256 ^ 16 = v.val % 256 ^ 16 := by
    apply mod_pow_eq_of_bytes
    intro i hi
    have hget : (leBytes 16 u.val).get ⟨i, hi⟩ = (leBytes 16 v.val).get ⟨i, hi⟩ := by
      rw [List.Vector.toList_injective hbytes]
    simp only [leBytes, List.Vector.get_ofFn] at hget
    have hnat := congrArg UInt8.toNat hget
    simpa using hnat
  have hpow : (256 : Nat) ^ 16 = 2 ^ 128 := by norm_num
  unfold Is128 at hu hv
  rw [hpow, Nat.mod_eq_of_lt hu, Nat.mod_eq_of_lt hv] at hmod
  cases u
  cases v
  exact congrArg Uuid.mk hmod

theorem toList_hyphenated (u : Uuid) : u.hyphenated.toList =
    (hexDigits u).take 8 ++ '-' :: (((hexDigits u).drop 8).take 4 ++ '-' :: (((hexDigits u).drop 12).take 4 ++
      '-' :: (((hexDigits u).drop 16).take 4 ++ '-' :: (hexDigits u).drop 20))) := by
  unfold Uuid.hyphenated
  rw [String.toList_intercalate]
  simp [List.intercalate, hexDigits]

/-- **What starts with a hyphenated id gives it back.** -/
theorem hyphenated_append_inj {u v : Uuid} {s t : String} (hu : Is128 u) (hv : Is128 v)
    (h : u.hyphenated ++ s = v.hyphenated ++ t) : u = v := by
  have hlist := congrArg String.toList h
  rw [String.toList_append, String.toList_append] at hlist
  have hlu := length_hexDigits u
  have hlv := length_hexDigits v
  have hlength : u.hyphenated.toList.length = v.hyphenated.toList.length := by
    simp [toList_hyphenated, hlu, hlv]
  obtain ⟨hsame, -⟩ := List.append_inj hlist hlength
  rw [toList_hyphenated, toList_hyphenated] at hsame
  obtain ⟨h₁, hsame⟩ := List.append_inj hsame (by simp [hlu, hlv])
  obtain ⟨h₂, hsame⟩ := List.append_inj (List.cons.inj hsame).2 (by simp [hlu, hlv])
  obtain ⟨h₃, hsame⟩ := List.append_inj (List.cons.inj hsame).2 (by simp [hlu, hlv])
  obtain ⟨h₄, hsame⟩ := List.append_inj (List.cons.inj hsame).2 (by simp [hlu, hlv])
  have h₅ := (List.cons.inj hsame).2
  have hsplit : ∀ l : List Char, l = l.take 8 ++ ((l.drop 8).take 4 ++ ((l.drop 12).take 4 ++ ((l.drop 16).take 4 ++
      l.drop 20))) := by
    intro l
    have h₁₂ : l.drop 12 = (l.drop 8).drop 4 := by rw [List.drop_drop]
    have h₁₆ : l.drop 16 = (l.drop 12).drop 4 := by rw [List.drop_drop]
    have h₂₀ : l.drop 20 = (l.drop 16).drop 4 := by rw [List.drop_drop]
    rw [h₂₀, List.take_append_drop, h₁₆, List.take_append_drop, h₁₂, List.take_append_drop, List.take_append_drop]
  have hdigits : hexDigits u = hexDigits v := by
    rw [hsplit (hexDigits u), hsplit (hexDigits v), h₁, h₂, h₃, h₄, h₅]
  exact asBytes_inj hu hv (flatMap_hexByte_inj hdigits)

/-! ## Row ids -/

/-- **A row id is of one message.** -/
theorem OwnRow.unique {m k : Uuid} {rowId : IdText} (hm : Is128 m) (hk : Is128 k) (h : OwnRow m rowId) (h' : OwnRow k rowId) :
    m = k := by
  rcases h with rfl | ⟨n, rfl⟩
  · rcases h' with hid | ⟨n', hid⟩
    · exact Uuid.toText_inj.mp hid
    · exact absurd hid.symm (pageRowId_ne_toText k m n')
  · rcases h' with hid | ⟨n', hid⟩
    · exact absurd hid (pageRowId_ne_toText m k n)
    · unfold pageRowId at hid
      have htext := IdText.malformed.inj hid
      rw [String.append_assoc, String.append_assoc] at htext
      exact hyphenated_append_inj hm hk htext

end KChatCore.Message
