import Mathlib

/-!
# `Lib.Table` — keyed tables, and references between them

A `Table key` is a list of rows in insertion order, no two with the same key: a duplicate cannot be built.
`find?` looks a key up; the writes are those of SQL:

* `insert?` — `INSERT`, which fails on a key that is taken; `insertOrIgnore` — `INSERT OR IGNORE`;
* `update` — `UPDATE ... SET ... WHERE`, of columns outside the key; `delete` — `DELETE ... WHERE`.

`Refers column child parent` says that a column of one table holds keys of another (`REFERENCES`), and each write
has a lemma on what it does to a reference.
-/

namespace KChatCore.Lib

universe u v

/-- **A table**: rows in insertion order, with distinct keys. -/
structure Table {ρ : Type u} {κ : Type v} (key : ρ → κ) where
  rows : List ρ
  keyed : (rows.map key).Nodup

namespace Table

variable {ρ : Type u} {κ : Type v} {key : ρ → κ}

/-- The table without rows. -/
def empty : Table key := ⟨[], List.nodup_nil⟩

@[simp] theorem rows_empty : (empty : Table key).rows = [] := rfl

/-- Rows with the same key are the same row. -/
theorem eq_of_key (t : Table key) {r r' : ρ} (hr : r ∈ t.rows) (hr' : r' ∈ t.rows) (h : key r = key r') : r = r' :=
  List.inj_on_of_nodup_map t.keyed hr hr' h

section Lookup

variable [DecidableEq κ]

/-- `SELECT ... WHERE key = k`. -/
def find? (t : Table key) (k : κ) : Option ρ := t.rows.find? fun r => key r = k

@[simp] theorem find?_empty (k : κ) : (empty : Table key).find? k = none := rfl

theorem find?_eq_some {t : Table key} {k : κ} {r : ρ} : t.find? k = some r ↔ r ∈ t.rows ∧ key r = k := by
  constructor
  · intro h
    have hkey : key r = k := by simpa using List.find?_some h
    exact ⟨List.mem_of_find?_eq_some h, hkey⟩
  · rintro ⟨hmem, rfl⟩
    obtain ⟨r', hr'⟩ := Option.isSome_iff_exists.mp
      (List.find?_isSome.mpr ⟨r, hmem, by simp⟩ : (t.rows.find? fun x => decide (key x = key r)).isSome)
    have hkey : key r' = key r := by simpa using List.find?_some hr'
    rw [find?, hr', t.eq_of_key (List.mem_of_find?_eq_some hr') hmem hkey]

theorem find?_eq_none {t : Table key} {k : κ} : t.find? k = none ↔ ∀ r ∈ t.rows, key r ≠ k := by
  simp [find?, List.find?_eq_none]

theorem find?_of_mem {t : Table key} {r : ρ} (hr : r ∈ t.rows) : t.find? (key r) = some r :=
  find?_eq_some.mpr ⟨hr, rfl⟩

theorem mem_of_find? {t : Table key} {k : κ} {r : ρ} (h : t.find? k = some r) : r ∈ t.rows :=
  (find?_eq_some.mp h).1

theorem key_of_find? {t : Table key} {k : κ} {r : ρ} (h : t.find? k = some r) : key r = k :=
  (find?_eq_some.mp h).2

/-- Whether a key is taken. -/
def has (t : Table key) (k : κ) : Bool := (t.find? k).isSome

theorem has_iff {t : Table key} {k : κ} : t.has k = true ↔ ∃ r ∈ t.rows, key r = k := by
  rw [has, Option.isSome_iff_exists]
  simp only [find?_eq_some]

theorem has_eq_false {t : Table key} {k : κ} : t.has k = false ↔ ∀ r ∈ t.rows, key r ≠ k := by
  rw [has, Option.isSome_eq_false_iff, Option.isNone_iff_eq_none, find?_eq_none]

end Lookup

/-! ## Inserting -/

section Insert

variable [DecidableEq κ]

/-- A row under a free key, appended. -/
def append (t : Table key) (r : ρ) (h : t.has (key r) = false) : Table key where
  rows := t.rows ++ [r]
  keyed := by
    rw [List.map_append, List.nodup_append]
    refine ⟨t.keyed, by simp, ?_⟩
    intro k hk k' hk'
    obtain ⟨r', hr', rfl⟩ := List.mem_map.mp hk
    rw [List.map_singleton, List.mem_singleton] at hk'
    rw [hk']
    exact has_eq_false.mp h r' hr'

/-- `INSERT`. -/
def insert? (t : Table key) (r : ρ) : Option (Table key) :=
  if h : t.has (key r) = false then some (t.append r h) else none

/-- `INSERT OR IGNORE`. -/
def insertOrIgnore (t : Table key) (r : ρ) : Table key :=
  if h : t.has (key r) = false then t.append r h else t

theorem insert?_eq_some {t t' : Table key} {r : ρ} :
    t.insert? r = some t' ↔ ∃ h : t.has (key r) = false, t' = t.append r h := by
  unfold insert?
  by_cases h : t.has (key r) = false
  · simp [h, eq_comm]
  · simp [h]

@[simp] theorem rows_append (t : Table key) (r : ρ) (h : t.has (key r) = false) :
    (t.append r h).rows = t.rows ++ [r] := rfl

theorem find?_append (t : Table key) (r : ρ) (h : t.has (key r) = false) (k : κ) :
    (t.append r h).find? k = if key r = k then some r else t.find? k := by
  by_cases hk : key r = k
  · rw [if_pos hk, find?_eq_some]
    exact ⟨by simp, hk⟩
  · rw [if_neg hk]
    simp [find?, List.find?_append, hk]

theorem has_append (t : Table key) (r : ρ) (h : t.has (key r) = false) (k : κ) :
    (t.append r h).has k = true ↔ key r = k ∨ t.has k = true := by
  rw [has, has, find?_append]
  by_cases hk : key r = k <;> simp [hk]

theorem find?_append_self (t : Table key) (r : ρ) (h : t.has (key r) = false) : (t.append r h).find? (key r) = some r := by
  rw [find?_append, if_pos rfl]

theorem mem_insertOrIgnore {t : Table key} {r x : ρ} :
    x ∈ (t.insertOrIgnore r).rows ↔ x ∈ t.rows ∨ (x = r ∧ t.has (key r) = false) := by
  unfold insertOrIgnore
  by_cases h : t.has (key r) = false
  · simp [h]
  · simp [h]

theorem find?_insertOrIgnore (t : Table key) (r : ρ) (k : κ) :
    (t.insertOrIgnore r).find? k = if key r = k then some ((t.find? k).getD r) else t.find? k := by
  unfold insertOrIgnore
  by_cases h : t.has (key r) = false
  · rw [dif_pos h, find?_append]
    by_cases hk : key r = k
    · have hnone : t.find? k = none := find?_eq_none.mpr (hk ▸ has_eq_false.mp h)
      simp [hk, hnone]
    · simp [hk]
  · rw [dif_neg h]
    by_cases hk : key r = k
    · rw [Bool.not_eq_false] at h
      obtain ⟨r', hr'⟩ := Option.isSome_iff_exists.mp h
      rw [if_pos hk, ← hk, hr', Option.getD_some]
    · rw [if_neg hk]

/-- Rows of another kind do not notice. -/
theorem filter_insertOrIgnore (t : Table key) {r : ρ} {p : ρ → Bool} (hp : p r = false) :
    (t.insertOrIgnore r).rows.filter p = t.rows.filter p := by
  unfold insertOrIgnore
  by_cases h : t.has (key r) = false
  · rw [dif_pos h, rows_append, List.filter_append]
    simp [hp]
  · rw [dif_neg h]

/-- The key of an ignored or inserted row is taken afterwards. -/
theorem has_insertOrIgnore (t : Table key) (r : ρ) : (t.insertOrIgnore r).has (key r) = true := by
  rw [has, find?_insertOrIgnore, if_pos rfl, Option.isSome_some]

end Insert

/-! ## Updating and deleting -/

/-- `UPDATE ... SET f WHERE p`; `f` does not touch the key. -/
def update (t : Table key) (p : ρ → Bool) (f : ρ → ρ) (hf : ∀ r, key (f r) = key r) : Table key where
  rows := t.rows.map fun r => if p r then f r else r
  keyed := by
    have hkeys : (t.rows.map fun r => if p r then f r else r).map key = t.rows.map key := by
      rw [List.map_map]
      apply List.map_congr_left
      intro r _
      by_cases hp : p r
      · simp [hp, hf]
      · simp [hp]
    rw [hkeys]
    exact t.keyed

/-- `DELETE ... WHERE p`. -/
def delete (t : Table key) (p : ρ → Bool) : Table key where
  rows := t.rows.filter fun r => !p r
  keyed := (List.filter_sublist.map key).nodup t.keyed

theorem mem_delete {t : Table key} {p : ρ → Bool} {r : ρ} : r ∈ (t.delete p).rows ↔ r ∈ t.rows ∧ p r = false := by
  simp [delete]

theorem mem_update {t : Table key} {p : ρ → Bool} {f : ρ → ρ} {hf : ∀ r, key (f r) = key r} {x : ρ} :
    x ∈ (t.update p f hf).rows ↔ ∃ r ∈ t.rows, x = if p r then f r else r := by
  show x ∈ List.map _ _ ↔ _
  rw [List.mem_map]
  constructor
  · rintro ⟨r, hr, rfl⟩
    exact ⟨r, hr, rfl⟩
  · rintro ⟨r, hr, rfl⟩
    exact ⟨r, hr, rfl⟩

/-- Rows of another kind, before and after, do not notice. -/
theorem filter_update (t : Table key) {p : ρ → Bool} {f : ρ → ρ} {hf : ∀ r, key (f r) = key r} {q : ρ → Bool}
    (hq : ∀ r, p r = true → q r = false ∧ q (f r) = false) :
    (t.update p f hf).rows.filter q = t.rows.filter q := by
  show (t.rows.map _).filter q = _
  induction t.rows with
  | nil => rfl
  | cons r rs ih =>
      rw [List.map_cons, List.filter_cons, List.filter_cons, ih]
      by_cases hp : p r = true
      · simp [hp, hq r hp]
      · simp [hp]

section Lookup

variable [DecidableEq κ]

theorem find?_update (t : Table key) (p : ρ → Bool) (f : ρ → ρ) (hf : ∀ r, key (f r) = key r) (k : κ) :
    (t.update p f hf).find? k = (t.find? k).map fun r => if p r then f r else r := by
  have hkey : ∀ r, key (if p r then f r else r) = key r := by
    intro r
    by_cases hp : p r
    · simp [hp, hf]
    · simp [hp]
  simp only [find?, update, List.find?_map, Function.comp_def, hkey]

theorem find?_delete (t : Table key) (p : ρ → Bool) (k : κ) :
    (t.delete p).find? k = (t.find? k).filter fun r => !p r := by
  rcases h : t.find? k with _ | r
  · rw [find?_eq_none] at h
    exact find?_eq_none.mpr fun r hr => h r (mem_delete.mp hr).1
  · obtain ⟨hmem, hkey⟩ := find?_eq_some.mp h
    cases hp : p r with
    | false =>
        rw [Option.filter_some, hp]
        exact find?_eq_some.mpr ⟨mem_delete.mpr ⟨hmem, hp⟩, hkey⟩
    | true =>
        rw [Option.filter_some, hp]
        refine find?_eq_none.mpr fun r' hr' hk => ?_
        obtain ⟨hmem', hp'⟩ := mem_delete.mp hr'
        rw [t.eq_of_key hmem' hmem (hk.trans hkey.symm), hp] at hp'
        exact Bool.noConfusion hp'

/-- `INSERT OR REPLACE`. -/
def upsert (t : Table key) (r : ρ) : Table key :=
  (t.delete fun r' => key r' = key r).append r (has_eq_false.mpr fun r' hr' => by simpa using (mem_delete.mp hr').2)

theorem find?_upsert (t : Table key) (r : ρ) (k : κ) : (t.upsert r).find? k = if key r = k then some r else t.find? k := by
  unfold upsert
  rw [find?_append]
  by_cases h : key r = k
  · rw [if_pos h, if_pos h]
  · rw [if_neg h, if_neg h, find?_delete]
    cases hr' : t.find? k with
    | none => rfl
    | some r' => simp [key_of_find? hr', Ne.symm h]

/-- Row after row: the last one of a key stays. -/
theorem find?_foldl_upsert (rs : List ρ) (t : Table key) (k : κ) :
    (rs.foldl upsert t).find? k = ((rs.filter fun r => key r = k).getLast?).or (t.find? k) := by
  induction rs generalizing t with
  | nil => rfl
  | cons r rs ih =>
      rw [List.foldl_cons, ih, find?_upsert]
      by_cases h : key r = k
      · simp only [List.filter_cons, h, decide_true, if_true, List.getLast?_cons]
        cases (rs.filter fun r => key r = k).getLast? <;> rfl
      · simp [h]

theorem has_update (t : Table key) (p : ρ → Bool) (f : ρ → ρ) (hf : ∀ r, key (f r) = key r) (k : κ) :
    (t.update p f hf).has k = t.has k := by
  rw [has, has, find?_update, Option.isSome_map]

end Lookup

/-! ## References -/

/-- **`column REFERENCES parent`**: every value of the column is a key of the parent table. -/
def Refers {ρ' : Type u} {κ' : Type v} {key' : ρ' → κ'} (column : ρ → κ') (child : Table key) (parent : Table key') : Prop :=
  ∀ r ∈ child.rows, ∃ p ∈ parent.rows, key' p = column r

section References

variable {ρ' : Type u} {κ' : Type v} {key' : ρ' → κ'} {column : ρ → κ'} {child : Table key} {parent : Table key'}

theorem refers_empty : Refers column (empty : Table key) parent := by
  intro r hr
  exact absurd hr (by simp)

theorem Refers.append_child [DecidableEq κ] (h : Refers column child parent) {r : ρ} (hfree : child.has (key r) = false)
    (hr : ∃ p ∈ parent.rows, key' p = column r) : Refers column (child.append r hfree) parent := by
  intro x hx
  rcases List.mem_append.mp hx with hx | hx
  · exact h x hx
  · rw [List.mem_singleton.mp hx]
    exact hr

theorem Refers.insertOrIgnore_child [DecidableEq κ] (h : Refers column child parent) {r : ρ}
    (hr : ∃ p ∈ parent.rows, key' p = column r) : Refers column (child.insertOrIgnore r) parent := by
  intro x hx
  rcases mem_insertOrIgnore.mp hx with hx | ⟨rfl, _⟩
  · exact h x hx
  · exact hr

theorem Refers.append_parent [DecidableEq κ'] (h : Refers column child parent) {p : ρ'}
    (hfree : parent.has (key' p) = false) : Refers column child (parent.append p hfree) := by
  intro x hx
  obtain ⟨q, hq, hk⟩ := h x hx
  exact ⟨q, by simp [hq], hk⟩

theorem Refers.update_child (h : Refers column child parent) {p : ρ → Bool} {f : ρ → ρ} {hf : ∀ r, key (f r) = key r}
    (hc : ∀ r, column (f r) = column r) : Refers column (child.update p f hf) parent := by
  intro x hx
  obtain ⟨r, hr, rfl⟩ := mem_update.mp hx
  by_cases hp : p r
  · simpa [hp, hc] using h r hr
  · simpa [hp] using h r hr

theorem Refers.update_parent (h : Refers column child parent) {p : ρ' → Bool} {f : ρ' → ρ'}
    {hf : ∀ r, key' (f r) = key' r} : Refers column child (parent.update p f hf) := by
  intro x hx
  obtain ⟨q, hq, hk⟩ := h x hx
  refine ⟨if p q then f q else q, mem_update.mpr ⟨q, hq, rfl⟩, ?_⟩
  by_cases hp : p q
  · simp [hp, hf, hk]
  · simp [hp, hk]

theorem Refers.delete_child (h : Refers column child parent) {p : ρ → Bool} : Refers column (child.delete p) parent := by
  intro x hx
  exact h x (mem_delete.mp hx).1

/-- Parent rows may go when the child rows that refer to them are gone. -/
theorem Refers.delete_parent (h : Refers column child parent) {p : ρ' → Bool}
    (hc : ∀ r ∈ child.rows, ∀ q ∈ parent.rows, key' q = column r → p q = false) :
    Refers column child (parent.delete p) := by
  intro x hx
  obtain ⟨q, hq, hk⟩ := h x hx
  exact ⟨q, mem_delete.mpr ⟨hq, hc x hx q hq hk⟩, hk⟩

end References

end Table

end KChatCore.Lib
