import KChatCore.Lib.Cbor

/-!
# `Lib.Urls` — what a URL says, and texts that go through one unchanged

`readUrl` reads a hierarchical URL as the URL standard and a form decoder do: a scheme, an authority, a path whose `.` and
`..` segments are resolved after they are percent-decoded, and pairs behind the `?`. `percentEncode` keeps the unreserved
characters and writes every other byte as `%` and two digits.

* `percentDecode_percentEncode` — any text comes back out of its encoding.
* `readUrl_text` — what is written under a `BaseUrl` is read back, up to its dot segments.
-/

namespace KChatCore.Lib.Urls

open KChatCore.Lib.Cbor (textBytes textOf textOf_textBytes)

/-! ## Percent-encoding -/

/-- The characters that mean themselves wherever they stand. -/
def isUnreserved (c : Char) : Bool := c.isAlphanum || c = '-' || c = '_' || c = '.' || c = '~'

/-- An upper-case hex digit. -/
def upperHex (n : ℕ) : Char := (Nat.digitChar n).toUpper

/-- The value of a hex digit, in either case. -/
def hexValue (c : Char) : Option ℕ :=
  if '0' ≤ c ∧ c ≤ '9' then some (c.toNat - '0'.toNat)
  else if 'a' ≤ c ∧ c ≤ 'f' then some (c.toNat - 'a'.toNat + 10)
  else if 'A' ≤ c ∧ c ≤ 'F' then some (c.toNat - 'A'.toNat + 10)
  else none

/-- One byte of a text, as it stands in a URL. -/
def encodeByte (b : UInt8) : List Char :=
  let c := Char.ofNat b.toNat
  if isUnreserved c then [c] else ['%', upperHex (b.toNat / 16), upperHex (b.toNat % 16)]

/-- The encoding of a text. -/
def percentEncode (s : String) : List Char := (textBytes s).flatMap encodeByte

/-- The bytes a part of a URL stands for. A `%` without two digits behind it is itself. -/
def percentDecode : List Char → List UInt8
  | [] => []
  | c :: rest =>
      if c = '%' then
        match rest with
        | high :: low :: rest' =>
            match hexValue high, hexValue low with
            | some h, some l => UInt8.ofNat (16 * h + l) :: percentDecode rest'
            | _, _ => String.utf8EncodeChar c ++ percentDecode (high :: low :: rest')
        | [one] => String.utf8EncodeChar c ++ percentDecode [one]
        | [] => String.utf8EncodeChar c
      else String.utf8EncodeChar c ++ percentDecode rest

theorem hexValue_upperHex {n : ℕ} (h : n < 16) : hexValue (upperHex n) = some n := by
  have hall : ∀ n : Fin 16, hexValue (upperHex n.val) = some n.val := by decide
  exact hall ⟨n, h⟩

/-- An unreserved character is one byte, and the byte is encoded as the character. -/
theorem utf8EncodeChar_of_isUnreserved : ∀ n : Fin 256, isUnreserved (Char.ofNat n.val) = true →
    String.utf8EncodeChar (Char.ofNat n.val) = [UInt8.ofNat n.val] ∧ Char.ofNat n.val ≠ '%' := by decide +kernel

theorem toNat_lt_of_isUnreserved {c : Char} (h : isUnreserved c = true) : c.toNat < 256 := by
  unfold isUnreserved at h
  simp only [Char.isAlphanum, Char.isAlpha, Char.isUpper, Char.isLower, Char.isDigit, Bool.or_eq_true, Bool.and_eq_true,
    decide_eq_true_eq, ge_iff_le] at h
  rcases h with ((((((⟨-, h⟩ | ⟨-, h⟩) | ⟨-, h⟩) | rfl) | rfl) | rfl) | rfl)
  all_goals first | decide | (have : c.val.toNat ≤ _ := h; exact Nat.lt_of_le_of_lt this (by decide))

/-- A character that is not `%` stands for its bytes. -/
theorem percentDecode_of_ne {c : Char} (h : c ≠ '%') (rest : List Char) :
    percentDecode (c :: rest) = String.utf8EncodeChar c ++ percentDecode rest := by
  rw [percentDecode.eq_def]
  simp only [if_neg h]

theorem percentDecode_encodeByte (b : UInt8) (rest : List Char) :
    percentDecode (encodeByte b ++ rest) = b :: percentDecode rest := by
  have hb := b.toNat_lt
  unfold encodeByte
  simp only
  split
  case isTrue hfree =>
    obtain ⟨hbytes, hne⟩ := utf8EncodeChar_of_isUnreserved ⟨b.toNat, hb⟩ hfree
    rw [List.singleton_append, percentDecode_of_ne hne, hbytes]
    simp
  case isFalse =>
    have hhigh := hexValue_upperHex (n := b.toNat / 16) (by omega)
    have hlow := hexValue_upperHex (n := b.toNat % 16) (by omega)
    have hdigits : 16 * (b.toNat / 16) + b.toNat % 16 = b.toNat := by omega
    simp only [List.cons_append, List.nil_append, percentDecode, if_true, hhigh, hlow, hdigits, UInt8.ofNat_toNat]

theorem percentDecode_flatMap_encodeByte (bs : List UInt8) : percentDecode (bs.flatMap encodeByte) = bs := by
  induction bs with
  | nil => rfl
  | cons b bs ih => rw [List.flatMap_cons, percentDecode_encodeByte, ih]

/-- **Any text comes back out of its encoding.** -/
@[simp] theorem percentDecode_percentEncode (s : String) : percentDecode (percentEncode s) = textBytes s :=
  percentDecode_flatMap_encodeByte _

/-- Unreserved text is its own encoding. -/
theorem percentEncode_eq_self {s : String} (h : ∀ c ∈ s.toList, isUnreserved c = true) : percentEncode s = s.toList := by
  have hbytes : textBytes s = s.toList.flatMap String.utf8EncodeChar := by
    rw [textBytes, String.toUTF8_eq_toByteArray, ← String.utf8Encode_toList, List.utf8Encode, List.toList_data_toByteArray]
  have hone : ∀ c : Char, isUnreserved c = true → (String.utf8EncodeChar c).flatMap encodeByte = [c] := by
    intro c hc
    have hc' : isUnreserved (Char.ofNat c.toNat) = true := by rwa [Char.ofNat_toNat]
    obtain ⟨hbyte, -⟩ := utf8EncodeChar_of_isUnreserved ⟨c.toNat, toNat_lt_of_isUnreserved hc⟩ hc'
    have hsmall : (UInt8.ofNat c.toNat).toNat = c.toNat := Nat.mod_eq_of_lt (toNat_lt_of_isUnreserved hc)
    rw [Char.ofNat_toNat] at hbyte
    rw [hbyte, List.flatMap_singleton, encodeByte, hsmall, Char.ofNat_toNat, if_pos hc]
  rw [percentEncode, hbytes, List.flatMap_assoc]
  generalize s.toList = l at h
  induction l with
  | nil => rfl
  | cons c l ih =>
      rw [List.flatMap_cons, hone c (h c List.mem_cons_self), ih fun d hd => h d (List.mem_cons_of_mem _ hd)]
      rfl

/-- The characters that stand in an encoding. -/
def isEncoded (c : Char) : Bool := isUnreserved c || c = '%'

theorem isEncoded_upperHex {n : ℕ} (h : n < 16) : isEncoded (upperHex n) = true := by
  have hall : ∀ n : Fin 16, isEncoded (upperHex n.val) = true := by decide
  exact hall ⟨n, h⟩

theorem isEncoded_of_mem {s : String} {c : Char} (h : c ∈ percentEncode s) : isEncoded c = true := by
  obtain ⟨b, -, hc⟩ := List.mem_flatMap.mp h
  have hb := b.toNat_lt
  unfold encodeByte at hc
  simp only at hc
  split at hc
  case isTrue hfree =>
    obtain rfl := List.mem_singleton.mp hc
    simp [isEncoded, hfree]
  case isFalse =>
    simp only [List.mem_cons, List.not_mem_nil, or_false] at hc
    rcases hc with rfl | rfl | rfl
    · rfl
    · exact isEncoded_upperHex (by omega)
    · exact isEncoded_upperHex (by omega)

/-- No separator stands in an encoding. -/
theorem ne_of_mem_percentEncode {s : String} {c d : Char} (h : c ∈ percentEncode s) (hd : isEncoded d = false) : c ≠ d := by
  rintro rfl
  rw [isEncoded_of_mem h] at hd
  exact absurd hd (by decide)

/-- A part of a URL, decoded. -/
def readPart (part : List Char) : Option String := textOf (percentDecode part)

@[simp] theorem readPart_percentEncode (s : String) : readPart (percentEncode s) = some s := by
  rw [readPart, percentDecode_percentEncode, textOf_textBytes]

/-! ## The target of a URL -/

/-- The segments of a path behind those of `path`. A `..` takes back the segment before it, and a dot at the end leaves an
empty segment. -/
def resolveDots (path : List String) : List String → List String
  | [] => path
  | [last] =>
      if last = ".." then path.dropLast ++ [""]
      else if last = "." then path ++ [""]
      else path ++ [last]
  | segment :: rest =>
      resolveDots (if segment = ".." then path.dropLast else if segment = "." then path else path ++ [segment]) rest

/-- The path, from its first `/` on. -/
def readPath (path : List Char) : Option (List String) :=
  (((path.splitOn '/').drop 1).mapM readPart).map (resolveDots [])

/-- `name=value`, where a `+` is a blank. -/
def readPair (pair : List Char) : Option (String × String) :=
  let spaced := pair.map fun c => if c = '+' then ' ' else c
  match readPart (spaced.takeWhile (· ≠ '=')), readPart ((spaced.dropWhile (· ≠ '=')).drop 1) with
  | some name, some value => some (name, value)
  | _, _ => none

/-- The pairs behind the `?`. -/
def readQuery (query : List Char) : Option (List (String × String)) :=
  ((query.splitOn '&').filter fun pair => !pair.isEmpty).mapM readPair

/-- A URL, decoded. -/
structure Url where
  scheme : List Char
  authority : List Char
  path : List String
  query : List (String × String)
  deriving DecidableEq, Repr

/-- What ends an authority. -/
def endsAuthority (c : Char) : Bool := c = '/' || c = '?' || c = '#' || c = '\\'

/-- The path and the query of what follows the authority. -/
def readTarget (target : List Char) : Option (List String × List (String × String)) :=
  let target := target.takeWhile (· ≠ '#')
  match readPath (target.takeWhile (· ≠ '?')), readQuery ((target.dropWhile (· ≠ '?')).drop 1) with
  | some path, some query => some (path, query)
  | _, _ => none

/-- A URL with an authority. -/
def readUrl (url : List Char) : Option Url :=
  match url.dropWhile (· ≠ ':') with
  | ':' :: '/' :: '/' :: rest =>
      (readTarget (rest.dropWhile fun c => !endsAuthority c)).map fun target =>
        ⟨url.takeWhile (· ≠ ':'), rest.takeWhile fun c => !endsAuthority c, target.1, target.2⟩
  | _ => none

/-- **A URL that others are written under**: its parts have no separators, and its segments are neither empty nor dots. -/
structure BaseUrl where
  scheme : List Char
  authority : List Char
  mount : List String
  scheme_free : ':' ∉ scheme
  authority_ne : authority ≠ []
  authority_free : ∀ c ∈ authority, endsAuthority c = false
  mount_ne : ∀ segment ∈ mount, segment ≠ ""
  mount_plain : ∀ segment ∈ mount, segment ≠ "." ∧ segment ≠ ".."

/-- The segments of a path, each behind a `/`. -/
def pathText (segments : List String) : List Char := segments.flatMap fun segment => '/' :: percentEncode segment

/-- One pair. -/
def pairText (p : String × String) : List Char := percentEncode p.1 ++ '=' :: percentEncode p.2

/-- The pairs of a query, behind a `?` if there are any. -/
def queryText : List (String × String) → List Char
  | [] => []
  | p :: pairs => '?' :: (pairText p ++ pairs.flatMap fun p => '&' :: pairText p)

/-- The text of the base. -/
def BaseUrl.text (base : BaseUrl) : List Char := base.scheme ++ ':' :: '/' :: '/' :: (base.authority ++ pathText base.mount)

/-! ## Reading what was written -/

theorem takeWhile_dropWhile_of_free {p : Char → Bool} {a b : List Char} (ha : ∀ c ∈ a, p c = true)
    (hb : ∀ c ∈ b.head?, p c = false) : (a ++ b).takeWhile p = a ∧ (a ++ b).dropWhile p = b := by
  have htake : b.takeWhile p = [] := by
    cases b with
    | nil => rfl
    | cons c b => exact List.takeWhile_cons_of_neg (by simp [hb c rfl])
  have hdrop : b.dropWhile p = b := by
    cases b with
    | nil => rfl
    | cons c b => exact List.dropWhile_cons_of_neg (by simp [hb c rfl])
  rw [List.takeWhile_append_of_pos ha, List.dropWhile_append_of_pos ha, htake, hdrop, List.append_nil]
  exact ⟨rfl, rfl⟩

theorem mapM_readPart (segments : List String) : (segments.map percentEncode).mapM readPart = some segments := by
  induction segments with
  | nil => rfl
  | cons segment segments ih => simp [List.mapM_cons, ih]

/-- Parts behind a separator each, split at it. -/
theorem splitOn_flatMap {α : Type} {sep : Char} {write : α → List Char} (first : List Char) (rest : List α)
    (hfirst : sep ∉ first) (hrest : ∀ a, sep ∉ write a) :
    (first ++ rest.flatMap fun a => sep :: write a).splitOn sep = first :: rest.map write := by
  have hjoin : first ++ (rest.flatMap fun a => sep :: write a) = [sep].intercalate (first :: rest.map write) := by
    induction rest generalizing first with
    | nil => simp
    | cons a rest ih =>
        rw [List.flatMap_cons, List.cons_append, ih (write a) (hrest a)]
        simp [List.intercalate]
  rw [hjoin]
  refine List.splitOn_intercalate _ ?_ (by simp)
  intro part hpart
  rw [List.mem_cons, List.mem_map] at hpart
  rcases hpart with rfl | ⟨a, -, rfl⟩
  · exact hfirst
  · exact hrest a

theorem readPath_pathText (segments : List String) : readPath (pathText segments) = some (resolveDots [] segments) := by
  have hsplit : (pathText segments).splitOn '/' = [] :: segments.map percentEncode :=
    splitOn_flatMap [] segments (by simp) fun segment hmem => ne_of_mem_percentEncode hmem (by decide) rfl
  rw [readPath, hsplit, List.drop_one, List.tail_cons, mapM_readPart]
  rfl

/-- A character of a written pair is encoded, or the `=`. -/
theorem mem_pairText {p : String × String} {c : Char} (h : c ∈ pairText p) : isEncoded c = true ∨ c = '=' := by
  rw [pairText, List.mem_append, List.mem_cons] at h
  rcases h with h | h | h
  · exact .inl (isEncoded_of_mem h)
  · exact .inr h
  · exact .inl (isEncoded_of_mem h)

theorem ne_of_mem_pairText {p : String × String} {c d : Char} (h : c ∈ pairText p) (hd : isEncoded d = false)
    (heq : d ≠ '=') : c ≠ d := by
  rintro rfl
  rcases mem_pairText h with h | h
  · rw [h] at hd
    exact absurd hd (by decide)
  · exact heq h

theorem readPair_pairText (p : String × String) : readPair (pairText p) = some p := by
  have hplus : (pairText p).map (fun c => if c = '+' then ' ' else c) = pairText p := by
    conv_rhs => rw [← List.map_id (pairText p)]
    exact List.map_congr_left fun c hc => if_neg (ne_of_mem_pairText hc (by decide) (by decide))
  have hname : ∀ c ∈ percentEncode p.1, decide (c ≠ '=') = true := by
    intro c hc
    simpa using ne_of_mem_percentEncode hc (by decide : isEncoded '=' = false)
  obtain ⟨htake, hdrop⟩ := takeWhile_dropWhile_of_free (b := '=' :: percentEncode p.2) hname (by simp)
  simp only [readPair, hplus]
  rw [pairText, htake, hdrop]
  simp

theorem readQuery_queryText (pairs : List (String × String)) : readQuery ((queryText pairs).drop 1) = some pairs := by
  have hread : ∀ pairs : List (String × String), (pairs.map pairText).mapM readPair = some pairs := by
    intro pairs
    induction pairs with
    | nil => rfl
    | cons p pairs ih => simp [List.mapM_cons, readPair_pairText, ih]
  cases pairs with
  | nil => rfl
  | cons p pairs =>
      have hfree : ∀ p : String × String, '&' ∉ pairText p := fun p hmem => ne_of_mem_pairText hmem (by decide) (by decide) rfl
      have hsplit : (pairText p ++ pairs.flatMap fun p => '&' :: pairText p).splitOn '&' = (p :: pairs).map pairText :=
        splitOn_flatMap _ pairs (hfree p) hfree
      have hfilter : ((p :: pairs).map pairText).filter (fun pair => !pair.isEmpty) = (p :: pairs).map pairText := by
        refine List.filter_eq_self.mpr ?_
        intro part hpart
        obtain ⟨q, -, rfl⟩ := List.mem_map.mp hpart
        simp [pairText]
      show readQuery (pairText p ++ _) = _
      rw [readQuery, hsplit, hfilter, hread]

/-- What may stand in a path, a query or their separators. -/
def isTarget (c : Char) : Bool := isEncoded c || c = '/' || c = '?' || c = '=' || c = '&'

theorem isTarget_of_mem_pathText {segments : List String} {c : Char} (h : c ∈ pathText segments) :
    isTarget c = true ∧ c ≠ '?' := by
  obtain ⟨segment, -, hc⟩ := List.mem_flatMap.mp h
  rcases List.mem_cons.mp hc with rfl | hc
  · decide
  · exact ⟨by simp [isTarget, isEncoded_of_mem hc], ne_of_mem_percentEncode hc (by decide)⟩

theorem isTarget_of_mem_queryText {pairs : List (String × String)} {c : Char} (h : c ∈ queryText pairs) :
    isTarget c = true := by
  have hpair : ∀ {p : String × String}, c ∈ pairText p → isTarget c = true := by
    intro p hc
    rcases mem_pairText hc with hc | rfl
    · simp [isTarget, hc]
    · rfl
  cases pairs with
  | nil => exact absurd h (by simp [queryText])
  | cons p pairs =>
      rw [queryText, List.mem_cons, List.mem_append, List.mem_flatMap] at h
      rcases h with rfl | hc | ⟨q, -, hc⟩
      · rfl
      · exact hpair hc
      · rcases List.mem_cons.mp hc with rfl | hc
        · rfl
        · exact hpair hc

/-- A path and a query are read apart. -/
theorem readTarget_text (segments : List String) (pairs : List (String × String)) :
    readTarget (pathText segments ++ queryText pairs) = some (resolveDots [] segments, pairs) := by
  have hnofragment : (pathText segments ++ queryText pairs).takeWhile (· ≠ '#') = pathText segments ++ queryText pairs := by
    refine List.takeWhile_eq_self_iff.mpr ?_
    intro c hc
    have htarget : isTarget c = true := by
      rcases List.mem_append.mp hc with hc | hc
      · exact (isTarget_of_mem_pathText hc).1
      · exact isTarget_of_mem_queryText hc
    simp only [ne_eq, decide_eq_true_eq]
    rintro rfl
    exact absurd htarget (by decide)
  have hquery : ∀ c ∈ (queryText pairs).head?, decide (c ≠ '?') = false := by
    cases pairs with
    | nil => simp [queryText]
    | cons p pairs => simp [queryText]
  obtain ⟨htake, hdrop⟩ := takeWhile_dropWhile_of_free (a := pathText segments)
    (fun c hc => by simpa using (isTarget_of_mem_pathText hc).2) hquery
  simp only [readTarget, hnofragment, htake, hdrop, readPath_pathText, readQuery_queryText]

/-- Segments behind others are resolved behind them. -/
theorem resolveDots_append {mount : List String} (hmount : ∀ segment ∈ mount, segment ≠ "." ∧ segment ≠ "..")
    (path : List String) {segments : List String} (hsegments : segments ≠ []) :
    resolveDots path (mount ++ segments) = resolveDots (path ++ mount) segments := by
  induction mount generalizing path with
  | nil => simp
  | cons first mount ih =>
      obtain ⟨hone, htwo⟩ := hmount first List.mem_cons_self
      have hrest : mount ++ segments ≠ [] := by simp [hsegments]
      rw [List.cons_append, resolveDots.eq_3 _ _ _ (by simpa using hrest), if_neg htwo, if_neg hone,
        ih (fun segment h => hmount segment (List.mem_cons_of_mem _ h)), List.append_assoc, List.singleton_append]

/-- **What is written under a base is read back**, behind the segments of the base. -/
theorem readUrl_text (base : BaseUrl) {segments : List String} (hsegments : segments ≠ [])
    (pairs : List (String × String)) :
    readUrl (base.text ++ (pathText segments ++ queryText pairs)) =
      some ⟨base.scheme, base.authority, resolveDots base.mount segments, pairs⟩ := by
  have hscheme : ∀ c ∈ base.scheme, decide (c ≠ ':') = true := by
    intro c hc
    simp only [ne_eq, decide_eq_true_eq]
    rintro rfl
    exact base.scheme_free hc
  have htext : base.text ++ (pathText segments ++ queryText pairs) =
      base.scheme ++ ':' :: '/' :: '/' :: (base.authority ++ (pathText (base.mount ++ segments) ++ queryText pairs)) := by
    simp [BaseUrl.text, pathText]
  obtain ⟨hname, hrest⟩ := takeWhile_dropWhile_of_free (p := fun c => decide (c ≠ ':')) hscheme
    (b := ':' :: '/' :: '/' :: (base.authority ++ (pathText (base.mount ++ segments) ++ queryText pairs))) (by simp)
  obtain ⟨hauthority, htarget⟩ := takeWhile_dropWhile_of_free (p := fun c => !endsAuthority c) (a := base.authority)
    (b := pathText (base.mount ++ segments) ++ queryText pairs)
    (fun c hc => by simp [base.authority_free c hc]) (by
      obtain ⟨first, rest, hfirst⟩ := List.exists_cons_of_ne_nil (l := base.mount ++ segments) (by simp [hsegments])
      simp [hfirst, pathText, endsAuthority])
  rw [htext, readUrl, hrest, hname]
  simp only [hauthority, htarget, readTarget_text, Option.map_some]
  rw [resolveDots_append base.mount_plain [] hsegments, List.nil_append]

/-- The text of a base does not end in a `/`. -/
theorem BaseUrl.getLast?_text (base : BaseUrl) : ∀ c ∈ base.text.getLast?, c ≠ '/' := by
  intro c hc
  have hlast : c ∈ base.authority.getLast? ∨ ∃ segment ∈ base.mount, c ∈ (percentEncode segment).getLast? := by
    rcases List.eq_nil_or_concat base.mount with hmount | ⟨mount, segment, hmount⟩
    · refine .inl ?_
      rw [BaseUrl.text, hmount] at hc
      obtain ⟨first, rest, hfirst⟩ := List.exists_cons_of_ne_nil base.authority_ne
      simpa [pathText, hfirst, List.getLast?_append] using hc
    · refine .inr ⟨segment, by simp [hmount], ?_⟩
      have hne : percentEncode segment ≠ [] := by
        intro hnil
        have hread := readPart_percentEncode segment
        rw [hnil] at hread
        exact base.mount_ne segment (by simp [hmount]) (Option.some.inj (hread.symm.trans (by decide +kernel)))
      obtain ⟨first, rest, hfirst⟩ := List.exists_cons_of_ne_nil hne
      simpa [BaseUrl.text, hmount, pathText, hfirst, List.getLast?_append, List.getLast?_cons] using hc
  rcases hlast with h | ⟨segment, -, h⟩
  · rintro rfl
    exact absurd (base.authority_free _ (List.mem_of_getLast? h)) (by decide)
  · exact ne_of_mem_percentEncode (List.mem_of_getLast? h) (by decide)

end KChatCore.Lib.Urls
