import KChatCore.Lib.Fit
import KChatCore.Message.Platform

/-!
# `Media.Caption` — filenames, sanitised

A filename is composed, stripped of what no filesystem takes, trimmed at both ends and cut down to 255 bytes, in this order
and each step once. A later step can undo an earlier one: a character that is dropped lets its neighbours compose, a cut
lays a space or a dot bare, and a first character too large for the bytes left before the extension leaves the extension
alone. Strings are their characters, and NFC is a parameter.

* `truncate_long` — what is left of a name that is too long.
* `sanitiseFilename_eq_self` — a name that is safe already is left alone.
* `sanitised_iff` — which filenames come out safe.
-/

namespace KChatCore.Media

open Lib

/-! ## The source -/

/-- **Unicode NFC**: normalising twice changes nothing, and ASCII is in NFC. -/
structure Nfc where
  nfc : List Char → List Char
  nfc_nfc : ∀ s, nfc (nfc s) = nfc s
  nfc_ascii : ∀ s : List Char, (∀ ch ∈ s, ch.toNat < 128) → nfc s = s

/-- `MAX_FILENAME_BYTES`. -/
def maxFilenameBytes : Nat := 255

/-- `DEFAULT_FILENAME`. -/
def defaultFilename : List Char := "unnamed".toList

/-- `ILLEGAL_FILENAME_CHARS`. -/
def illegalFilenameChars : List Char := ['/', '\\', ':', '*', '?', '"', '<', '>', '|']

/-- `char::is_control`. -/
def isControl (ch : Char) : Bool := ch.toNat < 0x20 || (0x7F ≤ ch.toNat && ch.toNat < 0xA0)

/-- `str::len`. -/
def byteLen (s : List Char) : Nat := weight Char.utf8Size s

/-- The last boundary that the loop over `char_indices` finds at or before `max_bytes`. -/
def lastBoundary (maxBytes : Nat) : Nat → Nat → List Char → Nat
  | _, last, [] => last
  | idx, last, ch :: rest => if maxBytes < idx then last else lastBoundary maxBytes (idx + ch.utf8Size) idx rest

/-- `truncate_to_byte_budget`; the slice ends at a character boundary. -/
def truncateToByteBudget (s : List Char) (maxBytes : Nat) : List Char :=
  if byteLen s ≤ maxBytes then s else fit Char.utf8Size (lastBoundary maxBytes 0 0 s) s

/-- `str::rsplit_once`. -/
def rsplitOnce (c : Char) (s : List Char) : Option (List Char × List Char) :=
  match s.reverse.dropWhile (· != c) with
  | [] => none
  | _ :: stem => some (stem.reverse, (s.reverse.takeWhile (· != c)).reverse)

/-- Stem and extension, as `truncate_preserving_extension` takes them. -/
def splitExtension (name : List Char) : List Char × List Char :=
  match rsplitOnce '.' name with
  | some (stem, ext) => if ext ≠ [] ∧ stem ≠ [] then (stem, ext) else (name, [])
  | none => (name, [])

/-- `truncate_preserving_extension`. -/
def truncatePreservingExtension (name : List Char) : List Char :=
  if byteLen name ≤ maxFilenameBytes then name
  else
    let (stem, ext) := splitExtension name
    let dotLen := if ext = [] then 0 else 1
    let extByteBudget := byteLen ext
    if maxFilenameBytes ≤ extByteBudget + dotLen then truncateToByteBudget name maxFilenameBytes
    else
      let stemBudget := maxFilenameBytes - extByteBudget - dotLen
      let truncatedStem := truncateToByteBudget stem stemBudget
      if ext = [] then truncatedStem else truncatedStem ++ '.' :: ext

/-- The characters that `sanitize_filename` keeps. -/
def isKept (ch : Char) : Bool := !isControl ch && !illegalFilenameChars.contains ch

/-- The characters that `sanitize_filename` trims. -/
def isTrimmed (ch : Char) : Bool := isWhitespace ch || ch == '.'

/-- `str::trim_matches`. -/
def trimMatches (p : Char → Bool) (s : List Char) : List Char := (s.dropWhile p).rdropWhile p

/-- The cleaned name: composed, stripped and trimmed. -/
def cleanedName (N : Nfc) (filename : List Char) : List Char := trimMatches isTrimmed ((N.nfc filename).filter isKept)

/-- `sanitize_filename`. -/
def sanitiseFilename (N : Nfc) (filename : List Char) : List Char :=
  let trimmed := cleanedName N filename
  if trimmed = [] then defaultFilename else truncatePreservingExtension trimmed

/-! ## Cutting -/

/-- The loop stops at the end of the longest beginning that fits. -/
theorem lastBoundary_eq {maxBytes idx last : Nat} {s : List Char} (hidx : idx ≤ maxBytes)
    (hlong : maxBytes < idx + byteLen s) :
    lastBoundary maxBytes idx last s = idx + byteLen (fit Char.utf8Size (maxBytes - idx) s) := by
  induction s generalizing idx last with
  | nil => exact absurd hlong (by simp only [byteLen, weight_nil]; omega)
  | cons ch rest ih =>
      simp only [byteLen, weight_cons] at hlong
      rw [lastBoundary, if_neg (not_lt.mpr hidx), fit]
      by_cases hfits : ch.utf8Size ≤ maxBytes - idx
      · rw [if_pos hfits, ih (by omega) (by unfold byteLen; omega)]
        simp only [byteLen, weight_cons, Nat.sub_sub]
        omega
      · -- the next character starts behind the budget, or there is none
        rw [if_neg hfits]
        cases rest with
        | nil => rfl
        | cons ch' rest =>
            rw [lastBoundary, if_pos (by omega)]
            rfl

/-- **Truncation takes the longest beginning that fits.** -/
theorem truncateToByteBudget_eq (s : List Char) (maxBytes : Nat) :
    truncateToByteBudget s maxBytes = fit Char.utf8Size maxBytes s := by
  unfold truncateToByteBudget
  split_ifs with hfits
  · exact (fit_of_le hfits).symm
  · have hlongest : LongestPart Char.utf8Size maxBytes s (fit Char.utf8Size maxBytes s) := fit_longest maxBytes s
    obtain ⟨rest, hrest⟩ := hlongest.begins
    rw [lastBoundary_eq (Nat.zero_le _) (by omega), Nat.zero_add, Nat.sub_zero]
    calc fit Char.utf8Size (byteLen (fit Char.utf8Size maxBytes s)) s
        = fit Char.utf8Size (weight Char.utf8Size (fit Char.utf8Size maxBytes s))
            (fit Char.utf8Size maxBytes s ++ rest) := by rw [hrest]; rfl
      _ = fit Char.utf8Size maxBytes s := fit_weight Char.utf8Size_pos _ rest

/-! ## Extensions -/

/-- The name has an extension behind its last dot, and something before that dot. -/
structure HasExtension (name stem ext : List Char) : Prop where
  split : name = stem ++ '.' :: ext
  stem_ne : stem ≠ []
  ext_ne : ext ≠ []
  dot_not_mem : '.' ∉ ext

theorem rsplitOnce_eq_some {c : Char} {s stem ext : List Char} (h : rsplitOnce c s = some (stem, ext)) :
    s = stem ++ c :: ext ∧ c ∉ ext := by
  have hsplit := List.takeWhile_append_dropWhile (p := fun d => d != c) (l := s.reverse)
  have hnot := List.head?_dropWhile_not (fun d => d != c) s.reverse
  unfold rsplitOnce at h
  split at h
  · exact absurd h (by simp)
  · next d rest hdrop =>
    obtain ⟨rfl, rfl⟩ := Prod.mk.inj (Option.some.inj h)
    rw [hdrop] at hsplit hnot
    obtain rfl : d = c := by simpa using hnot
    constructor
    · have hback := congrArg List.reverse hsplit
      rw [List.reverse_reverse, List.reverse_append, List.reverse_cons, List.append_assoc] at hback
      exact hback.symm
    · intro hmem
      have hbefore := List.mem_takeWhile_imp (List.mem_reverse.mp hmem)
      exact absurd rfl (bne_iff_ne.mp hbefore)

theorem rsplitOnce_append {c : Char} {stem ext : List Char} (h : c ∉ ext) :
    rsplitOnce c (stem ++ c :: ext) = some (stem, ext) := by
  have hrev : (stem ++ c :: ext).reverse = ext.reverse ++ c :: stem.reverse := by simp
  have hext : ∀ d ∈ ext.reverse, (d != c) = true := by
    intro d hd
    rw [bne_iff_ne]
    rintro rfl
    exact h (List.mem_reverse.mp hd)
  unfold rsplitOnce
  rw [hrev, List.dropWhile_append_of_pos hext, List.takeWhile_append_of_pos hext, List.dropWhile_cons_of_neg (by simp),
    List.takeWhile_cons_of_neg (by simp)]
  simp

/-- **What the splitter finds** is the extension, if the name has one. -/
theorem splitExtension_of_has {name stem ext : List Char} (h : HasExtension name stem ext) :
    splitExtension name = (stem, ext) := by
  rw [splitExtension, h.split, rsplitOnce_append h.dot_not_mem]
  exact if_pos ⟨h.ext_ne, h.stem_ne⟩

theorem splitExtension_of_not {name : List Char} (h : ¬ ∃ stem ext, HasExtension name stem ext) :
    splitExtension name = (name, []) := by
  unfold splitExtension
  split
  · next stem ext hsplit =>
    obtain ⟨hname, hlast⟩ := rsplitOnce_eq_some hsplit
    exact if_neg fun hboth => h ⟨stem, ext, hname, hboth.2, hboth.1, hlast⟩
  · rfl

theorem HasExtension.unique {name stem ext stem' ext' : List Char} (h : HasExtension name stem ext)
    (h' : HasExtension name stem' ext') : stem = stem' ∧ ext = ext' :=
  Prod.mk.inj ((splitExtension_of_has h).symm.trans (splitExtension_of_has h'))

/-- The extension and its dot leave a byte for the stem. -/
def ExtensionFits (name stem ext : List Char) : Prop := HasExtension name stem ext ∧ byteLen ext + 1 < maxFilenameBytes

/-- **What is left of a long name**: the stem as far as it fits before an extension, or the name as far as it fits. -/
theorem truncate_long {name : List Char} (hlong : maxFilenameBytes < byteLen name) :
    (∃ stem ext, ExtensionFits name stem ext ∧ truncatePreservingExtension name =
        fit Char.utf8Size (maxFilenameBytes - 1 - byteLen ext) stem ++ '.' :: ext) ∨
      ((¬ ∃ stem ext, ExtensionFits name stem ext) ∧
        truncatePreservingExtension name = fit Char.utf8Size maxFilenameBytes name) := by
  have hnot : ¬ byteLen name ≤ maxFilenameBytes := not_le.mpr hlong
  by_cases hext : ∃ stem ext, HasExtension name stem ext
  · obtain ⟨stem, ext, h⟩ := hext
    by_cases hfits : byteLen ext + 1 < maxFilenameBytes
    · refine Or.inl ⟨stem, ext, ⟨h, hfits⟩, ?_⟩
      unfold truncatePreservingExtension
      rw [if_neg hnot, splitExtension_of_has h]
      simp only
      rw [if_neg h.ext_ne, if_neg (not_le.mpr hfits), if_neg h.ext_ne, truncateToByteBudget_eq, Nat.sub_right_comm]
    · refine Or.inr ⟨?_, ?_⟩
      · rintro ⟨stem', ext', h', hfits'⟩
        obtain ⟨-, rfl⟩ := h.unique h'
        exact hfits hfits'
      · unfold truncatePreservingExtension
        rw [if_neg hnot, splitExtension_of_has h]
        simp only
        rw [if_neg h.ext_ne, if_pos (not_lt.mp hfits), truncateToByteBudget_eq]
  · refine Or.inr ⟨fun ⟨stem, ext, h, _⟩ => hext ⟨stem, ext, h⟩, ?_⟩
    unfold truncatePreservingExtension
    rw [if_neg hnot, splitExtension_of_not hext]
    simp only [if_true]
    rw [if_neg (by decide), truncateToByteBudget_eq]
    rfl

/-! ## Trimming -/

section Trimming

variable {p : Char → Bool} {s : List Char}

theorem trimMatches_sublist : (trimMatches p s).Sublist s :=
  (List.rdropWhile_prefix p _).sublist.trans (List.dropWhile_sublist p)

theorem head_trimMatches {ch : Char} (h : (trimMatches p s).head? = some ch) : p ch = false := by
  obtain ⟨rest, hrest⟩ := List.rdropWhile_prefix p (s.dropWhile p)
  have hhead : (s.dropWhile p).head? = some ch := by
    rw [← hrest, List.head?_append]
    exact Option.or_eq_some_iff.mpr (Or.inl h)
  have hnot := List.head?_dropWhile_not p s
  rw [hhead] at hnot
  exact hnot

theorem last_trimMatches {ch : Char} (h : (trimMatches p s).getLast? = some ch) : p ch = false := by
  have hne : trimMatches p s ≠ [] := by
    intro hnil
    rw [hnil] at h
    exact absurd h (by simp)
  have hlast : (trimMatches p s).getLast hne = ch := Option.some.inj ((List.getLast?_eq_some_getLast hne).symm.trans h)
  have hnot := List.rdropWhile_last_not p (s.dropWhile p) hne
  rw [Bool.not_eq_true] at hnot
  rw [← hlast]
  exact hnot

/-- What is trimmed already is left alone. -/
theorem trimMatches_eq_self (hfirst : ∀ ch, s.head? = some ch → p ch = false)
    (hlast : ∀ ch, s.getLast? = some ch → p ch = false) : trimMatches p s = s := by
  have hdrop : s.dropWhile p = s := by
    cases s with
    | nil => rfl
    | cons ch s => exact List.dropWhile_cons_of_neg (by rw [hfirst ch rfl]; exact Bool.false_ne_true)
  rw [trimMatches, hdrop, List.rdropWhile_eq_self_iff]
  intro hne
  rw [hlast _ (List.getLast?_eq_some_getLast hne)]
  exact Bool.false_ne_true

end Trimming

/-! ## Safe names -/

/-- **A cleaned name**: nothing that has to be dropped, and nothing to trim. -/
structure IsClean (s : List Char) : Prop where
  ne_nil : s ≠ []
  kept : ∀ ch ∈ s, isControl ch = false ∧ ch ∉ illegalFilenameChars
  first : ∀ ch, s.head? = some ch → isTrimmed ch = false
  last : ∀ ch, s.getLast? = some ch → isTrimmed ch = false

/-- **A safe name**: cleaned, short enough and in NFC. -/
structure SafeName (N : Nfc) (s : List Char) : Prop extends IsClean s where
  bytes : byteLen s ≤ maxFilenameBytes
  nfc : N.nfc s = s

variable {N : Nfc}

theorem isKept_iff {ch : Char} : isKept ch = true ↔ isControl ch = false ∧ ch ∉ illegalFilenameChars := by
  simp [isKept]

theorem isClean_cleanedName {filename : List Char} (h : cleanedName N filename ≠ []) : IsClean (cleanedName N filename) where
  ne_nil := h
  kept _ hch := isKept_iff.mp (List.mem_filter.mp (trimMatches_sublist.subset hch)).2
  first _ := head_trimMatches
  last _ := last_trimMatches

/-- **A safe name is left alone.** -/
theorem sanitiseFilename_eq_self {s : List Char} (h : SafeName N s) : sanitiseFilename N s = s := by
  have hfilter : s.filter isKept = s := List.filter_eq_self.mpr fun ch hch => isKept_iff.mpr (h.kept ch hch)
  have hclean : cleanedName N s = s := by
    rw [cleanedName, h.nfc, hfilter, trimMatches_eq_self h.first h.last]
  unfold sanitiseFilename
  simp only [hclean]
  rw [if_neg h.ne_nil]
  exact if_pos h.bytes

theorem defaultFilename_eq : defaultFilename = ['u', 'n', 'n', 'a', 'm', 'e', 'd'] := rfl

theorem safeName_default : SafeName N defaultFilename where
  ne_nil := by decide
  kept ch hch := isKept_iff.mp (List.all_eq_true.mp (show defaultFilename.all isKept = true by decide +kernel) ch hch)
  first := by
    intro ch h
    obtain rfl := Option.some.inj h
    decide
  last := by
    intro ch h
    obtain rfl := Option.some.inj h
    decide
  bytes := by decide
  nfc := by
    refine N.nfc_ascii _ ?_
    rw [defaultFilename_eq]
    simp

section Cut

variable {name stem ext : List Char}

/-- **A stem before an extension** is safe if its first character fits and what is kept is in NFC. -/
theorem safe_iff_of_extension (hclean : IsClean name) (h : ExtensionFits name stem ext) :
    SafeName N (fit Char.utf8Size (maxFilenameBytes - 1 - byteLen ext) stem ++ '.' :: ext) ↔
      (∃ first rest, stem = first :: rest ∧ first.utf8Size + 1 + byteLen ext ≤ maxFilenameBytes) ∧
        N.nfc (fit Char.utf8Size (maxFilenameBytes - 1 - byteLen ext) stem ++ '.' :: ext) =
          fit Char.utf8Size (maxFilenameBytes - 1 - byteLen ext) stem ++ '.' :: ext := by
  obtain ⟨hext, hroom⟩ := h
  obtain ⟨hbegins, hfits, -⟩ : LongestPart Char.utf8Size (maxFilenameBytes - 1 - byteLen ext) stem _ :=
    fit_longest (maxFilenameBytes - 1 - byteLen ext) stem
  have hkeeps : (∃ first rest, stem = first :: rest ∧ first.utf8Size + 1 + byteLen ext ≤ maxFilenameBytes) ↔
      fit Char.utf8Size (maxFilenameBytes - 1 - byteLen ext) stem ≠ [] := by
    rw [fit_ne_nil_iff]
    refine exists_congr fun first => exists_congr fun rest => and_congr_right fun _ => ?_
    omega
  rw [hkeeps]
  generalize fit Char.utf8Size (maxFilenameBytes - 1 - byteLen ext) stem = kept at *
  constructor
  · intro hsafe
    refine ⟨?_, hsafe.nfc⟩
    rintro rfl
    -- the extension alone starts with its dot
    exact absurd (hsafe.first '.' rfl) (by decide)
  · rintro ⟨hne, hnfc⟩
    refine ⟨⟨?_, ?_, ?_, ?_⟩, ?_, hnfc⟩
    · exact List.append_ne_nil_of_left_ne_nil hne _
    · intro ch hch
      refine hclean.kept ch ?_
      rw [hext.split, List.mem_append]
      exact (List.mem_append.mp hch).imp_left fun hmem => hbegins.subset hmem
    · intro ch hch
      refine hclean.first ch ?_
      obtain ⟨rest, rfl⟩ := hbegins
      rw [List.head?_append_of_ne_nil _ hne] at hch
      rw [hext.split, List.append_assoc, List.head?_append_of_ne_nil _ hne]
      exact hch
    · intro ch hch
      refine hclean.last ch ?_
      rw [List.getLast?_append_of_ne_nil _ (List.cons_ne_nil _ _)] at hch
      rw [hext.split, List.getLast?_append_of_ne_nil _ (List.cons_ne_nil _ _)]
      exact hch
    · have hdot : Char.utf8Size '.' = 1 := by decide
      unfold byteLen at hroom hfits ⊢
      rw [weight_append, weight_cons, hdot]
      omega

/-- **A name that is cut** is safe if the cut lays nothing bare that is trimmed, and what is kept is in NFC. -/
theorem safe_iff_of_cut (hclean : IsClean name) :
    SafeName N (fit Char.utf8Size maxFilenameBytes name) ↔
      (∀ ch, (fit Char.utf8Size maxFilenameBytes name).getLast? = some ch → isTrimmed ch = false) ∧
        N.nfc (fit Char.utf8Size maxFilenameBytes name) = fit Char.utf8Size maxFilenameBytes name := by
  obtain ⟨hbegins, hfits, -⟩ : LongestPart Char.utf8Size maxFilenameBytes name _ := fit_longest maxFilenameBytes name
  have hne : fit Char.utf8Size maxFilenameBytes name ≠ [] := by
    obtain ⟨ch, rest, hname⟩ := List.exists_cons_of_ne_nil hclean.ne_nil
    have hfour := Char.utf8Size_le_four ch
    exact fit_ne_nil_iff.mpr ⟨ch, rest, hname, hfour.trans (by decide)⟩
  generalize fit Char.utf8Size maxFilenameBytes name = kept at *
  constructor
  · exact fun hsafe => ⟨hsafe.last, hsafe.nfc⟩
  · rintro ⟨hlast, hnfc⟩
    refine ⟨⟨hne, fun ch hch => hclean.kept ch (hbegins.subset hch), ?_, hlast⟩, hfits, hnfc⟩
    intro ch hch
    refine hclean.first ch ?_
    obtain ⟨rest, rfl⟩ := hbegins
    rw [List.head?_append_of_ne_nil _ hne]
    exact hch

end Cut

/-! ## Which filenames come out safe -/

/-- **What a filename is sanitised for**: the result is safe, keeps the extension of the cleaned name where it leaves room
for a character before it, and is its own result. -/
structure Sanitised (N : Nfc) (filename : List Char) : Prop where
  safe : SafeName N (sanitiseFilename N filename)
  extension : ∀ stem ext first rest, HasExtension (cleanedName N filename) stem ext → stem = first :: rest →
    first.utf8Size + 1 + byteLen ext ≤ maxFilenameBytes →
      ∃ kept, kept ≠ [] ∧ sanitiseFilename N filename = kept ++ '.' :: ext
  stable : sanitiseFilename N (sanitiseFilename N filename) = sanitiseFilename N filename

/-- A cleaned name that fits is in NFC. Of a longer one with an extension that fits, the first character of the stem fits
before it, and the longest beginning of the stem that does is in NFC with the extension. Of any other longer one, the
longest beginning that fits ends in nothing that is trimmed, and is in NFC. -/
def ComesOutSafe (N : Nfc) (filename : List Char) : Prop :=
  let name := cleanedName N filename
  name = [] ∨
  (name ≠ [] ∧ byteLen name ≤ maxFilenameBytes ∧ N.nfc name = name) ∨
  (maxFilenameBytes < byteLen name ∧ ∃ stem ext kept, ExtensionFits name stem ext ∧
    LongestPart Char.utf8Size (maxFilenameBytes - 1 - byteLen ext) stem kept ∧
    (∃ first rest, stem = first :: rest ∧ first.utf8Size + 1 + byteLen ext ≤ maxFilenameBytes) ∧
    N.nfc (kept ++ '.' :: ext) = kept ++ '.' :: ext) ∨
  (maxFilenameBytes < byteLen name ∧ (¬ ∃ stem ext, ExtensionFits name stem ext) ∧
    ∃ kept, LongestPart Char.utf8Size maxFilenameBytes name kept ∧
      (∀ ch, kept.getLast? = some ch → isTrimmed ch = false) ∧ N.nfc kept = kept)

section Output

variable {filename : List Char}

theorem sanitiseFilename_of_nil (h : cleanedName N filename = []) : sanitiseFilename N filename = defaultFilename :=
  if_pos h

theorem sanitiseFilename_of_ne (h : cleanedName N filename ≠ []) :
    sanitiseFilename N filename = truncatePreservingExtension (cleanedName N filename) := if_neg h

theorem sanitiseFilename_of_short (h : cleanedName N filename ≠ [])
    (hshort : byteLen (cleanedName N filename) ≤ maxFilenameBytes) :
    sanitiseFilename N filename = cleanedName N filename :=
  (sanitiseFilename_of_ne h).trans (if_pos hshort)

/-- **The extension is kept** wherever it leaves room for a character before it. -/
theorem extension_kept {stem ext rest : List Char} {first : Char} (h : HasExtension (cleanedName N filename) stem ext)
    (hstem : stem = first :: rest) (hroom : first.utf8Size + 1 + byteLen ext ≤ maxFilenameBytes) :
    ∃ kept, kept ≠ [] ∧ sanitiseFilename N filename = kept ++ '.' :: ext := by
  have hne : cleanedName N filename ≠ [] := by
    rw [h.split]
    exact List.append_ne_nil_of_right_ne_nil _ (List.cons_ne_nil _ _)
  by_cases hshort : byteLen (cleanedName N filename) ≤ maxFilenameBytes
  · exact ⟨stem, h.stem_ne, (sanitiseFilename_of_short hne hshort).trans h.split⟩
  · have hfirst := Char.utf8Size_pos first
    have hfits : ExtensionFits (cleanedName N filename) stem ext := ⟨h, by omega⟩
    rw [sanitiseFilename_of_ne hne]
    rcases truncate_long (not_le.mp hshort) with ⟨stem', ext', hfits', htruncated⟩ | ⟨hnone, -⟩
    · obtain ⟨rfl, rfl⟩ := h.unique hfits'.1
      refine ⟨_, fit_ne_nil_iff.mpr ⟨first, rest, hstem, ?_⟩, htruncated⟩
      omega
    · exact absurd ⟨stem, ext, hfits⟩ hnone

/-- **When the result is safe**: the three ways a cleaned name is cut, one by one. -/
theorem safe_iff : SafeName N (sanitiseFilename N filename) ↔ ComesOutSafe N filename := by
  unfold ComesOutSafe
  simp only
  by_cases hnil : cleanedName N filename = []
  · rw [sanitiseFilename_of_nil hnil]
    exact ⟨fun _ => Or.inl hnil, fun _ => safeName_default⟩
  · have hclean := isClean_cleanedName hnil
    by_cases hshort : byteLen (cleanedName N filename) ≤ maxFilenameBytes
    · rw [sanitiseFilename_of_short hnil hshort]
      constructor
      · exact fun hsafe => Or.inr (Or.inl ⟨hnil, hshort, hsafe.nfc⟩)
      · rintro (h | ⟨-, -, hnfc⟩ | ⟨hlong, -⟩ | ⟨hlong, -⟩)
        · exact absurd h hnil
        · exact ⟨hclean, hshort, hnfc⟩
        · exact absurd hshort (not_le.mpr hlong)
        · exact absurd hshort (not_le.mpr hlong)
    · -- too long: cut in front of an extension that fits, or anywhere
      rw [sanitiseFilename_of_ne hnil]
      rcases truncate_long (not_le.mp hshort) with ⟨stem, ext, hfits, htruncated⟩ | ⟨hnone, htruncated⟩
      · rw [htruncated, safe_iff_of_extension hclean hfits]
        constructor
        · rintro ⟨hroom, hnfc⟩
          exact Or.inr (Or.inr (Or.inl ⟨not_le.mp hshort, stem, ext, _, hfits, fit_longest _ _, hroom, hnfc⟩))
        · rintro (h | ⟨-, hle, -⟩ | ⟨-, stem', ext', kept, hfits', hkept, hroom, hnfc⟩ | ⟨-, hnone, -⟩)
          · exact absurd h hnil
          · exact absurd hle hshort
          · -- a name has one extension
            obtain ⟨rfl, rfl⟩ := hfits.1.unique hfits'.1
            obtain rfl := hkept.unique (fit_longest _ _)
            exact ⟨hroom, hnfc⟩
          · exact absurd ⟨stem, ext, hfits⟩ hnone
      · rw [htruncated, safe_iff_of_cut hclean]
        constructor
        · rintro ⟨hlast, hnfc⟩
          exact Or.inr (Or.inr (Or.inr ⟨not_le.mp hshort, hnone, _, fit_longest _ _, hlast, hnfc⟩))
        · rintro (h | ⟨-, hle, -⟩ | ⟨-, stem, ext, -, hfits, -⟩ | ⟨-, -, kept, hkept, hlast, hnfc⟩)
          · exact absurd h hnil
          · exact absurd hle hshort
          · exact absurd ⟨stem, ext, hfits⟩ hnone
          · obtain rfl := hkept.unique (fit_longest _ _)
            exact ⟨hlast, hnfc⟩

end Output

/-- **Sanitised filenames**: a filename comes out safe, with its extension and for good, exactly if composing is not undone
by what is dropped and the cut lays nothing bare. -/
theorem sanitised_iff (N : Nfc) (filename : List Char) : Sanitised N filename ↔ ComesOutSafe N filename := by
  rw [← safe_iff]
  constructor
  · exact fun h => h.safe
  · intro hsafe
    refine ⟨hsafe, ?_, sanitiseFilename_eq_self hsafe⟩
    intro stem ext first rest hext hstem hroom
    exact extension_kept hext hstem hroom

/-! An acute accent behind a control character: the two letters compose once the character between them is gone. -/

/-- Composition of `e` with an acute accent. -/
def composeAcute : List Char → List Char
  | 'e' :: '\u0301' :: rest => 'é' :: composeAcute rest
  | ch :: rest => ch :: composeAcute rest
  | [] => []

theorem composeAcute_cons {ch : Char} {rest : List Char} (h : ¬ (ch = 'e' ∧ rest.head? = some '\u0301')) :
    composeAcute (ch :: rest) = ch :: composeAcute rest := by
  rw [composeAcute]
  rintro rest' rfl rfl
  exact h ⟨rfl, rfl⟩

/-- An accent that stands in front stood there before. -/
theorem head_composeAcute {s : List Char} (h : (composeAcute s).head? = some '\u0301') : s.head? = some '\u0301' := by
  by_cases hacute : ∃ rest, s = 'e' :: '\u0301' :: rest
  · obtain ⟨rest, rfl⟩ := hacute
    exact absurd (Option.some.inj h) (by decide)
  · cases s with
    | nil => exact h
    | cons ch rest =>
        have hcons : composeAcute (ch :: rest) = ch :: composeAcute rest := by
          refine composeAcute_cons ?_
          rintro ⟨rfl, hrest⟩
          obtain ⟨rest', rfl⟩ := List.head?_eq_some_iff.mp hrest
          exact hacute ⟨rest', rfl⟩
        rw [hcons] at h
        exact h

theorem composeAcute_composeAcute (s : List Char) : composeAcute (composeAcute s) = composeAcute s := by
  induction s using composeAcute.induct with
  | case1 rest ih =>
      have hcomposed : composeAcute ('e' :: '\u0301' :: rest) = 'é' :: composeAcute rest := by rw [composeAcute]
      rw [hcomposed, composeAcute_cons (by rintro ⟨h, -⟩; exact absurd h (by decide)), ih]
  | case2 ch rest hno ih =>
      have hapart : ¬ (ch = 'e' ∧ rest.head? = some '\u0301') := by
        rintro ⟨rfl, hrest⟩
        obtain ⟨rest', rfl⟩ := List.head?_eq_some_iff.mp hrest
        exact hno rest' rfl rfl
      rw [composeAcute_cons hapart, composeAcute_cons fun h => hapart ⟨h.1, head_composeAcute h.2⟩, ih]
  | case3 => rfl

theorem composeAcute_ascii (s : List Char) (h : ∀ ch ∈ s, ch.toNat < 128) : composeAcute s = s := by
  induction s with
  | nil => rfl
  | cons ch rest ih =>
      have hapart : ¬ (ch = 'e' ∧ rest.head? = some '\u0301') := by
        rintro ⟨-, hrest⟩
        obtain ⟨rest', rfl⟩ := List.head?_eq_some_iff.mp hrest
        have hlt := h '\u0301' (List.mem_cons_of_mem _ List.mem_cons_self)
        exact absurd hlt (by decide)
      rw [composeAcute_cons hapart, ih fun c hc => h c (List.mem_cons_of_mem _ hc)]

def acuteNfc : Nfc where
  nfc := composeAcute
  nfc_nfc := composeAcute_composeAcute
  nfc_ascii := composeAcute_ascii

theorem accent_behind_control_composes_late : ¬ ∀ (N : Nfc) (filename : List Char), Sanitised N filename := by
  intro h
  have hstable := (h acuteNfc ['e', '\u0001', '\u0301']).stable
  have honce : sanitiseFilename acuteNfc ['e', '\u0001', '\u0301'] = ['e', '\u0301'] := by decide +kernel
  have htwice : sanitiseFilename acuteNfc ['e', '\u0301'] = ['é'] := by decide +kernel
  rw [honce, htwice] at hstable
  exact absurd hstable (by decide)

end KChatCore.Media
