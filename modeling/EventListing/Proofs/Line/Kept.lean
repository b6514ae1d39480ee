-- What is kept of a raw line. Carriage returns at its end and blank lines do not
-- matter, so a listing reads the same whatever its line ends are. A line that was
-- kept is kept as it is when it is read again.
import EventListing.Proofs.Text.Trim
import EventListing.Proofs.Text.Words
import EventListing.Resolution.Strategy

namespace EventListing

open Text

/-! ## One raw line -/

/-- This many carriage returns. -/
def returns (count : Nat) : List Char := List.replicate count '\r'

namespace Line

/-- A raw line is what is kept of it, and carriage returns. -/
theorem exists_returns (raw : String) :
    ∃ count, raw.toList = stripReturns raw ++ returns count := by
  refine ⟨(raw.toList.rtakeWhile (· == '\r')).length, ?_⟩
  have hreturns : raw.toList.rtakeWhile (· == '\r') =
      returns (raw.toList.rtakeWhile (· == '\r')).length := by
    refine List.eq_replicate_of_mem ?_
    intro c hc
    simpa using List.mem_rtakeWhile_imp hc
  rw [← hreturns]
  exact List.rdropWhile_append_rtakeWhile.symm

/-- No carriage return is left at the end. -/
theorem getLast?_stripReturns (raw : String) : (stripReturns raw).getLast? ≠ some '\r' := by
  intro hlast
  have hne : stripReturns raw ≠ [] := by
    intro hnil
    rw [hnil] at hlast
    cases hlast
  have hnot := List.rdropWhile_last_not (· == '\r') raw.toList hne
  rw [List.getLast?_eq_some_getLast hne] at hlast
  exact hnot (beq_iff_eq.mpr (Option.some.inj hlast))

theorem stripReturns_append (raw : String) (count : Nat) :
    stripReturns (raw ++ String.ofList (returns count)) = stripReturns raw := by
  unfold stripReturns
  rw [String.toList_append, String.toList_ofList]
  refine dropEndWhile_append ?_ _
  intro c hc
  simpa using (List.mem_replicate.mp hc).2

theorem ofRaw?_append (raw : String) (count : Nat) :
    ofRaw? (raw ++ String.ofList (returns count)) = ofRaw? raw := by
  unfold ofRaw?
  rw [stripReturns_append]

/-- A raw line is dropped exactly when it is blank. -/
theorem ofRaw?_eq_none_iff {raw : String} : ofRaw? raw = none ↔ isBlankText raw.toList := by
  obtain ⟨count, hraw⟩ := exists_returns raw
  have hblank : isBlankText (returns count) := isBlankText_replicate (by decide) count
  rw [hraw, isBlankText_append, hblank, Bool.and_true, ofRaw?]
  simp

theorem of_ofRaw? {raw : String} {line : Line} (h : ofRaw? raw = some line) :
    isBlankText (stripReturns raw) = false ∧ line = pad (stripReturns raw) := by
  unfold ofRaw? at h
  simp only at h
  split at h
  · cases h
  · rename_i hblank
    exact ⟨by simpa using hblank, (Option.some.inj h).symm⟩

/-- A full line needs no more spaces. -/
theorem pad_chars (line : Line) : pad line.chars = line := by
  obtain ⟨chars, hwidth⟩ := line
  unfold pad
  congr 1
  rw [Nat.sub_eq_zero_of_le hwidth]
  exact List.append_nil chars

/-- A line that was kept does not end with a carriage return either. -/
theorem getLast?_chars_of_ofRaw? {raw : String} {line : Line} (h : ofRaw? raw = some line) :
    line.chars.getLast? ≠ some '\r' := by
  obtain ⟨-, rfl⟩ := of_ofRaw? h
  unfold pad
  simp only
  cases lineWidth - (stripReturns raw).length with
  | zero =>
    rw [List.replicate_zero, List.append_nil]
    exact getLast?_stripReturns raw
  | succ count =>
    rw [List.replicate_succ', ← List.append_assoc, List.getLast?_concat]
    decide

/-- A line that was kept is kept as it is. -/
theorem ofRaw?_text {raw : String} {line : Line} (h : ofRaw? raw = some line) :
    ofRaw? line.text = some line := by
  have hstrip : stripReturns line.text = line.chars := by
    unfold stripReturns text
    rw [String.toList_ofList]
    refine dropEndWhile_eq_self ?_
    rintro c hc hreturn
    obtain rfl : c = '\r' := by simpa using hreturn
    exact getLast?_chars_of_ofRaw? h hc
  have hblank : isBlankText line.chars = false := by
    obtain ⟨hkept, rfl⟩ := of_ofRaw? h
    unfold pad
    rw [isBlankText_append, hkept, Bool.false_and]
  unfold ofRaw?
  simp only [hstrip, hblank, Bool.false_eq_true, if_false, pad_chars]

end Line

/-! ## Many raw lines -/

/-- The same raw lines, but for carriage returns that were put behind some of them
and blank lines that were put in or taken out. -/
inductive Retyped : List String → List String → Prop
  | nil : Retyped [] []
  | line (raw : String) (count : Nat) {old new : List String} (h : Retyped old new) :
      Retyped (raw :: old) ((raw ++ String.ofList (returns count)) :: new)
  | inserted {blank : String} (hblank : isBlankText blank.toList) {old new : List String}
      (h : Retyped old new) : Retyped old (blank :: new)
  | removed {blank : String} (hblank : isBlankText blank.toList) {old new : List String}
      (h : Retyped old new) : Retyped (blank :: old) new

theorem Retyped.ofLines_eq {old new : List String} (h : Retyped old new) :
    Listing.ofLines old = Listing.ofLines new := by
  unfold Listing.ofLines
  induction h with
  | nil => rfl
  | line raw count h ih => rw [List.filterMap_cons, List.filterMap_cons, Line.ofRaw?_append, ih]
  | inserted hblank h ih => rw [List.filterMap_cons_none (Line.ofRaw?_eq_none_iff.mpr hblank), ih]
  | removed hblank h ih => rw [List.filterMap_cons_none (Line.ofRaw?_eq_none_iff.mpr hblank), ih]

/-- The characters with a carriage return before each line end. -/
def returnsBeforeEnds (cs : List Char) : List Char :=
  cs.flatMap fun c => if c = '\n' then ['\r', '\n'] else [c]

/-- The text with both characters at each line end. -/
def withReturns (text : String) : String := String.ofList (returnsBeforeEnds text.toList)

/-- Each line of the text gets a carriage return, but for the last one. -/
theorem segments_returnsBeforeEnds (cs : List Char) :
    List.Forall₂ (fun old new => ∃ count, new = old ++ returns count) (segments '\n' cs)
      (segments '\n' (returnsBeforeEnds cs)) := by
  induction cs with
  | nil => exact .cons ⟨0, rfl⟩ .nil
  | cons c cs ih =>
    have hcons : returnsBeforeEnds (c :: cs) =
        (if c = '\n' then ['\r', '\n'] else [c]) ++ returnsBeforeEnds cs := List.flatMap_cons
    rw [hcons]
    by_cases hc : c = '\n'
    · subst hc
      exact .cons ⟨1, rfl⟩ ih
    · rw [if_neg hc, List.singleton_append, segments_cons, segments_cons]
      -- the character goes to the first line of both
      unfold addToSegments
      rw [if_neg hc, if_neg hc]
      generalize segments '\n' cs = old, segments '\n' (returnsBeforeEnds cs) = new at ih
      cases ih with
      | nil => exact .cons ⟨0, rfl⟩ .nil
      | cons hfirst hrest =>
        obtain ⟨count, rfl⟩ := hfirst
        exact .cons ⟨count, rfl⟩ hrest

theorem retyped_of_forall₂ {old new : List (List Char)}
    (h : List.Forall₂ (fun old new => ∃ count, new = old ++ returns count) old new) :
    Retyped (old.map String.ofList) (new.map String.ofList) := by
  induction h with
  | nil => exact .nil
  | cons hfirst _ ih =>
    obtain ⟨count, rfl⟩ := hfirst
    rw [List.map_cons, List.map_cons, String.ofList_append]
    exact .line _ count ih

theorem retyped_withReturns (text : String) :
    Retyped (Listing.rawLines text) (Listing.rawLines (withReturns text)) := by
  unfold Listing.rawLines withReturns
  rw [String.toList_ofList]
  exact retyped_of_forall₂ (segments_returnsBeforeEnds text.toList)

/-- Reading a listing again gives the listing. -/
theorem Listing.ofLines_map_text (raws : List String) :
    ofLines ((ofLines raws).map Line.text) = ofLines raws := by
  unfold ofLines
  rw [List.filterMap_map, List.filterMap_filterMap]
  refine List.filterMap_congr fun raw _ => ?_
  cases hraw : Line.ofRaw? raw with
  | none => rfl
  | some line => exact Line.ofRaw?_text hraw

/-! ## The law -/

/-- Line ends and blank lines do not matter: a text reads the same with both
characters at each line end, and raw lines read the same, and resolve alike under
any settings, whatever carriage returns stand behind them and whatever blank lines
between them. A raw line is kept exactly when it is not blank. What is kept is the
raw line without the carriage returns at its end, filled up with spaces to the width
of a line, which add no token. It is kept as it is when it is read again. -/
theorem line_ends_do_not_matter :
    (∀ text, Listing.ofText (withReturns text) = Listing.ofText text) ∧
      (∀ old new, Retyped old new → Listing.ofLines old = Listing.ofLines new ∧
        ∀ settings : Resolution.Settings,
          settings.resolve (Listing.ofLines old) = settings.resolve (Listing.ofLines new)) ∧
      (∀ raw, Line.ofRaw? raw = none ↔ isBlankText raw.toList) ∧
      (∀ raw line, Line.ofRaw? raw = some line →
        ∃ kept count, raw.toList = kept ++ returns count ∧ kept.getLast? ≠ some '\r' ∧
          line.chars = kept ++ List.replicate (150 - kept.length) ' ' ∧
          line.tokens = words kept) ∧
      ∀ raws, Listing.ofLines ((Listing.ofLines raws).map Line.text) = Listing.ofLines raws := by
  refine ⟨?_, ?_, fun raw => Line.ofRaw?_eq_none_iff, ?_, Listing.ofLines_map_text⟩
  · intro text
    exact (retyped_withReturns text).ofLines_eq.symm
  · intro old new h
    exact ⟨h.ofLines_eq, fun settings => congrArg settings.resolve h.ofLines_eq⟩
  · intro raw line hline
    obtain ⟨count, hraw⟩ := Line.exists_returns raw
    obtain ⟨-, rfl⟩ := Line.of_ofRaw? hline
    exact ⟨Line.stripReturns raw, count, hraw, Line.getLast?_stripReturns raw, rfl,
      words_append_spaces _ _⟩

/-- Two records as one system writes them. -/
def plainLines : List String := ["PROCESSOR  0 000 1", "FILEEND    0 001\r000010"]

/-- The same two records with other line ends, and a blank line between them. The
carriage return inside the second one stays. -/
def typedLines : List String :=
  ["PROCESSOR  0 000 1\r\r", "\u00a0\t\r", "FILEEND    0 001\r000010\r"]

theorem typed_lines_read_alike :
    Retyped plainLines typedLines ∧ Listing.ofLines plainLines = Listing.ofLines typedLines ∧
      (Listing.ofLines typedLines).length = 2 ∧
      Line.ofRaw? "FILEEND    0 001\r000010\r" =
        some (Line.pad "FILEEND    0 001\r000010".toList) ∧
      ∃ kept count, "FILEEND    0 001\r000010\r".toList = kept ++ returns count ∧
        kept.getLast? ≠ some '\r' ∧
        (Line.pad "FILEEND    0 001\r000010".toList).tokens = words kept := by
  have hfirst : "PROCESSOR  0 000 1\r\r" = "PROCESSOR  0 000 1" ++ String.ofList (returns 2) := by
    decide
  have hlast : "FILEEND    0 001\r000010\r" =
      "FILEEND    0 001\r000010" ++ String.ofList (returns 1) := by
    decide
  have hretyped : Retyped plainLines typedLines := by
    unfold plainLines typedLines
    rw [hfirst, hlast]
    exact .line _ 2 (.inserted (by decide) (.line _ 1 .nil))
  have hline : Line.ofRaw? "FILEEND    0 001\r000010\r" =
      some (Line.pad "FILEEND    0 001\r000010".toList) := by
    decide +kernel
  obtain ⟨-, hsame, -, hkept, -⟩ := line_ends_do_not_matter
  obtain ⟨kept, count, hraw, hend, -, htokens⟩ := hkept _ _ hline
  exact ⟨hretyped, (hsame _ _ hretyped).1, by decide +kernel, hline, kept, count, hraw, hend,
    htokens⟩

end EventListing
