-- One member into which the precompiler put lines. Both ways to resolve its
-- listing find the same source line for every error outside of them, and they
-- differ only in the errors inside.
import Mathlib.Data.List.Nodup
import EventListing.Proofs.Forest.OneFile
import EventListing.Proofs.Resolution.Inserted
import EventListing.Proofs.Resolution.Tracked

namespace EventListing

open LineMap Resolution
open Saturating (InRange least greatest)

/-! ## One member with insertions -/

/-- The listing is that of one member into which the precompiler put lines:
first the expansions, each behind the ones before it and at most one line
behind the text so far, and then errors at lines of the text. -/
structure MemberWithInsertions (records : List Record) (opened : Record.FileStart) (count : Nat)
    (edits : List Record.Expansion) (errors : List Record.Error) : Prop where
  records_eq : records = .processor :: .fileStart opened :: (edits.map .expansion ++
    (errors.map .error ++ [.fileEnd ⟨FileId.root, some (count : Int)⟩]))
  root_id : opened.fileId = FileId.root
  root_line : opened.line = some 0
  qualified : UnitName.isQualified opened.name
  edits_root : ∀ r ∈ edits, r.fileId = FileId.root ∧ r.on = some FileId.root
  proper : ∀ r ∈ edits, (insertedRange r).Proper
  ordered : (edits.map insertedRange).Pairwise (·.high < ·.low)
  fits : RangesFit count (edits.map insertedRange)
  le_greatest : lengthWith count (edits.map insertedRange) ≤ greatest
  errors_root : ∀ r ∈ errors, r.fileId = FileId.root ∧ isNoise r = false ∧
    ∃ line, r.line = some line ∧ 1 ≤ line ∧ line ≤ lengthWith count (edits.map insertedRange)

/-- The line that an error reports. -/
def Record.Error.lineNumber (r : Record.Error) : Int := r.line.getD 0

/-- The line of the error lies in none of the ranges. -/
def Record.Error.isOutside (ranges : List LineRange) (r : Record.Error) : Bool :=
  ranges.all (!·.contains r.lineNumber)

/-! ### The pass by ranges on one file -/

namespace Resolution.Correction

/-- The diagnostic of an error at its corrected line. -/
def correctedBy (ranges : List LineRange) (r : Record.Error) : Diagnostic :=
  diagnosticAt r (correctedLine ranges r.lineNumber)

/-- The map with one file, the root. -/
def alone (file : TrackedFile) : OrderedMap FileId TrackedFile :=
  ⟨[(FileId.root, file)], List.nodup_singleton _⟩

theorem modify_alone (file : TrackedFile) (change : TrackedFile → TrackedFile) :
    (alone file).modify FileId.root change = alone (change file) := by
  apply OrderedMap.ext
  simp [alone, OrderedMap.modify, OrderedMap.modifyEntries]

/-- The expansions give the root their ranges, in their order. -/
theorem files_foldl_addExpansion (records : List Record) {edits : List Record.Expansion}
    (hroot : ∀ r ∈ edits, r.fileId = FileId.root) (hproper : ∀ r ∈ edits, (insertedRange r).Proper)
    {s : Correction} {file : TrackedFile} (hs : s.files = alone file) :
    ((edits.map Record.expansion).foldl (apply records) s).files =
      alone { file with ranges := file.ranges ++ edits.map insertedRange } := by
  induction edits generalizing s file with
  | nil => simpa using hs
  | cons r edits ih =>
    obtain ⟨hstart, hend⟩ := bounds_of_proper (hproper r List.mem_cons_self)
    have hr : (s.addExpansion r).files =
        alone { file with ranges := file.ranges ++ [insertedRange r] } := by
      unfold addExpansion
      rw [hstart, hend]
      simp only
      rw [hs, hroot r List.mem_cons_self, modify_alone]
      rfl
    have hnext := ih (fun x hx => hroot x (List.mem_cons_of_mem _ hx))
      (fun x hx => hproper x (List.mem_cons_of_mem _ hx)) hr
    simpa [apply] using hnext

/-- The errors go to the root, each at its corrected line. -/
theorem files_foldl_addError (records : List Record) (errors : List Record.Error)
    (herrors : ∀ r ∈ errors,
      r.fileId = FileId.root ∧ isNoise r = false ∧ ∃ line, r.line = some line)
    {s : Correction} {file : TrackedFile} (hs : s.files = alone file) :
    ((errors.map Record.error).foldl (apply records) s).files =
      alone { file with errors := file.errors ++ errors.map (correctedBy file.ranges) } := by
  induction errors generalizing s file with
  | nil => simpa using hs
  | cons r errors ih =>
    obtain ⟨hroot, hnoise, line, hline⟩ := herrors r List.mem_cons_self
    have hr : (s.addError r).files =
        alone { file with errors := file.errors ++ [correctedBy file.ranges r] } := by
      rw [addError_eq]
      rw [hnoise, hline]
      simp only [Bool.false_eq_true, if_false]
      rw [hs, hroot, modify_alone]
      simp [correctedBy, Record.Error.lineNumber, hline]
    have hnext := ih (fun x hx => herrors x (List.mem_cons_of_mem _ hx)) hr
    simpa [apply] using hnext

end Resolution.Correction

namespace MemberWithInsertions

variable {records : List Record} {opened : Record.FileStart} {count : Nat}
variable {edits : List Record.Expansion} {errors : List Record.Error}

/-- The forest has the member as its only file. -/
theorem forest_steps (h : MemberWithInsertions records opened count edits errors) :
    (Forest.ofRecords records).steps = [⟨[memberFile opened count edits errors]⟩] := by
  rw [h.records_eq]
  exact Forest.steps_of_member h.root_id h.root_line (fun r hr => (h.edits_root r hr).1) fun r hr =>
    (h.errors_root r hr).1

/-- An error outside of the ranges is found at its source line, and one inside
is not found. -/
theorem located_eq (h : MemberWithInsertions records opened count edits errors) {lines : LineMap}
    {path : String} (hlines : Inserted path count (edits.map insertedRange) lines)
    {r : Record.Error} (hr : r ∈ errors) {afterEdit : Bool} {e : RawError}
    (he : RawError.ofRecord? r afterEdit = some e) :
    Mapping.located lines e =
      if r.isOutside (edits.map insertedRange) then
        some (path, diagnosticAt r
          (r.lineNumber - linesBefore (edits.map insertedRange) r.lineNumber))
      else none := by
  obtain ⟨-, -, line, hline, hone, hle⟩ := h.errors_root r hr
  have hnumber : r.lineNumber = line := by
    unfold Record.Error.lineNumber
    rw [hline]
    rfl
  obtain ⟨line', hline', heline, -, hresolved⟩ := RawError.of_ofRecord? he
  rw [hline] at hline'
  cases hline'
  have hgreatest := h.le_greatest
  have hsub : Saturating.sub line 1 = line - 1 := by
    apply Saturating.sub_of_inRange
    simp only [InRange, least, greatest] at *
    omega
  have hbefore := linesBefore_le (edits.map insertedRange) line
  have hlen := hlines.len_eq
  have hresolve := hlines.resolve_eq line hone (by omega)
  have houtside : r.isOutside (edits.map insertedRange) ↔
      ¬ ∃ x ∈ edits.map insertedRange, x.contains line := by
    simp [Record.Error.isOutside, hnumber]
  unfold Mapping.located
  rw [heline, hsub, hresolve, hnumber]
  by_cases hin : ∃ x ∈ edits.map insertedRange, x.contains line
  · rw [if_pos hin, if_neg (fun ho => houtside.mp ho hin)]
    rfl
  · rw [if_neg hin, if_pos (houtside.mpr hin), Option.map_some, hresolved]
    simp only
    congr 3
    omega

theorem path_eq (h : MemberWithInsertions records opened count edits errors) :
    UnitName.path opened.name = UnitName.memberPath opened.name := by
  unfold UnitName.path
  rw [if_pos h.qualified]

theorem lines_inline_memberFile (h : MemberWithInsertions records opened count edits errors)
    (step : Step) :
    (Mapping.start.inline step (memberFile opened count edits errors)).lines =
      ⟨LineMap.numbered (UnitName.memberPath opened.name) count false⟩ := by
  have hunit : (memberFile opened count edits errors).id ≠ FileId.baseUnit := by
    simp [memberFile, FileId.root, FileId.baseUnit]
  rw [Mapping.lines_inline_root step hunit rfl rfl, ← h.path_eq]
  rfl

/-- With all edits made, the lines are those of the member with the ranges put
into it. -/
theorem inserted_withEdits (h : MemberWithInsertions records opened count edits errors)
    {m : Mapping}
    (hm : m.lines = ⟨LineMap.numbered (UnitName.memberPath opened.name) count false⟩) :
    Inserted (UnitName.memberPath opened.name) count (edits.map insertedRange)
      (Mapping.withEdits ⟨[memberFile opened count edits errors]⟩ m
        (memberFile opened count edits errors)).lines := by
  have hlen : (m.lines.len : Int) = count := by
    rw [hm, len, length_numbered]
  have hpath : (memberFile opened count edits errors).path = UnitName.memberPath opened.name :=
    h.path_eq
  have hfind : (⟨[memberFile opened count edits errors]⟩ : Step).find? FileId.root =
      some (memberFile opened count edits errors) := by
    simp [Step.find?, memberFile]
  have hstart : Inserted (memberFile opened count edits errors).path count [] m.lines := by
    rw [hm, hpath]
    exact Inserted.numbered _ _
  have hall := Mapping.inserted_foldl_applyEdit hfind rfl (fun r hr => (h.edits_root r hr).2)
    h.proper (by simpa using h.ordered) (by rw [hlen]; exact h.fits)
    (by rw [hlen]; exact h.le_greatest) hstart
  rw [Mapping.lines_withEdits, ← hpath]
  exact hall

theorem afterEdit_memberFile :
    ∀ e ∈ (memberFile opened count edits errors).errors, e.afterEdit = !edits.isEmpty := by
  intro e he
  obtain ⟨r, -, hr⟩ := List.mem_filterMap.mp he
  obtain ⟨-, -, -, hafter, -⟩ := RawError.of_ofRecord? hr
  exact hafter

/-- Whether there are edits or not, all errors are looked up in the lines with
all edits made. -/
theorem diagnostics_byTree (h : MemberWithInsertions records opened count edits errors) :
    ∃ lines, Inserted (UnitName.memberPath opened.name) count (edits.map insertedRange) lines ∧
      byTree records = DiagnosticMap.pushAll ∅
        ((errors.filterMap (RawError.ofRecord? · !edits.isEmpty)).filterMap
          (Mapping.located lines)) := by
  set file := memberFile opened count edits errors with hfile
  set step : Step := ⟨[file]⟩ with hstep
  set paths := (Forest.ofRecords records).paths
  set m := Mapping.beforeEdits paths true step Mapping.start file with hm
  have hlines : m.lines = ⟨LineMap.numbered (UnitName.memberPath opened.name) count false⟩ := by
    rw [hm, Mapping.lines_beforeEdits, if_pos rfl, h.lines_inline_memberFile]
  refine ⟨_, h.inserted_withEdits hlines, ?_⟩
  have hrun : byTree records = (Mapping.withEdits step m file).diagnostics := by
    unfold byTree Mapping.ofForest
    rw [h.forest_steps]
    rfl
  have hearly : m.diagnostics = DiagnosticMap.pushAll ∅
      ((file.errors.filter (!·.afterEdit)).filterMap (Mapping.located m.lines)) :=
    Mapping.diagnostics_beforeEdits _ _ _ _ _
  have hflag : ∀ e ∈ file.errors, e.afterEdit = !edits.isEmpty := afterEdit_memberFile
  rw [hrun, Mapping.diagnostics_withEdits, hearly, ← DiagnosticMap.pushAll_append]
  congr 1
  change _ = file.errors.filterMap (Mapping.located (Mapping.withEdits step m file).lines)
  cases hempty : edits.isEmpty with
  | true =>
    -- all errors are early ones, and there is no edit to make
    have hsame : (Mapping.withEdits step m file).lines = m.lines := by
      rw [Mapping.lines_withEdits, hfile, memberFile, List.isEmpty_iff.mp hempty]
      rfl
    rw [List.filter_eq_self.mpr fun e he => by simp [hflag e he, hempty],
      List.filter_eq_nil_iff.mpr fun e he => by simp [hflag e he, hempty], hsame,
      List.filterMap_nil, List.append_nil]
  | false =>
    rw [List.filter_eq_nil_iff.mpr fun e he => by simp [hflag e he, hempty],
      List.filter_eq_self.mpr fun e he => by simp [hflag e he, hempty],
      List.filterMap_nil, List.nil_append]

/-- The way by the forest reports exactly the errors outside of the ranges. -/
theorem listed_byTree (h : MemberWithInsertions records opened count edits errors)
    (path : String) :
    (byTree records).listed path =
      if path = UnitName.memberPath opened.name then
        (errors.filter (·.isOutside (edits.map insertedRange))).map fun r => diagnosticAt r
          (r.lineNumber - linesBefore (edits.map insertedRange) r.lineNumber)
      else [] := by
  obtain ⟨lines, hlines, hdiagnostics⟩ := h.diagnostics_byTree
  have hlocated : (errors.filterMap (RawError.ofRecord? · !edits.isEmpty)).filterMap
      (Mapping.located lines) = errors.filterMap fun r =>
        if r.isOutside (edits.map insertedRange) then
          some (UnitName.memberPath opened.name, diagnosticAt r
            (r.lineNumber - linesBefore (edits.map insertedRange) r.lineNumber))
        else none := by
    rw [List.filterMap_filterMap]
    refine List.filterMap_congr ?_
    intro r hr
    obtain ⟨-, -, line, hline, -⟩ := h.errors_root r hr
    obtain ⟨e, he⟩ : ∃ e, RawError.ofRecord? r (!edits.isEmpty) = some e := by
      simp [RawError.ofRecord?, hline]
    rw [he, Option.bind_some, h.located_eq hlines hr he]
  rw [hdiagnostics, hlocated, DiagnosticMap.listed_pushAll, DiagnosticMap.listed_empty,
    List.nil_append]
  generalize edits.map insertedRange = ranges
  clear h hlocated hdiagnostics hlines
  induction errors with
  | nil => simp
  | cons r errors ih =>
    by_cases hpath : path = UnitName.memberPath opened.name
    · subst hpath
      cases hr : r.isOutside ranges <;> simpa [hr] using ih
    · have hpath' : ¬ UnitName.memberPath opened.name = path := fun e => hpath e.symm
      cases hr : r.isOutside ranges <;> simpa [hr, hpath, hpath'] using ih

/-- The way by ranges reports every error, at its corrected line. -/
theorem listed_byRanges (h : MemberWithInsertions records opened count edits errors)
    (path : String) :
    (byRanges records).listed path =
      if path = UnitName.memberPath opened.name then
        Correction.byLine (errors.map (Correction.correctedBy (edits.map insertedRange)))
      else [] := by
  have hpath : Correction.pathOf records opened = UnitName.memberPath opened.name := by
    unfold Correction.pathOf
    rw [if_pos h.qualified]
  set file : TrackedFile := ⟨UnitName.memberPath opened.name, opened.isInclude, [], []⟩
  have hopened : (Correction.start.openFile records opened).files = Correction.alone file := by
    unfold Correction.openFile
    rw [hpath, h.root_id]
    rfl
  have hedits := Correction.files_foldl_addExpansion records (fun r hr => (h.edits_root r hr).1)
    h.proper hopened
  have herrors := Correction.files_foldl_addError records errors (fun r hr => by
    obtain ⟨hroot, hnoise, line, hline, -⟩ := h.errors_root r hr
    exact ⟨hroot, hnoise, line, hline⟩) hedits
  have hfiles : (records.foldl (Correction.apply records) Correction.start).files =
      Correction.alone { file with
        ranges := edits.map insertedRange
        errors := errors.map (Correction.correctedBy (edits.map insertedRange)) } := by
    nth_rewrite 2 [h.records_eq]
    simp only [List.foldl_cons, List.foldl_append, List.foldl_nil, Correction.apply]
    rcases Correction.files_closeFile _ _ with hsame | ⟨hunit, -⟩
    · rw [hsame]
      exact herrors
    · rw [herrors] at hunit
      simp [OrderedMap.contains, OrderedMap.get?, OrderedMap.lookup, Correction.alone, FileId.root,
        FileId.baseUnit] at hunit
  rw [byRanges, Correction.listed_finish, hfiles]
  by_cases hp : path = UnitName.memberPath opened.name
  · subst hp
    simp [OrderedMap.values, Correction.alone, file]
  · have hp' : ¬ UnitName.memberPath opened.name = path := fun e => hp e.symm
    simp [OrderedMap.values, Correction.alone, Correction.byLine, file, hp, hp']

/-- Outside of the ranges, the corrected line is the source line. -/
theorem correctedBy_eq (h : MemberWithInsertions records opened count edits errors)
    {r : Record.Error} (hr : r ∈ errors) (hout : r.isOutside (edits.map insertedRange)) :
    Correction.correctedBy (edits.map insertedRange) r = diagnosticAt r
      (r.lineNumber - linesBefore (edits.map insertedRange) r.lineNumber) := by
  obtain ⟨-, -, line, hline, hone, hle⟩ := h.errors_root r hr
  have hnumber : r.lineNumber = line := by
    unfold Record.Error.lineNumber
    rw [hline]
    rfl
  have hgreatest := h.le_greatest
  have hproper : ∀ x ∈ edits.map insertedRange, x.Proper := by
    simpa using h.proper
  have hnot : ∀ x ∈ edits.map insertedRange, ¬ x.contains r.lineNumber := by
    intro x hx hin
    unfold Record.Error.isOutside at hout
    rw [List.all_eq_true] at hout
    simpa [hin] using hout x hx
  have hapart : (edits.map insertedRange).Pairwise LineRange.Apart := h.ordered.imp Or.inl
  unfold Correction.correctedBy
  rw [correctedLine_eq hproper hapart hnot]
  simp only [InRange, least, greatest] at *
  omega

end MemberWithInsertions

/-! ## The law -/

/-- For a member into which the precompiler put lines, the way by the forest
reports the errors outside of those lines, each at its line less the lines put
in before it. The way by ranges reports all errors, and those outside at the
same lines. -/
theorem both_ways_agree_on_insertions (listing : Listing) (opened : Record.FileStart)
    (count : Nat) (edits : List Record.Expansion) (errors : List Record.Error)
    (h : MemberWithInsertions listing.records opened count edits errors) :
    (∀ path, (byTree listing.records).listed path =
      if path = UnitName.memberPath opened.name then
        (errors.filter (·.isOutside (edits.map insertedRange))).map fun r => diagnosticAt r
          (r.lineNumber - linesBefore (edits.map insertedRange) r.lineNumber)
      else []) ∧
    (∀ path, (byRanges listing.records).listed path =
      if path = UnitName.memberPath opened.name then
        Correction.byLine (errors.map (Correction.correctedBy (edits.map insertedRange)))
      else []) ∧
    ∀ r ∈ errors, r.isOutside (edits.map insertedRange) →
      Correction.correctedBy (edits.map insertedRange) r = diagnosticAt r
        (r.lineNumber - linesBefore (edits.map insertedRange) r.lineNumber) := by
  refine ⟨h.listed_byTree, h.listed_byRanges, ?_⟩
  intro r hr hout
  exact h.correctedBy_eq hr hout

/-- A member of four lines with three lines put in, and four errors. The second
one lies in a line that was put in. -/
def inserted : Listing := Listing.ofLines [
  "PROCESSOR  0 000 1",
  "FILEID     0 001 000000 013 LIB/SRC(ROOT) 20230101120000 0",
  "EXPANSION  0 001 000000 000000 001 000002 000003",
  "EXPANSION  0 001 000000 000000 001 000006 000006",
  "ERROR      0 001 1 000007 000007 001 000007 010 RNF7030 S 30 004 last",
  "ERROR      0 001 1 000002 000002 001 000002 010 RNF7030 S 30 003 sql",
  "ERROR      0 001 1 000005 000005 001 000005 010 RNF7030 S 30 005 third",
  "ERROR      0 001 1 000001 000001 001 000001 010 RNF7030 S 30 005 first",
  "FILEEND    0 001 000004"]

def insertedOpened : Record.FileStart :=
  ⟨FileId.root, "000000", some 0, some 13, "LIB/SRC(ROOT)", "LIB/SRC(ROOT)"⟩

def insertedEdits : List Record.Expansion :=
  [⟨FileId.root, some 0, some 0, some FileId.root, some 2, some 3⟩,
    ⟨FileId.root, some 0, some 0, some FileId.root, some 6, some 6⟩]

def insertedErrors : List Record.Error := Record.errors inserted.records

theorem inserted_agrees :
    MemberWithInsertions inserted.records insertedOpened 4 insertedEdits insertedErrors ∧
      ((byTree inserted.records).listed "LIB/SRC/ROOT").map (·.line) = [4, 3, 1] ∧
      (((byRanges inserted.records).listed "LIB/SRC/ROOT").map (·.line)).Perm [4, 1, 3, 1] := by
  have hall : inserted.records = .processor :: .fileStart insertedOpened ::
        (insertedEdits.map .expansion ++ (insertedErrors.map .error ++
          [.fileEnd ⟨FileId.root, some (4 : Int)⟩])) ∧
      (∀ r ∈ insertedErrors, r.fileId = FileId.root ∧ isNoise r = false ∧
        r.line.any fun line => 1 ≤ line ∧ line ≤ 7) ∧
      (insertedErrors.filter (·.isOutside (insertedEdits.map insertedRange))).map (fun r =>
        r.lineNumber - (linesBefore (insertedEdits.map insertedRange) r.lineNumber : Int)) =
          [4, 3, 1] ∧
      (insertedErrors.map (Correction.correctedBy (insertedEdits.map insertedRange))).map
        (·.line) = [4, 1, 3, 1] := by
    decide +kernel
  obtain ⟨hrecords, herrors, htree, hranges⟩ := hall
  have h : MemberWithInsertions inserted.records insertedOpened 4 insertedEdits insertedErrors := by
    refine ⟨hrecords, rfl, rfl, by decide, by decide, by decide, by decide, ?_, by decide, ?_⟩
    · exact ⟨by decide, by decide, trivial⟩
    · intro r hr
      obtain ⟨hroot, hnoise, hline⟩ := herrors r hr
      obtain ⟨line, hline, hbounds⟩ := (Option.any_eq_true _ _).mp hline
      exact ⟨hroot, hnoise, line, hline, of_decide_eq_true hbounds⟩
  obtain ⟨hlistedTree, hlistedRanges, -⟩ := both_ways_agree_on_insertions _ _ _ _ _ h
  refine ⟨h, ?_, ?_⟩
  · rw [hlistedTree, if_pos (by decide), List.map_map]
    exact htree
  · rw [hlistedRanges, if_pos (by decide), ← hranges]
    exact (Correction.byLine_perm _).map _

end EventListing
