-- The order of the diagnostics under a path. The way by the forest never sorts:
-- what it lists under a path stands in the order in which it was brought there.
-- So when the errors of each file come by line, those of one file that were
-- brought there alike stand by line as well.
import EventListing.Proofs.Resolution.Moments
import EventListing.Proofs.Resolution.Soundness

namespace EventListing

open LineMap Resolution Mapping

/-! ## Moments in their order -/

namespace Moment

/-- The first moment comes before the second one: in an earlier step, or with no
edits yet made while the second one has them, or at an earlier file. -/
def Before (m n : Moment) : Prop :=
  m.step < n.step ∨ m.step = n.step ∧
    (m.afterEdit = false ∧ n.afterEdit = true ∨ m.afterEdit = n.afterEdit ∧ m.file < n.file)

theorem not_before_self (m : Moment) : ¬ m.Before m := by
  unfold Before
  cases m.afterEdit <;> simp

theorem pairwise_ofStep (i files : Nat) : (ofStep i files).Pairwise Before := by
  have hmap : ∀ afterEdit, ((List.range files).map (Moment.mk i · afterEdit)).Pairwise Before := by
    intro afterEdit
    rw [List.pairwise_map]
    exact List.pairwise_lt_range.imp fun hlt => Or.inr ⟨rfl, Or.inr ⟨rfl, hlt⟩⟩
  refine List.pairwise_append.mpr ⟨hmap false, hmap true, ?_⟩
  intro a ha b hb
  obtain ⟨j, -, rfl⟩ := List.mem_map.mp ha
  obtain ⟨k, -, rfl⟩ := List.mem_map.mp hb
  exact Or.inr ⟨rfl, Or.inl ⟨rfl, rfl⟩⟩

end Moment

namespace Record

theorem pairwise_moments (records : List Record) : (moments records).Pairwise Moment.Before := by
  unfold moments
  rw [List.pairwise_flatMap]
  refine ⟨fun i _ => Moment.pairwise_ofStep i _, List.pairwise_lt_range.imp ?_⟩
  intro i j hij a ha b hb
  refine Or.inl ?_
  rw [(Moment.mem_ofStep.mp ha).1, (Moment.mem_ofStep.mp hb).1]
  exact hij

/-! ## Reports in their order -/

/-- Reports for one file number come in the order of their moments. -/
theorem pairwise_reports (records : List Record) :
    (reports records).Pairwise fun a b =>
      a.record.fileId = b.record.fileId → ¬ b.moment.Before a.moment := by
  induction records using List.reverseRecOn with
  | nil => exact List.Pairwise.nil
  | append_singleton records record ih =>
    rw [reports_concat, List.pairwise_append]
    refine ⟨ih, Option.pairwise_toList, ?_⟩
    intro a ha b hb hid
    obtain ⟨-, -, hstep, -⟩ := of_mem_reports ha
    obtain ⟨hfile, hedited⟩ := moment_of_mem_reports ha
    obtain ⟨-, -, hstep', hfile', hedited'⟩ := of_report? (Option.mem_toList.mp hb)
    rintro (hlt | ⟨hsame, ⟨hearly, hlate⟩ | ⟨-, hlt⟩⟩)
    · omega
    · -- an edit before the first report is an edit before the second one
      rw [hsame, hedited hlate, hearly] at hedited'
      cases hedited'
    · rw [hid, ← hsame, hfile'] at hfile
      have hplace := Option.some.inj hfile
      omega

/-- The errors of each file number come by line. An error whose line does not
read may stand anywhere. -/
def ErrorsInOrder (records : List Record) : Prop :=
  (errors records).Pairwise fun a b =>
    a.fileId = b.fileId → a.line.all fun line => b.line.all (line ≤ ·)

instance (records : List Record) : Decidable (ErrorsInOrder records) :=
  inferInstanceAs (Decidable (List.Pairwise _ _))

theorem ErrorsInOrder.line_le {records : List Record} (h : ErrorsInOrder records) :
    (reports records).Pairwise fun a b => a.record.fileId = b.record.fileId → a.line ≤ b.line := by
  have hreports := h.sublist (reports_sublist records)
  rw [List.pairwise_map] at hreports
  refine hreports.imp_of_mem ?_
  intro a b ha hb hle hid
  obtain ⟨-, hline, -⟩ := of_mem_reports ha
  obtain ⟨-, hline', -⟩ := of_mem_reports hb
  simpa [hline, hline'] using hle hid

/-- So they are also brought to their sources by line, those of each number on
their own. -/
theorem ErrorsInOrder.resolved {records : List Record} (h : ErrorsInOrder records) :
    (resolved records).Pairwise fun a b =>
      a.record.fileId = b.record.fileId → a.line ≤ b.line := by
  refine pairwise_flatMap_filter Moment.not_before_self (pairwise_moments records) ?_
  refine h.line_le.imp₂ ?_ (pairwise_reports records)
  intro a b hle hmoments
  exact ⟨hle, fun hbefore hid => absurd hbefore (hmoments hid.symm)⟩

end Record

/-! ## Lines looked up in one map -/

/-- Where a path has one file at most, its lines stand in the map by number. -/
theorem LineMap.Sound.line_le {files : List FileNode} {m : LineMap} (h : m.Sound files)
    {path : String} (hone : files.countP (·.isSource path) ≤ 1) {i j : Nat} (hij : i ≤ j)
    {o o' : Origin} (ho : m.lines[i]? = some o) (ho' : m.lines[j]? = some o')
    (hat : o.path = path ∧ o.isSql = false) (hat' : o'.path = path ∧ o'.isSql = false) :
    o.line ≤ o'.line := by
  have hordered := h.ordered path hone
  unfold sourceLines at hordered
  rw [List.pairwise_map, List.pairwise_filter, List.pairwise_iff_getElem] at hordered
  obtain ⟨hi, rfl⟩ := List.getElem?_eq_some_iff.mp ho
  obtain ⟨hj, rfl⟩ := List.getElem?_eq_some_iff.mp ho'
  rcases Nat.lt_or_eq_of_le hij with hlt | rfl
  · exact Nat.le_of_lt (hordered i j hi hj hlt (by simpa using hat) (by simpa using hat'))
  · exact Nat.le_refl _

/-- At each moment the lines are sound for some of the files of the first
compile step. -/
theorem Resolution.Mapping.sound_linesAt (listing : Listing) (moment : Moment) :
    ∃ files, files.Sublist (Forest.ofListing listing).firstFiles ∧
      (linesAt (Forest.ofListing listing) moment).Sound files := by
  set forest := Forest.ofListing listing
  have hreported : ∀ step ∈ forest.steps, step.Reported listing.records :=
    Forest.reported_ofRecords listing.records
  unfold linesAt
  cases hstep : forest.steps[moment.step]? with
  | none => exact ⟨[], List.nil_sublist _, LineMap.Sound.empty⟩
  | some step =>
    have hfiles : ∀ file ∈ step.files, file.Reported listing.records :=
      hreported step (List.mem_of_getElem? hstep)
    set old := ((forest.steps.take moment.step).head?.map Step.files).getD [] with hold
    have hupTo : (upTo forest moment.step).Sound listing.records old :=
      sound_of_steps fun s hs => hreported s (List.mem_of_mem_take hs)
    -- the first step adds its own files, and the later ones find all of them there
    have hsub : ∀ rest, rest.Sublist step.files →
        (if moment.step = 0 then old ++ rest else old).Sublist forest.firstFiles := by
      intro rest hrest
      unfold Forest.firstFiles
      cases hindex : moment.step with
      | zero =>
        rw [hindex] at hstep hold
        rw [List.head?_eq_getElem?, hstep, hold]
        simpa using hrest
      | succ i =>
        rw [hindex] at hold
        rw [if_neg (by omega), hold, List.head?_take, if_neg (by omega)]
    have hbefore : ∀ rest : List FileNode, rest.Sublist step.files →
        (rest.foldl (beforeEdits forest.paths (moment.step = 0) step)
          (upTo forest moment.step)).Sound listing.records
            (if moment.step = 0 then old ++ rest else old) := by
      intro rest hrest
      have hsound : (rest.foldl (beforeEdits forest.paths (moment.step = 0) step)
          (upTo forest moment.step)).Sound listing.records _ :=
        sound_foldl_beforeEdits _ (fun file hfile => hfiles file (hrest.subset hfile)) hupTo
      simpa using hsound
    have htake := List.take_sublist (moment.file + 1) step.files
    simp only
    split
    · refine ⟨_, hsub _ (List.Sublist.refl _), ?_⟩
      exact (sound_foldl_withEdits (fun file hfile => hfiles file (htake.subset hfile))
        (hbefore _ (List.Sublist.refl _))).lines
    · exact ⟨_, hsub _ htake, (hbefore _ htake).lines⟩

/-! ## Reports that are brought to a path alike -/

namespace Report

/-- The diagnostic of the report under a path, if it is listed there. -/
def under? (records : List Record) (path : String) (r : Report) : Option Diagnostic :=
  ((r.outcome? records).filter (·.1 = path)).map Prod.snd

/-- Two reports for one file number come to a path alike: both without a look-up,
or both looked up in the same lines, among which the path has one file at
most. -/
def Alike (records : List Record) (path : String) (a b : Report) : Prop :=
  a.record.fileId = b.record.fileId ∧
    (a.IsDirect records ∧ b.IsDirect records ∨
      ¬ a.IsDirect records ∧ ¬ b.IsDirect records ∧ a.lines records = b.lines records ∧
        (Forest.ofRecords records).firstFiles.countP (·.isSource path) ≤ 1)

instance (records : List Record) (path : String) (a b : Report) :
    Decidable (a.Alike records path b) := inferInstanceAs (Decidable (_ ∧ _))

theorem of_under? {records : List Record} {path : String} {r : Report} {d : Diagnostic}
    (h : r.under? records path = some d) : r.outcome? records = some (path, d) := by
  obtain ⟨⟨path', d'⟩, hfound, rfl⟩ := Option.map_eq_some_iff.mp h
  obtain ⟨houtcome, hpath⟩ := Option.filter_eq_some_iff.mp hfound
  rw [decide_eq_true_eq] at hpath
  rw [houtcome, ← hpath]

/-- A report that is not looked up stays at its line. -/
theorem line_of_isDirect {records : List Record} {path : String} {r : Report} {d : Diagnostic}
    (h : r.outcome? records = some (path, d)) (hdirect : r.IsDirect records) :
    d.line = r.line := by
  unfold outcome? at h
  rw [if_pos hdirect] at h
  obtain ⟨_, -, hat⟩ := Option.map_eq_some_iff.mp h
  cases hat
  rfl

/-- Any other report goes to the line that stands at its place. -/
theorem origin_of_not_isDirect {records : List Record} {path : String} {r : Report}
    {d : Diagnostic} (h : r.outcome? records = some (path, d)) (hdirect : ¬ r.IsDirect records) :
    1 ≤ r.line ∧ ∃ origin, (r.lines records).lines[(r.line - 1).toNat]? = some origin ∧
      (origin.path = path ∧ origin.isSql = false) ∧ d.line = origin.line := by
  unfold outcome? at h
  rw [if_neg hdirect] at h
  obtain ⟨origin, hfound, hat⟩ := Option.map_eq_some_iff.mp h
  obtain ⟨hindex, hget, hsql⟩ := LineMap.of_resolve? hfound
  cases hat
  exact ⟨by omega, origin, hget, ⟨rfl, hsql⟩, rfl⟩

/-- Reports that come to a path alike stand there by line, when they were
reported so. -/
theorem Alike.line_le {listing : Listing} {path : String} {a b : Report} {d d' : Diagnostic}
    (h : a.Alike listing.records path b) (hle : a.line ≤ b.line)
    (ha : a.under? listing.records path = some d) (hb : b.under? listing.records path = some d') :
    d.line ≤ d'.line := by
  obtain ⟨-, ⟨hdirect, hdirect'⟩ | ⟨hlooked, hlooked', hlines, hone⟩⟩ := h
  · rw [line_of_isDirect (of_under? ha) hdirect, line_of_isDirect (of_under? hb) hdirect']
    exact hle
  · obtain ⟨hfirst, o, ho, hat, hd⟩ := origin_of_not_isDirect (of_under? ha) hlooked
    obtain ⟨hfirst', o', ho', hat', hd'⟩ := origin_of_not_isDirect (of_under? hb) hlooked'
    obtain ⟨files, hsub, hsound⟩ := sound_linesAt listing a.moment
    rw [← hlines] at ho'
    have hindex : (a.line - 1).toNat ≤ (b.line - 1).toNat := by omega
    rw [hd, hd', Int.ofNat_le]
    exact hsound.line_le (Nat.le_trans hsub.countP_le hone) hindex ho ho' hat hat'

end Report

/-- The reports that a path lists, with their diagnostics, in the order in which
they are brought there. -/
def Record.shownUnder (records : List Record) (path : String) : List (Report × Diagnostic) :=
  (resolved records).filterMap fun r => (r.under? records path).map fun d => (r, d)

theorem listed_byTree_eq (listing : Listing) (path : String) :
    (byTree listing.records).listed path =
      (Record.shownUnder listing.records path).map Prod.snd := by
  rw [byTree_eq, DiagnosticMap.listed_pushAll, DiagnosticMap.listed_empty, List.nil_append,
    List.filter_filterMap, List.map_filterMap]
  unfold Record.shownUnder
  rw [List.map_filterMap]
  refine List.filterMap_congr ?_
  intro r _
  unfold Report.under?
  rw [Option.map_map, Option.map_map]
  rfl

/-! ## The law -/

/-- When the errors of each file number come by line, so do those of one number
that were brought to a path alike, among all that the path lists. A list in which
all were brought there alike is in order. -/
theorem like_errors_stand_by_line (listing : Listing)
    (h : Record.ErrorsInOrder listing.records) (path : String) :
    let records := listing.records
    let shown := Record.shownUnder records path
    (byTree records).listed path = shown.map Prod.snd ∧
      shown.Pairwise (fun x y => x.1.Alike records path y.1 → x.2.line ≤ y.2.line) ∧
      ((∀ x ∈ shown, ∀ y ∈ shown, x.1.Alike records path y.1) →
        ((byTree records).listed path).Pairwise (·.line ≤ ·.line)) := by
  intro records shown
  have hlisted : (byTree records).listed path = shown.map Prod.snd := listed_byTree_eq listing path
  have hpairs : shown.Pairwise fun x y => x.1.Alike records path y.1 → x.2.line ≤ y.2.line := by
    refine List.pairwise_filterMap.mpr (h.resolved.imp ?_)
    intro a b hle x hx y hy halike
    obtain ⟨d, hd, rfl⟩ := Option.map_eq_some_iff.mp hx
    obtain ⟨d', hd', rfl⟩ := Option.map_eq_some_iff.mp hy
    exact halike.line_le (hle halike.1) hd hd'
  refine ⟨hlisted, hpairs, ?_⟩
  intro hall
  rw [hlisted, List.pairwise_map]
  refine hpairs.imp_of_mem ?_
  intro x y hx hy hle
  exact hle (hall x hx y hy)

/-- A copied member with two errors, and then two errors of the root behind an
edit. -/
def orderly : Listing := Listing.ofLines [
  "PROCESSOR  0 000 1",
  "FILEID     0 001 000000 013 LIB/SRC(ROOT) 20230101120000 0",
  "FILEID     0 002 000002 012 LIB/CPY(CPA) 20230101120000 0",
  "ERROR      0 002 1 000001 000001 001 000001 010 RNF1234 S 30 005 first",
  "ERROR      0 002 1 000002 000002 001 000002 010 RNF1234 S 30 006 second",
  "FILEEND    0 002 000002",
  "EXPANSION  0 001 000000 000000 001 000003 000004",
  "ERROR      0 001 1 000001 000001 001 000001 010 RNF7030 S 30 005 third",
  "ERROR      0 001 1 000008 000008 001 000008 010 RNF7030 S 30 006 fourth",
  "FILEEND    0 001 000006"]

theorem orderly_stands_by_line :
    Record.ErrorsInOrder orderly.records ∧
      ((byTree orderly.records).listed "LIB/CPY/CPA").Pairwise (·.line ≤ ·.line) ∧
      ((byTree orderly.records).listed "LIB/SRC/ROOT").Pairwise (·.line ≤ ·.line) ∧
      ((byTree orderly.records).listed "LIB/CPY/CPA").map (·.line) = [1, 2] ∧
      ((byTree orderly.records).listed "LIB/SRC/ROOT").map (·.line) = [1, 4] := by
  have hall : Record.ErrorsInOrder orderly.records ∧
      (∀ path ∈ ["LIB/CPY/CPA", "LIB/SRC/ROOT"],
        ∀ x ∈ Record.shownUnder orderly.records path,
          ∀ y ∈ Record.shownUnder orderly.records path, x.1.Alike orderly.records path y.1) ∧
      ((byTree orderly.records).listed "LIB/CPY/CPA").map (·.line) = [1, 2] ∧
      ((byTree orderly.records).listed "LIB/SRC/ROOT").map (·.line) = [1, 4] := by
    decide +kernel
  obtain ⟨horder, halike, hcopy, hroot⟩ := hall
  refine ⟨horder, ?_, ?_, hcopy, hroot⟩
  · exact (like_errors_stand_by_line orderly horder "LIB/CPY/CPA").2.2 (halike _ (by simp))
  · exact (like_errors_stand_by_line orderly horder "LIB/SRC/ROOT").2.2 (halike _ (by simp))

/-- Two file numbers with one path. -/
def twoNumbers : Listing := Listing.ofLines [
  "PROCESSOR  0 000 1",
  "FILEID     0 001 000000 013 LIB/SRC(ROOT) 20230101120000 0",
  "FILEID     0 002 000002 012 LIB/CPY(CPA) 20230101120000 0",
  "ERROR      0 002 1 000005 000005 001 000005 010 RNF1234 S 30 005 first",
  "FILEEND    0 002 000006",
  "FILEID     0 003 000009 012 LIB/CPY(CPA) 20230101120000 0",
  "ERROR      0 003 1 000003 000003 001 000003 010 RNF1234 S 30 006 second",
  "FILEEND    0 003 000006",
  "FILEEND    0 001 000010"]

/-- An error before an edit and one behind it. Lines that the edit puts in move
the second one up. -/
def aroundEdit : Listing := Listing.ofLines [
  "PROCESSOR  0 000 1",
  "FILEID     0 001 000000 013 LIB/SRC(ROOT) 20230101120000 0",
  "ERROR      0 001 1 000008 000008 001 000008 010 RNF1234 S 30 005 early",
  "EXPANSION  0 001 000000 000000 001 000002 000006",
  "ERROR      0 001 1 000009 000009 001 000009 010 RNF1234 S 30 004 late",
  "FILEEND    0 001 000010"]

/-- An error of a copied member before an edit stays at its line, and one behind
it is looked up. -/
def copyAroundEdit : Listing := Listing.ofLines [
  "PROCESSOR  0 000 1",
  "FILEID     0 001 000000 013 LIB/SRC(ROOT) 20230101120000 0",
  "FILEID     0 002 000002 012 LIB/CPY(CPA) 20230101120000 0",
  "ERROR      0 002 1 000003 000003 001 000003 010 RNF1234 S 30 005 early",
  "EXPANSION  0 001 000000 000000 001 000009 000009",
  "ERROR      0 002 1 000004 000004 001 000004 010 RNF1234 S 30 004 late",
  "FILEEND    0 002 000003",
  "FILEEND    0 001 000006"]

/-- A member that is copied twice. -/
def copiedTwice : Listing := Listing.ofLines [
  "PROCESSOR  0 000 1",
  "FILEID     0 001 000000 013 LIB/SRC(ROOT) 20230101120000 0",
  "FILEID     0 002 000002 012 LIB/CPY(CPA) 20230101120000 0",
  "FILEEND    0 002 000002",
  "FILEID     0 003 000004 012 LIB/CPY(CPA) 20230101120000 0",
  "FILEEND    0 003 000002",
  "EXPANSION  0 001 000000 000000 001 000009 000009",
  "ERROR      0 001 1 000004 000004 001 000004 010 RNF1234 S 30 003 one",
  "ERROR      0 001 1 000005 000005 001 000005 010 RNF1234 S 30 003 two",
  "FILEEND    0 001 000006"]

/-- Errors that were not brought to their path alike may stand there in any
order. -/
theorem unlike_errors_stand_in_any_order :
    (Record.ErrorsInOrder twoNumbers.records ∧
        ((byTree twoNumbers.records).listed "LIB/CPY/CPA").map (·.line) = [5, 3]) ∧
      (Record.ErrorsInOrder aroundEdit.records ∧
        ((byTree aroundEdit.records).listed "LIB/SRC/ROOT").map (·.line) = [8, 4]) ∧
      (Record.ErrorsInOrder copyAroundEdit.records ∧
        ((byTree copyAroundEdit.records).listed "LIB/CPY/CPA").map (·.line) = [3, 2]) ∧
      Record.ErrorsInOrder copiedTwice.records ∧
        ((byTree copiedTwice.records).listed "LIB/CPY/CPA").map (·.line) = [2, 1] := by
  decide +kernel

end EventListing
