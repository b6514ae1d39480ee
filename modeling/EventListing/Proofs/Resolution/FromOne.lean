-- Lines count from one. What the way by the forest lists always has a line from
-- one on, when the errors have. In the pass by ranges that also depends on how many
-- lines of the ranges stand before an error, and on how many stand behind it when one
-- of the ranges holds it.
import EventListing.Proofs.Resolution.Accepted
import EventListing.Proofs.Resolution.Rank
import EventListing.Proofs.Resolution.Soundness
import Mathlib.Algebra.Order.BigOperators.Group.List
import Mathlib.Algebra.Order.Ring.Int

namespace EventListing

open Saturating (InRange least greatest clamp)

/-! ## Ranges without common lines -/

namespace LineRange

/-- The ranges have no line in common. -/
def Disjoint (a b : LineRange) : Prop := ∀ line, ¬ (a.contains line ∧ b.contains line)

/-- The bounds decide. A range whose bounds are out of order has no lines at
all. -/
theorem disjoint_iff {a b : LineRange} :
    a.Disjoint b ↔ min a.high b.high < max a.low b.low := by
  simp only [Disjoint, contains_iff]
  constructor
  · intro h
    have := h (max a.low b.low)
    omega
  · intro h line
    omega

instance (a b : LineRange) : Decidable (a.Disjoint b) := decidable_of_iff _ disjoint_iff.symm

theorem isEmpty_iff {r : LineRange} : r.isEmpty ↔ r.high < r.low := by
  rw [isEmpty, decide_eq_true_eq]
  simp only [len, Saturating.add, Saturating.sub, clamp, least, greatest]
  omega

theorem Disjoint.apart {a b : LineRange} (h : a.Disjoint b) (ha : a.low ≤ a.high)
    (hb : b.low ≤ b.high) : a.Apart b := by
  rw [disjoint_iff] at h
  unfold Apart
  omega

theorem Disjoint.symm {a b : LineRange} (h : a.Disjoint b) : b.Disjoint a :=
  fun line hboth => h line hboth.symm

/-! ## What a range takes from a line -/

/-- How many lines of the range stand before `line`. -/
def sizeBefore (r : LineRange) (line : Int) : Int := max 0 (min (r.high + 1) line - r.low)

/-- The lines of the range that stand before `line`, or those behind it when the range
holds it. -/
def taken (r : LineRange) (line : Int) : Int :=
  if r.contains line then r.high - line else r.sizeBefore line

theorem sizeBefore_low (r : LineRange) : r.sizeBefore r.low = 0 := by
  unfold sizeBefore
  omega

theorem taken_nonneg (r : LineRange) (line : Int) : 0 ≤ r.taken line := by
  unfold taken sizeBefore
  split
  · rename_i hin
    have hbounds := contains_iff.mp hin
    omega
  · omega

/-- A range apart from the one that holds the line lies before that one or behind it. -/
theorem Disjoint.taken_eq {r range : LineRange} {line : Int} (h : r.Disjoint range)
    (hin : range.contains line) : r.taken line = r.sizeBefore range.low := by
  have hbounds := contains_iff.mp hin
  have hout : ¬ r.contains line := fun hheld => h line ⟨hheld, hin⟩
  rw [disjoint_iff] at h
  unfold taken sizeBefore
  rw [if_neg hout]
  omega

end LineRange

namespace Resolution

/-- The share of a range with lines stops at the greatest number. -/
theorem shareOf_eq_min {range : LineRange} {line : Int} (hfull : range.low ≤ range.high) :
    shareOf line range = min greatest (range.taken line) := by
  unfold shareOf LineRange.taken LineRange.sizeBefore LineRange.len
  simp only [LineRange.contains_iff, LineRange.isAfter, decide_eq_true_eq, Saturating.add,
    Saturating.sub, clamp, least, greatest]
  split <;> split <;> omega

/-! ## The lines in the ranges -/

/-- How many lines of the ranges stand before `line`, those below one included. -/
def heldBefore (ranges : List LineRange) (line : Int) : Int :=
  (ranges.map (·.sizeBefore line)).sum

/-- What the ranges take from a line in all. -/
def taken (ranges : List LineRange) (line : Int) : Int := (ranges.map (·.taken line)).sum

theorem taken_nonneg (ranges : List LineRange) (line : Int) : 0 ≤ taken ranges line := by
  refine List.sum_nonneg fun n hn => ?_
  obtain ⟨range, -, rfl⟩ := List.mem_map.mp hn
  exact range.taken_nonneg line

/-- The sum of the shares stops at the greatest number. -/
theorem shift_eq_min {ranges : List LineRange} (hfull : ∀ r ∈ ranges, r.low ≤ r.high)
    (line : Int) : shift ranges line = min greatest (taken ranges line) := by
  induction ranges using List.reverseRecOn with
  | nil => rfl
  | append_singleton ranges last ih =>
    have hlast : last.low ≤ last.high := hfull last (List.mem_append_right _ List.mem_cons_self)
    have hsum : taken (ranges ++ [last]) line = taken ranges line + last.taken line := by
      simp [taken]
    have hbefore := taken_nonneg ranges line
    have hmore := last.taken_nonneg line
    rw [shift_append, ih fun r hr => hfull r (List.mem_append_left _ hr), shareOf_eq_min hlast,
      hsum]
    simp only [Saturating.add, clamp, least, greatest]
    omega

/-- Outside of the ranges, their lines before the line are taken. -/
theorem taken_of_out {ranges : List LineRange} {line : Int}
    (hout : ∀ r ∈ ranges, ¬ r.contains line) : taken ranges line = heldBefore ranges line := by
  unfold taken heldBefore
  congr 1
  exact List.map_congr_left fun r hr => if_neg (hout r hr)

/-- The range that holds the line counts with its lines behind the line, and the
others with those of their lines that stand before that range. -/
theorem taken_of_contains {ranges : List LineRange} {range : LineRange} {line : Int}
    (hdisjoint : ranges.Pairwise LineRange.Disjoint) (hrange : range ∈ ranges)
    (hin : range.contains line) :
    taken ranges line = heldBefore ranges range.low + (range.high - line) := by
  obtain ⟨front, back, rfl⟩ := List.append_of_mem hrange
  obtain ⟨-, hrest, hacross⟩ := List.pairwise_append.mp hdisjoint
  have hothers : ∀ r ∈ front ++ back, r.taken line = r.sizeBefore range.low := by
    intro r hr
    rcases List.mem_append.mp hr with hfront | hback
    · exact (hacross r hfront range List.mem_cons_self).taken_eq hin
    · exact ((List.pairwise_cons.mp hrest).1 r hback).symm.taken_eq hin
  have hown : range.taken line = range.high - line := if_pos hin
  have hfront := List.map_congr_left fun r hr => hothers r (List.mem_append_left back hr)
  have hback := List.map_congr_left fun r hr => hothers r (List.mem_append_right front hr)
  unfold taken heldBefore
  simp only [List.map_append, List.map_cons, List.sum_append, List.sum_cons, hfront, hback, hown,
    range.sizeBefore_low]
  omega

/-! ## Room for a line -/

/-- The ranges leave the line a place from one on. One that holds it has fewer lines
behind it than there are lines up to it that do not stand in a range before that one.
Where none holds it, fewer lines of the ranges stand before it. -/
def HasRoom (ranges : List LineRange) (line : Int) : Prop :=
  (∀ range ∈ ranges, range.contains line →
    heldBefore ranges range.low + (range.high - line) < line) ∧
  ((∀ range ∈ ranges, ¬ range.contains line) → heldBefore ranges line < line)

instance (ranges : List LineRange) (line : Int) : Decidable (HasRoom ranges line) :=
  inferInstanceAs (Decidable (_ ∧ _))

/-- The ranges take less than the line exactly when they leave room for it. -/
theorem taken_lt_iff {ranges : List LineRange} (hdisjoint : ranges.Pairwise LineRange.Disjoint)
    (line : Int) : taken ranges line < line ↔ HasRoom ranges line := by
  constructor
  · intro hlt
    refine ⟨fun range hrange hin => ?_, fun hout => ?_⟩
    · rwa [← taken_of_contains hdisjoint hrange hin]
    · rwa [← taken_of_out hout]
  · rintro ⟨hheld, hfree⟩
    by_cases hsome : ∃ range ∈ ranges, range.contains line
    · obtain ⟨range, hrange, hin⟩ := hsome
      rw [taken_of_contains hdisjoint hrange hin]
      exact hheld range hrange hin
    · have hout : ∀ range ∈ ranges, ¬ range.contains line := fun range hrange hin =>
        hsome ⟨range, hrange, hin⟩
      rw [taken_of_out hout]
      exact hfree hout

/-! ## Ranges without lines -/

theorem shift_inRange (ranges : List LineRange) (line : Int) : InRange (shift ranges line) := by
  induction ranges using List.reverseRecOn with
  | nil => exact (by decide : InRange 0)
  | append_singleton ranges range _ =>
    rw [shift_append]
    exact Saturating.add_inRange _ _

/-- A range without lines adds nothing to the sum. -/
theorem shareOf_nonpos {range : LineRange} (hempty : range.isEmpty) (line : Int) :
    shareOf line range ≤ 0 := by
  have hbounds := LineRange.isEmpty_iff.mp hempty
  have hout : ¬ range.contains line := by
    rw [LineRange.contains_iff]
    omega
  unfold shareOf
  rw [if_neg hout]
  split
  · simpa [LineRange.isEmpty] using hempty
  · exact Int.le_refl _

/-- The ranges that have lines. -/
def withLines (ranges : List LineRange) : List LineRange := ranges.filter (!·.isEmpty)

theorem shift_le_withLines (ranges : List LineRange) (line : Int) :
    shift ranges line ≤ shift (withLines ranges) line := by
  unfold withLines
  induction ranges using List.reverseRecOn with
  | nil => exact Int.le_refl _
  | append_singleton ranges range ih =>
    rw [List.filter_append, shift_append]
    cases hempty : range.isEmpty with
    | true =>
      have hshare := shareOf_nonpos hempty line
      have hrange := shift_inRange ranges line
      rw [List.filter_cons_of_neg (by simp [hempty]), List.filter_nil, List.append_nil]
      simp only [Saturating.add, clamp, InRange, least, greatest] at *
      omega
    | false =>
      rw [List.filter_cons_of_pos (by simp [hempty]), List.filter_nil, shift_append]
      simp only [Saturating.add, clamp, least, greatest]
      omega

theorem mem_withLines {ranges : List LineRange} {r : LineRange} :
    r ∈ withLines ranges ↔ r ∈ ranges ∧ r.low ≤ r.high := by
  unfold withLines
  rw [List.mem_filter, Bool.not_eq_true', Bool.eq_false_iff, ne_eq, LineRange.isEmpty_iff,
    Int.not_lt]

theorem heldBefore_withLines (ranges : List LineRange) (line : Int) :
    heldBefore (withLines ranges) line = heldBefore ranges line := by
  unfold heldBefore withLines
  induction ranges with
  | nil => rfl
  | cons range rest ih =>
    rw [List.map_cons, List.sum_cons, ← ih]
    cases hempty : range.isEmpty with
    | false => simp [hempty]
    | true =>
      have hbounds := LineRange.isEmpty_iff.mp hempty
      have hnone : range.sizeBefore line = 0 := by
        unfold LineRange.sizeBefore
        omega
      simp [hempty, hnone]

theorem HasRoom.withLines {ranges : List LineRange} {line : Int} (h : HasRoom ranges line) :
    HasRoom (withLines ranges) line := by
  obtain ⟨hheld, hfree⟩ := h
  refine ⟨fun range hrange hin => ?_, fun hout => ?_⟩
  · rw [heldBefore_withLines]
    exact hheld range (mem_withLines.mp hrange).1 hin
  · rw [heldBefore_withLines]
    refine hfree fun range hrange hin => ?_
    obtain ⟨hlow, hhigh⟩ := LineRange.contains_iff.mp hin
    exact hout range (mem_withLines.mpr ⟨hrange, Int.le_trans hlow hhigh⟩) hin

/-! ## Ranges from one on -/

/-- Ranges apart that begin at one or later have as many lines before a line as there
are lines before it that stand in one of them. -/
theorem heldBefore_eq_linesBefore {ranges : List LineRange} (hproper : ∀ r ∈ ranges, r.Proper)
    (hapart : ranges.Pairwise LineRange.Apart) (line : Int) :
    heldBefore ranges line = linesBefore ranges line := by
  induction ranges using List.reverseRecOn with
  | nil => rw [linesBefore_nil]; rfl
  | append_singleton ranges last ih =>
    obtain ⟨hbefore, -, hlast⟩ := List.pairwise_append.mp hapart
    have hproperLast : last.Proper := hproper last (List.mem_append_right _ List.mem_cons_self)
    have hsum : heldBefore (ranges ++ [last]) line =
        heldBefore ranges line + last.sizeBefore line := by
      simp [heldBefore]
    have hown : last.sizeBefore line = linesBefore [last] line := by
      rw [linesBefore_singleton hproperLast.1]
      unfold LineRange.sizeBefore
      omega
    rw [hsum, ih (fun r hr => hproper r (List.mem_append_left _ hr)) hbefore, hown,
      linesBefore_append fun r hr => hlast r hr last List.mem_cons_self]
    omega

/-- Outside of such ranges every line has room. -/
theorem hasRoom_of_out {ranges : List LineRange} {line : Int}
    (hlow : ∀ range ∈ ranges, 1 ≤ range.low) (hdisjoint : ranges.Pairwise LineRange.Disjoint)
    (hone : 1 ≤ line) (hout : ∀ range ∈ ranges, ¬ range.contains line) : HasRoom ranges line := by
  refine ⟨fun range hrange hin => absurd hin (hout range hrange), fun _ => ?_⟩
  have hproper : ∀ r ∈ withLines ranges, r.Proper := fun r hr =>
    ⟨hlow r (mem_withLines.mp hr).1, (mem_withLines.mp hr).2⟩
  have hapart : (withLines ranges).Pairwise LineRange.Apart :=
    (hdisjoint.filter _).imp_of_mem fun ha hb hab =>
      hab.apart (hproper _ ha).2 (hproper _ hb).2
  have hle := linesBefore_le (withLines ranges) line
  rw [← heldBefore_withLines, heldBefore_eq_linesBefore hproper hapart]
  omega

/-! ## The corrected line -/

/-- A correction leads below one exactly when it takes as much as the line. -/
theorem one_le_correctedLine_iff {ranges : List LineRange} {line : Int} (hone : 1 ≤ line)
    (hline : line ≤ greatest) : 1 ≤ correctedLine ranges line ↔ shift ranges line < line := by
  have hrange := shift_inRange ranges line
  unfold correctedLine Saturating.sub
  simp only [clamp, InRange, least, greatest] at *
  split <;> omega

/-- Where every range has lines, the sum of the shares stays below a line exactly when
the line has room. -/
theorem shift_lt_iff {ranges : List LineRange} {line : Int}
    (hfull : ∀ r ∈ ranges, r.low ≤ r.high) (hdisjoint : ranges.Pairwise LineRange.Disjoint)
    (hline : line ≤ greatest) : shift ranges line < line ↔ HasRoom ranges line := by
  rw [shift_eq_min hfull, ← taken_lt_iff hdisjoint]
  omega

theorem one_le_correctedLine {ranges : List LineRange} {line : Int}
    (hdisjoint : ranges.Pairwise LineRange.Disjoint) (hone : 1 ≤ line) (hline : line ≤ greatest)
    (hroom : HasRoom ranges line) : 1 ≤ correctedLine ranges line := by
  rw [one_le_correctedLine_iff hone hline]
  have hfull : ∀ r ∈ withLines ranges, r.low ≤ r.high := fun r hr => (mem_withLines.mp hr).2
  exact Int.lt_of_le_of_lt (shift_le_withLines ranges line)
    ((shift_lt_iff hfull (hdisjoint.filter _) hline).mpr hroom.withLines)

/-- Where every range has lines, nothing else leads to a line from one on. -/
theorem hasRoom_of_one_le {ranges : List LineRange} {line : Int}
    (hfull : ∀ range ∈ ranges, range.low ≤ range.high)
    (hdisjoint : ranges.Pairwise LineRange.Disjoint) (hone : 1 ≤ line) (hline : line ≤ greatest)
    (hle : 1 ≤ correctedLine ranges line) : HasRoom ranges line :=
  (shift_lt_iff hfull hdisjoint hline).mp ((one_le_correctedLine_iff hone hline).mp hle)

/-! ## The ranges that the files get -/

namespace Correction

/-- The files as they stand at the end of the records. -/
def filesAfter (records : List Record) : List TrackedFile :=
  (records.foldl (apply records) start).files.values

theorem rangesOf_modify_withRange (s : Correction) (key id : FileId) (range : LineRange) :
    s.rangesOf id <+:
      ({ s with files := s.files.modify key (withRange range) } : Correction).rangesOf id := by
  unfold rangesOf
  rw [OrderedMap.get?_modify]
  split
  · rename_i hid
    subst hid
    cases s.files.get? id with
    | none => exact List.prefix_rfl
    | some file => exact List.prefix_append _ _
  · exact List.prefix_rfl

theorem rangesOf_addError (s : Correction) (r : Record.Error) (id : FileId) :
    (s.addError r).rangesOf id = s.rangesOf id := by
  rw [addError_eq]
  split
  · rfl
  · split
    · rfl
    · unfold rangesOf
      rw [map_get?_modify]
      exact fun file => rfl

/-- The ranges of a file only get more. -/
theorem rangesOf_apply (records : List Record) (s : Correction) (record : Record) (id : FileId) :
    s.rangesOf id <+: (s.apply records record).rangesOf id := by
  have hsame : ∀ t : Correction, t.files = s.files → s.rangesOf id <+: t.rangesOf id := by
    intro t hfiles
    unfold rangesOf
    exact hfiles ▸ List.prefix_rfl
  have hmore : ∀ (t : Correction) (key : FileId) (range : LineRange),
      t.files = s.files.modify key (withRange range) → s.rangesOf id <+: t.rangesOf id := by
    intro t key range hfiles
    have hprefix := rangesOf_modify_withRange s key id range
    unfold rangesOf at hprefix ⊢
    exact hfiles ▸ hprefix
  cases record with
  | fileStart r =>
    unfold apply openFile rangesOf
    simp only
    split
    · exact List.prefix_rfl
    · rename_i hnew
      rw [OrderedMap.insertNew, OrderedMap.get?_alter]
      split
      · rename_i hid
        have hnone : s.files.get? id = none := by simpa [OrderedMap.contains, hid] using hnew
        rw [hnone]
        exact List.nil_prefix
      · exact List.prefix_rfl
  | fileEnd r =>
    rcases files_closeFile s r with h | ⟨-, key, range, h⟩
    · exact hsame _ h
    · exact hmore _ _ _ h
  | expansion r =>
    rcases files_addExpansion s r with h | ⟨low, high, -, -, h⟩
    · exact hsame _ h
    · exact hmore _ _ _ h
  | error r =>
    have hranges : (s.apply records (.error r)).rangesOf id = s.rangesOf id :=
      rangesOf_addError s r id
    exact hranges ▸ List.prefix_rfl
  | processor | namePart | ignored | unrecognized => exact List.prefix_rfl

theorem rangesOf_foldl (records rest : List Record) (s : Correction) (id : FileId) :
    s.rangesOf id <+: (rest.foldl (apply records) s).rangesOf id := by
  induction rest generalizing s with
  | nil => exact List.prefix_rfl
  | cons record rest ih => exact (rangesOf_apply records s record id).trans (ih _)

/-- Where the ranges of each file are disjoint at the end, they are so when an error is
accepted. -/
theorem disjoint_of_mem_accepted {records : List Record}
    (h : ∀ file ∈ filesAfter records, file.ranges.Pairwise LineRange.Disjoint) {a : Accepted}
    (ha : a ∈ accepted records) : a.ranges.Pairwise LineRange.Disjoint := by
  obtain ⟨xs, record, ys, hrecords, hat⟩ := Record.mem_gather ha
  have hranges := ranges_of_accepted? hat
  rw [List.nil_append] at hranges
  have hmore := rangesOf_foldl records (record :: ys) (xs.foldl (apply records) start)
    a.record.fileId
  rw [← hranges, ← List.foldl_append, ← hrecords] at hmore
  refine List.Pairwise.sublist hmore.sublist ?_
  unfold rangesOf
  cases hfile : (records.foldl (apply records) start).files.get? a.record.fileId with
  | none => exact List.Pairwise.nil
  | some file =>
    refine h file ?_
    rw [filesAfter, OrderedMap.values_eq, List.mem_filterMap]
    refine ⟨a.record.fileId, ?_, hfile⟩
    rw [OrderedMap.mem_keys_iff, hfile]
    rfl

end Correction

end Resolution

/-! ## The law -/

open Resolution Correction

/-- When errors are reported at lines from one on, the way by the forest lists only
lines from one on, whatever else the listing says. Where the ranges of each file are
disjoint, the pass by ranges lists such a line for every error that has room among the
ranges of its file, and where none of these is without lines, for no other error. An
error that they do not hold has room when they begin at one or later. -/
theorem lines_count_from_one (listing : Listing)
    (herrors : ∀ r, .error r ∈ listing.records → ∀ line, r.line = some line → 1 ≤ line) :
    let records := listing.records
    (∀ path, ∀ d ∈ (byTree records).listed path, 1 ≤ d.line) ∧
      ((∀ file ∈ filesAfter records, file.ranges.Pairwise LineRange.Disjoint) →
        ∀ path, ∀ d ∈ (byRanges records).listed path, ∃ a ∈ accepted records,
          d = a.diagnostic ∧ a.record.line = some a.line ∧
            (HasRoom a.ranges a.line → 1 ≤ d.line) ∧
            ((∀ range ∈ a.ranges, range.low ≤ range.high) → 1 ≤ d.line →
              HasRoom a.ranges a.line) ∧
            ((∀ range ∈ a.ranges, 1 ≤ range.low) →
              (∀ range ∈ a.ranges, ¬ range.contains a.line) → 1 ≤ d.line)) := by
  intro records
  refine ⟨?_, ?_⟩
  · intro path d hd
    obtain ⟨r, hr, -, hat⟩ := (Mapping.sound_ofForest listing).placed path d hd
    rcases hat with ⟨file, -, line, howns, hline⟩ | ⟨-, hline⟩
    · unfold FileNode.owns at howns
      simp only [decide_eq_true_eq] at howns
      omega
    · exact herrors r hr _ hline
  · intro hranges path d hd
    rw [listed_byRanges, (byLine_perm _).mem_iff, (acceptedUnder_perm records path).mem_iff] at hd
    obtain ⟨a, ha, rfl⟩ := List.mem_map.mp hd
    have hmem := List.mem_of_mem_filter ha
    obtain ⟨hrecord, hline, -⟩ := of_mem_accepted hmem
    have hone : 1 ≤ a.line := herrors a.record hrecord a.line hline
    have hle : a.line ≤ greatest := by
      have := Record.natAbs_line_lt hrecord hline
      unfold greatest
      omega
    have hdisjoint := disjoint_of_mem_accepted hranges hmem
    have hroom : HasRoom a.ranges a.line → 1 ≤ a.diagnostic.line :=
      one_le_correctedLine hdisjoint hone hle
    refine ⟨a, hmem, rfl, hline, hroom, ?_, ?_⟩
    · intro hfull
      exact hasRoom_of_one_le hfull hdisjoint hone hle
    · intro hlow hout
      exact hroom (hasRoom_of_out hlow hdisjoint hone hout)

/-- Two ranges that the precompiler filled, and errors before, in, between and
behind them. -/
def roomy : Listing := Listing.ofLines [
  "PROCESSOR  0 000 1",
  "FILEID     0 001 000000 013 LIB/SRC(ROOT) 20230101120000 0",
  "EXPANSION  0 001 000000 000000 001 000003 000004",
  "EXPANSION  0 001 000000 000000 001 000008 000009",
  "ERROR      0 001 1 000002 000002 001 000002 010 RNF1234 S 30 006 before",
  "ERROR      0 001 1 000004 000004 001 000004 010 RNF1234 S 30 006 inside",
  "ERROR      0 001 1 000006 000006 001 000006 010 RNF1234 S 30 007 between",
  "ERROR      0 001 1 000010 000010 001 000010 010 RNF1234 S 30 006 behind",
  "FILEEND    0 001 000010"]

theorem roomy_counts_from_one :
    (∀ r, .error r ∈ roomy.records → ∀ line, r.line = some line → 1 ≤ line) ∧
      (∀ file ∈ filesAfter roomy.records, file.ranges.Pairwise LineRange.Disjoint) ∧
      (∀ path, ∀ d ∈ (byTree roomy.records).listed path, 1 ≤ d.line) ∧
      (∀ path, ∀ d ∈ (byRanges roomy.records).listed path, 1 ≤ d.line) ∧
      (accepted roomy.records).map (·.diagnostic.line) = [2, 4, 4, 6] := by
  have hall : (∀ r ∈ Record.errors roomy.records, r.line.all (1 ≤ ·)) ∧
      (∀ file ∈ filesAfter roomy.records, file.ranges.Pairwise LineRange.Disjoint) ∧
      (∀ a ∈ accepted roomy.records, HasRoom a.ranges a.line) ∧
      (accepted roomy.records).map (·.diagnostic.line) = [2, 4, 4, 6] := by
    decide +kernel
  obtain ⟨hlines, hranges, hroom, hcorrected⟩ := hall
  have herrors : ∀ r, .error r ∈ roomy.records → ∀ line, r.line = some line → 1 ≤ line := by
    intro r hr line hline
    have hone := hlines r (Record.mem_errors.mpr hr)
    rw [hline] at hone
    simpa using hone
  obtain ⟨htree, hrange⟩ := lines_count_from_one roomy herrors
  refine ⟨herrors, hranges, htree, ?_, hcorrected⟩
  intro path d hd
  obtain ⟨a, ha, -, -, hone, -⟩ := hrange hranges path d hd
  exact hone (hroom a ha)

/-- The line of an error, the line at which an included member begins and the
bounds of a range that the precompiler filled count from one, and the range does
not go backwards. -/
def Record.countsFromOne : Record → Bool
  | .error r => r.line.all (1 ≤ ·)
  | .fileStart r => !r.isInclude || r.line.all (1 ≤ ·)
  | .expansion r =>
    r.rangeStart.all (1 ≤ ·) && r.rangeEnd.all (1 ≤ ·) &&
      r.rangeStart.all fun low => r.rangeEnd.all (low ≤ ·)
  | _ => true

/-- The fifth line lies inside a range that has more lines behind it than there
are lines before it. -/
def deepInside : Listing := Listing.ofLines [
  "FILEID     0 001 000000 013 LIB/SRC(ROOT) 20230101120000 0",
  "EXPANSION  0 001 000000 000000 001 000003 000020",
  "ERROR      0 001 1 000005 000005 001 000005 010 RNF1234 S 30 004 deep",
  "FILEEND    0 001 000030"]

/-- A second root inside of a copied member. The end of the member takes the
range that waits for the root, and that one begins at zero. -/
def rootInsideCopy : Listing := Listing.ofLines [
  "PROCESSOR  0 000 1",
  "FILEID     0 999 000000 010 /tmp/out.c 20230101120000 0",
  "FILEID     0 001 000000 013 LIB/SRC(ROOT) 20230101120000 0",
  "FILEID     0 002 000003 012 LIB/CPY(CPA) 20230101120000 0",
  "FILEID     0 003 000000 000 LIB/SRC(TWO) 20230101120000 0",
  "FILEEND    0 003 000001",
  "FILEEND    0 002 000004",
  "ERROR      0 001 1 000004 000004 001 000004 010 RNF1234 S 30 004 root",
  "FILEEND    0 001 000020",
  "FILEEND    0 999 000030"]

/-- Lines and bounds from one on and ranges that lie apart are not enough: an
error with too many lines of its range behind it, and one behind a range that
begins at zero, end up before the first line. -/
theorem separate_ranges_lead_below_one :
    ((∀ record ∈ deepInside.records, record.countsFromOne) ∧
        (∀ file ∈ filesAfter deepInside.records, file.ranges.Pairwise LineRange.Disjoint) ∧
        ((byRanges deepInside.records).listed "LIB/SRC/ROOT").map (·.line) = [-10]) ∧
      (∀ record ∈ rootInsideCopy.records, record.countsFromOne) ∧
        (∀ file ∈ filesAfter rootInsideCopy.records, file.ranges.Pairwise LineRange.Disjoint) ∧
        ((byRanges rootInsideCopy.records).listed "LIB/SRC/ROOT").map (·.line) = [0] := by
  decide +kernel

end EventListing
