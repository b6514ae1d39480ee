-- The rank of an error. Where the ranges of a file have no lines in common, an error
-- outside of them ends up at the line that counts the lines up to it outside of them:
-- at its own line in the file as it was before anything was put in.
import EventListing.Proofs.Resolution.FromOne

namespace EventListing

open Saturating (InRange least greatest)

namespace Resolution

/-! ## The lines outside of ranges -/

/-- No range holds the line. -/
def IsOutside (ranges : List LineRange) (line : Int) : Prop :=
  ∀ range ∈ ranges, ¬ range.contains line

instance (ranges : List LineRange) (line : Int) : Decidable (IsOutside ranges line) :=
  inferInstanceAs (Decidable (∀ range ∈ ranges, _))

/-- How many of the lines from one to `line` lie in none of the ranges. -/
def linesOutside (ranges : List LineRange) (line : Int) : Nat :=
  (List.range line.toNat).countP fun i : Nat => !ranges.any (·.contains ((i : Int) + 1))

theorem isOutside_iff {ranges : List LineRange} {line : Int} :
    IsOutside ranges line ↔ ranges.any (·.contains line) = false := by
  unfold IsOutside
  rw [List.any_eq_false]

section Outside

variable {ranges : List LineRange} {line : Int}

/-- A line outside of the ranges counts itself. -/
theorem linesOutside_of_isOutside (hone : 1 ≤ line) (hout : IsOutside ranges line) :
    linesOutside ranges line = linesOutside ranges (line - 1) + 1 := by
  have hlast : line.toNat = (line - 1).toNat + 1 := by omega
  have hself : ((line - 1).toNat : Int) + 1 = line := by omega
  unfold linesOutside
  rw [hlast, List.range_succ, List.countP_append, List.countP_singleton, hself,
    isOutside_iff.mp hout]
  rfl

/-- Each line is counted inside of the ranges or outside. -/
theorem linesBefore_add_linesOutside (hone : 1 ≤ line) (hout : IsOutside ranges line) :
    (linesBefore ranges line : Int) + linesOutside ranges line = line := by
  have hall := List.length_eq_countP_add_countP
    (fun i : Nat => ranges.any (·.contains ((i : Int) + 1))) (l := List.range (line - 1).toNat)
  have hrest : linesOutside ranges (line - 1) = (List.range (line - 1).toNat).countP
      fun i : Nat => decide ¬ (ranges.any (·.contains ((i : Int) + 1)) = true) := by
    unfold linesOutside
    simp only [Bool.not_eq_true, Bool.decide_eq_false]
  rw [List.length_range, ← hrest] at hall
  rw [linesOutside_of_isOutside hone hout]
  unfold linesBefore
  omega

/-- More lines up to a later line are outside, if that one is. -/
theorem linesOutside_lt {other : Int} (hone : 1 ≤ line) (hlt : line < other)
    (hout : IsOutside ranges other) : linesOutside ranges line < linesOutside ranges other := by
  have hle : linesOutside ranges line ≤ linesOutside ranges (other - 1) :=
    (List.range_sublist.mpr (by omega)).countP_le
  rw [linesOutside_of_isOutside (by omega) hout]
  omega

/-- The order of the ranges does not matter. -/
theorem linesOutside_perm {ranges' : List LineRange} (h : ranges'.Perm ranges) (line : Int) :
    linesOutside ranges' line = linesOutside ranges line := by
  unfold linesOutside
  congr 1
  funext i
  rw [h.any_eq]

end Outside

/-! ## The corrected line -/

/-- A line outside of ranges that lie apart is corrected to its rank among such
lines. -/
theorem correctedLine_eq_linesOutside {ranges : List LineRange} {line : Int}
    (hproper : ∀ range ∈ ranges, range.Proper) (hapart : ranges.Pairwise LineRange.Apart)
    (hone : 1 ≤ line) (hline : line ≤ greatest) (hout : IsOutside ranges line) :
    correctedLine ranges line = linesOutside ranges line := by
  have hrange : InRange line := ⟨by unfold least; omega, hline⟩
  have hsum := linesBefore_add_linesOutside hone hout
  rw [correctedLine_eq hproper hapart hout hrange]
  omega

end Resolution

/-! ## The law -/

open Resolution Correction

/-- Take an accepted error at a line from one on, and let the ranges that its file has by
then have lines from one on, no line in two of them, and that of the error in none. The
pass by ranges lists the error under the path of its file, at the line that counts the
lines up to it outside of the ranges. That is one or more, whatever the order in which
the ranges came, and among the lines outside of them a later one goes to a later one. -/
theorem corrected_line_is_a_rank (listing : Listing) (e : Accepted)
    (he : e ∈ accepted listing.records) (hone : 1 ≤ e.line)
    (hproper : ∀ range ∈ e.ranges, 1 ≤ range.low ∧ range.low ≤ range.high)
    (hdisjoint : e.ranges.Pairwise LineRange.Disjoint) (hout : IsOutside e.ranges e.line) :
    (∃ path, pathUnder? listing.records e.record.fileId = some path ∧
        e.diagnostic ∈ (byRanges listing.records).listed path) ∧
      e.diagnostic.line = linesOutside e.ranges e.line ∧
      1 ≤ e.diagnostic.line ∧
      (∀ ranges, ranges.Perm e.ranges → correctedLine ranges e.line = e.diagnostic.line) ∧
      ∀ line other, 1 ≤ line → line < other → other ≤ greatest →
        IsOutside e.ranges line → IsOutside e.ranges other →
          correctedLine e.ranges line < correctedLine e.ranges other := by
  have hapart : e.ranges.Pairwise LineRange.Apart :=
    hdisjoint.imp_of_mem fun ha hb hab => hab.apart (hproper _ ha).2 (hproper _ hb).2
  obtain ⟨hrecord, hline, hpath⟩ := of_mem_accepted he
  have hle : e.line ≤ greatest := by
    have := Record.natAbs_line_lt hrecord hline
    unfold greatest
    omega
  have hrank : e.diagnostic.line = linesOutside e.ranges e.line :=
    correctedLine_eq_linesOutside hproper hapart hone hle hout
  refine ⟨?_, hrank, ?_, ?_, ?_⟩
  · obtain ⟨path, hat⟩ := Option.isSome_iff_exists.mp hpath
    exact ⟨path, hat, mem_listed_byRanges.mpr ⟨e, he, hat, rfl⟩⟩
  · rw [hrank, linesOutside_of_isOutside hone hout]
    omega
  · intro ranges hperm
    have hmem : ∀ range ∈ ranges, range ∈ e.ranges := fun _ hrange => hperm.mem_iff.mp hrange
    have hapart' : ranges.Pairwise LineRange.Apart :=
      (hperm.pairwise_iff fun hab => Or.symm hab).mpr hapart
    rw [correctedLine_eq_linesOutside (fun range hrange => hproper range (hmem range hrange))
      hapart' hone hle fun range hrange => hout range (hmem range hrange),
      linesOutside_perm hperm, hrank]
  · intro line other hfrom hlt hto houtLine houtOther
    rw [correctedLine_eq_linesOutside hproper hapart hfrom (by omega) houtLine,
      correctedLine_eq_linesOutside hproper hapart (by omega) hto houtOther]
    exact Int.ofNat_lt.mpr (linesOutside_lt hfrom hlt houtOther)

/-- Two ranges that the precompiler filled, the later one first, the extent of a copied
member behind them, and an error between the member and the end. -/
def threeRanges : Listing := Listing.ofLines [
  "FILEID     0 999 000000 010 /tmp/out.c 20230101120000 0",
  "FILEID     0 001 000000 013 LIB/SRC(ROOT) 20230101120000 0",
  "EXPANSION  0 001 000000 000000 001 000008 000009",
  "EXPANSION  0 001 000000 000000 001 000002 000004",
  "FILEID     0 002 000012 012 LIB/CPY(CPA) 20230101120000 0",
  "FILEEND    0 002 000003",
  "ERROR      0 001 1 000016 000016 001 000016 010 RNF7030 S 30 006 behind"]

theorem error_behind_three_ranges :
    ∃ e ∈ accepted threeRanges.records, e.line = 16 ∧ e.ranges.length = 3 ∧
      (∀ range ∈ e.ranges, 1 ≤ range.low ∧ range.low ≤ range.high) ∧
      e.ranges.Pairwise LineRange.Disjoint ∧ IsOutside e.ranges e.line ∧
      e.diagnostic.line = 8 ∧ correctedLine e.ranges.reverse e.line = 8 ∧
      correctedLine e.ranges 10 < correctedLine e.ranges 15 := by
  have hall : ∃ e ∈ accepted threeRanges.records, e.line = 16 ∧ e.ranges.length = 3 ∧
      (∀ range ∈ e.ranges, 1 ≤ range.low ∧ range.low ≤ range.high) ∧
      e.ranges.Pairwise LineRange.Disjoint ∧ IsOutside e.ranges e.line ∧
      linesOutside e.ranges e.line = 8 ∧ IsOutside e.ranges 10 ∧ IsOutside e.ranges 15 := by
    decide +kernel
  obtain ⟨e, he, hline, hlength, hproper, hdisjoint, hout, height, hten, hfifteen⟩ := hall
  obtain ⟨-, hrank, -, horder, hlater⟩ :=
    corrected_line_is_a_rank threeRanges e he (by omega) hproper hdisjoint hout
  rw [height] at hrank
  refine ⟨e, he, hline, hlength, hproper, hdisjoint, hout, hrank, ?_, ?_⟩
  · rw [horder _ e.ranges.reverse_perm, hrank]
    rfl
  · exact hlater 10 15 (by decide) (by decide) (by decide) hten hfifteen

end EventListing
