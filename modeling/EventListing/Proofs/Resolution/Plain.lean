-- Plain listings. Where the precompiler made no edits and its unit is not
-- opened, no file ever gets a range, so the pass by ranges leaves each error at
-- the line that its record reports. How the files nest does not matter.
import EventListing.Proofs.Record.Steps
import EventListing.Proofs.Resolution.Accepted
import EventListing.Proofs.Resolution.Agreement

namespace EventListing

namespace Resolution.Correction

/-! ## No file gets a range -/

/-- A record that edits nothing and does not open the precompiler's unit gives
no file a range. -/
theorem Unranged.apply {s : Correction} (h : s.Unranged) (records : List Record) {record : Record}
    (hedit : ∀ r, record ≠ .expansion r)
    (hunit : ∀ r, record = .fileStart r → r.fileId ≠ FileId.baseUnit) :
    (s.apply records record).Unranged := by
  cases record with
  | fileStart r => exact h.openFile records (hunit r rfl)
  | fileEnd r => exact h.closeFile r
  | error r => exact h.addError r
  | expansion r => exact absurd rfl (hedit r)
  | processor | namePart | ignored | unrecognized => exact h

theorem Unranged.foldl {s : Correction} (h : s.Unranged) (records : List Record)
    {before : List Record} (hedit : ∀ r, .expansion r ∉ before)
    (hunit : ∀ r, .fileStart r ∈ before → r.fileId ≠ FileId.baseUnit) :
    (before.foldl (Correction.apply records) s).Unranged := by
  induction before generalizing s with
  | nil => exact h
  | cons record before ih =>
    have hnext : (s.apply records record).Unranged := by
      refine h.apply records ?_ ?_
      · rintro r rfl
        exact hedit r List.mem_cons_self
      · rintro r rfl
        exact hunit r List.mem_cons_self
    exact ih hnext (fun r hr => hedit r (List.mem_cons_of_mem _ hr))
      (fun r hr => hunit r (List.mem_cons_of_mem _ hr))

theorem Unranged.rangesOf_eq {s : Correction} (h : s.Unranged) (id : FileId) :
    s.rangesOf id = [] := by
  unfold rangesOf
  cases hfile : s.files.get? id with
  | none => rfl
  | some file => exact h.ranges id file hfile

/-- An error that no range moves stays at its line. -/
theorem diagnostic_of_plain {records : List Record} (hedit : ∀ r, .expansion r ∉ records)
    (hunit : ∀ r, .fileStart r ∈ records → r.fileId ≠ FileId.baseUnit) {a : Accepted}
    (ha : a ∈ accepted records) : a.diagnostic = diagnosticAt a.record a.line := by
  obtain ⟨xs, record, ys, hrecords, hat⟩ := Record.mem_gather ha
  have hbefore : xs ⊆ records := by
    rw [hrecords]
    exact List.subset_append_left _ _
  have hstate : (xs.foldl (apply records) start).Unranged :=
    unranged_start.foldl records (fun r hr => hedit r (hbefore hr))
      (fun r hr => hunit r (hbefore hr))
  have hranges := ranges_of_accepted? hat
  rw [List.nil_append, hstate.rangesOf_eq] at hranges
  rw [Accepted.diagnostic, hranges, correctedLine_nil]

end Resolution.Correction

/-! ## The law -/

open Resolution Correction

/-- Without edits and without the precompiler's unit, the pass by ranges lists
under each path the accepted errors of its files, each at the line that its
own record reports, whatever else the listing says. -/
theorem plain_listings_keep_their_lines (listing : Listing)
    (hedit : ∀ r, .expansion r ∉ listing.records)
    (hunit : ∀ r, .fileStart r ∈ listing.records → r.fileId ≠ FileId.baseUnit) :
    let records := listing.records
    (∀ path, ((byRanges records).listed path).Perm
        (((accepted records).filter fun a =>
          pathUnder? records a.record.fileId = some path).map fun a =>
            diagnosticAt a.record a.line)) ∧
      ∀ a ∈ accepted records, .error a.record ∈ records ∧ a.record.line = some a.line := by
  intro records
  refine ⟨?_, ?_⟩
  · intro path
    rw [listed_byRanges]
    refine (byLine_perm _).trans ((acceptedUnder_perm records path).trans (List.Perm.of_eq ?_))
    refine List.map_congr_left ?_
    intro a ha
    exact diagnostic_of_plain hedit hunit (List.mem_of_mem_filter ha)
  · intro a ha
    obtain ⟨hmem, hline, -⟩ := of_mem_accepted ha
    exact ⟨hmem, hline⟩

/-- Files that do not nest: the stream file is opened twice and closed three
times, the root has no file end, and one bound does not read. -/
def unbalanced : Listing := Listing.ofLines [
  "FILEID     0 001 000000 013 LIB/SRC(ROOT) 20230101120000 0",
  "FILEID     0 002 000003 012 /src/./a.cpy 20230101120000 0",
  "FILEID     0 003 00000x 012 LIB/CPY(CPA) 20230101120000 0",
  "FILEID     0 002 000001 012 /src/./a.cpy 20230101120000 0",
  "ERROR      0 003 1 000009 000009 001 000009 010 RNF1234 S 30 004 copy",
  "FILEEND    0 002 000004",
  "FILEEND    0 002 0x0004",
  "ERROR      0 001 1 000008 000008 001 000008 010 RNF7030 S 30 004 late",
  "FILEEND    0 002 000002",
  "FILEEND    0 003 000005",
  "ERROR      0 001 1 000007 000007 001 000007 010 RNF7030 S 30 005 early"]

theorem unbalanced_keeps_its_lines :
    (∀ r, .expansion r ∉ unbalanced.records) ∧
      (∀ r, .fileStart r ∈ unbalanced.records → r.fileId ≠ FileId.baseUnit) ∧
      ((byRanges unbalanced.records).listed "LIB/SRC/ROOT").Perm
        (((accepted unbalanced.records).filter fun a =>
          pathUnder? unbalanced.records a.record.fileId = some "LIB/SRC/ROOT").map fun a =>
            diagnosticAt a.record a.line) ∧
      (accepted unbalanced.records).map (·.line) = [9, 8, 7] := by
  have hall : (∀ record ∈ unbalanced.records, record.isExpansion = false) ∧
      FileId.baseUnit ∉ Record.openings unbalanced.records ∧
      (accepted unbalanced.records).map (·.line) = [9, 8, 7] := by
    decide +kernel
  obtain ⟨hedits, hopened, hlines⟩ := hall
  have hedit : ∀ r, .expansion r ∉ unbalanced.records := by
    intro r hr
    cases hedits _ hr
  have hunit : ∀ r, .fileStart r ∈ unbalanced.records → r.fileId ≠ FileId.baseUnit := by
    intro r hr hid
    exact hopened (List.mem_filterMap.mpr ⟨_, hr, congrArg some hid⟩)
  exact ⟨hedit, hunit, (plain_listings_keep_their_lines unbalanced hedit hunit).1 _, hlines⟩

end EventListing
