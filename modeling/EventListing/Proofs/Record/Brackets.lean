-- File starts and file ends as brackets. In an orderly compile step each file
-- is opened once, a file end closes the innermost file that is open, and at the
-- end of the step every file is closed.
import Mathlib.Data.List.Induction
import Mathlib.Data.List.Nodup
import EventListing.Proofs.Record.Gather
import EventListing.Proofs.Record.Opened
import EventListing.Proofs.Record.Steps

namespace EventListing.Record

/-! ## What is open -/

def fileEnd? : Record → Option FileEnd
  | .fileEnd r => some r
  | _ => none

/-- The file ends, in the order in which they come. -/
def ends (records : List Record) : List FileEnd := records.filterMap fileEnd?

def expansion? : Record → Option Expansion
  | .expansion r => some r
  | _ => none

/-- The expansions, in the order in which they come. -/
def expansions (records : List Record) : List Expansion := records.filterMap expansion?

/-- The numbers of the files that the records close. -/
def closings (records : List Record) : List FileId := (ends records).map (·.fileId)

/-- The numbers of the files that were opened and not closed again, the
innermost one last. -/
def stillOpen (records : List Record) : List FileId :=
  (openings records).filter (· ∉ closings records)

/-- The number of the innermost file that is still open. -/
def innermost? (records : List Record) : Option FileId := (stillOpen records).getLast?

theorem mem_ends {records : List Record} {r : Record.FileEnd} :
    r ∈ ends records ↔ .fileEnd r ∈ records :=
  mem_filterMap_of_kind fun record _ => by cases record <;> simp [fileEnd?]

theorem mem_expansions {records : List Record} {r : Record.Expansion} :
    r ∈ expansions records ↔ .expansion r ∈ records :=
  mem_filterMap_of_kind fun record _ => by cases record <;> simp [expansion?]

theorem ends_append (xs ys : List Record) : ends (xs ++ ys) = ends xs ++ ends ys :=
  List.filterMap_append

theorem expansions_append (xs ys : List Record) :
    expansions (xs ++ ys) = expansions xs ++ expansions ys := List.filterMap_append

theorem closings_append (xs ys : List Record) :
    closings (xs ++ ys) = closings xs ++ closings ys := by
  unfold closings
  rw [ends_append, List.map_append]

theorem mem_stillOpen {records : List Record} {id : FileId} :
    id ∈ stillOpen records ↔ id ∈ openings records ∧ id ∉ closings records := by
  unfold stillOpen
  rw [List.mem_filter, decide_eq_true_eq]

/-- A record that neither opens nor closes a file leaves open what is open. -/
theorem stillOpen_concat_of_none {records : List Record} {record : Record}
    (hopened : record.openedId? = none) (hclosed : record.fileEnd? = none) :
    stillOpen (records ++ [record]) = stillOpen records := by
  have hopenings : openings [record] = [] := by simp [openings, hopened]
  have hclosings : closings [record] = [] := by simp [closings, ends, hclosed]
  unfold stillOpen
  rw [openings_append, closings_append, hopenings, hclosings, List.append_nil, List.append_nil]

/-! ## Records in order -/

/-- The record may come behind the ones before it in its compile step. A file
start opens a new file, a file end closes the innermost one, and an expansion
names a file that was opened. -/
def MayFollow (before : List Record) : Record → Prop
  | .fileStart r => r.fileId ∉ openings before
  | .fileEnd r => innermost? before = some r.fileId
  | .expansion r => r.fileId ∈ openings before
  | _ => True

instance (before : List Record) : (record : Record) → Decidable (MayFollow before record)
  | .fileStart _ => inferInstanceAs (Decidable (_ ∉ _))
  | .fileEnd _ => inferInstanceAs (Decidable (_ = _))
  | .expansion _ => inferInstanceAs (Decidable (_ ∈ _))
  | .processor | .namePart _ | .error _ | .ignored _ | .unrecognized =>
    inferInstanceAs (Decidable True)

/-- Each record of the compile step may come behind the ones before it. -/
def InOrder (step : List Record) : Prop := EachBehind MayFollow step

instance (step : List Record) : Decidable (InOrder step) :=
  inferInstanceAs (Decidable (EachBehind MayFollow step))

/-- The records of the compile step are in order, and at their end no file is
open. -/
structure Bracketed (step : List Record) : Prop where
  inOrder : InOrder step
  closed : stillOpen step = []

instance (step : List Record) : Decidable (Bracketed step) :=
  decidable_of_iff (InOrder step ∧ stillOpen step = [])
    ⟨fun h => ⟨h.1, h.2⟩, fun h => ⟨h.inOrder, h.closed⟩⟩

namespace InOrder

theorem left {xs ys : List Record} (h : InOrder (xs ++ ys)) : InOrder xs := EachBehind.left h

theorem mayFollow {xs ys : List Record} {record : Record} (h : InOrder (xs ++ record :: ys)) :
    MayFollow xs record := EachBehind.behind h

/-- No file number is opened twice. -/
theorem nodup_openings {records : List Record} (h : InOrder records) :
    (openings records).Nodup := by
  induction records using List.reverseRecOn with
  | nil => exact List.nodup_nil
  | append_singleton records record ih =>
    have hlast : MayFollow records record := h.mayFollow
    rw [openings_append]
    cases record with
    | fileStart r =>
      refine List.nodup_append.mpr ⟨ih h.left, List.nodup_singleton _, ?_⟩
      rintro id hid _ hnew rfl
      exact hlast (List.mem_singleton.mp hnew ▸ hid)
    | processor | namePart | fileEnd | expansion | error | ignored | unrecognized =>
      exact (List.append_nil (openings records)).symm ▸ ih h.left

/-- Only files that were opened are closed. -/
theorem closings_subset {records : List Record} (h : InOrder records) :
    closings records ⊆ openings records := by
  intro id hid
  obtain ⟨r, hr, rfl⟩ := List.mem_map.mp hid
  obtain ⟨xs, ys, rfl⟩ := List.append_of_mem (mem_ends.mp hr)
  have hinnermost : innermost? xs = some r.fileId := h.mayFollow
  rw [openings_append]
  exact List.mem_append_left _ (mem_stillOpen.mp (List.mem_of_getLast? hinnermost)).1

/-- Only files that were opened are edited. -/
theorem mem_openings_of_expansion {records : List Record} (h : InOrder records)
    {r : Record.Expansion} (hr : r ∈ expansions records) : r.fileId ∈ openings records := by
  obtain ⟨xs, ys, rfl⟩ := List.append_of_mem (mem_expansions.mp hr)
  rw [openings_append]
  exact List.mem_append_left _ h.mayFollow

/-! ### What is open after one more record -/

/-- A file that is opened becomes the innermost one. -/
theorem stillOpen_fileStart {records : List Record} {r : Record.FileStart}
    (h : InOrder (records ++ [.fileStart r])) :
    stillOpen (records ++ [.fileStart r]) = stillOpen records ++ [r.fileId] := by
  have hclosings : closings (records ++ [.fileStart r]) = closings records := by
    rw [closings_append]
    exact List.append_nil _
  have hnew : r.fileId ∉ closings records := fun hid => h.mayFollow (h.left.closings_subset hid)
  unfold stillOpen
  rw [hclosings, openings_append, List.filter_append]
  congr 1
  exact List.filter_eq_self.mpr fun id hid => by
    rw [List.mem_singleton.mp hid, decide_eq_true_eq]
    exact hnew

/-- A file that is closed was the innermost one. -/
theorem stillOpen_fileEnd {records : List Record} {r : Record.FileEnd}
    (h : InOrder (records ++ [.fileEnd r])) :
    stillOpen records = stillOpen (records ++ [.fileEnd r]) ++ [r.fileId] := by
  have hinnermost : innermost? records = some r.fileId := h.mayFollow
  obtain ⟨outer, houter⟩ := List.getLast?_eq_some_iff.mp hinnermost
  have hnodup : (stillOpen records).Nodup := h.left.nodup_openings.filter _
  rw [houter, List.nodup_append] at hnodup
  have hne : ∀ id ∈ outer, id ≠ r.fileId :=
    fun id hid => hnodup.2.2 id hid r.fileId (List.mem_singleton_self _)
  have hrest : stillOpen (records ++ [.fileEnd r]) = (stillOpen records).filter (· ≠ r.fileId) := by
    have hopenings : openings (records ++ [.fileEnd r]) = openings records := by
      rw [openings_append]
      exact List.append_nil _
    have hclosings : closings (records ++ [.fileEnd r]) = closings records ++ [r.fileId] :=
      closings_append _ _
    unfold stillOpen
    rw [hopenings, hclosings, List.filter_filter]
    refine List.filter_congr fun id _ => ?_
    simp [and_comm]
  rw [hrest, houter, List.filter_append, List.filter_eq_self.mpr (by simpa using hne)]
  simp

end InOrder

end EventListing.Record
