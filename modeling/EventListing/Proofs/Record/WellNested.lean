-- File starts and file ends over a whole listing, where a file number may be opened
-- more than once. Which files are open is a stack of file starts, and a file end
-- closes the file on top of it.
import Mathlib.Data.List.Induction
import EventListing.Proofs.Record.Gather
import EventListing.Proofs.Record.Opened

namespace EventListing.Record

/-! ## The open files -/

/-- The open files after one more record, the innermost one first. -/
def openAfter (opened : List FileStart) : Record → List FileStart
  | .fileStart r => r :: opened
  | .fileEnd _ => opened.tail
  | _ => opened

/-- The file starts of the files that are open behind the records, the innermost
one first. -/
def openStarts (records : List Record) : List FileStart := records.foldl openAfter []

def fileStart? : Record → Option FileStart
  | .fileStart r => some r
  | _ => none

/-- The file starts, in the order in which they come. -/
def fileStarts (records : List Record) : List FileStart := records.filterMap fileStart?

theorem openStarts_concat (records : List Record) (record : Record) :
    openStarts (records ++ [record]) = openAfter (openStarts records) record := by
  unfold openStarts
  rw [List.foldl_append]
  rfl

theorem mem_fileStarts {records : List Record} {r : FileStart} :
    r ∈ fileStarts records ↔ .fileStart r ∈ records :=
  mem_filterMap_of_kind fun record _ => by cases record <;> simp [fileStart?]

/-- What is open was opened. -/
theorem openStarts_subset (records : List Record) : openStarts records ⊆ fileStarts records := by
  induction records using List.reverseRecOn with
  | nil => exact List.Subset.refl _
  | append_singleton records record ih =>
    have hmore : openStarts records ⊆ fileStarts (records ++ [record]) := by
      unfold fileStarts
      rw [List.filterMap_append]
      exact List.subset_append_of_subset_left _ ih
    rw [openStarts_concat]
    cases record with
    | fileStart r =>
      refine List.cons_subset.mpr ⟨?_, hmore⟩
      exact mem_fileStarts.mpr (List.mem_append_right _ (List.mem_singleton_self _))
    | fileEnd r => exact fun f hf => hmore (List.mem_of_mem_tail hf)
    | processor | namePart | expansion | error | ignored | unrecognized => exact hmore

/-! ## Where an open file was opened -/

/-- What the records open they close again, and nothing else. -/
def Balanced (records : List Record) : Prop :=
  ∀ opened, records.foldl openAfter opened = opened

/-- The records open the files of the stack one inside the other. What they open
besides is closed again. -/
inductive LeavesOpen : List Record → List FileStart → Prop
  | nil {records : List Record} (h : openStarts records = []) : LeavesOpen records []
  | inside {outside inside : List Record} {outer : List FileStart} (f : FileStart)
      (houtside : LeavesOpen outside outer) (hinside : Balanced inside) :
      LeavesOpen (outside ++ .fileStart f :: inside) (f :: outer)

namespace LeavesOpen

variable {records : List Record} {opened : List FileStart}

theorem openStarts_eq (h : LeavesOpen records opened) : openStarts records = opened := by
  induction h with
  | nil h => exact h
  | inside f _ hinside ih =>
    unfold openStarts at ih ⊢
    rw [List.foldl_append, List.foldl_cons, ih]
    exact hinside _

/-- Balanced records leave open what is open. -/
theorem append (h : LeavesOpen records opened) {more : List Record} (hmore : Balanced more) :
    LeavesOpen (records ++ more) opened := by
  cases h with
  | nil h =>
    refine .nil ?_
    unfold openStarts at h ⊢
    rw [List.foldl_append, h]
    exact hmore []
  | inside f houtside hinside =>
    rw [List.append_assoc, List.cons_append]
    refine .inside f houtside fun opened => ?_
    rw [List.foldl_append, hinside, hmore]

/-- A file end closes the innermost file. -/
theorem fileEnd (h : LeavesOpen records opened) (r : FileEnd) :
    LeavesOpen (records ++ [.fileEnd r]) opened.tail := by
  cases h with
  | nil h => exact .nil (by rw [openStarts_concat, h]; rfl)
  | inside f houtside hinside =>
    rw [List.append_assoc, List.cons_append]
    refine houtside.append fun opened => ?_
    rw [List.foldl_cons, List.foldl_append, hinside]
    rfl

end LeavesOpen

theorem leavesOpen (records : List Record) : LeavesOpen records (openStarts records) := by
  induction records using List.reverseRecOn with
  | nil => exact .nil rfl
  | append_singleton records record ih =>
    rw [openStarts_concat]
    cases record with
    | fileStart r => exact .inside r ih fun _ => rfl
    | fileEnd r => exact ih.fileEnd r
    | processor | namePart | expansion | error | ignored | unrecognized =>
      exact ih.append fun _ => rfl

/-- All files that were opened inside the innermost open file were closed again. -/
theorem exists_balanced {records : List Record} {f : FileStart} {outer : List FileStart}
    (h : openStarts records = f :: outer) :
    ∃ outside inside, records = outside ++ .fileStart f :: inside ∧
      openStarts outside = outer ∧ Balanced inside := by
  have hopen := leavesOpen records
  rw [h] at hopen
  cases hopen with
  | inside _ houtside hinside => exact ⟨_, _, rfl, houtside.openStarts_eq, hinside⟩

/-! ## Listings that nest well -/

/-- The record may stand behind the ones before it. The file starts of one number
have one marker, no root is opened inside an included member, and a file end has the
number of the innermost open file. -/
def NestsBehind (before : List Record) : Record → Prop
  | .fileStart r =>
    (∀ f ∈ fileStarts before, f.fileId = r.fileId → f.includeMarker = r.includeMarker) ∧
      (r.isInclude = false → ∀ f ∈ openStarts before, f.isInclude = false)
  | .fileEnd r => (openStarts before).head?.map (·.fileId) = some r.fileId
  | _ => True

instance (before : List Record) : (record : Record) → Decidable (NestsBehind before record)
  | .fileStart _ => inferInstanceAs (Decidable (_ ∧ _))
  | .fileEnd _ => inferInstanceAs (Decidable (_ = _))
  | .processor | .namePart _ | .expansion _ | .error _ | .ignored _ | .unrecognized =>
    inferInstanceAs (Decidable True)

/-- The files of the listing nest well. Files may stay open at its end. -/
def WellNested (records : List Record) : Prop := EachBehind NestsBehind records

instance (records : List Record) : Decidable (WellNested records) :=
  inferInstanceAs (Decidable (EachBehind NestsBehind records))

namespace WellNested

theorem left {xs ys : List Record} (h : WellNested (xs ++ ys)) : WellNested xs :=
  EachBehind.left h

theorem nestsBehind {xs ys : List Record} {record : Record}
    (h : WellNested (xs ++ record :: ys)) : NestsBehind xs record := EachBehind.behind h

/-- A file end closes a file with its number. -/
theorem openStarts_of_fileEnd {xs ys : List Record} {r : FileEnd}
    (h : WellNested (xs ++ .fileEnd r :: ys)) :
    ∃ f outer, openStarts xs = f :: outer ∧ f.fileId = r.fileId := by
  have hhead : (openStarts xs).head?.map (·.fileId) = some r.fileId := h.nestsBehind
  cases hopen : openStarts xs with
  | nil =>
    rw [hopen] at hhead
    cases hhead
  | cons f outer =>
    rw [hopen] at hhead
    exact ⟨f, outer, rfl, Option.some.inj hhead⟩

/-- The file starts of one number all open the same kind of file. -/
theorem isInclude_eq {records : List Record} (h : WellNested records) {f g : FileStart}
    (hf : f ∈ fileStarts records) (hg : g ∈ fileStarts records) (hid : f.fileId = g.fileId) :
    f.isInclude = g.isInclude := by
  induction records using List.reverseRecOn with
  | nil => cases hf
  | append_singleton records record ih =>
    have hlast : NestsBehind records record := h.nestsBehind
    have hsplit : ∀ e : FileStart, e ∈ fileStarts (records ++ [record]) →
        e ∈ fileStarts records ∨ record = .fileStart e := by
      intro e he
      rcases List.mem_append.mp (mem_fileStarts.mp he) with hold | hnew
      · exact Or.inl (mem_fileStarts.mpr hold)
      · exact Or.inr (List.mem_singleton.mp hnew).symm
    rcases hsplit f hf with hfold | rfl
    · rcases hsplit g hg with hgold | rfl
      · exact ih h.left hfold hgold
      · unfold FileStart.isInclude
        rw [hlast.1 f hfold hid]
    · rcases hsplit g hg with hgold | hgnew
      · unfold FileStart.isInclude
        rw [hlast.1 g hgold hid.symm]
      · cases hgnew
        rfl

/-- Around an open root there are only roots. -/
theorem pairwise_openStarts {records : List Record} (h : WellNested records) :
    (openStarts records).Pairwise fun inner outer =>
      inner.isInclude = false → outer.isInclude = false := by
  induction records using List.reverseRecOn with
  | nil => exact List.Pairwise.nil
  | append_singleton records record ih =>
    rw [openStarts_concat]
    cases record with
    | fileStart r =>
      have hlast : NestsBehind records (.fileStart r) := h.nestsBehind
      exact List.Pairwise.cons (fun f hf hroot => hlast.2 hroot f hf) (ih h.left)
    | fileEnd r => exact (ih h.left).tail
    | processor | namePart | expansion | error | ignored | unrecognized => exact ih h.left

end WellNested

end EventListing.Record
