-- Which errors a forest holds and where. An error whose line reads and whose
-- file was opened before it in the same compile step is attached to the first
-- file with its number, and no other error is. The records alone say so.
import EventListing.Proofs.Forest.Errors
import EventListing.Proofs.Record.Steps

namespace EventListing

/-! ## The reports of a listing -/

/-- When an error is brought to its source: at which file of which compile
step, both counted from zero, and whether before the edits of the step or with
them. -/
@[ext]
structure Moment where
  step : Nat
  file : Nat
  afterEdit : Bool
deriving DecidableEq, Repr

/-- An error that a compile step reports for one of its files. -/
structure Report where
  record : Record.Error
  line : Int
  moment : Moment
deriving DecidableEq, Repr

/-- The error of the report in a forest. -/
def Report.raw? (r : Report) : Option RawError := RawError.ofRecord? r.record r.moment.afterEdit

namespace Record

/-- The report of a record behind `before`: that of an error whose line reads
and whose file was opened before it in the compile step. -/
def report? (before : List Record) : Record → Option Report
  | .error r =>
    match stepCount before with
    | 0 => none
    | step + 1 =>
      let inStep := ofStep (step + 1) before
      match (openings inStep).idxOf? r.fileId, r.line with
      | some file, some line => some ⟨r, line, step, file, inStep.any isExpansion⟩
      | _, _ => none
  | _ => none

/-- The reports of a listing, in the order of its records. -/
def reports (records : List Record) : List Report := gather report? [] records

theorem reports_concat (records : List Record) (record : Record) :
    reports (records ++ [record]) = reports records ++ (report? records record).toList :=
  gather_concat records record

/-- What a report says of the records before it. -/
theorem of_report? {before : List Record} {record : Record} {r : Report}
    (h : report? before record = some r) :
    record = .error r.record ∧ r.record.line = some r.line ∧
      stepCount before = r.moment.step + 1 ∧
      (openings (ofStep (r.moment.step + 1) before)).idxOf? r.record.fileId =
        some r.moment.file ∧
      r.moment.afterEdit = (ofStep (r.moment.step + 1) before).any isExpansion := by
  cases record with
  | error e =>
    simp only [report?] at h
    split at h
    · cases h
    · rename_i step hstep
      split at h
      · rename_i file line hfile hline
        cases h
        exact ⟨rfl, hline, hstep, hfile, rfl⟩
      · cases h
  | processor | fileStart | namePart | fileEnd | expansion | ignored | unrecognized => cases h

/-- Each error has at most one report, and the reports come in the order of
the errors. -/
theorem reports_sublist (records : List Record) :
    ((reports records).map (·.record)).Sublist (errors records) := by
  induction records using List.reverseRecOn with
  | nil => exact List.Sublist.slnil
  | append_singleton records record ih =>
    have hlast : ((report? records record).toList.map (·.record)).Sublist (errors [record]) := by
      cases hr : report? records record with
      | none => exact List.nil_sublist _
      | some r =>
        rw [(of_report? hr).1]
        exact List.Sublist.refl _
    have happend : errors (records ++ [record]) = errors records ++ errors [record] :=
      List.filterMap_append
    rw [reports_concat, List.map_append, happend]
    exact ih.append hlast

/-- The first file with a number stays the first one when more files come. -/
theorem idxOf?_openings_append {xs ys : List Record} {id : FileId} {i : Nat}
    (h : (openings xs).idxOf? id = some i) : (openings (xs ++ ys)).idxOf? id = some i := by
  unfold List.idxOf? at h ⊢
  rw [openings_append, List.findIdx?_append, h]
  rfl

/-- A report keeps its file, and its place behind an edit, while records are
added to its step. -/
theorem moment_of_mem_reports {records : List Record} {r : Report} (h : r ∈ reports records) :
    (openings (ofStep (r.moment.step + 1) records)).idxOf? r.record.fileId = some r.moment.file ∧
      (r.moment.afterEdit → (ofStep (r.moment.step + 1) records).any isExpansion) := by
  obtain ⟨xs, record, ys, rfl, hr⟩ := mem_gather h
  rw [List.nil_append] at hr
  obtain ⟨-, -, -, hfile, hafter⟩ := of_report? hr
  obtain ⟨zs, hmore⟩ := ofStep_append (r.moment.step + 1) xs (record :: ys)
  rw [hmore]
  refine ⟨idxOf?_openings_append hfile, ?_⟩
  intro hedited
  rw [List.any_append, ← hafter, hedited]
  rfl

/-- A report names a file that its step has. -/
theorem of_mem_reports {records : List Record} {r : Report} (h : r ∈ reports records) :
    .error r.record ∈ records ∧ r.record.line = some r.line ∧
      r.moment.step < stepCount records ∧
      (openings (ofStep (r.moment.step + 1) records))[r.moment.file]? = some r.record.fileId := by
  have hfile := (moment_of_mem_reports h).1
  obtain ⟨xs, record, ys, rfl, hr⟩ := mem_gather h
  obtain ⟨rfl, hline, hstep, -, -⟩ := of_report? hr
  rw [List.nil_append] at hstep
  obtain ⟨hlt, hid, -⟩ := List.idxOf?_eq_some_iff.mp hfile
  refine ⟨by simp, hline, ?_, ?_⟩
  · rw [stepCount_append]
    omega
  · rw [List.getElem?_eq_getElem hlt, hid]

end Record

/-! ## The files and the errors of a forest by their places -/

/-- What is read off the element with this index. Without such an element
nothing is read. -/
def readAt {α β : Type} (read : α → List β) (l : List α) (i : Nat) : List β :=
  (l[i]?.map read).getD []

section ReadAt

variable {α β : Type} {read : α → List β}

/-- An element off which nothing is read does not show at the end. -/
theorem readAt_concat_nil {a : α} (h : read a = []) (l : List α) (i : Nat) :
    readAt read (l ++ [a]) i = readAt read l i := by
  unfold readAt
  by_cases hlt : i < l.length
  · rw [List.getElem?_append_left hlt]
  · rw [List.getElem?_append_right (by omega), List.getElem?_eq_none (by omega : l.length ≤ i)]
    cases i - l.length <;> simp [h]

/-- What is read gets longer only at the end when only the last element has
changed. -/
theorem readAt_concat {old new : α} {more : List β} (h : read new = read old ++ more) (l : List α)
    (i : Nat) :
    readAt read (l ++ [new]) i =
      readAt read (l ++ [old]) i ++ if (l ++ [old]).length = i + 1 then more else [] := by
  unfold readAt
  rw [List.length_append, List.length_singleton]
  rcases Nat.lt_trichotomy i l.length with hlt | rfl | hgt
  · rw [List.getElem?_append_left hlt, List.getElem?_append_left hlt, if_neg (by omega),
      List.append_nil]
  · simp [h]
  · rw [List.getElem?_eq_none (by simp; omega), List.getElem?_eq_none (by simp; omega),
      if_neg (by omega)]
    rfl

end ReadAt

/-- The numbers of the files of a step. -/
def Step.ids (step : Step) : List FileId := step.files.map (·.id)

/-- The errors of the file with this index in the step. -/
def Step.errorsAt (step : Step) (j : Nat) : List RawError := readAt (·.errors) step.files j

namespace Forest

/-- The numbers of the files of the step with this index. -/
def idsAt (forest : Forest) (i : Nat) : List FileId := readAt Step.ids forest.steps i

/-- The errors of the file with index `j` in the step with index `i`. -/
def errorsAt (forest : Forest) (i j : Nat) : List RawError :=
  readAt (·.errorsAt j) forest.steps i

end Forest

namespace Step

theorem errorsAt_modify {change : FileNode → FileNode} {more : List RawError} {step : Step}
    {index : Nat} (hlt : index < step.files.length)
    (h : ∀ file, (change file).errors = file.errors ++ more) (j : Nat) :
    (step.modify index change).errorsAt j =
      step.errorsAt j ++ if index = j then more else [] := by
  unfold errorsAt readAt modify
  rw [List.getElem?_modify]
  by_cases hj : index = j
  · subst hj
    simp [List.getElem?_eq_getElem hlt, h]
  · cases step.files[j]? <;> simp [hj]

theorem errorsAt_modify_of_errors {change : FileNode → FileNode} (step : Step) (index : Nat)
    (h : ∀ file, (change file).errors = file.errors) (j : Nat) :
    (step.modify index change).errorsAt j = step.errorsAt j := by
  unfold errorsAt readAt modify
  rw [List.getElem?_modify]
  cases step.files[j]? with
  | none => rfl
  | some file => by_cases hj : index = j <;> simp [hj, h]

theorem indexOf?_eq_idxOf? (step : Step) (id : FileId) :
    step.indexOf? id = step.ids.idxOf? id := by
  unfold indexOf? ids List.idxOf?
  rw [List.findIdx?_map]
  rfl

end Step

/-! ## One record -/

namespace Step

/-- The errors that a record attaches to the file with index `j` among the
open files. -/
def attached (ids : List FileId) (edited : Bool) (j : Nat) : Record → List RawError
  | .error r => if ids.idxOf? r.fileId = some j then (RawError.ofRecord? r edited).toList else []
  | _ => []

/-- What a record does to the open step: a file start adds a file without
errors, and an error is attached to its file. -/
structure Grown (old : Step) (edited : Bool) (record : Record) (new : Step) : Prop where
  ids : new.ids = old.ids ++ record.openedId?.toList
  errors : ∀ j, new.errorsAt j = old.errorsAt j ++ attached old.ids edited j record

variable {edited : Bool} {record : Record} {step : Step}

theorem Grown.refl (hid : record.openedId? = none)
    (herrors : ∀ j, attached step.ids edited j record = []) : step.Grown edited record step :=
  ⟨by simp [hid], by simp [herrors]⟩

/-- A change that leaves the number and the errors of a file alone. -/
theorem Grown.modify {change : FileNode → FileNode} (index : Nat)
    (hchange : ∀ file, (change file).id = file.id ∧ (change file).errors = file.errors)
    (hid : record.openedId? = none) (herrors : ∀ j, attached step.ids edited j record = []) :
    step.Grown edited record (step.modify index change) := by
  refine ⟨?_, ?_⟩
  · rw [hid, Option.toList_none, List.append_nil]
    exact Builder.map_id_modify (fun file => (hchange file).1) step index
  · intro j
    rw [errorsAt_modify_of_errors step index (fun file => (hchange file).2), herrors,
      List.append_nil]

/-- An error is attached to the first file with its number. -/
theorem Grown.addError {r : Record.Error} {e : RawError} {index : Nat}
    (hindex : step.indexOf? r.fileId = some index) (he : RawError.ofRecord? r edited = some e) :
    step.Grown edited (.error r)
      (step.modify index fun file => { file with errors := file.errors ++ [e] }) := by
  refine ⟨?_, ?_⟩
  · simp only [Record.openedId?, Option.toList_none, List.append_nil]
    refine Builder.map_id_modify ?_ step index
    exact fun _ => rfl
  · intro j
    obtain ⟨file, hfile, -⟩ := getElem?_of_indexOf? hindex
    have hlt : index < step.files.length := (List.getElem?_eq_some_iff.mp hfile).1
    rw [errorsAt_modify hlt (fun _ => rfl)]
    rw [indexOf?_eq_idxOf?] at hindex
    simp [attached, hindex, he]

end Step

namespace Builder

/-- Every record but that of a new compile step changes the open step only. -/
theorem grown_apply {b : Builder} {step : Step} {record : Record} (hcurrent : b.current = some step)
    (hrecord : record ≠ .processor) :
    (b.apply record).done.steps = b.done.steps ∧
      ∃ new, (b.apply record).current = some new ∧ step.Grown b.edited record new := by
  obtain ⟨done, current, openFiles, edited⟩ := b
  subst hcurrent
  cases record with
  | processor => exact absurd rfl hrecord
  | fileStart r =>
    refine ⟨rfl, _, rfl, ?_⟩
    constructor
    · simp [Step.ids, newNode, Record.openedId?]
    · intro j
      exact (readAt_concat_nil rfl step.files j).trans (List.append_nil _).symm
  | fileEnd r =>
    refine ⟨rfl, _, rfl, ?_⟩
    split
    · exact Step.Grown.refl rfl fun _ => rfl
    · exact Step.Grown.modify _ (fun _ => ⟨rfl, rfl⟩) rfl fun _ => rfl
  | expansion r =>
    simp only [apply, addEdit]
    split
    · exact ⟨rfl, _, rfl, Step.Grown.refl rfl fun _ => rfl⟩
    · exact ⟨rfl, _, rfl, Step.Grown.modify _ (fun _ => ⟨rfl, rfl⟩) rfl fun _ => rfl⟩
  | error r =>
    simp only [apply, addError]
    split
    · rename_i index e hindex he
      exact ⟨rfl, _, rfl, Step.Grown.addError hindex he⟩
    · rename_i hnone
      refine ⟨rfl, _, rfl, Step.Grown.refl rfl ?_⟩
      intro j
      rw [Step.attached]
      split
      · rename_i hindex
        cases he : RawError.ofRecord? r edited with
        | none => rfl
        | some e => exact absurd he (hnone j e ((Step.indexOf?_eq_idxOf? _ _).trans hindex))
      · rfl
  | namePart | ignored | unrecognized => exact ⟨rfl, _, rfl, Step.Grown.refl rfl fun _ => rfl⟩

/-- Before the first compile step, no record changes the steps. -/
theorem steps_apply_of_none {b : Builder} {record : Record} (hcurrent : b.current = none)
    (hrecord : record ≠ .processor) : (b.apply record).finish.steps = b.finish.steps := by
  obtain ⟨done, current, openFiles, edited⟩ := b
  subst hcurrent
  cases record with
  | processor => exact absurd rfl hrecord
  | fileStart | namePart | fileEnd | expansion | error | ignored | unrecognized => rfl

theorem steps_apply_processor (b : Builder) :
    (b.apply .processor).finish.steps = b.finish.steps ++ [Step.empty] := rfl

/-- No compile step is complete before one was opened. -/
def Begun (b : Builder) : Prop := b.current = none → b.done.steps = []

theorem begun_apply {b : Builder} (h : b.Begun) (record : Record) : (b.apply record).Begun := by
  intro hnone
  cases hcurrent : b.current with
  | some step =>
    have hsome := current_apply (b := b) (by rw [hcurrent]; rfl) record
    rw [hnone] at hsome
    cases hsome
  | none =>
    have hdone := h hcurrent
    obtain ⟨done, current, openFiles, edited⟩ := b
    subst hcurrent
    cases record with
    | processor => cases hnone
    | fileStart | namePart | fileEnd | expansion | error | ignored | unrecognized => exact hdone

theorem steps_of_current {b : Builder} {step : Step} (h : b.current = some step) :
    b.finish.steps = b.done.steps ++ [step] := by
  unfold finish
  rw [h]
  rfl

theorem Begun.length_eq_zero {b : Builder} (h : b.Begun) (hcurrent : b.current = none) :
    b.finish.steps.length = 0 := by
  simp [finish, hcurrent, h hcurrent]

theorem length_apply {b : Builder} (record : Record) :
    (b.apply record).finish.steps.length =
      b.finish.steps.length + if record = .processor then 1 else 0 := by
  by_cases hrecord : record = .processor
  · subst hrecord
    rw [steps_apply_processor]
    simp
  · rw [if_neg hrecord]
    cases hcurrent : b.current with
    | none => rw [steps_apply_of_none hcurrent hrecord, Nat.add_zero]
    | some step =>
      obtain ⟨hdone, new, hnew, -⟩ := grown_apply hcurrent hrecord
      rw [steps_of_current hnew, hdone, steps_of_current hcurrent]
      simp

/-- The open step has one more file for each file start. -/
theorem idsAt_apply {b : Builder} (h : b.Begun) (record : Record) (i : Nat) :
    (b.apply record).finish.idsAt i =
      b.finish.idsAt i ++
        if b.finish.steps.length = i + 1 then record.openedId?.toList else [] := by
  unfold Forest.idsAt
  by_cases hrecord : record = .processor
  · subst hrecord
    rw [steps_apply_processor, readAt_concat_nil rfl]
    simp [Record.openedId?]
  · cases hcurrent : b.current with
    | none =>
      rw [steps_apply_of_none hcurrent hrecord, h.length_eq_zero hcurrent, if_neg (by omega),
        List.append_nil]
    | some step =>
      obtain ⟨hdone, new, hnew, hgrown⟩ := grown_apply hcurrent hrecord
      rw [steps_of_current hnew, hdone, steps_of_current hcurrent, readAt_concat hgrown.ids]

/-- A file of the open step has one more error for each error that names it. -/
theorem errorsAt_apply {b : Builder} (h : b.Begun) (record : Record) (i j : Nat) :
    (b.apply record).finish.errorsAt i j =
      b.finish.errorsAt i j ++
        if b.finish.steps.length = i + 1 then
          Step.attached (b.finish.idsAt i) b.edited j record else [] := by
  unfold Forest.errorsAt
  by_cases hrecord : record = .processor
  · subst hrecord
    rw [steps_apply_processor, readAt_concat_nil rfl]
    simp [Step.attached]
  · cases hcurrent : b.current with
    | none =>
      rw [steps_apply_of_none hcurrent hrecord, h.length_eq_zero hcurrent, if_neg (by omega),
        List.append_nil]
    | some step =>
      obtain ⟨hdone, new, hnew, hgrown⟩ := grown_apply hcurrent hrecord
      rw [steps_of_current hnew, hdone, readAt_concat (hgrown.errors j),
        ← steps_of_current hcurrent]
      congr 1
      by_cases hlast : b.finish.steps.length = i + 1
      · have hids : b.finish.idsAt i = step.ids := by
          rw [steps_of_current hcurrent, List.length_append, List.length_singleton] at hlast
          have hi : i = b.done.steps.length := by omega
          subst hi
          simp [Forest.idsAt, readAt, steps_of_current hcurrent]
        rw [if_pos hlast, if_pos hlast, hids]
      · rw [if_neg hlast, if_neg hlast]

/-- The mark of an edit is set by an edit and taken back by a compile step. -/
theorem edited_apply_eq (b : Builder) (record : Record) :
    (b.apply record).edited =
      if record = .processor then false else b.edited || record.isExpansion := by
  cases record with
  | processor => rfl
  | expansion r =>
    obtain ⟨done, current, openFiles, edited⟩ := b
    simp only [apply, addEdit, Record.isExpansion, Bool.or_true]
    repeat' split
    all_goals simp_all
  | fileStart | namePart | fileEnd | error | ignored | unrecognized =>
    rw [edited_apply (by simp) (by simp)]
    simp [Record.isExpansion]

/-! ## All records -/

/-- The builder stands where the records lead, and its errors are their
reports. -/
structure Follows (records : List Record) (b : Builder) : Prop where
  begun : b.Begun
  length : b.finish.steps.length = Record.stepCount records
  ids : ∀ i, b.finish.idsAt i = Record.openings (Record.ofStep (i + 1) records)
  edited : b.edited = (Record.ofStep (Record.stepCount records) records).any Record.isExpansion
  errors : ∀ i j, b.finish.errorsAt i j =
    ((Record.reports records).filter fun r => r.moment.step = i ∧ r.moment.file = j).filterMap
      Report.raw?

variable {records : List Record} {b : Builder}

/-- What a record attaches is the error of its report. -/
theorem Follows.attached_eq (h : Follows records b) (record : Record) (i j : Nat) :
    (if b.finish.steps.length = i + 1 then
        Step.attached (b.finish.idsAt i) b.edited j record else []) =
      ((Record.report? records record).toList.filter fun r =>
        r.moment.step = i ∧ r.moment.file = j).filterMap Report.raw? := by
  rw [h.length, h.ids, h.edited]
  cases record with
  | error r =>
    cases hcount : Record.stepCount records with
    | zero => simp [Record.report?, hcount]
    | succ step =>
      by_cases hi : step = i
      · subst hi
        simp only [Record.report?, hcount, if_true, Step.attached]
        cases hfile : (Record.openings (Record.ofStep (step + 1) records)).idxOf? r.fileId with
        | none => simp
        | some file =>
          cases hline : r.line with
          | none => simp [RawError.ofRecord?, hline]
          | some line =>
            by_cases hj : file = j <;> simp [hj, Report.raw?, RawError.ofRecord?, hline]
      · rw [if_neg (by omega)]
        simp only [Record.report?, hcount]
        split <;> simp [hi]
  | processor | fileStart | namePart | fileEnd | expansion | ignored | unrecognized =>
    simp [Record.report?, Step.attached]

theorem follows_apply (h : Follows records b) (record : Record) :
    Follows (records ++ [record]) (b.apply record) := by
  have hcount : Record.stepCount (records ++ [record]) =
      Record.stepCount records + if record = .processor then 1 else 0 := by
    rw [Record.stepCount_append]
    simp [Record.stepCount, List.count_singleton]
  refine ⟨begun_apply h.begun record, ?_, ?_, ?_, ?_⟩
  · rw [length_apply, h.length, hcount]
  · intro i
    rw [idsAt_apply h.begun, h.ids, h.length, Record.ofStep_concat, Record.openings_append]
    congr 1
    split
    · cases hid : record.openedId? <;> simp [Record.openings, hid]
    · rfl
  · rw [edited_apply_eq, h.edited, hcount]
    by_cases hrecord : record = .processor
    · rw [if_pos hrecord, if_pos hrecord, Record.ofStep_concat, if_neg (by omega),
        Record.ofStep_eq_nil (by omega)]
      rfl
    · rw [if_neg hrecord, if_neg hrecord, Nat.add_zero, Record.ofStep_concat, if_pos rfl,
        List.any_append]
      simp
  · intro i j
    rw [errorsAt_apply h.begun, h.errors, Record.reports_concat, List.filter_append,
      List.filterMap_append, h.attached_eq]

theorem follows_foldl (records : List Record) : Follows records (records.foldl apply start) := by
  induction records using List.reverseRecOn with
  | nil => exact ⟨fun _ => rfl, rfl, fun _ => rfl, rfl, fun _ _ => rfl⟩
  | append_singleton records record ih =>
    rw [List.foldl_append]
    exact follows_apply ih record

end Builder

namespace Forest

variable (records : List Record)

theorem length_ofRecords : (ofRecords records).steps.length = Record.stepCount records :=
  (Builder.follows_foldl records).length

/-- The files of a step are those that its records open. -/
theorem idsAt_ofRecords (i : Nat) :
    (ofRecords records).idsAt i = Record.openings (Record.ofStep (i + 1) records) :=
  (Builder.follows_foldl records).ids i

/-- The errors of a file are those that are reported for it, in their
order. -/
theorem errorsAt_ofRecords (i j : Nat) :
    (ofRecords records).errorsAt i j =
      ((Record.reports records).filter fun r =>
        r.moment.step = i ∧ r.moment.file = j).filterMap Report.raw? :=
  (Builder.follows_foldl records).errors i j

end Forest

end EventListing
