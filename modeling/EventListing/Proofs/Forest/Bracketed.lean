-- The forest of a listing whose files open and close as brackets do. Each file
-- start makes one file of its compile step, and all that the forest says of the
-- file is read off the records of that step.
import EventListing.Proofs.Forest.Reports
import EventListing.Proofs.Record.Brackets
import EventListing.Proofs.Record.Width

namespace EventListing

/-! ## What the records say of a file -/

namespace Record

def opened? (before : List Record) : Record → Option (Record.FileStart × Option FileId)
  | .fileStart r => some (r, innermost? before)
  | _ => none

/-- The file starts, each with the innermost file that was open before it. -/
def opened (step : List Record) : List (Record.FileStart × Option FileId) :=
  gather opened? [] step

/-- The length that the file end with the number gives. -/
def lengthOf? (step : List Record) (id : FileId) : Option Int :=
  ((ends step).find? (·.fileId = id)).bind (·.length)

/-- The expansions that name the file. -/
def expansionsOf (step : List Record) (id : FileId) : List Record.Expansion :=
  (expansions step).filter (·.fileId = id)

def errorOf? (id : FileId) (before : List Record) : Record → Option RawError
  | .error r =>
    if r.fileId = id ∧ id ∈ openings before then
      RawError.ofRecord? r (before.any isExpansion)
    else none
  | _ => none

/-- The errors that name the file after it was opened and whose line reads. Each
of them says whether an expansion came before it. -/
def errorsOf (step : List Record) (id : FileId) : List RawError := gather (errorOf? id) [] step

end Record

/-- The range that two lines from one mark, counted from zero. -/
def LineRange.zeroBased (first last : Option Int) : LineRange :=
  match first, last with
  | some first, some last =>
    ⟨max Saturating.least (first - 1), max Saturating.least (last - 1), none⟩
  | _, _ => ⟨-1, -1, none⟩

/-- The edit that the expansion stands for. -/
def Edit.zeroBased (r : Record.Expansion) : Edit where
  target := r.on
  defined := LineRange.zeroBased r.definedStart r.definedEnd
  generated := LineRange.zeroBased r.rangeStart r.rangeEnd

open Record

/-- The file that a file start opens inside `parent`, read off the records of its
compile step. -/
def FileNode.inStep (step : List Record) (r : Record.FileStart) (parent : Option FileId) :
    FileNode where
  id := r.fileId
  parent := parent
  startsAt := r.startsAt
  length := lengthOf? step r.fileId
  path := UnitName.path r.name
  errors := errorsOf step r.fileId
  edits := (expansionsOf step r.fileId).map Edit.zeroBased

/-- The compile step of the records: one file for each file start. -/
def Step.ofBrackets (step : List Record) : Step :=
  ⟨(opened step).map fun o => FileNode.inStep step o.1 o.2⟩

/-! ## Files by their numbers -/

namespace Step

theorem ids_ofBrackets (step : List Record) : (ofBrackets step).ids = openings step := by
  unfold ids ofBrackets opened
  rw [List.map_map]
  refine map_gather ?_ [] step
  intro before record
  cases record <;> rfl

/-- Where no number occurs twice, a change of the file with a number changes
that file alone. -/
theorem modify_of_nodup {step : Step} (hnodup : step.ids.Nodup) {id : FileId} {index : Nat}
    (h : step.indexOf? id = some index) (change : FileNode → FileNode) :
    step.modify index change =
      ⟨step.files.map fun file => if file.id = id then change file else file⟩ := by
  obtain ⟨found, hfound, hid⟩ := getElem?_of_indexOf? h
  unfold modify
  congr 1
  refine List.ext_getElem? fun i => ?_
  rw [List.getElem?_modify, List.getElem?_map]
  by_cases hi : index = i
  · subst hi
    simp [hfound, hid]
  · simp only [if_neg hi]
    cases hfile : step.files[i]? with
    | none => simp
    | some file =>
      have hne : file.id ≠ id := by
        intro he
        have hsame : step.ids[i]? = step.ids[index]? := by
          simp [ids, List.getElem?_map, hfile, hfound, he, hid]
        have hlt : i < step.ids.length := by
          simpa [ids] using (List.getElem?_eq_some_iff.mp hfile).1
        exact hi ((List.getElem?_inj hlt hnodup).mp hsame).symm
      simp [hne]

end Step

/-! ## One more record -/

namespace Record

variable {step : List Record} {record : Record}

theorem opened_concat (step : List Record) (record : Record) :
    opened (step ++ [record]) = opened step ++ (opened? step record).toList := gather_concat _ _

theorem errorsOf_concat (step : List Record) (record : Record) (id : FileId) :
    errorsOf (step ++ [record]) id = errorsOf step id ++ (errorOf? id step record).toList :=
  gather_concat _ _

theorem expansionsOf_concat (h : record.expansion? = none) (id : FileId) :
    expansionsOf (step ++ [record]) id = expansionsOf step id := by
  have hexpansions : expansions [record] = [] := by simp [expansions, h]
  unfold expansionsOf
  rw [expansions_append, hexpansions, List.append_nil]

theorem expansionsOf_expansion (step : List Record) (r : Record.Expansion) (id : FileId) :
    expansionsOf (step ++ [.expansion r]) id =
      expansionsOf step id ++ if r.fileId = id then [r] else [] := by
  have hexpansions : expansions (step ++ [.expansion r]) = expansions step ++ [r] :=
    expansions_append step [.expansion r]
  unfold expansionsOf
  rw [hexpansions, List.filter_append, List.filter_singleton]
  by_cases hid : r.fileId = id <;> simp [hid]

theorem lengthOf?_concat (h : record.fileEnd? = none) (id : FileId) :
    lengthOf? (step ++ [record]) id = lengthOf? step id := by
  have hends : ends [record] = [] := by simp [ends, h]
  unfold lengthOf?
  rw [ends_append, hends, List.append_nil]

theorem find?_ends_eq_none {id : FileId} (h : id ∉ closings step) :
    (ends step).find? (·.fileId = id) = none := by
  rw [List.find?_eq_none]
  intro r hr
  simp only [decide_eq_true_eq]
  rintro rfl
  exact h (List.mem_map_of_mem hr)

/-- The length of a file is known from its first file end on. -/
theorem lengthOf?_fileEnd {r : Record.FileEnd} (h : r.fileId ∉ closings step) (id : FileId) :
    lengthOf? (step ++ [.fileEnd r]) id =
      if r.fileId = id then r.length else lengthOf? step id := by
  have hends : ends (step ++ [.fileEnd r]) = ends step ++ [r] := ends_append step [.fileEnd r]
  unfold lengthOf?
  rw [hends, List.find?_append]
  by_cases hid : r.fileId = id
  · subst hid
    simp [find?_ends_eq_none h]
  · simp [hid]

/-- The records say nothing of a file that they do not open. -/
theorem lengthOf?_eq_none {id : FileId} (h : InOrder step) (hid : id ∉ openings step) :
    lengthOf? step id = none := by
  unfold lengthOf?
  rw [find?_ends_eq_none fun hclosed => hid (h.closings_subset hclosed), Option.bind_none]

theorem expansionsOf_eq_nil {id : FileId} (h : InOrder step) (hid : id ∉ openings step) :
    expansionsOf step id = [] := by
  unfold expansionsOf
  rw [List.filter_eq_nil_iff]
  intro r hr
  simp only [decide_eq_true_eq]
  rintro rfl
  exact hid (h.mem_openings_of_expansion hr)

theorem errorsOf_eq_nil {id : FileId} (hid : id ∉ openings step) : errorsOf step id = [] := by
  rw [List.eq_nil_iff_forall_not_mem]
  intro e he
  obtain ⟨xs, record, ys, rfl, hrecord⟩ := mem_gather he
  cases record with
  | error r =>
    rw [List.nil_append, errorOf?] at hrecord
    split at hrecord
    · rename_i hopened
      rw [openings_append] at hid
      exact hid (List.mem_append_left _ hopened.2)
    · cases hrecord
  | processor | fileStart | namePart | fileEnd | expansion | ignored | unrecognized => cases hrecord

end Record

namespace FileNode

variable {step : List Record} {record : Record} (start : Record.FileStart) (parent : Option FileId)

/-- A record that says nothing of the file. -/
theorem inStep_concat (hend : record.fileEnd? = none) (hexpansion : record.expansion? = none)
    (herror : errorOf? start.fileId step record = none) :
    inStep (step ++ [record]) start parent = inStep step start parent := by
  unfold inStep
  rw [lengthOf?_concat hend, expansionsOf_concat hexpansion, errorsOf_concat, herror]
  simp

theorem inStep_fileEnd {r : Record.FileEnd} (h : r.fileId ∉ closings step) :
    inStep (step ++ [.fileEnd r]) start parent =
      if start.fileId = r.fileId then { inStep step start parent with length := r.length }
      else inStep step start parent := by
  unfold inStep
  rw [lengthOf?_fileEnd h, expansionsOf_concat rfl, errorsOf_concat]
  by_cases hid : r.fileId = start.fileId
  · simp [hid, errorOf?]
  · simp [hid, Ne.symm hid, errorOf?]

theorem inStep_expansion (r : Record.Expansion) :
    inStep (step ++ [.expansion r]) start parent =
      if start.fileId = r.fileId then
        { inStep step start parent with
          edits := (inStep step start parent).edits ++ [Edit.zeroBased r] }
      else inStep step start parent := by
  unfold inStep
  rw [lengthOf?_concat rfl, expansionsOf_expansion, errorsOf_concat]
  by_cases hid : r.fileId = start.fileId
  · simp [hid, errorOf?]
  · simp [hid, Ne.symm hid, errorOf?]

theorem inStep_error {r : Record.Error} {e : RawError} (hopened : r.fileId ∈ openings step)
    (he : RawError.ofRecord? r (step.any isExpansion) = some e) :
    inStep (step ++ [.error r]) start parent =
      if start.fileId = r.fileId then
        { inStep step start parent with errors := (inStep step start parent).errors ++ [e] }
      else inStep step start parent := by
  unfold inStep
  rw [lengthOf?_concat rfl, expansionsOf_concat rfl, errorsOf_concat]
  by_cases hid : r.fileId = start.fileId
  · simp [errorOf?, ← hid, hopened, he]
  · simp [hid, Ne.symm hid, errorOf?]

end FileNode

/-! ## The builder inside a compile step -/

namespace Step

variable {step : List Record} {record : Record}

theorem exists_indexOf? {id : FileId} (h : id ∈ openings step) :
    ∃ index, (ofBrackets step).indexOf? id = some index := by
  rw [← ids_ofBrackets] at h
  exact Option.isSome_iff_exists.mp (isSome_indexOf?.mpr h)

theorem ofBrackets_concat_of_same (hopened : opened? step record = none)
    (hsame : ∀ start parent, FileNode.inStep (step ++ [record]) start parent =
      FileNode.inStep step start parent) :
    ofBrackets (step ++ [record]) = ofBrackets step := by
  unfold ofBrackets
  rw [opened_concat, hopened]
  simp only [Option.toList_none, List.append_nil, hsame]

/-- A record that changes the file with a number, and no other one. -/
theorem ofBrackets_concat {id : FileId} {index : Nat} (hopened : opened? step record = none)
    (hnodup : (openings step).Nodup) (hindex : (ofBrackets step).indexOf? id = some index)
    (change : FileNode → FileNode)
    (hchange : ∀ start parent, FileNode.inStep (step ++ [record]) start parent =
      if start.fileId = id then change (FileNode.inStep step start parent)
      else FileNode.inStep step start parent) :
    ofBrackets (step ++ [record]) = (ofBrackets step).modify index change := by
  rw [modify_of_nodup (ids_ofBrackets step ▸ hnodup) hindex]
  unfold ofBrackets
  rw [opened_concat, hopened, List.map_map]
  simp only [Option.toList_none, List.append_nil, hchange]
  rfl

end Step

namespace Builder

/-- The builder stands inside a compile step whose records are in order. -/
structure Within (step : List Record) (b : Builder) : Prop where
  current : b.current = some (Step.ofBrackets step)
  openFiles : b.openFiles = (stillOpen step).reverse
  edited : b.edited = step.any isExpansion

variable {b : Builder} {step : List Record}

theorem within_openFile (h : b.Within step) {r : Record.FileStart}
    (horder : Record.InOrder (step ++ [.fileStart r])) :
    (b.openFile r).current = some (Step.ofBrackets (step ++ [.fileStart r])) ∧
      (b.openFile r).openFiles = (stillOpen (step ++ [.fileStart r])).reverse := by
  have hnew : r.fileId ∉ openings step := horder.mayFollow
  have hnode : FileNode.inStep step r (innermost? step) = b.newNode r := by
    unfold FileNode.inStep newNode
    rw [lengthOf?_eq_none horder.left hnew, expansionsOf_eq_nil horder.left hnew,
      errorsOf_eq_nil hnew, h.openFiles, List.head?_reverse]
    rfl
  have hfiles : Step.ofBrackets (step ++ [.fileStart r]) =
      ⟨(Step.ofBrackets step).files ++ [b.newNode r]⟩ := by
    have hsame : ∀ start parent, FileNode.inStep (step ++ [.fileStart r]) start parent =
        FileNode.inStep step start parent :=
      fun start parent => FileNode.inStep_concat start parent rfl rfl rfl
    unfold Step.ofBrackets
    rw [opened_concat, ← hnode]
    simp only [hsame, List.map_append]
    rfl
  unfold openFile
  rw [h.current, hfiles, InOrder.stillOpen_fileStart horder, h.openFiles]
  simp

theorem within_closeFile (h : b.Within step) {r : Record.FileEnd}
    (horder : Record.InOrder (step ++ [.fileEnd r])) :
    (b.closeFile r).current = some (Step.ofBrackets (step ++ [.fileEnd r])) ∧
      (b.closeFile r).openFiles = (stillOpen (step ++ [.fileEnd r])).reverse := by
  have hinnermost : innermost? step = some r.fileId := horder.mayFollow
  obtain ⟨hopened, hclosed⟩ := mem_stillOpen.mp (List.mem_of_getLast? hinnermost)
  obtain ⟨index, hindex⟩ := Step.exists_indexOf? hopened
  have hstep := Step.ofBrackets_concat rfl horder.left.nodup_openings hindex
    (fun file => { file with length := r.length })
    fun start parent => FileNode.inStep_fileEnd start parent hclosed
  unfold closeFile
  rw [h.current, h.openFiles, InOrder.stillOpen_fileEnd horder, hstep]
  simp [hindex]

theorem within_addEdit (h : b.Within step) {r : Record.Expansion}
    (horder : Record.InOrder (step ++ [.expansion r]))
    (hread : Edit.ofRecord r = Edit.zeroBased r) :
    (b.addEdit r).current = some (Step.ofBrackets (step ++ [.expansion r])) ∧
      (b.addEdit r).openFiles = (stillOpen (step ++ [.expansion r])).reverse := by
  obtain ⟨index, hindex⟩ := Step.exists_indexOf? (horder.mayFollow : r.fileId ∈ openings step)
  have hstep := Step.ofBrackets_concat rfl horder.left.nodup_openings hindex
    (fun file => { file with edits := file.edits ++ [Edit.zeroBased r] })
    fun start parent => FileNode.inStep_expansion start parent r
  unfold addEdit editedFile?
  rw [stillOpen_concat_of_none rfl rfl, hstep]
  simp only [h.current, hindex, hread]
  exact ⟨trivial, h.openFiles⟩

theorem within_addError (h : b.Within step) {r : Record.Error}
    (horder : Record.InOrder (step ++ [.error r])) :
    (b.addError r).current = some (Step.ofBrackets (step ++ [.error r])) ∧
      (b.addError r).openFiles = (stillOpen (step ++ [.error r])).reverse := by
  rw [stillOpen_concat_of_none rfl rfl]
  unfold addError
  rw [h.current, h.edited]
  -- an error counts when its file was opened and its line reads
  by_cases hopened : r.fileId ∈ openings step
  · obtain ⟨index, hindex⟩ := Step.exists_indexOf? hopened
    cases he : RawError.ofRecord? r (step.any isExpansion) with
    | none =>
      have hstep : Step.ofBrackets (step ++ [.error r]) = Step.ofBrackets step :=
        Step.ofBrackets_concat_of_same rfl fun start parent =>
          FileNode.inStep_concat start parent rfl rfl (by simp [errorOf?, he])
      simp only [hindex, hstep]
      exact ⟨h.current, h.openFiles⟩
    | some e =>
      have hstep := Step.ofBrackets_concat rfl horder.left.nodup_openings hindex
        (fun file => { file with errors := file.errors ++ [e] })
        fun start parent => FileNode.inStep_error start parent hopened he
      simp only [hindex, hstep]
      exact ⟨trivial, h.openFiles⟩
  · have hindex : (Step.ofBrackets step).indexOf? r.fileId = none := by
      rw [← Step.ids_ofBrackets] at hopened
      exact Option.not_isSome_iff_eq_none.mp fun h => hopened (Step.isSome_indexOf?.mp h)
    have hstep : Step.ofBrackets (step ++ [.error r]) = Step.ofBrackets step :=
      Step.ofBrackets_concat_of_same rfl fun start parent =>
        FileNode.inStep_concat start parent rfl rfl (by
          rw [errorOf?, if_neg]
          rintro ⟨hid, hmem⟩
          exact hopened (hid ▸ hmem))
    simp only [hindex, hstep]
    exact ⟨h.current, h.openFiles⟩

/-- One more record in order. -/
theorem within_apply (h : b.Within step) {record : Record} (hstep : record ≠ .processor)
    (horder : Record.InOrder (step ++ [record]))
    (hread : ∀ r, record = .expansion r → Edit.ofRecord r = Edit.zeroBased r) :
    (b.apply record).Within (step ++ [record]) := by
  have hedited : (b.apply record).edited = (step ++ [record]).any isExpansion := by
    rw [edited_apply_eq, if_neg hstep, h.edited, List.any_append]
    simp
  suffices hboth : (b.apply record).current = some (Step.ofBrackets (step ++ [record])) ∧
      (b.apply record).openFiles = (stillOpen (step ++ [record])).reverse from
    ⟨hboth.1, hboth.2, hedited⟩
  cases record with
  | processor => exact absurd rfl hstep
  | fileStart r => exact within_openFile h horder
  | fileEnd r => exact within_closeFile h horder
  | expansion r => exact within_addEdit h horder (hread r rfl)
  | error r => exact within_addError h horder
  | namePart | ignored | unrecognized =>
    rw [stillOpen_concat_of_none rfl rfl, Step.ofBrackets_concat_of_same rfl fun start parent =>
      FileNode.inStep_concat start parent rfl rfl rfl]
    exact ⟨h.current, h.openFiles⟩

/-- When all files of the compile step are closed, the next one begins behind
it. -/
theorem within_openStep (h : b.Within step) (hclosed : stillOpen step = []) :
    b.openStep.Within [] ∧ b.openStep.done.steps = b.done.steps ++ [Step.ofBrackets step] := by
  refine ⟨⟨rfl, ?_, rfl⟩, steps_of_current h.current⟩
  change b.openFiles = _
  rw [h.openFiles, hclosed]
  rfl

/-! ## All records -/

/-- From inside a compile step, the records complete it and make the steps behind
it. -/
theorem steps_foldl_of_within {rest : List Record} (h : b.Within step)
    (hstep : Bracketed (step ++ rest.takeWhile (· ≠ .processor)))
    (hsteps : ∀ later ∈ steps rest, Bracketed later)
    (hread : ∀ r, .expansion r ∈ rest → Edit.ofRecord r = Edit.zeroBased r) :
    (rest.foldl apply b).finish.steps = b.done.steps ++
      Step.ofBrackets (step ++ rest.takeWhile (· ≠ .processor)) ::
        (steps rest).map Step.ofBrackets := by
  -- the records left to read shrink, and those of the open step so far grow
  induction rest generalizing b step with
  | nil => simp [steps, steps_of_current h.current]
  | cons record rest ih =>
    have hrest : ∀ r, .expansion r ∈ rest → Edit.ofRecord r = Edit.zeroBased r :=
      fun r hr => hread r (List.mem_cons_of_mem _ hr)
    by_cases hrecord : record = .processor
    · subst hrecord
      rw [steps_processor] at hsteps
      obtain ⟨hnext, hlater⟩ := List.forall_mem_cons.mp hsteps
      have hdone : stillOpen step = [] := by simpa using hstep.closed
      obtain ⟨hwithin, hbefore⟩ := within_openStep h hdone
      rw [List.foldl_cons, steps_processor]
      exact (ih hwithin hnext hlater hrest).trans (by simp [hbefore])
    · have hmore : step ++ (record :: rest).takeWhile (· ≠ .processor) =
          step ++ [record] ++ rest.takeWhile (· ≠ .processor) := by
        simp [hrecord]
      rw [hmore] at hstep ⊢
      rw [steps_cons_of_ne hrecord] at hsteps ⊢
      have hwithin := within_apply h hrecord hstep.inOrder.left
        fun r hr => hread r (hr ▸ List.mem_cons_self)
      rw [List.foldl_cons, ih hwithin hstep hsteps hrest, (grown_apply h.current hrecord).1]

/-- Outside a compile step, only paths are taken from the records. -/
theorem apply_of_none {record : Record} (hcurrent : b.current = none)
    (hrecord : record ≠ .processor) :
    (b.apply record).current = none ∧ (b.apply record).openFiles = b.openFiles ∧
      (b.apply record).done.steps = b.done.steps := by
  obtain ⟨done, current, openFiles, edited⟩ := b
  subst hcurrent
  cases record with
  | processor => exact absurd rfl hrecord
  | fileStart | namePart | fileEnd | expansion | error | ignored | unrecognized =>
    exact ⟨rfl, rfl, rfl⟩

/-- Before the first compile step, the records make all steps that there will
be. -/
theorem steps_foldl_of_none {records : List Record} (hcurrent : b.current = none)
    (hopen : b.openFiles = []) (hsteps : ∀ step ∈ steps records, Bracketed step)
    (hread : ∀ r, .expansion r ∈ records → Edit.ofRecord r = Edit.zeroBased r) :
    (records.foldl apply b).finish.steps = b.done.steps ++ (steps records).map Step.ofBrackets := by
  induction records generalizing b with
  | nil => simp [steps, finish, hcurrent]
  | cons record rest ih =>
    have hrest : ∀ r, .expansion r ∈ rest → Edit.ofRecord r = Edit.zeroBased r :=
      fun r hr => hread r (List.mem_cons_of_mem _ hr)
    by_cases hrecord : record = .processor
    · subst hrecord
      rw [steps_processor] at hsteps ⊢
      obtain ⟨hnext, hlater⟩ := List.forall_mem_cons.mp hsteps
      have hwithin : b.openStep.Within [] := ⟨rfl, hopen, rfl⟩
      have hbefore : b.openStep.done.steps = b.done.steps := by simp [openStep, finish, hcurrent]
      rw [List.foldl_cons]
      exact (steps_foldl_of_within hwithin hnext hlater hrest).trans (by simp [hbefore])
    · obtain ⟨hcurrent', hopen', hdone⟩ := apply_of_none hcurrent hrecord
      rw [steps_cons_of_ne hrecord] at hsteps ⊢
      rw [List.foldl_cons, ih hcurrent' (hopen'.trans hopen) hsteps hrest, hdone]

end Builder

/-- The bounds of an expansion are numbers of 64 bits, so one less is too, or it
is below the least of them. -/
theorem Edit.ofRecord_eq {listing : Listing} {r : Record.Expansion}
    (hr : .expansion r ∈ listing.records) : Edit.ofRecord r = Edit.zeroBased r := by
  obtain ⟨line, -, hdecode⟩ := exists_decode hr
  obtain ⟨id, -, rfl⟩ := ok_of_map_eq_ok (reads_of_decode hdecode)
  have hrange : ∀ first last : Field,
      Edit.range (first.word64 line) (last.word64 line) =
        LineRange.zeroBased (first.word64 line) (last.word64 line) := by
    intro first last
    have hsub : ∀ (field : Field) (n : Int), field.word64 line = some n →
        Saturating.sub n 1 = max Saturating.least (n - 1) := by
      intro field n hn
      have hle := (Field.word64_inRange hn).2
      unfold Saturating.sub Saturating.clamp
      omega
    cases hfirst : first.word64 line with
    | none => rfl
    | some n =>
      cases hlast : last.word64 line with
      | none => rfl
      | some m =>
        simp only [Edit.range, LineRange.zeroBased, hsub first n hfirst, hsub last m hlast]
  unfold Edit.ofRecord Edit.zeroBased
  rw [hrange, hrange]

/-! ## The law -/

/-- When the file starts and file ends of each compile step are brackets, every
step of the forest is read off its own records: one file for each file start, in
the same order, with what the records say of it. -/
theorem brackets_decide_the_forest (listing : Listing)
    (h : ∀ step ∈ steps listing.records, Bracketed step) :
    (Forest.ofListing listing).steps = (steps listing.records).map Step.ofBrackets := by
  have hread : ∀ r, .expansion r ∈ listing.records → Edit.ofRecord r = Edit.zeroBased r :=
    fun r hr => Edit.ofRecord_eq hr
  exact Builder.steps_foldl_of_none rfl rfl h hread

/-- Two compile steps, the first one with a copy inside a copy. The second step
opens one of their numbers once more. -/
def bracketedTwice : Listing := Listing.ofLines [
  "PROCESSOR  0 000 1",
  "FILEID     0 001 000000 013 LIB/SRC(ROOT) 20230101120000 0",
  "FILEID     0 002 000003 012 LIB/CPY(CPA) 20230101120000 0",
  "ERROR      0 002 1 000002 000002 001 000002 010 RNF1234 S 30 005 early",
  "FILEID     0 003 000001 012 LIB/CPY(CPB) 20230101120000 0",
  "FILEEND    0 003 000002",
  "FILEEND    0 002 000004",
  "EXPANSION  0 002 000002 000003 001 000004 00000x",
  "ERROR      0 002 1 000003 000003 001 000003 010 RNF1234 S 30 004 late",
  "ERROR      0 002 1 000003 000003 001 00000x 010 RNF1234 S 30 004 lost",
  "FILEEND    0 001 000009",
  "PROCESSOR  0 000 2",
  "FILEID     0 002 000000 012 LIB/SRC(MAIN) 20230101120000 0",
  "FILEEND    0 002 000003"]

theorem both_steps_are_read_off :
    (∀ step ∈ steps bracketedTwice.records, Bracketed step) ∧
      (Forest.ofListing bracketedTwice).steps =
        (steps bracketedTwice.records).map Step.ofBrackets ∧
      (Forest.ofListing bracketedTwice).steps.map (·.files.map fun file =>
          (file.id.number, file.parent.map (·.number), file.length)) =
        [[(1, none, some 9), (2, some 1, some 4), (3, some 2, some 2)], [(2, none, some 3)]] ∧
      (Forest.ofListing bracketedTwice).steps.map (·.files.map fun file =>
          (file.errors.map fun e => (e.line, e.afterEdit), file.edits.map (·.generated.high))) =
        [[([], []), ([(1, false), (2, true)], [-1]), ([], [])], [([], [])]] := by
  have h : ∀ step ∈ steps bracketedTwice.records, Bracketed step := by decide +kernel
  refine ⟨h, brackets_decide_the_forest bracketedTwice h, ?_⟩
  decide +kernel

end EventListing
