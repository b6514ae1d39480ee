-- What a compile step lists is listed for good. A later step adds its own
-- diagnostics behind it. It finds the map of lines as the earlier steps left
-- it, but nobody looks up the earlier errors again, and a file number keeps the
-- path of its first file start.
import Mathlib.Data.List.Basic
import EventListing.Proofs.Forest.Growth
import EventListing.Proofs.Resolution.Lines
import EventListing.Resolution.Strategy

namespace EventListing

/-! ## Maps that begin with another map -/

namespace DiagnosticMap

/-- The paths of the map are the first paths of the new one, and under each
path its diagnostics are the first ones. -/
structure Begins (old new : DiagnosticMap) : Prop where
  keys : old.keys <+: new.keys
  listed : ∀ path, old.listed path <+: new.listed path

theorem Begins.refl (m : DiagnosticMap) : m.Begins m := ⟨List.prefix_rfl, fun _ => List.prefix_rfl⟩

theorem Begins.trans {old mid new : DiagnosticMap} (h : old.Begins mid) (h' : mid.Begins new) :
    old.Begins new :=
  ⟨h.keys.trans h'.keys, fun path => (h.listed path).trans (h'.listed path)⟩

theorem begins_empty (m : DiagnosticMap) : Begins ∅ m := ⟨List.nil_prefix, fun _ => List.nil_prefix⟩

theorem begins_push (m : DiagnosticMap) (path : String) (d : Diagnostic) :
    m.Begins (m.push path d) := by
  refine ⟨?_, ?_⟩
  · unfold push extend
    rw [OrderedMap.keys_alter]
    split
    · exact List.prefix_rfl
    · exact List.prefix_append _ _
  · intro q
    rw [listed_push]
    exact List.prefix_append _ _

theorem begins_pushAll (m : DiagnosticMap) (found : List (String × Diagnostic)) :
    m.Begins (m.pushAll found) := by
  induction found generalizing m with
  | nil => exact Begins.refl m
  | cons entry found ih => exact (begins_push m entry.1 entry.2).trans (ih _)

end DiagnosticMap

/-! ## One compile step -/

namespace Resolution.Mapping

/-- Each element leaves what is listed where it is, so all of them do. -/
theorem begins_foldl {α : Type} {f : Mapping → α → Mapping}
    (hf : ∀ (m : Mapping) a, m.diagnostics.Begins (f m a).diagnostics) (l : List α) (m : Mapping) :
    m.diagnostics.Begins (l.foldl f m).diagnostics := by
  induction l generalizing m with
  | nil => exact DiagnosticMap.Begins.refl _
  | cons a l ih => exact (hf m a).trans (ih _)

/-- A compile step lists its diagnostics behind those that are there. -/
theorem begins_addStep (paths : OrderedMap FileId String) (inlines : Bool) (m : Mapping)
    (step : Step) : m.diagnostics.Begins (addStep paths inlines m step).diagnostics := by
  have hearly : ∀ (m : Mapping) file,
      m.diagnostics.Begins (beforeEdits paths inlines step m file).diagnostics := by
    intro m file
    rw [diagnostics_beforeEdits]
    exact DiagnosticMap.begins_pushAll _ _
  have hlate : ∀ (m : Mapping) file,
      m.diagnostics.Begins (withEdits step m file).diagnostics := by
    intro m file
    rw [diagnostics_withEdits]
    exact DiagnosticMap.begins_pushAll _ _
  exact (begins_foldl hearly step.files m).trans (begins_foldl hlate step.files _)

/-- A compile step only asks for the paths of its own files. -/
theorem addStep_congr {paths paths' : OrderedMap FileId String} {step : Step}
    (h : ∀ file ∈ step.files, paths.get? file.id = paths'.get? file.id) (inlines : Bool)
    (m : Mapping) : addStep paths inlines m step = addStep paths' inlines m step := by
  have hearly : ∀ m, ∀ file ∈ step.files,
      beforeEdits paths inlines step m file = beforeEdits paths' inlines step m file := by
    intro m file hfile
    have hadd : addEarly paths step file = addEarly paths' step file := by
      funext m e
      unfold addEarly
      rw [h file hfile]
    unfold beforeEdits
    rw [hadd]
  unfold addStep
  rw [List.foldl_ext _ _ m hearly]

/-- A forest that goes on behind another one goes on from its mapping. -/
theorem ofForest_append {old new : Forest} {more : List Step} (hsome : old.steps ≠ [])
    (hsteps : new.steps = old.steps ++ more)
    (hpaths : ∀ step ∈ old.steps, ∀ file ∈ step.files,
      new.paths.get? file.id = old.paths.get? file.id) :
    ofForest new = more.foldl (addStep new.paths false) (ofForest old) := by
  obtain ⟨steps, paths⟩ := old
  obtain ⟨steps', paths'⟩ := new
  cases steps with
  | nil => exact absurd rfl hsome
  | cons first rest =>
    obtain ⟨hfirst, hrest⟩ := List.forall_mem_cons.mp hpaths
    have hsame : ∀ m, ∀ step ∈ rest, addStep paths' false m step = addStep paths false m step :=
      fun m step hstep => addStep_congr (hrest step hstep) false m
    simp only at hsteps
    subst hsteps
    unfold ofForest
    simp only [List.cons_append, List.foldl_append]
    rw [addStep_congr hfirst, List.foldl_ext _ _ _ hsame]

end Resolution.Mapping

/-! ## The forest before a new compile step -/

namespace Forest

/-- The path of each file of a forest is known. -/
theorem isSome_path_of_mem {records : List Record} {step : Step}
    (hstep : step ∈ (ofRecords records).steps) {file : FileNode} (hfile : file ∈ step.files) :
    ((ofRecords records).paths.get? file.id).isSome := by
  obtain ⟨i, hi⟩ := List.mem_iff_getElem?.mp hstep
  have hid : file.id ∈ (ofRecords records).idsAt i := by
    simp only [idsAt, readAt, hi, Option.map_some, Option.getD_some]
    exact List.mem_map_of_mem hfile
  rw [idsAt_ofRecords] at hid
  have hopened : file.id ∈ Record.openings records :=
    ((Record.ofStep_sublist _ _).filterMap _).subset hid
  rw [paths_ofRecords, Option.isSome_map]
  exact Record.isSome_firstStart?.mpr hopened

/-- When a new compile step begins, all steps before it are complete. -/
theorem steps_append_of_processor (xs ys : List Record) :
    (ofRecords xs).steps <+: (ofRecords (xs ++ .processor :: ys)).steps := by
  set b := xs.foldl Builder.apply Builder.start with hb
  have hkept : (b.apply .processor).finish.KeptIn (ofRecords (xs ++ .processor :: ys)) := by
    unfold ofRecords
    rw [List.foldl_append, List.foldl_cons]
    exact Builder.keptIn_foldl ys _
  have hsteps : (b.apply .processor).finish.steps = (ofRecords xs).steps ++ [Step.empty] :=
    Builder.steps_apply_processor b
  rw [List.prefix_iff_getElem?]
  intro i hi
  rw [hkept.complete i (by simp [hsteps, hi]), hsteps, List.getElem?_append_left hi,
    List.getElem?_eq_getElem hi]

end Forest

/-! ## The law -/

open Resolution

/-- Lines from a new compile step on never change what the way by the forest has
listed before them. The paths come first and in the same order, and each of them
lists its diagnostics before any new ones. -/
theorem later_steps_keep_earlier_diagnostics (before after : Listing) (line : Line)
    (h : Record.decode line = .ok .processor) :
    (Strategy.tree.resolve before).Begins (Strategy.tree.resolve (before ++ line :: after)) := by
  have hline : Listing.records (line :: after) = .processor :: after.records := by
    simp [Listing.records, h, Except.toOption]
  simp only [Strategy.resolve, byTree, Listing.records_append, hline]
  set old := Forest.ofRecords before.records with hold
  set new := Forest.ofRecords (before.records ++ .processor :: after.records) with hnew
  have hkept : old.KeptIn new := by
    rw [hold, hnew]
    unfold Forest.ofRecords
    rw [List.foldl_append]
    exact Builder.keptIn_foldl _ _
  by_cases hsome : old.steps = []
  · have hstart : Mapping.ofForest old = Mapping.start := by
      unfold Mapping.ofForest
      rw [hsome]
    rw [hstart]
    exact DiagnosticMap.begins_empty _
  · obtain ⟨more, hmore⟩ := Forest.steps_append_of_processor before.records after.records
    have hpaths : ∀ step ∈ old.steps, ∀ file ∈ step.files,
        new.paths.get? file.id = old.paths.get? file.id := by
      intro step hstep file hfile
      obtain ⟨path, hpath⟩ := Option.isSome_iff_exists.mp (Forest.isSome_path_of_mem hstep hfile)
      rw [hkept.paths _ _ hpath, hpath]
    rw [Mapping.ofForest_append hsome hmore.symm hpaths]
    exact Mapping.begins_foldl (Mapping.begins_addStep new.paths false) more _

/-- A compile step that leaves one of its files open. -/
def unfinished : Listing := Listing.ofLines [
  "PROCESSOR  0 000 1",
  "FILEID     0 001 000000 013 LIB/SRC(ROOT) 20230101120000 0",
  "ERROR      0 001 1 000003 000003 001 000003 010 RNF7030 S 30 004 root",
  "FILEID     0 002 000003 012 LIB/CPY(CPA) 20230101120000 0",
  "ERROR      0 002 1 000002 000002 001 000002 010 RNF1234 S 30 004 copy",
  "FILEEND    0 001 000004"]

def secondStart : Line := Line.pad "PROCESSOR  0 000 2".toList

/-- A second step that gives the number of the copied member to another one and
takes the second line out of the root. -/
def secondStep : Listing := Listing.ofLines [
  "FILEID     0 002 000000 012 LIB/CPY(CPB) 20230101120000 0",
  "FILEID     0 003 000001 012 LIB/CPY(CPC) 20230101120000 0",
  "FILEID     0 001 000000 013 LIB/SRC(ROOT) 20230101120000 0",
  "ERROR      0 003 1 000007 000007 001 000007 010 RNF1234 S 30 003 new",
  "ERROR      0 002 1 000001 000001 001 000001 010 RNF1234 S 30 005 other",
  "EXPANSION  0 001 000002 000002 001 000000 000000",
  "ERROR      0 001 1 000002 000002 001 000002 010 RNF7030 S 30 005 moved"]

theorem second_step_lists_behind :
    Record.decode secondStart = .ok .processor ∧
      (Strategy.tree.resolve unfinished).Begins
        (Strategy.tree.resolve (unfinished ++ secondStart :: secondStep)) ∧
      (Strategy.tree.resolve unfinished).entries.map (fun e => (e.1, e.2.map (·.line))) =
        [("LIB/SRC/ROOT", [3]), ("LIB/CPY/CPA", [2])] ∧
      (Strategy.tree.resolve (unfinished ++ secondStart :: secondStep)).entries.map
          (fun e => (e.1, e.2.map (·.line))) =
        [("LIB/SRC/ROOT", [3, 3]), ("LIB/CPY/CPA", [2, 1]), ("LIB/CPY/CPC", [7])] := by
  have hdecode : Record.decode secondStart = .ok .processor := by decide +kernel
  refine ⟨hdecode, later_steps_keep_earlier_diagnostics _ _ _ hdecode, ?_⟩
  decide +kernel

end EventListing
