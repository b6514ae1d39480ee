-- What each step of a mapping does to its two parts. Errors leave the map of
-- lines alone, and files and edits leave the diagnostics alone. The errors of
-- a file are all brought to their sources by the lines of one moment.
import EventListing.Proofs.DiagnosticMap
import EventListing.Resolution.Correction
import EventListing.Resolution.Mapping

namespace EventListing

/-- The error of a record has the record's line, counted from zero, and
becomes the diagnostic of the record at any line of a source. -/
theorem RawError.of_ofRecord? {r : Record.Error} {afterEdit : Bool} {e : RawError}
    (h : RawError.ofRecord? r afterEdit = some e) :
    ∃ line, r.line = some line ∧ e.line = Saturating.sub line 1 ∧ e.afterEdit = afterEdit ∧
      ∀ n, e.resolvedAt n = Resolution.diagnosticAt r n := by
  obtain ⟨line, hline, rfl⟩ := Option.map_eq_some_iff.mp h
  exact ⟨line, hline, rfl, rfl, fun n => rfl⟩

namespace Resolution.Mapping

open LineMap

/-! ## Errors leave the lines alone -/

@[simp] theorem lines_lookUp (m : Mapping) (e : RawError) : (m.lookUp e).lines = m.lines := by
  unfold lookUp
  split <;> rfl

@[simp] theorem lines_addEarly (paths : OrderedMap FileId String) (step : Step) (file : FileNode)
    (m : Mapping) (e : RawError) : (addEarly paths step file m e).lines = m.lines := by
  unfold addEarly
  split
  · exact lines_lookUp m e
  · split <;> rfl

theorem lines_foldl {α : Type} {f : Mapping → α → Mapping} (hf : ∀ m a, (f m a).lines = m.lines)
    (l : List α) (m : Mapping) : (l.foldl f m).lines = m.lines := by
  induction l generalizing m with
  | nil => rfl
  | cons a l ih => rw [List.foldl_cons, ih, hf]

theorem lines_beforeEdits (paths : OrderedMap FileId String) (inlines : Bool) (step : Step)
    (m : Mapping) (file : FileNode) :
    (beforeEdits paths inlines step m file).lines =
      if inlines then (m.inline step file).lines else m.lines := by
  unfold beforeEdits
  rw [lines_foldl (lines_addEarly paths step file)]
  split <;> rfl

theorem lines_withEdits (step : Step) (m : Mapping) (file : FileNode) :
    (withEdits step m file).lines = (file.edits.foldl (applyEdit step file) m).lines :=
  lines_foldl lines_lookUp _ _

/-- A step whose files have no edits only puts its files in. -/
theorem lines_foldl_withEdits {step : Step} {files : List FileNode}
    (h : ∀ file ∈ files, file.edits = []) (m : Mapping) :
    (files.foldl (withEdits step) m).lines = m.lines := by
  induction files generalizing m with
  | nil => rfl
  | cons file files ih =>
    rw [List.foldl_cons, ih (fun f hf => h f (List.mem_cons_of_mem _ hf)), lines_withEdits,
      h file List.mem_cons_self]
    rfl

/-! ## One file alone -/

/-- A file that is put in, and whose place is known, adds its own lines
there. -/
theorem lines_inline {step : Step} {m : Mapping} {file : FileNode} {position : Int}
    (hbase : file.id ≠ FileId.baseUnit) (hat : step.absoluteStart? file = some position) :
    (m.inline step file).lines =
      m.lines.insert position (numbered file.path (file.length.getD 0).toNat false) := by
  unfold inline
  rw [if_neg hbase, hat]
  rfl

theorem absoluteStart?_root (step : Step) {file : FileNode} (hstart : file.startsAt = some (-1))
    (hparent : file.parent = none) : step.absoluteStart? file = some 0 := by
  unfold Step.absoluteStart?
  rw [hstart, hparent]
  cases step.files.length <;> rfl

/-- The root of a step stands alone in the map when it was put in. -/
theorem lines_inline_root (step : Step) {file : FileNode} (hbase : file.id ≠ FileId.baseUnit)
    (hstart : file.startsAt = some (-1)) (hparent : file.parent = none) :
    (start.inline step file).lines = ⟨numbered file.path (file.length.getD 0).toNat false⟩ := by
  rw [lines_inline hbase (absoluteStart?_root step hstart hparent)]
  simp [LineMap.insert, start, LineMap.empty, spliceIndex]

/-! ## Files and edits leave the diagnostics alone -/

@[simp] theorem diagnostics_inline (step : Step) (m : Mapping) (file : FileNode) :
    (m.inline step file).diagnostics = m.diagnostics := by
  unfold inline
  split
  · rfl
  · split <;> rfl

@[simp] theorem diagnostics_applyEdit (step : Step) (file : FileNode) (m : Mapping) (edit : Edit) :
    (applyEdit step file m edit).diagnostics = m.diagnostics := by
  unfold applyEdit
  split
  · split
    · rfl
    · split <;> rfl
  · split
    · split <;> rfl
    · rfl

@[simp] theorem diagnostics_foldl_applyEdit (step : Step) (file : FileNode) (edits : List Edit)
    (m : Mapping) : (edits.foldl (applyEdit step file) m).diagnostics = m.diagnostics := by
  induction edits generalizing m with
  | nil => rfl
  | cons edit edits ih => rw [List.foldl_cons, ih, diagnostics_applyEdit]

/-! ## Errors by the lines of one moment -/

/-- The place of an error by the lines, under the path of its origin. -/
def located (lines : LineMap) (e : RawError) : Option (String × Diagnostic) :=
  (lines.resolve? e.line).map fun origin => (origin.path, e.resolvedAt origin.line)

/-- The place of an error before any edit. -/
def locatedEarly (paths : OrderedMap FileId String) (step : Step) (file : FileNode)
    (lines : LineMap) (e : RawError) : Option (String × Diagnostic) :=
  if step.files.length = 1 ∨ file.id = FileId.root then located lines e
  else (paths.get? file.id).map fun path => (path, e.resolvedAt (Saturating.add e.line 1))

theorem diagnostics_lookUp (m : Mapping) (e : RawError) :
    (m.lookUp e).diagnostics = m.diagnostics.pushAll (located m.lines e).toList := by
  unfold lookUp located
  cases m.lines.resolve? e.line <;> rfl

theorem diagnostics_addEarly (paths : OrderedMap FileId String) (step : Step) (file : FileNode)
    (m : Mapping) (e : RawError) :
    (addEarly paths step file m e).diagnostics =
      m.diagnostics.pushAll (locatedEarly paths step file m.lines e).toList := by
  unfold addEarly locatedEarly
  split
  · exact diagnostics_lookUp m e
  · cases paths.get? file.id <;> rfl

/-- Steps that leave the lines alone and add what they find by them find it
all by the lines of the first moment. -/
theorem diagnostics_foldl {α : Type} {f : Mapping → α → Mapping}
    {g : LineMap → α → Option (String × Diagnostic)} (hlines : ∀ m a, (f m a).lines = m.lines)
    (hf : ∀ m a, (f m a).diagnostics = m.diagnostics.pushAll (g m.lines a).toList)
    (l : List α) (m : Mapping) :
    (l.foldl f m).diagnostics = m.diagnostics.pushAll (l.filterMap (g m.lines)) := by
  induction l generalizing m with
  | nil => rfl
  | cons a l ih =>
    rw [List.foldl_cons, ih, hf, hlines, ← DiagnosticMap.pushAll_append, List.filterMap_cons]
    cases g m.lines a <;> rfl

/-- Before the edits, a file adds its errors by the lines that it leaves. -/
theorem diagnostics_beforeEdits (paths : OrderedMap FileId String) (inlines : Bool) (step : Step)
    (m : Mapping) (file : FileNode) :
    (beforeEdits paths inlines step m file).diagnostics =
      m.diagnostics.pushAll ((file.errors.filter (!·.afterEdit)).filterMap
        (locatedEarly paths step file (beforeEdits paths inlines step m file).lines)) := by
  rw [lines_beforeEdits]
  unfold beforeEdits
  rw [diagnostics_foldl (lines_addEarly paths step file) (diagnostics_addEarly paths step file)]
  cases inlines
  · rfl
  · simp only [if_true, diagnostics_inline]

/-- With its edits made, a file adds its other errors by the lines that it
leaves. -/
theorem diagnostics_withEdits (step : Step) (m : Mapping) (file : FileNode) :
    (withEdits step m file).diagnostics =
      m.diagnostics.pushAll ((file.errors.filter (·.afterEdit)).filterMap
        (located (withEdits step m file).lines)) := by
  rw [lines_withEdits]
  unfold withEdits
  rw [diagnostics_foldl lines_lookUp diagnostics_lookUp, diagnostics_foldl_applyEdit]

end Resolution.Mapping

end EventListing
