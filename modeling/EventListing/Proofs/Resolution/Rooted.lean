-- One compile step without edits, whose files nest in one root. The root comes
-- first, so it is alone in the map while its errors are looked up. The errors of
-- the other files are not looked up, and stay where their records report them.
import EventListing.Proofs.Forest.Nesting
import EventListing.Proofs.LineMap.Splice
import EventListing.Proofs.Record.Width
import EventListing.Proofs.Resolution.Lines

namespace EventListing

open LineMap Resolution

/-! ## Where the records report their errors -/

/-- The error at the line that its record reports, under the first path of its
file number. -/
def reportedAt? (records : List Record) (r : Record.Error) : Option (String × Diagnostic) :=
  (firstPath? records r.fileId).bind fun path =>
    r.line.map fun line => (path, diagnosticAt r line)

/-- The diagnostics of one file number, each at the line that its record
reports. -/
def reportedOf (records : List Record) (id : FileId) : List (String × Diagnostic) :=
  ((Record.errors records).filter (·.fileId = id)).filterMap (reportedAt? records)

/-! ## What the files add -/

/-- Where `f` finds nothing unless `g` does, both find the same in a list only
if they find the same for each element. -/
theorem filterMap_eq_filterMap_iff {α β : Type} {f g : α → Option β} {l : List α}
    (h : ∀ a ∈ l, g a = none → f a = none) :
    l.filterMap f = l.filterMap g ↔ ∀ a ∈ l, f a = g a := by
  refine ⟨?_, List.filterMap_congr⟩
  intro heq
  induction l with
  | nil => exact List.forall_mem_nil _
  | cons a l ih =>
    obtain ⟨ha, hl⟩ := List.forall_mem_cons.mp h
    rw [List.forall_mem_cons]
    rw [List.filterMap_cons, List.filterMap_cons] at heq
    cases hg : g a with
    | none =>
      rw [ha hg, hg] at heq
      exact ⟨ha hg, ih hl heq⟩
    | some b =>
      cases hf : f a with
      | some b' =>
        rw [hf, hg] at heq
        obtain ⟨rfl, hrest⟩ := List.cons_eq_cons.mp heq
        exact ⟨rfl, ih hl hrest⟩
      | none =>
        -- then `f` finds fewer than `g`
        rw [hf, hg] at heq
        have hlength := congrArg List.length heq
        have hle : l.countP (fun x => (f x).isSome) ≤ l.countP (fun x => (g x).isSome) := by
          refine List.countP_mono_left ?_
          intro x hx hsome
          rw [Option.isSome_iff_ne_none] at hsome ⊢
          exact fun hnone => hsome (hl x hx hnone)
        simp only [List.length_cons, List.length_filterMap_eq_countP] at hlength
        omega

namespace Resolution.Mapping

/-- Files that each add what `g` says add it one after the other. -/
theorem diagnostics_foldl_files {f : Mapping → FileNode → Mapping}
    {g : FileNode → List (String × Diagnostic)} {files : List FileNode}
    (h : ∀ file ∈ files, ∀ m, (f m file).diagnostics = m.diagnostics.pushAll (g file))
    (m : Mapping) : (files.foldl f m).diagnostics = m.diagnostics.pushAll (files.flatMap g) := by
  induction files generalizing m with
  | nil => rfl
  | cons file files ih =>
    rw [List.foldl_cons, ih (fun f hf => h f (List.mem_cons_of_mem _ hf)),
      h file List.mem_cons_self, ← DiagnosticMap.pushAll_append, List.flatMap_cons]

/-- An error goes to a line of a path exactly when that line stands at its
place. -/
theorem located_eq_some_iff {m : LineMap} {r : Record.Error} {e : RawError} {path : String}
    {line : Int} (he : RawError.ofRecord? r false = some e) (hline : r.line = some line)
    (hsub : Saturating.sub line 1 = line - 1) (hone : 1 ≤ line) :
    located m e = some (path, diagnosticAt r line) ↔
      m.lines[(line - 1).toNat]? = some ⟨path, line.toNat, false⟩ := by
  obtain ⟨line', hline', heline, -, hresolved⟩ := RawError.of_ofRecord? he
  rw [hline] at hline'
  cases hline'
  unfold located LineMap.resolve? LineMap.get?
  rw [heline, hsub, if_pos (by omega)]
  cases m.lines[(line - 1).toNat]? with
  | none => simp
  | some origin =>
    obtain ⟨path', line', isSql⟩ := origin
    cases isSql with
    | true => simp [Option.filter_some]
    | false =>
      simp only [Option.filter_some, Bool.not_false, if_true, Option.map_some, hresolved,
        Option.some.injEq, Prod.mk.injEq, Origin.mk.injEq, and_true]
      refine and_congr_right fun _ => ?_
      constructor
      · intro hd
        have hat : (line' : Int) = line := congrArg Diagnostic.line hd
        omega
      · rintro rfl
        rw [Int.toNat_of_nonneg (by omega)]

end Resolution.Mapping

/-! ## A rooted step -/

/-- The listing is one compile step without edits, whose files nest in the root.
Every error names a file that was opened before it, and those of the root stand
at lines of the root. -/
structure Rooted (records : List Record) (opened : Record.FileStart) (inside : Nesting)
    (length : Option Int) : Prop where
  step : OneStep records (.file opened inside length .nil)
  root_id : opened.fileId = FileId.root
  root_line : opened.line = some 0
  errors_opened : Record.ErrorsOpened records
  root_errors : ∀ r ∈ Record.errors records, r.fileId = FileId.root →
    ∀ line, r.line = some line → 1 ≤ line ∧ line ≤ length.getD 0

/-- The diagnostics of the errors of the root, by the lines of the unit. -/
def rootFound (records : List Record) (lines : LineMap) : List (String × Diagnostic) :=
  ((Record.errors records).filter (·.fileId = FileId.root)).filterMap fun r =>
    (RawError.ofRecord? r false).bind (Mapping.located lines)

namespace Rooted

/-- The file has the errors that were reported for its number, before any
edit. -/
def HasReported (records : List Record) (file : FileNode) : Prop :=
  file.errors = ((Record.errors records).filter (·.fileId = file.id)).filterMap
    (RawError.ofRecord? · false)

namespace HasReported

variable {listing : Listing} {file : FileNode}

theorem afterEdit {records : List Record} (h : HasReported records file) :
    ∀ e ∈ file.errors, e.afterEdit = false := by
  intro e he
  rw [h] at he
  obtain ⟨r, -, hr⟩ := List.mem_filterMap.mp he
  obtain ⟨-, -, -, hflag, -⟩ := RawError.of_ofRecord? hr
  exact hflag

theorem diagnostics_beforeEdits {records : List Record} (h : HasReported records file)
    (paths : OrderedMap FileId String) (inlines : Bool) (step : Step) (m : Mapping) :
    (Mapping.beforeEdits paths inlines step m file).diagnostics = m.diagnostics.pushAll
      (file.errors.filterMap (Mapping.locatedEarly paths step file
        (if inlines then (m.inline step file).lines else m.lines))) := by
  have hearly : file.errors.filter (!·.afterEdit) = file.errors :=
    List.filter_eq_self.mpr fun e he => by simp [h.afterEdit e he]
  rw [Mapping.diagnostics_beforeEdits, hearly, Mapping.lines_beforeEdits]

/-- The errors of a file that is not looked up stay where their records report
them. -/
theorem filterMap_locatedEarly (h : HasReported listing.records file)
    {paths : OrderedMap FileId String}
    (hpaths : ∀ id, paths.get? id = firstPath? listing.records id) {step : Step}
    (hdirect : ¬ (step.files.length = 1 ∨ file.id = FileId.root)) (lines : LineMap) :
    file.errors.filterMap (Mapping.locatedEarly paths step file lines) =
      reportedOf listing.records file.id := by
  rw [h, List.filterMap_filterMap]
  refine List.filterMap_congr ?_
  intro r hr
  obtain ⟨hmem, hid⟩ := List.mem_filter.mp hr
  have hid' : r.fileId = file.id := by simpa using hid
  unfold reportedAt?
  cases hline : r.line with
  | none => cases firstPath? listing.records r.fileId <;> simp [RawError.ofRecord?, hline]
  | some line =>
    obtain ⟨e, he⟩ : ∃ e, RawError.ofRecord? r false = some e := by
      simp [RawError.ofRecord?, hline]
    obtain ⟨line', hline', heline, -, hresolved⟩ := RawError.of_ofRecord? he
    rw [hline] at hline'
    cases hline'
    rw [he, Option.bind_some]
    unfold Mapping.locatedEarly
    rw [if_neg hdirect, hpaths, hid', heline,
      Record.add_sub_line (Record.mem_errors.mp hmem) hline]
    cases firstPath? listing.records file.id <;> simp [hresolved]

end HasReported

theorem diagnostics_foldl_withEdits {records : List Record} {step : Step} {files : List FileNode}
    (hfiles : ∀ file ∈ files, HasReported records file) (m : Mapping) :
    (files.foldl (Mapping.withEdits step) m).diagnostics = m.diagnostics := by
  induction files generalizing m with
  | nil => rfl
  | cons file files ih =>
    have hlate : file.errors.filter (·.afterEdit) = [] := List.filter_eq_nil_iff.mpr fun e he => by
      simp [(hfiles file List.mem_cons_self).afterEdit e he]
    rw [List.foldl_cons, ih fun f hf => hfiles f (List.mem_cons_of_mem _ hf),
      Mapping.diagnostics_withEdits, hlate]
    rfl

/-! ### The step in the forest -/

variable {listing : Listing} {opened : Record.FileStart} {inside : Nesting}
variable {length : Option Int}

/-- The step that the forest makes of such a listing: the root comes first, and
every file has the errors that were reported for it. -/
structure Made (records : List Record) (opened : Record.FileStart) (inside : Nesting)
    (length : Option Int) (step : Step) (root : FileNode) (others : List FileNode) : Prop where
  files : step.files = root :: others
  root_bare : root.bare = ⟨opened.fileId, none, opened.startsAt, length,
    UnitName.path opened.name, [], []⟩
  others_ids : others.map (·.id) = inside.ids
  edits : ∀ file ∈ step.files, file.edits = []
  reported : ∀ file ∈ step.files, HasReported records file

theorem exists_made (h : Rooted listing.records opened inside length) :
    ∃ step root others, (Forest.ofRecords listing.records).steps = [step] ∧
      Made listing.records opened inside length step root others := by
  obtain ⟨step, hsteps, hbare, herrors⟩ := h.step.forest_steps
  rw [h.errors_opened] at herrors
  obtain ⟨root, others, hcons, hroot, hothers⟩ := List.map_eq_cons_iff.mp
    (show step.files.map FileNode.bare = _ :: _ from hbare)
  refine ⟨step, root, others, hsteps, hcons, hroot, ?_, ?_, herrors⟩
  · have hbareIds : others.map (·.id) = (others.map FileNode.bare).map (·.id) := by
      rw [List.map_map]
      rfl
    rw [hbareIds, hothers, List.map_append, Nesting.map_id_nodes]
    simp [Nesting.nodes]
  · intro file hfile
    obtain ⟨-, -, -, -, hedits⟩ := Nesting.mem_starts_of_mem hbare hfile
    exact hedits

/-- The root comes first, so it is alone in the map while its errors are looked
up. -/
theorem lines_inline_first (h : Rooted listing.records opened inside length) (step : Step)
    {root : FileNode}
    (hroot : root.bare = ⟨opened.fileId, none, opened.startsAt, length,
      UnitName.path opened.name, [], []⟩) :
    (Mapping.start.inline step root).lines =
      ⟨numbered (UnitName.path opened.name) (length.getD 0).toNat false⟩ := by
  have hunit : root.id ≠ FileId.baseUnit := by
    rw [show root.id = FileId.root from (congrArg FileNode.id hroot).trans h.root_id]
    decide
  have hstart : root.startsAt = some (-1) := by
    refine (congrArg FileNode.startsAt hroot).trans ?_
    rw [Record.FileStart.startsAt, h.root_line]
    rfl
  have hpath : root.path = UnitName.path opened.name := congrArg FileNode.path hroot
  have hlength : root.length = length := congrArg FileNode.length hroot
  rw [Mapping.lines_inline_root step hunit hstart (congrArg FileNode.parent hroot), hpath, hlength]

theorem firstPath?_root (h : Rooted listing.records opened inside length) :
    firstPath? listing.records FileId.root = some (UnitName.path opened.name) := by
  unfold firstPath?
  rw [← h.root_id,
    h.step.firstStart? (List.mem_cons_self : opened ∈ (Nesting.file opened _ _ _).starts)]
  rfl

/-- The errors of the root are found where their records report them exactly when
each of their lines stands at its own place. -/
theorem rootFound_eq_iff (h : Rooted listing.records opened inside length) (m : LineMap) :
    rootFound listing.records m = reportedOf listing.records FileId.root ↔
      ∀ r ∈ Record.errors listing.records, r.fileId = FileId.root →
        ∀ line, r.line = some line →
          m.lines[(line - 1).toNat]? = some ⟨UnitName.path opened.name, line.toNat, false⟩ := by
  have hunread : ∀ r : Record.Error, r.line = none →
      (RawError.ofRecord? r false).bind (Mapping.located m) = none := by
    intro r hline
    simp [RawError.ofRecord?, hline]
  have hread : ∀ r ∈ Record.errors listing.records, r.fileId = FileId.root →
      ∀ line, r.line = some line →
        reportedAt? listing.records r = some (UnitName.path opened.name, diagnosticAt r line) ∧
        ((RawError.ofRecord? r false).bind (Mapping.located m) = reportedAt? listing.records r ↔
          m.lines[(line - 1).toNat]? = some ⟨UnitName.path opened.name, line.toNat, false⟩) := by
    intro r hr hid line hline
    have hat : reportedAt? listing.records r =
        some (UnitName.path opened.name, diagnosticAt r line) := by
      unfold reportedAt?
      rw [hid, h.firstPath?_root, hline]
      rfl
    obtain ⟨e, he⟩ : ∃ e, RawError.ofRecord? r false = some e := by
      simp [RawError.ofRecord?, hline]
    refine ⟨hat, ?_⟩
    rw [he, Option.bind_some, hat]
    exact Mapping.located_eq_some_iff he hline (Record.sub_line (Record.mem_errors.mp hr) hline)
      (h.root_errors r hr hid line hline).1
  unfold rootFound reportedOf
  rw [filterMap_eq_filterMap_iff]
  · constructor
    · intro hall r hr hid line hline
      exact (hread r hr hid line hline).2.mp (hall r (List.mem_filter.mpr ⟨hr, by simp [hid]⟩))
    · intro hall r hr
      obtain ⟨hmem, hid⟩ := List.mem_filter.mp hr
      rw [decide_eq_true_eq] at hid
      cases hline : r.line with
      | none =>
        rw [hunread r hline, reportedAt?, hline]
        cases firstPath? listing.records r.fileId <;> rfl
      | some line => exact (hread r hmem hid line hline).2.mpr (hall r hmem hid line hline)
  · intro r hr hnone
    obtain ⟨hmem, hid⟩ := List.mem_filter.mp hr
    rw [decide_eq_true_eq] at hid
    cases hline : r.line with
    | none => exact hunread r hline
    | some line =>
      rw [(hread r hmem hid line hline).1] at hnone
      cases hnone

/-- Alone in the map, the root leaves its errors where their records report
them. -/
theorem rootFound_numbered (h : Rooted listing.records opened inside length) :
    rootFound listing.records
        ⟨numbered (UnitName.path opened.name) (length.getD 0).toNat false⟩ =
      reportedOf listing.records FileId.root := by
  refine (h.rootFound_eq_iff _).mpr ?_
  intro r hr hid line hline
  obtain ⟨hone, hle⟩ := h.root_errors r hr hid line hline
  have hnat : line.toNat = (line - 1).toNat + 1 := by omega
  rw [hnat]
  exact getElem?_numbered (by omega)

/-- The step adds the errors of the root by the lines of the unit, and those of
the other files where the records report them. -/
theorem diagnostics_addStep (h : Rooted listing.records opened inside length) {step : Step}
    {root : FileNode} {others : List FileNode}
    (hmade : Made listing.records opened inside length step root others)
    {paths : OrderedMap FileId String}
    (hpaths : ∀ id, paths.get? id = firstPath? listing.records id) (inlines : Bool) (m : Mapping) :
    (Mapping.addStep paths inlines m step).diagnostics = m.diagnostics.pushAll
      (rootFound listing.records (if inlines then (m.inline step root).lines else m.lines) ++
        inside.ids.flatMap (reportedOf listing.records)) := by
  have hrootId : root.id = FileId.root := (congrArg FileNode.id hmade.root_bare).trans h.root_id
  have hfirst : (Mapping.beforeEdits paths inlines step m root).diagnostics =
      m.diagnostics.pushAll (rootFound listing.records
        (if inlines then (m.inline step root).lines else m.lines)) := by
    have hreported := hmade.reported root (hmade.files ▸ List.mem_cons_self)
    have hlooked : ∀ lines, Mapping.locatedEarly paths step root lines = Mapping.located lines := by
      intro lines
      funext e
      exact if_pos (Or.inr hrootId)
    rw [hreported.diagnostics_beforeEdits, hlooked, hreported, hrootId, List.filterMap_filterMap]
    rfl
  have hrest : ∀ file ∈ others, ∀ m : Mapping,
      (Mapping.beforeEdits paths inlines step m file).diagnostics =
        m.diagnostics.pushAll (reportedOf listing.records file.id) := by
    intro file hfile m
    have hreported := hmade.reported file (hmade.files ▸ List.mem_cons_of_mem _ hfile)
    have hdirect : ¬ (step.files.length = 1 ∨ file.id = FileId.root) := by
      rintro (hlength | hid)
      · rw [hmade.files, List.length_cons] at hlength
        rw [List.length_eq_zero_iff.mp (by omega : others.length = 0)] at hfile
        cases hfile
      · have hnodup := h.step.nodup_ids
        rw [Nesting.ids_file, Nesting.ids_nil, List.append_nil, List.nodup_cons, h.root_id,
          ← hmade.others_ids] at hnodup
        exact hnodup.1 (hid ▸ List.mem_map_of_mem hfile)
    rw [hreported.diagnostics_beforeEdits, hreported.filterMap_locatedEarly hpaths hdirect]
  unfold Mapping.addStep
  rw [diagnostics_foldl_withEdits hmade.reported, hmade.files, List.foldl_cons,
    Mapping.diagnostics_foldl_files hrest, hfirst, ← DiagnosticMap.pushAll_append,
    ← hmade.others_ids, List.flatMap_map]

/-- The errors of all files, file by file. -/
theorem diagnostics_byTree (h : Rooted listing.records opened inside length) :
    byTree listing.records = DiagnosticMap.pushAll ∅
      (reportedOf listing.records FileId.root ++
        inside.ids.flatMap (reportedOf listing.records)) := by
  obtain ⟨step, root, others, hsteps, hmade⟩ := h.exists_made
  have hadded := h.diagnostics_addStep hmade (Forest.paths_ofRecords listing.records) true
    Mapping.start
  rw [if_pos rfl, h.lines_inline_first step hmade.root_bare, h.rootFound_numbered] at hadded
  unfold byTree Mapping.ofForest
  rw [hsteps]
  exact hadded

end Rooted

end EventListing
