-- The files of a compile step as they nest in each other. A listing writes a
-- file as a file start, the files inside it, and a file end. The forest of
-- such a listing has one node for each file, in the order of the file starts.
import Mathlib.Data.List.Nodup
import EventListing.Proofs.Forest.Bare
import EventListing.Proofs.Forest.Errors

namespace EventListing

/-! ## Files by their numbers -/

/-- Where no number occurs twice, the first entry with the number of an entry
is that entry. -/
theorem find?_of_nodup {α : Type} {number : α → FileId} {entries : List α} {a : α}
    (hnodup : (entries.map number).Nodup) (ha : a ∈ entries) :
    entries.find? (fun entry => number entry = number a) = some a := by
  induction entries with
  | nil => cases ha
  | cons entry entries ih =>
    rw [List.map_cons, List.nodup_cons] at hnodup
    rw [List.find?_cons]
    rcases List.mem_cons.mp ha with rfl | ha'
    · simp
    · have hne : ¬ number entry = number a := fun he =>
        hnodup.1 (he ▸ List.mem_map_of_mem ha')
      simp [hne, ih hnodup.2 ha']

/-! ## Nested files -/

/-- Files that were opened one after another, each with the files that were
opened inside it. The length is the one of the file's own file end. -/
inductive Nesting where
  | nil
  | file (opened : Record.FileStart) (inside : Nesting) (length : Option Int) (next : Nesting)
deriving DecidableEq, Repr

namespace Nesting

/-- The file starts and file ends that the listing writes for the files. -/
def records : Nesting → List Record
  | nil => []
  | file opened inside length next =>
    .fileStart opened :: (inside.records ++ .fileEnd ⟨opened.fileId, length⟩ :: next.records)

/-- The file starts, in the order in which they come. -/
def starts : Nesting → List Record.FileStart
  | nil => []
  | file opened inside _ next => opened :: (inside.starts ++ next.starts)

/-- The file numbers, in the order in which the files were opened. -/
def ids (n : Nesting) : List FileId := n.starts.map (·.fileId)

/-- The bare nodes of the files, when the outermost of them lie in
`parent`. -/
def nodes (parent : Option FileId) : Nesting → List FileNode
  | nil => []
  | file opened inside length next =>
    { id := opened.fileId
      parent := parent
      startsAt := opened.startsAt
      length := length
      path := UnitName.path opened.name
      errors := []
      edits := [] } :: (inside.nodes (some opened.fileId) ++ next.nodes parent)

@[simp] theorem ids_nil : nil.ids = [] := rfl

@[simp] theorem ids_file (opened : Record.FileStart) (inside : Nesting) (length : Option Int)
    (next : Nesting) :
    (file opened inside length next).ids = opened.fileId :: (inside.ids ++ next.ids) := by
  simp [ids, starts]

@[simp] theorem map_id_nodes (parent : Option FileId) (n : Nesting) :
    (n.nodes parent).map (·.id) = n.ids := by
  induction n generalizing parent with
  | nil => rfl
  | file opened inside length next ihInside ihNext => simp [nodes, ihInside, ihNext]

theorem length_nodes (parent : Option FileId) (n : Nesting) :
    (n.nodes parent).length = n.ids.length := by
  rw [← map_id_nodes parent n, List.length_map]

/-- Every node comes from one of the file starts. -/
theorem mem_nodes {parent : Option FileId} {n : Nesting} {node : FileNode}
    (h : node ∈ n.nodes parent) :
    ∃ r ∈ n.starts, node.id = r.fileId ∧ node.path = UnitName.path r.name ∧ node.edits = [] := by
  induction n generalizing parent with
  | nil => cases h
  | file opened inside length next ihInside ihNext =>
    rw [nodes, List.mem_cons, List.mem_append] at h
    rcases h with rfl | h | h
    · exact ⟨opened, List.mem_cons_self, rfl, rfl, rfl⟩
    · obtain ⟨r, hr, hnode⟩ := ihInside h
      exact ⟨r, List.mem_cons_of_mem _ (List.mem_append_left _ hr), hnode⟩
    · obtain ⟨r, hr, hnode⟩ := ihNext h
      exact ⟨r, List.mem_cons_of_mem _ (List.mem_append_right _ hr), hnode⟩

/-- Each file of a step that nests comes from one of the file starts. -/
theorem mem_starts_of_mem {parent : Option FileId} {n : Nesting} {step : Step}
    (h : step.bare.files = n.nodes parent) {file : FileNode} (hfile : file ∈ step.files) :
    ∃ r ∈ n.starts, file.id = r.fileId ∧ file.path = UnitName.path r.name ∧ file.edits = [] := by
  have hbare : file.bare ∈ n.nodes parent := h ▸ List.mem_map_of_mem hfile
  obtain ⟨r, hr, hid, hpath, hedits⟩ := mem_nodes hbare
  exact ⟨r, hr, hid, hpath, hedits⟩

/-- The records of the files are their file starts and file ends. -/
theorem mem_records {n : Nesting} {record : Record} (h : record ∈ n.records) :
    (∃ r ∈ n.starts, record = .fileStart r) ∨ ∃ r, record = .fileEnd r := by
  induction n with
  | nil => cases h
  | file opened inside length next ihInside ihNext =>
    rw [records, List.mem_cons, List.mem_append, List.mem_cons] at h
    rcases h with rfl | h | rfl | h
    · exact Or.inl ⟨opened, List.mem_cons_self, rfl⟩
    · rcases ihInside h with ⟨r, hr, he⟩ | hend
      · exact Or.inl ⟨r, List.mem_cons_of_mem _ (List.mem_append_left _ hr), he⟩
      · exact Or.inr hend
    · exact Or.inr ⟨_, rfl⟩
    · rcases ihNext h with ⟨r, hr, he⟩ | hend
      · exact Or.inl ⟨r, List.mem_cons_of_mem _ (List.mem_append_right _ hr), he⟩
      · exact Or.inr hend

/-- The file starts among the records of the files. -/
theorem firstStart?_records (n : Nesting) (id : FileId) :
    UnitName.firstStart? n.records id = n.starts.find? (·.fileId = id) := by
  suffices h : ∀ rest : List Record, UnitName.firstStart? (n.records ++ rest) id =
      (n.starts.find? (·.fileId = id)).or (UnitName.firstStart? rest id) by
    simpa [UnitName.firstStart?] using h []
  induction n with
  | nil => intro rest; rfl
  | file opened inside length next ihInside ihNext =>
    intro rest
    unfold UnitName.firstStart? at ihInside ihNext ⊢
    simp only [records, starts, List.cons_append, List.append_assoc, List.findSome?_cons,
      List.find?_cons, List.find?_append, ihInside, ihNext]
    by_cases hid : opened.fileId = id <;> simp [hid, Option.or_assoc]

end Nesting

/-! ## The builder on nested files -/

namespace Builder

/-- The first file with a number stands behind all files with other
numbers. -/
theorem indexOf?_append_cons {files more : List FileNode} {node : FileNode} {id : FileId}
    (hfiles : id ∉ files.map (·.id)) (hnode : node.id = id) :
    (⟨files ++ node :: more⟩ : Step).indexOf? id = some files.length := by
  unfold Step.indexOf?
  induction files with
  | nil => simp [List.findIdx?_cons, hnode]
  | cons file files ih =>
    simp only [List.map_cons, List.mem_cons, not_or] at hfiles
    have hne : ¬ file.id = id := fun h => hfiles.1 h.symm
    simp [List.findIdx?_cons, hne, ih hfiles.2]

theorem modify_append_cons (files more : List FileNode) (node : FileNode)
    (change : FileNode → FileNode) :
    (⟨files ++ node :: more⟩ : Step).modify files.length change =
      ⟨files ++ change node :: more⟩ := by
  unfold Step.modify
  congr 1
  induction files with
  | nil => rfl
  | cons file files ih => simp [ih]

/-- The records of nested files add their nodes behind the files that are
there. What was open before is open again. -/
theorem foldl_nesting (n : Nesting) (b : Builder) (files : List FileNode)
    (hcurrent : b.current = some ⟨files⟩) (hids : (files.map (·.id) ++ n.ids).Nodup) :
    let b' := n.records.foldl apply b
    b'.current = some ⟨files ++ n.nodes b.openFiles.head?⟩ ∧ b'.openFiles = b.openFiles ∧
      b'.done.steps = b.done.steps := by
  induction n generalizing b files with
  | nil => simp [Nesting.records, Nesting.nodes, hcurrent]
  | file opened inside length next ihInside ihNext =>
    rw [Nesting.ids_file] at hids
    -- the file is opened
    set node := b.newNode opened with hnode
    set b₁ := b.openFile opened with hb₁
    have hcurrent₁ : b₁.current = some ⟨files ++ [node]⟩ := by
      rw [hb₁, openFile, hcurrent]
    have hopen₁ : b₁.openFiles = opened.fileId :: b.openFiles := by
      rw [hb₁, openFile, hcurrent]
    have hdone₁ : b₁.done.steps = b.done.steps := by
      rw [hb₁, openFile, hcurrent]
    -- the files inside it
    have hids₁ : ((files ++ [node]).map (·.id) ++ inside.ids).Nodup := by
      refine hids.sublist ?_
      simp [hnode, newNode]
    obtain ⟨hcurrent₂, hopen₂, hdone₂⟩ := ihInside b₁ (files ++ [node]) hcurrent₁ hids₁
    set b₂ := inside.records.foldl apply b₁ with hb₂
    rw [hopen₁, List.head?_cons, List.append_assoc, List.singleton_append] at hcurrent₂
    -- its file end
    have hnew : opened.fileId ∉ files.map (·.id) := by
      intro hmem
      exact (List.nodup_append.mp hids).2.2 _ hmem _ List.mem_cons_self rfl
    set node' : FileNode := { node with length := length } with hnode'
    set b₃ := b₂.closeFile ⟨opened.fileId, length⟩ with hb₃
    have hcurrent₃ : b₃.current =
        some ⟨files ++ node' :: inside.nodes (some opened.fileId)⟩ := by
      rw [hb₃, closeFile, hcurrent₂]
      simp only [indexOf?_append_cons hnew (rfl : node.id = opened.fileId), modify_append_cons]
      rfl
    have hopen₃ : b₃.openFiles = b.openFiles := by
      rw [hb₃, closeFile, hcurrent₂, hopen₂, hopen₁, List.tail_cons]
    have hdone₃ : b₃.done.steps = b.done.steps := by
      rw [hb₃, closeFile, hcurrent₂, hdone₂, hdone₁]
    -- the files after it
    have hids₃ : ((files ++ node' :: inside.nodes (some opened.fileId)).map (·.id) ++
        next.ids).Nodup := by
      simpa [hnode', hnode, newNode] using hids
    obtain ⟨hcurrent₄, hopen₄, hdone₄⟩ := ihNext b₃ _ hcurrent₃ hids₃
    simp only [Nesting.records, List.foldl_cons, List.foldl_append]
    refine ⟨?_, hopen₄.trans hopen₃, hdone₄.trans hdone₃⟩
    rw [hopen₃, List.append_assoc, List.cons_append] at hcurrent₄
    exact hcurrent₄

/-- Outside a compile step, only frame records change anything. -/
theorem foldl_apply_of_not_isFrame {before : List Record}
    (h : ∀ record ∈ before, record.isFrame = false) {b : Builder} (hcurrent : b.current = none) :
    before.foldl apply b = b := by
  obtain ⟨done, current, openFiles, edited⟩ := b
  cases hcurrent
  induction before with
  | nil => rfl
  | cons record before ih =>
    have hbefore := ih fun r hr => h r (List.mem_cons_of_mem _ hr)
    have hrecord := h record List.mem_cons_self
    cases record with
    | error | namePart | ignored | unrecognized => exact hbefore
    | processor | fileStart | fileEnd | expansion => cases hrecord

end Builder

/-! ## One compile step -/

/-- The records make one compile step without edits, in which every file
number names one file, and the files nest as `root` says. -/
structure OneStep (records : List Record) (root : Nesting) : Prop where
  frame : records.filter Record.isFrame = .processor :: root.records
  nodup_ids : root.ids.Nodup

namespace OneStep

variable {records : List Record} {root : Nesting}

/-- The builder has the one step, whose files are those that nest, and has closed
all of them. -/
theorem foldl_apply (h : OneStep records root) :
    ∃ step : Step, (records.foldl Builder.apply Builder.start).current = some step ∧
      (records.foldl Builder.apply Builder.start).done.steps = [] ∧
      (records.foldl Builder.apply Builder.start).openFiles = [] ∧
      step.bare.files = root.nodes none := by
  set b := records.foldl Builder.apply Builder.start with hb
  have hbare : b.bare = root.records.foldl Builder.apply Builder.start.openStep := by
    rw [hb, Builder.bare_foldl, h.frame]
    rfl
  obtain ⟨hcurrent, hopen, hdone⟩ :=
    Builder.foldl_nesting root Builder.start.openStep [] rfl (by simpa using h.nodup_ids)
  rw [← hbare] at hcurrent hopen hdone
  have hsteps : b.done.steps = [] := by simpa [Builder.bare, Builder.openStep, Builder.finish,
    Builder.start, Forest.empty] using hdone
  obtain ⟨step, hstep, hfiles⟩ := Option.map_eq_some_iff.mp hcurrent
  exact ⟨step, hstep, hsteps, hopen, congrArg Step.files hfiles⟩

/-- The records are those before the processor, which hold no file starts, the
processor, and those of the one step. -/
theorem records_eq (h : OneStep records root) :
    ∃ before rest, records = before ++ .processor :: rest ∧
      (∀ record ∈ before, record.isFrame = false) ∧ rest.filter Record.isFrame = root.records := by
  obtain ⟨before, rest, hrecords, hbefore, -, hrest⟩ := List.filter_eq_cons_iff.mp h.frame
  exact ⟨before, rest, hrecords, fun record hrecord => by simpa using hbefore record hrecord, hrest⟩

theorem mem_starts (h : OneStep records root) {r : Record.FileStart}
    (hr : .fileStart r ∈ records) : r ∈ root.starts := by
  have hmem : .fileStart r ∈ records.filter Record.isFrame := List.mem_filter.mpr ⟨hr, rfl⟩
  rw [h.frame, List.mem_cons] at hmem
  rcases hmem with he | hmem
  · cases he
  · rcases Nesting.mem_records hmem with ⟨r', hr', he⟩ | ⟨r', he⟩
    · cases he
      exact hr'
    · cases he

theorem not_mem_expansion (h : OneStep records root) (r : Record.Expansion) :
    .expansion r ∉ records := by
  intro hr
  have hmem : .expansion r ∈ records.filter Record.isFrame := List.mem_filter.mpr ⟨hr, rfl⟩
  rw [h.frame, List.mem_cons] at hmem
  rcases hmem with he | hmem
  · cases he
  · rcases Nesting.mem_records hmem with ⟨r', hr', he⟩ | ⟨r', he⟩ <;> cases he

/-- The forest has one step, in which the files nest. Each of them has the
errors that were reported for its number after it was opened. -/
theorem forest_steps (h : OneStep records root) :
    ∃ step : Step, (Forest.ofRecords records).steps = [step] ∧
      step.bare.files = root.nodes none ∧ ∀ file ∈ step.files, file.errors =
        ((Record.reported [] records).filter (·.fileId = file.id)).filterMap
          (RawError.ofRecord? · false) := by
  obtain ⟨step, hcurrent, hdone, -, hfiles⟩ := h.foldl_apply
  refine ⟨step, by simp [Forest.ofRecords, Builder.finish, hcurrent, hdone], hfiles, ?_⟩
  intro file hfile
  -- the errors of the step are those of the records behind the processor
  obtain ⟨before, rest, rfl, hbefore, hrest⟩ := h.records_eq
  have hnoStart : ∀ r, .fileStart r ∉ before ++ [.processor] := by
    intro r hr
    rcases List.mem_append.mp hr with hmem | hmem
    · cases hbefore _ hmem
    · cases List.mem_singleton.mp hmem
  have hnoStep : .processor ∉ rest := by
    intro hmem
    have hframe : .processor ∈ rest.filter Record.isFrame := List.mem_filter.mpr ⟨hmem, rfl⟩
    rw [hrest] at hframe
    rcases Nesting.mem_records hframe with ⟨r, -, he⟩ | ⟨r, he⟩ <;> cases he
  have hnoEdit : ∀ r, .expansion r ∉ rest := fun r hr => h.not_mem_expansion r (by simp [hr])
  have hrun := Builder.errorsOf_foldl hnoStep hnoEdit Builder.start.openStep rfl file.id
  have hreported := Record.reported_append hnoStart rest
  rw [List.append_assoc, List.singleton_append] at hreported
  rw [List.foldl_append, List.foldl_cons,
    Builder.foldl_apply_of_not_isFrame hbefore (rfl : Builder.start.current = none)] at hcurrent
  -- the file is the first one with its number
  have hnodup : (step.files.map (·.id)).Nodup := by
    have hids := congrArg (List.map FileNode.id) hfiles
    rw [Nesting.map_id_nodes, Step.bare, List.map_map] at hids
    exact hids ▸ h.nodup_ids
  have hfind : step.find? file.id = some file := find?_of_nodup hnodup hfile
  have herrors : (rest.foldl Builder.apply Builder.start.openStep).errorsOf file.id =
      file.errors := by
    unfold Builder.errorsOf
    rw [show (rest.foldl Builder.apply Builder.start.openStep).current = some step from hcurrent]
    simp [hfind]
  rw [← herrors, hrun, hreported]
  rfl

/-- The first file start with a number is the one that nests. -/
theorem firstStart? (h : OneStep records root) {r : Record.FileStart} (hr : r ∈ root.starts) :
    UnitName.firstStart? records r.fileId = some r := by
  rw [← UnitName.firstStart?_filter (p := Record.isFrame) (fun _ => rfl), h.frame]
  change UnitName.firstStart? root.records r.fileId = some r
  rw [Nesting.firstStart?_records]
  exact find?_of_nodup h.nodup_ids hr

end OneStep

end EventListing
