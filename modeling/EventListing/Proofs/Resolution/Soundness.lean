-- Soundness of the map of lines. Whatever a listing says, and wherever its
-- edits lie, each entry that the precompiler did not make is a line of a file
-- of the first compile step, no line stands more often than there are files
-- that own it, and the lines of one file keep their order.
import Mathlib.Data.List.Nodup
import EventListing.Proofs.Forest.Errors
import EventListing.Proofs.LineMap.Splice
import EventListing.Proofs.Record.Width
import EventListing.Proofs.Resolution.Lines

namespace EventListing

open LineMap

/-! ## The lines that a file owns -/

namespace FileNode

/-- The file has lines of its own under the path. The precompiler's unit has
none. -/
def isSource (file : FileNode) (path : String) : Bool :=
  file.id ≠ FileId.baseUnit ∧ file.path = path

/-- The line is one of the lines that the file has under the path. -/
def owns (file : FileNode) (path : String) (line : Nat) : Bool :=
  file.isSource path ∧ 1 ≤ line ∧ line ≤ file.length.getD 0

theorem isSource_of_owns {file : FileNode} {path : String} {line : Nat}
    (h : file.owns path line) : file.isSource path := by
  unfold owns at h
  simp only [decide_eq_true_eq] at h
  exact h.1

end FileNode

namespace LineMap

/-- The numbers of the lines that stand in the map for a path, in the order
of the map. -/
def sourceLines (m : LineMap) (path : String) : List Nat :=
  (m.lines.filter fun o => o.path = path ∧ o.isSql = false).map (·.line)

/-- The entries of the map are lines of the files, each at most once for each
file, and those of one file in their order. -/
structure Sound (files : List FileNode) (m : LineMap) : Prop where
  count_le : ∀ path line,
    m.lines.count ⟨path, line, false⟩ ≤ files.countP (·.owns path line)
  ordered : ∀ path, files.countP (·.isSource path) ≤ 1 →
    (m.sourceLines path).Pairwise (· < ·)

namespace Sound

variable {files : List FileNode} {m : LineMap}

theorem empty : LineMap.empty.Sound [] :=
  ⟨fun _ _ => Nat.le_refl _, fun _ _ => List.Pairwise.nil⟩

/-- An entry that the precompiler did not make is a line of a file. -/
theorem exists_owner (h : m.Sound files) {o : Origin} (ho : o ∈ m.lines)
    (hsql : o.isSql = false) : ∃ file ∈ files, file.owns o.path o.line := by
  have hcount : 0 < m.lines.count ⟨o.path, o.line, false⟩ := by
    rw [List.count_pos_iff, ← hsql]
    exact ho
  have hpos : 0 < files.countP (·.owns o.path o.line) :=
    Nat.lt_of_lt_of_le hcount (h.count_le o.path o.line)
  exact List.countP_pos_iff.mp hpos

/-- Lines of the precompiler say nothing about the files. -/
theorem insertSql (h : m.Sound files) (position : Int) (path : String) (count : Nat) :
    (m.insertSql position path count).Sound files := by
  have hsql : ∀ o ∈ numbered path count true, o.isSql = true := fun o ho =>
    (mem_numbered.mp ho).2.1
  constructor
  · intro q line
    have hnone : (numbered path count true).count ⟨q, line, false⟩ = 0 := by
      rw [List.count_eq_zero]
      intro hmem
      cases hsql _ hmem
    unfold LineMap.insertSql
    rw [count_insert, hnone, Nat.zero_add]
    exact h.count_le q line
  · intro q hone
    unfold LineMap.insertSql sourceLines
    rw [filter_insert_of_forall]
    · exact h.ordered q hone
    · intro o ho
      simp [hsql o ho]

theorem remove (h : m.Sound files) (position : Int) (count : Nat) :
    (m.remove position count).Sound files := by
  have hsub := remove_sublist m position count
  constructor
  · intro path line
    exact Nat.le_trans (hsub.count_le _) (h.count_le path line)
  · intro path hone
    refine (h.ordered path hone).sublist ?_
    exact (hsub.filter _).map _

/-- A file that adds no lines changes nothing. -/
theorem append (h : m.Sound files) (file : FileNode) : m.Sound (files ++ [file]) := by
  constructor
  · intro path line
    rw [List.countP_append]
    exact Nat.le_trans (h.count_le path line) (Nat.le_add_right _ _)
  · intro path hone
    rw [List.countP_append] at hone
    exact h.ordered path (by omega)

/-- A file adds its own lines, wherever it is put in. When it is the first
one under its path, there were no lines of that path before. -/
theorem insertFile (h : m.Sound files) {file : FileNode} (hbase : file.id ≠ FileId.baseUnit)
    (position : Int) :
    (m.insertFile position file.path (file.length.getD 0).toNat).Sound (files ++ [file]) := by
  set count := (file.length.getD 0).toNat with hcount
  constructor
  · intro path line
    have hown : (numbered file.path count false).count ⟨path, line, false⟩ ≤
        [file].countP (·.owns path line) := by
      by_cases hmem : ⟨path, line, false⟩ ∈ numbered file.path count false
      · obtain ⟨hpath, -, hone, hle⟩ := mem_numbered.mp hmem
        simp only at hpath hone hle
        have howns : file.owns path line := by
          simp only [FileNode.owns, FileNode.isSource, decide_eq_true_eq]
          exact ⟨⟨hbase, hpath.symm⟩, hone, by omega⟩
        rw [List.countP_singleton, if_pos howns]
        exact List.nodup_iff_count_le_one.mp (nodup_numbered _ _ _) _
      · rw [List.count_eq_zero.mpr hmem]
        exact Nat.zero_le _
    unfold LineMap.insertFile
    rw [count_insert, List.countP_append, Nat.add_comm]
    exact Nat.add_le_add (h.count_le path line) hown
  · intro path hone
    rw [List.countP_append] at hone
    unfold LineMap.insertFile sourceLines
    by_cases hpath : file.path = path
    · subst hpath
      have hsource : file.isSource file.path := by
        simpa [FileNode.isSource] using hbase
      rw [List.countP_singleton, if_pos hsource] at hone
      have hnone : files.countP (·.isSource file.path) = 0 := by omega
      have hempty : (m.lines.filter fun o => o.path = file.path ∧ o.isSql = false) = [] := by
        rw [List.filter_eq_nil_iff]
        intro o ho hsel
        simp only [decide_eq_true_eq] at hsel
        obtain ⟨owner, howner, howns⟩ := h.exists_owner ho hsel.2
        rw [List.countP_eq_zero] at hnone
        exact hnone owner howner (hsel.1 ▸ FileNode.isSource_of_owns howns)
      rw [filter_insert_of_filter_eq_nil hempty]
      refine List.Pairwise.sublist (List.filter_sublist.map _) ?_
      rw [List.pairwise_map]
      exact pairwise_numbered _ _ _
    · rw [filter_insert_of_forall]
      · exact h.ordered path (by omega)
      · intro o ho
        have hpath' : ¬ o.path = path := fun he => hpath ((mem_numbered.mp ho).1.symm.trans he)
        simp [hpath']

end Sound

end LineMap

/-! ## The diagnostics of a mapping -/

namespace Resolution.Mapping

/-- The diagnostic is that of a reported error. It stands at a line that a
file owns, or else at the line that its record reports, under the first path
of its file number. -/
def Placed (records : List Record) (files : List FileNode) (path : String) (d : Diagnostic) :
    Prop :=
  ∃ r, .error r ∈ records ∧ d = diagnosticAt r d.line ∧
    ((∃ file ∈ files, ∃ line : Nat, file.owns path line ∧ d.line = line) ∨
      ((UnitName.firstStart? records r.fileId).map (UnitName.path ·.name) = some path ∧
        r.line = some d.line))

/-- Every diagnostic of the map stands where an error may stand. -/
def AllPlaced (records : List Record) (files : List FileNode) (m : DiagnosticMap) : Prop :=
  ∀ path, ∀ d ∈ m.listed path, Placed records files path d

/-- Both parts of the mapping are sound for the files. -/
structure Sound (records : List Record) (files : List FileNode) (m : Mapping) : Prop where
  lines : m.lines.Sound files
  placed : AllPlaced records files m.diagnostics

section Run

variable {listing : Listing} {files : List FileNode} {m : Mapping} {step : Step}

theorem AllPlaced.append {map : DiagnosticMap} (h : AllPlaced listing.records files map)
    (file : FileNode) : AllPlaced listing.records (files ++ [file]) map := by
  intro path d hd
  obtain ⟨r, hr, hd, hat⟩ := h path d hd
  refine ⟨r, hr, hd, ?_⟩
  rcases hat with ⟨owner, howner, hline⟩ | hreported
  · exact Or.inl ⟨owner, List.mem_append_left _ howner, hline⟩
  · exact Or.inr hreported

/-- An error that is looked up in a sound map goes to a line that a file
owns. -/
theorem placed_located {lines : LineMap} (hlines : lines.Sound files) {file : FileNode}
    (hfile : file.Reported listing.records) {e : RawError} (he : e ∈ file.errors) {path : String}
    {d : Diagnostic} (h : located lines e = some (path, d)) :
    Placed listing.records files path d := by
  obtain ⟨r, hr, -, hraw⟩ := hfile e he
  obtain ⟨line, -, -, -, hresolved⟩ := RawError.of_ofRecord? hraw
  obtain ⟨origin, horigin, hat⟩ := Option.map_eq_some_iff.mp h
  cases hat
  obtain ⟨-, hget, hsql⟩ := LineMap.of_resolve? horigin
  obtain ⟨owner, howner, howns⟩ := hlines.exists_owner (List.mem_of_getElem? hget) hsql
  exact ⟨r, hr, hresolved _, Or.inl ⟨owner, howner, origin.line, howns, rfl⟩⟩

/-- An error before any edit that is not looked up stays at the line that its
record reports. -/
theorem placed_locatedEarly {lines : LineMap} (hlines : lines.Sound files) {file : FileNode}
    (hfile : file.Reported listing.records) {e : RawError} (he : e ∈ file.errors) {path : String}
    {d : Diagnostic}
    (h : locatedEarly (Forest.ofListing listing).paths step file lines e = some (path, d)) :
    Placed listing.records files path d := by
  unfold locatedEarly at h
  split at h
  · exact placed_located hlines hfile he h
  · obtain ⟨r, hr, hid, hraw⟩ := hfile e he
    obtain ⟨line, hline, heline, -, hresolved⟩ := RawError.of_ofRecord? hraw
    obtain ⟨path', hpath, hat⟩ := Option.map_eq_some_iff.mp h
    cases hat
    rw [heline, Record.add_sub_line hr hline, hresolved]
    refine ⟨r, hr, rfl, Or.inr ⟨?_, hline⟩⟩
    rw [hid, ← Forest.paths_ofRecords]
    exact hpath

theorem AllPlaced.pushAll {map : DiagnosticMap} (h : AllPlaced listing.records files map)
    {found : List (String × Diagnostic)}
    (hfound : ∀ entry ∈ found, Placed listing.records files entry.1 entry.2) :
    AllPlaced listing.records files (map.pushAll found) := by
  intro path d hd
  rw [DiagnosticMap.listed_pushAll, List.mem_append] at hd
  rcases hd with hold | hnew
  · exact h path d hold
  · obtain ⟨entry, hentry, rfl⟩ := List.mem_map.mp hnew
    obtain ⟨hmem, hpath⟩ := List.mem_filter.mp hentry
    have hpath' : entry.1 = path := by simpa using hpath
    exact hpath' ▸ hfound entry hmem

/-! ### One file -/

theorem sound_inline (h : m.lines.Sound files) (file : FileNode) :
    (m.inline step file).lines.Sound (files ++ [file]) := by
  unfold inline
  split
  · exact h.append file
  · rename_i hbase
    split
    · exact h.append file
    · exact h.insertFile hbase _

theorem sound_applyEdit (h : m.lines.Sound files) (file : FileNode) (edit : Edit) :
    (applyEdit step file m edit).lines.Sound files := by
  unfold applyEdit
  split
  · split
    · exact h
    · split
      · exact h
      · exact h.insertSql _ _ _
  · split
    · split
      · exact h
      · exact h.remove _ _
    · exact h

theorem sound_foldl_applyEdit (file : FileNode) (edits : List Edit) (h : m.lines.Sound files) :
    (edits.foldl (applyEdit step file) m).lines.Sound files := by
  induction edits generalizing m with
  | nil => exact h
  | cons edit edits ih => exact ih (sound_applyEdit h file edit)

/-- Before the edits, a file that is put in joins the files, and its errors
are placed by them. -/
theorem sound_beforeEdits {file : FileNode} (inlines : Bool) (h : m.Sound listing.records files)
    (hfile : file.Reported listing.records) :
    (beforeEdits (Forest.ofListing listing).paths inlines step m file).Sound listing.records
      (if inlines then files ++ [file] else files) := by
  set m' := beforeEdits (Forest.ofListing listing).paths inlines step m file with hm'
  have hlines : m'.lines.Sound (if inlines then files ++ [file] else files) := by
    rw [hm', lines_beforeEdits]
    cases inlines
    · exact h.lines
    · exact sound_inline h.lines file
  have hplaced : AllPlaced listing.records (if inlines then files ++ [file] else files)
      m.diagnostics := by
    cases inlines
    · exact h.placed
    · exact h.placed.append file
  refine ⟨hlines, ?_⟩
  rw [hm', diagnostics_beforeEdits, ← hm']
  refine hplaced.pushAll ?_
  intro entry hentry
  obtain ⟨e, he, hat⟩ := List.mem_filterMap.mp hentry
  exact placed_locatedEarly hlines hfile (List.mem_of_mem_filter he) hat

theorem sound_withEdits {file : FileNode} (h : m.Sound listing.records files)
    (hfile : file.Reported listing.records) :
    (withEdits step m file).Sound listing.records files := by
  have hlines : (withEdits step m file).lines.Sound files := by
    rw [lines_withEdits]
    exact sound_foldl_applyEdit file file.edits h.lines
  refine ⟨hlines, ?_⟩
  rw [diagnostics_withEdits]
  refine h.placed.pushAll ?_
  intro entry hentry
  obtain ⟨e, he, hat⟩ := List.mem_filterMap.mp hentry
  exact placed_located hlines hfile (List.mem_of_mem_filter he) hat

/-! ### All files and all steps -/

theorem sound_foldl_beforeEdits (inlines : Bool) {rest : List FileNode}
    (hrest : ∀ file ∈ rest, file.Reported listing.records) (h : m.Sound listing.records files) :
    (rest.foldl (beforeEdits (Forest.ofListing listing).paths inlines step) m).Sound
      listing.records (if inlines then files ++ rest else files) := by
  induction rest generalizing m files with
  | nil => cases inlines <;> simpa using h
  | cons file rest ih =>
    have hrest' : ∀ f ∈ rest, f.Reported listing.records := fun f hf =>
      hrest f (List.mem_cons_of_mem _ hf)
    have hfile : (beforeEdits (Forest.ofListing listing).paths inlines step m file).Sound
        listing.records (if inlines then files ++ [file] else files) :=
      sound_beforeEdits inlines h (hrest file List.mem_cons_self)
    have hall := ih hrest' hfile
    cases inlines
    · exact hall
    · simpa using hall

theorem sound_foldl_withEdits {rest : List FileNode}
    (hrest : ∀ file ∈ rest, file.Reported listing.records) (h : m.Sound listing.records files) :
    (rest.foldl (withEdits step) m).Sound listing.records files := by
  induction rest generalizing m with
  | nil => exact h
  | cons file rest ih =>
    exact ih (fun f hf => hrest f (List.mem_cons_of_mem _ hf))
      (sound_withEdits h (hrest file List.mem_cons_self))

/-- Only a step that puts its files in adds to the files. -/
theorem sound_addStep (inlines : Bool) (hstep : step.Reported listing.records)
    (h : m.Sound listing.records files) :
    (addStep (Forest.ofListing listing).paths inlines m step).Sound listing.records
      (if inlines then files ++ step.files else files) :=
  sound_foldl_withEdits hstep (sound_foldl_beforeEdits inlines hstep h)

theorem sound_foldl_addStep {steps : List Step} (hsteps : ∀ s ∈ steps, s.Reported listing.records)
    (h : m.Sound listing.records files) :
    (steps.foldl (addStep (Forest.ofListing listing).paths false) m).Sound listing.records
      files := by
  induction steps generalizing m with
  | nil => exact h
  | cons s steps ih =>
    exact ih (fun t ht => hsteps t (List.mem_cons_of_mem _ ht))
      (sound_addStep false (hsteps s List.mem_cons_self) h)

theorem sound_start (records : List Record) : start.Sound records [] :=
  ⟨LineMap.Sound.empty, fun _ _ hd => by cases hd⟩

end Run

end Resolution.Mapping

/-! ## The law -/

/-- The files of the first compile step. -/
def Forest.firstFiles (forest : Forest) : List FileNode :=
  (forest.steps.head?.map Step.files).getD []

/-- A mapping of steps whose errors were reported is sound for the files of the
first one of them. -/
theorem Resolution.Mapping.sound_of_steps {listing : Listing} {steps : List Step}
    (hsteps : ∀ step ∈ steps, step.Reported listing.records) :
    (Mapping.ofForest ⟨steps, (Forest.ofListing listing).paths⟩).Sound listing.records
      ((steps.head?.map Step.files).getD []) := by
  unfold Mapping.ofForest
  cases steps with
  | nil => exact sound_start listing.records
  | cons first rest =>
    have hfirst := sound_addStep true (hsteps first List.mem_cons_self)
      (sound_start listing.records)
    exact sound_foldl_addStep (fun step hstep => hsteps step (List.mem_cons_of_mem _ hstep)) hfirst

theorem Resolution.Mapping.sound_ofForest (listing : Listing) :
    (Mapping.ofForest (Forest.ofListing listing)).Sound listing.records
      (Forest.ofListing listing).firstFiles :=
  sound_of_steps (Forest.reported_ofRecords listing.records)

/-- Whatever the listing, the entries of its map that the precompiler did not
make are lines of the files of the first compile step: none stands more often
than files own it, and those of a path with one file stand in their order.
Every diagnostic stands at such a line, or where its record reports it. -/
theorem any_listing_maps_soundly (listing : Listing) :
    let files := (Forest.ofListing listing).firstFiles
    let m := Resolution.Mapping.ofForest (Forest.ofListing listing)
    (∀ o ∈ m.lines.lines, o.isSql = false → ∃ file ∈ files, file.owns o.path o.line) ∧
      (∀ path line, m.lines.lines.count ⟨path, line, false⟩ ≤
        files.countP (·.owns path line)) ∧
      (∀ path, files.countP (·.isSource path) = 1 →
        (m.lines.sourceLines path).Pairwise (· < ·)) ∧
      ∀ path, ∀ d ∈ m.diagnostics.listed path,
        Resolution.Mapping.Placed listing.records files path d := by
  intro files m
  have h : m.Sound listing.records files := Resolution.Mapping.sound_ofForest listing
  refine ⟨?_, h.lines.count_le, ?_, h.placed⟩
  · intro o ho hsql
    exact h.lines.exists_owner ho hsql
  · intro path hone
    exact h.lines.ordered path (Nat.le_of_eq hone)

/-- A root with a copied member, two edits that put lines in, and two that take
lines out. One of the latter is made by a second compile step. -/
def edited : Listing := Listing.ofLines [
  "PROCESSOR  0 000 1",
  "FILEID     0 001 000000 013 LIB/SRC(ROOT) 20230101120000 0",
  "FILEID     0 002 000002 012 LIB/CPY(CPA) 20230101120000 0",
  "FILEEND    0 002 000002",
  "ERROR      0 002 1 000002 000002 001 000002 010 RNF1234 S 30 004 copy",
  "EXPANSION  0 001 000000 000000 001 000002 000003",
  "EXPANSION  0 001 000001 000001 000 000000 000000",
  "EXPANSION  0 002 000000 000000 002 000009 000009",
  "ERROR      0 001 1 000004 000004 001 000004 010 RNF7030 S 30 004 root",
  "FILEEND    0 001 000004",
  "PROCESSOR  0 000 1",
  "FILEID     0 001 000000 013 LIB/OBJ(ROOT) 20230101120000 0",
  "EXPANSION  0 001 000002 000002 000 000000 000000",
  "FILEEND    0 001 000007"]

def editedFiles : List FileNode := (Forest.ofListing edited).firstFiles

def editedMap : Resolution.Mapping := Resolution.Mapping.ofForest (Forest.ofListing edited)

theorem edited_maps_soundly :
    (⟨"LIB/SRC/ROOT", 2, false⟩ ∈ editedMap.lines.lines ∧
        ∃ file ∈ editedFiles, file.owns "LIB/SRC/ROOT" 2) ∧
      (editedFiles.countP (·.isSource "LIB/SRC/ROOT") = 1 ∧
        (editedMap.lines.sourceLines "LIB/SRC/ROOT").Pairwise (· < ·)) ∧
      (editedMap.diagnostics.listed "LIB/CPY/CPA").length = 2 ∧
        ∀ d ∈ editedMap.diagnostics.listed "LIB/CPY/CPA",
          Resolution.Mapping.Placed edited.records editedFiles "LIB/CPY/CPA" d := by
  obtain ⟨howned, -, hordered, hplaced⟩ := any_listing_maps_soundly edited
  have hall : ⟨"LIB/SRC/ROOT", 2, false⟩ ∈ editedMap.lines.lines ∧
      editedFiles.countP (·.isSource "LIB/SRC/ROOT") = 1 ∧
      (editedMap.diagnostics.listed "LIB/CPY/CPA").length = 2 := by
    decide +kernel
  obtain ⟨hmem, hone, hlength⟩ := hall
  refine ⟨⟨hmem, howned _ hmem rfl⟩, ⟨hone, hordered _ hone⟩, hlength, ?_⟩
  intro d hd
  exact hplaced _ d hd

end EventListing
