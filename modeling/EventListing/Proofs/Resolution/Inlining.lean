-- Copied members in the map of lines. The mapping splices one file after the
-- other into the whole unit, at an offset that it sums up over the files
-- around it. Main statement: that is the text in which each file is put into
-- the text of the file that includes it, at the line that includes it.
import EventListing.Proofs.Forest.Nesting
import EventListing.Proofs.LineMap.Splice
import EventListing.Proofs.Resolution.Lines

namespace EventListing

open LineMap Resolution
open Saturating (InRange least greatest)

/-! ## The text of nested files -/

/-- The lines of a file by itself. A length that does not read, or that is
negative, counts as no lines. -/
def ownLines (opened : Record.FileStart) (length : Option Int) : List Origin :=
  numbered (UnitName.path opened.name) (length.getD 0).toNat false

/-- The text with more lines put in behind its first `index` lines. -/
def putIn (text : List Origin) (index : Nat) (lines : List Origin) : List Origin :=
  text.take index ++ lines ++ text.drop index

namespace Nesting

/-- The line of the including text behind which the file stands. -/
def includeLine (opened : Record.FileStart) : Nat := (opened.line.getD 0).toNat

/-- The text after each of the files was put in at its line, together with
what is inside it. The first file comes first, so the line of a later one
counts in the text with the earlier ones. -/
def inlineInto : Nesting → List Origin → List Origin
  | nil, text => text
  | file opened inside length next, text =>
    next.inlineInto
      (putIn text (includeLine opened) (inside.inlineInto (ownLines opened length)))

/-- Each file begins behind a line that the text around it has by then. -/
def Fits : Nesting → List Origin → Prop
  | nil, _ => True
  | file opened inside length next, text =>
    (∃ line : Int, opened.line = some line ∧ 1 ≤ line ∧ line ≤ text.length) ∧
      inside.Fits (ownLines opened length) ∧
      next.Fits (putIn text (includeLine opened) (inside.inlineInto (ownLines opened length)))

/-- The offsets of the files in the whole unit are numbers of 64 bits, when
the text around them begins at `base`. -/
def OffsetsFit : Nesting → Int → Prop
  | nil, _ => True
  | file opened inside _ next, base =>
    InRange (base + includeLine opened) ∧ inside.OffsetsFit (base + includeLine opened) ∧
      next.OffsetsFit base

end Nesting

/-- Lines put in inside a part of a text are put into that part. -/
theorem putIn_inside (before text after lines : List Origin) {index : Nat}
    (h : index ≤ text.length) :
    putIn (before ++ text ++ after) (before.length + index) lines =
      before ++ putIn text index lines ++ after := by
  unfold putIn
  rw [List.append_assoc before, List.take_length_add_append, List.drop_length_add_append,
    List.take_append_of_le_length h, List.drop_append_of_le_length h]
  simp only [List.append_assoc]

/-! ## The walk up to the root -/

namespace Step

/-- The walk up from a file inside `parent` adds `base` in at most `depth`
steps, as long as the offset stays a number of 64 bits. -/
def Walks (step : Step) (parent : Option FileId) (base : Int) (depth : Nat) : Prop :=
  ∀ hops, depth ≤ hops → ∀ offset, 0 ≤ offset → offset + base ≤ greatest →
    step.addAncestors hops (parent.bind step.find?) offset = offset + base

/-- The walk ends at a file that begins in no other one. -/
theorem walks_root {step : Step} {root : FileNode} (hfind : step.find? root.id = some root)
    (hstart : root.startsAt = some (-1)) : step.Walks (some root.id) 0 0 := by
  intro hops _ offset _ _
  rw [Option.bind_some, hfind]
  cases hops with
  | zero => simp [addAncestors]
  | succ hops => simp [addAncestors, hstart]

/-- One more file around adds the line at which it begins. -/
theorem walks_file {step : Step} {node : FileNode} {base : Int} {depth line : Nat}
    (hfind : step.find? node.id = some node) (hstart : node.startsAt = some (line - 1 : Int))
    (hline : 1 ≤ line) (hbase : 0 ≤ base) (h : step.Walks node.parent base depth) :
    step.Walks (some node.id) (base + line) (depth + 1) := by
  intro hops hhops offset hoffset hfit
  obtain ⟨hops, rfl⟩ : ∃ n, hops = n + 1 := ⟨hops - 1, by omega⟩
  have hadd : Saturating.add (line - 1) 1 = line := by
    rw [Saturating.add_of_inRange] <;> simp only [InRange, least, greatest] at * <;> omega
  have hsum : Saturating.add offset line = offset + line := by
    rw [Saturating.add_of_inRange]
    simp only [InRange, least, greatest] at *
    omega
  rw [Option.bind_some, hfind]
  simp only [addAncestors, hstart]
  rw [if_pos (by omega), hadd, hsum, h hops (by omega) _ (by omega) (by omega)]
  omega

theorem absoluteStart?_of_walks {step : Step} {node : FileNode} {base : Int} {depth line : Nat}
    (hstart : node.startsAt = some (line - 1 : Int)) (hbase : 0 ≤ base)
    (hfit : InRange (base + line)) (hdepth : depth ≤ step.files.length)
    (h : step.Walks node.parent base depth) :
    step.absoluteStart? node = some (base + line) := by
  have hadd : Saturating.add (line - 1) 1 = line := by
    rw [Saturating.add_of_inRange] <;> simp only [InRange, least, greatest] at * <;> omega
  unfold absoluteStart?
  rw [hstart, Option.map_some, hadd, h _ hdepth _ (by omega)]
  · rw [Int.add_comm]
  · have := hfit.2
    omega

end Step

/-! ## The splices, one file after the other -/

namespace Resolution.Mapping

/-- The errors of the files do not change what is put in. -/
theorem lines_foldl_beforeEdits (paths : OrderedMap FileId String) (step : Step)
    (files : List FileNode) {m bare : Mapping} (h : m.lines = bare.lines) :
    (files.foldl (beforeEdits paths true step) m).lines =
      ((files.map FileNode.bare).foldl (inline step.bare) bare).lines := by
  induction files generalizing m bare with
  | nil => exact h
  | cons file files ih =>
    rw [List.map_cons, List.foldl_cons, List.foldl_cons]
    apply ih
    rw [lines_beforeEdits, if_pos rfl]
    unfold inline
    rw [Step.absoluteStart?_bare]
    change (if file.id = _ then m else _).lines = (if file.id = _ then bare else _).lines
    split
    · exact h
    · split
      · exact h
      · simp only [h]
        rfl

/-- The nodes of nested files, put in one after the other at their offsets in
the whole unit, change the text around them into that with the files inlined.
The induction follows the nesting: while the files inside a file are put in,
nothing before that file moves, so its own text begins where it was put in. -/
theorem lines_foldl_inline {step : Step} (n : Nesting) {parent : Option FileId} {depth : Nat}
    (hfind : ∀ node ∈ n.nodes parent, step.find? node.id = some node)
    (hunit : FileId.baseUnit ∉ n.ids) (hdepth : depth + n.ids.length ≤ step.files.length)
    (before text after : List Origin) (hwalk : step.Walks parent before.length depth)
    (hfits : n.Fits text) (hoffsets : n.OffsetsFit before.length) (m : Mapping)
    (hm : m.lines = ⟨before ++ text ++ after⟩) :
    ((n.nodes parent).foldl (inline step) m).lines =
      ⟨before ++ n.inlineInto text ++ after⟩ := by
  induction n generalizing parent depth before text after m with
  | nil => exact hm
  | file opened inside length next ihInside ihNext =>
    obtain ⟨⟨line, hopened, hone, hline⟩, hinside, hnext⟩ := hfits
    obtain ⟨hfit, hoffsetsInside, hoffsetsNext⟩ := hoffsets
    simp only [Nesting.ids_file, List.mem_cons, List.mem_append, not_or] at hunit
    simp only [Nesting.ids_file, List.length_cons, List.length_append] at hdepth
    simp only [Nesting.nodes, List.mem_cons, List.mem_append] at hfind
    set at' := Nesting.includeLine opened with hat'
    have hatLine : (at' : Int) = line := by
      rw [hat', Nesting.includeLine, hopened, Option.getD_some]
      omega
    set node : FileNode := ⟨opened.fileId, parent, opened.startsAt, length,
      UnitName.path opened.name, [], []⟩ with hnode
    have hstart : node.startsAt = some (at' - 1 : Int) := by
      rw [hnode, Record.FileStart.startsAt, hopened, Option.map_some, hatLine,
        Saturating.sub_of_inRange]
      simp only [InRange, least, greatest] at *
      omega
    -- the file itself
    have hposition : step.absoluteStart? node = some ((before.length + at' : Nat) : Int) := by
      rw [Step.absoluteStart?_of_walks hstart (by omega) hfit (by omega) hwalk]
      push_cast
      rfl
    have hfile : (m.inline step node).lines =
        ⟨(before ++ text.take at') ++ ownLines opened length ++ (text.drop at' ++ after)⟩ := by
      have hfits' : before.length + at' ≤ m.lines.len := by
        simp only [hm, len, List.length_append]
        omega
      rw [lines_inline (fun h => hunit.1 h.symm) hposition, insert_natCast hfits', hm]
      congr 1
      exact (putIn_inside before text after _ (by omega)).trans (by simp [putIn, ownLines, hnode])
    -- the files inside it
    have hlength : (before ++ text.take at').length = before.length + at' := by
      rw [List.length_append, List.length_take_of_le (by omega)]
    have hwalkInside : step.Walks (some opened.fileId) (before ++ text.take at').length
        (depth + 1) := by
      rw [hlength]
      exact Step.walks_file (hfind node (Or.inl rfl)) hstart (by omega) (by omega) hwalk
    have hstepInside := ihInside (fun node h => hfind node (Or.inr (Or.inl h))) hunit.2.1
      (by omega) _ _ _ hwalkInside hinside (by rw [hlength]; exact hoffsetsInside) _ hfile
    -- the files after it
    have hmiddle : ∀ lines, before ++ text.take at' ++ lines ++ (text.drop at' ++ after) =
        before ++ putIn text at' lines ++ after := by
      intro lines
      simp only [putIn, List.append_assoc]
    rw [hmiddle] at hstepInside
    simp only [Nesting.nodes, List.foldl_cons, List.foldl_append]
    exact ihNext (fun node h => hfind node (Or.inr (Or.inr h))) hunit.2.2 (by omega) _ _ _ hwalk
      hnext hoffsetsNext _ hstepInside

/-- A step whose files nest in one root makes the text of the root with the
files inlined. -/
theorem lines_addStep_of_nesting (paths : OrderedMap FileId String) {step : Step}
    {opened : Record.FileStart} {inside : Nesting} {length : Option Int}
    (hnodes : step.bare.files = (Nesting.file opened inside length .nil).nodes none)
    (hnodup : (Nesting.file opened inside length .nil).ids.Nodup)
    (hunit : FileId.baseUnit ∉ (Nesting.file opened inside length .nil).ids)
    (hroot : opened.line = some 0) (hfits : inside.Fits (ownLines opened length))
    (hoffsets : inside.OffsetsFit 0) :
    (addStep paths true start step).lines = ⟨inside.inlineInto (ownLines opened length)⟩ := by
  have hedits : ∀ file ∈ step.files, file.edits = [] := by
    intro file hfile
    obtain ⟨_, _, _, _, hnone⟩ := Nesting.mem_starts_of_mem hnodes hfile
    exact hnone
  have hfind : ∀ node ∈ (Nesting.file opened inside length .nil).nodes none,
      step.bare.find? node.id = some node := by
    intro node hnode
    unfold Step.find?
    rw [hnodes]
    exact find?_of_nodup (by rw [Nesting.map_id_nodes]; exact hnodup) hnode
  have hdepth : 0 + inside.ids.length ≤ step.bare.files.length := by
    rw [hnodes, Nesting.length_nodes, Nesting.ids_file]
    simp
  -- the root comes first, into the empty map
  simp only [Nesting.ids_file, List.mem_cons, not_or] at hunit
  set root : FileNode := ⟨opened.fileId, none, opened.startsAt, length,
    UnitName.path opened.name, [], []⟩ with hrootNode
  have hcons : (Nesting.file opened inside length .nil).nodes none =
      root :: inside.nodes (some opened.fileId) := by
    simp [Nesting.nodes, hrootNode]
  rw [hcons] at hfind hnodes
  have hstart : root.startsAt = some (-1) := by
    rw [hrootNode, Record.FileStart.startsAt, hroot]
    rfl
  have hfirst : (start.inline step.bare root).lines =
      ⟨[] ++ ownLines opened length ++ []⟩ := by
    rw [lines_inline_root step.bare (fun h => hunit.1 h.symm) hstart rfl]
    simp [ownLines, hrootNode]
  -- then the files inside it
  have hall := lines_foldl_inline inside (fun node h => hfind node (List.mem_cons_of_mem _ h))
    (fun h => hunit.2 (by simpa using h)) hdepth [] _ []
    (Step.walks_root (hfind root List.mem_cons_self) hstart) hfits hoffsets _ hfirst
  have hmap : step.files.map FileNode.bare = root :: inside.nodes (some opened.fileId) := hnodes
  unfold addStep
  rw [lines_foldl_withEdits hedits, lines_foldl_beforeEdits _ _ step.files rfl, hmap,
    List.foldl_cons, hall, List.nil_append, List.append_nil]

end Resolution.Mapping

/-! ## The law -/

/-- The map of lines of a step whose files nest in one root is the text of
the root with every file inlined where it is included. -/
theorem flat_splices_inline_every_file (listing : Listing) (opened : Record.FileStart)
    (inside : Nesting) (length : Option Int)
    (hstep : OneStep listing.records (.file opened inside length .nil))
    (hunit : FileId.baseUnit ∉ (Nesting.file opened inside length .nil).ids)
    (hroot : opened.line = some 0) (hfits : inside.Fits (ownLines opened length))
    (hoffsets : inside.OffsetsFit 0) :
    (Resolution.Mapping.ofForest (Forest.ofListing listing)).lines.lines =
      inside.inlineInto (ownLines opened length) := by
  obtain ⟨step, hsteps, hnodes, -⟩ := hstep.forest_steps
  have hlines := Resolution.Mapping.lines_addStep_of_nesting
    (Forest.ofRecords listing.records).paths hnodes hstep.nodup_ids hunit hroot hfits hoffsets
  unfold Resolution.Mapping.ofForest
  rw [Forest.ofListing, hsteps]
  simp only [List.foldl_nil]
  rw [hlines]

/-- A root with two copied members. The first one includes a third one, and
the second one goes in before both. -/
def copies : Listing := Listing.ofLines [
  "PROCESSOR  0 000 1",
  "FILEID     0 001 000000 013 LIB/SRC(ROOT) 20230101120000 0",
  "FILEID     0 002 000003 012 LIB/CPY(CPA) 20230101120000 0",
  "FILEID     0 003 000001 012 LIB/CPY(CPB) 20230101120000 0",
  "FILEEND    0 003 000001",
  "FILEEND    0 002 000002",
  "ERROR      0 002 1 000002 000002 001 000002 010 RNF1234 S 30 004 copy",
  "FILEID     0 004 000002 012 LIB/CPY(CPC) 20230101120000 0",
  "FILEEND    0 004 000001",
  "FILEEND    0 001 000004"]

def copiesRoot : Record.FileStart :=
  ⟨FileId.root, "000000", some 0, some 13, "LIB/SRC(ROOT)", "LIB/SRC(ROOT)"⟩

def copiesInside : Nesting :=
  .file ⟨⟨2⟩, "000003", some 3, some 12, "LIB/CPY(CPA)", "LIB/CPY(CPA)"⟩
    (.file ⟨⟨3⟩, "000001", some 1, some 12, "LIB/CPY(CPB)", "LIB/CPY(CPB)"⟩ .nil (some 1) .nil)
    (some 2)
    (.file ⟨⟨4⟩, "000002", some 2, some 12, "LIB/CPY(CPC)", "LIB/CPY(CPC)"⟩ .nil (some 1) .nil)

theorem copies_stand_where_they_are_included :
    OneStep copies.records (.file copiesRoot copiesInside (some 4) .nil) ∧
      FileId.baseUnit ∉ (Nesting.file copiesRoot copiesInside (some 4) .nil).ids ∧
      copiesRoot.line = some 0 ∧ copiesInside.Fits (ownLines copiesRoot (some 4)) ∧
      copiesInside.OffsetsFit 0 ∧
      (Resolution.Mapping.ofForest (Forest.ofListing copies)).lines.lines.map
          (fun o => (o.path, o.line)) =
        [("LIB/SRC/ROOT", 1), ("LIB/SRC/ROOT", 2), ("LIB/CPY/CPC", 1), ("LIB/SRC/ROOT", 3),
          ("LIB/CPY/CPA", 1), ("LIB/CPY/CPB", 1), ("LIB/CPY/CPA", 2), ("LIB/SRC/ROOT", 4)] := by
  have hstep : OneStep copies.records (.file copiesRoot copiesInside (some 4) .nil) :=
    ⟨by decide +kernel, by decide⟩
  have hunit : FileId.baseUnit ∉ (Nesting.file copiesRoot copiesInside (some 4) .nil).ids := by
    decide
  have hfits : copiesInside.Fits (ownLines copiesRoot (some 4)) :=
    ⟨⟨3, rfl, by decide, by decide +kernel⟩,
      ⟨⟨1, rfl, by decide, by decide +kernel⟩, trivial, trivial⟩,
      ⟨2, rfl, by decide, by decide +kernel⟩, trivial, trivial⟩
  have hoffsets : copiesInside.OffsetsFit 0 :=
    ⟨by decide, ⟨by decide, trivial, trivial⟩, by decide, trivial, trivial⟩
  refine ⟨hstep, hunit, rfl, hfits, hoffsets, ?_⟩
  rw [flat_splices_inline_every_file copies copiesRoot copiesInside (some 4) hstep hunit rfl hfits
    hoffsets]
  decide +kernel

end EventListing
