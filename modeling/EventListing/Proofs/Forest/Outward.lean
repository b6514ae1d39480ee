-- The walk from a file outward through the files around it, which finds the place of the
-- file in the unit. In the first compile step it always ends by itself. In a later step a
-- file may lie in its own number, and the limit ends the walk.
import EventListing.Forest.Offset
import EventListing.Proofs.Forest.FirstStep
import EventListing.Proofs.Record.Width
import Mathlib.Algebra.Order.Ring.Int

namespace EventListing

open Saturating (InRange least greatest)

/-! ## Where files begin -/

namespace FileNode

/-- The line of the file around it at which a file begins. -/
def firstLine (file : FileNode) : Int := file.startsAt.getD 0 + 1

/-- The offset at which the file begins is a number of 64 bits that has a successor. -/
def HasRoom (file : FileNode) : Prop :=
  ∀ first, file.startsAt = some first → least ≤ first ∧ first < greatest

variable {file : FileNode} {first : Int}

theorem firstLine_eq (begins : file.startsAt = some first) : file.firstLine = first + 1 := by
  rw [firstLine, begins, Option.getD_some]

theorem HasRoom.add_one (h : file.HasRoom) (begins : file.startsAt = some first) :
    Saturating.add first 1 = file.firstLine := by
  obtain ⟨hleast, hgreatest⟩ := h first begins
  rw [firstLine_eq begins]
  refine Saturating.add_of_inRange ⟨?_, ?_⟩ <;> omega

end FileNode

/-- The line of a file start that was decoded is a number of 64 bits. -/
theorem Record.line_inRange {listing : Listing} {r : Record.FileStart} {n : Int}
    (hr : .fileStart r ∈ listing.records) (hn : r.line = some n) : InRange n := by
  obtain ⟨line, -, hdecode⟩ := exists_decode hr
  have hreads : FileStart.decode line = .ok r := reads_of_decode hdecode
  unfold FileStart.decode at hreads
  split at hreads
  · cases hreads
  · cases hreads
  · cases hreads
    exact Field.word64_inRange hn

/-- The offset is the line less one, so its successor is the line again or stops short. -/
theorem Forest.hasRoom_of_mem {listing : Listing} {step : Step}
    (hstep : step ∈ (ofListing listing).steps) {file : FileNode} (hfile : file ∈ step.files) :
    file.HasRoom := by
  refine forall_mem_files (P := FileNode.HasRoom) ?_ ?_ step hstep file hfile
  · intro b r hr first hfirst
    obtain ⟨line, hline, rfl⟩ := Option.map_eq_some_iff.mp hfirst
    have hrange := Record.line_inRange hr hline
    simp only [InRange, Saturating.sub, Saturating.clamp, least, greatest] at hrange ⊢
    omega
  · intro b record old new _ hchange hold
    cases hchange <;> exact hold

/-! ## The walk -/

/-- The walk ends where there is no file, or one that does not begin inside another. -/
def EndsAt (node : Option FileNode) : Prop :=
  ∀ file ∈ node, ∀ first, file.startsAt = some first → first < 0

namespace Step

/-- From `node` outward to `stop` these files lie around each other. Each of them begins
inside the next one. -/
inductive Outward (step : Step) : Option FileNode → List FileNode → Option FileNode → Prop
  | here (node : Option FileNode) : Outward step node [] node
  | out {file : FileNode} {first : Int} {files : List FileNode} {stop : Option FileNode}
      (begins : file.startsAt = some first) (inside : 0 ≤ first)
      (next : Outward step (step.around? file) files stop) :
      Outward step (some file) (file :: files) stop

/-- The walk outward under a limit on the number of files: it ends by itself, or at the
limit. -/
structure WalksWithin (step : Step) (limit : Nat) (node : Option FileNode)
    (files : List FileNode) (stop : Option FileNode) : Prop where
  outward : step.Outward node files stop
  length_le : files.length ≤ limit
  ends : EndsAt stop ∨ files.length = limit

variable {step : Step} {node stop : Option FileNode} {files : List FileNode}

theorem exists_walksWithin (step : Step) (limit : Nat) (node : Option FileNode) :
    ∃ files stop, step.WalksWithin limit node files stop := by
  induction limit generalizing node with
  | zero => exact ⟨[], node, .here node, Nat.le_refl _, Or.inr rfl⟩
  | succ limit ih =>
    by_cases hinside : ∃ file ∈ node, ∃ first, file.startsAt = some first ∧ 0 ≤ first
    · obtain ⟨file, rfl, first, begins, inside⟩ := hinside
      obtain ⟨files, stop, hnext, hle, hends⟩ := ih (step.around? file)
      exact ⟨file :: files, stop, .out begins inside hnext, Nat.succ_le_succ hle,
        hends.imp_right (congrArg Nat.succ)⟩
    · refine ⟨[], node, .here node, Nat.zero_le _, Or.inl ?_⟩
      intro file hfile first begins
      by_contra hnot
      exact hinside ⟨file, hfile, first, begins, by omega⟩

theorem mem_of_around? {file parent : FileNode} (h : step.around? file = some parent) :
    parent ∈ step.files := by
  obtain ⟨id, -, hfind⟩ := Option.bind_eq_some_iff.mp h
  exact List.mem_of_find?_eq_some hfind

theorem Outward.subset (h : step.Outward node files stop)
    (hnode : ∀ file ∈ node, file ∈ step.files) : files ⊆ step.files := by
  induction h with
  | here node => exact List.nil_subset _
  | out begins inside next ih =>
    exact List.cons_subset.mpr ⟨hnode _ rfl, ih fun parent => mem_of_around?⟩

/-- In order, the files outward from one were all opened before it. -/
theorem Outward.length_le (hstep : step.ParentsBefore) (h : step.Outward node files stop) {i : Nat}
    (hnode : ∀ file ∈ node, ∃ j < i, step.files[j]? = some file) : files.length ≤ i := by
  induction h generalizing i with
  | here node => exact Nat.zero_le _
  | out begins inside next ih =>
    obtain ⟨j, hj, hfile⟩ := hnode _ rfl
    exact Nat.lt_of_le_of_lt (ih fun parent => hstep.getElem?_of_around? hfile) hj

theorem Outward.sum_nonneg (h : step.Outward node files stop) :
    0 ≤ (files.map (·.firstLine)).sum := by
  induction h with
  | here node => exact Int.le_refl 0
  | out begins inside next ih =>
    rw [List.map_cons, List.sum_cons, FileNode.firstLine_eq begins]
    omega

/-! ### What it adds -/

theorem addAncestors_of_endsAt (h : EndsAt node) (limit : Nat) (offset : Int) :
    step.addAncestors limit node offset = offset := by
  cases limit with
  | zero => rfl
  | succ limit =>
    cases node with
    | none => rfl
    | some file =>
      unfold addAncestors
      cases begins : file.startsAt with
      | none => rfl
      | some first =>
        have hneg : first < 0 := h file rfl first begins
        exact if_neg (by omega)

/-- One more file around adds the line at which it begins. -/
theorem addAncestors_succ {file : FileNode} {first : Int} (begins : file.startsAt = some first)
    (inside : 0 ≤ first) (limit : Nat) (offset : Int) :
    step.addAncestors (limit + 1) (some file) offset =
      step.addAncestors limit (step.around? file)
        (Saturating.add offset (Saturating.add first 1)) := by
  simp only [addAncestors, begins, if_pos inside]
  rfl

/-- The walk adds up the lines at which the files begin, and stops at the greatest
number. -/
theorem WalksWithin.addAncestors_eq {limit : Nat} (h : step.WalksWithin limit node files stop)
    (hroom : ∀ file ∈ files, file.HasRoom) {offset : Int} (hoffset : InRange offset) :
    step.addAncestors limit node offset =
      min greatest (offset + (files.map (·.firstLine)).sum) := by
  obtain ⟨houtward, hlimit, hends⟩ := h
  induction houtward generalizing limit offset with
  | here node =>
    have hsame : step.addAncestors limit node offset = offset := by
      rcases hends with hends | hlength
      · exact addAncestors_of_endsAt hends limit offset
      · rw [← hlength]
        rfl
    rw [hsame, List.map_nil, List.sum_nil, Int.add_zero, Int.min_eq_right hoffset.2]
  | out begins inside next ih =>
    rename_i file first files stop
    cases limit with
    | zero => cases hlimit
    | succ limit =>
      obtain ⟨hfile, hfiles⟩ := List.forall_mem_cons.mp hroom
      -- the sum only grows, so it is the same to stop at the greatest number at once
      have hadd : Saturating.add offset file.firstLine =
          min greatest (offset + file.firstLine) := by
        rw [FileNode.firstLine_eq begins]
        simp only [InRange, Saturating.add, Saturating.clamp, least, greatest] at hoffset ⊢
        omega
      have hnonneg := next.sum_nonneg
      rw [addAncestors_succ begins inside, hfile.add_one begins,
        ih hfiles (Saturating.add_inRange _ _) (Nat.le_of_succ_le_succ hlimit)
          (hends.imp_right Nat.succ.inj), hadd, List.map_cons, List.sum_cons]
      omega

/-- The place of a file in the unit, under any limit on the walk. -/
theorem WalksWithin.place_eq {limit : Nat} {file : FileNode}
    (h : step.WalksWithin limit (step.around? file) files stop)
    (hroom : ∀ file ∈ step.files, file.HasRoom) (hfile : file ∈ step.files) {first : Int}
    (begins : file.startsAt = some first) :
    step.addAncestors limit (step.around? file) (Saturating.add first 1) =
      min greatest (first + 1 + (files.map (·.firstLine)).sum) := by
  have hsubset := h.outward.subset fun parent => mem_of_around?
  rw [h.addAncestors_eq (fun file hmem => hroom file (hsubset hmem))
    (Saturating.add_inRange _ _), (hroom file hfile).add_one begins,
    FileNode.firstLine_eq begins]

theorem WalksWithin.absoluteStart?_eq {file : FileNode}
    (h : step.WalksWithin step.files.length (step.around? file) files stop)
    (hroom : ∀ file ∈ step.files, file.HasRoom) (hfile : file ∈ step.files) {first : Int}
    (begins : file.startsAt = some first) :
    step.absoluteStart? file =
      some (min greatest (first + 1 + (files.map (·.firstLine)).sum)) := by
  rw [absoluteStart?, begins]
  exact congrArg some (h.place_eq hroom hfile begins)

/-- In order, the walk from a file ends by itself, and meets at most the files that stand
before it. -/
theorem ParentsBefore.exists_outward (hstep : step.ParentsBefore) {i : Nat} {file : FileNode}
    (hfile : step.files[i]? = some file) :
    ∃ files stop, step.Outward (step.around? file) files stop ∧ EndsAt stop ∧
      files.length ≤ i := by
  obtain ⟨files, stop, hwalk⟩ := step.exists_walksWithin (i + 1) (step.around? file)
  have hlength : files.length ≤ i :=
    hwalk.outward.length_le hstep fun parent => hstep.getElem?_of_around? hfile
  exact ⟨files, stop, hwalk.outward, hwalk.ends.resolve_right (by omega), hlength⟩

end Step

/-! ## The law -/

/-- In the first compile step each file lies in one that was opened before it, so the walk
outward ends by itself before it has met as many files as there are, and any limit from
there on leaves it alone. The place of a file is the sum of the lines at which it and the
files outward begin, or the greatest number. In every step the walk meets at most as many
files as there are. -/
theorem walk_outward_ends (listing : Listing) :
    (∀ step, (Forest.ofListing listing).steps.head? = some step →
      ∀ (i : Nat) (file : FileNode), step.files[i]? = some file →
        (∀ id, file.parent = some id → ∃ j < i, ∃ parent, step.files[j]? = some parent ∧
          parent.id = id ∧ step.find? id = some parent) ∧
        ∃ files stop, step.Outward (step.around? file) files stop ∧ EndsAt stop ∧
          files.length ≤ i ∧ i < step.files.length ∧
          ∀ first, file.startsAt = some first →
            step.absoluteStart? file =
              some (min greatest (first + 1 + (files.map (·.firstLine)).sum)) ∧
            ∀ limit, i ≤ limit →
              step.addAncestors limit (step.around? file) (Saturating.add first 1) =
                min greatest (first + 1 + (files.map (·.firstLine)).sum)) ∧
    ∀ step ∈ (Forest.ofListing listing).steps, ∀ file ∈ step.files,
      ∃ files stop, step.Outward (step.around? file) files stop ∧
        files.length ≤ step.files.length ∧
        (EndsAt stop ∨ files.length = step.files.length) ∧
        ∀ first, file.startsAt = some first →
          step.absoluteStart? file =
            some (min greatest (first + 1 + (files.map (·.firstLine)).sum)) := by
  have hroom : ∀ step ∈ (Forest.ofListing listing).steps, ∀ file ∈ step.files, file.HasRoom :=
    fun step hstep file => Forest.hasRoom_of_mem hstep
  refine ⟨?_, ?_⟩
  · intro step hhead i file hat
    have hstep := List.mem_of_head? hhead
    have hfile := List.mem_of_getElem? hat
    have hlt : i < step.files.length := (List.getElem?_eq_some_iff.mp hat).1
    have hparents := Forest.parentsBefore_head hhead
    obtain ⟨files, stop, houtward, hends, hlength⟩ := hparents.exists_outward hat
    have hwalk : ∀ limit, i ≤ limit → step.WalksWithin limit (step.around? file) files stop :=
      fun limit hlimit => ⟨houtward, Nat.le_trans hlength hlimit, Or.inl hends⟩
    refine ⟨fun id => hparents.find? hat, files, stop, houtward, hends, hlength, hlt, ?_⟩
    intro first begins
    refine ⟨(hwalk _ (Nat.le_of_lt hlt)).absoluteStart?_eq (hroom step hstep) hfile begins, ?_⟩
    exact fun limit hlimit => (hwalk limit hlimit).place_eq (hroom step hstep) hfile begins
  · intro step hstep file hfile
    obtain ⟨files, stop, hwalk⟩ := step.exists_walksWithin step.files.length (step.around? file)
    exact ⟨files, stop, hwalk.outward, hwalk.length_le, hwalk.ends,
      fun first begins => hwalk.absoluteStart?_eq (hroom step hstep) hfile begins⟩

/-- Two compile steps. The first one leaves its files open, with one number twice, and
ends a file that was never opened. So the file of the second step lies in itself. -/
def circular : Listing := Listing.ofLines [
  "PROCESSOR  0 000 1",
  "FILEID     0 001 000000 013 LIB/SRC(ROOT) 20230101120000 0",
  "FILEID     0 002 000003 012 LIB/CPY(CPA) 20230101120000 0",
  "FILEID     0 002 9223372036854775807 012 LIB/CPY(CPB) 20230101120000 0",
  "FILEEND    0 007 000001",
  "PROCESSOR  0 000 2",
  "FILEID     0 002 000005 012 LIB/CPY(CPC) 20230101120000 0"]

def rootFile : FileNode := ⟨⟨1⟩, none, some (-1), none, "LIB/SRC/ROOT", [], []⟩

def copyFile : FileNode := ⟨⟨2⟩, some ⟨1⟩, some 2, none, "LIB/CPY/CPA", [], []⟩

/-- The second file with the number of the one around it, at the last line of all. -/
def lastFile : FileNode :=
  ⟨⟨2⟩, some ⟨2⟩, some 9223372036854775806, none, "LIB/CPY/CPB", [], []⟩

def ownParent : FileNode := ⟨⟨2⟩, some ⟨2⟩, some 4, none, "LIB/CPY/CPC", [], []⟩

/-- The first step, with a sum that stops at the greatest number. -/
def openedInOrder : Step := ⟨[rootFile, copyFile, lastFile]⟩

/-- The second step, with a walk that stops at the limit. -/
def closedCircle : Step := ⟨[ownParent]⟩

theorem steps_circular : (Forest.ofListing circular).steps = [openedInOrder, closedCircle] := by
  decide +kernel

theorem circular_walks_end :
    (∃ j < 2, ∃ parent, openedInOrder.files[j]? = some parent ∧ parent.id = ⟨2⟩ ∧
      openedInOrder.find? ⟨2⟩ = some parent) ∧
    (∃ files : List FileNode, files.length ≤ 2 ∧ openedInOrder.absoluteStart? lastFile =
      some (min greatest (9223372036854775807 + (files.map (·.firstLine)).sum))) ∧
    openedInOrder.absoluteStart? lastFile = some greatest ∧
    closedCircle.around? ownParent = some ownParent ∧
    (∃ files stop, closedCircle.Outward (some ownParent) files stop ∧ files.length ≤ 1) ∧
    closedCircle.absoluteStart? ownParent = some 10 := by
  obtain ⟨hfirst, hevery⟩ := walk_outward_ends circular
  obtain ⟨hparent, files, stop, -, -, hlength, -, hplace⟩ :=
    hfirst openedInOrder (by rw [steps_circular]; rfl) 2 lastFile rfl
  obtain ⟨around, last, houtward, hlimit, -⟩ :=
    hevery closedCircle (by simp [steps_circular]) ownParent List.mem_cons_self
  refine ⟨hparent _ rfl, ⟨files, hlength, (hplace _ rfl).1⟩, ?_, ?_, ⟨around, last, houtward,
    hlimit⟩, ?_⟩
  · decide +kernel
  · decide +kernel
  · decide +kernel

end EventListing
