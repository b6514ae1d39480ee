-- What the pass by ranges keeps of each file. A record adds at most one
-- diagnostic, to the file that it names, and the path of a file is that of
-- its first file start.
import EventListing.Proofs.Grouping
import EventListing.Proofs.Record.Opened
import EventListing.Proofs.Resolution.ByLine

namespace EventListing

namespace Resolution

/-- Without ranges, a line is where it is. -/
theorem correctedLine_nil (line : Int) : correctedLine [] line = line := rfl

namespace Correction

/-! ## One file -/

/-- The diagnostics so far of the file with this number. -/
def errorsAt (s : Correction) (id : FileId) : List Diagnostic :=
  ((s.files.get? id).map (·.errors)).getD []

/-- The diagnostic that a record adds, with the number of its file. -/
def emitted? (s : Correction) : Record → Option (FileId × Diagnostic)
  | .error r =>
    if isNoise r then none
    else (s.files.get? r.fileId).bind fun file =>
      r.line.map fun line => (r.fileId, diagnosticAt r (correctedLine file.ranges line))
  | _ => none

/-- What the records add, one after the other. -/
def emitted (records : List Record) : Correction → List Record → List (FileId × Diagnostic)
  | _, [] => []
  | s, record :: rest =>
    (s.emitted? record).toList ++ emitted records (s.apply records record) rest

/-! ## One record -/

/-- The pass looks at the listing as a whole only for the names of its files. -/
theorem apply_congr {records records' : List Record}
    (h : ∀ id, UnitName.full? records id = UnitName.full? records' id) :
    apply records = apply records' := by
  funext s record
  cases record with
  | fileStart r => simp only [apply, openFile, pathOf, h]
  | processor | namePart | fileEnd | expansion | error | ignored | unrecognized => rfl

/-- The file with one more range. -/
def withRange (range : LineRange) (file : TrackedFile) : TrackedFile :=
  { file with ranges := file.ranges ++ [range] }

/-- A file end gives at most one file a range, and only once the precompiler's
unit is known. -/
theorem files_closeFile (s : Correction) (r : Record.FileEnd) :
    (s.closeFile r).files = s.files ∨
      s.files.contains FileId.baseUnit ∧
        ∃ key range, (s.closeFile r).files = s.files.modify key (withRange range) := by
  unfold closeFile
  simp only
  split
  · split
    · exact Or.inl rfl
    · split
      · unfold addCopyRange
        split
        · rename_i hopen
          split
          · rename_i hbase
            exact Or.inr ⟨hbase, _, _, rfl⟩
          · exact Or.inl rfl
        · exact Or.inl rfl
      · exact Or.inl rfl
  · exact Or.inl rfl

/-- An expansion gives the file that it names the range that it reads, if any. -/
theorem files_addExpansion (s : Correction) (r : Record.Expansion) :
    (s.addExpansion r).files = s.files ∨
      ∃ low high, r.rangeStart = some low ∧ r.rangeEnd = some high ∧
        (s.addExpansion r).files = s.files.modify r.fileId (withRange ⟨low, high, none⟩) := by
  unfold addExpansion
  split
  · rename_i low high hlow hhigh
    exact Or.inr ⟨low, high, hlow, hhigh, rfl⟩
  · exact Or.inl rfl

/-- What a change leaves alone is found as before. -/
theorem map_get?_modify {α : Type} {f : TrackedFile → α} {change : TrackedFile → TrackedFile}
    (h : ∀ file, f (change file) = f file) (files : OrderedMap FileId TrackedFile)
    (key id : FileId) : ((files.modify key change).get? id).map f = (files.get? id).map f := by
  rw [OrderedMap.get?_modify]
  split
  · rename_i hid
    subst hid
    cases files.get? id <;> simp [h]
  · rfl

theorem mem_keys_openFile (records : List Record) (s : Correction) (r : Record.FileStart)
    (id : FileId) : id ∈ (s.openFile records r).files.keys ↔ id ∈ r.fileId :: s.files.keys := by
  have hold : s.files.contains r.fileId ↔ r.fileId ∈ s.files.keys :=
    (OrderedMap.mem_keys_iff _ _).symm
  rw [List.mem_cons]
  unfold openFile
  split
  · rename_i hmem
    constructor
    · exact Or.inr
    · rintro (rfl | hid)
      · exact hold.mp hmem
      · exact hid
  · rename_i hnew
    rw [OrderedMap.insertNew, OrderedMap.keys_alter, if_neg (fun h => hnew (hold.mpr h)),
      List.mem_append, List.mem_singleton, or_comm]

theorem keys_addError (s : Correction) (r : Record.Error) :
    (s.addError r).files.keys = s.files.keys := by
  rw [addError_eq]
  split
  · rfl
  · split
    · rfl
    · exact OrderedMap.keys_modify _ _ _

/-! ### The diagnostics -/

theorem errorsAt_openFile (records : List Record) (s : Correction) (r : Record.FileStart)
    (id : FileId) : (s.openFile records r).errorsAt id = s.errorsAt id := by
  unfold errorsAt openFile
  simp only
  split
  · rfl
  · rename_i hnew
    rw [OrderedMap.insertNew, OrderedMap.get?_alter]
    split
    · rename_i hid
      have hnone : s.files.get? id = none := by simpa [OrderedMap.contains, hid] using hnew
      rw [hid] at hnone
      simp [hid, hnone]
    · rfl

theorem errorsAt_closeFile (s : Correction) (r : Record.FileEnd) (id : FileId) :
    (s.closeFile r).errorsAt id = s.errorsAt id := by
  unfold errorsAt
  rcases files_closeFile s r with h | ⟨-, key, range, h⟩
  · rw [h]
  · rw [h, map_get?_modify]
    exact fun file => rfl

theorem errorsAt_addExpansion (s : Correction) (r : Record.Expansion) (id : FileId) :
    (s.addExpansion r).errorsAt id = s.errorsAt id := by
  unfold errorsAt
  rcases files_addExpansion s r with h | ⟨low, high, -, -, h⟩
  · rw [h]
  · rw [h, map_get?_modify]
    exact fun file => rfl

theorem errorsAt_addError (s : Correction) (r : Record.Error) (id : FileId) :
    (s.addError r).errorsAt id =
      s.errorsAt id ++ ((s.emitted? (.error r)).toList.filter (·.1 = id)).map Prod.snd := by
  rw [addError_eq]
  unfold emitted?
  by_cases hnoise : isNoise r
  · simp [hnoise]
  · simp only [hnoise, Bool.false_eq_true, if_false]
    cases r.line with
    | none => cases s.files.get? r.fileId <;> simp
    | some line =>
      simp only [errorsAt, OrderedMap.get?_modify]
      by_cases hid : id = r.fileId
      · subst hid
        cases s.files.get? r.fileId <;> simp
      · have hid' : ¬ r.fileId = id := fun e => hid e.symm
        cases s.files.get? r.fileId <;> simp [hid, hid']

/-- A record adds its diagnostic to the file that it names, behind the ones
that are there. -/
theorem errorsAt_apply (records : List Record) (s : Correction) (record : Record) (id : FileId) :
    (s.apply records record).errorsAt id =
      s.errorsAt id ++ ((s.emitted? record).toList.filter (·.1 = id)).map Prod.snd := by
  cases record with
  | error r => exact errorsAt_addError s r id
  | fileStart r => exact (errorsAt_openFile records s r id).trans (List.append_nil _).symm
  | fileEnd r => exact (errorsAt_closeFile s r id).trans (List.append_nil _).symm
  | expansion r => exact (errorsAt_addExpansion s r id).trans (List.append_nil _).symm
  | processor | namePart | ignored | unrecognized => simp [emitted?, apply]

/-! ### What is settled when a file is opened -/

/-- The file as its first file start opens it. -/
def opened (records : List Record) (r : Record.FileStart) : TrackedFile :=
  ⟨pathOf records r, r.isInclude, [], []⟩

section Settled

variable {α : Type} {f : TrackedFile → α}

theorem map_get?_openFile (records : List Record) (s : Correction) (r : Record.FileStart)
    (id : FileId) :
    ((s.openFile records r).files.get? id).map f =
      ((s.files.get? id).map f).or (if r.fileId = id then some (f (opened records r)) else none) := by
  unfold openFile
  simp only
  split
  · rename_i hold
    by_cases hid : r.fileId = id
    · rw [hid] at hold
      obtain ⟨file, hfile⟩ := Option.isSome_iff_exists.mp hold
      simp [hfile]
    · simp [hid]
  · rename_i hnew
    rw [OrderedMap.insertNew, OrderedMap.get?_alter]
    by_cases hid : r.fileId = id
    · have hnone : s.files.get? r.fileId = none := by simpa [OrderedMap.contains] using hnew
      subst hid
      simp [hnone, opened]
    · have hid' : ¬ id = r.fileId := fun e => hid e.symm
      simp [hid, hid']

variable (hf : ∀ file errors ranges, f ⟨file.path, file.isInclude, errors, ranges⟩ = f file)

include hf

theorem map_get?_addError (s : Correction) (r : Record.Error) (id : FileId) :
    ((s.addError r).files.get? id).map f = (s.files.get? id).map f := by
  rw [addError_eq]
  split
  · rfl
  · split
    · rfl
    · exact map_get?_modify (fun file => hf file _ _) s.files r.fileId id

/-- Only the first file start with a number settles anything. -/
theorem map_get?_apply (records : List Record) (s : Correction) (record : Record) (id : FileId) :
    ((s.apply records record).files.get? id).map f =
      ((s.files.get? id).map f).or
        ((UnitName.firstStart? [record] id).map fun r => f (opened records r)) := by
  unfold UnitName.firstStart?
  cases record with
  | fileStart r =>
    rw [apply, map_get?_openFile]
    congr 1
    by_cases hid : r.fileId = id <;> simp [hid]
  | fileEnd r =>
    have h : ((s.closeFile r).files.get? id).map f = (s.files.get? id).map f := by
      rcases files_closeFile s r with h | ⟨-, key, range, h⟩
      · rw [h]
      · rw [h]
        exact map_get?_modify (fun file => hf file _ _) _ _ _
    simp [apply, h]
  | expansion r =>
    have h : ((s.addExpansion r).files.get? id).map f = (s.files.get? id).map f := by
      rcases files_addExpansion s r with h | ⟨low, high, -, -, h⟩
      · rw [h]
      · rw [h]
        exact map_get?_modify (fun file => hf file _ _) _ _ _
    simp [apply, h]
  | error r => simp [apply, map_get?_addError hf]
  | processor | namePart | ignored | unrecognized => simp [apply]

/-- What is settled for a number is so by its first file start. -/
theorem map_get?_foldl (records rest : List Record) (s : Correction) (id : FileId) :
    ((rest.foldl (apply records) s).files.get? id).map f =
      ((s.files.get? id).map f).or
        ((UnitName.firstStart? rest id).map fun r => f (opened records r)) := by
  induction rest generalizing s with
  | nil => simp [UnitName.firstStart?]
  | cons record rest ih =>
    rw [List.foldl_cons, ih, map_get?_apply hf, Option.or_assoc, ← Option.map_or,
      ← UnitName.firstStart?_cons]

end Settled

/-- The path of the file with this number, once it was opened. -/
def pathAt (s : Correction) (id : FileId) : Option String := (s.files.get? id).map (·.path)

/-- The file with this number is an included member. -/
def includeAt (s : Correction) (id : FileId) : Bool := (s.files.get? id).any (·.isInclude)

theorem includeAt_eq (s : Correction) (id : FileId) :
    s.includeAt id = ((s.files.get? id).map (·.isInclude)).getD false := by
  unfold includeAt
  cases s.files.get? id <;> rfl

/-! ## All records -/

/-- A file keeps what the records add to it, in their order. -/
theorem errorsAt_foldl (records rest : List Record) (s : Correction) (id : FileId) :
    (rest.foldl (apply records) s).errorsAt id =
      s.errorsAt id ++ ((emitted records s rest).filter (·.1 = id)).map Prod.snd := by
  induction rest generalizing s with
  | nil => simp [emitted]
  | cons record rest ih =>
    rw [List.foldl_cons, ih, errorsAt_apply, emitted, List.filter_append, List.map_append,
      List.append_assoc]

/-- The path of a number is that of its first file start. -/
theorem pathAt_foldl (records rest : List Record) (s : Correction) (id : FileId) :
    (rest.foldl (apply records) s).pathAt id =
      (s.pathAt id).or ((UnitName.firstStart? rest id).map (pathOf records)) :=
  map_get?_foldl (fun _ _ _ => rfl) records rest s id

/-- So is whether it is an included member. -/
theorem includeAt_foldl (records rest : List Record) (id : FileId) :
    (rest.foldl (apply records) start).includeAt id =
      (UnitName.firstStart? rest id).any (·.isInclude) := by
  rw [includeAt_eq, map_get?_foldl (fun _ _ _ => rfl)]
  cases UnitName.firstStart? rest id <;> rfl

/-! ## The result -/

/-- The errors of the files of one path, file by file. -/
theorem flatMap_errors_eq (s : Correction) (path : String) :
    (s.files.values.filter (·.path = path)).flatMap (·.errors) =
      (s.files.keys.filter (s.pathAt · = some path)).flatMap s.errorsAt := by
  rw [OrderedMap.values_eq]
  induction s.files.keys with
  | nil => rfl
  | cons id ids ih =>
    cases hfile : s.files.get? id with
    | none => simp [hfile, ih, pathAt]
    | some file => by_cases hpath : file.path = path <;> simp [hfile, ih, pathAt, errorsAt, hpath]

/-- Each path lists what the records add to the files of that path. -/
theorem listed_byRanges_perm (records : List Record) (path : String) :
    ((byRanges records).listed path).Perm
      (((emitted records start records).filter fun entry =>
        (UnitName.firstStart? records entry.1).map (pathOf records) = some path).map Prod.snd) := by
  set s := records.foldl (apply records) start with hs
  have hpath : ∀ id, s.pathAt id = (UnitName.firstStart? records id).map (pathOf records) := by
    intro id
    rw [hs, pathAt_foldl]
    rfl
  have herrors : ∀ id, s.errorsAt id =
      ((emitted records start records).filter (·.1 = id)).map Prod.snd := by
    intro id
    rw [hs, errorsAt_foldl]
    rfl
  simp only [← hpath]
  rw [byRanges, ← hs, listed_finish, flatMap_errors_eq, funext herrors, ← List.map_flatMap]
  refine (byLine_perm _).trans (List.Perm.map _ ?_)
  refine flatMap_filter_keys_perm s.files.nodup_keys (fun id => s.pathAt id = some path) ?_
  -- an entry of the path belongs to a file that is there
  intro entry _ hat
  rw [decide_eq_true_eq] at hat
  obtain ⟨file, hfile, -⟩ := Option.map_eq_some_iff.mp hat
  refine (OrderedMap.mem_keys_iff _ _).mpr ?_
  rw [hfile]
  rfl

end Correction

end Resolution

end EventListing
