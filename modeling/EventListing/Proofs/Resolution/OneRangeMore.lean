-- One range more. A range that is marked as unused stands at line zero, before
-- all lines from one on. The pass by ranges does with it what it does without it,
-- only that the sum of the shares may grow by one.
import EventListing.Proofs.Resolution.FromOne
import EventListing.Proofs.Resolution.Independence

namespace EventListing.Resolution

open Saturating (InRange least greatest clamp)

/-! ## One more range among the others -/

/-- The range of an expansion that marks both of its bounds as unused. -/
def unusedRange : LineRange := ⟨0, 0, none⟩

/-- The ranges with an unused one behind the first `count` of them. -/
def withUnused (count : Nat) (ranges : List LineRange) : List LineRange :=
  ranges.take count ++ unusedRange :: ranges.drop count

/-- The range is one line long, and no line from one on lies in it. -/
theorem shareOf_unused (line : Int) : shareOf line unusedRange = if 1 ≤ line then 1 else 0 := by
  have hafter : unusedRange.isAfter line ↔ 0 ≤ line := by
    rw [LineRange.isAfter, decide_eq_true_eq]
    rfl
  have hcontains : unusedRange.contains line ↔ line = 0 := by
    rw [LineRange.contains_iff]
    change 0 ≤ line ∧ line ≤ 0 ↔ line = 0
    omega
  unfold shareOf
  by_cases hone : 1 ≤ line
  · rw [if_pos (hafter.mpr (by omega)), if_neg (fun h => by have := hcontains.mp h; omega),
      if_pos hone]
    rfl
  · rw [if_neg hone]
    by_cases hzero : line = 0
    · subst hzero
      rfl
    · rw [if_neg (fun h => by have := hafter.mp h; omega)]

/-- The sum of the shares grows by one at most. Where a later sum is cut off, it
may not grow at all. -/
theorem shift_unused_le (xs ys : List LineRange) (line : Int) :
    shift (xs ++ ys) line ≤ shift (xs ++ unusedRange :: ys) line ∧
      shift (xs ++ unusedRange :: ys) line ≤
        shift (xs ++ ys) line + if 1 ≤ line then 1 else 0 := by
  induction ys using List.reverseRecOn with
  | nil =>
    have hrange := shift_inRange xs line
    rw [List.append_nil, shift_append, shareOf_unused]
    simp only [Saturating.add, clamp, InRange, least, greatest] at *
    split <;> omega
  | append_singleton ys range ih =>
    -- the last share is added to both sums, and at the ends of the range both stop
    rw [← List.append_assoc, ← List.cons_append, ← List.append_assoc, shift_append, shift_append]
    simp only [Saturating.add, clamp, least, greatest]
    split at ih <;> simp only [*, if_true, if_false] <;> omega

/-- No sum is cut off while the shares are not negative and the whole sum is below
the greatest number. -/
theorem shift_unused_eq {xs ys : List LineRange} {line : Int}
    (hshares : ∀ range ∈ xs ++ ys, 0 ≤ shareOf line range) (hone : 1 ≤ line)
    (hlt : shift (xs ++ ys) line < greatest) :
    shift (xs ++ unusedRange :: ys) line = shift (xs ++ ys) line + 1 := by
  induction ys using List.reverseRecOn with
  | nil =>
    have hrange := shift_inRange xs line
    rw [List.append_nil] at hlt ⊢
    rw [shift_append, shareOf_unused, if_pos hone]
    simp only [Saturating.add, clamp, InRange, least, greatest] at *
    omega
  | append_singleton ys range ih =>
    rw [← List.append_assoc] at hshares hlt ⊢
    rw [← List.cons_append, ← List.append_assoc, shift_append, shift_append]
    have hshare := hshares range (List.mem_append_right _ (List.mem_singleton_self _))
    have hrange := shift_inRange (xs ++ ys) line
    rw [shift_append] at hlt
    have hbefore := ih (fun r hr => hshares r (List.mem_append_left _ hr)) (by
      simp only [Saturating.add, clamp, InRange, least, greatest] at *
      omega)
    rw [hbefore]
    simp only [Saturating.add, clamp, InRange, least, greatest] at *
    omega

theorem shift_nonneg {ranges : List LineRange} {line : Int}
    (hshares : ∀ range ∈ ranges, 0 ≤ shareOf line range) : 0 ≤ shift ranges line := by
  induction ranges using List.reverseRecOn with
  | nil => exact Int.le_refl _
  | append_singleton ranges range ih =>
    have hshare := hshares range (List.mem_append_right _ (List.mem_singleton_self _))
    have hbefore := ih fun r hr => hshares r (List.mem_append_left _ hr)
    rw [shift_append]
    simp only [Saturating.add, clamp, least, greatest]
    omega

theorem withUnused_append {count : Nat} {ranges : List LineRange} (h : count ≤ ranges.length)
    (range : LineRange) :
    withUnused count (ranges ++ [range]) = withUnused count ranges ++ [range] := by
  unfold withUnused
  rw [List.take_append_of_le_length h, List.drop_append_of_le_length h, List.append_assoc,
    List.cons_append]

/-- An unused range behind the first `count` ranges takes a line from an error:
its share is counted, and the sum of all shares is taken off the line. -/
def TakesLine (count : Nat) (ranges : List LineRange) (line : Int) : Prop :=
  0 ≤ shift ranges line ∧ shift ranges line < shift (withUnused count ranges) line

instance (count : Nat) (ranges : List LineRange) (line : Int) :
    Decidable (TakesLine count ranges line) := inferInstanceAs (Decidable (_ ∧ _))

theorem correctedLine_withUnused {count : Nat} {ranges : List LineRange} {line : Int}
    (hline : line ≤ greatest) :
    correctedLine (withUnused count ranges) line =
      if TakesLine count ranges line then correctedLine ranges line - 1
      else correctedLine ranges line := by
  have hgrown := shift_unused_le (ranges.take count) (ranges.drop count) line
  rw [List.take_append_drop] at hgrown
  have hrange := shift_inRange ranges line
  have hrange' := shift_inRange (withUnused count ranges) line
  unfold TakesLine correctedLine Saturating.sub
  unfold withUnused at *
  simp only [clamp, InRange, least, greatest] at *
  split at hgrown <;> repeat' split
  all_goals omega

/-- Where the shares are not negative and no sum is cut off, the range takes a
line from every error from line one on. -/
theorem takesLine_iff {count : Nat} {ranges : List LineRange} {line : Int}
    (hshares : ∀ range ∈ ranges, 0 ≤ shareOf line range) (hlt : shift ranges line < greatest) :
    TakesLine count ranges line ↔ 1 ≤ line := by
  have hsplit := List.take_append_drop count ranges
  constructor
  · rintro ⟨-, hgrows⟩
    have hle := (shift_unused_le (ranges.take count) (ranges.drop count) line).2
    rw [hsplit] at hle
    unfold withUnused at hgrows
    by_contra hone
    rw [if_neg hone] at hle
    omega
  · intro hone
    have hgrown := shift_unused_eq (hsplit.symm ▸ hshares) hone (hsplit.symm ▸ hlt)
    rw [hsplit] at hgrown
    refine ⟨shift_nonneg hshares, ?_⟩
    unfold withUnused
    omega

/-! ## The pass with the range and without it -/

/-- The file with an unused range behind the first `count` of its ranges. -/
def TrackedFile.withUnused (count : Nat) (file : TrackedFile) : TrackedFile :=
  { file with ranges := Resolution.withUnused count file.ranges }

namespace Correction

/-- The state in which the file `id` has an unused range behind the first `count`
of its ranges. -/
def withUnused (s : Correction) (id : FileId) (count : Nat) : Correction :=
  { s with files := s.files.modify id (TrackedFile.withUnused count) }

/-- The file is known and has at least `count` ranges. -/
def HasRanges (s : Correction) (id : FileId) (count : Nat) : Prop :=
  id ∈ s.files.keys ∧ count ≤ (s.rangesOf id).length

variable {records : List Record} {s t : Correction} {id : FileId} {count : Nat}

theorem SameFrame.symm (h : SameFrame s t) : SameFrame t s :=
  ⟨fun id => (h.files id).symm, h.openFiles.symm, h.openRanges.symm⟩

/-- Any record does the same to both, but for the errors. -/
theorem SameFrame.apply_any (h : SameFrame s t) (record : Record) :
    SameFrame (s.apply records record) (t.apply records record) := by
  cases hrecord : record.isError with
  | false => exact h.apply (fun _ => rfl) hrecord
  | true =>
    cases record with
    | error r => exact ((addError s r).trans h).trans (addError t r).symm
    | processor | fileStart | namePart | fileEnd | expansion | ignored | unrecognized =>
      cases hrecord

theorem SameFrame.foldl (h : SameFrame s t) (rest : List Record) :
    SameFrame (rest.foldl (Correction.apply records) s)
      (rest.foldl (Correction.apply records) t) := by
  induction rest generalizing s t with
  | nil => exact h
  | cons record rest ih => exact ih (h.apply_any record)

theorem HasRanges.apply (h : s.HasRanges id count) (record : Record) :
    (s.apply records record).HasRanges id count := by
  refine ⟨?_, Nat.le_trans h.2 (rangesOf_apply records s record id).length_le⟩
  rw [keys_apply]
  split
  · exact h.1
  · split
    · exact h.1
    · exact List.mem_append_left _ h.1

theorem HasRanges.foldl (h : s.HasRanges id count) (rest : List Record) :
    (rest.foldl (Correction.apply records) s).HasRanges id count := by
  induction rest generalizing s with
  | nil => exact h
  | cons record rest ih => exact ih (h.apply record)

/-- Which files are known does not depend on the range. -/
theorem contains_withUnused (s : Correction) (id : FileId) (count : Nat) (q : FileId) :
    (s.withUnused id count).files.contains q = s.files.contains q := by
  unfold OrderedMap.contains withUnused
  rw [OrderedMap.get?_modify]
  split
  · rename_i hid
    rw [hid, Option.isSome_map]
  · rfl

/-- One more range goes behind the unused one. -/
theorem withUnused_modify (h : s.HasRanges id count) (key : FileId) (range : LineRange) :
    SameFrame
      (({ s with files := s.files.modify key (withRange range) } : Correction).withUnused id count)
      { s.withUnused id count with
        files := (s.withUnused id count).files.modify key (withRange range) } := by
  obtain ⟨file, hfile⟩ := Option.isSome_iff_exists.mp ((OrderedMap.mem_keys_iff _ _).mp h.1)
  have hcount : count ≤ file.ranges.length := by
    have hle := h.2
    unfold rangesOf at hle
    rwa [hfile] at hle
  refine ⟨fun q => congrArg (Option.map TrackedFile.bare) ?_, rfl, rfl⟩
  simp only [withUnused, OrderedMap.get?_modify]
  by_cases hid : q = id
  · subst hid
    by_cases hkey : q = key
    · subst hkey
      simp [hfile, withRange, TrackedFile.withUnused, withUnused_append hcount]
    · simp [hkey]
  · by_cases hkey : q = key
    · subst hkey
      simp [hid]
    · simp [hid, hkey]

theorem withUnused_openFile (h : s.HasRanges id count) (r : Record.FileStart) :
    SameFrame ((s.openFile records r).withUnused id count)
      ((s.withUnused id count).openFile records r) := by
  refine ⟨fun q => congrArg (Option.map TrackedFile.bare) ?_, rfl, rfl⟩
  unfold openFile
  rw [contains_withUnused]
  simp only [withUnused]
  split
  · rfl
  · rename_i hnew
    have hne : r.fileId ≠ id := by
      rintro rfl
      exact hnew ((OrderedMap.mem_keys_iff _ _).mp h.1)
    simp only [OrderedMap.insertNew, OrderedMap.get?_modify, OrderedMap.get?_alter, if_neg hne,
      if_neg hne.symm]
    by_cases hid : q = id
    · subst hid
      simp [hne.symm]
    · simp [hid]

theorem withUnused_addCopyRange (h : s.HasRanges id count) (range : LineRange) :
    SameFrame ((s.addCopyRange range).withUnused id count)
      ((s.withUnused id count).addCopyRange range) := by
  have hopen : (s.withUnused id count).openFiles = s.openFiles := rfl
  unfold addCopyRange
  rw [hopen, contains_withUnused]
  split
  · split
    · exact withUnused_modify h _ range
    · exact SameFrame.refl _
  · exact SameFrame.refl _

theorem withUnused_closeFile (h : s.HasRanges id count) (r : Record.FileEnd) :
    SameFrame ((s.closeFile r).withUnused id count)
      ((s.withUnused id count).closeFile r) := by
  have hinclude : (s.withUnused id count).includeAt r.fileId = s.includeAt r.fileId := by
    rw [includeAt_eq, includeAt_eq, withUnused, map_get?_modify]
    exact fun _ => rfl
  unfold includeAt at hinclude
  obtain ⟨files, openFiles, openRanges⟩ := s
  have hclosed : ∀ rest, HasRanges ⟨files, openFiles.tail, rest⟩ id count := fun _ => h
  unfold closeFile
  simp only [hinclude]
  split
  · cases openRanges with
    | nil => exact SameFrame.refl _
    | cons opened rest =>
      simp only [withUnused]
      split
      · exact withUnused_addCopyRange (hclosed rest) _
      · exact SameFrame.refl _
  · exact SameFrame.refl _

/-- A record does the same with the unused range and without it, but for the
errors. -/
theorem withUnused_apply (h : s.HasRanges id count) (record : Record) :
    SameFrame ((s.apply records record).withUnused id count)
      ((s.withUnused id count).apply records record) := by
  cases record with
  | fileStart r => exact withUnused_openFile h r
  | fileEnd r => exact withUnused_closeFile h r
  | expansion r =>
    simp only [apply, addExpansion]
    split
    · exact withUnused_modify h _ _
    · exact SameFrame.refl _
  | error r =>
    have hbare : SameFrame ((s.addError r).withUnused id count) (s.withUnused id count) :=
      (SameFrame.addError s r).modify (fun _ => rfl) id
    exact hbare.trans (SameFrame.addError _ r).symm
  | processor | namePart | ignored | unrecognized => exact SameFrame.refl _

theorem rangesOf_withUnused (h : id ∈ s.files.keys) (q : FileId) :
    (s.withUnused id count).rangesOf q =
      if q = id then Resolution.withUnused count (s.rangesOf q) else s.rangesOf q := by
  obtain ⟨file, hfile⟩ := Option.isSome_iff_exists.mp ((OrderedMap.mem_keys_iff _ _).mp h)
  simp only [rangesOf, withUnused, OrderedMap.get?_modify]
  split
  · rename_i hid
    subst hid
    simp [hfile, TrackedFile.withUnused]
  · rfl

/-- The expansion that gives a known file the unused range. -/
theorem addExpansion_of_known {r : Record.Expansion} {file : TrackedFile}
    (hunused : r.rangeStart = some 0 ∧ r.rangeEnd = some 0)
    (hfile : s.files.get? r.fileId = some file) :
    s.addExpansion r = s.withUnused r.fileId file.ranges.length := by
  unfold addExpansion withUnused
  simp only [hunused.1, hunused.2]
  congr 1
  refine OrderedMap.modify_congr ?_
  intro found hfound
  obtain rfl : file = found := Option.some.inj (hfile.symm.trans hfound)
  simp [TrackedFile.withUnused, Resolution.withUnused, unusedRange]

/-- An expansion of a file that is not known yet is lost. -/
theorem addExpansion_of_unknown {r : Record.Expansion} (hfile : s.files.get? r.fileId = none) :
    SameFrame (s.addExpansion r) s := by
  unfold addExpansion
  split
  · refine ⟨fun q => ?_, rfl, rfl⟩
    simp only [OrderedMap.get?_modify]
    split
    · rename_i hid
      rw [hid, hfile]
      rfl
    · rfl
  · exact SameFrame.refl s

theorem withUnused_foldl (h : s.HasRanges id count) (rest : List Record) :
    SameFrame ((rest.foldl (apply records) s).withUnused id count)
      (rest.foldl (apply records) (s.withUnused id count)) := by
  induction rest generalizing s with
  | nil => exact SameFrame.refl _
  | cons record rest ih =>
    exact (ih (h.apply record)).trans ((withUnused_apply h record).foldl rest)

end Correction

end EventListing.Resolution
