-- Expansions that leave their range unused. The pass by ranges keeps the range as
-- one that holds line zero alone, so it may take a line from the errors that come
-- after it in the listing. The sum of the listed lines tells whether it does.
import Mathlib.Algebra.Order.BigOperators.Group.List
import Mathlib.Algebra.Order.Group.Int
import EventListing.Proofs.Resolution.OneRangeMore

namespace EventListing

/-! ## The listing with the expansion and without it -/

section Expansion

variable (xs ys : List Record) (r : Record.Expansion)

theorem firstStart?_expansion (id : FileId) :
    UnitName.firstStart? (xs ++ .expansion r :: ys) id = UnitName.firstStart? (xs ++ ys) id := by
  rw [UnitName.firstStart?_append, UnitName.firstStart?_append, UnitName.firstStart?_cons]
  rfl

theorem full?_expansion (id : FileId) :
    UnitName.full? (xs ++ .expansion r :: ys) id = UnitName.full? (xs ++ ys) id := by
  have hfragments : UnitName.fragments (xs ++ .expansion r :: ys) id =
      UnitName.fragments (xs ++ ys) id := by
    unfold UnitName.fragments
    rw [List.filterMap_append, List.filterMap_append]
    rfl
  unfold UnitName.full?
  rw [firstStart?_expansion, hfragments]

end Expansion

namespace Resolution.Correction

open Record

/-- How many ranges the file has at the end of the records before, if it is known
by then. -/
def rangeCount? (records before : List Record) (id : FileId) : Option Nat :=
  ((before.foldl (apply records) start).files.get? id).map (·.ranges.length)

/-- The errors that are accepted behind `before`. -/
def acceptedBehind (before after : List Record) : List Accepted :=
  gather (accepted? (before ++ after)) before after

/-- The accepted error with one more range of its file: an unused one behind the
first `count?` of them. -/
def Accepted.withUnused (id : FileId) (count? : Option Nat) (a : Accepted) : Accepted :=
  match count? with
  | none => a
  | some count =>
    if a.record.fileId = id then { a with ranges := Resolution.withUnused count a.ranges } else a

/-- The unused range takes a line from the accepted error. -/
def Accepted.LosesLine (id : FileId) (count? : Option Nat) (a : Accepted) : Prop :=
  match count? with
  | none => False
  | some count => a.record.fileId = id ∧ TakesLine count a.ranges a.line

instance (id : FileId) : (count? : Option Nat) → (a : Accepted) → Decidable (a.LosesLine id count?)
  | none, _ => inferInstanceAs (Decidable False)
  | some _, _ => inferInstanceAs (Decidable (_ ∧ _))

section Unused

variable (xs ys : List Record) {r : Record.Expansion}

theorem apply_expansion : apply (xs ++ .expansion r :: ys) = apply (xs ++ ys) :=
  apply_congr (full?_expansion xs ys r)

theorem pathUnder?_expansion :
    pathUnder? (xs ++ .expansion r :: ys) = pathUnder? (xs ++ ys) := by
  funext id
  unfold pathUnder? pathOf
  simp only [firstStart?_expansion, full?_expansion]

theorem openedIds_expansion : openedIds (xs ++ .expansion r :: ys) = openedIds (xs ++ ys) := by
  unfold openedIds openings
  rw [List.filterMap_append, List.filterMap_append]
  rfl

/-- The ranges of a file behind the expansion. -/
theorem rangesOf_behind (hunused : r.rangeStart = some 0 ∧ r.rangeEnd = some 0)
    (more : List Record) (id : FileId) :
    ((xs ++ .expansion r :: more).foldl (apply (xs ++ ys)) start).rangesOf id =
      match rangeCount? (xs ++ ys) xs r.fileId with
      | none => ((xs ++ more).foldl (apply (xs ++ ys)) start).rangesOf id
      | some count =>
        if id = r.fileId then
          Resolution.withUnused count (((xs ++ more).foldl (apply (xs ++ ys)) start).rangesOf id)
        else ((xs ++ more).foldl (apply (xs ++ ys)) start).rangesOf id := by
  rw [List.foldl_append, List.foldl_cons, List.foldl_append]
  unfold rangeCount?
  set s := xs.foldl (apply (xs ++ ys)) start with hs
  change (more.foldl (apply (xs ++ ys)) (s.addExpansion r)).rangesOf id = _
  cases hfile : s.files.get? r.fileId with
  | none => exact ((addExpansion_of_unknown hfile).foldl more).rangesOf_eq id
  | some file =>
    have hknown : s.HasRanges r.fileId file.ranges.length := by
      refine ⟨(OrderedMap.mem_keys_iff _ _).mpr (by rw [hfile]; rfl), ?_⟩
      simp [rangesOf, hfile]
    rw [addExpansion_of_known hunused hfile, ← (withUnused_foldl hknown more).rangesOf_eq id]
    exact rangesOf_withUnused (hknown.foldl more).1 id

theorem accepted_append :
    accepted (xs ++ ys) = gather (accepted? (xs ++ ys)) [] xs ++ acceptedBehind xs ys :=
  gather_append [] xs ys

/-- All errors are accepted as before. Those behind the expansion have the unused
range among the others. -/
theorem accepted_eq (hunused : r.rangeStart = some 0 ∧ r.rangeEnd = some 0) :
    accepted (xs ++ .expansion r :: ys) =
      gather (accepted? (xs ++ ys)) [] xs ++
        (acceptedBehind xs ys).map
          (Accepted.withUnused r.fileId (rangeCount? (xs ++ ys) xs r.fileId)) := by
  have hsame : ∀ before record, accepted? (xs ++ .expansion r :: ys) before record =
      accepted? (xs ++ ys) before record := by
    intro before record
    unfold accepted?
    rw [apply_expansion]
  have hbehind : ∀ more record,
      accepted? (xs ++ ys) (xs ++ [.expansion r] ++ more) record =
        (accepted? (xs ++ ys) (xs ++ more) record).map
          (Accepted.withUnused r.fileId (rangeCount? (xs ++ ys) xs r.fileId)) := by
    intro more record
    rw [List.append_assoc, List.singleton_append]
    cases record with
    | error e =>
      simp only [accepted?, firstStart?_expansion, rangesOf_behind xs ys hunused]
      split
      · rfl
      · cases e.line with
        | none => rfl
        | some line =>
          cases rangeCount? (xs ++ ys) xs r.fileId with
          | none => rfl
          | some count => by_cases hid : e.fileId = r.fileId <;> simp [Accepted.withUnused, hid]
    | processor | fileStart | namePart | fileEnd | expansion | ignored | unrecognized => rfl
  unfold accepted acceptedBehind
  rw [funext₂ hsame, gather_append, List.nil_append, gather, ← gather_eq_map hbehind]
  rfl

end Unused

/-! ### What becomes of the diagnostics -/

theorem Accepted.fileId_withUnused (id : FileId) (count? : Option Nat) (a : Accepted) :
    (a.withUnused id count?).record.fileId = a.record.fileId := by
  unfold Accepted.withUnused
  split
  · rfl
  · split <;> rfl

theorem Accepted.diagnostic_withUnused {id : FileId} {count? : Option Nat} {a : Accepted}
    (hline : a.line ≤ Saturating.greatest) :
    (a.withUnused id count?).diagnostic =
      if a.LosesLine id count? then { a.diagnostic with line := a.diagnostic.line - 1 }
      else a.diagnostic := by
  unfold Accepted.withUnused LosesLine
  cases count? with
  | none => simp
  | some count =>
    by_cases hid : a.record.fileId = id
    · simp only [hid, if_true, true_and, Accepted.diagnostic, correctedLine_withUnused hline]
      split <;> rfl
    · simp [hid]

/-- A file that gets the range was opened before. -/
theorem rangeCount?_eq_none_iff {records before : List Record} {id : FileId} :
    rangeCount? records before id = none ↔ id ∉ openings before := by
  unfold rangeCount?
  rw [Option.map_eq_none_iff, ← Option.not_isSome_iff_eq_none, ← OrderedMap.mem_keys_iff,
    keys_foldl, openedIds, List.mem_eraseDups]

end Resolution.Correction

/-! ## The law -/

open Resolution Correction

section Law

variable (before after : List Record) {r : Record.Expansion}

/-- The accepted errors of some files, with the expansion and without it. -/
theorem filter_accepted (hunused : r.rangeStart = some 0 ∧ r.rangeEnd = some 0)
    (p : FileId → Bool) :
    ∃ front, (accepted (before ++ .expansion r :: after)).filter (p ·.record.fileId) =
        front ++ ((acceptedBehind before after).filter (p ·.record.fileId)).map
          (Accepted.withUnused r.fileId (rangeCount? (before ++ after) before r.fileId)) ∧
      (accepted (before ++ after)).filter (p ·.record.fileId) =
        front ++ (acceptedBehind before after).filter (p ·.record.fileId) := by
  refine ⟨(Record.gather (accepted? (before ++ after)) [] before).filter (p ·.record.fileId),
    ?_, ?_⟩
  · rw [accepted_eq before after hunused, List.filter_append, List.filter_map]
    simp only [Function.comp_def, Accepted.fileId_withUnused]
  · rw [accepted_append, List.filter_append]

/-- Where the expansion takes no line, each file has the same diagnostics. -/
theorem byRanges_eq (hunused : r.rangeStart = some 0 ∧ r.rangeEnd = some 0)
    (hkept : ∀ a ∈ acceptedBehind before after,
      (a.withUnused r.fileId (rangeCount? (before ++ after) before r.fileId)).diagnostic =
        a.diagnostic) :
    byRanges (before ++ .expansion r :: after) = byRanges (before ++ after) := by
  have hfile : acceptedOf (before ++ .expansion r :: after) = acceptedOf (before ++ after) := by
    funext id
    obtain ⟨front, hwith, hwithout⟩ := filter_accepted before after hunused (· = id)
    unfold acceptedOf
    rw [hwith, hwithout, List.map_append, List.map_append, List.map_map]
    congr 1
    exact List.map_congr_left fun a ha => hkept a (List.mem_of_mem_filter ha)
  refine OrderedMap.ext ?_
  rw [DiagnosticMap.entries_eq, DiagnosticMap.entries_eq, keys_byRanges, keys_byRanges]
  simp only [listed_byRanges, pathsOfAccepted, acceptedUnder, hfile, openedIds_expansion,
    pathUnder?_expansion]

/-- The sum of the lines under a path tells when one of its errors has lost its
line. -/
theorem byRanges_ne (hunused : r.rangeStart = some 0 ∧ r.rangeEnd = some 0)
    (hlines : ∀ a ∈ acceptedBehind before after, a.line ≤ Saturating.greatest)
    {a : Accepted} (ha : a ∈ acceptedBehind before after)
    (hloses : a.LosesLine r.fileId (rangeCount? (before ++ after) before r.fileId)) :
    byRanges (before ++ .expansion r :: after) ≠ byRanges (before ++ after) := by
  intro hsame
  have hmem : a ∈ accepted (before ++ after) := by
    rw [accepted_append]
    exact List.mem_append_right _ ha
  obtain ⟨path, hpath⟩ := Option.isSome_iff_exists.mp (of_mem_accepted hmem).2.2
  -- the same diagnostics are listed under the path of the error
  have hperm : (acceptedUnder (before ++ .expansion r :: after) path).Perm
      (acceptedUnder (before ++ after) path) := by
    have hlisted := congrArg (·.listed path) hsame
    simp only [listed_byRanges] at hlisted
    exact (byLine_perm _).symm.trans (hlisted ▸ byLine_perm _)
  have hboth := (acceptedUnder_perm _ path).symm.trans (hperm.trans (acceptedUnder_perm _ path))
  obtain ⟨front, hwith, hwithout⟩ := filter_accepted before after hunused
    fun id => pathUnder? (before ++ after) id = some path
  rw [pathUnder?_expansion, hwith, hwithout, List.map_append, List.map_append,
    List.perm_append_left_iff, List.map_map] at hboth
  have hsum := (hboth.map (·.line)).sum_eq
  rw [List.map_map, List.map_map] at hsum
  -- no line is behind the one without the expansion, and that of the error is before it
  refine Int.ne_of_lt (List.sum_lt_sum _ _ ?_ ⟨a, ?_, ?_⟩) hsum
  · intro b hb
    have hline := hlines b (List.mem_of_mem_filter hb)
    simp only [Function.comp_apply, Accepted.diagnostic_withUnused hline]
    split
    · exact Int.sub_le_self _ (by decide)
    · exact Int.le_refl _
  · exact List.mem_filter.mpr ⟨ha, by simpa using hpath⟩
  · simp only [Function.comp_apply, Accepted.diagnostic_withUnused (hlines a ha), if_pos hloses]
    exact Int.sub_lt_self _ (by decide)

/-- The expansion changes nothing exactly when it takes no line from an error. -/
theorem byRanges_eq_iff (hunused : r.rangeStart = some 0 ∧ r.rangeEnd = some 0)
    (hlines : ∀ a ∈ acceptedBehind before after, a.line ≤ Saturating.greatest) :
    byRanges (before ++ .expansion r :: after) = byRanges (before ++ after) ↔
      ∀ a ∈ acceptedBehind before after,
        ¬ a.LosesLine r.fileId (rangeCount? (before ++ after) before r.fileId) := by
  constructor
  · intro hsame a ha hloses
    exact byRanges_ne before after hunused hlines ha hloses hsame
  · intro hkept
    refine byRanges_eq before after hunused ?_
    intro a ha
    rw [Accepted.diagnostic_withUnused (hlines a ha), if_neg (hkept a ha)]

end Law

/-- An expansion whose range is marked as unused changes what the pass by ranges
lists exactly when an error behind it loses a line. Apart from that, all accepted
errors have the same diagnostics. Where the shares of the other ranges are not
negative and do not add up to the greatest number, each error of an opened file
from line one on loses its line. -/
theorem unused_range_is_neutral_iff (before after : Listing) (line : Line)
    (r : Record.Expansion) (h : Record.decode line = .ok (.expansion r))
    (hunused : r.rangeStart = some 0 ∧ r.rangeEnd = some 0) :
    let records := before.records ++ after.records
    let behind := acceptedBehind before.records after.records
    let count? := rangeCount? records before.records r.fileId
    (Strategy.range.resolve (before ++ line :: after) = Strategy.range.resolve (before ++ after) ↔
        ∀ a ∈ behind, ¬ a.LosesLine r.fileId count?) ∧
      (accepted (Listing.records (before ++ line :: after))).map (·.diagnostic) =
        (Record.gather (accepted? records) [] before.records).map (·.diagnostic) ++
          behind.map (fun a =>
            if a.LosesLine r.fileId count? then
              { a.diagnostic with line := a.diagnostic.line - 1 }
            else a.diagnostic) ∧
      ∀ a ∈ behind, a.record.fileId = r.fileId → r.fileId ∈ Record.openings before.records →
        (∀ range ∈ a.ranges, 0 ≤ shareOf a.line range) →
        shift a.ranges a.line < Saturating.greatest →
        (a.LosesLine r.fileId count? ↔ 1 ≤ a.line) := by
  intro records behind count?
  have hline : Listing.records (line :: after) = .expansion r :: after.records := by
    simp [Listing.records, h, Except.toOption]
  have hrange : ∀ a ∈ behind, a.line ≤ Saturating.greatest := by
    intro a ha
    have hmem : a ∈ accepted (before.records ++ after.records) := by
      rw [accepted_append]
      exact List.mem_append_right _ ha
    obtain ⟨herror, hread, -⟩ := of_mem_accepted hmem
    have hlisted : .error a.record ∈ (before ++ after : Listing).records := by
      rw [Listing.records_append]
      exact herror
    have hlt := Record.natAbs_line_lt hlisted hread
    simp only [Saturating.greatest]
    omega
  refine ⟨?_, ?_, ?_⟩
  · simp only [Strategy.resolve, Listing.records_append, hline]
    exact byRanges_eq_iff before.records after.records hunused hrange
  · rw [Listing.records_append, hline, accepted_eq before.records after.records hunused,
      List.map_append, List.map_map]
    congr 1
    exact List.map_congr_left fun a ha => Accepted.diagnostic_withUnused (hrange a ha)
  · intro a ha hid hopened hshares hlt
    obtain ⟨count, hcount⟩ := Option.ne_none_iff_exists'.mp
      (fun hnone => rangeCount?_eq_none_iff.mp hnone hopened : count? ≠ none)
    rw [hcount]
    simp only [Accepted.LosesLine, hid, true_and]
    exact takesLine_iff hshares hlt

/-- An expansion of the root with a range that is marked as unused. -/
def unusedExpansion : Line := Line.pad "EXPANSION  0 001 000000 000000 001 000000 000000".toList

def unusedRecord : Record.Expansion := ⟨⟨1⟩, some 0, some 0, some ⟨1⟩, some 0, some 0⟩

def rootOpened : Listing := Listing.ofLines [
  "FILEID     0 001 000000 013 LIB/SRC(ROOT) 20230101120000 0"]

/-- An error of another file, and one of the root behind a range whose bounds are
out of order. -/
def heldBehind : Listing := Listing.ofLines [
  "FILEID     0 002 000003 012 LIB/CPY(CPA) 20230101120000 0",
  "ERROR      0 002 1 000002 000002 001 000002 010 RNF1234 S 30 004 copy",
  "EXPANSION  0 001 000000 000000 001 000008 000003",
  "ERROR      0 001 1 000009 000009 001 000009 010 RNF7030 S 30 004 held"]

def movedBehind : Listing := Listing.ofLines [
  "ERROR      0 001 1 000005 000005 001 000005 010 RNF7030 S 30 005 moved"]

theorem held_error_keeps_its_line :
    Record.decode unusedExpansion = .ok (.expansion unusedRecord) ∧
      (unusedRecord.rangeStart = some 0 ∧ unusedRecord.rangeEnd = some 0) ∧
      Strategy.range.resolve (rootOpened ++ unusedExpansion :: heldBehind) =
        Strategy.range.resolve (rootOpened ++ heldBehind) := by
  have hdecode : Record.decode unusedExpansion = .ok (.expansion unusedRecord) := by
    decide +kernel
  have hunused : unusedRecord.rangeStart = some 0 ∧ unusedRecord.rangeEnd = some 0 := ⟨rfl, rfl⟩
  refine ⟨hdecode, hunused, (unused_range_is_neutral_iff _ _ _ _ hdecode hunused).1.mpr ?_⟩
  decide +kernel

/-- The error behind the expansion is listed one line up. -/
theorem unused_range_moves_an_error :
    Record.decode unusedExpansion = .ok (.expansion unusedRecord) ∧
      (unusedRecord.rangeStart = some 0 ∧ unusedRecord.rangeEnd = some 0) ∧
      Strategy.range.resolve (rootOpened ++ unusedExpansion :: movedBehind) ≠
        Strategy.range.resolve (rootOpened ++ movedBehind) ∧
      (Strategy.range.resolve (rootOpened ++ movedBehind)).entries.map
          (fun e => (e.1, e.2.map (·.line))) = [("LIB/SRC/ROOT", [5])] ∧
      (Strategy.range.resolve (rootOpened ++ unusedExpansion :: movedBehind)).entries.map
          (fun e => (e.1, e.2.map (·.line))) = [("LIB/SRC/ROOT", [4])] := by
  decide +kernel

end EventListing
