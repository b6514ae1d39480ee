-- Lines that a way of resolving passes over. Neither way looks at a line that does
-- not decode, or whose record says nothing about diagnostics. The pass by ranges
-- does not look at where compile steps begin, and the way by the forest not at the
-- further parts of a name. The other records decide.
import EventListing.Proofs.Resolution.Tracked
import EventListing.Resolution.Strategy

namespace EventListing

/-! ## Lists without some of their elements -/

/-- The new list is the old one without some of its elements, each of which
satisfies `p`. -/
inductive Without {α : Type} (p : α → Bool) : List α → List α → Prop
  | nil : Without p [] []
  | kept (a : α) {old new : List α} (h : Without p old new) : Without p (a :: old) (a :: new)
  | dropped {a : α} (ha : p a) {old new : List α} (h : Without p old new) :
      Without p (a :: old) new

/-- What is read off the other elements only does not change. -/
theorem Without.filterMap_eq {α β : Type} {p : α → Bool} {f : α → Option β} {old new : List α}
    (h : Without p old new) (hf : ∀ a, p a → f a = none) : old.filterMap f = new.filterMap f := by
  induction h with
  | nil => rfl
  | kept a h ih => rw [List.filterMap_cons, List.filterMap_cons, ih]
  | dropped ha h ih => rw [List.filterMap_cons_none (hf _ ha), ih]

/-- A filter leaves out elements that it does not let through. -/
theorem without_filter {α : Type} {p keep : α → Bool} {l : List α}
    (h : ∀ a ∈ l, keep a = false → p a) : Without p l (l.filter keep) := by
  induction l with
  | nil => exact .nil
  | cons a l ih =>
    have hrest := ih fun b hb => h b (List.mem_cons_of_mem _ hb)
    cases hkeep : keep a with
    | true =>
      rw [List.filter_cons_of_pos hkeep]
      exact .kept a hrest
    | false =>
      rw [List.filter_cons_of_neg (by simp [hkeep])]
      exact .dropped (h a List.mem_cons_self hkeep) hrest

namespace Resolution

namespace Strategy

/-- The way of resolving does not look at the record. -/
def skips : Strategy → Record → Bool
  | _, .ignored _ => true
  | _, .unrecognized => true
  | range, .processor => true
  | tree, .namePart _ => true
  | _, _ => false

/-- The way of resolving passes over the line: it does not decode, or not into a
record at which the way looks. -/
def skipsLine (s : Strategy) (line : Line) : Bool :=
  match Record.decode line with
  | .error _ => true
  | .ok record => s.skips record

/-- The records at which the way of resolving looks. -/
def heeded (s : Strategy) (records : List Record) : List Record := records.filter (!s.skips ·)

/-- Lines that are passed over hold no record at which the way looks. -/
theorem heeded_records_eq {s : Strategy} {old new : Listing} (h : Without s.skipsLine old new) :
    s.heeded old.records = s.heeded new.records := by
  unfold heeded Listing.records
  rw [List.filter_filterMap, List.filter_filterMap]
  refine h.filterMap_eq ?_
  intro line hline
  unfold skipsLine at hline
  cases hdecode : Record.decode line with
  | error e => rfl
  | ok record =>
    rw [hdecode] at hline
    simp [Except.toOption, Option.filter_some, hline]

end Strategy

/-! ## The pass by ranges -/

namespace Correction

theorem apply_of_skips {records : List Record} {record : Record} (h : Strategy.range.skips record)
    (s : Correction) : s.apply records record = s := by
  cases record with
  | processor | ignored | unrecognized => rfl
  | fileStart | namePart | fileEnd | expansion | error => cases h

end Correction

theorem byRanges_heeded (records : List Record) :
    byRanges (Strategy.range.heeded records) = byRanges records := by
  have hnames : ∀ id, UnitName.full? (Strategy.range.heeded records) id =
      UnitName.full? records id := UnitName.full?_filter (fun _ => rfl) (fun _ => rfl) records
  unfold byRanges
  rw [Correction.apply_congr hnames, Strategy.heeded, List.foldl_filter]
  congr 2
  funext s record
  cases hskips : Strategy.range.skips record with
  | true => exact (Correction.apply_of_skips hskips s).symm
  | false => rfl

end Resolution

/-! ## The way by the forest -/

theorem Builder.apply_of_skips {record : Record} (h : Resolution.Strategy.tree.skips record)
    (b : Builder) : b.apply record = b := by
  cases record with
  | namePart | ignored | unrecognized => rfl
  | processor | fileStart | fileEnd | expansion | error => cases h

namespace Resolution

theorem forest_heeded (records : List Record) :
    Forest.ofRecords (Strategy.tree.heeded records) = Forest.ofRecords records := by
  unfold Forest.ofRecords
  rw [Strategy.heeded, List.foldl_filter]
  congr 2
  funext b record
  cases hskips : Strategy.tree.skips record with
  | true => exact (Builder.apply_of_skips hskips b).symm
  | false => rfl

end Resolution

/-! ## The law -/

open Resolution

/-- Lines that a way of resolving passes over can be left out, any of them, and the
diagnostics stay as they are. -/
theorem skipped_lines_change_nothing (s : Strategy) (old new : Listing)
    (h : Without s.skipsLine old new) : s.resolve old = s.resolve new := by
  have hheeded := Strategy.heeded_records_eq h
  cases s with
  | range =>
    calc byRanges old.records = byRanges (Strategy.range.heeded old.records) :=
          (byRanges_heeded _).symm
      _ = byRanges (Strategy.range.heeded new.records) := by rw [hheeded]
      _ = byRanges new.records := byRanges_heeded _
  | tree =>
    unfold Strategy.resolve byTree
    simp only
    rw [← forest_heeded old.records, hheeded, forest_heeded]

/-- Five of the lines say nothing to either way: a time, a tag outside of the
format, a file number that does not read, a program, and a file without a name. -/
def cluttered : Listing := Listing.ofLines [
  "TIMESTAMP  0 20230101120000",
  "PROCESSOR  0 000 1",
  "FILEID     0 001 000000 013 LIB/SRC(ROOT) 20230101120000 0",
  "COMMENT    0 001 000000 000",
  "FILEIDCONT 0 001            /more 20230101120000 0",
  "ERROR      0 0x1 1 000003 000003 001 000003 010 RNF7030 S 30 004 lost",
  "EXPANSION  0 001 000000 000000 001 000002 000002",
  "PROGRAM    0 001",
  "ERROR      0 001 1 000004 000004 001 000004 010 RNF7030 S 30 004 kept",
  "FILEID     0 002 000002 013",
  "FILEEND    0 001 000005"]

theorem clutter_changes_nothing :
    cluttered.length = 11 ∧
      ∀ s : Strategy, Without s.skipsLine cluttered (cluttered.filter (!s.skipsLine ·)) ∧
        (cluttered.filter (!s.skipsLine ·)).length = 5 ∧
        s.resolve cluttered = s.resolve (cluttered.filter (!s.skipsLine ·)) ∧
        ((s.resolve cluttered).listed "LIB/SRC/ROOT").map (·.line) = [3] := by
  refine ⟨by decide +kernel, fun s => ?_⟩
  have hwithout : Without s.skipsLine cluttered (cluttered.filter (!s.skipsLine ·)) :=
    without_filter fun line _ hkeep => by simpa using hkeep
  have hall : (cluttered.filter (!s.skipsLine ·)).length = 5 ∧
      ((s.resolve cluttered).listed "LIB/SRC/ROOT").map (·.line) = [3] := by
    cases s <;> decide +kernel
  obtain ⟨hafter, hlines⟩ := hall
  exact ⟨hwithout, hafter, skipped_lines_change_nothing s _ _ hwithout, hlines⟩

end EventListing
