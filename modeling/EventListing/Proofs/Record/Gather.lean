-- Records in their places. What a record counts for may depend on the
-- records before it, and a listing counts for what its records count for, in
-- their order.
import EventListing.Record.Basic

namespace EventListing.Record

variable {α : Type} {f : List Record → Record → Option α}

/-- What `f` makes of each record, given the records before it. -/
def gather (f : List Record → Record → Option α) (before : List Record) : List Record → List α
  | [] => []
  | record :: after => (f before record).toList ++ gather f (before ++ [record]) after

theorem gather_append (before xs ys : List Record) :
    gather f before (xs ++ ys) = gather f before xs ++ gather f (before ++ xs) ys := by
  induction xs generalizing before with
  | nil => simp [gather]
  | cons record xs ih => simp only [List.cons_append, gather, ih, List.append_assoc,
      List.nil_append]

/-- One more record adds at most one thing, at the end. -/
theorem gather_concat (records : List Record) (record : Record) :
    gather f [] (records ++ [record]) = gather f [] records ++ (f records record).toList := by
  rw [gather_append, List.nil_append]
  simp [gather]

/-- What is gathered comes from a record in its place. -/
theorem mem_gather {before records : List Record} {a : α} (h : a ∈ gather f before records) :
    ∃ xs record ys, records = xs ++ record :: ys ∧ f (before ++ xs) record = some a := by
  induction records generalizing before with
  | nil => cases h
  | cons record records ih =>
    rw [gather, List.mem_append] at h
    rcases h with hfirst | hrest
    · exact ⟨[], record, records, rfl, by simpa using hfirst⟩
    · obtain ⟨xs, r, ys, rfl, hr⟩ := ih hrest
      exact ⟨record :: xs, r, ys, rfl, by simpa using hr⟩

/-- A part of what is gathered that each record decides on its own. -/
theorem map_gather {β : Type} {g : α → β} {part : Record → Option β}
    (h : ∀ before record, (f before record).map g = part record) (before records : List Record) :
    (gather f before records).map g = records.filterMap part := by
  induction records generalizing before with
  | nil => rfl
  | cons record records ih =>
    rw [gather, List.map_append, ih, List.filterMap_cons, ← h before record]
    cases f before record <;> rfl

/-- Behind two beginnings, what is gathered is the same up to `change` when that
holds for each record in its place. -/
theorem gather_eq_map {g : List Record → Record → Option α} {change : α → α}
    {before before' : List Record}
    (h : ∀ more record, f (before ++ more) record = (g (before' ++ more) record).map change)
    (records : List Record) : gather f before records = (gather g before' records).map change := by
  induction records generalizing before before' with
  | nil => rfl
  | cons record records ih =>
    have hnext : ∀ more r, f (before ++ [record] ++ more) r =
        (g (before' ++ [record] ++ more) r).map change := by
      intro more r
      rw [List.append_assoc, List.append_assoc]
      exact h ([record] ++ more) r
    have hfirst := h [] record
    rw [List.append_nil, List.append_nil] at hfirst
    rw [gather, gather, ih hnext, List.map_append, hfirst]
    cases g before' record <;> rfl

/-- A part of what is gathered stays when each record gives the same part behind
what `see` shows of the records. -/
theorem gather_map {β : Type} {g : List Record → Record → Option α} {part : α → β}
    {see : Record → Record}
    (h : ∀ before record, (f before record).map part =
      (g (before.map see) (see record)).map part) (before records : List Record) :
    (gather f before records).map part =
      (gather g (before.map see) (records.map see)).map part := by
  induction records generalizing before with
  | nil => rfl
  | cons record records ih =>
    have hnext := ih (before ++ [record])
    rw [List.map_append, List.map_cons, List.map_nil] at hnext
    rw [List.map_cons, gather, gather, List.map_append, List.map_append, hnext,
      ← Option.toList_map, ← Option.toList_map, h]

/-! ## Conditions on each record in its place -/

section EachBehind

variable {P : List Record → Record → Prop}

/-- Each record stands well behind the ones before it. -/
def EachBehind (P : List Record → Record → Prop) (records : List Record) : Prop :=
  ∀ i, (h : i < records.length) → P (records.take i) records[i]

instance [∀ before record, Decidable (P before record)] (records : List Record) :
    Decidable (EachBehind P records) :=
  inferInstanceAs (Decidable (∀ i, (h : i < records.length) → P (records.take i) records[i]))

theorem EachBehind.left {xs ys : List Record} (h : EachBehind P (xs ++ ys)) : EachBehind P xs := by
  intro i hi
  have hboth := h i (by rw [List.length_append]; omega)
  rwa [List.take_append_of_le_length (by omega), List.getElem_append_left hi] at hboth

theorem EachBehind.behind {xs ys : List Record} {record : Record}
    (h : EachBehind P (xs ++ record :: ys)) : P xs record := by
  have hlast := h xs.length (by simp)
  rw [List.take_left, List.getElem_append_right (Nat.le_refl _)] at hlast
  simpa using hlast

end EachBehind

end EventListing.Record
