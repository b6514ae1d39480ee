-- The compile steps of a listing, read off its records. A step begins with a
-- record of its own, and everything up to the next such record is in it.
import Mathlib.Data.List.Induction
import EventListing.Proofs.Record.Gather
import EventListing.Proofs.Record.Opened

namespace EventListing.Record

/-! ## Step by step -/

/-- The records of each compile step: those behind the record that begins it, up
to the next such record. -/
def steps : List Record → List (List Record)
  | [] => []
  | record :: rest =>
    if record = .processor then rest.takeWhile (· ≠ .processor) :: steps rest else steps rest

theorem steps_processor (rest : List Record) :
    steps (.processor :: rest) = rest.takeWhile (· ≠ .processor) :: steps rest := if_pos rfl

theorem steps_cons_of_ne {record : Record} (h : record ≠ .processor) (rest : List Record) :
    steps (record :: rest) = steps rest := if_neg h

/-! ## Each record in its step -/

/-- The number of compile steps that the records begin. -/
def stepCount (records : List Record) : Nat := records.count .processor

/-- The record, if it is in compile step `k` when it comes behind these records. -/
def inStep? (k : Nat) (before : List Record) (record : Record) : Option Record :=
  if stepCount before = k then some record else none

/-- The records of compile step `k`, the steps counted from one: those behind
exactly `k` records that begin a step. The record that begins the next step is
the last of them. -/
def ofStep (k : Nat) (records : List Record) : List Record := gather (inStep? k) [] records

/-- The record is an edit of the SQL precompiler. -/
def isExpansion : Record → Bool
  | .expansion _ => true
  | _ => false

theorem stepCount_append (xs ys : List Record) :
    stepCount (xs ++ ys) = stepCount xs + stepCount ys := List.count_append

theorem ofStep_concat (k : Nat) (records : List Record) (record : Record) :
    ofStep k (records ++ [record]) =
      ofStep k records ++ if stepCount records = k then [record] else [] := by
  unfold ofStep
  rw [gather_concat, inStep?]
  split <;> rfl

/-- More records only add to a step. -/
theorem ofStep_append (k : Nat) (xs ys : List Record) :
    ∃ zs, ofStep k (xs ++ ys) = ofStep k xs ++ zs := ⟨_, gather_append [] xs ys⟩

theorem ofStep_sublist (k : Nat) (records : List Record) : (ofStep k records).Sublist records := by
  induction records using List.reverseRecOn with
  | nil => exact List.Sublist.slnil
  | append_singleton records record ih =>
    rw [ofStep_concat]
    refine ih.append ?_
    split
    · exact List.Sublist.refl _
    · exact List.nil_sublist _

/-- No record is in a step that has not begun. -/
theorem ofStep_eq_nil {k : Nat} {records : List Record} (h : stepCount records < k) :
    ofStep k records = [] := by
  induction records using List.reverseRecOn with
  | nil => rfl
  | append_singleton records record ih =>
    rw [stepCount_append] at h
    rw [ofStep_concat, ih (by omega), if_neg (by omega)]
    rfl

/-! ## Both readings -/

/-- Behind the step, no more records are in it. -/
theorem gather_inStep_of_lt {k : Nat} {before : List Record} (h : k < stepCount before)
    (records : List Record) : gather (inStep? k) before records = [] := by
  induction records generalizing before with
  | nil => rfl
  | cons record rest ih =>
    have hmore : k < stepCount (before ++ [record]) := by
      rw [stepCount_append]
      exact Nat.lt_add_right _ h
    rw [gather, ih hmore, inStep?, if_neg (Nat.ne_of_gt h)]
    rfl

/-- From inside a step, the records are the rest of it and then the later steps. -/
theorem filter_gather_inStep (k j : Nat) (before records : List Record)
    (h : stepCount before + j = k) :
    (gather (inStep? k) before records).filter (· ≠ .processor) =
      (records.takeWhile (· ≠ .processor) :: steps records)[j]?.getD [] := by
  induction records generalizing before j with
  | nil => cases j <;> simp [gather, steps]
  | cons record rest ih =>
    rw [gather, List.filter_append]
    by_cases hrecord : record = .processor
    · subst hrecord
      have hnext : stepCount (before ++ [.processor]) = stepCount before + 1 := stepCount_append _ _
      rw [steps_processor]
      cases j with
      | zero =>
        rw [gather_inStep_of_lt (by omega)]
        simp [inStep?, show stepCount before = k from h]
      | succ j =>
        rw [ih j (before ++ [processor]) (by omega), inStep?, if_neg (by omega)]
        rfl
    · have hnext : stepCount (before ++ [record]) = stepCount before := by
        rw [stepCount_append]
        simp [stepCount, hrecord]
      rw [ih j (before ++ [record]) (by omega), steps_cons_of_ne hrecord]
      cases j with
      | zero => simp [inStep?, show stepCount before = k from h, hrecord]
      | succ j =>
        rw [inStep?, if_neg (by omega)]
        rfl

/-- The two readings of a compile step agree. Only the record that begins the next step
is in one of them and not in the other. -/
theorem filter_ofStep (k : Nat) (records : List Record) :
    (ofStep (k + 1) records).filter (· ≠ .processor) = (steps records)[k]?.getD [] :=
  filter_gather_inStep (k + 1) (k + 1) [] records (Nat.zero_add _)

end EventListing.Record
