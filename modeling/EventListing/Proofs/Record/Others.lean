-- What errors do not touch. Which compile steps there are, which files they
-- open and under which names, all that is said by the other records alone.
import EventListing.Proofs.OneLess
import EventListing.Proofs.Record.Steps

namespace EventListing

namespace Record

def isError : Record → Bool
  | .error _ => true
  | _ => false

/-- The records other than errors. -/
def others (records : List Record) : List Record := records.filter (!·.isError)

theorem others_append (xs ys : List Record) : others (xs ++ ys) = others xs ++ others ys :=
  List.filter_append xs ys

/-- An error does not show among the other records. -/
theorem others_error (xs ys : List Record) (r : Record.Error) :
    others (xs ++ .error r :: ys) = others (xs ++ ys) := by
  rw [others_append, others_append]
  rfl

theorem others_others (records : List Record) : others (others records) = others records := by
  unfold others
  rw [List.filter_filter]
  simp

theorem stepCount_others (records : List Record) : stepCount (others records) = stepCount records :=
  List.count_filter rfl

theorem openings_others (records : List Record) : openings (others records) = openings records := by
  unfold openings others
  rw [List.filterMap_filter]
  congr 1
  funext record
  cases record <;> rfl

theorem any_isExpansion_others (records : List Record) :
    (others records).any isExpansion = records.any isExpansion := by
  unfold others
  rw [List.any_filter]
  congr 1
  funext record
  cases record <;> rfl

theorem others_ofStep (k : Nat) (records : List Record) :
    others (ofStep k records) = ofStep k (others records) := by
  induction records using List.reverseRecOn with
  | nil => rfl
  | append_singleton records record ih =>
    rw [ofStep_concat, others_append, others_append, ih]
    cases hrecord : record.isError with
    | true => simp [others, hrecord, apply_ite (List.filter _)]
    | false =>
      have hsame : others [record] = [record] := by simp [others, hrecord]
      rw [hsame, ofStep_concat, stepCount_others]
      split
      · rw [hsame]
      · rfl

/-- The files that a step opens. -/
theorem openings_ofStep_others (k : Nat) (records : List Record) :
    openings (ofStep k (others records)) = openings (ofStep k records) := by
  rw [← others_ofStep, openings_others]

theorem any_ofStep_others (k : Nat) (records : List Record) :
    (ofStep k (others records)).any isExpansion = (ofStep k records).any isExpansion := by
  rw [← others_ofStep, any_isExpansion_others]

variable {α : Type} {f : List Record → Record → Option α}

theorem gather_others (hf : ∀ before record, f (others before) record = f before record)
    {before before' : List Record} (h : others before = others before') (records : List Record) :
    gather f before records = gather f before' records := by
  induction records generalizing before before' with
  | nil => rfl
  | cons record records ih =>
    have hnext : others (before ++ [record]) = others (before' ++ [record]) := by
      rw [others_append, others_append, h]
    rw [gather, gather, ← hf before, ← hf before', h, ih hnext]

/-- Where errors before a record do not matter to what it counts for, an error
counts for itself alone. -/
theorem gather_error (hf : ∀ before record, f (others before) record = f before record)
    (xs ys : List Record) (r : Record.Error) :
    OneLess (f xs (.error r)) (gather f [] (xs ++ .error r :: ys)) (gather f [] (xs ++ ys)) := by
  have hsame : others (xs ++ [.error r]) = others xs := by
    rw [others_error, List.append_nil]
  refine ⟨gather f [] xs, gather f xs ys, ?_, ?_⟩
  · rw [gather_append, List.nil_append, gather, gather_others hf hsame, List.append_assoc]
  · rw [gather_append, List.nil_append]

end Record

namespace UnitName

open Record

theorem firstStart?_others (records : List Record) (id : FileId) :
    firstStart? (others records) id = firstStart? records id :=
  firstStart?_filter (fun _ => rfl) records id

theorem full?_others (records : List Record) (id : FileId) :
    full? (others records) id = full? records id :=
  full?_filter (fun _ => rfl) (fun _ => rfl) records id

end UnitName

end EventListing
