-- Compile steps one behind the other. When a compile step begins and no file
-- is open, the records behind it make the files that they would make on their
-- own. So a listing that follows itself makes the same files once more.
import EventListing.Proofs.Forest.Nesting

namespace EventListing

/-! ## The builder behind complete steps -/

namespace Builder

/-- The builder `b` stands where `a` does, but behind more compile steps. -/
structure Behind (before : List Step) (a b : Builder) : Prop where
  done : b.done.steps = before ++ a.done.steps
  current : b.current = a.current
  openFiles : b.openFiles = a.openFiles
  edited : b.edited = a.edited

variable {before : List Step} {a b : Builder}

theorem Behind.apply (h : Behind before a b) (record : Record) :
    Behind before (a.apply record) (b.apply record) := by
  obtain ⟨⟨steps', paths'⟩, current', openFiles', edited'⟩ := a
  obtain ⟨⟨steps, paths⟩, current, openFiles, edited⟩ := b
  obtain ⟨hdone, hcurrent, hopen, hedited⟩ := h
  simp only at hdone hcurrent hopen hedited
  subst hdone hcurrent hopen hedited
  cases record with
  | processor => exact ⟨List.append_assoc _ _ _, rfl, rfl, rfl⟩
  | fileStart r =>
    cases current with
    | none => exact ⟨rfl, rfl, rfl, rfl⟩
    | some step => exact ⟨rfl, rfl, rfl, rfl⟩
  | fileEnd r =>
    cases current with
    | none => exact ⟨rfl, rfl, rfl, rfl⟩
    | some step => exact ⟨rfl, rfl, rfl, rfl⟩
  | expansion r =>
    cases current with
    | none => exact ⟨rfl, rfl, rfl, rfl⟩
    | some step =>
      simp only [Builder.apply, addEdit]
      split <;> exact ⟨rfl, rfl, rfl, rfl⟩
  | error r =>
    cases current with
    | none => exact ⟨rfl, rfl, rfl, rfl⟩
    | some step =>
      simp only [Builder.apply, addError]
      split <;> exact ⟨rfl, rfl, rfl, rfl⟩
  | namePart | ignored | unrecognized => exact ⟨rfl, rfl, rfl, rfl⟩

theorem Behind.foldl (h : Behind before a b) (records : List Record) :
    Behind before (records.foldl Builder.apply a) (records.foldl Builder.apply b) := by
  induction records generalizing a b with
  | nil => exact h
  | cons record records ih => exact ih (h.apply record)

theorem Behind.steps_finish (h : Behind before a b) :
    b.finish.steps = before ++ a.finish.steps := by
  unfold finish
  rw [h.done, h.current, List.append_assoc]

/-- A record that is neither a frame record nor an error changes nothing. -/
theorem foldl_apply_of_idle {records : List Record}
    (h : ∀ record ∈ records, record.isFrame = false ∧ ∀ r, record ≠ .error r) (b : Builder) :
    records.foldl apply b = b := by
  induction records with
  | nil => rfl
  | cons record records ih =>
    obtain ⟨hframe, herror⟩ := h record List.mem_cons_self
    have hrest := ih fun r hr => h r (List.mem_cons_of_mem _ hr)
    cases record with
    | error r => exact absurd rfl (herror r)
    | namePart | ignored | unrecognized => exact hrest
    | processor | fileStart | fileEnd | expansion => cases hframe

end Builder

/-! ## A new compile step -/

/-- When every file was closed, a new compile step begins as the first one
does. -/
theorem Forest.steps_append_processor {xs : List Record}
    (hclosed : (xs.foldl Builder.apply Builder.start).openFiles = []) (ys : List Record) :
    (ofRecords (xs ++ .processor :: ys)).steps =
      (ofRecords xs).steps ++ (ofRecords (.processor :: ys)).steps := by
  have hbehind : Builder.Behind (ofRecords xs).steps Builder.start.openStep
      (xs.foldl Builder.apply Builder.start).openStep :=
    ⟨(List.append_nil _).symm, rfl, hclosed, rfl⟩
  have hsteps := (hbehind.foldl ys).steps_finish
  unfold ofRecords at hsteps ⊢
  rw [List.foldl_append, List.foldl_cons, List.foldl_cons]
  exact hsteps

/-- A listing of one compile step, followed by itself, makes that step twice. -/
theorem OneStep.steps_append_self {records : List Record} {root : Nesting}
    (h : OneStep records root) (hopened : Record.ErrorsOpened records) :
    (Forest.ofRecords (records ++ records)).steps =
      (Forest.ofRecords records).steps ++ (Forest.ofRecords records).steps := by
  obtain ⟨-, -, -, hclosed, -⟩ := h.foldl_apply
  obtain ⟨before, rest, hrecords, hbefore, -⟩ := h.records_eq
  have hnoStart : ∀ r, .fileStart r ∉ before := by
    intro r hr
    cases hbefore _ hr
  have hnone := (hrecords ▸ hopened).errors_eq_nil hnoStart
  -- nothing before the step changes the builder, also when all files of it are there
  have hidle : ∀ record ∈ before, record.isFrame = false ∧ ∀ r, record ≠ .error r := by
    rintro record hrecord
    refine ⟨hbefore record hrecord, ?_⟩
    rintro r rfl
    rw [← Record.mem_errors, hnone] at hrecord
    cases hrecord
  have hmade : (Forest.ofRecords (.processor :: rest)).steps =
      (Forest.ofRecords records).steps := by
    unfold Forest.ofRecords
    rw [hrecords, List.foldl_append, Builder.foldl_apply_of_idle hidle]
  have hagain : (records ++ before).foldl Builder.apply Builder.start =
      records.foldl Builder.apply Builder.start := by
    rw [List.foldl_append, Builder.foldl_apply_of_idle hidle]
  have hsplit : records ++ records = (records ++ before) ++ .processor :: rest := by
    rw [List.append_assoc, ← hrecords]
  rw [hsplit, Forest.steps_append_processor (hagain ▸ hclosed), hmade]
  unfold Forest.ofRecords
  rw [hagain]

end EventListing
