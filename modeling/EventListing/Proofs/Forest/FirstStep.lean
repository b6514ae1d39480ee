-- The files of the first compile step in the order in which they were opened. Only the
-- files of that step can be open in it, so each file lies in one before it. Later steps
-- begin with files of the step before that are still open.
import EventListing.Forest.Offset
import EventListing.Proofs.Forest.Growth

namespace EventListing

/-! ## Files in the order in which they were opened -/

namespace Step

/-- Each file that lies in another one lies in the number of a file before it. -/
def ParentsBefore (step : Step) : Prop :=
  ∀ (i : Nat) (file : FileNode) (id : FileId), step.files[i]? = some file →
    file.parent = some id → id ∈ step.ids.take i

theorem parentsBefore_empty : empty.ParentsBefore := by
  intro i file id hfile
  cases hfile

/-- A step with the same numbers that keeps the files keeps what they lie in. -/
theorem ParentsBefore.of_keptIn {old new : Step} (h : old.ParentsBefore)
    (hkept : old.KeptIn new) (hids : new.ids = old.ids) : new.ParentsBefore := by
  intro i file id hfile hparent
  have hlength : new.files.length = old.files.length := by
    simpa [ids] using congrArg List.length hids
  have hlt : i < old.files.length := hlength ▸ (List.getElem?_eq_some_iff.mp hfile).1
  obtain ⟨kept, hat, hsame⟩ := hkept i _ (List.getElem?_eq_getElem hlt)
  obtain rfl : kept = file := Option.some.inj (hat.symm.trans hfile)
  rw [hids]
  exact h i _ id (List.getElem?_eq_getElem hlt) (hsame.parent ▸ hparent)

theorem ParentsBefore.concat {step : Step} (h : step.ParentsBefore) {node : FileNode}
    (hnode : ∀ id, node.parent = some id → id ∈ step.ids) :
    ParentsBefore ⟨step.files ++ [node]⟩ := by
  intro i file id hfile hparent
  have hids : (⟨step.files ++ [node]⟩ : Step).ids = step.ids ++ [node.id] := List.map_append
  have hlength : step.ids.length = step.files.length := List.length_map _
  rw [hids]
  rcases Nat.lt_or_ge i step.files.length with hlt | hge
  · rw [List.take_append_of_le_length (by omega)]
    exact h i file id ((List.getElem?_append_left hlt).symm.trans hfile) hparent
  · obtain ⟨hi, hat⟩ := List.getElem?_eq_some_iff.mp hfile
    obtain rfl : i = step.files.length := by
      rw [List.length_append, List.length_singleton] at hi
      omega
    rw [← hlength, List.take_left]
    rw [List.getElem_concat_length] at hat
    · exact hnode id (hat ▸ hparent)
    · rfl

/-- The first file with the number of the one in which a file lies. -/
def around? (step : Step) (file : FileNode) : Option FileNode := file.parent.bind step.find?

theorem ParentsBefore.find? {step : Step} (h : step.ParentsBefore) {i : Nat} {file : FileNode}
    (hfile : step.files[i]? = some file) {id : FileId} (hparent : file.parent = some id) :
    ∃ j < i, ∃ parent, step.files[j]? = some parent ∧ parent.id = id ∧
      step.find? id = some parent := by
  have hmem := h i file id hfile hparent
  unfold ids at hmem
  rw [← List.map_take] at hmem
  obtain ⟨known, hknown, hid⟩ := List.mem_map.mp hmem
  -- the first file with the number stands no later than the known one
  have hsome : ((step.files.take i).find? (·.id = id)).isSome :=
    List.find?_isSome.mpr ⟨known, hknown, by simpa using hid⟩
  obtain ⟨parent, hfind⟩ := Option.isSome_iff_exists.mp hsome
  obtain ⟨j, hj⟩ := List.mem_iff_getElem?.mp (List.mem_of_find?_eq_some hfind)
  have hlt : j < i := by
    by_contra hge
    rw [List.getElem?_take, if_neg hge] at hj
    cases hj
  refine ⟨j, hlt, parent, ?_, by simpa using List.find?_some hfind, ?_⟩
  · rwa [List.getElem?_take_of_lt hlt] at hj
  · unfold Step.find?
    rw [← List.take_append_drop i step.files, List.find?_append, hfind, Option.some_or]

/-- The file around one that is in order was opened before it. -/
theorem ParentsBefore.getElem?_of_around? {step : Step} (h : step.ParentsBefore) {i : Nat}
    {file parent : FileNode} (hfile : step.files[i]? = some file)
    (hparent : step.around? file = some parent) : ∃ j < i, step.files[j]? = some parent := by
  obtain ⟨id, hid, hfind⟩ := Option.bind_eq_some_iff.mp hparent
  obtain ⟨j, hj, first, hat, -, hfirst⟩ := h.find? hfile hid
  exact ⟨j, hj, (hfirst.symm.trans hfind) ▸ hat⟩

end Step

/-! ## The first step, record by record -/

namespace Builder

/-- The files of the open step are in order, and every open file is one of them. -/
structure InOrder (b : Builder) (step : Step) : Prop where
  parents : step.ParentsBefore
  opened : ∀ id ∈ b.openFiles, id ∈ step.ids

/-- Only a file start opens a file. -/
theorem openFiles_apply_subset {b : Builder} {record : Record} (hrecord : record.openedId? = none) :
    (b.apply record).openFiles ⊆ b.openFiles := by
  obtain ⟨done, current, openFiles, edited⟩ := b
  cases record with
  | fileStart r => cases hrecord
  | fileEnd r =>
    cases current with
    | none => exact List.Subset.refl _
    | some step => exact fun id => List.mem_of_mem_tail
  | expansion r =>
    cases current with
    | none => exact List.Subset.refl _
    | some step =>
      simp only [apply, addEdit]
      split <;> exact List.Subset.refl _
  | error r =>
    cases current with
    | none => exact List.Subset.refl _
    | some step =>
      simp only [apply, addError]
      split <;> exact List.Subset.refl _
  | processor | namePart | ignored | unrecognized => exact List.Subset.refl _

/-- Outside a compile step no file is opened or closed. -/
theorem openFiles_apply_of_none {b : Builder} (hcurrent : b.current = none) (record : Record) :
    (b.apply record).openFiles = b.openFiles := by
  obtain ⟨done, current, openFiles, edited⟩ := b
  subst hcurrent
  cases record <;> rfl

theorem InOrder.openFile {b : Builder} {step : Step} (h : b.InOrder step)
    (hcurrent : b.current = some step) (r : Record.FileStart) :
    ∃ new, (b.openFile r).current = some new ∧ (b.openFile r).InOrder new := by
  obtain ⟨hparents, hopened⟩ := h
  obtain ⟨done, current, openFiles, edited⟩ := b
  subst hcurrent
  refine ⟨_, rfl, hparents.concat fun id hid => hopened id (List.mem_of_head? hid), ?_⟩
  intro id hid
  have hids : ∀ node : FileNode, (⟨step.files ++ [node]⟩ : Step).ids = step.ids ++ [node.id] :=
    fun node => List.map_append
  rw [hids, List.mem_append]
  rcases List.mem_cons.mp hid with rfl | hid
  · exact Or.inr List.mem_cons_self
  · exact Or.inl (hopened id hid)

theorem InOrder.apply {b : Builder} {step : Step} (h : b.InOrder step)
    (hcurrent : b.current = some step) {record : Record} (hrecord : record ≠ .processor) :
    ∃ new, (b.apply record).current = some new ∧ (b.apply record).InOrder new := by
  cases hid : record.openedId? with
  | some id =>
    cases record with
    | fileStart r => exact h.openFile hcurrent r
    | processor | namePart | fileEnd | expansion | error | ignored | unrecognized => cases hid
  | none =>
    obtain ⟨-, new, hnew, hgrown⟩ := grown_apply hcurrent hrecord
    obtain ⟨-, new', hnew', hkept⟩ := keptIn_apply_of_current hcurrent hrecord
    obtain rfl : new = new' := Option.some.inj (hnew.symm.trans hnew')
    have hids := hgrown.ids
    rw [hid, Option.toList_none, List.append_nil] at hids
    refine ⟨new, hnew, h.parents.of_keptIn hkept hids, ?_⟩
    intro id hopen
    exact hids ▸ h.opened id (openFiles_apply_subset hid hopen)

/-- The first step is in order. As long as it is the only one, every open file is one of
its files. -/
def FirstInOrder (b : Builder) : Prop :=
  match b.finish.steps with
  | [] => b.openFiles = []
  | first :: later => first.ParentsBefore ∧ (later = [] → ∀ id ∈ b.openFiles, id ∈ first.ids)

theorem firstInOrder_apply {b : Builder} (h : b.FirstInOrder) (record : Record) :
    (b.apply record).FirstInOrder := by
  by_cases hrecord : record = .processor
  · subst hrecord
    unfold FirstInOrder at h ⊢
    have hopen : (b.apply .processor).openFiles = b.openFiles := rfl
    rw [steps_apply_processor, hopen]
    cases hsteps : b.finish.steps with
    | nil =>
      rw [hsteps] at h
      exact ⟨Step.parentsBefore_empty, fun _ id hid => by simp [h] at hid⟩
    | cons first later =>
      rw [hsteps] at h
      exact ⟨h.1, fun hnone => by simp at hnone⟩
  · cases hcurrent : b.current with
    | none =>
      unfold FirstInOrder at h ⊢
      rw [steps_apply_of_none hcurrent hrecord, openFiles_apply_of_none hcurrent]
      exact h
    | some step =>
      have hdone := (grown_apply hcurrent hrecord).1
      unfold FirstInOrder at h ⊢
      rw [steps_of_current hcurrent] at h
      cases hsteps : b.done.steps with
      | nil =>
        rw [hsteps, List.nil_append] at h
        obtain ⟨new, hnew, hparents, hopened⟩ :=
          InOrder.apply ⟨h.1, h.2 rfl⟩ hcurrent hrecord
        rw [steps_of_current hnew, hdone, hsteps]
        exact ⟨hparents, fun _ => hopened⟩
      | cons first later =>
        rw [hsteps] at h
        obtain ⟨new, hnew, -⟩ := (grown_apply hcurrent hrecord).2
        rw [steps_of_current hnew, hdone, hsteps]
        exact ⟨h.1, fun hnone => by simp at hnone⟩

theorem firstInOrder_foldl (records : List Record) :
    (records.foldl apply start).FirstInOrder := by
  induction records using List.reverseRecOn with
  | nil => exact rfl
  | append_singleton records record ih =>
    rw [List.foldl_append]
    exact firstInOrder_apply ih record

end Builder

/-- In the first step of a forest each file lies in one that was opened before it. -/
theorem Forest.parentsBefore_head {records : List Record} {step : Step}
    (h : (ofRecords records).steps.head? = some step) : step.ParentsBefore := by
  have hfirst := Builder.firstInOrder_foldl records
  unfold Builder.FirstInOrder at hfirst
  unfold ofRecords at h
  split at hfirst
  · rename_i hnone
    rw [hnone] at h
    cases h
  · rename_i first later hsteps
    rw [hsteps] at h
    cases h
    exact hfirst.1

end EventListing
