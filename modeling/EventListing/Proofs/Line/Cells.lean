-- Lines that are written as cells with a space between each two. A column reads the
-- cell that stands there, and the tokens are the words of the cells.
import EventListing.Proofs.Line.Kept

namespace EventListing

open Text

/-! ## Cells in a text -/

namespace Text

/-- Where a cell of a text begins. -/
def startOf (cells : List (List Char)) (index : Nat) : Nat :=
  (cells.take index).foldr (fun cell start => cell.length + 1 + start) 0

theorem startOf_zero (cells : List (List Char)) : startOf cells 0 = 0 := rfl

theorem startOf_cons_succ (cell : List Char) (cells : List (List Char)) (index : Nat) :
    startOf (cell :: cells) (index + 1) = cell.length + 1 + startOf cells index := rfl

theorem join_cons_cons (sep : Char) (x y : List Char) (parts : List (List Char)) :
    join sep (x :: y :: parts) = x ++ sep :: join sep (y :: parts) := by
  unfold join
  rw [List.intercalate_cons_cons, List.append_assoc]
  rfl

/-- From the start of a cell on, the text is that cell and what stands behind it. -/
theorem drop_join {cells : List (List Char)} {index : Nat} (h : index < cells.length) :
    (join ' ' cells).drop (startOf cells index) = join ' ' (cells.drop index) := by
  induction cells generalizing index with
  | nil => cases h
  | cons x cells ih =>
    cases index with
    | zero => rfl
    | succ index =>
      have hindex : index < cells.length := Nat.lt_of_succ_lt_succ h
      cases cells with
      | nil => cases hindex
      | cons y cells =>
        rw [join_cons_cons, startOf_cons_succ, ← List.drop_drop, List.drop_append,
          List.drop_of_length_le (Nat.le_succ _), Nat.add_sub_cancel_left]
        exact ih hindex

/-- The text begins with its first cell. -/
theorem exists_join_cons (cell : List Char) (cells : List (List Char)) :
    ∃ more, join ' ' (cell :: cells) = cell ++ more := by
  cases cells with
  | nil => exact ⟨[], by rw [join, List.intercalate_singleton, List.append_nil]⟩
  | cons y cells => exact ⟨_, join_cons_cons ' ' cell y cells⟩

/-- The text ends as its last cell does, or with a space if that is empty. -/
theorem getLast?_join {cells : List (List Char)} {c : Char}
    (h : (join ' ' cells).getLast? = some c) :
    c = ' ' ∨ ∃ cell ∈ cells.getLast?, cell.getLast? = some c := by
  induction cells with
  | nil => cases h
  | cons x cells ih =>
    cases cells with
    | nil =>
      rw [join, List.intercalate_singleton] at h
      exact Or.inr ⟨x, rfl, h⟩
    | cons y cells =>
      rw [join_cons_cons, List.getLast?_append, List.getLast?_cons, Option.some_or] at h
      cases hlast : (join ' ' (y :: cells)).getLast? with
      | none =>
        rw [hlast] at h
        exact Or.inl (Option.some.inj h).symm
      | some d =>
        rw [hlast] at h
        obtain rfl : d = c := Option.some.inj h
        rw [List.getLast?_cons_cons]
        exact ih hlast

/-- The words of the cells one after the other. -/
theorem words_join (cells : List (List Char)) : words (join ' ' cells) = cells.flatMap words := by
  induction cells with
  | nil => rfl
  | cons x cells ih =>
    cases cells with
    | nil =>
      unfold join
      rw [List.intercalate_singleton, List.flatMap_singleton]
    | cons y cells =>
      rw [join_cons_cons, words_append_space, ih]
      rfl

/-- The text is a word by itself. -/
def IsWord (cs : List Char) : Prop := cs ≠ [] ∧ ' ' ∉ cs

instance (cs : List Char) : Decidable (IsWord cs) := inferInstanceAs (Decidable (_ ∧ _))

theorem flatMap_words {cells : List (List Char)} (h : ∀ cell ∈ cells, IsWord cell) :
    cells.flatMap words = cells := by
  induction cells with
  | nil => rfl
  | cons x cells ih =>
    obtain ⟨hne, hspace⟩ := h x List.mem_cons_self
    rw [List.flatMap_cons, words_of_not_mem hne hspace,
      ih fun cell hcell => h cell (List.mem_cons_of_mem _ hcell)]
    rfl

end Text

/-! ## Lines of cells -/

namespace Line

/-- The line that holds the cells. -/
def ofCells (cells : List (List Char)) : Line := pad (join ' ' cells)

variable {cells : List (List Char)} {index : Nat} {cell : List Char}

theorem restFrom_ofCells (h : cells[index]? = some cell) :
    ∃ count, (ofCells cells).restFrom (startOf cells index) =
      join ' ' (cell :: cells.drop (index + 1)) ++ List.replicate count ' ' := by
  obtain ⟨hindex, hcell⟩ := List.getElem?_eq_some_iff.mp h
  unfold ofCells pad restFrom
  rw [List.drop_append, drop_join hindex, List.drop_replicate, List.drop_eq_getElem_cons hindex,
    hcell]
  exact ⟨_, rfl⟩

/-- A column that begins where a cell does and is as wide is that cell. -/
theorem column_ofCells (h : cells[index]? = some cell) {offset width : Nat}
    (hstart : startOf cells index = offset) (hwidth : cell.length = width) :
    (ofCells cells).column offset width = cell := by
  rw [column, ← restFrom, ← hstart, ← hwidth]
  obtain ⟨count, hrest⟩ := restFrom_ofCells h
  obtain ⟨more, hmore⟩ := exists_join_cons cell (cells.drop (index + 1))
  rw [hrest, hmore, List.append_assoc, List.take_left]

/-- Behind the last cell there are only spaces. -/
theorem restFrom_ofCells_last (h : cells[index]? = some cell) (hlast : cells.length = index + 1) :
    ∃ count, (ofCells cells).restFrom (startOf cells index) = cell ++ List.replicate count ' ' := by
  obtain ⟨count, hrest⟩ := restFrom_ofCells h
  rw [List.drop_of_length_le (Nat.le_of_eq hlast), join, List.intercalate_singleton] at hrest
  exact ⟨count, hrest⟩

/-- Cells are kept as a line, unless they are blank or end with a carriage return. -/
theorem ofRaw?_join (hblank : isBlankText (join ' ' cells) = false)
    (hlast : ∀ cell ∈ cells.getLast?, cell.getLast? ≠ some '\r') :
    ofRaw? (String.ofList (join ' ' cells)) = some (ofCells cells) := by
  have hstrip : stripReturns (String.ofList (join ' ' cells)) = join ' ' cells := by
    unfold stripReturns
    rw [String.toList_ofList]
    refine dropEndWhile_eq_self fun c hc hreturn => ?_
    obtain rfl : c = '\r' := by simpa using hreturn
    rcases getLast?_join hc with hspace | ⟨cell, hcell, hend⟩
    · cases hspace
    · exact hlast cell hcell hend
  unfold ofRaw?
  simp only [hstrip, hblank, Bool.false_eq_true, if_false]
  rfl

theorem tokens_ofCells (cells : List (List Char)) :
    (ofCells cells).tokens = cells.flatMap words := by
  rw [tokens_eq, ofCells, pad, words_append_spaces, words_join]

end Line

end EventListing
