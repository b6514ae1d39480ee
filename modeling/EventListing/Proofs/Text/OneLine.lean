-- Texts that stand on one line. Taking parts of such a text leaves one line, and so
-- does putting such texts together again without a line end. Texts that each stand
-- on one line are told apart again when a line end is put behind each of them.
import EventListing.Line
import EventListing.Proofs.Text.Words

namespace EventListing.Text

/-- The text has no line end. -/
def OneLine (cs : List Char) : Prop := '\n' ∉ cs

instance (cs : List Char) : Decidable (OneLine cs) := inferInstanceAs (Decidable (_ ∉ _))

/-! ## Parts of a text -/

theorem OneLine.of_subset {part whole : List Char} (h : OneLine whole) (hpart : part ⊆ whole) :
    OneLine part := fun hmem => h (hpart hmem)

theorem dropEndWhile_subset (p : Char → Bool) (cs : List Char) : dropEndWhile p cs ⊆ cs := by
  intro c hc
  unfold dropEndWhile at hc
  rw [List.mem_reverse] at hc
  exact List.mem_reverse.mp ((List.dropWhile_sublist p).subset hc)

theorem trim_subset (cs : List Char) : trim cs ⊆ cs := by
  intro c hc
  exact (List.dropWhile_sublist isBlank).subset (dropEndWhile_subset isBlank _ hc)

/-- A segment has characters of the text, and not the separator. -/
theorem of_mem_segments {sep : Char} {cs part : List Char} (h : part ∈ segments sep cs) :
    part ⊆ cs ∧ sep ∉ part := by
  induction cs generalizing part with
  | nil =>
    obtain rfl : part = [] := List.mem_singleton.mp h
    exact ⟨List.nil_subset _, List.not_mem_nil⟩
  | cons c cs ih =>
    rw [segments_cons] at h
    unfold addToSegments at h
    split at h
    · rcases List.mem_cons.mp h with rfl | hrest
      · exact ⟨List.nil_subset _, List.not_mem_nil⟩
      · exact ⟨List.subset_cons_of_subset c (ih hrest).1, (ih hrest).2⟩
    · rename_i hc
      cases hsegments : segments sep cs with
      | nil => exact absurd hsegments (segments_ne_nil sep cs)
      | cons first rest =>
        simp only [hsegments] at h ih
        rcases List.mem_cons.mp h with rfl | hrest
        · obtain ⟨hsub, hsep⟩ := ih List.mem_cons_self
          exact ⟨List.cons_subset_cons c hsub,
            fun hmem => (List.mem_cons.mp hmem).elim (fun he => hc he.symm) hsep⟩
        · obtain ⟨hsub, hsep⟩ := ih (List.mem_cons_of_mem first hrest)
          exact ⟨List.subset_cons_of_subset c hsub, hsep⟩

/-! ## Texts put together -/

theorem oneLine_append {xs ys : List Char} : OneLine (xs ++ ys) ↔ OneLine xs ∧ OneLine ys := by
  unfold OneLine
  rw [List.mem_append, not_or]

theorem join_subset (sep : Char) (parts : List (List Char)) :
    join sep parts ⊆ sep :: parts.flatten := by
  unfold join
  induction parts with
  | nil => exact List.nil_subset _
  | cons part parts ih =>
    cases parts with
    | nil => simp
    | cons next parts =>
      rw [List.intercalate_cons_cons]
      intro c hc
      simp only [List.mem_append, List.mem_singleton] at hc
      rcases hc with (hpart | rfl) | hrest
      · simp [hpart]
      · exact List.mem_cons_self
      · rcases List.mem_cons.mp (ih hrest) with rfl | hlater
        · exact List.mem_cons_self
        · exact List.mem_cons_of_mem sep (List.mem_append_right part hlater)

theorem oneLine_join {sep : Char} {parts : List (List Char)} (hsep : sep ≠ '\n')
    (h : ∀ part ∈ parts, OneLine part) : OneLine (join sep parts) := by
  intro hmem
  rcases List.mem_cons.mp (join_subset sep parts hmem) with he | hpart
  · exact hsep he.symm
  · obtain ⟨part, hpart, hline⟩ := List.mem_flatten.mp hpart
    exact h part hpart hline

/-! ## Numbers -/

theorem oneLine_toString_nat (n : Nat) : OneLine (toString n).toList := by
  intro hmem
  have hdigit : '\n'.isDigit := by
    refine Nat.isDigit_of_mem_toDigits (b := 10) (by decide) (by decide) (n := n) ?_
    rwa [← Nat.toList_repr]
  cases hdigit

theorem oneLine_toString_int (n : Int) : OneLine (toString n).toList := by
  cases n with
  | ofNat n => exact oneLine_toString_nat n
  | negSucc n =>
    have hsign : (toString (Int.negSucc n)).toList = "-".toList ++ (toString (n + 1)).toList :=
      String.toList_append
    rw [hsign, oneLine_append]
    exact ⟨by decide, oneLine_toString_nat (n + 1)⟩

/-! ## Lines one after the other -/

/-- Lines that each end with a line end are the lines of what they make. -/
theorem rawLines_join {lines : List String} (h : ∀ line ∈ lines, OneLine line.toList) :
    Listing.rawLines (String.join (lines.map (· ++ "\n"))) = lines ++ [""] := by
  unfold Listing.rawLines
  rw [String.toList_join]
  induction lines with
  | nil => rfl
  | cons line lines ih =>
    obtain ⟨hline, hlines⟩ := List.forall_mem_cons.mp h
    have hend : (line ++ "\n").toList = line.toList ++ ['\n'] := String.toList_append
    rw [List.map_cons, List.flatMap_cons, hend, List.append_assoc, List.singleton_append,
      segments_append_sep, segments_of_not_mem hline, List.singleton_append, List.map_cons,
      ih hlines, String.ofList_toList, List.cons_append]

end EventListing.Text
