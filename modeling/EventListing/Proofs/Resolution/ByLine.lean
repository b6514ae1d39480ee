-- Sorting by line. The sort is stable, so the diagnostics of each line keep
-- their order, and sorting the parts of a list first changes nothing. With
-- that, what the files of one path add up to is a single sort.
import Mathlib.Data.List.Basic
import EventListing.Proofs.DiagnosticMap
import EventListing.Proofs.OneLess
import EventListing.Resolution.Correction

namespace EventListing.Resolution.Correction

/-! ## The sort -/

theorem line_le_trans (a b c : Diagnostic) (hab : decide (a.line ≤ b.line))
    (hbc : decide (b.line ≤ c.line)) : decide (a.line ≤ c.line) := by
  simp only [decide_eq_true_eq] at *
  omega

theorem line_le_total (a b : Diagnostic) :
    decide (a.line ≤ b.line) || decide (b.line ≤ a.line) := by
  simp only [Bool.or_eq_true, decide_eq_true_eq]
  omega

theorem byLine_perm (ds : List Diagnostic) : (byLine ds).Perm ds := List.mergeSort_perm ds _

theorem pairwise_byLine (ds : List Diagnostic) : (byLine ds).Pairwise (·.line ≤ ·.line) :=
  (List.pairwise_mergeSort line_le_trans line_le_total ds).imp (by simp)

/-- The diagnostics of one line keep their order. -/
theorem filter_byLine (n : Int) (ds : List Diagnostic) :
    (byLine ds).filter (·.line = n) = ds.filter (·.line = n) := by
  have hsame : (ds.filter (·.line = n)).Pairwise fun a b => decide (a.line ≤ b.line) := by
    rw [List.pairwise_filter]
    refine List.pairwise_of_forall ?_
    intro a b ha hb
    simp only [decide_eq_true_eq] at *
    omega
  have hsub : (ds.filter (·.line = n)).Sublist (byLine ds) :=
    List.sublist_mergeSort line_le_trans line_le_total hsame List.filter_sublist
  have hsub' : (ds.filter (·.line = n)).Sublist ((byLine ds).filter (·.line = n)) := by
    simpa using hsub.filter (·.line = n)
  exact (hsub'.eq_of_length ((byLine_perm ds).filter _).length_eq.symm).symm

/-- A sorted list is known by the diagnostics of each line. -/
theorem eq_of_filter_eq {a b : List Diagnostic} (ha : a.Pairwise (·.line ≤ ·.line))
    (hb : b.Pairwise (·.line ≤ ·.line))
    (h : ∀ n : Int, a.filter (·.line = n) = b.filter (·.line = n)) : a = b := by
  induction a generalizing b with
  | nil =>
    cases b with
    | nil => rfl
    | cons y b => simpa using h y.line
  | cons x a ih =>
    cases b with
    | nil => simpa using h x.line
    | cons y b =>
      have hxy : x.line ≤ y.line := by
        have hy : y ∈ (x :: a).filter (·.line = y.line) := by
          rw [h]
          simp
        rcases List.mem_cons.mp (List.mem_of_mem_filter hy) with rfl | hmem
        · exact Int.le_refl _
        · exact List.rel_of_pairwise_cons ha hmem
      have hyx : y.line ≤ x.line := by
        have hx : x ∈ (y :: b).filter (·.line = x.line) := by
          rw [← h]
          simp
        rcases List.mem_cons.mp (List.mem_of_mem_filter hx) with rfl | hmem
        · exact Int.le_refl _
        · exact List.rel_of_pairwise_cons hb hmem
      have hline : y.line = x.line := Int.le_antisymm hyx hxy
      have hfirst := h x.line
      simp only [List.filter_cons, hline, decide_true, if_true, List.cons.injEq] at hfirst
      obtain ⟨rfl, hrest⟩ := hfirst
      rw [ih ha.of_cons hb.of_cons]
      intro n
      by_cases hn : x.line = n
      · exact hn ▸ hrest
      · simpa [List.filter_cons, hn] using h n

/-- Sorting the parts first changes nothing. -/
theorem byLine_append_byLine (a b : List Diagnostic) :
    byLine (byLine a ++ byLine b) = byLine (a ++ b) := by
  refine eq_of_filter_eq (pairwise_byLine _) (pairwise_byLine _) ?_
  intro n
  simp only [filter_byLine, List.filter_append]

theorem byLine_byLine (ds : List Diagnostic) : byLine (byLine ds) = byLine ds := by
  simpa [byLine] using byLine_append_byLine ds []

/-- Without one diagnostic, the others stand as they did. -/
theorem byLine_oneLess {d : Option Diagnostic} {old new : List Diagnostic}
    (h : OneLess d old new) : OneLess d (byLine old) (byLine new) := by
  cases d with
  | none =>
    rw [h.eq_of_none]
    exact OneLess.refl _
  | some d =>
    obtain ⟨xs, ys, hold, rfl⟩ := h
    have hline : (byLine old).filter (·.line = d.line) =
        xs.filter (·.line = d.line) ++ d :: ys.filter (·.line = d.line) := by
      rw [filter_byLine, hold]
      simp
    obtain ⟨as, rest, hsplit, has, hrest⟩ := List.filter_eq_append_iff.mp hline
    obtain ⟨bs, cs, rfl, hbs, -, hcs⟩ := List.filter_eq_cons_iff.mp hrest
    refine ⟨as ++ bs, cs, by simpa using hsplit, ?_⟩
    refine eq_of_filter_eq (pairwise_byLine _) ?_ ?_
    · refine (pairwise_byLine old).sublist ?_
      rw [hsplit]
      simp
    · intro n
      by_cases hn : n = d.line
      · subst hn
        have hnone : bs.filter (·.line = d.line) = [] := List.filter_eq_nil_iff.mpr hbs
        rw [filter_byLine, List.filter_append, List.filter_append, List.filter_append, has, hnone,
          hcs, List.append_nil]
      · have hother := filter_byLine n old
        have hd : ¬ d.line = n := fun e => hn e.symm
        rw [hsplit, hold] at hother
        rw [filter_byLine]
        simpa [hd] using hother.symm

/-! ## The files of one path -/

theorem listed_addFile {m : DiagnosticMap} {found : List Diagnostic} {path : String}
    (h : m.listed path = byLine found) (file : TrackedFile) :
    (addFile m file).listed path =
      byLine (found ++ if file.path = path then file.errors else []) := by
  unfold addFile
  split
  · rename_i hnone
    rw [List.isEmpty_iff.mp hnone]
    simpa using h
  · unfold DiagnosticMap.listed at *
    rw [OrderedMap.get?_alter]
    by_cases hpath : path = file.path
    · subst hpath
      rw [if_pos rfl, if_pos rfl, Option.getD_some, ← byLine_append_byLine, ← h]
      cases m.get? file.path with
      | none => exact (byLine_byLine _).symm
      | some ds => rfl
    · have hpath' : ¬ file.path = path := fun e => hpath e.symm
      simpa [hpath, hpath'] using h

/-- Each path lists the diagnostics of its files together, sorted by line. -/
theorem listed_finish (s : Correction) (path : String) :
    s.finish.listed path =
      byLine ((s.files.values.filter (·.path = path)).flatMap (·.errors)) := by
  suffices h : ∀ (files : List TrackedFile) (m : DiagnosticMap) (found : List Diagnostic),
      m.listed path = byLine found → (files.foldl addFile m).listed path =
        byLine (found ++ (files.filter (·.path = path)).flatMap (·.errors)) by
    exact h s.files.values ∅ [] (by simp [byLine])
  intro files
  induction files with
  | nil =>
    intro m found h
    simpa using h
  | cons file files ih =>
    intro m found h
    rw [List.foldl_cons, ih _ _ (listed_addFile h file), List.append_assoc]
    by_cases hpath : file.path = path <;> simp [hpath]

end EventListing.Resolution.Correction
