-- Maps of diagnostics put together. The merged map has the paths of all the maps, each
-- where it came first, and under each path the lists of all the maps one behind the
-- other. So it is no matter in which order neighbours are put together, and each
-- diagnostic of the maps is there once.
import EventListing.Proofs.DiagnosticMap
import EventListing.Proofs.Grouping

namespace EventListing

/-! ## Duplicates in parts -/

section
variable {α : Type} [DecidableEq α]

theorem eraseDups_append_eraseDups (l r : List α) :
    (l ++ r.eraseDups).eraseDups = (l ++ r).eraseDups := by
  induction r using List.reverseRecOn with
  | nil => rfl
  | append_singleton r a ih =>
    rw [eraseDups_concat r, ← List.append_assoc l r, eraseDups_concat, ← ih]
    by_cases hr : a ∈ r
    · simp [hr]
    · rw [if_neg hr, ← List.append_assoc, eraseDups_concat]
      simp [hr]

theorem eraseDups_eraseDups_append (l r : List α) :
    (l.eraseDups ++ r).eraseDups = (l ++ r).eraseDups := by
  induction r using List.reverseRecOn with
  | nil => simpa using eraseDups_append_eraseDups [] l
  | append_singleton r a ih =>
    rw [← List.append_assoc, ← List.append_assoc, eraseDups_concat, eraseDups_concat, ih]
    simp

end

namespace DiagnosticMap

/-! ## Two maps -/

theorem listed_foldl_extend (entries : List (String × List Diagnostic)) (m : DiagnosticMap)
    (path : String) : (entries.foldl (fun m entry => m.extend entry.1 entry.2) m).listed path =
      m.listed path ++ entries.flatMap fun entry => if entry.1 = path then entry.2 else [] := by
  induction entries generalizing m with
  | nil => simp
  | cons entry rest ih =>
    rw [List.foldl_cons, ih, listed_extend, List.append_assoc, List.flatMap_cons]

theorem keys_merge (m next : DiagnosticMap) :
    (m.merge next).keys = (m.keys ++ next.keys).eraseDups :=
  OrderedMap.keys_foldl_alter_from Prod.fst (fun entry old => old.getD [] ++ entry.2)
    next.entries m

theorem listed_merge (m next : DiagnosticMap) (path : String) :
    (m.merge next).listed path = m.listed path ++ next.listed path := by
  rw [listed_eq_flatMap next]
  exact listed_foldl_extend next.entries m path

theorem merge_empty (m : DiagnosticMap) : m.merge ∅ = m := rfl

theorem empty_merge (m : DiagnosticMap) : merge ∅ m = m := by
  refine eq_of_listed ?_ fun path => ?_
  · rw [keys_merge]
    exact eraseDups_of_nodup m.nodup_keys
  · rw [listed_merge, listed_empty, List.nil_append]

/-- A path that two of the maps have stands where the first one of them puts it,
whichever two are merged first. -/
theorem merge_assoc (a b c : DiagnosticMap) : (a.merge b).merge c = a.merge (b.merge c) := by
  refine eq_of_listed ?_ fun path => ?_
  · simp only [keys_merge, eraseDups_eraseDups_append, eraseDups_append_eraseDups,
      List.append_assoc]
  · simp only [listed_merge, List.append_assoc]

/-! ## Any number of maps -/

theorem mergeAll_concat (ms : List DiagnosticMap) (m : DiagnosticMap) :
    mergeAll (ms ++ [m]) = (mergeAll ms).merge m := List.foldl_append

theorem mergeAll_append (xs ys : List DiagnosticMap) :
    mergeAll (xs ++ ys) = (mergeAll xs).merge (mergeAll ys) := by
  induction ys using List.reverseRecOn with
  | nil => rw [List.append_nil]; rfl
  | append_singleton ys m ih =>
    rw [← List.append_assoc, mergeAll_concat, mergeAll_concat, ih, merge_assoc]

theorem keys_mergeAll (ms : List DiagnosticMap) :
    (mergeAll ms).keys = (ms.flatMap OrderedMap.keys).eraseDups := by
  induction ms using List.reverseRecOn with
  | nil => rfl
  | append_singleton ms m ih =>
    rw [mergeAll_concat, keys_merge, ih, List.flatMap_append, List.flatMap_singleton,
      eraseDups_eraseDups_append]

theorem listed_mergeAll (ms : List DiagnosticMap) (path : String) :
    (mergeAll ms).listed path = ms.flatMap (listed · path) := by
  induction ms using List.reverseRecOn with
  | nil => rfl
  | append_singleton ms m ih =>
    rw [mergeAll_concat, listed_merge, ih, List.flatMap_append, List.flatMap_singleton]

/-- Merging groups the diagnostics of all the maps by their paths. -/
theorem toList_mergeAll (ms : List DiagnosticMap) :
    (mergeAll ms).toList =
      (mergeAll ms).keys.flatMap fun path => (ms.flatMap toList).filter (·.1 = path) := by
  rw [toList_eq]
  refine List.flatMap_congr fun path _ => ?_
  rw [filter_toList, listed_mergeAll, List.map_flatMap, List.filter_flatMap]
  simp only [filter_toList]

theorem toList_mergeAll_perm (ms : List DiagnosticMap) :
    (mergeAll ms).toList.Perm (ms.flatMap toList) := by
  have hkeys : ∀ found ∈ ms.flatMap toList, found.1 ∈ (mergeAll ms).keys := by
    intro found hfound
    obtain ⟨m, hm, hmem⟩ := List.mem_flatMap.mp hfound
    rw [keys_mergeAll, List.mem_eraseDups]
    exact List.mem_flatMap.mpr ⟨m, hm, mem_keys_of_mem_toList hmem⟩
  rw [toList_mergeAll]
  exact flatMap_filter_perm (mergeAll ms).nodup_keys hkeys

/-! ## The law -/

/-- Merging is a union that keeps the order. The merged map has the paths of all the
maps, each where it came first, and each path lists what the maps list under it, in
their order, so that no diagnostic is lost and none comes twice. Maps may be put
together in any two runs, and the map without paths adds nothing. -/
theorem merging_is_an_ordered_union :
    (∀ ms : List DiagnosticMap,
      (mergeAll ms).entries =
        (ms.flatMap OrderedMap.keys).eraseDups.map fun path =>
          (path, ms.flatMap (listed · path))) ∧
    (∀ ms : List DiagnosticMap, (mergeAll ms).toList.Perm (ms.flatMap toList)) ∧
    (∀ xs ys : List DiagnosticMap, mergeAll (xs ++ ys) = (mergeAll xs).merge (mergeAll ys)) ∧
    (∀ a b c : DiagnosticMap, (a.merge b).merge c = a.merge (b.merge c)) ∧
    ∀ m : DiagnosticMap, merge ∅ m = m ∧ m.merge ∅ = m := by
  refine ⟨?_, toList_mergeAll_perm, mergeAll_append, merge_assoc,
    fun m => ⟨empty_merge m, merge_empty m⟩⟩
  intro ms
  rw [entries_eq, keys_mergeAll]
  simp only [listed_mergeAll]

end DiagnosticMap

end EventListing
