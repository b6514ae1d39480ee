-- What a map of diagnostics lists under each path, after diagnostics were
-- added one by one. A list of diagnostics with their paths says it all: each
-- path lists its own ones in their order.
import Mathlib.Data.List.Basic
import Mathlib.Data.List.Induction
import EventListing.Diagnostic

namespace EventListing

/-! ## Keys in the order in which they came -/

theorem eraseDups_concat {α : Type} [DecidableEq α] (l : List α) (a : α) :
    (l ++ [a]).eraseDups = if a ∈ l then l.eraseDups else l.eraseDups ++ [a] := by
  have hone : [a].eraseDups = [a] := rfl
  rw [List.eraseDups_append]
  by_cases h : a ∈ l <;> simp [List.removeAll, h, hone]

/-- Keys that come once each all stay. -/
theorem eraseDups_of_nodup {α : Type} [DecidableEq α] {l : List α} (h : l.Nodup) :
    l.eraseDups = l := by
  induction l using List.reverseRecOn with
  | nil => rfl
  | append_singleton l a ih =>
    obtain ⟨hl, -, hnew⟩ := List.nodup_append.mp h
    have ha : a ∉ l := fun hmem => hnew a hmem a List.mem_cons_self rfl
    rw [eraseDups_concat, if_neg ha, ih hl]

/-- After a run of changes, the new keys stand behind the old ones, each where it
came first. -/
theorem OrderedMap.keys_foldl_alter_from {κ ν α : Type} [DecidableEq κ] (key : α → κ)
    (change : α → Option ν → ν) (l : List α) (m : OrderedMap κ ν) :
    (l.foldl (fun m a => m.alter (key a) (change a)) m).keys = (m.keys ++ l.map key).eraseDups := by
  induction l using List.reverseRecOn with
  | nil =>
    rw [List.map_nil, List.append_nil]
    exact (eraseDups_of_nodup m.nodup_keys).symm
  | append_singleton l a ih =>
    rw [List.foldl_append, List.foldl_cons, List.foldl_nil, keys_alter, ih, List.map_append,
      List.map_cons, List.map_nil, ← List.append_assoc, eraseDups_concat]
    simp only [List.mem_eraseDups]

/-- After a run of changes, each key stands where it came first. -/
theorem OrderedMap.keys_foldl_alter {κ ν α : Type} [DecidableEq κ] (key : α → κ)
    (change : α → Option ν → ν) (l : List α) :
    (l.foldl (fun m a => m.alter (key a) (change a)) (∅ : OrderedMap κ ν)).keys =
      (l.map key).eraseDups :=
  keys_foldl_alter_from key change l ∅

namespace DiagnosticMap

/-- The diagnostics under a path. A path that was never reported has none. -/
def listed (m : DiagnosticMap) (path : String) : List Diagnostic := (m.get? path).getD []

@[simp] theorem listed_empty (path : String) : listed ∅ path = [] := rfl

theorem listed_extend (m : DiagnosticMap) (path q : String) (ds : List Diagnostic) :
    (m.extend path ds).listed q = m.listed q ++ if path = q then ds else [] := by
  unfold extend listed
  rw [OrderedMap.get?_alter]
  by_cases h : path = q
  · simp [h]
  · have h' : ¬ q = path := fun e => h e.symm
    simp [h, h']

theorem listed_push (m : DiagnosticMap) (path q : String) (d : Diagnostic) :
    (m.push path d).listed q = m.listed q ++ if path = q then [d] else [] :=
  listed_extend m path q [d]

theorem listed_of_mem {m : DiagnosticMap} {entry : String × List Diagnostic}
    (h : entry ∈ m.entries) : m.listed entry.1 = entry.2 := by
  rw [listed, OrderedMap.get?_of_mem (show (entry.1, entry.2) ∈ m.entries from h),
    Option.getD_some]

/-- A map is known by its paths and what each of them lists. -/
theorem entries_eq (m : DiagnosticMap) :
    m.entries = m.keys.map fun path => (path, m.listed path) := by
  unfold OrderedMap.keys
  rw [List.map_map]
  refine List.map_id _ |>.symm.trans (List.map_congr_left ?_)
  intro e he
  simp only [id, Function.comp, listed_of_mem he]

theorem eq_of_listed {m n : DiagnosticMap} (hkeys : m.keys = n.keys)
    (hlisted : ∀ path, m.listed path = n.listed path) : m = n := by
  refine OrderedMap.ext ?_
  rw [entries_eq m, entries_eq n, hkeys]
  simp only [hlisted]

/-- A path lists what stands in its own entry, and nothing of another one. -/
theorem listed_eq_flatMap (m : DiagnosticMap) (path : String) :
    m.listed path = m.entries.flatMap fun entry => if entry.1 = path then entry.2 else [] := by
  obtain ⟨entries, hnodup⟩ := m
  unfold listed OrderedMap.get?
  simp only
  induction entries with
  | nil => rfl
  | cons entry rest ih =>
    rw [List.map_cons, List.nodup_cons] at hnodup
    rw [List.flatMap_cons, ← ih hnodup.2]
    by_cases h : entry.1 = path
    · have hrest : OrderedMap.lookup path rest = none := by
        rw [← Option.not_isSome_iff_eq_none]
        intro hsome
        exact hnodup.1 (h ▸ (OrderedMap.mem_keys_iff ⟨rest, hnodup.2⟩ path).mpr hsome)
      simp [OrderedMap.lookup, h, hrest]
    · simp [OrderedMap.lookup, h]

/-- The map with the diagnostics added under their paths, the first one
first. -/
def pushAll (m : DiagnosticMap) (found : List (String × Diagnostic)) : DiagnosticMap :=
  found.foldl (fun m entry => m.push entry.1 entry.2) m

@[simp] theorem pushAll_nil (m : DiagnosticMap) : m.pushAll [] = m := rfl

theorem pushAll_append (m : DiagnosticMap) (found more : List (String × Diagnostic)) :
    m.pushAll (found ++ more) = (m.pushAll found).pushAll more := by
  unfold pushAll
  rw [List.foldl_append]

/-- Each path lists what was added under it, behind what it had. -/
theorem listed_pushAll (m : DiagnosticMap) (found : List (String × Diagnostic)) (path : String) :
    (m.pushAll found).listed path =
      m.listed path ++ (found.filter (·.1 = path)).map Prod.snd := by
  induction found generalizing m with
  | nil => simp
  | cons entry found ih =>
    unfold pushAll at ih ⊢
    rw [List.foldl_cons, ih, listed_push, List.append_assoc]
    congr 1
    by_cases h : entry.1 = path <;> simp [h]

/-! ## All diagnostics of a map -/

/-- The diagnostics with their paths, in the order of the map. -/
def toList (m : DiagnosticMap) : List (String × Diagnostic) :=
  m.entries.flatMap fun (path, ds) => ds.map (path, ·)

theorem filter_toList (m : DiagnosticMap) (path : String) :
    m.toList.filter (·.1 = path) = (m.listed path).map (path, ·) := by
  rw [listed_eq_flatMap, toList, List.filter_flatMap, List.map_flatMap]
  refine List.flatMap_congr fun entry _ => ?_
  by_cases h : entry.1 = path <;> simp [h, List.filter_map, Function.comp_def]

/-- The diagnostics stand path by path. -/
theorem toList_eq (m : DiagnosticMap) :
    m.toList = m.keys.flatMap fun path => m.toList.filter (·.1 = path) := by
  simp only [filter_toList]
  rw [toList, entries_eq, List.flatMap_map]

theorem mem_keys_of_mem_toList {m : DiagnosticMap} {found : String × Diagnostic}
    (h : found ∈ m.toList) : found.1 ∈ m.keys := by
  obtain ⟨entry, hentry, hfound⟩ := List.mem_flatMap.mp h
  obtain ⟨d, -, rfl⟩ := List.mem_map.mp hfound
  exact List.mem_map_of_mem hentry

end DiagnosticMap

end EventListing
