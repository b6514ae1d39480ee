-- Which reports are about the same resource. Without a deploy directory each path has a
-- location of its own. With one, small letters take the place of capitals, so that the
-- reports of two paths that differ in nothing else have one location, and the later one
-- takes the place of the earlier one in the editor.
import EventListing.Proofs.Report.Deployed
import EventListing.Report.FileReport

namespace EventListing.Report

open Text

/-! ## Lists without duplicates -/

theorem nodup_map_iff_of_eq_iff {α β γ : Type} {l : List α} {f : α → β} {g : α → γ}
    (h : ∀ a ∈ l, ∀ b ∈ l, f a = f b ↔ g a = g b) : (l.map f).Nodup ↔ (l.map g).Nodup := by
  unfold List.Nodup
  rw [List.pairwise_map, List.pairwise_map]
  exact List.Pairwise.iff_of_mem fun ha hb => not_congr (h _ ha _ hb)

/-! ## Paths with one location -/

variable {settings : Settings} {deployPath : String}

namespace Location

/-- The scheme tells stream files from members, and what stands around the path of a
member is the same for all. -/
theorem ofPath_injective (h : settings.deployPath = none) :
    Function.Injective (ofPath settings) := by
  intro p q hpq
  unfold ofPath at hpq
  simp only [h] at hpq
  split at hpq <;> split at hpq
  · exact congrArg Location.path hpq
  · exact nomatch congrArg Location.scheme hpq
  · exact nomatch congrArg Location.scheme hpq
  · have hmember := congrArg Location.path hpq
    unfold memberPath at hmember
    exact (String.append_right_inj _).mp ((String.append_left_inj _).mp hmember)

/-- The path lies below the deploy directory. -/
def IsBelow (deployPath path : String) : Prop :=
  ∃ relative, IsRelative relative ∧ path = deployPath ++ "/" ++ relative

/-- Below the deploy directory only small letters count, whether the directory is found
or not. -/
theorem workspacePath_eq_iff (hdeploy : IsDirectory deployPath) {p q : String}
    (hp : IsBelow deployPath p) (hq : IsBelow deployPath q) :
    workspacePath deployPath p = workspacePath deployPath q ↔ p.toLower = q.toLower := by
  obtain ⟨r, hr, rfl⟩ := hp
  obtain ⟨s, hs, rfl⟩ := hq
  have hlower : (deployPath ++ "/" ++ r).toLower = (deployPath ++ "/" ++ s).toLower ↔
      r.toLower = s.toLower := by
    simp [String.toLower, ← String.toList_inj]
  rw [hlower]
  by_cases hsmall : NoCapital deployPath.toList
  · rw [workspacePath_below hdeploy hr hsmall, workspacePath_below hdeploy hs hsmall]
  · rw [workspacePath_below_of_capital hdeploy hr hsmall,
      workspacePath_below_of_capital hdeploy hs hsmall, String.append_right_inj]

end Location

/-! ## Reports of a map -/

/-- No two of the reports have one location. -/
def StandApart (reports : List FileReport) : Prop := (reports.map (·.location)).Nodup

instance (reports : List FileReport) : Decidable (StandApart reports) :=
  inferInstanceAs (Decidable (List.Nodup _))

theorem locations_ofMap (settings : Settings) (m : DiagnosticMap) :
    (ofMap settings m).map (·.location) = m.keys.map (Location.ofPath settings) := by
  unfold ofMap OrderedMap.keys
  rw [List.map_map, List.map_map]
  rfl

theorem standApart_of_none (h : settings.deployPath = none) (m : DiagnosticMap) :
    StandApart (ofMap settings m) := by
  unfold StandApart
  rw [locations_ofMap]
  exact m.nodup_keys.map (Location.ofPath_injective h)

theorem standApart_iff (deployed : settings.deployPath = some deployPath) (m : DiagnosticMap) :
    StandApart (ofMap settings m) ↔
      (m.keys.map (Location.workspacePath deployPath)).Nodup := by
  unfold StandApart
  rw [locations_ofMap]
  refine nodup_map_iff_of_eq_iff fun p _ q _ => ?_
  simp [Location.ofPath_of_deployPath deployed]

/-- The path within the workspace is made from the small letters alone. -/
theorem nodup_lowercase {paths : List String}
    (h : (paths.map (Location.workspacePath deployPath)).Nodup) :
    (paths.map fun path => lowercase path.toList).Nodup := by
  have hlowered : paths.map (Location.workspacePath deployPath) =
      (paths.map fun path => lowercase path.toList).map fun lowered =>
        String.ofList ((removeFirst deployPath.toList lowered).dropWhile (· == '/')) := by
    rw [List.map_map]
    rfl
  exact List.Nodup.of_map _ (hlowered ▸ h)

/-! ## What the editor shows -/

/-- What an editor shows for each location after the reports. A report replaces what was
shown for its location before. -/
def shown (reports : List FileReport) : Location → List EditorDiagnostic :=
  reports.foldl (fun before report => Function.update before report.location report.diagnostics)
    fun _ => []

theorem StandApart.shown_eq {reports : List FileReport} (h : StandApart reports)
    {report : FileReport} (hreport : report ∈ reports) :
    shown reports report.location = report.diagnostics := by
  unfold StandApart at h
  induction reports using List.reverseRecOn with
  | nil => cases hreport
  | append_singleton reports last ih =>
    rw [List.map_append, List.nodup_append] at h
    obtain ⟨hreports, -, hapart⟩ := h
    unfold shown at ih ⊢
    rw [List.foldl_append, List.foldl_cons, List.foldl_nil]
    rcases List.mem_append.mp hreport with hbefore | hlast
    · have hne : report.location ≠ last.location :=
        hapart _ (List.mem_map_of_mem hbefore) _ (List.mem_map_of_mem List.mem_cons_self)
      rw [Function.update_of_ne hne, ih hreports hbefore]
    · rw [List.mem_singleton.mp hlast, Function.update_self]

/-! ## The law -/

/-- The reports of a map have locations of their own as long as no deploy directory makes
two paths one, and then each report stays in the editor. Under a deploy directory no two
paths may differ in capitals only, and that is all when all of them lie below it. -/
theorem reports_stand_apart_iff (settings : Settings) (m : DiagnosticMap) :
    (StandApart (ofMap settings m) ↔
      ∀ deployPath, settings.deployPath = some deployPath →
        (m.keys.map (Location.workspacePath deployPath)).Nodup) ∧
    (∀ deployPath, settings.deployPath = some deployPath →
      (StandApart (ofMap settings m) → (m.keys.map fun path => lowercase path.toList).Nodup) ∧
      (IsDirectory deployPath → (∀ path ∈ m.keys, Location.IsBelow deployPath path) →
        (StandApart (ofMap settings m) ↔ (m.keys.map String.toLower).Nodup))) ∧
    (StandApart (ofMap settings m) → ∀ report ∈ ofMap settings m,
      shown (ofMap settings m) report.location = report.diagnostics) := by
  refine ⟨⟨fun h deployPath deployed => (standApart_iff deployed m).mp h, ?_⟩, ?_,
    fun h report => h.shown_eq⟩
  · intro h
    rcases deployed : settings.deployPath with _ | deployPath
    · exact standApart_of_none deployed m
    · exact (standApart_iff deployed m).mpr (h deployPath deployed)
  · intro deployPath deployed
    rw [standApart_iff deployed]
    refine ⟨nodup_lowercase, fun hdeploy hbelow => ?_⟩
    exact nodup_map_iff_of_eq_iff fun p hp q hq =>
      Location.workspacePath_eq_iff hdeploy (hbelow p hp) (hbelow q hq)

/-- Two files below the deploy directory. -/
def twoFiles : DiagnosticMap where
  entries := [
    ("/home/me/app/src/Main.c", [⟨30, 4, 2, 9, "undeclared", "CZM0045"⟩]),
    ("/home/me/app/src/util.c", [⟨10, 7, 1, 3, "unused", "CZM0304"⟩])]
  nodup_keys := by decide

theorem two_files_stand_apart :
    (∀ path ∈ twoFiles.keys, Location.IsBelow "/home/me/app" path) ∧
    StandApart (ofMap { deployPath := some "/home/me/app" } twoFiles) ∧
    ∀ report ∈ ofMap { deployPath := some "/home/me/app" } twoFiles,
      shown (ofMap { deployPath := some "/home/me/app" } twoFiles) report.location =
        report.diagnostics := by
  have hbelow : ∀ path ∈ twoFiles.keys, Location.IsBelow "/home/me/app" path := by
    intro path hpath
    have hpath : path = "/home/me/app/src/Main.c" ∨ path = "/home/me/app/src/util.c" := by
      simpa [OrderedMap.keys, twoFiles] using hpath
    rcases hpath with rfl | rfl
    · exact ⟨"src/Main.c", by decide +kernel, by decide +kernel⟩
    · exact ⟨"src/util.c", by decide +kernel, by decide +kernel⟩
  have hlowered : (twoFiles.keys.map String.toLower).Nodup := by
    simp [OrderedMap.keys, twoFiles, String.toLower, ← String.toList_inj]
  obtain ⟨-, hdeployed, hshown⟩ :=
    reports_stand_apart_iff { deployPath := some "/home/me/app" } twoFiles
  have hapart := ((hdeployed _ rfl).2 (by decide +kernel) hbelow).mpr hlowered
  exact ⟨hbelow, hapart, hshown hapart⟩

/-- Two files with one name but for a capital. -/
def twoSpellings : DiagnosticMap where
  entries := [
    ("/home/me/app/src/a.c", [⟨30, 4, 2, 9, "undeclared", "CZM0045"⟩]),
    ("/home/me/app/src/A.c", [⟨10, 7, 1, 3, "unused", "CZM0304"⟩])]
  nodup_keys := by decide

/-- The error of the first file goes away when the report of the second one comes. -/
theorem two_spellings_share_a_location :
    (ofMap { deployPath := some "/home/me/app" } twoSpellings).map (·.location) =
      [⟨.workspace, "src/a.c"⟩, ⟨.workspace, "src/a.c"⟩] ∧
    ¬ StandApart (ofMap { deployPath := some "/home/me/app" } twoSpellings) ∧
    shown (ofMap { deployPath := some "/home/me/app" } twoSpellings) ⟨.workspace, "src/a.c"⟩ =
      [⟨⟨⟨6, 0⟩, ⟨6, 3⟩⟩, .info, "CZM0304", "CZM0304: unused (10)"⟩] := by
  decide +kernel

end EventListing.Report
