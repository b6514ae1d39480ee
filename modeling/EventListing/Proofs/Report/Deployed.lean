-- Files below the deploy directory. The path of a file is put in small letters before the
-- deploy directory is looked for in it, and the directory itself is not. So the directory
-- goes away when it has no capitals, and is never found when it has one.
import EventListing.Proofs.Text.Lowered
import EventListing.Report.Location

namespace EventListing.Report

open Text

/-! ## Directories and the paths below them -/

/-- An ASCII path of a directory, with a name at its end. -/
structure IsDirectory (path : String) : Prop where
  ascii : IsAscii path.toList
  nonempty : path ≠ ""
  noSlash : path.toList.getLast? ≠ some '/'

/-- An ASCII path that does not start at the root. -/
structure IsRelative (path : String) : Prop where
  ascii : IsAscii path.toList
  noSlash : path.toList.head? ≠ some '/'

instance (path : String) : Decidable (IsDirectory path) :=
  decidable_of_iff (IsAscii path.toList ∧ path ≠ "" ∧ path.toList.getLast? ≠ some '/')
    ⟨fun h => ⟨h.1, h.2.1, h.2.2⟩, fun h => ⟨h.ascii, h.nonempty, h.noSlash⟩⟩

instance (path : String) : Decidable (IsRelative path) :=
  decidable_of_iff (IsAscii path.toList ∧ path.toList.head? ≠ some '/')
    ⟨fun h => ⟨h.1, h.2⟩, fun h => ⟨h.ascii, h.noSlash⟩⟩

variable {deployPath relative : String}

theorem toList_below (deployPath relative : String) :
    (deployPath ++ "/" ++ relative).toList = deployPath.toList ++ '/' :: relative.toList := by
  simp [String.toList_append]

theorem isAscii_below (hdeploy : IsDirectory deployPath) (hrelative : IsRelative relative) :
    IsAscii (deployPath ++ "/" ++ relative).toList := by
  have hslash : '/'.toNat < 128 := by decide
  rw [toList_below]
  exact isAscii_append.mpr ⟨hdeploy.ascii, List.forall_mem_cons.mpr ⟨hslash, hrelative.ascii⟩⟩

/-- A relative path keeps all of its characters when slashes in front go away. -/
theorem IsRelative.dropWhile_slash (h : IsRelative relative) :
    (relative.toList.map Char.toLower).dropWhile (· == '/') =
      relative.toList.map Char.toLower := by
  have hslash := h.noSlash
  cases hchars : relative.toList with
  | nil => rfl
  | cons c cs =>
    rw [hchars, List.head?_cons] at hslash
    have hc : ¬ c.toLower = '/' := fun he => hslash ((toLower_eq_slash_iff c).mp he ▸ rfl)
    simp [hc]

/-- The name at the end of a directory stops the search for slashes. -/
theorem IsDirectory.dropWhile_slash_ne_nil (h : IsDirectory deployPath) :
    (deployPath.toList.map Char.toLower).dropWhile (· == '/') ≠ [] := by
  have hchars : deployPath.toList ≠ [] := fun he => h.nonempty (String.toList_eq_nil_iff.mp he)
  have hlast : deployPath.toList.getLast hchars ≠ '/' := by
    intro he
    exact h.noSlash (by rw [List.getLast?_eq_some_getLast hchars, he])
  intro hnil
  rw [List.dropWhile_eq_nil_iff] at hnil
  have hslash := hnil _ (List.mem_map_of_mem (List.getLast_mem hchars))
  rw [beq_iff_eq, toLower_eq_slash_iff] at hslash
  exact hlast hslash

namespace Location

/-! ## The path within the workspace -/

theorem ofPath_of_deployPath {settings : Settings}
    (deployed : settings.deployPath = some deployPath) (path : String) :
    ofPath settings path = ⟨.workspace, workspacePath deployPath path⟩ := by
  unfold ofPath
  rw [deployed]

theorem workspacePath_below (hdeploy : IsDirectory deployPath) (hrelative : IsRelative relative)
    (hsmall : NoCapital deployPath.toList) :
    workspacePath deployPath (deployPath ++ "/" ++ relative) = relative.toLower := by
  have hslash : (('/' :: relative.toList).map Char.toLower).dropWhile (· == '/') =
      (relative.toList.map Char.toLower).dropWhile (· == '/') := rfl
  unfold workspacePath
  simp only
  rw [lowercase_of_ascii (isAscii_below hdeploy hrelative), toList_below, List.map_append,
    hsmall.map_toLower, removeFirst_append, hslash, hrelative.dropWhile_slash]
  exact String.toList_inj.mp (by simp [String.toLower])

/-- A directory with a capital is not to be found in small letters. -/
theorem workspacePath_of_capital {path : String} (hpath : IsAscii path.toList)
    (hcapital : ¬ NoCapital deployPath.toList) :
    workspacePath deployPath path =
      String.ofList ((path.toList.map Char.toLower).dropWhile (· == '/')) := by
  unfold workspacePath
  simp only
  rw [lowercase_of_ascii hpath, removeFirst_of_not_infix]
  exact fun hinfix => hcapital ((noCapital_map_toLower _).of_subset hinfix.subset)

/-- Nothing of a directory with a capital goes away, but the slashes in front. -/
theorem workspacePath_below_of_capital (hdeploy : IsDirectory deployPath)
    (hrelative : IsRelative relative) (hcapital : ¬ NoCapital deployPath.toList) :
    workspacePath deployPath (deployPath ++ "/" ++ relative) =
      String.ofList (deployPath.toLower.toList.dropWhile (· == '/')) ++ "/" ++
        relative.toLower := by
  have hname := hdeploy.dropWhile_slash_ne_nil
  rw [workspacePath_of_capital (isAscii_below hdeploy hrelative) hcapital, toList_below,
    List.map_append, List.dropWhile_append, if_neg (by simpa using hname)]
  exact String.toList_inj.mp (by simp [String.toLower])

end Location

/-! ## The law -/

/-- A file below the deploy directory becomes a file of the workspace. When the directory
has no capitals, its path is that below the directory, in small letters. When it has one,
the directory is not found and remains in the path. -/
theorem deployed_files_become_relative_iff {settings : Settings}
    (deployed : settings.deployPath = some deployPath) (hdeploy : IsDirectory deployPath)
    (hrelative : IsRelative relative) :
    (Location.ofPath settings (deployPath ++ "/" ++ relative) =
        ⟨.workspace, relative.toLower⟩ ↔ NoCapital deployPath.toList) ∧
    (¬ NoCapital deployPath.toList →
      Location.ofPath settings (deployPath ++ "/" ++ relative) =
        ⟨.workspace, String.ofList (deployPath.toLower.toList.dropWhile (· == '/')) ++ "/" ++
          relative.toLower⟩) := by
  rw [Location.ofPath_of_deployPath deployed]
  by_cases hsmall : NoCapital deployPath.toList
  · simp [hsmall, Location.workspacePath_below hdeploy hrelative hsmall]
  · have hwhole := Location.workspacePath_below_of_capital hdeploy hrelative hsmall
    refine ⟨iff_of_false ?_ hsmall, fun _ => by rw [hwhole]⟩
    rw [hwhole]
    intro he
    have hlength := congrArg (fun location => location.path.toList.length) he
    simp at hlength
    omega

theorem file_below_app_becomes_relative :
    IsDirectory "/home/me/builds/app" ∧ IsRelative "QRPGLESRC/PGM.RPGLE" ∧
    Location.ofPath { deployPath := some "/home/me/builds/app" }
      ("/home/me/builds/app" ++ "/" ++ "QRPGLESRC/PGM.RPGLE") =
        ⟨.workspace, "qrpglesrc/pgm.rpgle"⟩ := by
  have hdeploy : IsDirectory "/home/me/builds/app" := by decide +kernel
  have hrelative : IsRelative "QRPGLESRC/PGM.RPGLE" := by decide +kernel
  have hlower : "QRPGLESRC/PGM.RPGLE".toLower = "qrpglesrc/pgm.rpgle" := by
    simp [String.toLower, ← String.toList_inj]
  refine ⟨hdeploy, hrelative, ?_⟩
  rw [← hlower]
  exact (deployed_files_become_relative_iff rfl hdeploy hrelative).1.mpr (by decide +kernel)

/-- The capitals of the directory keep it in the path. -/
theorem file_below_capitals_stays_whole :
    IsDirectory "/home/ME/app" ∧ IsRelative "src/A.c" ∧
    Location.ofPath { deployPath := some "/home/ME/app" } ("/home/ME/app" ++ "/" ++ "src/A.c") =
      ⟨.workspace, "home/me/app/src/a.c"⟩ ∧
    Location.ofPath { deployPath := some "/home/ME/app" } ("/home/ME/app" ++ "/" ++ "src/A.c") ≠
      ⟨.workspace, "src/A.c".toLower⟩ := by
  have hlower : "src/A.c".toLower = "src/a.c" := by
    simp [String.toLower, ← String.toList_inj]
  rw [hlower]
  decide +kernel

end EventListing.Report
