-- How a request to map listings ends, told by its files alone: which file is
-- to blame, or what is printed. The rules leave out in which order the run
-- reads its files and what it holds in memory when one of them fails.
import EventListing.Command.Run
import EventListing.Proofs.Command.Choices
import EventListing.Proofs.DiagnosticMap.Merge

namespace EventListing.Command

open Resolution (NoNegativeLine Strategy)

variable {host : Host} {files : Files} {i : Invocation} {config : Config}
  {settings : Report.Settings} {m : DiagnosticMap}

/-! ## Which configuration counts -/

/-- The file with the configuration: the named one, or else the default one
if there is such a file. -/
def Invocation.configFile? (i : Invocation) (files : Files) : Option String :=
  i.config.or (if (files defaultConfigName).isFile then some defaultConfigName else none)

/-- The settings that a request runs with. -/
inductive Invocation.Configured (i : Invocation) (host : Host) (files : Files) : Config → Prop
  | byDefault (absent : i.configFile? files = none) : Configured i host files {}
  | byFile {name text : String} {config : Config} (chosen : i.configFile? files = some name)
      (readable : (files name).text? = some text)
      (valid : Config.ofTextBy host.document? text = .ok config) :
      Configured i host files config

theorem Host.loadConfig_of_none (absent : i.configFile? files = none) :
    host.loadConfig files i.config = .ok {} := by
  obtain ⟨noName, noDefault⟩ := Option.or_eq_none_iff.mp absent
  simp_all [loadConfig]

theorem Host.loadConfig_of_some {name : String} (chosen : i.configFile? files = some name) :
    host.loadConfig files i.config = host.readConfig files name := by
  unfold Invocation.configFile? at chosen
  unfold loadConfig
  cases named : i.config with
  | some other =>
    rw [named, Option.some_or, Option.some_inj] at chosen
    rw [chosen]
  | none =>
    rw [named, Option.none_or] at chosen
    split at chosen
    case isTrue isFile =>
      rw [← Option.some_inj.mp chosen]
      exact if_pos isFile
    case isFalse => cases chosen

theorem Invocation.Configured.loadConfig_eq (configured : i.Configured host files config) :
    host.loadConfig files i.config = .ok config := by
  cases configured with
  | byDefault absent => exact Host.loadConfig_of_none absent
  | byFile chosen readable valid =>
    simp [Host.loadConfig_of_some chosen, Host.readConfig, readable, valid]

/-! ## The listings as a list of texts -/

/-- All names lead to texts, or one of them is the first that does not. -/
theorem texts_or_first_unreadable (files : Files) (names : List String) :
    (∃ texts : List String, names.map (fun name => (files name).text?) = texts.map some) ∨
      ∃ before name after, names = before ++ name :: after ∧
        (∀ earlier ∈ before, (files earlier).text?.isSome) ∧ (files name).text? = none := by
  induction names with
  | nil => exact .inl ⟨[], rfl⟩
  | cons first rest ih =>
    cases here : (files first).text? with
    | none => exact .inr ⟨[], first, rest, rfl, by simp, here⟩
    | some text =>
      rcases ih with ⟨texts, all⟩ | ⟨before, name, after, rfl, readable, unreadable⟩
      · exact .inl ⟨text :: texts, by simp [here, all]⟩
      · exact .inr ⟨first :: before, name, after, rfl, by simpa [here] using readable, unreadable⟩

/-- Each text is resolved without a look at the others. -/
theorem mapM_resolveFile {names texts : List String}
    (all : names.map (fun name => (files name).text?) = texts.map some) :
    names.mapM (i.resolveFile config files) = .ok (texts.map (i.resolve config)) := by
  induction names generalizing texts with
  | nil => simp_all [pure, Except.pure]
  | cons name rest ih =>
    cases texts with
    | nil => simp at all
    | cons text texts =>
      obtain ⟨here, later⟩ := List.cons_eq_cons.mp all
      rw [List.mapM_cons, ih later]
      simp [Invocation.resolveFile, here, bind, Except.bind, pure, Except.pure]

/-- The maps of the listings before an unreadable one are lost. -/
theorem mapM_resolveFile_unreadable {before after : List String} {name : String}
    (readable : ∀ earlier ∈ before, (files earlier).text?.isSome)
    (unreadable : (files name).text? = none) :
    (before ++ name :: after).mapM (i.resolveFile config files) =
      .error (.listingUnreadable name) := by
  induction before with
  | nil =>
    rw [List.nil_append, List.mapM_cons]
    simp [Invocation.resolveFile, unreadable, bind, Except.bind]
  | cons first before ih =>
    obtain ⟨text, here⟩ := Option.isSome_iff_exists.mp (readable first List.mem_cons_self)
    rw [List.cons_append, List.mapM_cons,
      ih fun earlier mem => readable earlier (List.mem_cons_of_mem first mem)]
    simp [Invocation.resolveFile, here, bind, Except.bind]

/-! ## What a request maps -/

/-- The configuration is in order, every listing has a text, and each text is resolved on
its own. The maps are merged in the order of the arguments. -/
inductive Invocation.Maps (i : Invocation) (host : Host) (files : Files) :
    Report.Settings → DiagnosticMap → Prop
  | merged {config : Config} {settings : Report.Settings} {texts : List String}
      {maps : List DiagnosticMap} (configured : i.Configured host files config)
      (shaped : i.Shapes config settings)
      (readable : i.inputs.map (fun name => (files name).text?) = texts.map some)
      (resolved : List.Forall₂ (i.Resolves config) texts maps) :
      Maps i host files settings (DiagnosticMap.mergeAll maps)

theorem Host.mapped_of_loadConfig_error {failure : Failure}
    (failed : host.loadConfig files i.config = .error failure) :
    host.mapped files i = .error failure := by
  simp [mapped, failed, bind, Except.bind]

theorem Host.mapped_of_configured (configured : i.Configured host files config) :
    host.mapped files i = (i.inputs.mapM (i.resolveFile config files)).map fun maps =>
      (i.reportSettings config, DiagnosticMap.mergeAll maps) := by
  simp only [mapped, configured.loadConfig_eq, bind, Except.bind, pure, Except.pure]
  cases i.inputs.mapM (i.resolveFile config files) <;> rfl

theorem Invocation.Maps.mapped_eq (maps : i.Maps host files settings m) :
    host.mapped files i = .ok (settings, m) := by
  obtain ⟨configured, shaped, readable, resolved⟩ := maps
  rw [Host.mapped_of_configured configured, mapM_resolveFile readable,
    Invocation.forall₂_resolves_iff.mp resolved, Invocation.shapes_iff.mp shaped]
  rfl

theorem Invocation.Configured.maps {texts : List String}
    (configured : i.Configured host files config)
    (readable : i.inputs.map (fun name => (files name).text?) = texts.map some) :
    i.Maps host files (i.reportSettings config)
      (DiagnosticMap.mergeAll (texts.map (i.resolve config))) :=
  .merged configured (Invocation.shapes_iff.mpr rfl) readable
    (Invocation.forall₂_resolves_iff.mpr rfl)

/-! ## How a run ends -/

/-- The ends of a request. A bad configuration ends it whatever the listings are, and an
unreadable listing whatever the readable ones hold. What the host does is left open where
the editor's count leaves 64 bits. -/
inductive Ends (host : Host) (files : Files) (i : Invocation) : Outcome → Prop
  | configUnreadable {name : String} (chosen : i.configFile? files = some name)
      (unreadable : (files name).text? = none) :
      Ends host files i ⟨1, "", some ("Error: Failed to read config file: " ++ name)⟩
  | configInvalid {name text : String} {cause : ConfigError}
      (chosen : i.configFile? files = some name) (readable : (files name).text? = some text)
      (invalid : Config.ofTextBy host.document? text = .error cause) :
      Ends host files i ⟨1, "", some ("Error: Invalid config file: " ++ name)⟩
  | listingUnreadable {config : Config} {before after : List String} {name : String}
      (configured : i.Configured host files config) (inputs : i.inputs = before ++ name :: after)
      (readable : ∀ earlier ∈ before, (files earlier).text?.isSome)
      (unreadable : (files name).text? = none) :
      Ends host files i ⟨1, "", some ("Error: Failed to read listing: " ++ name)⟩
  | printed {settings : Report.Settings} {m : DiagnosticMap} {out : String}
      (maps : i.Maps host files settings m) (fits : i.editor → Report.Fits settings m)
      (prints : i.Prints settings m out) :
      Ends host files i ⟨0, out, none⟩
  | overflowed {settings : Report.Settings} {m : DiagnosticMap}
      (maps : i.Maps host files settings m) (shaped : i.editor)
      (unfit : ¬ Report.Fits settings m) :
      Ends host files i (host.overflow i settings m)

/-- Some rule applies. A listing is to blame only once the configuration is
in order. -/
theorem exists_ends (host : Host) (files : Files) (i : Invocation) :
    ∃ o, Ends host files i o := by
  have mapped {settings : Report.Settings} {m : DiagnosticMap}
      (maps : i.Maps host files settings m) : ∃ o, Ends host files i o := by
    by_cases unfit : i.editor ∧ ¬ Report.Fits settings m
    · exact ⟨_, .overflowed maps unfit.1 unfit.2⟩
    · exact ⟨_, .printed maps (by simpa using unfit) (Invocation.prints_iff.mpr rfl)⟩
  have listings {config : Config} (configured : i.Configured host files config) :
      ∃ o, Ends host files i o := by
    obtain ⟨texts, readable⟩ | ⟨before, name, after, inputs, readable, unreadable⟩ :=
      texts_or_first_unreadable files i.inputs
    · exact mapped (configured.maps readable)
    · exact ⟨_, .listingUnreadable configured inputs readable unreadable⟩
  cases chosen : i.configFile? files with
  | none => exact listings (.byDefault chosen)
  | some name =>
    cases readable : (files name).text? with
    | none => exact ⟨_, .configUnreadable chosen readable⟩
    | some text =>
      cases valid : Config.ofTextBy host.document? text with
      | error cause => exact ⟨_, .configInvalid chosen readable valid⟩
      | ok config => exact listings (.byFile chosen readable valid)

/-! ## Every run has one end -/

section
variable {arguments : List String} (accepted : host.request arguments = .ok i)

include accepted in
theorem Host.run_of_failure {failure : Failure} (failed : host.mapped files i = .error failure) :
    host.run files arguments = ⟨1, "", some failure.headline⟩ := by
  simp [run, accepted, failed]

include accepted in
theorem Host.run_of_maps (maps : i.Maps host files settings m) :
    host.run files arguments = host.answer i settings m := by
  simp [run, accepted, maps.mapped_eq]

include accepted in
/-- The run does what a rule says. -/
theorem Ends.run_eq {o : Outcome} (ends : Ends host files i o) : host.run files arguments = o := by
  cases ends with
  | @configUnreadable name chosen unreadable =>
    have failed : host.loadConfig files i.config = .error (.configUnreadable name) := by
      rw [Host.loadConfig_of_some chosen]
      simp [Host.readConfig, unreadable]
    exact Host.run_of_failure accepted (Host.mapped_of_loadConfig_error failed)
  | @configInvalid name text cause chosen readable invalid =>
    have failed : host.loadConfig files i.config = .error (.configInvalid name cause) := by
      rw [Host.loadConfig_of_some chosen]
      simp [Host.readConfig, readable, invalid]
    exact Host.run_of_failure accepted (Host.mapped_of_loadConfig_error failed)
  | @listingUnreadable config before after name configured inputs readable unreadable =>
    have failed : host.mapped files i = .error (.listingUnreadable name) := by
      rw [Host.mapped_of_configured configured, inputs,
        mapM_resolveFile_unreadable readable unreadable]
      rfl
    exact Host.run_of_failure accepted failed
  | printed maps fits prints =>
    rw [Host.run_of_maps accepted maps, ← Invocation.prints_iff.mp prints]
    exact if_neg fun unfit => unfit.2 (fits unfit.1)
  | overflowed maps shaped unfit =>
    rw [Host.run_of_maps accepted maps]
    exact if_pos ⟨shaped, unfit⟩

include accepted in
theorem ends_run : Ends host files i (host.run files arguments) := by
  obtain ⟨o, ends⟩ := exists_ends host files i
  rwa [ends.run_eq accepted]

end

/-! ## The editor's count -/

/-- No listing that can be read has an error at a negative line. -/
def Invocation.NoNegativeInput (i : Invocation) (files : Files) : Prop :=
  ∀ name ∈ i.inputs, ∀ text, (files name).text? = some text →
    NoNegativeLine (Listing.ofText text).records

theorem Invocation.Maps.fits (maps : i.Maps host files settings m)
    (counts : i.NoNegativeInput files) : Report.Fits settings m := by
  obtain ⟨-, -, readable, resolved⟩ := maps
  refine Report.fits_of_forall_listed fun path d listed => ?_
  rw [← forall₂_resolves_iff.mp resolved, DiagnosticMap.listed_mergeAll] at listed
  obtain ⟨m, found, listed⟩ := List.mem_flatMap.mp listed
  obtain ⟨text, here, rfl⟩ := List.mem_map.mp found
  have among : some text ∈ i.inputs.map fun name => (files name).text? :=
    readable ▸ List.mem_map_of_mem here
  obtain ⟨name, input, read⟩ := List.mem_map.mp among
  obtain ⟨strategy, same⟩ := i.exists_strategy _ text
  rw [same] at listed
  exact strategy.fitsEditor_resolve (counts name input text read) listed

/-! ## The law -/

/-- An error at a negative line can lead to a line from which the editor cannot count. -/
example : ¬ Report.Fits {} (Strategy.range.resolve (widest "-00001")) := by
  decide +kernel

end EventListing.Command
