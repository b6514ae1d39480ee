-- What a request selects: the settings of the reports, the way in which a listing is
-- resolved, and the form in which the merged diagnostics are printed.
import EventListing.Command.Host
import EventListing.Proofs.Report.BothTexts

namespace EventListing.Command.Invocation

open Resolution (byRanges byTree)

variable {i : Invocation} {config : Config} {settings : Report.Settings} {m : DiagnosticMap}

/-! ## The settings of the reports -/

/-- The settings of the configuration with what the arguments add. Codes to hide come
behind those of the configuration, and a pool or an extension in place of its own. -/
structure Shapes (i : Invocation) (config : Config) (settings : Report.Settings) : Prop where
  hiddenCodes : settings.hiddenCodes = config.report.hiddenCodes ++ i.hide
  pool : settings.pool = i.pool.or config.report.pool
  extension : settings.extension = i.extension.or config.report.extension
  deployPath : settings.deployPath = config.report.deployPath

theorem shapes_iff : i.Shapes config settings ↔ i.reportSettings config = settings := by
  constructor
  · rintro ⟨hiddenCodes, pool, extension, deployPath⟩
    cases settings
    simp_all [reportSettings]
  · rintro rfl
    exact ⟨rfl, rfl, rfl, rfl⟩

/-! ## The way to resolve a listing -/

/-- Some line of the text speaks of an expansion, in whatever place. -/
def SpeaksOfExpansion (text : String) : Prop :=
  ∃ line ∈ Listing.ofText text, "EXPANSION".toList <:+: line.chars

/-- The diagnostics of a text in the way that was asked for. Without one it is the tree if the
configuration allows it and the text speaks of an expansion, and else the ranges. -/
inductive Resolves (i : Invocation) (config : Config) (text : String) : DiagnosticMap → Prop
  | range (asked : i.strategy = .fixed .range) :
      Resolves i config text (byRanges (Listing.ofText text).records)
  | tree (asked : i.strategy = .fixed .tree) :
      Resolves i config text (byTree (Listing.ofText text).records)
  | autoTree (auto : i.strategy = .auto) (allowed : config.resolver.useTree)
      (speaks : SpeaksOfExpansion text) :
      Resolves i config text (byTree (Listing.ofText text).records)
  | autoRange (auto : i.strategy = .auto)
      (refused : ¬ (config.resolver.useTree ∧ SpeaksOfExpansion text)) :
      Resolves i config text (byRanges (Listing.ofText text).records)

theorem select_eq_tree_iff {text : String} :
    config.resolver.select (Listing.ofText text) = .tree ↔
      config.resolver.useTree ∧ SpeaksOfExpansion text := by
  have spoken : (Listing.ofText text).any (·.contains "EXPANSION") ↔ SpeaksOfExpansion text := by
    simp only [List.any_eq_true, Line.contains, Text.occursIn_iff, SpeaksOfExpansion]
  rw [← spoken, ← Bool.and_eq_true]
  unfold Resolution.Settings.select
  split
  case isTrue both => exact iff_of_true rfl both
  case isFalse notBoth => exact iff_of_false nofun notBoth

theorem resolves_resolve (i : Invocation) (config : Config) (text : String) :
    i.Resolves config text (i.resolve config text) := by
  unfold resolve
  cases chosen : i.strategy with
  | fixed strategy =>
    cases strategy with
    | range => exact .range chosen
    | tree => exact .tree chosen
  | auto =>
    simp only [Resolution.Settings.resolve]
    cases selected : config.resolver.select (Listing.ofText text) with
    | tree =>
      obtain ⟨allowed, speaks⟩ := select_eq_tree_iff.mp selected
      exact .autoTree chosen allowed speaks
    | range =>
      refine .autoRange chosen fun both => ?_
      rw [select_eq_tree_iff.mpr both] at selected
      cases selected

/-- Only one of the rules applies to a request. -/
theorem Resolves.unique {text : String} {m₁ m₂ : DiagnosticMap} (h₁ : i.Resolves config text m₁)
    (h₂ : i.Resolves config text m₂) : m₁ = m₂ := by
  cases h₁ <;> cases h₂ <;> simp_all

theorem resolves_iff {text : String} :
    i.Resolves config text m ↔ i.resolve config text = m := by
  constructor
  · exact (i.resolves_resolve config text).unique
  · rintro rfl
    exact i.resolves_resolve config text

/-- Every choice of a strategy comes down to one of the strategies. -/
theorem exists_strategy (i : Invocation) (config : Config) (text : String) :
    ∃ strategy : Resolution.Strategy,
      i.resolve config text = strategy.resolve (Listing.ofText text) := by
  unfold resolve
  cases i.strategy with
  | auto => exact ⟨_, rfl⟩
  | fixed strategy => exact ⟨strategy, rfl⟩

/-- Each text is resolved without a look at the others. -/
theorem forall₂_resolves_iff {texts : List String} {maps : List DiagnosticMap} :
    List.Forall₂ (i.Resolves config) texts maps ↔ texts.map (i.resolve config) = maps := by
  have pointwise : i.Resolves config = fun text m => i.resolve config text = m := by
    funext text m
    exact propext resolves_iff
  rw [pointwise, ← List.forall₂_map_left_iff, List.forall₂_eq_eq_eq]

/-! ## The form of the output -/

/-- What is printed for the merged diagnostics: they themselves or the reports of the
editor, as one JSON document or as text with a line for each. -/
inductive Prints (i : Invocation) (settings : Report.Settings) (m : DiagnosticMap) :
    String → Prop
  | json (resolved : i.editor = false) (asJson : i.format = .json) :
      Prints i settings m (m.json.print ++ "\n")
  | text (resolved : i.editor = false) (asText : i.format = .text) :
      Prints i settings m (String.join (m.toList.map fun (path, d) => d.textLine path))
  | reportJson (shaped : i.editor = true) (asJson : i.format = .json) :
      Prints i settings m ((Report.json (Report.ofMap settings m)).print ++ "\n")
  | reportText (shaped : i.editor = true) (asText : i.format = .text) :
      Prints i settings m (Report.text (Report.ofMap settings m))

theorem prints_iff {out : String} : i.Prints settings m out ↔ i.render settings m = out := by
  constructor
  · rintro (⟨hform, hformat⟩ | ⟨hform, hformat⟩ | ⟨hform, hformat⟩ | ⟨hform, hformat⟩) <;>
      simp only [render, hform, hformat, DiagnosticMap.text_eq_join]
  · rintro rfl
    unfold render
    split
    case _ resolved asJson => exact .json resolved asJson
    case _ resolved asText =>
      rw [DiagnosticMap.text_eq_join]
      exact .text resolved asText
    case _ shaped asJson => exact .reportJson shaped asJson
    case _ shaped asText => exact .reportText shaped asText

end EventListing.Command.Invocation
