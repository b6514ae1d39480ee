-- The text that a run prints. Each diagnostic is one line of it, whatever the
-- listings hold: nothing that is taken from a listing begins or ends a line.
import EventListing.Proofs.Command.Outcome
import EventListing.Proofs.Resolution.OneLine

namespace EventListing.Command

variable {host : Host} {files : Files} {i : Invocation}

theorem Invocation.oneLines_resolve (i : Invocation) (config : Config) (text : String) :
    (i.resolve config text).OneLines := by
  obtain ⟨strategy, same⟩ := i.exists_strategy config text
  rw [same]
  exact strategy.oneLines_resolve text

/-- A run that succeeds without an editor has a configuration, and a text for each of its
listings. -/
theorem Ends.of_status_zero {o : Outcome} (ends : Ends host files i o) (resolved : i.editor = false)
    (succeeds : o.status = 0) :
    ∃ (config : Config) (texts : List String), i.Configured host files config ∧
      i.inputs.map (fun name => (files name).text?) = texts.map some ∧
      o.stdout = i.render (i.reportSettings config)
        (DiagnosticMap.mergeAll (texts.map (i.resolve config))) := by
  cases ends with
  | printed maps fits prints =>
    obtain ⟨configured, shaped, readable, each⟩ := maps
    refine ⟨_, _, configured, readable, ?_⟩
    rw [Invocation.shapes_iff.mp shaped, Invocation.forall₂_resolves_iff.mp each]
    exact (Invocation.prints_iff.mp prints).symm
  | configUnreadable | configInvalid | listingUnreadable => cases succeeds
  | overflowed maps shaped =>
    rw [resolved] at shaped
    cases shaped

/-- The lines of the text output are what is shown of the merged diagnostics,
one line for each of them in the order of the map, and each line ends with a
line end. -/
theorem text_output_is_line_faithful (host : Host) (files : Files) (arguments : List String)
    (i : Invocation) (accepted : host.request arguments = .ok i) (asText : i.format = .text)
    (resolved : i.editor = false) (succeeds : (host.run files arguments).status = 0) :
    ∃ (config : Config) (texts : List String), i.Configured host files config ∧
      i.inputs.map (fun name => (files name).text?) = texts.map some ∧
      Listing.rawLines (host.run files arguments).stdout =
        (DiagnosticMap.mergeAll (texts.map (i.resolve config))).shown ++ [""] := by
  obtain ⟨config, texts, configured, readable, printed⟩ :=
    (ends_run accepted).of_status_zero resolved succeeds
  refine ⟨config, texts, configured, readable, ?_⟩
  have oneLines : (DiagnosticMap.mergeAll (texts.map (i.resolve config))).OneLines := by
    refine DiagnosticMap.oneLines_mergeAll ?_
    intro m mem
    obtain ⟨text, -, rfl⟩ := List.mem_map.mp mem
    exact i.oneLines_resolve config text
  rw [printed, Invocation.render, asText, resolved]
  exact oneLines.rawLines_text

/-- A listing whose lines end with carriage returns. The path of its file has
segments to leave out. -/
def withReturns : Files := (Directory.ofFiles [("a.evt",
  ("FILEID     0 001 000000 013 ./src/./a.rpg 20230101120000 0\r\n" ++
    "ERROR      0 001 1 000002 000002 001 000002 010 RNF7030 S 30 004 name\r\n").toUTF8)]).find

def rangesAsText : Invocation :=
  ⟨["a.evt"], none, .fixed .range, .text, false, [], none, none⟩

def rangesAsTextArguments : List String := ["--format", "text", "--strategy=range", "a.evt"]

theorem returns_end_no_line : (checkedHost.run withReturns rangesAsTextArguments).status = 0 ∧
    ∃ (config : Config) (texts : List String),
      rangesAsText.Configured checkedHost withReturns config ∧
      [(withReturns "a.evt").text?] = texts.map some ∧
      Listing.rawLines (checkedHost.run withReturns rangesAsTextArguments).stdout =
        (DiagnosticMap.mergeAll (texts.map (rangesAsText.resolve config))).shown ++ [""] := by
  have succeeds : (checkedHost.run withReturns rangesAsTextArguments).status = 0 := by
    decide +kernel
  exact ⟨succeeds, text_output_is_line_faithful checkedHost withReturns rangesAsTextArguments
    rangesAsText rfl rfl rfl succeeds⟩

end EventListing.Command
