import Wiring.Proofs.Config.Loading
import Wiring.Proofs.Config.Written
import Wiring.Proofs.Toml.Sections

/-! A configuration that is saved is loaded as it was. The file is read back section by section, all
its values over defaults that they cover, and what the configuration leaves out is nothing by
default. -/
namespace Wiring
open Toml

/-! The tables that the sections of the file are read as -/

def LoggingConfig.entries (c : LoggingConfig) : Entries :=
  [("level", .text c.level), ("json_format", .flag c.jsonFormat)]
    ++ (c.fileOutput.map fun path => ("file_output", .text path)).toList

def WellKnownNames.entries (w : WellKnownNames) : Entries :=
  [("lazy", .text w.lazy), ("enumerable", .text w.enumerable),
   ("constructor_marker", .text w.constructorMarker), ("property_marker", .text w.propertyMarker)]

def AnalysisOptions.entries (o : AnalysisOptions) : Entries :=
  [("cycle_detection", .text o.cycleDetection.text), ("parallel", .flag o.parallel),
   ("registrations_type", .text o.registrationsType)]

def EmitOptions.entries (o : EmitOptions) : Entries :=
  [("namespace", .text o.enclosing), ("class_name", .text o.className),
   ("resolver", .text o.resolver)]

def ReportConfig.entries (c : ReportConfig) : Entries :=
  [("format", .text c.format.text), ("deny_warnings", .flag c.denyWarnings)]

namespace Config

def entries (c : Config) : Entries :=
  [("logging", .table .header c.logging.entries),
   ("analysis", .table .header (c.analysis.entries
     ++ [("well_known", .table .header c.analysis.wellKnown.entries)])),
   ("emit", .table .header c.emit.entries), ("report", .table .header c.report.entries)]

theorem ofEntries_entries (c : Config) : .table (Setting.ofEntries c.entries) = c.toSetting := by
  obtain ⟨⟨level, jsonFormat, fileOutput⟩, analysis, emit, report⟩ := c
  cases fileOutput <;> rfl

theorem spells_flagText (b : Bool) : Spells (flagText b) (.flag b) := by
  cases b
  · exact spells_false
  · exact spells_true

theorem fieldsSpell_logging (c : LoggingConfig) : FieldsSpell (loggingFields c) c.entries := by
  obtain ⟨level, jsonFormat, fileOutput⟩ := c
  cases fileOutput with
  | none =>
    exact .cons (by decide) (spells_quote _) (.cons (by decide) (spells_flagText _) .nil)
  | some path =>
    exact .cons (by decide) (spells_quote _) (.cons (by decide) (spells_flagText _)
      (.cons (by decide) (spells_quote _) .nil))

theorem fieldsSpell_analysis (o : AnalysisOptions) : FieldsSpell (analysisFields o) o.entries :=
  .cons (by decide) (spells_quote _) (.cons (by decide) (spells_flagText _)
    (.cons (by decide) (spells_quote _) .nil))

theorem fieldsSpell_wellKnown (w : WellKnownNames) : FieldsSpell (wellKnownFields w) w.entries :=
  .cons (by decide) (spells_quote _) (.cons (by decide) (spells_quote _)
    (.cons (by decide) (spells_quote _) (.cons (by decide) (spells_quote _) .nil)))

theorem fieldsSpell_emit (o : EmitOptions) : FieldsSpell (emitFields o) o.entries :=
  .cons (by decide) (spells_quote _) (.cons (by decide) (spells_quote _)
    (.cons (by decide) (spells_quote _) .nil))

theorem fieldsSpell_report (c : ReportConfig) : FieldsSpell (reportFields c) c.entries :=
  .cons (by decide) (spells_quote _) (.cons (by decide) (spells_flagText _) .nil)

theorem nodup_logging (c : LoggingConfig) : (c.entries.map Prod.fst).Nodup := by
  obtain ⟨level, jsonFormat, fileOutput⟩ := c
  cases fileOutput <;> simp [LoggingConfig.entries]

theorem fileText_eq (c : Config) :
    c.fileText.toList = (sectionText "logging" (loggingFields c.logging)).toList ++ ['\n'] ++
      (sectionText "analysis" (analysisFields c.analysis)).toList ++ ['\n'] ++
      (sectionText "analysis.well_known" (wellKnownFields c.analysis.wellKnown)).toList ++ ['\n'] ++
      (sectionText "emit" (emitFields c.emit)).toList ++ ['\n'] ++
      (sectionText "report" (reportFields c.report)).toList := by
  simp [fileText, sections, String.intercalate_cons_cons, String.toList_append]

/-- The file is read as one table for each section. -/
theorem reads_fileText (c : Config) :
    Draft.Reads {} c.fileText.toList ⟨c.entries, ["report"]⟩ := by
  let logging : String × Toml := ("logging", .table .header c.logging.entries)
  let analysis : String × Toml := ("analysis", .table .header (c.analysis.entries
    ++ [("well_known", .table .header c.analysis.wellKnown.entries)]))
  let emit : String × Toml := ("emit", .table .header c.emit.entries)
  have hlogging := reads_section [] opens_nil rfl (heads_bare "logging" (by decide))
    (fieldsSpell_logging c.logging) (nodup_logging c.logging) []
  have hanalysis := reads_section [logging] opens_nil rfl (heads_bare "analysis" (by decide))
    (fieldsSpell_analysis c.analysis) (by simp [AnalysisOptions.entries]) ["logging"]
  have hwellKnown := reads_section c.analysis.entries (opens_nil.inside [logging] "analysis" rfl)
    rfl (heads_dotted "analysis" "well_known" (by decide) (by decide))
    (fieldsSpell_wellKnown c.analysis.wellKnown) (by simp [WellKnownNames.entries]) ["analysis"]
  have hemit := reads_section [logging, analysis] opens_nil rfl (heads_bare "emit" (by decide))
    (fieldsSpell_emit c.emit) (by simp [EmitOptions.entries]) ["analysis", "well_known"]
  have hreport := reads_section [logging, analysis, emit] opens_nil rfl
    (heads_bare "report" (by decide)) (fieldsSpell_report c.report)
    (by simp [ReportConfig.entries]) ["emit"]
  rw [fileText_eq]
  exact ((((((((hlogging.append (reads_blank _)).append hanalysis).append (reads_blank _)).append
    hwellKnown).append (reads_blank _)).append hemit).append (reads_blank _)).append hreport)

theorem parse?_fileText (c : Config) : Toml.parse? c.fileText = some c.entries := by
  have hmark : withoutMark c.fileText.toList = c.fileText.toList := by
    rw [fileText_eq]
    simp only [List.append_assoc, withoutMark_sectionText]
  unfold Toml.parse?
  dsimp only
  rw [hmark, (reads_fileText c).addLines?_eq]
  rfl

theorem settingsOfText?_fileText (c : Config) : settingsOfText? c.fileText = some c.toSetting := by
  rw [settingsOfText?, parse?_fileText, Option.map_some, ofEntries_entries]

/-- Saving succeeds where the text of the file can be written, and then has written it. -/
theorem write_of_run_save {c : Config} {path : String} {tree saved : FileTree}
    (h : (c.save path : StateM FileTree _).run tree = (.ok (), saved)) :
    tree.write path c.fileText = .ok saved := by
  unfold save at h
  rw [StateT.run_bind] at h
  cases hwrite : tree.write path c.fileText with
  | ok after =>
    rw [FileSystem.run_write_of_ok hwrite] at h
    exact congrArg Except.ok (Prod.mk.inj h).2
  | error e =>
    rw [FileSystem.run_write_of_error hwrite] at h
    exact nomatch (Prod.mk.inj h).1

/-- All settings of a configuration cover the defaults, or are as absent as there. -/
theorem overlay_default (c : Config) :
    Setting.overlay c.toSetting ({} : Config).toSetting = c.toSetting := by
  obtain ⟨⟨level, jsonFormat, fileOutput⟩, analysis, emit, report⟩ := c
  cases fileOutput <;> rfl

theorem ofVariables_of_no_name {start : String} {named : List (String × String)}
    (h : ∀ variable_ ∈ named, Setting.nameAfter? start (Text.trim variable_.1) = none) :
    Setting.ofVariables start named = .table [] := by
  have hnone : named.filterMap (Setting.ofVariable? start) = [] := by
    rw [List.filterMap_eq_nil_iff]
    intro variable_ hvariable
    rw [Setting.ofVariable?, h variable_ hvariable, Option.bind_none]
  rw [Setting.ofVariables, hnone]
  rfl

/-- A configuration that has been saved is loaded from there as it was if it is valid, and else
refused for its own fault, as long as no variable has a name for a setting. -/
theorem load_saved {c : Config} {path start : String} {environment : Environment}
    {tree saved : FileTree} (hsave : (c.save path : StateM FileTree _).run tree = (.ok (), saved))
    (hvariables : ∀ variable_ ∈ environment.named,
      Setting.nameAfter? (start ++ "_") (Text.trim variable_.1) = none) :
    (c.fault? = none →
      (load (some path) start environment : StateM FileTree _).run saved = (.ok c, saved)) ∧
    ∀ failure, c.fault? = some failure →
      (load (some path) start environment : StateM FileTree _).run saved =
        (.error failure, saved) := by
  have hread := FileTree.read_of_write (write_of_run_save hsave)
  have hlayers : ofLayers c.toSetting (.table []) = c.validate := by
    have hlower :
        Setting.overlay (.table []) (Setting.overlay c.toSetting ({} : Config).toSetting) =
          c.toSetting := by
      rw [overlay_default]
      rfl
    rw [ofLayers, hlower, toSetting, decode?_written]
  have hload : (load (some path) start environment : StateM FileTree _).run saved =
      (c.validate, saved) := by
    rw [run_load, run_readLayer_of_text _ hread, fileLayer, settingsOfText?_fileText,
      ofVariables_of_no_name hvariables]
    exact Prod.ext hlayers rfl
  constructor
  · intro hvalid
    rw [hload, validate, hvalid]
  · intro failure hfault
    rw [hload, validate, hfault]

/-- Texts that take each of the four styles, some with quotes and characters to escape. -/
def quotedConfig : Config where
  logging := { level := "Warning", jsonFormat := true, fileOutput := some "C:\\logs" }
  analysis := { cycleDetection := .pairwise, registrationsType := "Two\n\"lines\"" }
  emit := { enclosing := "\x07\"'''\\", className := "''\n\\", resolver := "\"\"\"\r\n" }
  report := { format := .json, denyWarnings := true }

/-- It is loaded as it was, beside a variable that is no setting. -/
theorem load_saved_quotedConfig :
    let environment : Environment := { named := [("WIREBINDING_EMIT__RESOLVER", "Services")] }
    let saved := ({} : FileTree).put ["wirebind.toml"] (.file quotedConfig.fileText.toUTF8)
    (quotedConfig.save "wirebind.toml" : StateM FileTree _).run {} = (.ok (), saved) ∧
    (∀ variable_ ∈ environment.named,
      Setting.nameAfter? ("WIREBIND" ++ "_") (Text.trim variable_.1) = none) ∧
    quotedConfig.fault? = none ∧
    (load (some "wirebind.toml") "WIREBIND" environment : StateM FileTree _).run saved =
      (.ok quotedConfig, saved) := by
  intro environment saved
  have hwrite : ({} : FileTree).write "wirebind.toml" quotedConfig.fileText = .ok saved := by
    have htarget : ({} : FileTree).target "wirebind.toml" = .ok ["wirebind.toml"] := by rfl
    rw [FileTree.write, htarget]
    rfl
  have hsave : (quotedConfig.save "wirebind.toml" : StateM FileTree _).run {} =
      (.ok (), saved) := by
    unfold save
    rw [StateT.run_bind, FileSystem.run_write_of_ok hwrite]
    rfl
  have hvariables : ∀ variable_ ∈ environment.named,
      Setting.nameAfter? ("WIREBIND" ++ "_") (Text.trim variable_.1) = none := by
    decide +kernel
  have hvalid : quotedConfig.fault? = none := by decide +kernel
  exact ⟨hsave, hvariables, hvalid, (load_saved hsave hvariables).1 hvalid⟩

end Config
end Wiring
