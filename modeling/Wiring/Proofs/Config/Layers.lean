import Mathlib
import Wiring.Proofs.Config.Distinct
import Wiring.Proofs.Config.Loading
import Wiring.Proofs.Config.Written

/-! The layers of the configuration: each single value is the one of the environment variables if
they give it, else the one of the file, else the default, whatever else the layers hold. Decoding
takes the values from where they stand (`Keeps`), and the layers are laid over each other place by
place. -/
namespace Wiring
open Decode

namespace Setting

variable {α : Type} {decode : Setting → Option α} {write? : α → Option Setting} {absent : α}

/-- What is decoded of a setting has the setting's values under the paths, and those of `absent`
where there are none. -/
def Keeps (paths : List (List String)) (decode : Setting → Option α)
    (write? : α → Option Setting) (absent : α) : Prop :=
  ∀ s a, (∀ path ∈ paths, s.IsOpenTo path) → decode s = some a → ∀ path ∈ paths,
    (write? a).bind (at? path) = (s.at? path).or ((write? absent).bind (at? path))

section Field

variable {names : List String} {entries : List (String × Setting)} {r : Record Setting}
  {name : String} {a : α}

/-- A field of a record is kept, under its name, with all that is kept in it. -/
theorem Keeps.field {paths : List (List String)} (hkeeps : Keeps paths decode write? absent)
    (hrecord : record? names (.table entries) = some r) (hname : name ∈ names)
    (hopen : ∀ path ∈ paths, IsOpenTo (name :: path) (.table entries))
    (hread : r.withDefault name absent decode = some a) :
    ∀ path ∈ paths, (write? a).bind (at? path) =
      (at? (name :: path) (.table entries)).or ((write? absent).bind (at? path)) := by
  intro path hpath
  have hfound : r.find? name = entries.lookup name := Record.find?_of_ofEntries? hrecord hname
  rw [Record.withDefault, hfound] at hread
  rw [at?]
  cases hinner : entries.lookup name with
  | none =>
    rw [hinner] at hread
    obtain rfl := Option.some.inj hread
    rfl
  | some inner =>
    rw [hinner] at hread
    refine hkeeps inner a (fun path hpath => ?_) hread path hpath
    obtain ⟨_, heq, hway⟩ := hopen path hpath
    cases heq
    exact hway inner hinner

theorem Keeps.leaf (hkeeps : Keeps [[]] decode write? absent)
    (hrecord : record? names (.table entries) = some r) (hname : name ∈ names)
    (hopen : IsOpenTo [name] (.table entries))
    (hread : r.withDefault name absent decode = some a) :
    (write? a).bind (at? []) =
      (at? [name] (.table entries)).or ((write? absent).bind (at? [])) :=
  hkeeps.field hrecord hname (by simpa using hopen) hread [] (by simp)

end Field

theorem keeps_of_eq (h : ∀ s a, decode s = some a → write? a = some s) :
    Keeps [[]] decode write? absent := by
  intro s a _ hdecode path hpath
  obtain rfl := List.mem_singleton.mp hpath
  rw [h s a hdecode]
  rfl

theorem eq_text_of_text? {s : Setting} {t : String} (h : text? s = some t) : s = .text t := by
  cases s with
  | text s => exact congrArg Setting.text (Option.some.inj h)
  | _ => exact nomatch h

theorem keeps_text {absent : String} :
    Keeps [[]] Decode.text? (fun s => some (.text s)) absent :=
  keeps_of_eq fun _ _ h => congrArg some (eq_text_of_text? h).symm

theorem keeps_flag {absent : Bool} : Keeps [[]] Decode.flag? (fun b => some (.flag b)) absent := by
  refine keeps_of_eq fun s b h => ?_
  cases s with
  | flag b' => exact congrArg (fun b => some (Setting.flag b)) (Option.some.inj h).symm
  | _ => exact nomatch h

theorem keeps_optional {absent : Option String} :
    Keeps [[]] (nullable Decode.text?) (Option.map .text) absent := by
  refine keeps_of_eq fun s o h => ?_
  have habsent : Decode.absent? s = some false := rfl
  rw [nullable_of_absent?_eq habsent] at h
  obtain ⟨t, ht, rfl⟩ := Option.map_eq_some_iff.mp h
  rw [eq_text_of_text? ht]
  rfl

/-- Alternatives are kept when each is listed under the text in which it is written. -/
theorem keeps_oneOf {alternatives : List (String × α)} {text : α → String}
    (h : ∀ alternative ∈ alternatives, text alternative.2 = alternative.1) :
    Keeps [[]] (oneOf alternatives) (fun a => some (.text (text a))) absent := by
  refine keeps_of_eq fun s a hread => ?_
  obtain ⟨name, hname, hlookup⟩ := Option.bind_eq_some_iff.mp hread
  obtain ⟨before, after, halternatives, _⟩ := List.lookup_eq_some_iff.mp hlookup
  have htext : text a = name := h (name, a) (by simp [halternatives])
  rw [eq_text_of_text? hname, htext]

end Setting

open Setting

/-! The single values of the configuration, by the paths that lead to them -/

def WellKnownNames.leaves : List (List String) :=
  [["lazy"], ["enumerable"], ["constructor_marker"], ["property_marker"]]

theorem WellKnownNames.keeps :
    Keeps leaves decode? (fun w => some (w.written writer)) {} := by
  intro s w hopen h
  obtain ⟨entries, rfl, _⟩ := hopen ["lazy"] (by simp [leaves])
  obtain ⟨r, hr, h⟩ := Option.bind_eq_some_iff.mp h
  obtain ⟨lazy, hlazy, h⟩ := Option.bind_eq_some_iff.mp h
  obtain ⟨enumerable, henumerable, h⟩ := Option.bind_eq_some_iff.mp h
  obtain ⟨constructorMarker, hconstructor, h⟩ := Option.bind_eq_some_iff.mp h
  obtain ⟨propertyMarker, hproperty, h⟩ := Option.bind_eq_some_iff.mp h
  obtain rfl := Option.some.inj h
  simp only [leaves, List.forall_mem_cons] at hopen ⊢
  obtain ⟨hopen₁, hopen₂, hopen₃, hopen₄, -⟩ := hopen
  exact ⟨keeps_text.leaf hr (by simp) hopen₁ hlazy,
    keeps_text.leaf hr (by simp) hopen₂ henumerable,
    keeps_text.leaf hr (by simp) hopen₃ hconstructor,
    keeps_text.leaf hr (by simp) hopen₄ hproperty, by simp⟩

def AnalysisOptions.leaves : List (List String) :=
  [["cycle_detection"], ["parallel"], ["registrations_type"]]
    ++ WellKnownNames.leaves.map ("well_known" :: ·)

theorem AnalysisOptions.keeps :
    Keeps leaves decode? (fun o => some (o.written writer)) {} := by
  intro s o hopen h
  obtain ⟨entries, rfl, _⟩ := hopen ["parallel"] (by simp [leaves])
  obtain ⟨r, hr, h⟩ := Option.bind_eq_some_iff.mp h
  obtain ⟨cycleDetection, hcycle, h⟩ := Option.bind_eq_some_iff.mp h
  obtain ⟨parallel, hparallel, h⟩ := Option.bind_eq_some_iff.mp h
  obtain ⟨registrationsType, htype, h⟩ := Option.bind_eq_some_iff.mp h
  obtain ⟨wellKnown, hwellKnown, h⟩ := Option.bind_eq_some_iff.mp h
  obtain rfl := Option.some.inj h
  have hcycles : Keeps [[]] CycleDetection.decode?
      (fun d => some (.text d.text)) ({} : AnalysisOptions).cycleDetection :=
    keeps_oneOf (by decide)
  simp only [leaves, List.forall_mem_append, List.forall_mem_cons, List.forall_mem_map]
    at hopen ⊢
  obtain ⟨⟨hopen₁, hopen₂, hopen₃, -⟩, hopen₄⟩ := hopen
  exact ⟨⟨hcycles.leaf hr (by simp) hopen₁ hcycle,
    keeps_flag.leaf hr (by simp) hopen₂ hparallel,
    keeps_text.leaf hr (by simp) hopen₃ htype, by simp⟩,
    WellKnownNames.keeps.field hr (by simp) hopen₄ hwellKnown⟩

def EmitOptions.leaves : List (List String) := [["namespace"], ["class_name"], ["resolver"]]

theorem EmitOptions.keeps : Keeps leaves decode? (fun o => some (o.written writer)) {} := by
  intro s o hopen h
  obtain ⟨entries, rfl, _⟩ := hopen ["namespace"] (by simp [leaves])
  obtain ⟨r, hr, h⟩ := Option.bind_eq_some_iff.mp h
  obtain ⟨enclosing, henclosing, h⟩ := Option.bind_eq_some_iff.mp h
  obtain ⟨className, hclassName, h⟩ := Option.bind_eq_some_iff.mp h
  obtain ⟨resolver, hresolver, h⟩ := Option.bind_eq_some_iff.mp h
  obtain rfl := Option.some.inj h
  simp only [leaves, List.forall_mem_cons] at hopen ⊢
  obtain ⟨hopen₁, hopen₂, hopen₃, -⟩ := hopen
  exact ⟨keeps_text.leaf hr (by simp) hopen₁ henclosing,
    keeps_text.leaf hr (by simp) hopen₂ hclassName,
    keeps_text.leaf hr (by simp) hopen₃ hresolver, by simp⟩

def LoggingConfig.leaves : List (List String) := [["level"], ["json_format"], ["file_output"]]

theorem LoggingConfig.keeps : Keeps leaves decode? (fun c => some (c.written writer)) {} := by
  intro s c hopen h
  obtain ⟨entries, rfl, _⟩ := hopen ["level"] (by simp [leaves])
  obtain ⟨r, hr, h⟩ := Option.bind_eq_some_iff.mp h
  obtain ⟨level, hlevel, h⟩ := Option.bind_eq_some_iff.mp h
  obtain ⟨jsonFormat, hformat, h⟩ := Option.bind_eq_some_iff.mp h
  obtain ⟨fileOutput, houtput, h⟩ := Option.bind_eq_some_iff.mp h
  obtain rfl := Option.some.inj h
  simp only [leaves, List.forall_mem_cons] at hopen ⊢
  obtain ⟨hopen₁, hopen₂, hopen₃, -⟩ := hopen
  refine ⟨keeps_text.leaf hr (by simp) hopen₁ hlevel,
    keeps_flag.leaf hr (by simp) hopen₂ hformat, ?_, by simp⟩
  have houtput := keeps_optional.leaf hr (by simp) hopen₃ houtput
  cases fileOutput <;> exact houtput

def ReportConfig.leaves : List (List String) := [["format"], ["deny_warnings"]]

theorem ReportConfig.keeps : Keeps leaves decode? (fun c => some (c.written writer)) {} := by
  intro s c hopen h
  obtain ⟨entries, rfl, _⟩ := hopen ["format"] (by simp [leaves])
  obtain ⟨r, hr, h⟩ := Option.bind_eq_some_iff.mp h
  obtain ⟨format, hformat, h⟩ := Option.bind_eq_some_iff.mp h
  obtain ⟨denyWarnings, hdeny, h⟩ := Option.bind_eq_some_iff.mp h
  obtain rfl := Option.some.inj h
  have hformats : Keeps [[]] ReportFormat.decode?
      (fun f => some (.text f.text)) ({} : ReportConfig).format :=
    keeps_oneOf (by decide)
  simp only [leaves, List.forall_mem_cons] at hopen ⊢
  obtain ⟨hopen₁, hopen₂, -⟩ := hopen
  exact ⟨hformats.leaf hr (by simp) hopen₁ hformat,
    keeps_flag.leaf hr (by simp) hopen₂ hdeny, by simp⟩

namespace Config

def leaves : List (List String) :=
  LoggingConfig.leaves.map ("logging" :: ·) ++ AnalysisOptions.leaves.map ("analysis" :: ·)
    ++ EmitOptions.leaves.map ("emit" :: ·) ++ ReportConfig.leaves.map ("report" :: ·)

example : leaves =
    [["logging", "level"], ["logging", "json_format"], ["logging", "file_output"],
     ["analysis", "cycle_detection"], ["analysis", "parallel"], ["analysis", "registrations_type"],
     ["analysis", "well_known", "lazy"], ["analysis", "well_known", "enumerable"],
     ["analysis", "well_known", "constructor_marker"],
     ["analysis", "well_known", "property_marker"],
     ["emit", "namespace"], ["emit", "class_name"], ["emit", "resolver"],
     ["report", "format"], ["report", "deny_warnings"]] := rfl

theorem keeps : Keeps leaves decode? (fun c => some c.toSetting) {} := by
  intro s c hopen h
  obtain ⟨entries, rfl, _⟩ := hopen ["logging", "level"] (by decide)
  obtain ⟨r, hr, h⟩ := Option.bind_eq_some_iff.mp h
  obtain ⟨logging, hlogging, h⟩ := Option.bind_eq_some_iff.mp h
  obtain ⟨analysis, hanalysis, h⟩ := Option.bind_eq_some_iff.mp h
  obtain ⟨emit, hemit, h⟩ := Option.bind_eq_some_iff.mp h
  obtain ⟨report, hreport, h⟩ := Option.bind_eq_some_iff.mp h
  obtain rfl := Option.some.inj h
  simp only [leaves, List.forall_mem_append, List.forall_mem_map] at hopen ⊢
  obtain ⟨⟨⟨hopen₁, hopen₂⟩, hopen₃⟩, hopen₄⟩ := hopen
  exact ⟨⟨⟨LoggingConfig.keeps.field hr (by simp) hopen₁ hlogging,
    AnalysisOptions.keeps.field hr (by simp) hopen₂ hanalysis⟩,
    EmitOptions.keeps.field hr (by simp) hopen₃ hemit⟩,
    ReportConfig.keeps.field hr (by simp) hopen₄ hreport⟩

/-- The sections of the configuration, by the paths that lead to them. -/
def sectionPaths : List (List String) :=
  [["logging"], ["analysis"], ["analysis", "well_known"], ["emit"], ["report"]]

/-- Whatever a layer has in the place of a section is a table. -/
def SectionsAreTables (s : Setting) : Prop :=
  ∀ path ∈ sectionPaths, ∀ inner, s.at? path = some inner → ∃ entries, inner = .table entries

variable {s : Setting} {leaf : List String}

theorem isOpenTo_of_sections (htable : ∃ entries, s = .table entries) (h : SectionsAreTables s)
    (hleaf : leaf ∈ leaves) : s.IsOpenTo leaf := by
  have habove : ∀ leaf ∈ leaves, ∀ place ∈ leaf.inits, place ≠ leaf →
      place = [] ∨ place ∈ sectionPaths := by decide
  refine isOpenTo_of_prefix fun place hplace hne inner hinner => ?_
  rcases habove leaf hleaf place ((List.mem_inits place leaf).mpr hplace) hne with rfl | hsection
  · rwa [← Option.some.inj hinner]
  · exact h place hsection inner hinner

theorem sectionsAreTables_toSetting (c : Config) : SectionsAreTables c.toSetting := by
  simp [SectionsAreTables, sectionPaths, toSetting, written, writer,
    LoggingConfig.written, AnalysisOptions.written, WellKnownNames.written, EmitOptions.written,
    ReportConfig.written]

theorem isOpenTo_toSetting (c : Config) (hleaf : leaf ∈ leaves) : c.toSetting.IsOpenTo leaf :=
  isOpenTo_of_sections ⟨_, rfl⟩ (sectionsAreTables_toSetting c) hleaf

/-- A single value is no table. -/
theorem at?_toSetting_ne_table (c : Config) (hleaf : leaf ∈ leaves)
    (entries : List (String × Setting)) : c.toSetting.at? leaf ≠ some (.table entries) := by
  revert leaf
  obtain ⟨⟨level, jsonFormat, fileOutput⟩, analysis, emit, report⟩ := c
  cases fileOutput <;>
    simp [leaves, LoggingConfig.leaves, AnalysisOptions.leaves, WellKnownNames.leaves,
      EmitOptions.leaves, ReportConfig.leaves, toSetting, written, writer,
      LoggingConfig.written, AnalysisOptions.written, CycleDetection.written,
      WellKnownNames.written, EmitOptions.written, ReportConfig.written, ReportFormat.written]

theorem ofLayers_eq_ok {file upper : Setting} {c : Config} (h : ofLayers file upper = .ok c) :
    decode? (overlay upper (overlay file ({} : Config).toSetting)) = some c ∧ c.fault? = none := by
  unfold ofLayers at h
  split at h
  · rename_i decoded hdecode
    unfold validate at h
    split at h
    · exact nomatch h
    · rename_i hfault
      obtain rfl := Except.ok.inj h
      exact ⟨hdecode, hfault⟩
  · exact nomatch h

/-- Of three layers that are open to a place, the uppermost with anything there wins, as long as
what comes of them is no table. -/
theorem at?_layers {upper middle lower : Setting} (hupper : upper.Distinct)
    (hmiddle : middle.Distinct) (hopenUpper : upper.IsOpenTo leaf)
    (hopenMiddle : middle.IsOpenTo leaf) (hopenLower : lower.IsOpenTo leaf)
    (htable : ∀ entries, (overlay upper (overlay middle lower)).at? leaf ≠ some (.table entries)) :
    (overlay upper (overlay middle lower)).at? leaf =
      (upper.at? leaf).or ((middle.at? leaf).or (lower.at? leaf)) := by
  have hbelow := hopenMiddle.overlay hmiddle hopenLower
  rw [at?_overlay hupper hopenUpper hbelow, at?_overlay hmiddle hopenMiddle hopenLower] at htable ⊢
  rw [over?_eq_or htable]
  cases hup : upper.at? leaf with
  | some value => rfl
  | none =>
    rw [hup] at htable
    exact over?_eq_or htable

/-- Each single value of a loaded configuration is what the variables give for it, else what the
file gives, else the default, and the configuration is valid. -/
theorem uppermost_layer_wins {explicit : Option String} {start : String}
    {environment : Environment} {tree : FileTree} {file : Setting} {c : Config}
    (hfile : ((readLayer explicit environment : StateM FileTree _).run tree).1 = .ok file)
    (hfileSections : SectionsAreTables file)
    (hvariables : SectionsAreTables (Setting.ofVariables (start ++ "_") environment.named))
    (hload : ((load explicit start environment : StateM FileTree _).run tree).1 = .ok c) :
    (∀ leaf ∈ leaves, c.toSetting.at? leaf =
      ((Setting.ofVariables (start ++ "_") environment.named).at? leaf).or
        ((file.at? leaf).or (({} : Config).toSetting.at? leaf))) ∧
    c.fault? = none := by
  rw [run_load, hfile] at hload
  obtain ⟨hdecode, hfault⟩ := ofLayers_eq_ok hload
  refine ⟨fun leaf hleaf => ?_, hfault⟩
  obtain ⟨hfileDistinct, hfileTable⟩ := distinct_of_readLayer hfile
  obtain ⟨hupperDistinct, hupperTable⟩ :=
    distinct_ofVariables (start ++ "_") environment.named
  have hopenUpper leaf (h : leaf ∈ leaves) := isOpenTo_of_sections hupperTable hvariables h
  have hopenFile leaf (h : leaf ∈ leaves) := isOpenTo_of_sections hfileTable hfileSections h
  have hopenDefault leaf (h : leaf ∈ leaves) := isOpenTo_toSetting {} h
  have hkept := keeps _ c (fun leaf h => (hopenUpper leaf h).overlay hupperDistinct
    ((hopenFile leaf h).overlay hfileDistinct (hopenDefault leaf h))) hdecode leaf hleaf
  rw [Option.bind_some, Option.bind_some] at hkept
  have hover := at?_layers hupperDistinct hfileDistinct (hopenUpper leaf hleaf)
    (hopenFile leaf hleaf) (hopenDefault leaf hleaf) fun entries htable =>
      at?_toSetting_ne_table c hleaf entries (by rw [hkept, htable, Option.some_or])
  rw [hkept, hover, Option.or_assoc, Option.or_assoc, Option.or_self]

/-- Two sections that the file and the variables share, each of which gives some of their values. -/
def layeredText : String := "[analysis.well_known]
lazy = 'Later'
enumerable = 'Several'
[emit]
resolver = 'Services'
"

def layeredTree : FileTree where
  entries := [(["wirebind.toml"], .file layeredText.toUTF8)]

def layeredFile : Setting :=
  .table [("analysis", .table [("well_known",
      .table [("lazy", .text "Later"), ("enumerable", .text "Several")])]),
    ("emit", .table [("resolver", .text "Services")])]

def layeredEnvironment : Environment :=
  { named := [("WIREBIND_ANALYSIS__WELL_KNOWN__ENUMERABLE", "Many"),
      ("WIREBIND_EMIT__CLASS_NAME", "Wired")] }

theorem run_readLayer_layeredTree :
    ((readLayer (some "wirebind.toml") layeredEnvironment : StateM FileTree _).run layeredTree).1 =
      .ok layeredFile := by
  have hread : layeredTree.read "wirebind.toml" = .ok layeredText.toUTF8 := rfl
  have hsettings : settingsOfText? layeredText = some layeredFile := by cbv
  rw [run_readLayer_of_text _ hread, fileLayer, hsettings]

def layeredUpper : Setting :=
  .table [("analysis", .table [("well_known", .table [("enumerable", .text "Many")])]),
    ("emit", .table [("class_name", .text "Wired")])]

theorem ofVariables_layeredEnvironment :
    Setting.ofVariables ("WIREBIND" ++ "_") layeredEnvironment.named = layeredUpper := by
  have hstart : "WIREBIND" ++ "_" = "WIREBIND_" := by decide
  have henumerable :
      ofVariable? "WIREBIND_" ("WIREBIND_ANALYSIS__WELL_KNOWN__ENUMERABLE", "Many") =
        some (.table [("analysis",
          .table [("well_known", .table [("enumerable", .text "Many")])])]) := by rfl
  have hclassName : ofVariable? "WIREBIND_" ("WIREBIND_EMIT__CLASS_NAME", "Wired") =
      some (.table [("emit", .table [("class_name", .text "Wired")])]) := by rfl
  rw [hstart]
  simp only [ofVariables, layeredEnvironment, List.filterMap_cons, henumerable, hclassName]
  rfl

/-- What both give is taken from the variables, what one gives from that one, and the rest is at its
default. -/
theorem uppermost_layer_wins_layeredTree :
    ((readLayer (some "wirebind.toml") layeredEnvironment : StateM FileTree _).run layeredTree).1 =
      .ok layeredFile ∧
    SectionsAreTables layeredFile ∧
    SectionsAreTables (Setting.ofVariables ("WIREBIND" ++ "_") layeredEnvironment.named) ∧
    ∃ c, ((load (some "wirebind.toml") "WIREBIND" layeredEnvironment :
        StateM FileTree _).run layeredTree).1 = .ok c ∧
      c.toSetting.at? ["analysis", "well_known", "enumerable"] = some (.text "Many") ∧
      c.toSetting.at? ["analysis", "well_known", "lazy"] = some (.text "Later") ∧
      c.toSetting.at? ["emit", "class_name"] = some (.text "Wired") ∧
      c.toSetting.at? ["emit", "resolver"] = some (.text "Services") ∧
      c.toSetting.at? ["emit", "namespace"] = some (.text "Wirebind") ∧ c.fault? = none := by
  have hfileSections : SectionsAreTables layeredFile := by
    simp [SectionsAreTables, sectionPaths, layeredFile]
  have hvariables :
      SectionsAreTables (Setting.ofVariables ("WIREBIND" ++ "_") layeredEnvironment.named) := by
    rw [ofVariables_layeredEnvironment]
    simp [SectionsAreTables, sectionPaths, layeredUpper]
  have hload : ((load (some "wirebind.toml") "WIREBIND" layeredEnvironment :
      StateM FileTree _).run layeredTree).1 =
        .ok { analysis := { wellKnown := { lazy := "Later", enumerable := "Many" } }
              emit := { className := "Wired", resolver := "Services" } } := by
    rw [run_load, run_readLayer_layeredTree, Except.bind, ofVariables_layeredEnvironment]
    rfl
  obtain ⟨hleaves, hvalid⟩ :=
    uppermost_layer_wins run_readLayer_layeredTree hfileSections hvariables hload
  rw [ofVariables_layeredEnvironment] at hleaves
  exact ⟨run_readLayer_layeredTree, hfileSections, hvariables, _, hload, hleaves _ (by decide),
    hleaves _ (by decide), hleaves _ (by decide), hleaves _ (by decide), hleaves _ (by decide),
    hvalid⟩

end Config
end Wiring
