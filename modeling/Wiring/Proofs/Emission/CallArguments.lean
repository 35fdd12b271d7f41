import Wiring.Model.Query
import Wiring.Proofs.Analysis.Arguments
import Wiring.Proofs.Analysis.Extraction
import Wiring.Proofs.Analysis.Memory
import Wiring.Proofs.Emission.Records

/-! The arguments of a registration call in the generated code. What the call gives for the contract
ends every statement that registers its record, and what it gives for the mode ends the construction
of a lazy wrapper, as they stand; an argument that is missing, not resolved or empty adds nothing. -/
namespace Wiring

namespace InvocationSite

variable {site : InvocationSite} {t : String}

/-- The contract is given by an expression that code writes as `t`. -/
def PassesContract (site : InvocationSite) (t : String) : Prop :=
  ∃ e, site.argumentFor "contract" = some e ∧
    (e.text = t ∧ (e.binding = .literal ∨ ∃ name, e.binding = .symbol name) ∨
      e.binding = .member t)

/-- The mode is given by an expression that code writes as `t`. -/
def PassesMode (site : InvocationSite) (t : String) : Prop :=
  ∃ e, site.argumentFor "mode" = some e ∧
    (e.text = t ∧ e.binding = .literal ∨ e.binding = .member t ∨ e.binding = .symbol t)

/-- The parameter is given no argument, or one that was not resolved. -/
def PassesNothing (site : InvocationSite) (parameter : String) : Prop :=
  ∀ e, site.argumentFor parameter = some e → e.binding = .unresolved

theorem contract?_eq_some_iff : site.contract? = some t ↔ site.PassesContract t := by
  rw [contract?, Option.bind_eq_some_iff]
  refine exists_congr fun e => and_congr_right fun _ => ?_
  cases hbinding : e.binding <;> simp [Expression.contractText?, hbinding]

theorem mode?_eq_some_iff : site.mode? = some t ↔ site.PassesMode t := by
  rw [mode?, Option.bind_eq_some_iff]
  refine exists_congr fun e => and_congr_right fun _ => ?_
  cases hbinding : e.binding <;> simp [Expression.modeText?, hbinding]

theorem contract?_of_passesNothing (h : site.PassesNothing "contract") : site.contract? = none := by
  rw [contract?, Option.bind_eq_none_iff]
  intro e he
  rw [Expression.contractText?, h e he]

theorem mode?_of_passesNothing (h : site.PassesNothing "mode") : site.mode? = none := by
  rw [mode?, Option.bind_eq_none_iff]
  intro e he
  rw [Expression.modeText?, h e he]

/-- The mode of a transient registration is not read. -/
theorem extract_transient {e : Extractor} {record : RegistrationRecord} {arguments : List Argument}
    (hextract : e.extract site = .ok (some record)) (hkind : record.kind = .transient)
    (hlength : arguments.length ≤ 2)
    (hcontract : ({ site with arguments } : InvocationSite).argumentFor "contract" =
      site.argumentFor "contract") :
    e.extract { site with arguments } = .ok (some record) := by
  obtain ⟨shape, interface, concrete, parameters, properties, hshape, htypes, hdependencies, rfl⟩ :=
    Extractor.exists_of_extract_eq_some hextract
  obtain rfl : shape = .register := by
    cases shape with
    | register => rfl
    | registerLazySingleton | registerConstant => cases hkind
  obtain ⟨hmethod, hbound, _⟩ := shape?_eq_some_iff.mp hshape
  have hshape' : ({ site with arguments } : InvocationSite).shape? e.registrationsType =
      some .register := shape?_eq_some_iff.mpr ⟨hmethod, hbound, hlength⟩
  have hcontract' : ({ site with arguments } : InvocationSite).contract? = site.contract? :=
    congrArg (Option.bind · Expression.contractText?) hcontract
  rw [Extractor.extract_eq_map_dependencies hshape' htypes, hdependencies]
  simp [Except.map, record, kind, hcontract']

end InvocationSite

namespace Emission

theorem trailingArgument_of_ne {t : String} (h : t ≠ "") :
    trailingArgument (some t) = ", " ++ t := by
  simp [trailingArgument, h]

theorem trailingArgument_eq_empty {argument : Option String}
    (h : argument = some "" ∨ argument = none) : trailingArgument argument = "" := by
  rcases h with rfl | rfl <;> rfl

/-- The contract and the mode that a call gives stand in the code of its record as they are given.
Each statement that registers the record, one for a transient and two for a lazy singleton, ends
with the contract, and the construction of the wrapper with the mode; there is no such argument
where the call gives none, one that was not resolved, or an empty one. What a call gives for the
mode of a transient makes no difference. -/
theorem call_arguments_written {model : SymbolPort} {options : AnalysisOptions}
    {sites : List InvocationSite} {site : InvocationSite} {record : RegistrationRecord}
    (hextract : (Extractor.ofOptions model options).extract site = .ok (some record))
    (hkept : record ∈ (analyze model options sites).records) (hcode : record.kind ≠ .constant)
    (emission : EmitOptions) :
    ∃ (first last : List RegistrationRecord) (contract mode : String),
      (analyze model options sites).records = first ++ record :: last ∧
      emit emission (analyze model options sites).records =
        header emission ++ String.join (first.map (block emission.resolver)) ++
          block emission.resolver record ++
          String.join (last.map (block emission.resolver)) ++ footer ∧
      (record.kind = .transient ∧ block emission.resolver record =
          "            " ++
            (emission.resolver ++ ".Register(() => " ++ construction emission.resolver record ++
              ", typeof(" ++ globalName record.interface.name ++ ")" ++ contract ++ ");\n") ∨
        (∃ m, record.kind = .lazySingleton m) ∧ block emission.resolver record =
          "            " ++ openBrace ++ "\n" ++
          "                var lazy = new " ++ wrapperKey record.interface.name ++
            "(() => " ++ construction emission.resolver record ++ mode ++ ");\n" ++
          "                " ++
            (emission.resolver ++ ".Register(() => lazy, typeof(" ++
              wrapperKey record.interface.name ++ ")" ++ contract ++ ");\n") ++
          "                " ++
            (emission.resolver ++ ".Register(() => lazy.Value, typeof(" ++
              globalName record.interface.name ++ ")" ++ contract ++ ");\n") ++
          "            " ++ closeBrace ++ "\n") ∧
      (∀ t, t ≠ "" → site.PassesContract t → contract = ", " ++ t) ∧
      (site.PassesContract "" ∨ site.PassesNothing "contract" → contract = "") ∧
      (∀ t, t ≠ "" → site.PassesMode t → mode = ", " ++ t) ∧
      (site.PassesMode "" ∨ site.PassesNothing "mode" → mode = "") ∧
      (record.kind = .transient → ∀ arguments : List Argument, arguments.length ≤ 2 →
        ({ site with arguments } : InvocationSite).argumentFor "contract" =
          site.argumentFor "contract" →
        (Extractor.ofOptions model options).extract { site with arguments } =
          .ok (some record)) := by
  obtain ⟨first, last, hrecords⟩ := List.append_of_mem hkept
  obtain ⟨shape, interface, concrete, parameters, properties, _, _, _, hrecord⟩ :=
    Extractor.exists_of_extract_eq_some hextract
  have hcontract : record.contract = site.contract? := by rw [hrecord]; rfl
  refine ⟨first, last, trailingArgument site.contract?, trailingArgument site.mode?, hrecords,
    by rw [hrecords, emit_append_cons], ?_, ?_, ?_, ?_, ?_, ?_⟩
  · rw [← hcontract]
    -- The shape of the call decides the kind of its record.
    cases shape with
    | register =>
      have hkind : record.kind = .transient := by rw [hrecord]; rfl
      exact .inl ⟨hkind, block_transient emission.resolver hkind⟩
    | registerLazySingleton =>
      have hkind : record.kind = .lazySingleton site.mode? := by rw [hrecord]; rfl
      exact .inr ⟨⟨_, hkind⟩, block_lazySingleton hkind emission.resolver⟩
    | registerConstant => exact absurd (by rw [hrecord]; rfl) hcode
  · intro t hne hpasses
    rw [InvocationSite.contract?_eq_some_iff.mpr hpasses, trailingArgument_of_ne hne]
  · intro hnone
    exact trailingArgument_eq_empty (hnone.imp InvocationSite.contract?_eq_some_iff.mpr
      InvocationSite.contract?_of_passesNothing)
  · intro t hne hpasses
    rw [InvocationSite.mode?_eq_some_iff.mpr hpasses, trailingArgument_of_ne hne]
  · intro hnone
    exact trailingArgument_eq_empty (hnone.imp InvocationSite.mode?_eq_some_iff.mpr
      InvocationSite.mode?_of_passesNothing)
  · intro hkind arguments hlength
    exact InvocationSite.extract_transient hextract hkind hlength

def clockModel : SymbolModel where
  types := #[
    { name := "Test.Clock"
      constructors := [
        { candidate := {
            member := .constructor ⟨0, "Test.Clock"⟩ 0
            parameters := []
            isStatic := false
            isSynthesized := false
            location := none }
          accessibility := .publicAccess
          attributes := [] }] }]

/-- A call whose contract is a literal that looks like markup and like a template. -/
def markupCall : InvocationSite :=
  { InvocationSite.namedContractCall with
    arguments := [⟨some "mode", ⟨"Mode.None", .member "Test.Mode.None"⟩⟩,
      ⟨none, ⟨"\"" ++ markup ++ "\"", .literal⟩⟩]
    binding := some ⟨"Wirebind.Registrations", false, ["mode", "contract"]⟩ }

def markupRecord : RegistrationRecord :=
  markupCall.record .registerLazySingleton ⟨0, "Test.Clock"⟩ ⟨0, "Test.Clock"⟩ [] []

theorem call_arguments_written_markupCall :
    (Extractor.ofOptions clockModel {}).extract markupCall = .ok (some markupRecord) ∧
    markupRecord ∈ (analyze clockModel {} [markupCall]).records ∧
    markupRecord.kind ≠ .constant ∧
    markupCall.PassesContract ("\"" ++ markup ++ "\"") ∧
    markupCall.PassesMode "Test.Mode.None" ∧
    block "Locator" markupRecord =
      "            " ++ openBrace ++ "\n" ++
      "                var lazy = new global::System.Lazy<global::Test.Clock>(" ++
      "() => new global::Test.Clock(), Test.Mode.None);\n" ++
      "                Locator.Register(() => lazy, " ++
      "typeof(global::System.Lazy<global::Test.Clock>), \"" ++ markup ++ "\");\n" ++
      "                Locator.Register(() => lazy.Value, " ++
      "typeof(global::Test.Clock), \"" ++ markup ++ "\");\n" ++
      "            " ++ closeBrace ++ "\n" := by
  have hextract : (Extractor.ofOptions clockModel {}).extract markupCall =
      .ok (some markupRecord) := by decide +kernel
  have hkept : markupRecord ∈ (analyze clockModel {} [markupCall]).records := by decide +kernel
  have hcode : markupRecord.kind ≠ .constant := by decide
  have hpassesContract : markupCall.PassesContract ("\"" ++ markup ++ "\"") :=
    ⟨_, rfl, .inl ⟨rfl, .inl rfl⟩⟩
  have hpassesMode : markupCall.PassesMode "Test.Mode.None" := ⟨_, rfl, .inr (.inl rfl)⟩
  obtain ⟨_, _, contract, mode, _, _, hblock, hcontract, _, hmode, _, _⟩ :=
    call_arguments_written hextract hkept hcode { resolver := "Locator" }
  refine ⟨hextract, hkept, hcode, hpassesContract, hpassesMode, ?_⟩
  rcases hblock with ⟨htransient, _⟩ | ⟨_, hlazy⟩
  · cases htransient
  · rw [hlazy, hcontract _ (by decide) hpassesContract, hmode _ (by decide) hpassesMode]
    decide +kernel

end Emission
end Wiring
