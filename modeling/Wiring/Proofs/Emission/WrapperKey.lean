import Wiring.Proofs.Emission.Rendering
import Wiring.Proofs.Emission.Scan

/-! The key of a lazy wrapper in the service registry. A text is qualified piece by piece around
`<`, `,` and `(`, so the name of the wrapper is qualified as the wrapper of the qualified name: a
lookup of the wrapper asks for the type under which the wrapper is registered. -/
namespace Wiring.Emission

section Pieces

variable {c : Char}

theorem detached_of_opensType (h : opensType c = true) (rest : List Char) :
    Detached (c :: rest) := by
  have hcolon : c ≠ ':' := by
    rintro rfl
    exact absurd h (by decide)
  exact detached_cons ⟨continuesName_of_opensType h, hcolon⟩ rest

theorem qualifyFrom_delimiter (h : opensType c = true) (atStart : Bool) (s t : List Char) :
    qualifyFrom atStart (s ++ c :: t) = qualifyFrom atStart s ++ c :: qualifyFrom true t := by
  rw [qualifyFrom_append (detached_of_opensType h t), qualifyFrom_opening h]

theorem qualifyFrom_bracket (atStart : Bool) (s : List Char) :
    qualifyFrom atStart (s ++ ['>']) = qualifyFrom atStart s ++ ['>'] := by
  have hstart : startsName '>' = false := by decide +kernel
  rw [qualifyFrom_append (detached_cons (by decide +kernel) []),
    qualifyFrom_cons (by simp [hstart]), qualifyFrom_nil]

theorem globalName_delimiter (h : opensType c = true) (a b : String) :
    globalName (a ++ String.singleton c ++ b) =
      globalName a ++ String.singleton c ++ globalName b := by
  apply String.toList_injective
  simp [globalName, qualifyFrom_delimiter h]

theorem globalName_bracket (s : String) : globalName (s ++ ">") = globalName s ++ ">" := by
  apply String.toList_injective
  simp [globalName, qualifyFrom_bracket]

end Pieces

theorem globalName_wrapper (name : String) :
    globalName ("System.Lazy<" ++ name ++ ">") =
      "global::System.Lazy<" ++ globalName name ++ ">" := by
  have hlazy : globalName "System.Lazy" = "global::System.Lazy" := by decide +kernel
  calc globalName ("System.Lazy<" ++ name ++ ">")
    _ = globalName ("System.Lazy" ++ String.singleton '<' ++ name ++ ">") := rfl
    _ = globalName "System.Lazy" ++ String.singleton '<' ++ globalName name ++ ">" := by
      rw [globalName_bracket, globalName_delimiter (by decide)]
    _ = "global::System.Lazy<" ++ globalName name ++ ">" := by
      rw [hlazy]
      rfl

section Registry

/-- The type that a lookup of the lazy wrapper of `name` asks the registry for. -/
def wrapperKey (name : String) : String := globalName ("System.Lazy<" ++ name ++ ">")

theorem wrapperKey_eq (name : String) :
    wrapperKey name = "global::System.Lazy<" ++ globalName name ++ ">" :=
  globalName_wrapper name

variable {interface wrapper : TypeRef} {options : EmitOptions} {record : RegistrationRecord}
variable {records : List RegistrationRecord} {mode : Option String}

theorem lookupExpression_plain_wrapper
    (hname : wrapper.name = "System.Lazy<" ++ interface.name ++ ">") (resolver : String) :
    lookupExpression resolver (.plain wrapper) =
      "(" ++ wrapperKey interface.name ++ ")" ++ resolver ++ ".GetService(typeof(" ++
        wrapperKey interface.name ++ "))" := by
  rw [lookupExpression, hname, ← wrapperKey]

theorem lookupExpression_deferred (interface : TypeRef) (resolver : String) :
    lookupExpression resolver (.deferred interface) =
      "(" ++ wrapperKey interface.name ++ ")" ++ resolver ++ ".GetService(typeof(" ++
        wrapperKey interface.name ++ "))" := by
  rw [lookupExpression, wrapperKey_eq]

theorem registerStatement_eq (resolver factory type : String) (contract : Option String) :
    registerStatement resolver factory type contract =
      resolver ++ (".Register(() => " ++ factory ++ ", typeof(") ++ type ++ ")" ++
        trailingArgument contract ++ ");\n" := by
  simp only [registerStatement, String.append_assoc]

theorem block_lazySingleton (hkind : record.kind = .lazySingleton mode) (resolver : String) :
    block resolver record =
      "            " ++ openBrace ++ "\n" ++
      "                var lazy = new " ++ wrapperKey record.interface.name ++
        "(() => " ++ construction resolver record ++ trailingArgument mode ++ ");\n" ++
      "                " ++
        (resolver ++ ".Register(() => lazy, typeof(" ++ wrapperKey record.interface.name ++ ")" ++
          trailingArgument record.contract ++ ");\n") ++
      "                " ++
        (resolver ++ ".Register(() => lazy.Value, typeof(" ++ globalName record.interface.name ++
          ")" ++ trailingArgument record.contract ++ ");\n") ++
      "            " ++ closeBrace ++ "\n" := by
  have hmode : record.mode? = mode := by
    rw [RegistrationRecord.mode?, hkind, RegistrationKind.mode?]
  have hshared : ".Register(() => " ++ "lazy" ++ ", typeof(" = ".Register(() => lazy, typeof(" := by
    decide
  have hvalue : ".Register(() => " ++ "lazy.Value" ++ ", typeof(" =
      ".Register(() => lazy.Value, typeof(" := by decide
  simp only [block, hkind]
  -- not by its equation lemma, which costs a comparison of two long appends
  unfold lazyBlock
  simp only [hmode, ← wrapperKey_eq, registerStatement_eq, hshared, hvalue]

theorem exists_emit_eq (h : record ∈ records) :
    ∃ before after, emit options records = before ++ block options.resolver record ++ after := by
  obtain ⟨first, last, rfl⟩ := List.append_of_mem h
  refine ⟨header options ++ String.join (first.map (block options.resolver)),
    String.join (last.map (block options.resolver)) ++ footer, ?_⟩
  rw [emit_append_cons]
  exact String.append_assoc

end Registry

/-- A text is qualified in pieces around `<`, `,` and `(`. So one key of the lazy wrapper of a type
stands in a deferred lookup of the type, in a plain lookup of the wrapper by its own name, and in
the statement that registers the wrapper in the block of a lazy singleton. -/
theorem wrapper_key_agrees (resolver : String) (interface : TypeRef) :
    (∀ a b : String, ∀ c ∈ ['<', ',', '('],
      globalName (a ++ String.singleton c ++ b) =
        globalName a ++ String.singleton c ++ globalName b) ∧
    (∀ name : String, globalName ("System.Lazy<" ++ name ++ ">") =
      "global::System.Lazy<" ++ globalName name ++ ">") ∧
    (∀ wrapper : TypeRef, wrapper.name = "System.Lazy<" ++ interface.name ++ ">" →
      lookupExpression resolver (.deferred interface) =
        lookupExpression resolver (.plain wrapper)) ∧
    lookupExpression resolver (.deferred interface) =
      "(" ++ wrapperKey interface.name ++ ")" ++ resolver ++ ".GetService(typeof(" ++
        wrapperKey interface.name ++ "))" ∧
    ∀ (options : EmitOptions) (records : List RegistrationRecord), ∀ record ∈ records,
      ∀ mode : Option String, options.resolver = resolver →
      record.kind = .lazySingleton mode → record.interface.name = interface.name →
      block resolver record =
        "            " ++ openBrace ++ "\n" ++
        "                var lazy = new " ++ wrapperKey interface.name ++
          "(() => " ++ construction resolver record ++ trailingArgument mode ++ ");\n" ++
        "                " ++
          (resolver ++ ".Register(() => lazy, typeof(" ++ wrapperKey interface.name ++ ")" ++
            trailingArgument record.contract ++ ");\n") ++
        "                " ++
          (resolver ++ ".Register(() => lazy.Value, typeof(" ++ globalName interface.name ++
            ")" ++ trailingArgument record.contract ++ ");\n") ++
        "            " ++ closeBrace ++ "\n" ∧
      ∃ before after, emit options records = before ++ block resolver record ++ after := by
  refine ⟨fun a b c hc => globalName_delimiter (opensType_iff.mpr hc) a b, globalName_wrapper,
    fun wrapper hname => ?_, lookupExpression_deferred interface resolver, ?_⟩
  · rw [lookupExpression_deferred, lookupExpression_plain_wrapper hname]
  · rintro options records record hmem mode rfl hkind hname
    rw [← hname]
    exact ⟨block_lazySingleton hkind options.resolver, exists_emit_eq hmem⟩

/-- A clock that is built on first use. -/
def sharedClock : RegistrationRecord :=
  { interface := ⟨0, "Test.IClock"⟩
    concrete := ⟨1, "Test.Clock"⟩
    constructorDependencies := []
    propertyDependencies := []
    contract := none
    kind := .lazySingleton none
    location := default }

theorem wrapper_key_agrees_sharedClock :
    '<' ∈ ['<', ',', '('] ∧
    globalName ("Map" ++ String.singleton '<' ++ "Key>") =
      globalName "Map" ++ String.singleton '<' ++ globalName "Key>" ∧
    lookupExpression "Locator" (.deferred sharedClock.interface) =
      lookupExpression "Locator" (.plain ⟨2, "System.Lazy<Test.IClock>"⟩) ∧
    ∃ before after, emit { resolver := "Locator" } [sharedClock] =
      before ++ block "Locator" sharedClock ++ after := by
  obtain ⟨hpieces, _, hplain, _, hblock⟩ := wrapper_key_agrees "Locator" sharedClock.interface
  refine ⟨by decide, hpieces "Map" "Key>" '<' (by decide), hplain _ (by decide), ?_⟩
  exact (hblock { resolver := "Locator" } [sharedClock] sharedClock (by simp) none rfl rfl rfl).2

end Wiring.Emission
