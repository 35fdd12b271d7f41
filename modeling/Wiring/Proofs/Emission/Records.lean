import Wiring.Proofs.Emission.WrapperKey
import Wiring.Proofs.Graph.Renaming

/-! The code of each record by itself. It has one lookup for each dependency, in order, and holds
every text as it is given. Identities, places and the names of constructor parameters do not show in
it, and an empty contract or mode is no other than none. -/
namespace Wiring

/-- A text that is there to be written. -/
def nonempty? (text : Option String) : Option String := text.filter fun t => !t.isEmpty

def RegistrationKind.shown : RegistrationKind → RegistrationKind
  | .lazySingleton mode => .lazySingleton (nonempty? mode)
  | .transient => .transient
  | .constant => .constant

/-- The record with nothing but what its code shows. -/
def RegistrationRecord.shown (r : RegistrationRecord) : RegistrationRecord where
  interface := r.interface.nameOnly
  concrete := r.concrete.nameOnly
  constructorDependencies :=
    r.constructorDependencies.map fun d => ⟨"", d.kind.mapTypes TypeRef.nameOnly, none⟩
  propertyDependencies :=
    r.propertyDependencies.map fun d => ⟨d.name, d.kind.mapTypes TypeRef.nameOnly, none⟩
  contract := nonempty? r.contract
  kind := r.kind.shown
  location := default

namespace Emission

variable {r : RegistrationRecord} {mode : Option String}

theorem trailingArgument_nonempty? (argument : Option String) :
    trailingArgument (nonempty? argument) = trailingArgument argument := by
  cases argument with
  | none => rfl
  | some text =>
    cases hempty : text.isEmpty <;> simp [nonempty?, Option.filter, trailingArgument, hempty]

section Shown

variable (resolver : String) (r : RegistrationRecord)

theorem construction_shown : construction resolver r.shown = construction resolver r := by
  have hlookup (k : DependencyKind) :
      lookupExpression resolver (k.mapTypes TypeRef.nameOnly) = lookupExpression resolver k :=
    @lookupExpression_mapTypes TypeRef.nameOnly (fun _ => rfl) resolver k
  have harguments : constructorArguments resolver r.shown = constructorArguments resolver r := by
    simp [constructorArguments, RegistrationRecord.shown, hlookup]
  have hassignments : propertyAssignments resolver r.shown = propertyAssignments resolver r := by
    simp [propertyAssignments, RegistrationRecord.shown, hlookup]
  unfold construction
  rw [harguments, hassignments]
  rfl

/-- What the code does not show has no part in it. -/
theorem block_shown : block resolver r.shown = block resolver r := by
  have hmode : trailingArgument r.shown.mode? = trailingArgument r.mode? := by
    rw [RegistrationRecord.mode?, RegistrationRecord.mode?, RegistrationRecord.shown]
    cases r.kind with
    | lazySingleton mode => exact trailingArgument_nonempty? mode
    | transient | constant => rfl
  have hcontract : trailingArgument r.shown.contract = trailingArgument r.contract :=
    trailingArgument_nonempty? r.contract
  have hinterface : r.shown.interface.name = r.interface.name := rfl
  have hregister (factory type : String) :
      registerStatement resolver factory type r.shown.contract =
        registerStatement resolver factory type r.contract := by
    rw [registerStatement, registerStatement, hcontract]
  have htransient : transientBlock resolver r.shown = transientBlock resolver r := by
    unfold transientBlock
    rw [construction_shown, hinterface, hregister]
  have hlazy : lazyBlock resolver r.shown = lazyBlock resolver r := by
    unfold lazyBlock
    simp only [construction_shown, hinterface, hregister, hmode]
  unfold block
  rw [htransient, hlazy]
  cases hkind : r.kind <;> simp [RegistrationRecord.shown, RegistrationKind.shown, hkind]

end Shown

section Texts

variable (resolver : String) {r : RegistrationRecord}

theorem construction_eq (r : RegistrationRecord) :
    construction resolver r =
      "new " ++ globalName r.concrete.name ++ "(" ++
        String.intercalate ", "
          (r.constructorDependencies.map fun d => lookupExpression resolver d.kind) ++ ")" ++
        if r.propertyDependencies = [] then "" else
          " " ++ openBrace ++ " " ++ String.intercalate ", "
            (r.propertyDependencies.map fun d =>
              d.name ++ " = " ++ lookupExpression resolver d.kind) ++ " " ++ closeBrace := by
  unfold construction constructorArguments propertyAssignments
  cases r.propertyDependencies <;> simp [initializer]

theorem block_transient (hkind : r.kind = .transient) :
    block resolver r =
      "            " ++
        (resolver ++ ".Register(() => " ++ construction resolver r ++ ", typeof(" ++
          globalName r.interface.name ++ ")" ++ trailingArgument r.contract ++ ");\n") := by
  rw [block, hkind]
  rfl

end Texts

/-- The code is the code of each record that is not a constant, in order, between a text before
and a text after that depend on the options alone. The code of a record depends on nothing but what
it shows: one lookup for each parameter, one assignment for each property, the contract and the
mode if there are any, each as it is given. -/
theorem emit_by_record (options : EmitOptions) :
    (∀ records, emit options records =
      header options ++
        String.join ((records.filter fun r => r.kind ≠ .constant).map (block options.resolver)) ++
        footer) ∧
    ∀ (resolver : String) (r : RegistrationRecord),
      (∀ other : RegistrationRecord, r.shown = other.shown →
        block resolver r = block resolver other) ∧
      (r.kind = .transient → block resolver r =
        "            " ++
          (resolver ++ ".Register(() => " ++ construction resolver r ++ ", typeof(" ++
            globalName r.interface.name ++ ")" ++ trailingArgument r.contract ++ ");\n")) ∧
      (∀ mode, r.kind = .lazySingleton mode → block resolver r =
        "            " ++ openBrace ++ "\n" ++
        "                var lazy = new " ++ wrapperKey r.interface.name ++
          "(() => " ++ construction resolver r ++ trailingArgument mode ++ ");\n" ++
        "                " ++
          (resolver ++ ".Register(() => lazy, typeof(" ++ wrapperKey r.interface.name ++ ")" ++
            trailingArgument r.contract ++ ");\n") ++
        "                " ++
          (resolver ++ ".Register(() => lazy.Value, typeof(" ++ globalName r.interface.name ++
            ")" ++ trailingArgument r.contract ++ ");\n") ++
        "            " ++ closeBrace ++ "\n") ∧
      construction resolver r =
        "new " ++ globalName r.concrete.name ++ "(" ++
          String.intercalate ", "
            (r.constructorDependencies.map fun d => lookupExpression resolver d.kind) ++ ")" ++
          if r.propertyDependencies = [] then "" else
            " " ++ openBrace ++ " " ++ String.intercalate ", "
              (r.propertyDependencies.map fun d =>
                d.name ++ " = " ++ lookupExpression resolver d.kind) ++ " " ++ closeBrace := by
  refine ⟨fun records => ?_, fun resolver r => ⟨fun other hshown => ?_, block_transient resolver,
    fun mode hkind => block_lazySingleton hkind resolver, construction_eq resolver r⟩⟩
  · have hemitted : emitted records = records.filter fun r => r.kind ≠ .constant := by
      refine List.filter_congr fun r _ => ?_
      cases hkind : r.kind <;> simp [RegistrationKind.isConstant]
    rw [emit_eq_emitted, hemitted]
  · rw [← block_shown resolver r, ← block_shown resolver other, hshown]

/-- What could be taken for markup, and for a place in a template. -/
def markup : String :=
  openBrace ++ openBrace ++ "resolver" ++ closeBrace ++ closeBrace ++ " & <b>"

/-- A clock with such a contract. -/
def markupClock : RegistrationRecord :=
  { sharedClock with
    constructorDependencies := [⟨"zone", .plain ⟨2, "Test.IZone"⟩, none⟩]
    contract := some markup
    kind := .transient }

/-- The same clock in another place, with other identities and another name for its parameter. -/
def movedClock : RegistrationRecord :=
  { markupClock with
    interface := ⟨8, "Test.IClock"⟩
    constructorDependencies := [⟨"z", .plain ⟨9, "Test.IZone"⟩, some ⟨"Clock.cs", 4, 2⟩⟩]
    location := ⟨"Program.cs", 7, 9⟩ }

theorem emit_by_record_markupClock :
    markupClock.shown = movedClock.shown ∧ markupClock.kind = .transient ∧
    sharedClock.kind = .lazySingleton none ∧
    block "Locator" markupClock = block "Locator" movedClock ∧
    emit { resolver := "Locator" } [markupClock, sharedClock] =
      header { resolver := "Locator" } ++
      "            Locator.Register(() => new global::Test.Clock(" ++
      "(global::Test.IZone)Locator.GetService(typeof(global::Test.IZone))), " ++
      "typeof(global::Test.IClock), " ++ markup ++ ");\n" ++
      "            " ++ openBrace ++ "\n" ++
      "                var lazy = new global::System.Lazy<global::Test.IClock>(" ++
      "() => new global::Test.Clock());\n" ++
      "                Locator.Register(() => lazy, " ++
      "typeof(global::System.Lazy<global::Test.IClock>));\n" ++
      "                Locator.Register(() => lazy.Value, typeof(global::Test.IClock));\n" ++
      "            " ++ closeBrace ++ "\n" ++ footer := by
  have hshown : markupClock.shown = movedClock.shown := by decide
  obtain ⟨hemit, hblock⟩ := emit_by_record { resolver := "Locator" }
  obtain ⟨hsame, htransient, _⟩ := hblock "Locator" markupClock
  obtain ⟨_, _, hlazy, _⟩ := hblock "Locator" sharedClock
  refine ⟨hshown, rfl, rfl, hsame movedClock hshown, ?_⟩
  have hrecords : ([markupClock, sharedClock].filter fun r => r.kind ≠ .constant) =
      [markupClock, sharedClock] := by decide
  rw [hemit, hrecords, List.map_cons, List.map_singleton, htransient rfl, hlazy none rfl]
  decide +kernel

end Emission
end Wiring
