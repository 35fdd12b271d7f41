import Wiring.Registration
import Wiring.Options
import Wiring.Emission.QualifiedName
import Wiring.Emission.Template
/-! Generated wiring code: a partial class that registers every validated record, one statement or
block after the other. Constants are left out, for the caller registers the instance itself.
Every value stands in the code as it is given. The code is one template, filled in from all records
at once; the code of one record is also written down by itself. -/
namespace Wiring.Emission

/-- What opens a block or an initializer. -/
def openBrace : String := "\x7b"

def closeBrace : String := "\x7d"

/-- The lookup of one dependency in the service registry. -/
def lookupExpression (resolver : String) : DependencyKind → String
  | .plain t =>
    let type := globalName t.name
    "(" ++ type ++ ")" ++ resolver ++ ".GetService(typeof(" ++ type ++ "))"
  | .deferred t =>
    let type := "global::System.Lazy<" ++ globalName t.name ++ ">"
    "(" ++ type ++ ")" ++ resolver ++ ".GetService(typeof(" ++ type ++ "))"
  | .collectionOf t => resolver ++ ".GetServices<" ++ globalName t.name ++ ">()"

/-- An optional last argument; an empty one counts as absent. -/
def trailingArgument : Option String → String
  | some text => if text.isEmpty then "" else ", " ++ text
  | none => ""

/-- The arguments of the constructor call. -/
def constructorArguments (resolver : String) (r : RegistrationRecord) : List String :=
  r.constructorDependencies.map fun d => lookupExpression resolver d.kind

/-- The assignments of the object initializer. -/
def propertyAssignments (resolver : String) (r : RegistrationRecord) : List String :=
  r.propertyDependencies.map fun d => d.name ++ " = " ++ lookupExpression resolver d.kind

/-- The object initializer, absent when no property is injected. -/
def initializer : List String → String
  | [] => ""
  | assignments =>
    " " ++ openBrace ++ " " ++ String.intercalate ", " assignments ++ " " ++ closeBrace

/-- The expression that constructs the concrete type of a record. -/
def construction (resolver : String) (r : RegistrationRecord) : String :=
  "new " ++ globalName r.concrete.name ++ "("
    ++ String.intercalate ", " (constructorArguments resolver r) ++ ")"
    ++ initializer (propertyAssignments resolver r)

/-- A statement that registers a factory for a type, under the contract of a record. -/
def registerStatement (resolver factory type : String) (contract : Option String) : String :=
  resolver ++ ".Register(() => " ++ factory ++ ", typeof(" ++ type ++ ")"
    ++ trailingArgument contract ++ ");\n"

/-- The statement of a transient record. -/
def transientBlock (resolver : String) (r : RegistrationRecord) : String :=
  "            "
    ++ registerStatement resolver (construction resolver r) (globalName r.interface.name) r.contract

/-- The block of a lazy singleton: the shared wrapper, then the wrapper and its value registered. -/
def lazyBlock (resolver : String) (r : RegistrationRecord) : String :=
  let type := globalName r.interface.name
  let wrapper := "global::System.Lazy<" ++ type ++ ">"
  "            " ++ openBrace ++ "\n"
    ++ "                var lazy = new " ++ wrapper ++ "(() => " ++ construction resolver r
    ++ trailingArgument r.mode? ++ ");\n"
    ++ "                " ++ registerStatement resolver "lazy" wrapper r.contract
    ++ "                " ++ registerStatement resolver "lazy.Value" type r.contract
    ++ "            " ++ closeBrace ++ "\n"

/-- The code of one record. -/
def block (resolver : String) (r : RegistrationRecord) : String :=
  match r.kind with
  | .transient => transientBlock resolver r
  | .lazySingleton _ => lazyBlock resolver r
  | .constant => ""

/-- The method that holds the statements. -/
def generatedMethodName : String := "RegisterGenerated"

/-- The text before the first statement. -/
def header (options : EmitOptions) : String :=
  "// <auto-generated />\n#nullable enable\n\nnamespace " ++ options.enclosing
    ++ "\n" ++ openBrace ++ "\n    internal static partial class " ++ options.className
    ++ "\n    " ++ openBrace ++ "\n        static partial void " ++ generatedMethodName
    ++ "()\n        " ++ openBrace ++ "\n"

/-- The text after the last statement. -/
def footer : String :=
  "        " ++ closeBrace ++ "\n    " ++ closeBrace ++ "\n" ++ closeBrace ++ "\n"

/-! ## The template -/

/-- The expression that constructs the concrete type. -/
def constructionTemplate : List Part :=
  [.text "new ", .place (.field "concrete"), .text "(",
    .each "arguments" (separated ", " [.place .item]), .text ")",
    .choice "properties"
      [.text (" " ++ openBrace ++ " "),
        .each "properties" (separated ", "
          [.place (.field "name"), .text " = ", .place (.field "value")]),
        .text (" " ++ closeBrace)]
      []]

/-- A last argument that may be missing. -/
def optionalArgument (name : String) : Part := .choice name [.text ", ", .place (.field name)] []

/-- A statement that registers a factory for a type. -/
def registerTemplate (factory type : List Part) : List Part :=
  [.place (.rootField "resolver"), .text ".Register(() => "] ++ factory ++ [.text ", typeof("] ++
    type ++ [.text ")", optionalArgument "contract", .text ");\n"]

def wrapperTemplate : List Part :=
  [.text "global::System.Lazy<", .place (.field "interface"), .text ">"]

def lazyTemplate : List Part :=
  [.text ("            " ++ openBrace ++ "\n"), .text "                var lazy = new "] ++
    wrapperTemplate ++
    [.text "(() => "] ++ constructionTemplate ++ [optionalArgument "mode", .text ");\n"] ++
    [.text "                "] ++ registerTemplate [.text "lazy"] wrapperTemplate ++
    [.text "                "] ++
      registerTemplate [.text "lazy.Value"] [.place (.field "interface")] ++
    [.text ("            " ++ closeBrace ++ "\n")]

def transientTemplate : List Part :=
  [.text "            "] ++ registerTemplate constructionTemplate [.place (.field "interface")]

def classTemplate : List Part :=
  [.text "// <auto-generated />\n#nullable enable\n\nnamespace ", .place (.field "namespace"),
    .text ("\n" ++ openBrace ++ "\n    internal static partial class "), .place (.field "class"),
    .text ("\n    " ++ openBrace ++ "\n        static partial void "), .place (.field "method"),
    .text ("()\n        " ++ openBrace ++ "\n"),
    .each "registrations" [.choice "lazy" lazyTemplate transientTemplate],
    .text footer]

def propertyDatum (resolver : String) (d : Dependency) : Datum :=
  .record [("name", .text d.name), ("value", .text (lookupExpression resolver d.kind))]

def registrationDatum (resolver : String) (r : RegistrationRecord) : Datum :=
  .record [
    ("interface", .text (globalName r.interface.name)),
    ("concrete", .text (globalName r.concrete.name)),
    ("arguments", .list ((constructorArguments resolver r).map .text)),
    ("properties", .list (r.propertyDependencies.map (propertyDatum resolver))),
    ("contract", .ofText? r.contract),
    ("lazy", .flag r.isLazySingleton),
    ("mode", .ofText? r.mode?)]

/-- The records that code is written for. -/
def emitted (records : List RegistrationRecord) : List RegistrationRecord :=
  records.filter fun r => !r.kind.isConstant

def classDatum (options : EmitOptions) (records : List RegistrationRecord) : Datum :=
  .record [
    ("namespace", .text options.enclosing),
    ("class", .text options.className),
    ("method", .text generatedMethodName),
    ("resolver", .text options.resolver),
    ("registrations", .list ((emitted records).map (registrationDatum options.resolver)))]

/-- The code that wires the records, in order. -/
def emit (options : EmitOptions) (records : List RegistrationRecord) : String :=
  fill classTemplate (classDatum options records)

end Wiring.Emission
