import Wiring.Invocation
/-! A model document: the well-known names a compilation references, its type declarations, and
the calls found in it. Types are named, not identified; identities come with the symbol model. -/
namespace Wiring

structure ParameterDecl where
  name : String
  type : String
  location : Option Location
  deriving DecidableEq, Repr, Inhabited

structure ConstructorDecl where
  accessibility : Accessibility := .publicAccess
  isStatic : Bool := false
  /-- Generated by the host compiler, as the copy constructor of a record is. -/
  isSynthesized : Bool := false
  attributes : List String := []
  parameters : List ParameterDecl := []
  location : Option Location := none
  deriving DecidableEq, Repr, Inhabited

structure PropertyDecl where
  name : String
  type : String
  accessibility : Accessibility := .publicAccess
  attributes : List String := []
  /-- Accessibility of the setter, absent when there is none. -/
  setter : Option Accessibility := none
  location : Option Location := none
  setterLocation : Option Location := none
  deriving DecidableEq, Repr, Inhabited

structure TypeDecl where
  name : String := ""
  base : Option String := none
  /-- Generic definition of a constructed generic type. -/
  definition : Option String := none
  typeArguments : List String := []
  constructors : List ConstructorDecl := []
  properties : List PropertyDecl := []
  deriving DecidableEq, Repr, Inhabited

/-- An ordinary argument of a call. -/
structure ArgumentDecl where
  name : Option String := none
  text : String
  binding : ExpressionBinding := .literal
  deriving DecidableEq, Repr, Inhabited

def ArgumentDecl.toArgument (d : ArgumentDecl) : Argument := ⟨d.name, ⟨d.text, d.binding⟩⟩

/-- A call as a source scanner reports it. -/
structure InvocationDecl where
  method : String
  typeArguments : List String := []
  arguments : List ArgumentDecl := []
  location : Location
  binding : Option MethodBinding := none
  deriving DecidableEq, Repr, Inhabited

structure ModelDocument where
  /-- Metadata names of the well-known types that resolve in this compilation. -/
  references : List String := []
  types : List TypeDecl := []
  invocations : List InvocationDecl := []
  deriving DecidableEq, Repr, Inhabited

end Wiring
