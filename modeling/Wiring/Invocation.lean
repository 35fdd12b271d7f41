import Wiring.Symbol
/-! Calls that have the form of a registration, with what the host could resolve about them. -/
namespace Wiring

/-- The method a call was bound to. -/
structure MethodBinding where
  /-- Fully qualified name of the type that declares the method. -/
  containingType : String
  /-- Called as an extension method. -/
  isExtension : Bool
  /-- Names of the ordinary parameters, in order. -/
  parameters : List String
  deriving DecidableEq, Repr, Inhabited

/-- What an argument expression resolved to. -/
inductive ExpressionBinding where
  /-- A literal, whose source text is already a valid expression. -/
  | literal
  /-- A field, property or enumeration member. -/
  | member (qualifiedName : String)
  /-- Any other symbol: a method call, a local, a parameter. -/
  | symbol (qualifiedName : String)
  | unresolved
  deriving DecidableEq, Repr, Inhabited

/-- An argument expression with its source text. -/
structure Expression where
  text : String
  binding : ExpressionBinding
  deriving DecidableEq, Repr, Inhabited

namespace Expression

/-- The contract key as it must stand in generated code. The display name of a symbol is not
always an expression, so only a member is replaced by its qualified name. -/
def contractText? (e : Expression) : Option String :=
  match e.binding with
  | .literal => some e.text
  | .symbol _ => some e.text
  | .member qualified => some qualified
  | .unresolved => none

/-- The thread-safety mode as it must stand in generated code. -/
def modeText? (e : Expression) : Option String :=
  match e.binding with
  | .literal => some e.text
  | .member qualified => some qualified
  | .symbol qualified => some qualified
  | .unresolved => none

end Expression

/-- One ordinary argument; a named argument has a name. -/
structure Argument where
  name : Option String
  expression : Expression
  deriving DecidableEq, Repr, Inhabited

/-- An argument answers for a parameter by its name, or, when it has none, by standing at the
position of that parameter. -/
def Argument.answers (declared : List String) (parameter : String) (position : Nat)
    (argument : Argument) : Bool :=
  match argument.name with
  | some name => name == parameter
  | none => declared[position]? == some parameter

/-- A call with the form of a registration. -/
structure InvocationSite where
  /-- Simple name of the method at the call. -/
  methodName : String
  typeArguments : List TypeRef
  arguments : List Argument
  location : Location
  /-- Absent when the call was bound to no method. -/
  binding : Option MethodBinding
  deriving DecidableEq, Repr, Inhabited

namespace InvocationSite

/-- Names of the parameters of the bound method, none when there is no method. -/
def declaredParameters (site : InvocationSite) : List String :=
  match site.binding with
  | some binding => binding.parameters
  | none => []

/-- The expression of the first argument that answers for `parameter`, positions counting on
from `position`. -/
def firstAnswer (declared : List String) (parameter : String) :
    Nat → List Argument → Option Expression
  | _, [] => none
  | position, argument :: rest =>
    if argument.answers declared parameter position then some argument.expression
    else firstAnswer declared parameter (position + 1) rest

/-- The expression bound to the declared parameter `parameter`. -/
def argumentFor (site : InvocationSite) (parameter : String) : Option Expression :=
  firstAnswer site.declaredParameters parameter 0 site.arguments

end InvocationSite
end Wiring
