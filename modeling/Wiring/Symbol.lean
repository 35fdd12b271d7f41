/-! Handles into a symbol model: types, their members, and where they are declared. A handle
carries an identity and a display name only; what it stands for is asked of the model. -/
namespace Wiring

/-- Identity of a symbol inside one symbol model. -/
abbrev SymbolId := UInt32

/-- Handle of a declared or constructed type. -/
structure TypeRef where
  id : SymbolId
  /-- Fully qualified display name. -/
  name : String
  deriving DecidableEq, Repr, Inhabited

/-- Two handles name one symbol when their identities agree, whatever their display names. -/
def TypeRef.isSameSymbol (a b : TypeRef) : Bool := a.id == b.id

/-- Declared accessibility, from least to most accessible. -/
inductive Accessibility where
  | privateAccess | protectedAccess | internalAccess | publicAccess
  deriving DecidableEq, Repr, Inhabited

namespace Accessibility

/-- Position in the order from least to most accessible. -/
def rank : Accessibility → Nat
  | .privateAccess => 0
  | .protectedAccess => 1
  | .internalAccess => 2
  | .publicAccess => 3

/-- The less accessible of two. -/
def least (a b : Accessibility) : Accessibility := if a.rank ≤ b.rank then a else b

/-- Injection reaches members that are `internal` or `public`. -/
def isAtLeastInternal (a : Accessibility) : Bool := internalAccess.rank ≤ a.rank

theorem isAtLeastInternal_iff (a : Accessibility) :
    a.isAtLeastInternal = true ↔ a ∈ [internalAccess, publicAccess] := by
  cases a <;> decide

/-- The keyword of the level. -/
def text : Accessibility → String
  | .privateAccess => "private"
  | .protectedAccess => "protected"
  | .internalAccess => "internal"
  | .publicAccess => "public"

end Accessibility

/-- A place in a source file; lines and columns count from one. -/
structure Location where
  file : String
  line : UInt32
  column : UInt32
  deriving DecidableEq, Repr, Inhabited

/-- `file:line:column`. -/
def Location.text (l : Location) : String :=
  l.file ++ ":" ++ toString l.line.toNat ++ ":" ++ toString l.column.toNat

/-- A member that can carry attributes and accessibility. -/
inductive MemberRef where
  /-- A constructor, by its position among the constructors of its owner. -/
  | constructor (owner : TypeRef) (ordinal : UInt64)
  | property (owner : TypeRef) (name : String)
  /-- The setter accessor of a property. -/
  | propertySetter (owner : TypeRef) (name : String)
  deriving DecidableEq, Repr, Inhabited

def MemberRef.owner : MemberRef → TypeRef
  | .constructor owner _ => owner
  | .property owner _ => owner
  | .propertySetter owner _ => owner

/-- One declared constructor parameter. -/
structure Parameter where
  name : String
  type : TypeRef
  location : Option Location
  deriving DecidableEq, Repr, Inhabited

/-- One constructor of a concrete type. -/
structure ConstructorCandidate where
  member : MemberRef
  parameters : List Parameter
  isStatic : Bool
  /-- Generated by the host compiler rather than declared in source. -/
  isSynthesized : Bool
  location : Option Location
  deriving DecidableEq, Repr, Inhabited

/-- One property declared on a type. -/
structure PropertyCandidate where
  owner : TypeRef
  name : String
  type : TypeRef
  hasSetter : Bool
  location : Option Location
  setterLocation : Option Location
  deriving DecidableEq, Repr, Inhabited

namespace PropertyCandidate

def member (p : PropertyCandidate) : MemberRef := .property p.owner p.name

def setter (p : PropertyCandidate) : MemberRef := .propertySetter p.owner p.name

/-- `Owner.Property`. -/
def qualifiedName (p : PropertyCandidate) : String := p.owner.name ++ "." ++ p.name

end PropertyCandidate
end Wiring
