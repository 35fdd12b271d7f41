import Wiring.Analysis.Port
import Wiring.Model.Arena
/-! Questions about a symbol model. A handle that the model does not hold, by identity and name
together, is a type without members. -/
namespace Wiring.SymbolModel

/-- The entry of a handle of this model. -/
def entry? (m : SymbolModel) (t : TypeRef) : Option TypeEntry :=
  (m.entryAt? t.id).filter fun entry => entry.name == t.name

/-- Every constructor of the type, declared or synthesized. -/
def constructors (m : SymbolModel) (t : TypeRef) : List ConstructorCandidate :=
  match m.entry? t with
  | some entry => entry.constructors.map ConstructorEntry.candidate
  | none => []

/-- The properties declared on the type itself. -/
def properties (m : SymbolModel) (t : TypeRef) : List PropertyCandidate :=
  match m.entry? t with
  | some entry => entry.properties.map PropertyEntry.candidate
  | none => []

/-- The bases above a position, nearest first, of at most `bound` links. -/
def ancestors (m : SymbolModel) : Nat → Option SymbolId → List TypeRef
  | _, none => []
  | 0, some _ => []
  | bound + 1, some id => (m.handle? id).toList ++ m.ancestors bound (m.baseAt? id)

/-- The inheritance chain, the type itself first. No chain is longer than the arena. -/
def basesAndSelf (m : SymbolModel) (t : TypeRef) : List TypeRef :=
  t :: m.ancestors m.types.size ((m.entry? t).bind TypeEntry.base)

/-- The constructor a member names. -/
def constructorEntry? (m : SymbolModel) (owner : TypeRef) (ordinal : UInt64) :
    Option ConstructorEntry :=
  (m.entry? owner).bind fun entry => entry.constructors[ordinal.toNat]?

/-- The first property of a name. -/
def propertyEntry? (m : SymbolModel) (owner : TypeRef) (name : String) : Option PropertyEntry :=
  (m.entry? owner).bind fun entry => entry.properties.find? fun p => p.candidate.name == name

/-- Classes of the attributes applied to a member. A setter carries none of its own. -/
def attributes (m : SymbolModel) : MemberRef → List TypeRef
  | .constructor owner ordinal =>
    match m.constructorEntry? owner ordinal with
    | some entry => entry.attributes
    | none => []
  | .property owner name =>
    match m.propertyEntry? owner name with
    | some entry => entry.attributes
    | none => []
  | .propertySetter _ _ => []

/-- The type of a metadata name the compilation references. -/
def resolveWellKnown? (m : SymbolModel) (name : String) : Option TypeRef :=
  ((m.idOf? name).filter fun id => m.references.contains id).bind m.handle?

/-- Type arguments of a constructed generic type. -/
def genericArguments (m : SymbolModel) (t : TypeRef) : List TypeRef :=
  match m.entry? t with
  | some entry => entry.typeArguments.filterMap m.handle?
  | none => []

/-- The generic definition of a constructed type, or the type itself. -/
def originalDefinition (m : SymbolModel) (t : TypeRef) : TypeRef :=
  (((m.entry? t).bind TypeEntry.definition).bind m.handle?).getD t

/-- Accessibility of the setter of an entry; it is never more visible than the property. -/
def setterLevel (entry : PropertyEntry) : Accessibility :=
  match entry.setterAccessibility with
  | some setter => setter.least entry.accessibility
  | none => .privateAccess

/-- Declared accessibility of a member; a member the model does not hold is private. -/
def accessibility (m : SymbolModel) : MemberRef → Accessibility
  | .constructor owner ordinal =>
    match m.constructorEntry? owner ordinal with
    | some entry => entry.accessibility
    | none => .privateAccess
  | .property owner name =>
    match m.propertyEntry? owner name with
    | some entry => entry.accessibility
    | none => .privateAccess
  | .propertySetter owner name =>
    match m.propertyEntry? owner name with
    | some entry => setterLevel entry
    | none => .privateAccess

/-- A constructed generic type shows its arguments in angle brackets. -/
def isConstructedGeneric (name : String) : Bool := name.toList.contains '<'

/-- Constructed generic names that are mentioned but not declared. Analysis treats them as plain
types, having neither definition nor arguments for them. -/
def undeclaredGenericNames (m : SymbolModel) : List String :=
  ((m.types.toList.drop m.declared).map TypeEntry.name).filter isConstructedGeneric

/-- The answers of a model. -/
def port (m : SymbolModel) : SymbolPort where
  constructors := m.constructors
  properties := m.properties
  basesAndSelf := m.basesAndSelf
  attributes := m.attributes
  resolveWellKnown? := m.resolveWellKnown?
  genericArguments := m.genericArguments
  originalDefinition := m.originalDefinition
  accessibility := m.accessibility

instance : Coe SymbolModel SymbolPort := ⟨port⟩

section Port

variable (m : SymbolModel)

@[simp] theorem port_constructors : m.port.constructors = m.constructors := rfl

@[simp] theorem port_properties : m.port.properties = m.properties := rfl

@[simp] theorem port_basesAndSelf : m.port.basesAndSelf = m.basesAndSelf := rfl

@[simp] theorem port_attributes : m.port.attributes = m.attributes := rfl

@[simp] theorem port_resolveWellKnown? : m.port.resolveWellKnown? = m.resolveWellKnown? := rfl

@[simp] theorem port_genericArguments : m.port.genericArguments = m.genericArguments := rfl

@[simp] theorem port_originalDefinition : m.port.originalDefinition = m.originalDefinition := rfl

@[simp] theorem port_accessibility : m.port.accessibility = m.accessibility := rfl

end Port

end Wiring.SymbolModel
