import Wiring.Failure
import Wiring.Model.Document
/-! The symbol model: an arena of types, found by position or by name. Declared types come first,
in declaration order; a name that is only mentioned is interned after them as a bare type. -/
namespace Wiring

structure ConstructorEntry where
  candidate : ConstructorCandidate
  accessibility : Accessibility
  /-- Classes of the attributes applied. -/
  attributes : List TypeRef
  deriving DecidableEq, Repr, Inhabited

structure PropertyEntry where
  candidate : PropertyCandidate
  accessibility : Accessibility
  setterAccessibility : Option Accessibility
  /-- Classes of the attributes applied. -/
  attributes : List TypeRef
  deriving DecidableEq, Repr, Inhabited

structure TypeEntry where
  name : String
  base : Option SymbolId := none
  definition : Option SymbolId := none
  typeArguments : List SymbolId := []
  constructors : List ConstructorEntry := []
  properties : List PropertyEntry := []
  deriving DecidableEq, Repr, Inhabited

/-- The identities of names that are met one after the other. -/
def identities (names : List String) : List (String × SymbolId) :=
  (names.zipIdx.map fun (name, position) => (name, UInt32.ofNat position)).reverse

structure SymbolModel where
  types : Array TypeEntry := #[]
  /-- Types the compilation references as well-known. -/
  references : List SymbolId := []
  /-- Positions below this hold declared types. -/
  declared : Nat := 0
  /-- Identities by name, those given out last first. -/
  index : List (String × SymbolId) := identities (types.toList.map TypeEntry.name)
  deriving DecidableEq, Repr, Inhabited

namespace SymbolModel

/-- Position of the type called `name`. -/
def idOf? (m : SymbolModel) (name : String) : Option SymbolId := m.index.lookup name

/-- The entry at a position. -/
def entryAt? (m : SymbolModel) (id : SymbolId) : Option TypeEntry := m.types[id.toNat]?

/-- Handle of the type at a position. -/
def handle? (m : SymbolModel) (id : SymbolId) : Option TypeRef :=
  (m.entryAt? id).map fun entry => ⟨id, entry.name⟩

/-- Handle of the type called `name`. -/
def typeRef? (m : SymbolModel) (name : String) : Option TypeRef :=
  (m.idOf? name).bind m.handle?

/-- Number of types, interned ones included. -/
def size (m : SymbolModel) : Nat := m.types.size

/-- Appends a bare type, under the next identity. -/
def push (m : SymbolModel) (name : String) : SymbolModel :=
  { m with
    types := m.types.push { name }
    index := (name, UInt32.ofNat m.types.size) :: m.index }

/-- The identity of `name`, given out now if the model has not met it. -/
def intern (name : String) : StateM SymbolModel SymbolId := fun m =>
  match m.idOf? name with
  | some id => (id, m)
  | none => (UInt32.ofNat m.types.size, m.push name)

/-- As `intern`, giving a handle. -/
def internRef (name : String) : StateM SymbolModel TypeRef := do
  return ⟨← intern name, name⟩

def parameterOf (p : ParameterDecl) : StateM SymbolModel Parameter := do
  return ⟨p.name, ← internRef p.type, p.location⟩

/-- Parameter types are met before attribute classes. -/
def constructorEntry (owner : TypeRef) (ordinal : Nat) (c : ConstructorDecl) :
    StateM SymbolModel ConstructorEntry := do
  let parameters ← c.parameters.mapM parameterOf
  let attributes ← c.attributes.mapM internRef
  return {
    candidate := {
      member := .constructor owner (UInt64.ofNat ordinal)
      parameters
      isStatic := c.isStatic
      isSynthesized := c.isSynthesized
      location := c.location }
    accessibility := c.accessibility
    attributes }

/-- The constructors of a type, numbered from `ordinal`. -/
def constructorEntries (owner : TypeRef) :
    Nat → List ConstructorDecl → StateM SymbolModel (List ConstructorEntry)
  | _, [] => return []
  | ordinal, c :: rest => do
    let entry ← constructorEntry owner ordinal c
    return entry :: (← constructorEntries owner (ordinal + 1) rest)

/-- The property type is met before attribute classes. -/
def propertyEntry (owner : TypeRef) (p : PropertyDecl) : StateM SymbolModel PropertyEntry := do
  let type ← internRef p.type
  let attributes ← p.attributes.mapM internRef
  return {
    candidate := {
      owner
      name := p.name
      type
      hasSetter := p.setter.isSome
      location := p.location
      setterLocation := p.setterLocation }
    accessibility := p.accessibility
    setterAccessibility := p.setter
    attributes }

/-- What the declaration of a type says, in the order in which it is read. -/
def declaredEntry (owner : TypeRef) (base : Option SymbolId) (d : TypeDecl) :
    StateM SymbolModel TypeEntry := do
  let definition ← d.definition.mapM intern
  let typeArguments ← d.typeArguments.mapM intern
  let constructors ← constructorEntries owner 0 d.constructors
  let properties ← d.properties.mapM (propertyEntry owner)
  return { name := d.name, base, definition, typeArguments, constructors, properties }

/-- The identity of the base of `d`. A base has to be declared; a type that is only mentioned has
its place after the declared ones. -/
def declaredBase (m : SymbolModel) (d : TypeDecl) : Except Failure (Option SymbolId) :=
  match d.base with
  | none => .ok none
  | some base =>
    match (m.idOf? base).filter fun id => id.toNat < m.declared with
    | some id => .ok (some id)
    | none => .error (.undeclaredBase d.name base)

/-- Replaces the entry at a position, which keeps its name. -/
def fill (m : SymbolModel) (id : SymbolId) (entry : TypeEntry) : SymbolModel :=
  { m with types := m.types.modify id.toNat fun bare => { entry with name := bare.name } }

/-- Gives a declared type its place; its name must be new. -/
def announce (m : SymbolModel) (d : TypeDecl) : Except Failure SymbolModel :=
  match m.idOf? d.name with
  | some _ => .error (.duplicateType d.name)
  | none => .ok (m.push d.name)

/-- Fills in a declared type, which has its place already. -/
def declare (m : SymbolModel) (d : TypeDecl) : Except Failure SymbolModel :=
  let (owner, m) := (internRef d.name).run m
  match m.declaredBase d with
  | .error failure => .error failure
  | .ok base =>
    let (entry, m) := (declaredEntry owner base d).run m
    .ok (m.fill owner.id entry)

/-- The base at a position. -/
def baseAt? (m : SymbolModel) (id : SymbolId) : Option SymbolId :=
  (m.entryAt? id).bind TypeEntry.base

/-- Whether the chain of bases that goes on at `next` comes to a position seen before. There is no
answer from a chain of more than `bound` links; but with every link a position is seen, so there
are never more of them than types. -/
def returns? (m : SymbolModel) : Nat → List Nat → Option SymbolId → Option Bool
  | _, _, none => some false
  | 0, _, some _ => none
  | bound + 1, seen, some id =>
    if id.toNat ∈ seen then some true
    else m.returns? bound (id.toNat :: seen) (m.baseAt? id)

/-- Whether the chain of bases above a type, given with its position, comes back on itself. -/
def leadsBack (m : SymbolModel) (placed : TypeEntry × Nat) : Bool :=
  m.returns? m.size [placed.2] placed.1.base == some true

/-- Refuses a chain of bases that comes back on itself, by the first type that leads into one. -/
def checkInheritance (m : SymbolModel) : Except Failure Unit :=
  match m.types.toList.zipIdx.find? m.leadsBack with
  | some (entry, _) => .error (.inheritanceCycle entry.name)
  | none => .ok ()

/-- Records a well-known name as referenced. -/
def refer (name : String) : StateM SymbolModel Unit := do
  let id ← intern name
  modify fun m => { m with references := id :: m.references }

/-- The site of a call, whose type arguments become known to the model. -/
def invocationSite (d : InvocationDecl) : StateM SymbolModel InvocationSite := do
  let typeArguments ← d.typeArguments.mapM internRef
  return {
    methodName := d.method
    typeArguments
    arguments := d.arguments.map ArgumentDecl.toArgument
    location := d.location
    binding := d.binding }

/-- The model of a document. All declared types get their places before any is filled in. -/
def ofDocument (d : ModelDocument) : Except Failure SymbolModel := do
  let bare ← d.types.foldlM announce {}
  let model ← d.types.foldlM declare { bare with declared := bare.size }
  model.checkInheritance
  return ((d.references.forM refer).run model).2

/-- The model of a document and the sites of its calls, bound to that model. -/
def load (d : ModelDocument) : Except Failure (SymbolModel × List InvocationSite) := do
  let model ← ofDocument d
  let (sites, model) := (d.invocations.mapM invocationSite).run model
  return (model, sites)

end SymbolModel
end Wiring
