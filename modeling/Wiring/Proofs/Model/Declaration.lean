import Wiring.Proofs.Model.Interning

/-! Declarations. A declaration names types; given the identities of names, it says what the entry of
its type is. Filling in a type interns the names that its declaration mentions and stores just
that entry. -/
namespace Wiring

/-- The handle of a name. -/
def TypeRef.named (ids : String → SymbolId) (name : String) : TypeRef := ⟨ids name, name⟩

namespace ParameterDecl

def read (ids : String → SymbolId) (p : ParameterDecl) : Parameter :=
  ⟨p.name, .named ids p.type, p.location⟩

end ParameterDecl

namespace ConstructorDecl

/-- Names of types that a constructor mentions. -/
def mentioned (c : ConstructorDecl) : List String :=
  c.parameters.map ParameterDecl.type ++ c.attributes

def candidate (ids : String → SymbolId) (owner : TypeRef) (ordinal : Nat) (c : ConstructorDecl) :
    ConstructorCandidate where
  member := .constructor owner (UInt64.ofNat ordinal)
  parameters := c.parameters.map (ParameterDecl.read ids)
  isStatic := c.isStatic
  isSynthesized := c.isSynthesized
  location := c.location

def read (ids : String → SymbolId) (owner : TypeRef) (ordinal : Nat) (c : ConstructorDecl) :
    ConstructorEntry where
  candidate := c.candidate ids owner ordinal
  accessibility := c.accessibility
  attributes := c.attributes.map (TypeRef.named ids)

end ConstructorDecl

namespace PropertyDecl

/-- Names of types that a property mentions. -/
def mentioned (p : PropertyDecl) : List String := p.type :: p.attributes

def candidate (ids : String → SymbolId) (owner : TypeRef) (p : PropertyDecl) :
    PropertyCandidate where
  owner
  name := p.name
  type := .named ids p.type
  hasSetter := p.setter.isSome
  location := p.location
  setterLocation := p.setterLocation

def read (ids : String → SymbolId) (owner : TypeRef) (p : PropertyDecl) : PropertyEntry where
  candidate := p.candidate ids owner
  accessibility := p.accessibility
  setterAccessibility := p.setter
  attributes := p.attributes.map (TypeRef.named ids)

end PropertyDecl

namespace TypeDecl

/-- Names of types that a declaration mentions, beside its own and that of its base. -/
def mentioned (d : TypeDecl) : List String :=
  d.definition.toList ++ d.typeArguments ++ d.constructors.flatMap ConstructorDecl.mentioned ++
    d.properties.flatMap PropertyDecl.mentioned

section Mentioned

variable {d : TypeDecl} {name : String}

theorem mem_mentioned_of_definition (h : d.definition = some name) : name ∈ d.mentioned := by
  simp [mentioned, h]

theorem mem_mentioned_of_argument (h : name ∈ d.typeArguments) : name ∈ d.mentioned := by
  simp [mentioned, h]

theorem mem_mentioned_of_constructor {c : ConstructorDecl} (h : c ∈ d.constructors)
    (hname : name ∈ c.mentioned) : name ∈ d.mentioned := by
  have hmem : name ∈ d.constructors.flatMap ConstructorDecl.mentioned :=
    List.mem_flatMap.mpr ⟨c, h, hname⟩
  simp [mentioned, hmem]

theorem mem_mentioned_of_property {p : PropertyDecl} (h : p ∈ d.properties)
    (hname : name ∈ p.mentioned) : name ∈ d.mentioned := by
  have hmem : name ∈ d.properties.flatMap PropertyDecl.mentioned :=
    List.mem_flatMap.mpr ⟨p, h, hname⟩
  simp [mentioned, hmem]

theorem mem_mentioned_of_constructorAttribute {ordinal : Nat}
    (h : name ∈ d.constructors[ordinal]?.elim [] ConstructorDecl.attributes) :
    name ∈ d.mentioned := by
  cases hdeclared : d.constructors[ordinal]? with
  | none => simp [hdeclared] at h
  | some c =>
    rw [hdeclared] at h
    exact mem_mentioned_of_constructor (List.mem_of_getElem? hdeclared) (List.mem_append_right _ h)

theorem mem_mentioned_of_propertyAttribute {test : PropertyDecl → Bool}
    (h : name ∈ (d.properties.find? test).elim [] PropertyDecl.attributes) :
    name ∈ d.mentioned := by
  cases hdeclared : d.properties.find? test with
  | none => simp [hdeclared] at h
  | some p =>
    rw [hdeclared] at h
    exact mem_mentioned_of_property (List.mem_of_find?_eq_some hdeclared) (List.mem_cons_of_mem _ h)

end Mentioned

/-- Every name of a type in a declaration. -/
def names (d : TypeDecl) : List String := d.name :: d.base.toList ++ d.mentioned

theorem mem_names_of_base {d : TypeDecl} {base : String} (h : d.base = some base) :
    base ∈ d.names := by
  simp [names, h]

/-- The entry of the declared type. -/
def read (ids : String → SymbolId) (d : TypeDecl) : TypeEntry where
  name := d.name
  base := d.base.map ids
  definition := d.definition.map ids
  typeArguments := d.typeArguments.map ids
  constructors := d.constructors.zipIdx.map fun (c, ordinal) => c.read ids (.named ids d.name) ordinal
  properties := d.properties.map (PropertyDecl.read ids (.named ids d.name))

/-- The declaration of a name; a name that is not declared stands for a type without members. -/
def find (types : List TypeDecl) (name : String) : TypeDecl :=
  (types.find? fun type => type.name == name).getD { name }

end TypeDecl

/-- The site of a call. -/
def InvocationDecl.read (ids : String → SymbolId) (d : InvocationDecl) : InvocationSite where
  methodName := d.method
  typeArguments := d.typeArguments.map (TypeRef.named ids)
  arguments := d.arguments.map ArgumentDecl.toArgument
  location := d.location
  binding := d.binding

namespace SymbolModel

theorem interns_parameterOf (p : ParameterDecl) :
    Interns (parameterOf p) [p.type] fun ids => p.read ids :=
  (Interns.internRef p.type).map fun type => (⟨p.name, type, p.location⟩ : Parameter)

theorem interns_constructorEntry (owner : TypeRef) (ordinal : Nat) (c : ConstructorDecl) :
    Interns (constructorEntry owner ordinal c) c.mentioned fun ids => c.read ids owner ordinal := by
  have hparameters := Interns.mapM interns_parameterOf c.parameters
  have hattributes := Interns.mapM Interns.internRef c.attributes
  rw [← List.map_eq_flatMap] at hparameters hattributes
  rw [List.map_id'] at hattributes
  exact hparameters.bind fun _ => hattributes.map _

theorem interns_constructorEntries (owner : TypeRef) (ordinal : Nat) (cs : List ConstructorDecl) :
    Interns (constructorEntries owner ordinal cs) (cs.flatMap ConstructorDecl.mentioned) fun ids =>
      (cs.zipIdx ordinal).map fun (c, ordinal) => c.read ids owner ordinal := by
  induction cs generalizing ordinal with
  | nil => exact Interns.pure []
  | cons c rest ih =>
    exact (interns_constructorEntry owner ordinal c).bind fun entry =>
      (ih (ordinal + 1)).map (entry :: ·)

theorem interns_propertyEntry (owner : TypeRef) (p : PropertyDecl) :
    Interns (propertyEntry owner p) p.mentioned fun ids => p.read ids owner := by
  have hattributes := Interns.mapM Interns.internRef p.attributes
  rw [← List.map_eq_flatMap, List.map_id'] at hattributes
  exact (Interns.internRef p.type).bind fun _ => hattributes.map _

theorem interns_declaredEntry (owner : TypeRef) (base : Option SymbolId) (d : TypeDecl) :
    Interns (declaredEntry owner base d) d.mentioned fun ids =>
      { d.read ids with
        base
        constructors := d.constructors.zipIdx.map fun (c, ordinal) => c.read ids owner ordinal
        properties := d.properties.map (PropertyDecl.read ids owner) } := by
  have hdefinition := Interns.optionMapM Interns.intern d.definition
  have harguments := Interns.mapM Interns.intern d.typeArguments
  rw [← List.map_eq_flatMap, List.map_id'] at hdefinition harguments
  unfold TypeDecl.mentioned
  rw [List.append_assoc, List.append_assoc]
  exact hdefinition.bind fun _ => harguments.bind fun _ =>
    (interns_constructorEntries owner 0 d.constructors).bind fun _ =>
      (Interns.mapM (interns_propertyEntry owner) d.properties).map _

theorem interns_invocationSite (d : InvocationDecl) :
    Interns (invocationSite d) d.typeArguments fun ids => d.read ids := by
  have harguments := Interns.mapM Interns.internRef d.typeArguments
  rw [← List.map_eq_flatMap, List.map_id'] at harguments
  exact harguments.map fun typeArguments =>
    ({ methodName := d.method
       typeArguments
       arguments := d.arguments.map ArgumentDecl.toArgument
       location := d.location
       binding := d.binding } : InvocationSite)

end SymbolModel
end Wiring
