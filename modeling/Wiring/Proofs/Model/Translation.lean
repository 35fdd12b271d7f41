import Wiring.Analysis.KnownSymbols
import Wiring.Proofs.Model.Consistency

/-! Two models of the same declarations. They may give types different identities and know
different references; but every answer of the one is the answer of the other with its handles
translated, and a well-known type is recognized by its name in both. -/
namespace Wiring

def Parameter.mapTypes (φ : TypeRef → TypeRef) (p : Parameter) : Parameter :=
  { p with type := φ p.type }

def MemberRef.mapTypes (φ : TypeRef → TypeRef) : MemberRef → MemberRef
  | .constructor owner ordinal => .constructor (φ owner) ordinal
  | .property owner name => .property (φ owner) name
  | .propertySetter owner name => .propertySetter (φ owner) name

def ConstructorCandidate.mapTypes (φ : TypeRef → TypeRef) (c : ConstructorCandidate) :
    ConstructorCandidate :=
  { c with member := c.member.mapTypes φ, parameters := c.parameters.map (Parameter.mapTypes φ) }

def PropertyCandidate.mapTypes (φ : TypeRef → TypeRef) (p : PropertyCandidate) :
    PropertyCandidate :=
  { p with owner := φ p.owner, type := φ p.type }

def InvocationSite.mapTypes (φ : TypeRef → TypeRef) (site : InvocationSite) : InvocationSite :=
  { site with typeArguments := site.typeArguments.map φ }

/-- About handles in `K`, `m'` answers as `m` does, with all handles translated by `φ`. -/
structure Translates (φ : TypeRef → TypeRef) (K : TypeRef → Prop) (m m' : SymbolPort) :
    Prop where
  closed : m.Closed K
  name_eq : ∀ t, (φ t).name = t.name
  constructors : ∀ t, K t →
    m'.constructors (φ t) = (m.constructors t).map (ConstructorCandidate.mapTypes φ)
  properties : ∀ t, K t →
    m'.properties (φ t) = (m.properties t).map (PropertyCandidate.mapTypes φ)
  attributes : ∀ member, K member.owner →
    m'.attributes (member.mapTypes φ) = (m.attributes member).map φ
  accessibility : ∀ member, K member.owner →
    m'.accessibility (member.mapTypes φ) = m.accessibility member
  basesAndSelf : ∀ t, K t → m'.basesAndSelf (φ t) = (m.basesAndSelf t).map φ
  genericArguments : ∀ t, K t → m'.genericArguments (φ t) = (m.genericArguments t).map φ
  originalDefinition : ∀ t, K t → m'.originalDefinition (φ t) = φ (m.originalDefinition t)
  recognizes : ∀ wellKnown t, K t →
    (KnownSymbol.resolve m' wellKnown).recognizes (φ t) =
      (KnownSymbol.resolve m wellKnown).recognizes t

theorem ConstructorDecl.mapTypes_candidate {ids ids' : String → SymbolId}
    {φ : TypeRef → TypeRef} {owner owner' : TypeRef} {ordinal : Nat} {c : ConstructorDecl}
    (howner : φ owner = owner')
    (hφ : ∀ name ∈ c.mentioned, φ (.named ids name) = .named ids' name) :
    (c.candidate ids owner ordinal).mapTypes φ = c.candidate ids' owner' ordinal := by
  have hparameters : (c.parameters.map (ParameterDecl.read ids)).map (Parameter.mapTypes φ) =
      c.parameters.map (ParameterDecl.read ids') := by
    rw [List.map_map]
    refine List.map_congr_left fun p hp => ?_
    exact congrArg (Parameter.mk p.name · p.location)
      (hφ p.type (List.mem_append_left _ (List.mem_map_of_mem hp)))
  unfold candidate ConstructorCandidate.mapTypes
  rw [hparameters]
  exact congrArg (fun owner => ConstructorCandidate.mk (.constructor owner _) _ _ _ _) howner

theorem PropertyDecl.mapTypes_candidate {ids ids' : String → SymbolId} {φ : TypeRef → TypeRef}
    {owner owner' : TypeRef} {p : PropertyDecl} (howner : φ owner = owner')
    (hφ : φ (.named ids p.type) = .named ids' p.type) :
    (p.candidate ids owner).mapTypes φ = p.candidate ids' owner' := by
  unfold candidate PropertyCandidate.mapTypes
  rw [howner, hφ]

namespace TypeDecl

variable {types types' : List TypeDecl}

theorem Chain.of_find_eq (hfind : ∀ name, find types name = find types' name)
    {next : Option String} {chain : List String} (h : Chain types next chain) :
    Chain types' next chain := by
  induction h with
  | root => exact .root
  | step _ ih => exact .step (hfind _ ▸ ih)

end TypeDecl

namespace SymbolModel

/-- A type is recognized as well-known by its name, whether or not the name is referenced. -/
theorem Holds.recognizes_handleOf {m : SymbolModel} {d : ModelDocument}
    {calls : List InvocationDecl} (h : m.Holds d calls) (wellKnown : String) {name : String}
    (hname : name ∈ m.names) :
    (KnownSymbol.resolve m wellKnown).recognizes (m.handleOf name) = (name == wellKnown) := by
  unfold KnownSymbol.resolve KnownSymbol.recognizes
  rw [port_resolveWellKnown?, h.resolveWellKnown?_eq]
  by_cases hreferred : wellKnown ∈ d.references
  · have hknown : wellKnown ∈ m.names := h.mem_names_of_reference hreferred
    rw [if_pos hreferred]
    change (m.ids wellKnown == m.ids name) = (name == wellKnown)
    rw [Bool.eq_iff_iff, beq_iff_eq, beq_iff_eq]
    -- names that are known have one identity only if they are one
    constructor
    · exact fun heq => (h.represents.ids_injective hknown hname heq).symm
    · rintro rfl
      rfl
  · rw [if_neg hreferred]
    rfl

/-- Models of documents that declare the same, and names that both models know. These hold all
that is declared, and `φ` takes the handle of one in `m` to that in `m'`. -/
structure Corresponds (m m' : SymbolModel) (d d' : ModelDocument)
    (calls calls' : List InvocationDecl) (S : String → Prop) (φ : TypeRef → TypeRef) : Prop where
  left : m.Holds d calls
  right : m'.Holds d' calls'
  find_eq : ∀ name, TypeDecl.find d.types name = TypeDecl.find d'.types name
  mem_left : ∀ name, S name → name ∈ m.names
  mem_right : ∀ name, S name → name ∈ m'.names
  declared : ∀ type ∈ d.types, ∀ name ∈ type.names, S name
  handleOf_eq : ∀ name, S name → φ (m.handleOf name) = m'.handleOf name
  name_eq : ∀ t, (φ t).name = t.name

namespace Corresponds

variable {m m' : SymbolModel} {d d' : ModelDocument} {calls calls' : List InvocationDecl}
variable {S : String → Prop} {φ : TypeRef → TypeRef} {name : String}

theorem of_mentioned (h : Corresponds m m' d d' calls calls' S φ) (hname : S name)
    {other : String} (hother : other ∈ (TypeDecl.find d.types name).mentioned) : S other :=
  TypeDecl.forall_mem_names_find h.declared hname other (List.mem_append_right _ hother)

theorem map_handleOf (h : Corresponds m m' d d' calls calls' S φ) {names : List String}
    (hnames : ∀ name ∈ names, S name) :
    names.map m'.handleOf = (names.map m.handleOf).map φ := by
  rw [List.map_map]
  exact List.map_congr_left fun name hmem => (h.handleOf_eq name (hnames name hmem)).symm

theorem constructors_eq (h : Corresponds m m' d d' calls calls' S φ) (hname : S name) :
    m'.constructors (m'.handleOf name) =
      (m.constructors (m.handleOf name)).map (ConstructorCandidate.mapTypes φ) := by
  rw [h.right.represents.constructors_handleOf (h.mem_right name hname),
    h.left.represents.constructors_handleOf (h.mem_left name hname), ← h.find_eq, List.map_map]
  refine List.map_congr_left fun ⟨c, ordinal⟩ hc => ?_
  refine (ConstructorDecl.mapTypes_candidate (h.handleOf_eq name hname) fun other hother => ?_).symm
  exact h.handleOf_eq other (h.of_mentioned hname
    (TypeDecl.mem_mentioned_of_constructor (List.fst_mem_of_mem_zipIdx hc) hother))

theorem properties_eq (h : Corresponds m m' d d' calls calls' S φ) (hname : S name) :
    m'.properties (m'.handleOf name) =
      (m.properties (m.handleOf name)).map (PropertyCandidate.mapTypes φ) := by
  rw [h.right.represents.properties_handleOf (h.mem_right name hname),
    h.left.represents.properties_handleOf (h.mem_left name hname), ← h.find_eq, List.map_map]
  refine List.map_congr_left fun p hp => ?_
  refine (PropertyDecl.mapTypes_candidate (h.handleOf_eq name hname) ?_).symm
  exact h.handleOf_eq p.type (h.of_mentioned hname
    (TypeDecl.mem_mentioned_of_property hp List.mem_cons_self))

theorem attributes_eq (h : Corresponds m m' d d' calls calls' S φ) (member : MemberRef)
    (howner : m.HandleIn S member.owner) :
    m'.attributes (member.mapTypes φ) = (m.attributes member).map φ := by
  obtain ⟨name, hname, heq⟩ := howner
  have hφ : φ member.owner = m'.handleOf name := by rw [heq, h.handleOf_eq name hname]
  cases member with
  | constructor owner ordinal =>
    change m'.attributes (.constructor (φ owner) ordinal) = _
    rw [show φ owner = _ from hφ, show owner = _ from heq,
      h.right.represents.attributes_constructor_handleOf (h.mem_right name hname),
      h.left.represents.attributes_constructor_handleOf (h.mem_left name hname), ← h.find_eq]
    exact h.map_handleOf fun _ hother =>
      h.of_mentioned hname (TypeDecl.mem_mentioned_of_constructorAttribute hother)
  | property owner property =>
    change m'.attributes (.property (φ owner) property) = _
    rw [show φ owner = _ from hφ, show owner = _ from heq,
      h.right.represents.attributes_property_handleOf (h.mem_right name hname),
      h.left.represents.attributes_property_handleOf (h.mem_left name hname), ← h.find_eq]
    exact h.map_handleOf fun _ hother =>
      h.of_mentioned hname (TypeDecl.mem_mentioned_of_propertyAttribute hother)
  | propertySetter owner property => rfl

theorem accessibility_eq (h : Corresponds m m' d d' calls calls' S φ) (member : MemberRef)
    (howner : m.HandleIn S member.owner) :
    m'.accessibility (member.mapTypes φ) = m.accessibility member := by
  obtain ⟨name, hname, heq⟩ := howner
  have hφ : φ member.owner = m'.handleOf name := by rw [heq, h.handleOf_eq name hname]
  have hleft : name ∈ m.names := h.mem_left name hname
  have hright : name ∈ m'.names := h.mem_right name hname
  cases member with
  | constructor owner ordinal =>
    change m'.accessibility (.constructor (φ owner) ordinal) = _
    rw [show φ owner = _ from hφ, show owner = _ from heq,
      h.right.represents.accessibility_constructor_handleOf hright,
      h.left.represents.accessibility_constructor_handleOf hleft, ← h.find_eq]
  | property owner property =>
    change m'.accessibility (.property (φ owner) property) = _
    rw [show φ owner = _ from hφ, show owner = _ from heq,
      h.right.represents.accessibility_property_handleOf hright,
      h.left.represents.accessibility_property_handleOf hleft, ← h.find_eq]
  | propertySetter owner property =>
    change m'.accessibility (.propertySetter (φ owner) property) = _
    rw [show φ owner = _ from hφ, show owner = _ from heq,
      h.right.represents.accessibility_propertySetter_handleOf hright,
      h.left.represents.accessibility_propertySetter_handleOf hleft, ← h.find_eq]

/-- The chains of bases in the two models are one chain of declarations. -/
theorem exists_basesAndSelf_eq (h : Corresponds m m' d d' calls calls' S φ) (hname : S name) :
    ∃ chain : List String, (∀ base ∈ chain, S base) ∧
      m.basesAndSelf (m.handleOf name) = chain.map m.handleOf ∧
      m'.basesAndSelf (m'.handleOf name) = chain.map m'.handleOf := by
  obtain ⟨chain, hchain, heq⟩ :=
    h.left.represents.exists_basesAndSelf_eq h.left.acyclic (h.mem_left name hname)
  obtain ⟨chain', hchain', heq'⟩ :=
    h.right.represents.exists_basesAndSelf_eq h.right.acyclic (h.mem_right name hname)
  rw [← h.find_eq] at hchain'
  obtain rfl : chain = chain' := (hchain.of_find_eq h.find_eq).unique hchain'
  refine ⟨name :: chain, List.forall_mem_cons.mpr ⟨hname, ?_⟩, heq, heq'⟩
  exact hchain.forall_mem h.declared fun base hbase =>
    TypeDecl.forall_mem_names_find h.declared hname base (TypeDecl.mem_names_of_base hbase)

theorem originalDefinition_mem (h : Corresponds m m' d d' calls calls' S φ) (hname : S name) :
    S ((TypeDecl.find d.types name).definition.getD name) := by
  cases hdefinition : (TypeDecl.find d.types name).definition with
  | none => exact hname
  | some definition =>
    exact h.of_mentioned hname (TypeDecl.mem_mentioned_of_definition hdefinition)

theorem translates (h : Corresponds m m' d d' calls calls' S φ) :
    Translates φ (m.HandleIn S) m m' where
  closed := h.left.represents.closed h.left.acyclic h.mem_left h.declared
  name_eq := h.name_eq
  constructors := by
    rintro _ ⟨name, hname, rfl⟩
    rw [h.handleOf_eq name hname]
    exact h.constructors_eq hname
  properties := by
    rintro _ ⟨name, hname, rfl⟩
    rw [h.handleOf_eq name hname]
    exact h.properties_eq hname
  attributes := h.attributes_eq
  accessibility := h.accessibility_eq
  basesAndSelf := by
    rintro _ ⟨name, hname, rfl⟩
    obtain ⟨chain, hchain, heq, heq'⟩ := h.exists_basesAndSelf_eq hname
    rw [port_basesAndSelf, port_basesAndSelf, h.handleOf_eq name hname, heq', heq,
      h.map_handleOf hchain]
  genericArguments := by
    rintro _ ⟨name, hname, rfl⟩
    rw [port_genericArguments, port_genericArguments, h.handleOf_eq name hname,
      h.right.represents.genericArguments_handleOf (h.mem_right name hname),
      h.left.represents.genericArguments_handleOf (h.mem_left name hname), ← h.find_eq]
    exact h.map_handleOf fun _ hother =>
      h.of_mentioned hname (TypeDecl.mem_mentioned_of_argument hother)
  originalDefinition := by
    rintro _ ⟨name, hname, rfl⟩
    rw [port_originalDefinition, port_originalDefinition, h.handleOf_eq name hname,
      h.right.represents.originalDefinition_handleOf (h.mem_right name hname),
      h.left.represents.originalDefinition_handleOf (h.mem_left name hname), ← h.find_eq]
    exact (h.handleOf_eq _ (h.originalDefinition_mem hname)).symm
  recognizes := by
    rintro wellKnown _ ⟨name, hname, rfl⟩
    rw [h.handleOf_eq name hname, h.right.recognizes_handleOf wellKnown (h.mem_right name hname),
      h.left.recognizes_handleOf wellKnown (h.mem_left name hname)]

end Corresponds
end SymbolModel
end Wiring
