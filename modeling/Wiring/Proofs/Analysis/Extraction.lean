import Wiring.Proofs.Analysis.Rejection

/-! What becomes of a call. Its form alone decides whether it is a registration; of a registration
there is a record or a rejection, as the constructor and the properties of the concrete type have it. -/
namespace Wiring

theorem CallShape.ofMethodName?_eq_some_iff {name : String} {shape : CallShape} :
    ofMethodName? name = some shape ↔ name = shape.methodName := by
  constructor
  · intro h
    unfold ofMethodName? at h
    have hfound := List.find?_some h
    exact (beq_iff_eq.mp hfound).symm
  · rintro rfl
    cases shape <;> decide

namespace InvocationSite

/-- The call has the form of a registration with methods of `registrationsType`. -/
structure IsRegistration (registrationsType : String) (site : InvocationSite) : Prop where
  methodName : site.methodName ∈ ["Register", "RegisterLazySingleton", "RegisterConstant"]
  bound : ∃ binding, site.binding = some binding ∧
    binding.containingType = registrationsType ∧ binding.isExtension = false
  arguments : site.arguments.length ≤ 2
  typeArguments : site.typeArguments.length = 1 ∨ site.typeArguments.length = 2

/-- The record of the call, once it is known what the concrete type depends on. -/
def record (site : InvocationSite) (shape : CallShape) (interface concrete : TypeRef)
    (parameters properties : List Dependency) : RegistrationRecord where
  interface := interface
  concrete := concrete
  constructorDependencies := parameters
  propertyDependencies := properties
  contract := site.contract?
  kind := site.kind shape
  location := site.location

section Form

variable {site : InvocationSite} {registrationsType : String} {shape : CallShape}
variable {interface concrete : TypeRef}

theorem shape?_eq_some_iff :
    site.shape? registrationsType = some shape ↔
      site.methodName = shape.methodName ∧
      (∃ binding, site.binding = some binding ∧
        binding.containingType = registrationsType ∧ binding.isExtension = false) ∧
      site.arguments.length ≤ 2 := by
  unfold shape?
  constructor
  · intro h
    split at h
    · rename_i binding hshape hbinding
      split at h
      · rename_i hform
        cases h
        simp only [Bool.and_eq_true, beq_iff_eq, Bool.not_eq_true', decide_eq_true_eq] at hform
        exact ⟨CallShape.ofMethodName?_eq_some_iff.mp hshape, ⟨binding, hbinding, hform.1⟩,
          hform.2⟩
      · contradiction
    · contradiction
  · rintro ⟨hmethod, ⟨binding, hbinding, htype, hextension⟩, harguments⟩
    rw [CallShape.ofMethodName?_eq_some_iff.mpr hmethod, hbinding]
    simp [htype, hextension, maxOrdinaryArguments, harguments]

theorem registeredTypes?_eq_some_iff :
    site.registeredTypes? = some (interface, concrete) ↔
      (site.typeArguments.length = 1 ∨ site.typeArguments.length = 2) ∧
      site.typeArguments.head? = some interface ∧
      site.typeArguments.getLast? = some concrete := by
  unfold registeredTypes?
  match site.typeArguments with
  | [] => simp
  | [single] => simp
  | [_, _] => simp
  | _ :: _ :: _ :: _ => simp

/-- A registration has one of the three shapes, and two types that need not differ. -/
theorem isRegistration_iff :
    site.IsRegistration registrationsType ↔ ∃ shape interface concrete,
      site.shape? registrationsType = some shape ∧
      site.registeredTypes? = some (interface, concrete) := by
  simp only [shape?_eq_some_iff, registeredTypes?_eq_some_iff]
  constructor
  · rintro ⟨hmethod, hbound, harguments, htypes⟩
    obtain ⟨shape, hshape⟩ : ∃ shape : CallShape, site.methodName = shape.methodName := by
      simp only [List.mem_cons, List.not_mem_nil, or_false] at hmethod
      rcases hmethod with h | h | h
      · exact ⟨.register, h⟩
      · exact ⟨.registerLazySingleton, h⟩
      · exact ⟨.registerConstant, h⟩
    have hne : site.typeArguments ≠ [] := by
      intro hnil
      simp [hnil] at htypes
    exact ⟨shape, _, _, ⟨hshape, hbound, harguments⟩, htypes, List.head?_eq_some_head hne,
      List.getLast?_eq_some_getLast hne⟩
  · rintro ⟨shape, _, _, ⟨hshape, hbound, harguments⟩, htypes, _, _⟩
    refine ⟨?_, hbound, harguments, htypes⟩
    rw [hshape]
    cases shape <;> simp [CallShape.methodName]

end Form
end InvocationSite

namespace Extractor

variable {e : Extractor} {site : InvocationSite} {shape : CallShape} {interface concrete : TypeRef}

theorem extract_of_not_isRegistration (h : ¬ site.IsRegistration e.registrationsType) :
    e.extract site = .ok none := by
  unfold extract
  split
  · rename_i shape interface concrete hshape htypes
    exact absurd (InvocationSite.isRegistration_iff.mpr ⟨_, _, _, hshape, htypes⟩) h
  · rfl

theorem extract_eq_map_dependencies (hshape : site.shape? e.registrationsType = some shape)
    (htypes : site.registeredTypes? = some (interface, concrete)) :
    e.extract site = (e.dependencies shape concrete site.location).map fun dependencies =>
      some (site.record shape interface concrete dependencies.1 dependencies.2) := by
  unfold extract
  rw [hshape, htypes]
  cases h : e.dependencies shape concrete site.location with
  | error rejection => simp only [h, Except.map]
  | ok dependencies =>
    simp only [h, Except.map]
    rfl

theorem exists_of_extract_eq_some {record : RegistrationRecord}
    (h : e.extract site = .ok (some record)) :
    ∃ shape interface concrete parameters properties,
      site.shape? e.registrationsType = some shape ∧
      site.registeredTypes? = some (interface, concrete) ∧
      e.dependencies shape concrete site.location = .ok (parameters, properties) ∧
      record = site.record shape interface concrete parameters properties := by
  have hregistration : site.IsRegistration e.registrationsType := by
    apply Classical.byContradiction
    intro hnot
    rw [extract_of_not_isRegistration hnot] at h
    cases h
  obtain ⟨shape, interface, concrete, hshape, htypes⟩ :=
    InvocationSite.isRegistration_iff.mp hregistration
  rw [extract_eq_map_dependencies hshape htypes] at h
  cases hdependencies : e.dependencies shape concrete site.location with
  | error rejection =>
    rw [hdependencies] at h
    cases h
  | ok dependencies =>
    rw [hdependencies] at h
    cases h
    exact ⟨shape, interface, concrete, dependencies.1, dependencies.2, hshape, htypes,
      hdependencies, rfl⟩

/-- What is to be constructed depends on the constructor that is selected, and then on the properties
that are discovered. -/
theorem dependencies_eq_bind (hshape : shape ≠ .registerConstant) (concrete : TypeRef)
    (location : Location) :
    e.dependencies shape concrete location =
      (e.model.selectConstructor e.known concrete location).bind fun selected =>
        (e.model.discoverProperties e.known concrete location).map fun properties =>
          (selected.dependencies, properties) := by
  cases shape with
  | registerConstant => contradiction
  | register | registerLazySingleton =>
    unfold dependencies
    cases e.model.selectConstructor e.known concrete location with
    | error rejection => rfl
    | ok selected => cases e.model.discoverProperties e.known concrete location <;> rfl

/-- What becomes of a registration. The instance of a constant is supplied by the caller, so nothing
of its type matters; otherwise both the constructor and the properties have to be found, and
properties are not looked for when there is no constructor. -/
structure Outcome (e : Extractor) (site : InvocationSite) (shape : CallShape)
    (interface concrete : TypeRef) : Prop where
  constant : shape = .registerConstant →
    e.extract site = .ok (some (site.record shape interface concrete [] []))
  registered : shape ≠ .registerConstant → ∀ record,
    e.extract site = .ok (some record) ↔ ∃ selected properties,
      e.model.selectConstructor e.known concrete site.location = .ok selected ∧
      e.model.discoverProperties e.known concrete site.location = .ok properties ∧
      record = site.record shape interface concrete selected.dependencies properties
  unselected : shape ≠ .registerConstant → ∀ rejection,
    e.model.selectConstructor e.known concrete site.location = .error rejection →
    e.extract site = .error rejection
  undiscovered : shape ≠ .registerConstant → ∀ selected rejection,
    e.model.selectConstructor e.known concrete site.location = .ok selected →
    e.model.discoverProperties e.known concrete site.location = .error rejection →
    e.extract site = .error rejection

theorem outcome (hshape : site.shape? e.registrationsType = some shape)
    (htypes : site.registeredTypes? = some (interface, concrete)) :
    e.Outcome site shape interface concrete := by
  have hextract := extract_eq_map_dependencies hshape htypes
  constructor
  case constant =>
    rintro rfl
    exact hextract
  case registered =>
    intro hne record
    rw [hextract, dependencies_eq_bind hne]
    cases e.model.selectConstructor e.known concrete site.location with
    | error rejection => simp [Except.bind, Except.map]
    | ok selected =>
      cases e.model.discoverProperties e.known concrete site.location with
      | error rejection => simp [Except.bind, Except.map]
      | ok properties => simp [Except.bind, Except.map, eq_comm]
  case unselected =>
    intro hne rejection hselect
    rw [hextract, dependencies_eq_bind hne, hselect]
    rfl
  case undiscovered =>
    intro hne selected rejection hselect hdiscover
    rw [hextract, dependencies_eq_bind hne, hselect, hdiscover]
    rfl

/-- A call is passed over exactly when it has not the form of a registration, whatever the model
says. Otherwise there is a record, or a rejection with errors and nothing else. -/
theorem extract_outcome (e : Extractor) (site : InvocationSite) :
    (e.extract site = .ok none ↔ ¬ site.IsRegistration e.registrationsType) ∧
    (site.IsRegistration e.registrationsType → ∃ shape interface concrete,
      site.methodName = shape.methodName ∧ site.typeArguments.head? = some interface ∧
      site.typeArguments.getLast? = some concrete ∧ e.Outcome site shape interface concrete) ∧
    ∀ rejection, e.extract site = .error rejection →
      rejection ≠ [] ∧ ∀ d ∈ rejection, d.isError = true := by
  refine ⟨⟨?_, extract_of_not_isRegistration⟩, ?_, ?_⟩
  · intro hskip hregistration
    obtain ⟨shape, interface, concrete, hshape, htypes⟩ :=
      InvocationSite.isRegistration_iff.mp hregistration
    rw [extract_eq_map_dependencies hshape htypes] at hskip
    cases hdependencies : e.dependencies shape concrete site.location <;>
      simp [hdependencies, Except.map] at hskip
  · intro hregistration
    obtain ⟨shape, interface, concrete, hshape, htypes⟩ :=
      InvocationSite.isRegistration_iff.mp hregistration
    obtain ⟨hmethod, _⟩ := InvocationSite.shape?_eq_some_iff.mp hshape
    obtain ⟨_, hinterface, hconcrete⟩ := InvocationSite.registeredTypes?_eq_some_iff.mp htypes
    exact ⟨shape, interface, concrete, hmethod, hinterface, hconcrete, outcome hshape htypes⟩
  · intro rejection hrejected
    have hreports := reports_of_extract hrejected
    exact ⟨hreports.nonempty, hreports.errors⟩

end Extractor
end Wiring
