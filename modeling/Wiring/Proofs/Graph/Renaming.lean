import Mathlib.Data.List.Basic
import Wiring.Proofs.Emission.Rendering
import Wiring.Graph.Validation

/-! Registrations with other handles for their types. Validation and emission read the names of
types only; where these stay, the same records are kept, the same is reported, and the same code
is written. -/
namespace Wiring

/-- The handle without its identity. -/
def TypeRef.nameOnly (t : TypeRef) : TypeRef := { t with id := 0 }

def DependencyKind.mapTypes (φ : TypeRef → TypeRef) : DependencyKind → DependencyKind
  | .plain t => .plain (φ t)
  | .deferred t => .deferred (φ t)
  | .collectionOf t => .collectionOf (φ t)

def Dependency.mapTypes (φ : TypeRef → TypeRef) (d : Dependency) : Dependency :=
  { d with kind := d.kind.mapTypes φ }

def RegistrationRecord.mapTypes (φ : TypeRef → TypeRef) (r : RegistrationRecord) :
    RegistrationRecord :=
  { r with
    interface := φ r.interface
    concrete := φ r.concrete
    constructorDependencies := r.constructorDependencies.map (Dependency.mapTypes φ)
    propertyDependencies := r.propertyDependencies.map (Dependency.mapTypes φ) }

def Graph.ReturnPath.mapTypes (φ : TypeRef → TypeRef) (p : ReturnPath) : ReturnPath :=
  { p with dependency := p.dependency.mapTypes φ }

variable {φ : TypeRef → TypeRef} (hname : ∀ t, (φ t).name = t.name)
include hname

namespace DependencyKind

theorem plainName?_mapTypes (k : DependencyKind) : (k.mapTypes φ).plainName? = k.plainName? := by
  cases k with
  | plain t => exact congrArg some (hname t)
  | deferred t => rfl
  | collectionOf t => rfl

theorem deferredName?_mapTypes (k : DependencyKind) :
    (k.mapTypes φ).deferredName? = k.deferredName? := by
  cases k with
  | plain t => rfl
  | deferred t => exact congrArg some (hname t)
  | collectionOf t => rfl

theorem name_target_mapTypes (k : DependencyKind) :
    (k.mapTypes φ).target.name = k.target.name := by
  cases k <;> exact hname _

end DependencyKind

namespace Graph

variable (records : List RegistrationRecord)

section Edges

theorem lookup_map_mapTypes (name : String) :
    lookup (records.map (RegistrationRecord.mapTypes φ)) name =
      (lookup records name).map (RegistrationRecord.mapTypes φ) := by
  have hkey : (fun r : RegistrationRecord => r.key == name) ∘ RegistrationRecord.mapTypes φ =
      fun r => r.key == name := funext fun r => congrArg (· == name) (hname r.interface)
  unfold lookup
  rw [List.find?_map, hkey]

theorem plainNames_mapTypes (r : RegistrationRecord) : plainNames (r.mapTypes φ) = plainNames r := by
  unfold plainNames RegistrationRecord.mapTypes
  rw [List.filterMap_map]
  exact List.filterMap_congr fun d _ => d.kind.plainName?_mapTypes hname

theorem successors_map_mapTypes :
    successors (records.map (RegistrationRecord.mapTypes φ)) = successors records := by
  have hregistered : isRegistered (records.map (RegistrationRecord.mapTypes φ)) =
      isRegistered records := by
    funext name
    unfold isRegistered
    rw [lookup_map_mapTypes hname, Option.isSome_map]
  funext name
  unfold successors
  rw [lookup_map_mapTypes hname, hregistered]
  cases lookup records name with
  | none => rfl
  | some r => exact congrArg (List.filter _) (plainNames_mapTypes hname r)

theorem way?_map_mapTypes (detection : CycleDetection) (source target : String) :
    way? (records.map (RegistrationRecord.mapTypes φ)) detection source target =
      way? records detection source target := by
  unfold way?
  rw [successors_map_mapTypes hname, List.length_map]

end Edges

section Checks

variable (detection : CycleDetection) (r : RegistrationRecord)

theorem returnPath?_map_mapTypes (d : Dependency) :
    returnPath? (records.map (RegistrationRecord.mapTypes φ)) detection (r.mapTypes φ)
        (d.mapTypes φ) =
      (returnPath? records detection r d).map (ReturnPath.mapTypes φ) := by
  have hkey : (r.mapTypes φ).key = r.key := hname r.interface
  have hplain : (d.mapTypes φ).kind.plainName? = d.kind.plainName? :=
    d.kind.plainName?_mapTypes hname
  unfold returnPath?
  rw [hplain]
  cases d.kind.plainName? with
  | none => rfl
  | some name =>
    rw [Option.bind_some, Option.bind_some, hkey, way?_map_mapTypes hname, Option.map_map]
    rfl

theorem returnPaths_map_mapTypes :
    returnPaths (records.map (RegistrationRecord.mapTypes φ)) detection (r.mapTypes φ) =
      (returnPaths records detection r).map (ReturnPath.mapTypes φ) := by
  unfold returnPaths
  rw [List.map_filterMap]
  change List.filterMap _ (r.constructorDependencies.map (Dependency.mapTypes φ)) = _
  rw [List.filterMap_map]
  exact List.filterMap_congr fun d _ => returnPath?_map_mapTypes hname records detection r d

theorem isLazyMismatch_map_mapTypes (d : Dependency) :
    isLazyMismatch (records.map (RegistrationRecord.mapTypes φ)) (d.mapTypes φ) =
      isLazyMismatch records d := by
  have hdeferred : (d.mapTypes φ).kind.deferredName? = d.kind.deferredName? :=
    d.kind.deferredName?_mapTypes hname
  unfold isLazyMismatch
  rw [hdeferred]
  cases d.kind.deferredName? with
  | none => rfl
  | some name =>
    simp only [lookup_map_mapTypes hname]
    cases lookup records name <;> rfl

theorem lazyMismatches_map_mapTypes :
    lazyMismatches (records.map (RegistrationRecord.mapTypes φ)) (r.mapTypes φ) =
      (lazyMismatches records r).map (Dependency.mapTypes φ) := by
  unfold lazyMismatches
  change List.filter _ (r.constructorDependencies.map (Dependency.mapTypes φ)) = _
  rw [List.filter_map]
  exact congrArg _ (List.filter_congr fun d _ => isLazyMismatch_map_mapTypes hname records d)

theorem isSound_map_mapTypes :
    isSound (records.map (RegistrationRecord.mapTypes φ)) detection (r.mapTypes φ) =
      isSound records detection r := by
  unfold isSound
  rw [returnPaths_map_mapTypes hname, lazyMismatches_map_mapTypes hname, List.isEmpty_map,
    List.isEmpty_map]

end Checks

section Reports

theorem repetitions_map_mapTypes (seen : List String) :
    repetitions seen (records.map (RegistrationRecord.mapTypes φ)) = repetitions seen records := by
  induction records generalizing seen with
  | nil => rfl
  | cons r rest ih =>
    have hkey : (r.mapTypes φ).key = r.key := hname r.interface
    have hlocation : (r.mapTypes φ).location = r.location := rfl
    simp only [List.map_cons, repetitions, hkey, hlocation, ih]

omit hname in
/-- Which paths are fresh is decided by their cycles. -/
theorem freshPaths_map_mapTypes (reported : List (List String)) (paths : List ReturnPath) :
    freshPaths reported (paths.map (ReturnPath.mapTypes φ)) =
      ((freshPaths reported paths).1.map (ReturnPath.mapTypes φ),
        (freshPaths reported paths).2) := by
  induction paths generalizing reported with
  | nil => rfl
  | cons p rest ih =>
    have hcycle : (p.mapTypes φ).cycle = p.cycle := rfl
    simp only [List.map_cons, freshPaths, hcycle, ih]
    split <;> rfl

theorem diagnostic_mapTypes (r : RegistrationRecord) (p : ReturnPath) :
    (p.mapTypes φ).diagnostic (r.mapTypes φ) = p.diagnostic r := by
  have hconcrete : (r.mapTypes φ).concrete.name = r.concrete.name := hname r.concrete
  unfold ReturnPath.diagnostic
  rw [hconcrete]
  rfl

theorem lazyDiagnostic_mapTypes (r : RegistrationRecord) (d : Dependency) :
    lazyDiagnostic (r.mapTypes φ) (d.mapTypes φ) = lazyDiagnostic r d := by
  have hconcrete : (r.mapTypes φ).concrete.name = r.concrete.name := hname r.concrete
  have htarget : (d.mapTypes φ).kind.target.name = d.kind.target.name :=
    d.kind.name_target_mapTypes hname
  unfold lazyDiagnostic
  rw [hconcrete, htarget]
  rfl

theorem recordDiagnostics_map_mapTypes (detection : CycleDetection)
    (reported : List (List String)) (checked : List RegistrationRecord) :
    recordDiagnostics (records.map (RegistrationRecord.mapTypes φ)) detection reported
        (checked.map (RegistrationRecord.mapTypes φ)) =
      recordDiagnostics records detection reported checked := by
  induction checked generalizing reported with
  | nil => rfl
  | cons r rest ih =>
    have hcycles : ∀ paths : List ReturnPath,
        (paths.map (ReturnPath.mapTypes φ)).map (ReturnPath.diagnostic (r.mapTypes φ)) =
          paths.map (ReturnPath.diagnostic r) := by
      intro paths
      rw [List.map_map]
      exact List.map_congr_left fun p _ => diagnostic_mapTypes hname r p
    have hlazy : ((lazyMismatches records r).map (Dependency.mapTypes φ)).map
        (lazyDiagnostic (r.mapTypes φ)) = (lazyMismatches records r).map (lazyDiagnostic r) := by
      rw [List.map_map]
      exact List.map_congr_left fun d _ => lazyDiagnostic_mapTypes hname r d
    simp only [List.map_cons, recordDiagnostics, returnPaths_map_mapTypes hname,
      lazyMismatches_map_mapTypes hname, freshPaths_map_mapTypes, hcycles, hlazy, ih]

end Reports

/-- Validation of the same registrations under other handles. -/
theorem validate_map_mapTypes (detection : CycleDetection) :
    validate detection (records.map (RegistrationRecord.mapTypes φ)) =
      ⟨(validate detection records).records.map (RegistrationRecord.mapTypes φ),
        (validate detection records).diagnostics⟩ := by
  have hsound : isSound (records.map (RegistrationRecord.mapTypes φ)) detection ∘
      RegistrationRecord.mapTypes φ = isSound records detection :=
    funext fun r => isSound_map_mapTypes hname records detection r
  unfold validate
  rw [List.filter_map, hsound, repetitions_map_mapTypes hname, recordDiagnostics_map_mapTypes hname]

end Graph

namespace Emission

variable (resolver : String)

theorem lookupExpression_mapTypes (k : DependencyKind) :
    lookupExpression resolver (k.mapTypes φ) = lookupExpression resolver k := by
  cases k <;> simp only [DependencyKind.mapTypes, lookupExpression, hname]

theorem construction_mapTypes (r : RegistrationRecord) :
    construction resolver (r.mapTypes φ) = construction resolver r := by
  have hconcrete : (r.mapTypes φ).concrete.name = r.concrete.name := hname r.concrete
  have harguments : constructorArguments resolver (r.mapTypes φ) =
      constructorArguments resolver r := by
    unfold constructorArguments RegistrationRecord.mapTypes
    rw [List.map_map]
    exact List.map_congr_left fun d _ => lookupExpression_mapTypes hname resolver d.kind
  have hassignments : propertyAssignments resolver (r.mapTypes φ) =
      propertyAssignments resolver r := by
    unfold propertyAssignments RegistrationRecord.mapTypes
    rw [List.map_map]
    exact List.map_congr_left fun d _ =>
      congrArg (d.name ++ " = " ++ ·) (lookupExpression_mapTypes hname resolver d.kind)
  unfold construction
  rw [hconcrete, harguments, hassignments]

theorem block_mapTypes (r : RegistrationRecord) :
    block resolver (r.mapTypes φ) = block resolver r := by
  have hconstruction := construction_mapTypes hname resolver r
  have hinterface : (r.mapTypes φ).interface.name = r.interface.name := hname r.interface
  have hkind : (r.mapTypes φ).kind = r.kind := rfl
  have hcontract : (r.mapTypes φ).contract = r.contract := rfl
  have hmode : (r.mapTypes φ).mode? = r.mode? := rfl
  have htransient : transientBlock resolver (r.mapTypes φ) = transientBlock resolver r := by
    unfold transientBlock
    rw [hconstruction, hinterface, hcontract]
  have hlazy : lazyBlock resolver (r.mapTypes φ) = lazyBlock resolver r := by
    unfold lazyBlock
    rw [hconstruction, hinterface, hcontract, hmode]
  unfold block
  rw [hkind, htransient, hlazy]

/-- Emission of the same registrations under other handles. -/
theorem emit_map_mapTypes (options : EmitOptions) (records : List RegistrationRecord) :
    emit options (records.map (RegistrationRecord.mapTypes φ)) = emit options records := by
  have hblock : block options.resolver ∘ RegistrationRecord.mapTypes φ = block options.resolver :=
    funext (block_mapTypes hname options.resolver)
  rw [emit_eq, emit_eq, List.map_map, hblock]

end Emission
end Wiring
