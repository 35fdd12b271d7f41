import Wiring.Codec.Config
import Wiring.Codec.Diagnostic
import Wiring.Codec.Document
import Wiring.Codec.Registration
import Wiring.Proofs.Config.Written

/-! Decoding undoes encoding, for every type that is both written and read. A record gives its
fields once and under the names it is asked for; a value that may be missing is never written as
what stands for nothing; and a tag decides the alternative that it was written for. -/
namespace Wiring
open Decode

/-- Decoding what was encoded succeeds and gives it back. -/
def RoundTrips {α : Type} (encode : α → Json) (decode? : Json → Option α) : Prop :=
  ∀ a, decode? (encode a) = some a

namespace Json

variable {α : Type} {encode : α → Json} {decode? : Json → Option α}

@[simp]
theorem record?_obj {names : List String} {members : List (String × Json)} (hnames : names.Nodup)
    (hmembers : (members.map Prod.fst).Sublist names) :
    Decode.record? names (obj members) = some ⟨members, false⟩ :=
  writer.record?_of_sublist hnames hmembers

@[simp]
theorem text?_str (s : String) : Decode.text? (str s) = some s := by rfl

@[simp]
theorem text?_null : Decode.text? null = none := by rfl

@[simp]
theorem flag?_bool (b : Bool) : Decode.flag? (bool b) = some b := rfl

@[simp]
theorem choice?_str (s : String) : Decode.choice? (str s) = some s := rfl

@[simp]
theorem word32?_nat (n : UInt32) : word32? (nat n.toNat) = some n := by
  have hread : Decode.natural? (nat n.toNat) = some n.toNat := rfl
  rw [word32?, hread]
  simp [n.toNat_lt]

@[simp]
theorem word64?_nat (n : UInt64) : word64? (nat n.toNat) = some n := by
  have hread : Decode.natural? (nat n.toNat) = some n.toNat := rfl
  rw [word64?, hread]
  simp [n.toNat_lt]

@[simp]
theorem list_list (h : ∀ a, decode? (encode a) = some a) (xs : List α) :
    Decode.list decode? (list encode xs) = some xs := by
  change (xs.map encode).mapM decode? = some xs
  induction xs with
  | nil => rfl
  | cons x rest ih => simp [h x, ih]

/-- What cannot be read from null is never written as null, so that null is left for nothing. -/
@[simp]
theorem nullable_opt (h : ∀ a, decode? (encode a) = some a) (hnull : decode? null = none)
    (o : Option α) : nullable decode? (opt encode o) = some o := by
  cases o with
  | none => rfl
  | some a =>
    have hpresent : absent? (encode a) = some false := by
      cases hencode : encode a with
      | null =>
        have hread := h a
        rw [hencode, hnull] at hread
        contradiction
      | _ => rfl
    rw [opt, nullable_of_absent?_eq hpresent, h a]
    rfl

end Json

/-! Handles, members and locations -/

@[simp]
theorem TypeRef.decode?_toJson (t : TypeRef) : decode? t.toJson = some t := by
  simp [decode?, toJson]

@[simp]
theorem Accessibility.decode?_toJson (a : Accessibility) : decode? a.toJson = some a := by
  cases a <;> rfl

@[simp]
theorem Accessibility.decode?_null : decode? Json.null = none := by rfl

@[simp]
theorem Location.decode?_toJson (l : Location) : decode? l.toJson = some l := by
  simp [decode?, toJson]

@[simp]
theorem Location.decode?_null : decode? Json.null = none := by rfl

@[simp]
theorem MemberRef.propertyFields?_members (owner : TypeRef) (name : String) :
    propertyFields? [("owner", owner.toJson), ("name", .str name)] = some (owner, name) := by
  simp [propertyFields?, Record.ofEntries?_of_sublist]

@[simp]
theorem MemberRef.decode?_toJson (m : MemberRef) : decode? m.toJson = some m := by
  cases m with
  | constructor owner ordinal =>
    simp [decode?, toJson, Json.variant?, Record.ofEntries?_of_sublist]
  | property owner name => simp [decode?, toJson, Json.variant?]
  | propertySetter owner name => simp [decode?, toJson, Json.variant?]

@[simp]
theorem Parameter.decode?_toJson (p : Parameter) : decode? p.toJson = some p := by
  simp [decode?, toJson]

@[simp]
theorem ConstructorCandidate.decode?_toJson (c : ConstructorCandidate) :
    decode? c.toJson = some c := by
  simp [decode?, toJson]

@[simp]
theorem PropertyCandidate.decode?_toJson (p : PropertyCandidate) : decode? p.toJson = some p := by
  simp [decode?, toJson]

/-! Dependencies and registrations -/

@[simp]
theorem DependencyKind.decode?_toJson (k : DependencyKind) : decode? k.toJson = some k := by
  cases k <;>
    simp [decode?, toJson, oneOf, alternatives, tag, target, List.lookup_cons]

@[simp]
theorem Dependency.decode?_toJson (d : Dependency) : decode? d.toJson = some d := by
  simp [decode?, toJson]

@[simp]
theorem RegistrationKind.decode?_toJson (k : RegistrationKind) : decode? k.toJson = some k := by
  cases k with
  | transient => rfl
  | lazySingleton mode => cases mode <;> rfl
  | constant => rfl

@[simp]
theorem RegistrationRecord.decode?_toJson (r : RegistrationRecord) :
    decode? r.toJson = some r := by
  simp [decode?, toJson]

/-! Call sites -/

@[simp]
theorem MethodBinding.decode?_toJson (b : MethodBinding) : decode? b.toJson = some b := by
  simp [decode?, toJson]

@[simp]
theorem MethodBinding.decode?_null : decode? Json.null = none := by rfl

@[simp]
theorem ExpressionBinding.decode?_toJson (b : ExpressionBinding) : decode? b.toJson = some b := by
  cases b <;> rfl

@[simp]
theorem Expression.decode?_toJson (e : Expression) : decode? e.toJson = some e := by
  simp [decode?, toJson]

@[simp]
theorem Argument.decode?_toJson (a : Argument) : decode? a.toJson = some a := by
  simp [decode?, toJson]

theorem InvocationSite.decode?_toJson (s : InvocationSite) : decode? s.toJson = some s := by
  simp [decode?, toJson]

/-! Model documents -/

@[simp]
theorem ParameterDecl.decode?_toJson (p : ParameterDecl) : decode? p.toJson = some p := by
  simp [decode?, toJson]

@[simp]
theorem ConstructorDecl.decode?_toJson (c : ConstructorDecl) : decode? c.toJson = some c := by
  simp [decode?, toJson]

@[simp]
theorem PropertyDecl.decode?_toJson (p : PropertyDecl) : decode? p.toJson = some p := by
  simp [decode?, toJson]

@[simp]
theorem TypeDecl.decode?_toJson (t : TypeDecl) : decode? t.toJson = some t := by
  simp [decode?, toJson]

@[simp]
theorem ArgumentDecl.decode?_toJson (a : ArgumentDecl) : decode? a.toJson = some a := by
  simp [decode?, toJson]

@[simp]
theorem InvocationDecl.decode?_toJson (d : InvocationDecl) : decode? d.toJson = some d := by
  simp [decode?, toJson]

theorem ModelDocument.decode?_toJson (d : ModelDocument) : decode? d.toJson = some d := by
  simp [decode?, toJson]

theorem Severity.decode?_toJson (s : Severity) : decode? s.toJson = some s := by
  cases s <;> rfl

/-- Every type that is both written and read is read back from its written form: handles, members
and locations; dependencies and registrations; call sites; options and the configuration; model
documents with all that they declare. -/
theorem serialized_types_roundTrip :
    (RoundTrips TypeRef.toJson TypeRef.decode? ∧
      RoundTrips Accessibility.toJson Accessibility.decode? ∧
      RoundTrips Location.toJson Location.decode? ∧
      RoundTrips MemberRef.toJson MemberRef.decode? ∧
      RoundTrips Parameter.toJson Parameter.decode? ∧
      RoundTrips ConstructorCandidate.toJson ConstructorCandidate.decode? ∧
      RoundTrips PropertyCandidate.toJson PropertyCandidate.decode?) ∧
    (RoundTrips DependencyKind.toJson DependencyKind.decode? ∧
      RoundTrips Dependency.toJson Dependency.decode? ∧
      RoundTrips RegistrationKind.toJson RegistrationKind.decode? ∧
      RoundTrips RegistrationRecord.toJson RegistrationRecord.decode?) ∧
    (RoundTrips MethodBinding.toJson MethodBinding.decode? ∧
      RoundTrips ExpressionBinding.toJson ExpressionBinding.decode? ∧
      RoundTrips Expression.toJson Expression.decode? ∧
      RoundTrips Argument.toJson Argument.decode? ∧
      RoundTrips InvocationSite.toJson InvocationSite.decode?) ∧
    (RoundTrips CycleDetection.toJson CycleDetection.decode? ∧
      RoundTrips WellKnownNames.toJson WellKnownNames.decode? ∧
      RoundTrips AnalysisOptions.toJson AnalysisOptions.decode? ∧
      RoundTrips EmitOptions.toJson EmitOptions.decode? ∧
      RoundTrips LoggingConfig.toJson LoggingConfig.decode? ∧
      RoundTrips ReportFormat.toJson ReportFormat.decode? ∧
      RoundTrips ReportConfig.toJson ReportConfig.decode? ∧
      RoundTrips Config.toJson Config.decode? ∧
      RoundTrips Severity.toJson Severity.decode?) ∧
    (RoundTrips ParameterDecl.toJson ParameterDecl.decode? ∧
      RoundTrips ConstructorDecl.toJson ConstructorDecl.decode? ∧
      RoundTrips PropertyDecl.toJson PropertyDecl.decode? ∧
      RoundTrips TypeDecl.toJson TypeDecl.decode? ∧
      RoundTrips ArgumentDecl.toJson ArgumentDecl.decode? ∧
      RoundTrips InvocationDecl.toJson InvocationDecl.decode? ∧
      RoundTrips ModelDocument.toJson ModelDocument.decode?) :=
  ⟨⟨TypeRef.decode?_toJson, Accessibility.decode?_toJson, Location.decode?_toJson,
      MemberRef.decode?_toJson, Parameter.decode?_toJson, ConstructorCandidate.decode?_toJson,
      PropertyCandidate.decode?_toJson⟩,
    ⟨DependencyKind.decode?_toJson, Dependency.decode?_toJson, RegistrationKind.decode?_toJson,
      RegistrationRecord.decode?_toJson⟩,
    ⟨MethodBinding.decode?_toJson, ExpressionBinding.decode?_toJson, Expression.decode?_toJson,
      Argument.decode?_toJson, InvocationSite.decode?_toJson⟩,
    ⟨CycleDetection.decode?_written Json.writer, WellKnownNames.decode?_written Json.writer,
      AnalysisOptions.decode?_written Json.writer, EmitOptions.decode?_written Json.writer,
      LoggingConfig.decode?_written Json.writer, ReportFormat.decode?_written Json.writer,
      ReportConfig.decode?_written Json.writer, Config.decode?_written Json.writer,
      Severity.decode?_toJson⟩,
    ⟨ParameterDecl.decode?_toJson, ConstructorDecl.decode?_toJson, PropertyDecl.decode?_toJson,
      TypeDecl.decode?_toJson, ArgumentDecl.decode?_toJson, InvocationDecl.decode?_toJson,
      ModelDocument.decode?_toJson⟩⟩

end Wiring
