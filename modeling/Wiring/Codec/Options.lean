import Wiring.Options
import Wiring.Json.Basic
/-! Written form of options, in any format. Every field has a default. -/
namespace Wiring
open Decode

variable {ν : Type} [ValueTree ν]

namespace CycleDetection

def alternatives : List (String × CycleDetection) := [("pairwise", .pairwise), ("full", .full)]

def text : CycleDetection → String
  | .pairwise => "pairwise"
  | .full => "full"

def written (W : Writer ν) (d : CycleDetection) : ν := W.text d.text

def toJson (d : CycleDetection) : Json := d.written Json.writer

def decode? (v : ν) : Option CycleDetection := oneOf alternatives v

end CycleDetection

namespace WellKnownNames

def written (W : Writer ν) (w : WellKnownNames) : ν :=
  W.record [("lazy", W.text w.lazy), ("enumerable", W.text w.enumerable),
    ("constructor_marker", W.text w.constructorMarker),
    ("property_marker", W.text w.propertyMarker)]

def toJson (w : WellKnownNames) : Json := w.written Json.writer

def decode? (v : ν) : Option WellKnownNames := do
  let r ← record? ["lazy", "enumerable", "constructor_marker", "property_marker"] v
  let default : WellKnownNames := {}
  return {
    lazy := ← r.withDefault "lazy" default.lazy text?
    enumerable := ← r.withDefault "enumerable" default.enumerable text?
    constructorMarker := ← r.withDefault "constructor_marker" default.constructorMarker text?
    propertyMarker := ← r.withDefault "property_marker" default.propertyMarker text? }

end WellKnownNames

namespace AnalysisOptions

def written (W : Writer ν) (o : AnalysisOptions) : ν :=
  W.record [("cycle_detection", o.cycleDetection.written W), ("parallel", W.flag o.parallel),
    ("registrations_type", W.text o.registrationsType), ("well_known", o.wellKnown.written W)]

def toJson (o : AnalysisOptions) : Json := o.written Json.writer

def decode? (v : ν) : Option AnalysisOptions := do
  let r ← record? ["cycle_detection", "parallel", "registrations_type", "well_known"] v
  let default : AnalysisOptions := {}
  return {
    cycleDetection :=
      ← r.withDefault "cycle_detection" default.cycleDetection CycleDetection.decode?
    parallel := ← r.withDefault "parallel" default.parallel flag?
    registrationsType := ← r.withDefault "registrations_type" default.registrationsType text?
    wellKnown := ← r.withDefault "well_known" default.wellKnown WellKnownNames.decode? }

end AnalysisOptions

namespace EmitOptions

def written (W : Writer ν) (o : EmitOptions) : ν :=
  W.record [("namespace", W.text o.enclosing), ("class_name", W.text o.className),
    ("resolver", W.text o.resolver)]

def toJson (o : EmitOptions) : Json := o.written Json.writer

def decode? (v : ν) : Option EmitOptions := do
  let r ← record? ["namespace", "class_name", "resolver"] v
  let default : EmitOptions := {}
  return {
    enclosing := ← r.withDefault "namespace" default.enclosing text?
    className := ← r.withDefault "class_name" default.className text?
    resolver := ← r.withDefault "resolver" default.resolver text? }

end EmitOptions
end Wiring
