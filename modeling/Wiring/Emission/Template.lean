/-! Text templates. A part of a template may repeat for each item of a list, or stand only where a
condition holds; places are filled in from data. What is filled in stays as it is given and is not
read as a template again. -/
namespace Wiring.Emission

/-- What a template is filled in from. -/
inductive Datum where
  | absent
  | text (s : String)
  | flag (b : Bool)
  | list (items : List Datum)
  | record (fields : List (String × Datum))
  deriving Repr, Inhabited

namespace Datum

def ofText? : Option String → Datum
  | some s => .text s
  | none => .absent

/-- Whether a condition on the datum holds. What is absent or empty does not. -/
def holds : Datum → Bool
  | .absent => false
  | .text s => !s.isEmpty
  | .flag b => b
  | .list items => !items.isEmpty
  | .record fields => !fields.isEmpty

def field (name : String) : Datum → Datum
  | .record fields => (fields.lookup name).getD .absent
  | _ => .absent

def items : Datum → List Datum
  | .list items => items
  | _ => []

/-- The text for a place; only a text has one. -/
@[simp] def shown : Datum → String
  | .text s => s
  | _ => ""

end Datum

/-- Where a place takes its text from. -/
inductive Place where
  | item
  | field (name : String)
  /-- A field of the outermost datum. -/
  | rootField (name : String)
  deriving DecidableEq, Repr

/-- The data in reach at some part of a template. -/
structure Scope where
  root : Datum
  /-- The item of the innermost repetition. -/
  item : Datum
  isLast : Bool

@[simp] def Scope.datum (scope : Scope) : Place → Datum
  | .item => scope.item
  | .field name => scope.item.field name
  | .rootField name => scope.root.field name

inductive Part where
  | text (s : String)
  | place (p : Place)
  /-- Once for each item of a field. -/
  | each (name : String) (body : List Part)
  /-- One of two, as a field of the item holds or not. -/
  | choice (name : String) (body otherwise : List Part)
  /-- Not for the last item of a repetition. -/
  | unlessLast (body : List Part)
  deriving Repr

/-- A part for each item, with a text between one item and the next. -/
def separated (separator : String) (body : List Part) : List Part :=
  body ++ [.unlessLast [.text separator]]

/-- One text for each item, given whether the item is the last one. -/
def overItems (render : Datum → Bool → String) : List Datum → String
  | [] => ""
  | item :: rest => render item rest.isEmpty ++ overItems render rest

mutual

def Part.render : Part → Scope → String
  | .text s, _ => s
  | .place p, scope => (scope.datum p).shown
  | .each name body, scope =>
    overItems (fun item isLast => renderAll body { scope with item, isLast })
      (scope.item.field name).items
  | .choice name body otherwise, scope =>
    if (scope.item.field name).holds then renderAll body scope else renderAll otherwise scope
  | .unlessLast body, scope => if scope.isLast then "" else renderAll body scope

def renderAll : List Part → Scope → String
  | [], _ => ""
  | part :: rest, scope => part.render scope ++ renderAll rest scope

end

section Rendering

variable (scope : Scope)

@[simp] theorem renderAll_nil : renderAll [] scope = "" := by rw [renderAll]

@[simp] theorem renderAll_cons (part : Part) (rest : List Part) :
    renderAll (part :: rest) scope = part.render scope ++ renderAll rest scope := by
  rw [renderAll]

@[simp] theorem render_text (s : String) : (Part.text s).render scope = s := by rw [Part.render]

@[simp] theorem render_place (p : Place) :
    (Part.place p).render scope = (scope.datum p).shown := by
  rw [Part.render]

@[simp] theorem render_choice (name : String) (body otherwise : List Part) :
    (Part.choice name body otherwise).render scope =
      if (scope.item.field name).holds then renderAll body scope
      else renderAll otherwise scope := by
  rw [Part.render]

@[simp] theorem render_unlessLast (body : List Part) :
    (Part.unlessLast body).render scope = if scope.isLast then "" else renderAll body scope := by
  rw [Part.render]

end Rendering

/-- The text of a template, filled in from a datum. -/
def fill (template : List Part) (datum : Datum) : String := renderAll template ⟨datum, datum, false⟩

end Wiring.Emission
