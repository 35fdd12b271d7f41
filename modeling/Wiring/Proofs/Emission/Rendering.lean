import Wiring.Emission.Code

/-! The code that the template gives. Each piece of the template is filled in to the text that the
code of one record has in its place, whatever stands in the data beside; so the code of all records
is made of the codes of each, between the text before the first and the text after the last. -/
namespace Wiring.Emission

section Parts

variable {scope : Scope}

theorem renderAll_append (parts more : List Part) (scope : Scope) :
    renderAll (parts ++ more) scope = renderAll parts scope ++ renderAll more scope := by
  induction parts with
  | nil => simp
  | cons part rest ih => simp [ih, String.append_assoc]

theorem overItems_map {α : Type} {render : Datum → Bool → String} {datum : α → Datum}
    {text : α → String} {xs : List α} (h : ∀ x ∈ xs, ∀ isLast, render (datum x) isLast = text x) :
    overItems render (xs.map datum) = String.join (xs.map text) := by
  induction xs with
  | nil => rfl
  | cons x rest ih =>
    obtain ⟨hx, hrest⟩ := List.forall_mem_cons.mp h
    rw [List.map_cons, List.map_cons, overItems, hx, ih hrest, String.join_cons]

/-- Where the text of an item does not depend on whether the item is the last one, the separator
stands between each two of the items and nowhere else. -/
theorem overItems_separated {α : Type} {body : List Part} {datum : α → Datum} {text : α → String}
    (h : ∀ x isLast, renderAll body { scope with item := datum x, isLast } = text x)
    (separator : String) (xs : List α) :
    overItems (fun item isLast => renderAll (separated separator body) { scope with item, isLast })
      (xs.map datum) = separator.intercalate (xs.map text) := by
  induction xs with
  | nil => simp [overItems]
  | cons x rest ih =>
    rw [List.map_cons, overItems, ih, separated, renderAll_append, h]
    -- The separator is left out where nothing follows.
    cases rest <;> simp

theorem render_optionalArgument {name : String} {argument : Option String}
    (h : scope.item.field name = .ofText? argument) :
    (optionalArgument name).render scope = trailingArgument argument := by
  rw [optionalArgument, render_choice, h]
  cases argument with
  | none => rfl
  | some text =>
    by_cases hempty : text.isEmpty = true <;>
      simp [trailingArgument, Datum.ofText?, Datum.holds, h, hempty]

end Parts

section Registrations

variable {scope : Scope} {resolver : String} {r : RegistrationRecord}

theorem renderAll_property (d : Dependency) (isLast : Bool) :
    renderAll [.place (.field "name"), .text " = ", .place (.field "value")]
        { scope with item := propertyDatum resolver d, isLast } =
      d.name ++ " = " ++ lookupExpression resolver d.kind := by
  have hname : (propertyDatum resolver d).field "name" = .text d.name := rfl
  have hvalue : (propertyDatum resolver d).field "value" =
      .text (lookupExpression resolver d.kind) := rfl
  simp [hname, hvalue, String.append_assoc]

variable (hitem : scope.item = registrationDatum resolver r)
include hitem

theorem render_arguments :
    (Part.each "arguments" (separated ", " [.place .item])).render scope =
      String.intercalate ", " (constructorArguments resolver r) := by
  have hitems : (scope.item.field "arguments").items =
      (constructorArguments resolver r).map Datum.text := by
    rw [hitem]
    rfl
  have hargument : ∀ (text : String) (isLast : Bool),
      renderAll [.place .item] { scope with item := .text text, isLast } = text := by
    simp
  rw [Part.render, hitems, overItems_separated hargument, List.map_id']

theorem render_properties :
    (Part.each "properties" (separated ", "
        [.place (.field "name"), .text " = ", .place (.field "value")])).render scope =
      String.intercalate ", " (propertyAssignments resolver r) := by
  have hitems : (scope.item.field "properties").items =
      r.propertyDependencies.map (propertyDatum resolver) := by
    rw [hitem]
    rfl
  rw [Part.render, hitems, overItems_separated renderAll_property]
  rfl

theorem renderAll_construction :
    renderAll constructionTemplate scope = construction resolver r := by
  have hconcrete : scope.item.field "concrete" = .text (globalName r.concrete.name) := by
    rw [hitem]
    rfl
  have hholds : (scope.item.field "properties").holds = !r.propertyDependencies.isEmpty := by
    rw [hitem]
    exact congrArg (! ·) List.isEmpty_map
  have hinitializer : (if (scope.item.field "properties").holds then
      " " ++ (openBrace ++ (" " ++ (String.intercalate ", " (propertyAssignments resolver r) ++
        (" " ++ closeBrace)))) else "") =
      initializer (propertyAssignments resolver r) := by
    rw [hholds, propertyAssignments]
    cases r.propertyDependencies <;> simp [initializer, String.append_assoc]
  rw [construction, ← hinitializer]
  simp [constructionTemplate, render_arguments hitem, render_properties hitem, hconcrete,
    String.append_assoc]

theorem renderAll_interface :
    renderAll [.place (.field "interface")] scope = globalName r.interface.name := by
  have hinterface : scope.item.field "interface" = .text (globalName r.interface.name) := by
    rw [hitem]
    rfl
  simp [hinterface]

theorem renderAll_wrapper :
    renderAll wrapperTemplate scope = "global::System.Lazy<" ++ globalName r.interface.name ++ ">" := by
  have hinterface := renderAll_interface hitem
  simp_all [wrapperTemplate, String.append_assoc]

variable (hroot : scope.root.field "resolver" = .text resolver)
include hroot

theorem renderAll_register (factory type : List Part) :
    renderAll (registerTemplate factory type) scope =
      registerStatement resolver (renderAll factory scope) (renderAll type scope) r.contract := by
  have hcontract : scope.item.field "contract" = .ofText? r.contract := by
    rw [hitem]
    rfl
  simp [registerTemplate, registerStatement, renderAll_append, render_optionalArgument hcontract,
    hroot, String.append_assoc]

theorem renderAll_transient : renderAll transientTemplate scope = transientBlock resolver r := by
  rw [transientTemplate, renderAll_append, renderAll_register hitem hroot,
    renderAll_construction hitem, renderAll_interface hitem]
  simp [transientBlock]

theorem renderAll_lazy : renderAll lazyTemplate scope = lazyBlock resolver r := by
  have hmode : scope.item.field "mode" = .ofText? r.mode? := by
    rw [hitem]
    rfl
  simp only [lazyTemplate, renderAll_append, renderAll_register hitem hroot,
    renderAll_construction hitem, renderAll_interface hitem, renderAll_wrapper hitem,
    renderAll_cons, renderAll_nil, render_text, render_optionalArgument hmode,
    String.append_assoc, String.append_empty]
  unfold lazyBlock
  simp only [String.append_assoc]

theorem renderAll_registration (hkind : r.kind.isConstant = false) :
    renderAll [.choice "lazy" lazyTemplate transientTemplate] scope = block resolver r := by
  have hlazy : (scope.item.field "lazy").holds = r.kind.isLazySingleton := by
    rw [hitem]
    rfl
  rw [renderAll_cons, renderAll_nil, render_choice, String.append_empty, hlazy, block]
  cases hk : r.kind with
  | transient => exact renderAll_transient hitem hroot
  | lazySingleton mode => exact renderAll_lazy hitem hroot
  | constant => simp [hk, RegistrationKind.isConstant] at hkind

end Registrations

section Records

variable (options : EmitOptions) (records : List RegistrationRecord)

theorem emit_eq_emitted :
    emit options records =
      header options ++ String.join ((emitted records).map (block options.resolver)) ++ footer := by
  -- Inside the repetition the resolver is still taken from the outermost datum.
  have hregistration : ∀ r ∈ emitted records, ∀ isLast,
      renderAll [.choice "lazy" lazyTemplate transientTemplate]
        ⟨classDatum options records, registrationDatum options.resolver r, isLast⟩ =
      block options.resolver r := by
    intro r hr isLast
    have hkind : r.kind.isConstant = false := by simpa using (List.mem_filter.mp hr).2
    exact renderAll_registration rfl rfl hkind
  have hregistrations :
      (Part.each "registrations" [.choice "lazy" lazyTemplate transientTemplate]).render
        ⟨classDatum options records, classDatum options records, false⟩ =
      String.join ((emitted records).map (block options.resolver)) := by
    have hitems : ((classDatum options records).field "registrations").items =
        (emitted records).map (registrationDatum options.resolver) := rfl
    rw [Part.render, hitems, overItems_map hregistration]
  have henclosing : (classDatum options records).field "namespace" = .text options.enclosing := rfl
  have hclass : (classDatum options records).field "class" = .text options.className := rfl
  have hmethod : (classDatum options records).field "method" = .text generatedMethodName := rfl
  unfold emit fill classTemplate header footer
  simp [henclosing, hclass, hmethod, hregistrations, String.append_assoc]

theorem block_constant {resolver : String} {r : RegistrationRecord}
    (hkind : r.kind.isConstant = true) : block resolver r = "" := by
  rw [block]
  cases hk : r.kind with
  | constant => rfl
  | transient | lazySingleton => simp [hk, RegistrationKind.isConstant] at hkind

/-- A constant has no code, so it may as well be among the records. -/
theorem emit_eq :
    emit options records =
      header options ++ String.join (records.map (block options.resolver)) ++ footer := by
  have hconstants : String.join ((emitted records).map (block options.resolver)) =
      String.join (records.map (block options.resolver)) := by
    induction records with
    | nil => rfl
    | cons r rest ih =>
      cases hkind : r.kind.isConstant with
      | false => simpa [emitted, hkind] using ih
      | true => simpa [emitted, hkind, block_constant hkind] using ih
  rw [emit_eq_emitted, hconstants]

theorem emit_append_cons (first last : List RegistrationRecord) (r : RegistrationRecord) :
    emit options (first ++ r :: last) =
      header options ++ String.join (first.map (block options.resolver)) ++
        block options.resolver r ++ String.join (last.map (block options.resolver)) ++ footer := by
  simp [emit_eq, String.join_append, String.append_assoc]

end Records

end Wiring.Emission
