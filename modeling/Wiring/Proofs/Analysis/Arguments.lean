import Mathlib.Data.List.Find
import Mathlib.Data.List.Nodup
import Wiring.Analysis.Extraction

/-! Arguments of a call. A positional argument answers for the parameter declared at its place, and a
named one for the parameter of its name, wherever it stands. So named arguments that follow the
positional ones may be given in any order. -/
namespace Wiring

/-- Positional arguments that named ones follow, each under a name of its own. -/
structure Argument.InOrder (positional named : List Argument) : Prop where
  name_positional : ∀ argument ∈ positional, argument.name = none
  isSome_name : ∀ argument ∈ named, argument.name.isSome = true
  distinct : (named.map Argument.name).Nodup

theorem Argument.InOrder.of_perm {positional named reordered : List Argument}
    (h : Argument.InOrder positional named) (hperm : named.Perm reordered) :
    Argument.InOrder positional reordered where
  name_positional := h.name_positional
  isSome_name argument hmem := h.isSome_name argument (hperm.mem_iff.mpr hmem)
  distinct := (hperm.map Argument.name).nodup_iff.mp h.distinct

namespace InvocationSite

section Answers

variable {declared : List String} {parameter : String} {position : Nat}
variable {positional named : List Argument} {argument : Argument}

theorem answers_positional_iff (h : argument.name = none) :
    argument.answers declared parameter position = true ↔
      declared[position]? = some parameter := by
  simp [Argument.answers, h]

theorem answers_named (h : argument.name.isSome = true) :
    argument.answers declared parameter position = (argument.name == some parameter) := by
  obtain ⟨name, hname⟩ := Option.isSome_iff_exists.mp h
  simp [Argument.answers, hname]

theorem firstAnswer_append (arguments others : List Argument) :
    firstAnswer declared parameter position (arguments ++ others) =
      (firstAnswer declared parameter position arguments).or
        (firstAnswer declared parameter (position + arguments.length) others) := by
  induction arguments generalizing position with
  | nil => simp [firstAnswer]
  | cons argument rest ih =>
    rw [List.cons_append, firstAnswer, firstAnswer]
    split
    · simp
    · rw [ih, List.length_cons, Nat.add_assoc, Nat.add_comm 1]

/-- Of the positional arguments, the one at the first place of the parameter answers for it. -/
theorem firstAnswer_positional (h : ∀ argument ∈ positional, argument.name = none) :
    firstAnswer declared parameter position positional =
      (((declared.drop position).idxOf? parameter).bind (positional[·]?)).map
        Argument.expression := by
  induction positional generalizing position with
  | nil => simp [firstAnswer]
  | cons argument rest ih =>
    obtain ⟨hargument, hrest⟩ := List.forall_mem_cons.mp h
    rw [firstAnswer, ih hrest]
    cases hdeclared : declared[position]? with
    | none =>
      have hlength : declared.length ≤ position := List.getElem?_eq_none_iff.mp hdeclared
      have hanswers : ¬ argument.answers declared parameter position = true := by
        simp [answers_positional_iff hargument, hdeclared]
      rw [if_neg hanswers, List.drop_eq_nil_of_le hlength,
        List.drop_eq_nil_of_le (Nat.le_succ_of_le hlength)]
      rfl
    | some name =>
      obtain ⟨hlt, hname⟩ := List.getElem?_eq_some_iff.mp hdeclared
      rw [List.drop_eq_getElem_cons hlt, hname, List.idxOf?_cons]
      by_cases heq : name = parameter
      · have hanswers : argument.answers declared parameter position = true := by
          simp [answers_positional_iff hargument, hdeclared, heq]
        simp [hanswers, heq]
      · have hanswers : ¬ argument.answers declared parameter position = true := by
          simp [answers_positional_iff hargument, hdeclared, heq]
        have hbeq : (name == parameter) = false := by simpa using heq
        rw [if_neg hanswers, hbeq]
        cases (declared.drop (position + 1)).idxOf? parameter <;> simp

/-- Of the named arguments, the one with the name of the parameter answers for it. -/
theorem firstAnswer_named (h : ∀ argument ∈ named, argument.name.isSome = true) :
    firstAnswer declared parameter position named =
      (named.find? fun argument => argument.name == some parameter).map Argument.expression := by
  induction named generalizing position with
  | nil => rfl
  | cons argument rest ih =>
    obtain ⟨hargument, hrest⟩ := List.forall_mem_cons.mp h
    rw [firstAnswer, answers_named hargument, List.find?_cons, ih hrest]
    cases argument.name == some parameter <;> rfl

end Answers

section Reordering

variable {site : InvocationSite} {positional named reordered : List Argument}

theorem argumentFor_eq (harguments : site.arguments = positional ++ named)
    (h : Argument.InOrder positional named) (parameter : String) :
    site.argumentFor parameter =
      (((site.declaredParameters.idxOf? parameter).bind (positional[·]?)).or
        (named.find? fun argument => argument.name == some parameter)).map
          Argument.expression := by
  unfold argumentFor
  rw [harguments, firstAnswer_append, firstAnswer_positional h.name_positional,
    firstAnswer_named h.isSome_name, List.drop_zero, Option.map_or]

theorem firstNamed_eq_of_perm (h : (named.map Argument.name).Nodup)
    (hperm : named.Perm reordered) (parameter : String) :
    (named.find? fun argument => argument.name == some parameter) =
      reordered.find? fun argument => argument.name == some parameter := by
  apply List.find?_eq_find?_of_perm hperm
  rintro argument ⟨hmem, hname⟩ other ⟨hother, hnameOther⟩
  rw [beq_iff_eq] at hname hnameOther
  exact List.inj_on_of_nodup_map h hmem hother (hname.trans hnameOther.symm)

theorem argumentFor_reordered (harguments : site.arguments = positional ++ named)
    (h : Argument.InOrder positional named) (hperm : named.Perm reordered) (parameter : String) :
    ({ site with arguments := positional ++ reordered } : InvocationSite).argumentFor parameter =
      site.argumentFor parameter := by
  rw [argumentFor_eq rfl (h.of_perm hperm), argumentFor_eq harguments h,
    firstNamed_eq_of_perm h.distinct hperm]
  rfl

/-- Extraction reads the arguments of a call by parameter, and counts them. -/
theorem extract_congr (e : Extractor) {arguments : List Argument}
    (hlength : arguments.length = site.arguments.length)
    (hanswers : ∀ parameter, ({ site with arguments } : InvocationSite).argumentFor parameter =
      site.argumentFor parameter) :
    e.extract { site with arguments } = e.extract site := by
  have hshape : ({ site with arguments } : InvocationSite).shape? e.registrationsType =
      site.shape? e.registrationsType := by
    simp only [shape?, hlength]
  have hcontract : ({ site with arguments } : InvocationSite).contract? = site.contract? := by
    simp only [contract?, hanswers]
  have hkind : ({ site with arguments } : InvocationSite).kind = site.kind := by
    funext shape
    simp only [kind, mode?, hanswers]
  unfold Extractor.extract
  rw [hshape, hcontract, hkind]
  rfl

end Reordering

/-- Where positional arguments come first and no name is given twice, the argument for a parameter is
the positional one at the place where the parameter is declared, or else the one named so. Giving
the named arguments in another order changes neither that nor what is extracted. -/
theorem reordered_arguments_agree (site : InvocationSite) {positional named reordered : List Argument}
    (harguments : site.arguments = positional ++ named) (h : Argument.InOrder positional named)
    (hperm : named.Perm reordered) :
    let other : InvocationSite := { site with arguments := positional ++ reordered }
    (∀ parameter, other.argumentFor parameter = site.argumentFor parameter) ∧
    (∀ e : Extractor, e.extract other = e.extract site) ∧
    (∀ (parameter : String) (position : Nat) (argument : Argument),
      positional[position]? = some argument →
      (argument.answers site.declaredParameters parameter position = true ↔
        site.declaredParameters[position]? = some parameter)) ∧
    ∀ parameter, site.argumentFor parameter =
      (((site.declaredParameters.idxOf? parameter).bind (positional[·]?)).or
        (named.find? fun argument => argument.name == some parameter)).map
          Argument.expression := by
  intro other
  have hlength : other.arguments.length = site.arguments.length := by
    rw [harguments]
    exact (hperm.append_left positional).length_eq.symm
  refine ⟨argumentFor_reordered harguments h hperm, fun e => ?_, ?_, argumentFor_eq harguments h⟩
  · exact extract_congr e hlength (argumentFor_reordered harguments h hperm)
  · intro parameter position argument hargument
    exact answers_positional_iff (h.name_positional argument (List.mem_of_getElem? hargument))

/-- A call of a method that declares the contract first; it is given by name, and last. -/
def namedContractCall : InvocationSite where
  methodName := "RegisterLazySingleton"
  typeArguments := [⟨0, "Test.Clock"⟩]
  arguments := [⟨some "mode", ⟨"Mode.None", .member "Test.Mode.None"⟩⟩,
    ⟨some "contract", ⟨"\"utc\"", .literal⟩⟩]
  location := ⟨"Program.cs", 3, 9⟩
  binding := some ⟨"Wirebind.Registrations", false, ["contract", "mode"]⟩

/-- Each of the named arguments stands at the place of the other's parameter. -/
theorem reordered_arguments_agree_namedContractCall :
    namedContractCall.arguments = [] ++ namedContractCall.arguments ∧
    Argument.InOrder [] namedContractCall.arguments ∧
    namedContractCall.arguments.Perm namedContractCall.arguments.reverse ∧
    (∀ e : Extractor,
      e.extract { namedContractCall with arguments := namedContractCall.arguments.reverse } =
        e.extract namedContractCall) ∧
    namedContractCall.argumentFor "contract" = some ⟨"\"utc\"", .literal⟩ := by
  have harguments : namedContractCall.arguments = [] ++ namedContractCall.arguments := rfl
  have horder : Argument.InOrder [] namedContractCall.arguments :=
    ⟨by simp, by decide, by decide⟩
  have hperm : namedContractCall.arguments.Perm namedContractCall.arguments.reverse :=
    (List.reverse_perm _).symm
  obtain ⟨_, hextract, _, hanswer⟩ :=
    reordered_arguments_agree namedContractCall harguments horder hperm
  exact ⟨harguments, horder, hperm, hextract, (hanswer "contract").trans (by decide)⟩

end InvocationSite
end Wiring
