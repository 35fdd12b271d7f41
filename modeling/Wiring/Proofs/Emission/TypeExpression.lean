import Wiring.Proofs.Emission.Scan

/-! Types as they are displayed, and their names qualified. Of the names in a type, those of types
get an anchor, unless they are keywords or stand behind an alias; names of tuple elements, members
and brackets stay as they are. -/
namespace Wiring.Emission

section Grammar

/-- A letter or an underscore, and then letters, digits and underscores. -/
structure Identifier where
  first : Char
  rest : List Char
  starts : (Text.isAlphabetic first || first == '_') = true
  continues : ∀ c ∈ rest, (Text.isAlphanumeric c || c == '_') = true

def Identifier.text (name : Identifier) : List Char := name.first :: name.rest

/-- White space, or nothing. -/
structure Gap where
  text : List Char
  blank : ∀ c ∈ text, Text.isBlank c = true

/-- The names of members, each with a dot before it. -/
def memberTexts (members : List Identifier) : List Char :=
  members.flatMap fun member => '.' :: member.text

/-- Identifiers with dots between them. -/
structure Path where
  first : Identifier
  others : List Identifier

def Path.text (path : Path) : List Char := path.first.text ++ memberTexts path.others

/-- The name of a type that is no keyword, as it is or behind an alias. -/
inductive TypeName where
  | plain (path : Path) (not_keyword : String.ofList path.text ∉ keywordTypeNames)
  | aliased (qualifier : Identifier) (path : Path)

/-- The name of a tuple element, if it has one. -/
def elementText : Option Identifier → List Char
  | none => []
  | some name => ' ' :: name.text

mutual

/-- A type as it is displayed. -/
inductive TypeExpression where
  | keyword (name : String) (is_keyword : name ∈ keywordTypeNames)
  | named (name : TypeName) (applied : Application)
  | tuple (elements : TypeList)
  | nullable (type : TypeExpression)
  | array (type : TypeExpression) (commas : Nat)

/-- What a named type is applied to: angle lists, and members after each of them. -/
inductive Application where
  | done
  | angles (arguments : TypeList) (members : List Identifier) (more : Application)

/-- The types of an angle list or a tuple, whose elements may have names. -/
inductive TypeList where
  | last (type : TypeExpression) (name : Option Identifier)
  | cons (type : TypeExpression) (name : Option Identifier) (gap : Gap) (others : TypeList)

end

variable (anchor : List Char)

def TypeName.text : TypeName → List Char
  | .plain path _ => anchor ++ path.text
  | .aliased qualifier path => qualifier.text ++ "::".toList ++ path.text

mutual

/-- The text of a type, with `anchor` before every path that is neither a keyword nor behind an
alias. -/
def TypeExpression.text : TypeExpression → List Char
  | .keyword name _ => name.toList
  | .named name applied => name.text anchor ++ applied.text
  | .tuple elements => '(' :: (elements.text ++ [')'])
  | .nullable type => type.text ++ ['?']
  | .array type commas => type.text ++ '[' :: (List.replicate commas ',' ++ [']'])

def Application.text : Application → List Char
  | .done => []
  | .angles arguments members more =>
    '<' :: (arguments.text ++ '>' :: (memberTexts members ++ more.text))

def TypeList.text : TypeList → List Char
  | .last type name => type.text ++ elementText name
  | .cons type name gap others =>
    type.text ++ (elementText name ++ ',' :: (gap.text ++ others.text))

end

def TypeExpression.display (anchor : String) (type : TypeExpression) : String :=
  String.ofList (type.text anchor.toList)

end Grammar

section Identifiers

theorem Identifier.isName (name : Identifier) : IsName name.text where
  starts := ⟨name.first, rfl, name.starts⟩
  continues := by
    intro c hc
    rcases List.mem_cons.mp hc with rfl | hrest
    · exact continuesName_of_startsName name.starts
    · simp [continuesName, name.continues c hrest]

theorem continuesName_memberTexts (members : List Identifier) :
    ∀ c ∈ memberTexts members, continuesName c = true := by
  intro c hc
  obtain ⟨member, _, hmember⟩ := List.mem_flatMap.mp hc
  rcases List.mem_cons.mp hmember with rfl | hname
  · decide +kernel
  · exact member.isName.continues c hname

theorem Path.isName (path : Path) : IsName path.text where
  starts := by
    obtain ⟨c, rest, heq, hstarts⟩ := path.first.isName.exists_cons
    exact ⟨c, by simp [Path.text, heq], hstarts⟩
  continues := by
    intro c hc
    rcases List.mem_append.mp hc with hfirst | hothers
    · exact path.first.isName.continues c hfirst
    · exact continuesName_memberTexts path.others c hothers

theorem isName_keyword : ∀ name ∈ keywordTypeNames, IsName name.toList := by
  have hstarts : ∀ name ∈ keywordTypeNames, name.toList.head?.any startsName = true := by
    decide +kernel
  have hcontinues : ∀ name ∈ keywordTypeNames, name.toList.all continuesName = true := by
    decide +kernel
  intro name hname
  exact ⟨(Option.any_eq_true ..).mp (hstarts name hname),
    List.all_eq_true.mp (hcontinues name hname)⟩

theorem opensType_elementText (name : Option Identifier) :
    ∀ c ∈ elementText name, opensType c = false := by
  cases name with
  | none => simp [elementText]
  | some name =>
    intro c hc
    rcases List.mem_cons.mp hc with rfl | hname
    · decide
    · exact opensType_of_continuesName (name.isName.continues c hname)

theorem detached_elementText (name : Option Identifier) {s : List Char} (h : Detached s) :
    Detached (elementText name ++ s) := by
  cases name with
  | none => exact h
  | some name => exact detached_cons (by decide +kernel) _

theorem Application.detached (anchor : List Char) (applied : Application) :
    Detached (applied.text anchor) := by
  cases applied with
  | done => exact detached_nil
  | angles arguments members more => exact detached_cons (by decide +kernel) _

end Identifiers

section Reading

variable {s t s' t' : List Char} {atStart : Bool} {c : Char}

/-- A text that is read where a type may start, or where none may, becomes `t`, and no type may
start after it. -/
structure Becomes (atStart : Bool) (s t : List Char) : Prop where
  qualified : qualifyFrom atStart s = t
  settled : typeMayStart atStart s = false

namespace Becomes

theorem nil : Becomes false [] [] := ⟨qualifyFrom_nil false, rfl⟩

theorem cons (hnot : (atStart && startsName c) = false)
    (h : Becomes (typeMayStartAfter atStart c) s t) : Becomes atStart (c :: s) (c :: t) where
  qualified := by rw [qualifyFrom_cons hnot, h.qualified]
  settled := h.settled

theorem append (h : Becomes atStart s t) (h' : Becomes false s' t') (hdetached : Detached s') :
    Becomes atStart (s ++ s') (t ++ t') where
  qualified := by rw [qualifyFrom_append hdetached, h.qualified, h.settled, h'.qualified]
  settled := by rw [typeMayStart_append, h.settled, h'.settled]

theorem name {name after : List Char} (hname : IsName name) (hends : EndsName after)
    (h : Becomes false after t) : Becomes true (name ++ after) (qualifyName name after ++ t) where
  qualified := by rw [qualifyFrom_name hname hends, h.qualified]
  settled := by rw [typeMayStart_append, typeMayStart_name hname, h.settled]

theorem plain (hplain : ∀ c ∈ s, opensType c = false) (h : Becomes false s' t') :
    Becomes false (s ++ s') (s ++ t') where
  qualified := by rw [qualifyFrom_plain hplain, h.qualified]
  settled := by rw [typeMayStart_append, typeMayStart_plain hplain, h.settled]

theorem self (hplain : ∀ c ∈ s, opensType c = false) : Becomes false s s := by
  simpa using plain hplain nil

theorem delimiter (hc : opensType c = true) (h : Becomes true s t) :
    Becomes atStart (c :: s) (c :: t) := by
  apply cons (by simp [startsName_of_opensType hc])
  simpa [typeMayStartAfter, hc] using h

theorem gap (hgap : ∀ c ∈ s, Text.isBlank c = true) (h : Becomes true s' t') :
    Becomes true (s ++ s') (s ++ t') := by
  induction s with
  | nil => exact h
  | cons c rest ih =>
    have hblank : Text.isBlank c = true := hgap c List.mem_cons_self
    have hstart : startsName c = false :=
      startsName_of_not_continuesName (continuesName_of_isBlank hblank)
    apply cons (by simp [hstart])
    simpa [typeMayStartAfter, hblank] using ih fun d hd => hgap d (List.mem_cons_of_mem c hd)

/-- Each comma of a rank could start a type, and the bracket after it shows that none does. -/
theorem rank (commas : Nat) (atStart : Bool) :
    Becomes atStart (List.replicate commas ',' ++ [']']) (List.replicate commas ',' ++ [']']) := by
  induction commas generalizing atStart with
  | zero =>
    have hnot : startsName ']' = false := by decide +kernel
    have hstate : typeMayStartAfter atStart ']' = false := by cases atStart <;> decide
    apply cons (by simp [hnot])
    rw [hstate]
    exact nil
  | succ commas ih => exact delimiter (by decide) (ih true)

theorem brackets (commas : Nat) :
    Becomes false ('[' :: (List.replicate commas ',' ++ [']']))
      ('[' :: (List.replicate commas ',' ++ [']'])) :=
  cons (Bool.false_and _) (rank commas _)

end Becomes

theorem becomes_keyword {name : String} (h : name ∈ keywordTypeNames) :
    Becomes true name.toList name.toList := by
  have hname := Becomes.nil.name (isName_keyword name h) (by simp [EndsName])
  have hkept : qualifyName name.toList [] = name.toList := by
    rw [qualifyName_eq_ite, if_neg (by simp [h])]
  simpa [hkept] using hname

theorem TypeName.becomes (name : TypeName) :
    Becomes true (name.text []) (name.text globalAlias.toList) := by
  cases name with
  | plain path not_keyword =>
    have hname := Becomes.nil.name path.isName (by simp [EndsName])
    have hanchored : qualifyName path.text [] = globalAlias.toList ++ path.text := by
      rw [qualifyName_eq_ite, if_pos ⟨by decide, not_keyword⟩]
    simpa [hanchored, TypeName.text] using hname
  | aliased qualifier path =>
    have hread : Becomes true (qualifier.text ++ ("::".toList ++ path.text))
        (qualifier.text ++ ("::".toList ++ path.text)) :=
      { qualified := by simpa using qualifyFrom_aliased qualifier.isName path.isName []
        settled := by
          rw [typeMayStart_append, typeMayStart_name qualifier.isName,
            typeMayStart_plain (opensType_colons_name path.isName)] }
    simpa only [TypeName.text, List.append_assoc] using hread

mutual

/-- Every part of a type leaves the reader where no type may start: at the end of a name or behind a
bracket or a mark. -/
theorem TypeExpression.becomes :
    ∀ type : TypeExpression, Becomes true (type.text []) (type.text globalAlias.toList)
  | .keyword _ is_keyword => becomes_keyword is_keyword
  | .named name applied => name.becomes.append applied.becomes (applied.detached [])
  | .tuple elements => by
    have hclose : Becomes false [')'] [')'] := .cons (Bool.false_and _) .nil
    have hinside := elements.becomes.append hclose (detached_cons (by decide +kernel) [])
    exact hinside.delimiter (by decide)
  | .nullable type => by
    have hmark : Becomes false ['?'] ['?'] := .cons (Bool.false_and _) .nil
    exact type.becomes.append hmark (detached_cons (by decide +kernel) [])
  | .array type commas =>
    type.becomes.append (Becomes.brackets commas) (detached_cons (by decide +kernel) _)

theorem Application.becomes :
    ∀ applied : Application, Becomes false (applied.text []) (applied.text globalAlias.toList)
  | .done => .nil
  | .angles arguments members more => by
    have hmembers := more.becomes.plain fun c hc =>
      opensType_of_continuesName (continuesName_memberTexts members c hc)
    have hclose := Becomes.cons (c := '>') (Bool.false_and _) hmembers
    have hinside := arguments.becomes.append hclose (detached_cons (by decide +kernel) _)
    exact hinside.delimiter (by decide)

theorem TypeList.becomes :
    ∀ types : TypeList, Becomes true (types.text []) (types.text globalAlias.toList)
  | .last type name => by
    have hname : Becomes false (elementText name) (elementText name) :=
      .self (opensType_elementText name)
    apply type.becomes.append hname
    simpa using detached_elementText name detached_nil
  | .cons type name gap others => by
    have hothers : Becomes false (',' :: (gap.text ++ others.text []))
        (',' :: (gap.text ++ others.text globalAlias.toList)) :=
      (others.becomes.gap gap.blank).delimiter (by decide)
    apply type.becomes.append (hothers.plain (opensType_elementText name))
    exact detached_elementText name (detached_cons (by decide +kernel) _)

end

end Reading

/-- The names of a displayed type are qualified as the type is displayed with anchors. -/
theorem globalName_display (type : TypeExpression) :
    globalName (type.display "") = type.display globalAlias := by
  rw [globalName, TypeExpression.display, String.toList_ofList]
  exact congrArg String.ofList type.becomes.qualified

/-- The names of `T<U, int[,]>.V?`. -/
example :
    let name (c : Char) (h : Text.isAlphabetic c = true) : Identifier :=
      ⟨c, [], by simp [h], by simp⟩
    let gap : Gap := ⟨[' '], List.all_eq_true.mp (by decide)⟩
    let elements : TypeList :=
      .cons (.named (.plain ⟨name 'U' (by decide), []⟩ (by decide)) .done) none gap
        (.last (.array (.keyword "int" (by decide)) 1) none)
    let type : TypeExpression :=
      .nullable (.named (.plain ⟨name 'T' (by decide), []⟩ (by decide))
        (.angles elements [name 'V' (by decide)] .done))
    type.display "" = "T<U, int[,]>.V?" ∧
      type.display globalAlias = "global::T<global::U, int[,]>.V?" := by
  decide

end Wiring.Emission
