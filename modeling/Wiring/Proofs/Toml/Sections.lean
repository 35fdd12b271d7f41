import Mathlib.Data.List.Nodup
import Wiring.Config.Saving
import Wiring.Proofs.Toml.Lines

/-! A document that is written section by section is read back table by table. While a section is
read, what surrounds its table stays as it is (`Opens`), and reading goes on from where the lines
before have left the document (`Draft.Reads`). -/
namespace Wiring.Toml

theorem lookup_concat {entries : Entries} {name : String} (h : entries.lookup name = none)
    (value : Toml) : (entries ++ [(name, value)]).lookup name = some value := by
  rw [List.lookup_append, h, Option.none_or, List.lookup_cons_self]

theorem replace_concat {entries : Entries} {name : String} (h : entries.lookup name = none)
    (old value : Toml) :
    replace name value (entries ++ [(name, old)]) = entries ++ [(name, value)] := by
  induction entries with
  | nil => simp [replace]
  | cons entry rest ih =>
    obtain ⟨other, held⟩ := entry
    rw [List.lookup_cons] at h
    split at h
    · exact nomatch h
    · rename_i hne
      have hother : other ≠ name := fun heq => by simp [heq] at hne
      rw [List.cons_append, replace, if_neg hother, ih h, List.cons_append]

/-- The headers of a path lead to a table that can stand for any, with the rest of the document
around it. -/
def Opens (path : List String) (around : Entries → Entries) : Prop :=
  ∀ f inner, change? false f path .header (around inner) = (f .header inner).map around

theorem opens_nil : Opens [] id := by
  intro f inner
  rw [change?, id, Option.map_id]
  rfl

theorem change?_append (dotted : Bool) (f : Origin → Entries → Option Entries)
    (path inner : List String) :
    change? dotted f (path ++ inner) = change? dotted (change? dotted f inner) path := by
  induction path with
  | nil =>
    funext origin entries
    rw [List.nil_append, change?]
  | cons name rest ih =>
    funext origin entries
    rw [List.cons_append, change?, change?, ih]

variable {path : List String} {around : Entries → Entries} {inner : Entries} {name : String}

theorem Opens.inside (h : Opens path around) (inner : Entries) (name : String)
    (hfree : inner.lookup name = none) :
    Opens (path ++ [name]) fun entries => around (inner ++ [(name, .table .header entries)]) := by
  intro f entries
  rw [change?_append, h, change?, lookup_concat hfree]
  simp only [Origin.isOpenTo, Bool.not_false, if_true, change?, Option.map_map]
  refine congrArg (fun g => Option.map g (f .header entries)) (funext fun entries => ?_)
  exact congrArg around (replace_concat hfree _ _)

theorem openTable?_inside (h : Opens path around) (hfree : inner.lookup name = none) :
    openTable? path name (around inner) =
      some (around (inner ++ [(name, .table .header [])])) := by
  rw [openTable?, h]
  simp only [hfree, Option.map_some]

/-- Reading the characters leads from one document to another, and goes on with the rest. -/
def Draft.Reads (d : Draft) (cs : List Char) (d' : Draft) : Prop :=
  ∀ rest bound, (cs ++ rest).length ≤ bound → ∃ bound', rest.length ≤ bound' ∧
    Draft.addLines? bound d (cs ++ rest) = Draft.addLines? bound' d' rest

namespace Draft.Reads

variable {d d' d'' : Draft} {cs cs' : List Char}

theorem nil (d : Draft) : Reads d [] d := fun _ bound hbound => ⟨bound, hbound, rfl⟩

theorem append (h : Reads d cs d') (h' : Reads d' cs' d'') : Reads d (cs ++ cs') d'' := by
  intro rest bound hbound
  rw [List.append_assoc] at hbound ⊢
  obtain ⟨left, hleft, heq⟩ := h (cs' ++ rest) bound hbound
  obtain ⟨left', hleft', heq'⟩ := h' rest left hleft
  exact ⟨left', hleft', heq.trans heq'⟩

theorem line {line : Line} (hne : cs ≠ [])
    (hline : ∀ rest, line? (cs ++ rest) = some (line, rest)) (hadd : d.add? line = some d') :
    Reads d cs d' := by
  intro rest bound hbound
  obtain ⟨c, others, rfl⟩ := List.exists_cons_of_ne_nil hne
  obtain ⟨bound, rfl⟩ : ∃ n, bound = n + 1 := ⟨bound - 1, by simp at hbound; omega⟩
  refine ⟨bound, by simp at hbound; omega, ?_⟩
  rw [List.cons_append, addLines?, ← List.cons_append, hline]
  · simp only [hadd, Option.bind_some]
  · exact nofun

theorem addLines?_eq (h : Reads d cs d') : Draft.addLines? cs.length d cs = some d' := by
  obtain ⟨bound, _, heq⟩ := h [] cs.length (by simp)
  rw [List.append_nil] at heq
  rw [heq]
  cases bound <;> rfl

end Draft.Reads

/-- The texts of fields are read as the values of entries of the same names. -/
inductive FieldsSpell : List (String × String) → Entries → Prop where
  | nil : FieldsSpell [] []
  | cons {name text : String} {value : Toml} {fields : List (String × String)} {entries : Entries}
    (hname : IsBare name) (hspells : Spells text value) (hrest : FieldsSpell fields entries) :
    FieldsSpell ((name, text) :: fields) ((name, value) :: entries)

theorem reads_field (h : Opens path around) (hfree : inner.lookup name = none) {text : String}
    {value : Toml} (hname : IsBare name) (hspells : Spells text value) :
    Draft.Reads ⟨around inner, path⟩ (name ++ " = " ++ text ++ "\n").toList
      ⟨around (inner ++ [(name, value)]), path⟩ := by
  have hassign : assign? [] name value .header inner = some (inner ++ [(name, value)]) := by
    rw [assign?, change?, hfree]
    rfl
  refine Draft.Reads.line (by simp) (line?_assignment hname hspells) ?_
  rw [Draft.add?, h, hassign]
  rfl

theorem lookup_eq_none_of_nodup {entry : String × Toml} {rest : Entries}
    (h : ((inner ++ entry :: rest).map Prod.fst).Nodup) : inner.lookup entry.1 = none := by
  rw [List.lookup_eq_none_iff]
  intro other hother
  rw [List.map_append, List.nodup_append] at h
  have hne := h.2.2 other.1 (List.mem_map_of_mem hother) entry.1 (by simp)
  simpa using Ne.symm hne

/-- The fields of a section are added to its table in order. -/
theorem reads_fields {fields : List (String × String)} {entries : Entries} (inner : Entries)
    (h : Opens path around) (hspell : FieldsSpell fields entries)
    (hnames : ((inner ++ entries).map Prod.fst).Nodup) :
    Draft.Reads ⟨around inner, path⟩
      (String.join (fields.map fun field => field.1 ++ " = " ++ field.2 ++ "\n")).toList
      ⟨around (inner ++ entries), path⟩ := by
  -- each field makes the table one longer, which is where the next one is read
  induction hspell generalizing inner with
  | nil =>
    rw [List.append_nil]
    exact .nil _
  | cons hname hspells _ ih =>
    have hone := reads_field h (lookup_eq_none_of_nodup hnames) hname hspells
    rw [List.append_cons] at hnames ⊢
    rw [List.map_cons, String.join_cons, String.toList_append]
    exact hone.append (ih _ hnames)

/-- A section becomes a table of its own, after what was there before. -/
theorem reads_section {header : String} {fields : List (String × String)} {entries : Entries}
    (inner : Entries) (h : Opens path around) (hfree : inner.lookup name = none)
    (hheads : Heads header path name) (hspell : FieldsSpell fields entries)
    (hnames : (entries.map Prod.fst).Nodup)
    (before : List String) :
    Draft.Reads ⟨around inner, before⟩ (Config.sectionText header fields).toList
      ⟨around (inner ++ [(name, .table .header entries)]), path ++ [name]⟩ := by
  have hheader : Draft.Reads ⟨around inner, before⟩ ("[" ++ header ++ "]\n").toList
      ⟨around (inner ++ [(name, .table .header [])]), path ++ [name]⟩ := by
    refine Draft.Reads.line (by simp) (line?_header hheads) ?_
    rw [Draft.add?, openTable?_inside h hfree]
    rfl
  rw [Config.sectionText, String.toList_append]
  exact hheader.append (reads_fields [] (h.inside inner name hfree) hspell hnames)

theorem withoutMark_sectionText (header : String) (fields : List (String × String))
    (rest : List Char) :
    withoutMark ((Config.sectionText header fields).toList ++ rest) =
      (Config.sectionText header fields).toList ++ rest := by
  simp [Config.sectionText, withoutMark]

theorem reads_blank (d : Draft) : Draft.Reads d ['\n'] d := by
  have hline (rest : List Char) : line? (['\n'] ++ rest) = some (.blank, rest) := rfl
  exact Draft.Reads.line (by simp) hline rfl

end Wiring.Toml
