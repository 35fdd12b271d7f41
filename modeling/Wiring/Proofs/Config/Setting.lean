import Mathlib.Data.List.Nodup
import Wiring.Config.Setting
import Wiring.Proofs.Lookup

/-! Settings by the path of names that leads to them. Where the way to a place leads through tables
in both of two layers, what the upper layer has at the place wins over what the lower one has; what
stands beside the way does not matter. -/
namespace Wiring.Setting

/-- The setting under a path of names. -/
def at? : List String → Setting → Option Setting
  | [], s => some s
  | name :: rest, .table entries => (entries.lookup name).bind (at? rest)
  | _ :: _, _ => none

@[simp]
theorem at?_nil (s : Setting) : at? [] s = some s := by
  rw [at?]

@[simp]
theorem at?_table_nil (name : String) (rest : List String) :
    at? (name :: rest) (.table []) = none := by rfl

@[simp]
theorem at?_table_cons_self (name : String) (rest : List String) (s : Setting)
    (entries : List (String × Setting)) :
    at? (name :: rest) (.table ((name, s) :: entries)) = at? rest s := by
  rw [at?, List.lookup_cons_self, Option.bind_some]

@[simp]
theorem at?_table_cons_of_ne {name other : String} (h : name ≠ other) (rest : List String)
    (s : Setting) (entries : List (String × Setting)) :
    at? (name :: rest) (.table ((other, s) :: entries)) = at? (name :: rest) (.table entries) := by
  rw [at?, lookup_cons_of_ne h, at?]

/-- As far as there is anything on the way of a path, the way leads through tables. -/
def IsOpenTo : List String → Setting → Prop
  | [], _ => True
  | name :: rest, s =>
    ∃ entries, s = .table entries ∧ ∀ inner, entries.lookup name = some inner → IsOpenTo rest inner

/-- No table gives a name twice. -/
inductive Distinct : Setting → Prop where
  | text (s : String) : Distinct (.text s)
  | flag (b : Bool) : Distinct (.flag b)
  | number : Distinct .number
  | list (items : List Setting) : Distinct (.list items)
  | table {entries : List (String × Setting)} (names : (entries.map Prod.fst).Nodup)
    (values : ∀ entry ∈ entries, Distinct entry.2) : Distinct (.table entries)

/-- What two layers give together at one place. -/
def over? : Option Setting → Option Setting → Option Setting
  | some upper, some lower => some (overlay upper lower)
  | some upper, none => some upper
  | none, lower => lower

variable {name : String} {value upper lower : Setting} {entries : List (String × Setting)}

theorem lookup_put (name : String) (value : Setting) (entries : List (String × Setting))
    (other : String) :
    (put name value entries).lookup other =
      if other = name then some value else entries.lookup other := by
  induction entries with
  | nil =>
    by_cases hother : other = name
    · simp [put, hother]
    · simp [put, lookup_cons_of_ne hother, hother]
  | cons entry rest ih =>
    obtain ⟨head, old⟩ := entry
    by_cases hhead : head = name
    · subst hhead
      by_cases hother : other = head
      · simp [put, hother]
      · simp [put, lookup_cons_of_ne hother, hother]
    · by_cases hother : other = head
      · simp [put, hother, hhead]
      · simp [put, lookup_cons_of_ne hother, hhead, ih]

theorem lookup_entriesOver {above : List (String × Setting)} (hnames : (above.map Prod.fst).Nodup)
    (below : List (String × Setting)) (name : String) :
    (entriesOver above below).lookup name = over? (above.lookup name) (below.lookup name) := by
  induction above generalizing below with
  | nil => rfl
  | cons entry rest ih =>
    obtain ⟨head, value⟩ := entry
    rw [List.map_cons, List.nodup_cons] at hnames
    rw [entriesOver, ih hnames.2, lookup_put]
    by_cases hname : name = head
    · subst hname
      have hrest : rest.lookup name = none := by
        rw [List.lookup_eq_none_iff]
        intro entry hentry
        have hne : name ≠ entry.1 := fun heq =>
          hnames.1 (List.mem_map.mpr ⟨entry, hentry, heq.symm⟩)
        simpa using hne
      rw [if_pos rfl, hrest, List.lookup_cons_self]
      cases below.lookup name <;> rfl
    · rw [if_neg hname, lookup_cons_of_ne hname]

/-- On a way through tables, the layers are laid over each other place by place. -/
theorem at?_overlay {path : List String} (hdistinct : upper.Distinct)
    (hupper : upper.IsOpenTo path) (hlower : lower.IsOpenTo path) :
    (overlay upper lower).at? path = over? (upper.at? path) (lower.at? path) := by
  induction path generalizing upper lower with
  | nil => rfl
  | cons name rest ih =>
    obtain ⟨above, rfl, habove⟩ := hupper
    obtain ⟨below, rfl, hbelow⟩ := hlower
    cases hdistinct with
    | table hnames hvalues =>
      simp only [overlay, at?, lookup_entriesOver hnames]
      cases hup : above.lookup name with
      | none => rfl
      | some inner =>
        cases hlow : below.lookup name with
        | none =>
          simp only [over?, Option.bind_some, Option.bind_none]
          cases inner.at? rest <;> rfl
        | some old =>
          obtain ⟨before, after, hentries, _⟩ := List.lookup_eq_some_iff.mp hup
          exact ih (hvalues (name, inner) (by simp [hentries])) (habove inner hup) (hbelow old hlow)

theorem IsOpenTo.overlay {path : List String} (hdistinct : upper.Distinct)
    (hupper : upper.IsOpenTo path) (hlower : lower.IsOpenTo path) :
    (overlay upper lower).IsOpenTo path := by
  induction path generalizing upper lower with
  | nil => trivial
  | cons name rest ih =>
    obtain ⟨above, rfl, habove⟩ := hupper
    obtain ⟨below, rfl, hbelow⟩ := hlower
    cases hdistinct with
    | table hnames hvalues =>
      refine ⟨_, by rw [Setting.overlay], fun inner hinner => ?_⟩
      rw [lookup_entriesOver hnames] at hinner
      cases hup : above.lookup name with
      | none => exact hbelow inner (by rw [← hinner, hup, over?])
      | some new =>
        cases hlow : below.lookup name with
        | none => exact habove inner (by rw [← hinner, hup, hlow, over?])
        | some old =>
          rw [hup, hlow, over?, Option.some.injEq] at hinner
          obtain ⟨before, after, hentries, _⟩ := List.lookup_eq_some_iff.mp hup
          rw [← hinner]
          exact ih (hvalues (name, new) (by simp [hentries])) (habove new hup) (hbelow old hlow)

/-- Where no table comes of it, the upper of two layers wins as it is. -/
theorem over?_eq_or {above below : Option Setting}
    (h : ∀ entries, over? above below ≠ some (.table entries)) :
    over? above below = above.or below := by
  cases above with
  | none => rfl
  | some upper =>
    cases below with
    | none => rfl
    | some lower =>
      cases upper with
      | table entries =>
        cases lower with
        | table old => exact absurd rfl (h (entriesOver entries old))
        | _ => rfl
      | _ => rfl

/-- A way is open when there are tables at its start and at every place on it. -/
theorem isOpenTo_of_prefix {path : List String} {s : Setting}
    (h : ∀ place, place <+: path → place ≠ path → ∀ inner, s.at? place = some inner →
      ∃ entries, inner = .table entries) : s.IsOpenTo path := by
  induction path generalizing s with
  | nil => trivial
  | cons name rest ih =>
    obtain ⟨entries, rfl⟩ := h [] List.nil_prefix (List.cons_ne_nil _ _).symm s rfl
    refine ⟨entries, rfl, fun inner hinner => ih fun place hplace hne => ?_⟩
    have hat : at? (name :: place) (.table entries) = inner.at? place := by
      rw [at?, hinner, Option.bind_some]
    rw [← hat]
    exact h (name :: place) (List.cons_prefix_cons.mpr ⟨rfl, hplace⟩) (by simpa using hne)

/-! Laying over each other gives no name twice. -/

theorem distinct_empty : Distinct (.table []) := .table (by simp) (by simp)

theorem mem_put {entry : String × Setting} (h : entry ∈ put name value entries) :
    entry = (name, value) ∨ entry ∈ entries := by
  induction entries with
  | nil => simpa [put] using h
  | cons head rest ih =>
    obtain ⟨other, old⟩ := head
    unfold put at h
    split at h
    · rename_i hother
      rcases List.mem_cons.mp h with rfl | hrest
      · exact .inl (by rw [hother])
      · exact .inr (List.mem_cons_of_mem _ hrest)
    · rcases List.mem_cons.mp h with rfl | hrest
      · exact .inr List.mem_cons_self
      · exact (ih hrest).imp_right (List.mem_cons_of_mem _)

theorem nodup_put (hnames : (entries.map Prod.fst).Nodup) :
    ((put name value entries).map Prod.fst).Nodup := by
  induction entries with
  | nil => simp [put]
  | cons head rest ih =>
    obtain ⟨other, old⟩ := head
    rw [List.map_cons, List.nodup_cons] at hnames
    unfold put
    split
    · exact List.nodup_cons.mpr hnames
    · rename_i hother
      refine List.nodup_cons.mpr ⟨fun hmem => ?_, ih hnames.2⟩
      obtain ⟨entry, hentry, hname⟩ := List.mem_map.mp hmem
      rcases mem_put hentry with rfl | hrest
      · exact hother hname.symm
      · exact hnames.1 (List.mem_map.mpr ⟨entry, hrest, hname⟩)

theorem Distinct.put (hentries : Distinct (.table entries)) (hvalue : value.Distinct) :
    Distinct (.table (put name value entries)) := by
  cases hentries with
  | table hnames hvalues =>
    refine .table (nodup_put hnames) fun entry hentry => ?_
    rcases mem_put hentry with rfl | hold
    · exact hvalue
    · exact hvalues entry hold

theorem Distinct.entriesOver {above below : List (String × Setting)}
    (habove : ∀ entry ∈ above, entry.2.Distinct ∧
      ∀ lower : Setting, lower.Distinct → (overlay entry.2 lower).Distinct)
    (hbelow : Distinct (.table below)) : Distinct (.table (entriesOver above below)) := by
  induction above generalizing below with
  | nil => exact hbelow
  | cons entry rest ih =>
    obtain ⟨name, value⟩ := entry
    obtain ⟨hvalue, hoverlay⟩ := habove (name, value) List.mem_cons_self
    rw [Setting.entriesOver]
    refine ih (fun entry hentry => habove entry (List.mem_cons_of_mem _ hentry)) (hbelow.put ?_)
    cases hlow : below.lookup name with
    | none => exact hvalue
    | some old =>
      obtain ⟨before, after, hentries, _⟩ := List.lookup_eq_some_iff.mp hlow
      cases hbelow with
      | table _ hvalues => exact hoverlay old (hvalues (name, old) (by simp [hentries]))

theorem Distinct.overlay (hupper : upper.Distinct) (hlower : lower.Distinct) :
    (overlay upper lower).Distinct := by
  induction hupper generalizing lower with
  | table hnames hvalues ih =>
    cases lower with
    | table below =>
      rw [Setting.overlay]
      exact Distinct.entriesOver
        (fun entry hentry => ⟨hvalues entry hentry, fun _ => ih entry hentry⟩) hlower
    | _ => exact .table hnames hvalues
  | text s => exact .text s
  | flag b => exact .flag b
  | number => exact .number
  | list items => exact .list items

end Wiring.Setting
