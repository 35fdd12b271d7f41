import Wiring.Decode.Writer
import Wiring.Proofs.Lookup

/-! Records are read back field by field. A record that gives its known fields in order is taken as
it is, and a field is found by its name; what a format asks of its values is collected in
`Writer`. -/
namespace Wiring.Decode

theorem hasRepetition_eq_false_iff {names : List String} :
    hasRepetition names = false ↔ names.Nodup := by
  induction names with
  | nil => simp [hasRepetition]
  | cons name rest ih => simp [hasRepetition, ih, List.nodup_cons]

namespace Record

variable {ν α : Type} {names : List String} {fields : List (String × ν)}

/-- Fields with known names, in order and some of them left out, are all kept. -/
theorem ofEntries?_of_sublist (hnames : names.Nodup)
    (hfields : (fields.map Prod.fst).Sublist names) :
    ofEntries? names fields = some ⟨fields, false⟩ := by
  have hknown : (fields.filter fun entry => names.contains entry.1) = fields := by
    rw [List.filter_eq_self]
    intro entry hentry
    exact List.contains_iff_mem.mpr (hfields.subset (List.mem_map_of_mem hentry))
  have hdistinct : hasRepetition (fields.map Prod.fst) = false :=
    hasRepetition_eq_false_iff.mpr (hfields.nodup hnames)
  unfold ofEntries?
  simp only [hknown, hdistinct, Bool.false_eq_true, if_false]

/-- A field with a known name is the first entry under that name. -/
theorem find?_of_ofEntries? {entries : List (String × ν)} {r : Record ν} {name : String}
    (h : ofEntries? names entries = some r) (hname : name ∈ names) :
    r.find? name = entries.lookup name := by
  unfold ofEntries? at h
  dsimp only at h
  split at h
  · exact nomatch h
  · obtain rfl := Option.some.inj h
    exact lookup_filter fun _ => List.contains_iff_mem.mpr hname

/-! A field is found behind fields of other names. -/

section Fields

variable {name other : String} {v : ν} {positional : Bool}

theorem find?_cons_self :
    (Record.mk ((name, v) :: fields) positional).find? name = some v :=
  List.lookup_cons_self

theorem find?_cons_of_ne (h : name ≠ other) :
    (Record.mk ((other, v) :: fields) positional).find? name =
      (Record.mk fields positional).find? name :=
  lookup_cons_of_ne h

@[simp]
theorem required_cons_self (decode : ν → Option α) :
    (Record.mk ((name, v) :: fields) positional).required name decode = decode v := by
  rw [required, find?_cons_self, Option.bind_some]

@[simp]
theorem required_cons_of_ne (h : name ≠ other) (decode : ν → Option α) :
    (Record.mk ((other, v) :: fields) positional).required name decode =
      (Record.mk fields positional).required name decode := by
  rw [required, find?_cons_of_ne h, required]

@[simp]
theorem withDefault_nil (absent : α) (decode : ν → Option α) :
    (Record.mk [] positional).withDefault name absent decode = some absent := rfl

@[simp]
theorem withDefault_cons_self (absent : α) (decode : ν → Option α) :
    (Record.mk ((name, v) :: fields) positional).withDefault name absent decode = decode v := by
  rw [withDefault, find?_cons_self]

@[simp]
theorem withDefault_cons_of_ne (h : name ≠ other) (absent : α) (decode : ν → Option α) :
    (Record.mk ((other, v) :: fields) positional).withDefault name absent decode =
      (Record.mk fields positional).withDefault name absent decode := by
  rw [withDefault, find?_cons_of_ne h, withDefault]

@[simp]
theorem optional_cons_self [ValueTree ν] (decode : ν → Option α) :
    (Record.mk ((name, v) :: fields) positional).optional name decode = nullable decode v := by
  rw [optional, find?_cons_self]

@[simp]
theorem optional_cons_of_ne [ValueTree ν] (h : name ≠ other) (decode : ν → Option α) :
    (Record.mk ((other, v) :: fields) positional).optional name decode =
      (Record.mk fields positional).optional name decode := by
  rw [optional, find?_cons_of_ne h, optional]

end Fields

end Record

/-- What is read of an optional value where nothing else stands for its absence. -/
theorem nullable_of_absent?_eq {ν α : Type} [ValueTree ν] {decode : ν → Option α} {v : ν}
    (h : absent? v = some false) : nullable decode v = (decode v).map some := by
  unfold nullable
  rw [h]

namespace Writer

variable {ν : Type} [ValueTree ν] (W : Writer ν)

theorem record?_of_sublist {names : List String} {fields : List (String × ν)}
    (hnames : names.Nodup) (hfields : (fields.map Prod.fst).Sublist names) :
    record? names (W.record fields) = some ⟨fields, false⟩ := by
  rw [W.record?_record, Record.ofEntries?_of_sublist hnames hfields]

end Writer
end Wiring.Decode
