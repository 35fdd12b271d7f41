/-! Looking up a name in a list of named values. -/
namespace Wiring

variable {α β : Type} [BEq α] [LawfulBEq α] {name other : α} {value : β} {entries : List (α × β)}

theorem lookup_cons_of_ne (h : name ≠ other) :
    List.lookup name ((other, value) :: entries) = entries.lookup name := by
  rw [List.lookup_cons, beq_eq_false_iff_ne.mpr h]

/-- Nothing is lost that was under a name whose values are all kept. -/
theorem lookup_filter {p : α × β → Bool} (h : ∀ value, p (name, value) = true) :
    (entries.filter p).lookup name = entries.lookup name := by
  induction entries with
  | nil => rfl
  | cons entry rest ih =>
    obtain ⟨other, value⟩ := entry
    by_cases hkept : p (other, value) = true
    · rw [List.filter_cons_of_pos hkept, List.lookup_cons, ih, List.lookup_cons]
    · have hne : name ≠ other := by
        rintro rfl
        exact hkept (h value)
      rw [List.filter_cons_of_neg hkept, ih, lookup_cons_of_ne hne]

end Wiring
