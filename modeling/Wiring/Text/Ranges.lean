/-! Sets of characters as ascending ranges of code points. -/
namespace Wiring.Text

/-- Whether a code point lies in one of the ranges; they ascend, so the first range that does not
end before it decides. -/
def inRanges (n : Nat) : List (Nat × Nat) → Bool
  | [] => false
  | (low, high) :: rest => if n ≤ high then decide (low ≤ n) else inRanges n rest

theorem mem_of_inRanges {n : Nat} {ranges : List (Nat × Nat)} (h : inRanges n ranges = true) :
    ∃ r ∈ ranges, r.1 ≤ n ∧ n ≤ r.2 := by
  induction ranges with
  | nil => simp [inRanges] at h
  | cons r rest ih =>
    obtain ⟨low, high⟩ := r
    by_cases hn : n ≤ high
    · exact ⟨(low, high), List.mem_cons_self, by simpa [inRanges, hn] using h, hn⟩
    · obtain ⟨r, hr, hb⟩ := ih (by simpa [inRanges, hn] using h)
      exact ⟨r, List.mem_cons_of_mem _ hr, hb⟩

end Wiring.Text
