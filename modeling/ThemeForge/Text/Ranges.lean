/-!
# Sets of characters as ranges

A Unicode property is stored as an ascending list of closed ranges of code points, and a character
is looked up by walking the list until its ranges lie above it.
-/

namespace ThemeForge.Text

def inRanges (n : Nat) : List (Nat × Nat) → Bool
  | [] => false
  | (low,high) :: rest => if n < low then false else n ≤ high || inRanges n rest

/-- A number found in the list lies in one of its ranges, whatever their order. -/
theorem exists_range_of_inRanges {n : Nat} {ranges : List (Nat × Nat)}
    (found : inRanges n ranges = true) : ∃ r ∈ ranges, r.1 ≤ n ∧ n ≤ r.2 := by
  induction ranges with
  | nil => simp [inRanges] at found
  | cons r rest ih =>
    obtain ⟨low,high⟩ := r
    simp only [inRanges] at found
    split at found
    · contradiction
    · next above =>
      by_cases inside : n ≤ high
      · exact ⟨(low,high),by simp,by omega,inside⟩
      · obtain ⟨r,member,bounds⟩ := ih (by simpa [inside] using found)
        exact ⟨r,by simp [member],bounds⟩

end ThemeForge.Text
