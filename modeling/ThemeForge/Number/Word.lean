/-!
# Whole numbers of 64 bits

The whole numbers of the expression language are those of a signed 64-bit word, and nothing wraps:
a number outside that range does not fit.
-/

namespace ThemeForge.Number

def InWord (i : Int) : Prop := Int64.minValue.toInt ≤ i ∧ i ≤ Int64.maxValue.toInt

instance (i : Int) : Decidable (InWord i) := inferInstanceAs (Decidable (_ ∧ _))

def fit? (i : Int) : Option Int64 := if InWord i then some (Int64.ofInt i) else none

theorem inWord_iff {i : Int} :
    InWord i ↔ -9223372036854775808 ≤ i ∧ i < 9223372036854775808 := by
  have low : Int64.minValue.toInt = -9223372036854775808 := rfl
  have high : Int64.maxValue.toInt = 9223372036854775807 := rfl
  rw [InWord, low, high]
  omega

theorem inWord_toInt (w : Int64) : InWord w.toInt :=
  inWord_iff.2 ⟨by simpa using w.le_toInt,by simpa using w.toInt_lt⟩

/-- A number fits exactly when the word for it stands for it. -/
theorem fit?_eq_some_iff {i : Int} {w : Int64} : fit? i = some w ↔ w.toInt = i := by
  constructor
  · intro fits
    unfold fit? at fits
    split at fits
    · next inside =>
      obtain ⟨low,high⟩ := inWord_iff.1 inside
      rw [← Option.some.inj fits]
      exact Int64.toInt_ofInt_of_le (by simpa using low) (by simpa using high)
    · contradiction
  · rintro rfl
    simp [fit?, inWord_toInt]

theorem fit?_eq_none_iff {i : Int} : fit? i = none ↔ ¬ InWord i := by
  simp [fit?]

theorem exists_fit? {i : Int} (inside : InWord i) : ∃ w, fit? i = some w ∧ w.toInt = i :=
  ⟨Int64.ofInt i,if_pos inside,fit?_eq_some_iff.1 (if_pos inside)⟩

end ThemeForge.Number
