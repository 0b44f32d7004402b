/-!
# Numbers as bytes

The digits of a number to the base 256, and the number that a list of digits stands for.
-/

namespace ThemeForge.Number

/-- The bytes of a number, least significant first, without zeros at the end. Zero has none. -/
def littleBytes (n : Nat) : List Nat :=
  if n = 0 then [] else n % 256 :: littleBytes (n / 256)
termination_by n
decreasing_by omega

/-- The bytes of a number, most significant first, without zeros at the start. -/
def bigBytes (n : Nat) : List Nat := (littleBytes n).reverse

/-- The number whose bytes these are, most significant first. -/
def ofBigBytes (bytes : List Nat) : Nat := bytes.foldl (fun n b => n * 256 + b) 0

@[simp] theorem littleBytes_zero : littleBytes 0 = [] := by rw [littleBytes]; simp

theorem littleBytes_of_pos {n : Nat} (pos : 0 < n) :
    littleBytes n = n % 256 :: littleBytes (n / 256) := by
  rw [littleBytes]; simp [Nat.ne_of_gt pos]

@[simp] theorem ofBigBytes_nil : ofBigBytes [] = 0 := rfl

@[simp] theorem ofBigBytes_append (bytes : List Nat) (b : Nat) :
    ofBigBytes (bytes ++ [b]) = ofBigBytes bytes * 256 + b := by
  simp [ofBigBytes]

end ThemeForge.Number
