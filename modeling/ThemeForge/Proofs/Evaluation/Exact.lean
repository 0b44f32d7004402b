import ThemeForge.Session
import Mathlib

/-!
# Exact arithmetic

What a tree of whole numbers, signs and operators is worth over the rational numbers. Where the session
finds a whole number it is that one, and all below it are whole numbers too: a double never becomes a
whole number again.
-/

namespace ThemeForge

def Sign.rational (a : ℚ) : Sign → ℚ
  | .plus => a
  | .minus => -a

/-- The exact value of an operator between numbers. Division by zero has none. -/
def Operator.rational? (a b : ℚ) : Operator → Option ℚ
  | .add => some (a + b)
  | .sub => some (a - b)
  | .mul => some (a * b)
  | .div => if b = 0 then none else some (a / b)

namespace Expr

/-- Trees of whole numbers, the name `NRGB`, signs and operators. -/
inductive Arithmetic : Expr → Prop
  | int (value : Int64) : Arithmetic (.int value)
  | noAlpha : Arithmetic (.symbol "NRGB")
  | unary (sign : Sign) : Arithmetic operand → Arithmetic (.unary sign operand)
  | binary (operator : Operator) : Arithmetic left → Arithmetic right →
      Arithmetic (.binary operator left right)

/-- The exact value of a tree. Nothing but numbers has one. -/
def rational? : Expr → Option ℚ
  | .int value => some value.toInt
  | .symbol name => if name = "NRGB" then some 0x1000000 else none
  | .unary sign operand => operand.rational?.map fun a => sign.rational a
  | .binary operator left right => do operator.rational? (← left.rational?) (← right.rational?)
  | _ => none

/-- A tree and all trees below its signs and operators. -/
def parts : Expr → List Expr
  | .unary sign operand => .unary sign operand :: operand.parts
  | .binary operator left right => .binary operator left right :: (left.parts ++ right.parts)
  | e => [e]

def Undivided (e : Expr) : Prop := ∀ left right, Expr.binary .div left right ∉ e.parts

def InRange (e : Expr) : Prop := ∃ q, e.rational? = some q ∧ -2 ^ 63 ≤ q ∧ q ≤ 2 ^ 63 - 1

def Fits (e : Expr) : Prop := ∃ w : Int64, e.rational? = some (w.toInt : ℚ)

end Expr

variable {e sub : Expr} {w : Int64} {v : Value}

namespace Query

variable {q : Query α} {next : α → Query β} {b : β}

theorem bind_eq_done_iff : q >>= next = .done b ↔ ∃ a, q = .done a ∧ next a = .done b := by
  cases q <;> simp

theorem ofExcept_eq_done_iff {result : Except Fault α} {a : α} :
    ofExcept result = .done a ↔ result = .ok a := by
  cases result <;> simp [ofExcept]

end Query

/-- A sign gives a whole number for whole numbers only, and the exact one. -/
theorem Sign.apply_eq_int_iff {sign : Sign} : sign.apply v = .ok (.int w) ↔
    ∃ i, v = .int i ∧ sign.rational i.toInt = w.toInt := by
  cases v with
  | int i =>
    cases sign with
    | plus => simp [apply, rational, Int64.toInt_inj]
    | minus =>
      simp only [apply, rational, Value.whole_eq_int_iff, Value.int.injEq, exists_eq_left']
      norm_cast
      exact eq_comm
  | float x => cases sign <;> simp [apply]
  | text s => simp [apply]

theorem Operator.floats_ne_int (operator : Operator) (a b : Float) :
    operator.floats a b ≠ .ok (.int w) := by
  cases operator <;> simp [floats]
  split <;> simp

/-- A quotient is whole exactly if the division leaves no remainder. -/
theorem exact_div_iff {a b i : Int} (some : b ≠ 0) : (a : ℚ) / b = i ↔ b ∣ a ∧ a / b = i := by
  have some' : (b : ℚ) ≠ 0 := by exact_mod_cast some
  rw [div_eq_iff some']
  norm_cast
  constructor
  · rintro rfl
    exact ⟨Dvd.intro_left i rfl,Int.mul_ediv_cancel i some⟩
  · rintro ⟨divides,rfl⟩
    exact (Int.ediv_mul_cancel divides).symm

theorem Operator.wholes_eq_int_iff {operator : Operator} {a b : Int64} :
    operator.wholes a b = .ok (.int w) ↔ operator.rational? a.toInt b.toInt = some (w.toInt : ℚ) := by
  cases operator with
  | add | sub | mul =>
    simp only [wholes, rational?, Value.whole_eq_int_iff, Option.some.injEq]
    norm_cast
    exact eq_comm
  | div =>
    simp only [wholes, rational?, Int.cast_eq_zero]
    by_cases zero : b.toInt = 0
    · simp [zero]
    · rw [if_neg zero, if_neg zero, Option.some.injEq, exact_div_iff zero]
      by_cases divides : b.toInt ∣ a.toInt
      · rw [if_pos divides, Value.whole_eq_int_iff, and_iff_right divides, eq_comm]
      · simp [divides, floats_ne_int]

theorem Operator.apply_eq_int_iff {operator : Operator} {left right : Value} :
    operator.apply left right = .ok (.int w) ↔ ∃ a b, left = .int a ∧ right = .int b ∧
      operator.rational? a.toInt b.toInt = some (w.toInt : ℚ) := by
  cases left with
  | int a =>
    cases right with
    | int b => simp [apply, wholes_eq_int_iff]
    | float y => simp [apply, Value.float?, floats_ne_int]
    | text s => simp [apply, Value.float?]
  | float x => cases right <;> simp [apply, Value.float?, floats_ne_int]
  | text s =>
    cases right with
    | text s' => cases operator <;> simp [apply]
    | int b => simp [apply, Value.float?]
    | float y => simp [apply, Value.float?]

theorem Value.whole_or_overflow (i : Int) :
    (∃ w, whole i = .ok (.int w)) ∨ whole i = .error .overflow := by
  by_cases inside : Number.InWord i
  · obtain ⟨w,done,_⟩ := exists_whole inside
    exact .inl ⟨w,done⟩
  · exact .inr (whole_eq_overflow inside)

theorem Sign.apply_int (sign : Sign) (i : Int64) :
    (∃ w, sign.apply (.int i) = .ok (.int w)) ∨ sign.apply (.int i) = .error .overflow := by
  cases sign with
  | plus => exact .inl ⟨i,rfl⟩
  | minus => exact Value.whole_or_overflow _

theorem Operator.apply_ints {operator : Operator} (other : operator ≠ .div) (a b : Int64) :
    (∃ w, operator.apply (.int a) (.int b) = .ok (.int w)) ∨
      operator.apply (.int a) (.int b) = .error .overflow := by
  cases operator with
  | add | sub | mul => exact Value.whole_or_overflow _
  | div => exact absurd rfl other

namespace Expr

theorem mem_parts_self (e : Expr) : e ∈ e.parts := by
  cases e <;> simp [parts]

theorem parts_subset (member : sub ∈ e.parts) : sub.parts ⊆ e.parts := by
  fun_induction parts e with
  | case1 sign operand ih =>
    rcases List.mem_cons.mp member with rfl | inside
    · exact List.Subset.refl _
    · exact List.subset_cons_of_subset _ (ih inside)
  | case2 operator left right ihLeft ihRight =>
    rcases List.mem_cons.mp member with rfl | inside
    · exact List.Subset.refl _
    · apply List.subset_cons_of_subset
      rcases List.mem_append.mp inside with onLeft | onRight
      · exact List.subset_append_of_subset_left _ (ihLeft onLeft)
      · exact List.subset_append_of_subset_right _ (ihRight onRight)
  | case3 e plain plain' =>
    obtain rfl := List.mem_singleton.mp member
    rw [parts.eq_3 sub plain plain']
    exact List.Subset.refl _

theorem Arithmetic.inside (arithmetic : e.Arithmetic) (member : sub ∈ e.parts) :
    sub.Arithmetic := by
  induction arithmetic with
  | int value => rw [List.mem_singleton.mp member]; exact .int value
  | noAlpha => rw [List.mem_singleton.mp member]; exact .noAlpha
  | unary sign below ih =>
    rcases List.mem_cons.mp member with rfl | inside
    · exact .unary sign below
    · exact ih inside
  | binary operator left right ihLeft ihRight =>
    rcases List.mem_cons.mp member with rfl | inside
    · exact .binary operator left right
    · exact (List.mem_append.mp inside).elim ihLeft ihRight

theorem value_unary_eq_int_iff {sign : Sign} : (unary sign e).value = .done (.int w) ↔
    ∃ i, e.value = .done (.int i) ∧ sign.rational i.toInt = w.toInt := by
  simp only [value, Query.bind_eq_done_iff, Query.ofExcept_eq_done_iff, Sign.apply_eq_int_iff]
  constructor
  · rintro ⟨_,first,i,rfl,same⟩
    exact ⟨i,first,same⟩
  · rintro ⟨i,first,same⟩
    exact ⟨_,first,i,rfl,same⟩

theorem value_binary_eq_int_iff {operator : Operator} {left right : Expr} :
    (binary operator left right).value = .done (.int w) ↔
      ∃ a b, left.value = .done (.int a) ∧ right.value = .done (.int b) ∧
        operator.rational? a.toInt b.toInt = some (w.toInt : ℚ) := by
  simp only [value, Query.bind_eq_done_iff, Query.ofExcept_eq_done_iff, Operator.apply_eq_int_iff]
  constructor
  · rintro ⟨_,first,_,second,a,b,rfl,rfl,same⟩
    exact ⟨a,b,first,second,same⟩
  · rintro ⟨a,b,first,second,same⟩
    exact ⟨_,first,_,second,a,b,rfl,rfl,same⟩

theorem value_noAlpha : (symbol "NRGB").value = .done (.int 0x1000000) := by rfl

/-- A tree has a whole number as its value exactly if it and all its parts have exact values that are
whole numbers and fit words. -/
theorem Arithmetic.value_eq_int_iff (arithmetic : e.Arithmetic) :
    e.value = .done (.int w) ↔ e.rational? = some (w.toInt : ℚ) ∧ ∀ sub ∈ e.parts, sub.Fits := by
  induction arithmetic generalizing w with
  | int value =>
    have fits : (Expr.int value).Fits := ⟨value,rfl⟩
    simp [Expr.value, rational?, parts, fits, Int64.toInt_inj]
  | noAlpha =>
    have fits : (Expr.symbol "NRGB").Fits := ⟨0x1000000,by simp [rational?]⟩
    have stands : (w.toInt : ℚ) = 0x1000000 ↔ w = 0x1000000 := by
      rw [← Int64.toInt_inj]
      norm_cast
    simp [value_noAlpha, rational?, parts, fits, eq_comm, stands]
  | @unary operand sign below ih =>
    rw [value_unary_eq_int_iff, parts, List.forall_mem_cons]
    constructor
    · rintro ⟨i,first,same⟩
      obtain ⟨exact,each⟩ := ih.mp first
      have whole : (Expr.unary sign operand).rational? = some (w.toInt : ℚ) := by
        rw [rational?, exact, ← same]
        rfl
      exact ⟨whole,⟨w,whole⟩,each⟩
    · rintro ⟨whole,_,each⟩
      obtain ⟨i,exact⟩ := each _ (mem_parts_self _)
      refine ⟨i,ih.mpr ⟨exact,each⟩,?_⟩
      rw [rational?, exact] at whole
      exact Option.some.inj whole
  | @binary left right operator _ _ ihLeft ihRight =>
    rw [value_binary_eq_int_iff, parts, List.forall_mem_cons, List.forall_mem_append]
    constructor
    · rintro ⟨a,b,first,second,same⟩
      obtain ⟨exact,each⟩ := ihLeft.mp first
      obtain ⟨exact',each'⟩ := ihRight.mp second
      have whole : (Expr.binary operator left right).rational? = some (w.toInt : ℚ) := by
        rw [rational?, exact, exact', ← same]
        rfl
      exact ⟨whole,⟨w,whole⟩,each,each'⟩
    · rintro ⟨whole,_,each,each'⟩
      obtain ⟨a,exact⟩ := each _ (mem_parts_self _)
      obtain ⟨b,exact'⟩ := each' _ (mem_parts_self _)
      refine ⟨a,b,ihLeft.mpr ⟨exact,each⟩,ihRight.mpr ⟨exact',each'⟩,?_⟩
      rw [rational?, exact, exact'] at whole
      exact whole

/-! Without division all exact values are whole, and so only their range can fail. -/

theorem Undivided.inside (undivided : e.Undivided) (member : sub ∈ e.parts) : sub.Undivided :=
  fun left right division => undivided left right (parts_subset member division)

theorem Undivided.not_div {operator : Operator} {left right : Expr}
    (undivided : (binary operator left right).Undivided) : operator ≠ .div := by
  rintro rfl
  exact undivided left right (mem_parts_self _)

theorem Arithmetic.exists_rational (arithmetic : e.Arithmetic) (undivided : e.Undivided) :
    ∃ i : Int, e.rational? = some (i : ℚ) := by
  induction arithmetic with
  | int value => exact ⟨value.toInt,rfl⟩
  | noAlpha => exact ⟨0x1000000,by simp [rational?]⟩
  | unary sign below ih =>
    obtain ⟨i,exact⟩ := ih (undivided.inside (by simp [parts, mem_parts_self]))
    cases sign with
    | plus => exact ⟨i,by simp [rational?, exact, Sign.rational]⟩
    | minus => exact ⟨-i,by simp [rational?, exact, Sign.rational]⟩
  | binary operator left right ihLeft ihRight =>
    obtain ⟨a,exact⟩ := ihLeft (undivided.inside (by simp [parts, mem_parts_self]))
    obtain ⟨b,exact'⟩ := ihRight (undivided.inside (by simp [parts, mem_parts_self]))
    cases operator with
    | add => exact ⟨a + b,by simp [rational?, exact, exact', Operator.rational?]⟩
    | sub => exact ⟨a - b,by simp [rational?, exact, exact', Operator.rational?]⟩
    | mul => exact ⟨a * b,by simp [rational?, exact, exact', Operator.rational?]⟩
    | div => exact absurd rfl undivided.not_div

theorem inRange_iff {i : Int} (exact : e.rational? = some (i : ℚ)) :
    e.InRange ↔ Number.InWord i := by
  have low : (-2 ^ 63 : ℚ) = ((-9223372036854775808 : Int) : ℚ) := by norm_num
  have high : (2 ^ 63 - 1 : ℚ) = ((9223372036854775807 : Int) : ℚ) := by norm_num
  simp only [InRange, exact, Option.some.injEq, exists_eq_left', low, high, Int.cast_le,
    Number.inWord_iff]
  omega

theorem fits_iff {i : Int} (exact : e.rational? = some (i : ℚ)) : e.Fits ↔ Number.InWord i := by
  simp only [Fits, exact, Option.some.injEq, Int.cast_inj]
  constructor
  · rintro ⟨w,rfl⟩
    exact Number.inWord_toInt w
  · intro inside
    obtain ⟨w,_,stands⟩ := Number.exists_fit? inside
    exact ⟨w,stands.symm⟩

/-- A tree without division has a whole number as its value, or overflows. -/
theorem Arithmetic.value_or_overflow (arithmetic : e.Arithmetic) (undivided : e.Undivided) :
    (∃ w, e.value = .done (.int w)) ∨ e.value = .fail .overflow := by
  induction arithmetic with
  | int value => exact .inl ⟨value,rfl⟩
  | noAlpha => exact .inl ⟨_,value_noAlpha⟩
  | unary sign below ih =>
    rcases ih (undivided.inside (by simp [parts, mem_parts_self])) with ⟨i,first⟩ | failed
    · rcases Sign.apply_int sign i with ⟨w,same⟩ | overflow
      · exact .inl ⟨w,by simp [value, first, same, Query.ofExcept]⟩
      · exact .inr (by simp [value, first, overflow, Query.ofExcept])
    · exact .inr (by simp [value, failed])
  | binary operator left right ihLeft ihRight =>
    rcases ihLeft (undivided.inside (by simp [parts, mem_parts_self])) with ⟨a,first⟩ | failed
    · rcases ihRight (undivided.inside (by simp [parts, mem_parts_self])) with ⟨b,second⟩ | failed
      · rcases Operator.apply_ints undivided.not_div a b with ⟨w,same⟩ | overflow
        · exact .inl ⟨w,by simp [value, first, second, same, Query.ofExcept]⟩
        · exact .inr (by simp [value, first, second, overflow, Query.ofExcept])
      · exact .inr (by simp [value, first, failed])
    · exact .inr (by simp [value, failed])

theorem Arithmetic.settled (arithmetic : e.Arithmetic) : ∃ result, e.value = .ofExcept result := by
  induction arithmetic with
  | int value => exact ⟨.ok (.int value),rfl⟩
  | noAlpha => exact ⟨.ok _,value_noAlpha⟩
  | unary sign below ih =>
    obtain ⟨_ | v,same⟩ := ih
    · exact ⟨.error _,by rw [value, same]; rfl⟩
    · exact ⟨sign.apply v,by rw [value, same]; rfl⟩
  | binary operator left right ihLeft ihRight =>
    obtain ⟨_ | v,same⟩ := ihLeft
    · exact ⟨.error _,by rw [value, same]; rfl⟩
    · obtain ⟨_ | v',same'⟩ := ihRight
      · exact ⟨.error _,by rw [value, same, same']; rfl⟩
      · exact ⟨operator.apply v v',by rw [value, same, same']; rfl⟩

end Expr

namespace Session

theorem eval_eq (s : Session) {result : Except Fault Value}
    (settled : e.value = .ofExcept result) : (s.eval e).1 = result := by
  rw [eval, settled]
  cases result <;> rfl

theorem eval_eq_ok_iff (arithmetic : e.Arithmetic) (s : Session) :
    (s.eval e).1 = .ok v ↔ e.value = .done v := by
  obtain ⟨result,settled⟩ := arithmetic.settled
  rw [s.eval_eq settled, settled, Query.ofExcept_eq_done_iff]

theorem eval_eq_int_iff (arithmetic : e.Arithmetic) (s : Session) : (s.eval e).1 = .ok (.int w) ↔
    e.rational? = some (w.toInt : ℚ) ∧ ∀ sub ∈ e.parts, sub.Fits := by
  rw [eval_eq_ok_iff arithmetic, arithmetic.value_eq_int_iff]

theorem eval_part (arithmetic : e.Arithmetic) (s : Session) (found : (s.eval e).1 = .ok (.int w))
    (member : sub ∈ e.parts) :
    ∃ i, (s.eval sub).1 = .ok (.int i) ∧ sub.rational? = some (i.toInt : ℚ) := by
  obtain ⟨_,each⟩ := (eval_eq_int_iff arithmetic s).mp found
  obtain ⟨i,exact⟩ := each sub member
  refine ⟨i,?_,exact⟩
  rw [eval_eq_int_iff (arithmetic.inside member)]
  exact ⟨exact,fun other within => each other (Expr.parts_subset member within)⟩

/-- Where a session finds a whole number for a tree, it is the exact value, and so it is for all that the
tree is made of. Without division a whole number is found exactly if no exact value leaves the range of a
word; else there is an overflow. -/
theorem eval_rational (arithmetic : e.Arithmetic) (s : Session) :
    (∀ w, (s.eval e).1 = .ok (.int w) → e.rational? = some (w.toInt : ℚ) ∧
        ∀ sub ∈ e.parts, ∃ i, (s.eval sub).1 = .ok (.int i) ∧
          sub.rational? = some (i.toInt : ℚ)) ∧
      (e.Undivided →
        ((∃ w, (s.eval e).1 = .ok (.int w)) ↔ ∀ sub ∈ e.parts, sub.InRange) ∧
        ((¬∃ w, (s.eval e).1 = .ok (.int w)) → (s.eval e).1 = .error .overflow)) := by
  refine ⟨fun w found => ?_,fun undivided => ⟨?_,?_⟩⟩
  · exact ⟨((eval_eq_int_iff arithmetic s).mp found).1,fun sub => eval_part arithmetic s found⟩
  · have fits (sub : Expr) (member : sub ∈ e.parts) : sub.Fits ↔ sub.InRange := by
      obtain ⟨i,exact⟩ :=
        (arithmetic.inside member).exists_rational (undivided.inside member)
      rw [Expr.fits_iff exact, Expr.inRange_iff exact]
    constructor
    · rintro ⟨w,found⟩ sub member
      exact (fits sub member).mp (((eval_eq_int_iff arithmetic s).mp found).2 sub member)
    · intro each
      have all : ∀ sub ∈ e.parts, sub.Fits := fun sub member =>
        (fits sub member).mpr (each sub member)
      obtain ⟨w,exact⟩ := all e e.mem_parts_self
      exact ⟨w,(eval_eq_int_iff arithmetic s).mpr ⟨exact,all⟩⟩
  · intro none
    rcases arithmetic.value_or_overflow undivided with ⟨w,value⟩ | overflow
    · exact absurd ⟨w,(eval_eq_ok_iff arithmetic s).mpr value⟩ none
    · exact s.eval_eq overflow

def lowest : Expr := .binary .sub (.unary .minus (.int Int64.maxValue)) (.int 1)

def quotient : Expr :=
  .binary .div (.binary .mul (.symbol "NRGB") (.int 6)) (.unary .minus (.int 4))

theorem lowest_rational :
    lowest.Arithmetic ∧ lowest.Undivided ∧ (∀ sub ∈ lowest.parts, sub.InRange) ∧
      (Expr.unary .minus lowest).Arithmetic ∧ (Expr.unary .minus lowest).Undivided ∧
      ((start ⟨.empty,.empty⟩).eval (.unary .minus lowest)).1 = .error .overflow ∧
      quotient.Arithmetic ∧ quotient.rational? = some (-25165824) := by
  have sum : lowest.Arithmetic := .binary .sub (.unary .minus (.int _)) (.int 1)
  have whole : lowest.Undivided := by simp [Expr.Undivided, lowest, Expr.parts]
  have found : ((start ⟨.empty,.empty⟩).eval lowest).1 = .ok (.int Int64.minValue) := by rfl
  have whole' : (Expr.unary .minus lowest).Undivided := by
    simp [Expr.Undivided, lowest, Expr.parts]
  have lost : ¬∃ w, ((start ⟨.empty,.empty⟩).eval (.unary .minus lowest)).1 = .ok (.int w) := by
    rintro ⟨w,found⟩
    cases found
  have ratio : quotient.Arithmetic :=
    .binary .div (.binary .mul .noAlpha (.int 6)) (.unary .minus (.int 4))
  have divided : ((start ⟨.empty,.empty⟩).eval quotient).1 = .ok (.int (-25165824)) := by rfl
  have read : (-25165824 : Int64).toInt = -25165824 := by decide
  obtain ⟨_,inside⟩ := eval_rational sum (start ⟨.empty,.empty⟩)
  obtain ⟨_,outside⟩ := eval_rational (.unary .minus sum) (start ⟨.empty,.empty⟩)
  obtain ⟨exact,_⟩ := eval_rational ratio (start ⟨.empty,.empty⟩)
  refine ⟨sum,whole,(inside whole).1.mp ⟨_,found⟩,.unary .minus sum,whole',
    (outside whole').2 lost,ratio,?_⟩
  rw [(exact _ divided).1, read]
  norm_num

end Session

end ThemeForge
