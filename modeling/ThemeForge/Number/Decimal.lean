/-!
# Reading decimal numbers

A decimal number is a run of digits, a fraction and an exponent of ten, of which only one digit
must be there. It stands for the nearest double.
-/

namespace ThemeForge.Number

def ofDigits (cs : List Char) : Nat := cs.foldl (fun n c => n * 10 + (c.toNat - '0'.toNat)) 0

structure Written where
  digits : Nat
  places : Nat
  exponent : Int
  deriving DecidableEq, Repr

/-- The exponent after a decimal number, zero if there is none. -/
def exponent? : List Char → Option Int
  | [] => some 0
  | e :: cs =>
    if e = 'e' ∨ e = 'E' then
      match cs with
      | '-' :: ds => if ds ≠ [] ∧ ds.all Char.isDigit then some (-(ofDigits ds : Int)) else none
      | '+' :: ds => if ds ≠ [] ∧ ds.all Char.isDigit then some (ofDigits ds) else none
      | ds => if ds ≠ [] ∧ ds.all Char.isDigit then some (ofDigits ds) else none
    else none

def written? (cs : List Char) : Option Written :=
  let whole := cs.takeWhile Char.isDigit
  let rest := cs.dropWhile Char.isDigit
  let (fraction,rest) :=
    match rest with
    | '.' :: after => (after.takeWhile Char.isDigit,after.dropWhile Char.isDigit)
    | _ => ([],rest)
  if whole = [] ∧ fraction = [] then none
  else (exponent? rest).map fun e => ⟨ofDigits (whole ++ fraction),fraction.length,e⟩

/-- The double nearest to a decimal number, or `none` if the number is too large for any. A number
of at least 310 places before the point is too large, and one that starts after 400 zeros behind
the point rounds to zero. -/
def Written.toFloat? (w : Written) : Option Float :=
  let exponent := w.exponent - w.places
  let size := (Nat.toDigits 10 w.digits).length + exponent
  if w.digits = 0 then some 0
  else if size > 310 then none
  else if size < -400 then some 0
  else
    let x := Float.ofScientific w.digits (exponent < 0) exponent.natAbs
    if x.isFinite then some x else none

def decimal? (cs : List Char) : Option Float := (written? cs).bind Written.toFloat?

def digitValue? (c : Char) : Option Nat :=
  if c.isDigit then some (c.toNat - '0'.toNat)
  else if 'a' ≤ c ∧ c ≤ 'z' then some (c.toNat - 'a'.toNat + 10)
  else if 'A' ≤ c ∧ c ≤ 'Z' then some (c.toNat - 'A'.toNat + 10)
  else none

/-- The number that digits to a base stand for, of which there must be one. -/
def ofBase? (base : Nat) (cs : List Char) : Option Nat :=
  if cs = [] then none
  else
    cs.foldlM (fun n c => do
      let d ← digitValue? c
      if d < base then some (n * base + d) else none) 0

end ThemeForge.Number
