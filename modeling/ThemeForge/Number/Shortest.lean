/-!
# Decimal text of floating-point numbers

A double is written with the fewest decimal digits that read back to it, and of those the nearest
to its value, always in positional notation. All arithmetic is on exact natural numbers.
-/

namespace ThemeForge.Number

/-- The parts of a double. A finite one is `mantissa * 2 ^ (exponent - 1074)` in size. -/
inductive Parts
  | notANumber
  | infinite (negative : Bool)
  | finite (negative : Bool) (mantissa exponent : Nat)
  deriving DecidableEq, Repr

def Parts.ofBits (bits : UInt64) : Parts :=
  let n := bits.toNat
  let negative := n / Nat.pow 2 63 = 1
  let exponent := n / Nat.pow 2 52 % Nat.pow 2 11
  let fraction := n % Nat.pow 2 52
  if exponent = 2047 then
    if fraction = 0 then .infinite negative else .notANumber
  else if exponent = 0 then .finite negative fraction 0
  else .finite negative (Nat.pow 2 52 + fraction) (exponent - 1)

/-- The reals that round to a double, as `low / unit` to `high / unit` with the double itself at
`value / unit`. The ends belong to the interval when `closed`. -/
structure Rounding where
  low : Nat
  value : Nat
  high : Nat
  unit : Nat
  closed : Bool

/-- The reals that round to `mantissa * 2 ^ (exponent - 1074)`. They reach half way to either
neighbour, and the lower one is nearer where the exponent changes. -/
def Rounding.of (mantissa exponent : Nat) : Rounding :=
  let below := if mantissa = Nat.pow 2 52 ∧ exponent ≠ 0 then 1 else 2
  { low := (4 * mantissa - below) * Nat.pow 2 exponent
    value := 4 * mantissa * Nat.pow 2 exponent
    high := (4 * mantissa + 2) * Nat.pow 2 exponent
    unit := Nat.pow 2 1076
    closed := mantissa % 2 = 0 }

structure Scaled where
  digits : Nat
  up : Nat
  down : Nat

def Rounding.holds (r : Rounding) (d : Scaled) : Bool :=
  let x := d.digits * Nat.pow 10 d.up * r.unit
  let low := r.low * Nat.pow 10 d.down
  let high := r.high * Nat.pow 10 d.down
  if r.closed then low ≤ x && x ≤ high else low < x && x < high

/-- The nearest decimal number on the grid of `10 ^ up / 10 ^ down` that rounds to the double, if
any does. Of two equally near ones it is the larger. -/
def Rounding.onGrid? (r : Rounding) (up down : Nat) : Option Scaled :=
  let value := r.value * Nat.pow 10 down
  let step := Nat.pow 10 up * r.unit
  let lower : Scaled := ⟨value / step,up,down⟩
  let upper : Scaled := ⟨value / step + 1,up,down⟩
  match r.holds lower, r.holds upper with
  | true, true => if 2 * (value % step) < step then some lower else some upper
  | true, false => some lower
  | false, true => some upper
  | false, false => none

def Rounding.onFineGrids (r : Rounding) (down : Nat) : Nat → Option Scaled
  | 0 => none
  | tries + 1 =>
    match r.onGrid? 0 down with
    | some d => some d
    | none => r.onFineGrids (down + 1) tries

/-- The first grid with a hit, from the grid of `10 ^ up` on down to the units and below. -/
def Rounding.onGrids (r : Rounding) : Nat → Option Scaled
  | 0 => r.onFineGrids 0 1100
  | up + 1 =>
    match r.onGrid? (up + 1) 0 with
    | some d => some d
    | none => r.onGrids up

def Rounding.shortest (r : Rounding) : Scaled :=
  (r.onGrids (Nat.toDigits 10 (r.value / r.unit)).length).getD ⟨0,0,0⟩

/-- A decimal number in positional notation, with a point only before a fraction. -/
def Scaled.positional (d : Scaled) : String :=
  let digits := Nat.toDigits 10 (d.digits * Nat.pow 10 d.up)
  if d.down = 0 then String.ofList digits
  else
    let padded := List.replicate (d.down + 1 - digits.length) '0' ++ digits
    let whole := padded.length - d.down
    String.ofList (padded.take whole ++ '.' :: padded.drop whole)

/-- The sign of a number, written only when it is negative. -/
def signText (negative : Bool) : String := if negative then "-" else ""

/-- The shortest text of a double, without a point when it is whole. -/
def floatText (x : Float) : String :=
  match Parts.ofBits x.toBits with
  | .notANumber => "NaN"
  | .infinite negative => signText negative ++ "inf"
  | .finite negative mantissa exponent =>
    if mantissa = 0 then signText negative ++ "0"
    else signText negative ++ (Rounding.of mantissa exponent).shortest.positional

/-- The text of a double as a result. A whole one is written with all its digits, a point and one
zero, any other one in its shortest form. -/
def floatResult (x : Float) : String :=
  match Parts.ofBits x.toBits with
  | .finite negative mantissa exponent =>
    let size := mantissa * Nat.pow 2 exponent
    if size % Nat.pow 2 1074 = 0 then signText negative ++ toString (size / Nat.pow 2 1074) ++ ".0"
    else floatText x
  | _ => floatText x

end ThemeForge.Number
