import ThemeForge.Expression.Value
import ThemeForge.Number.Bytes
import ThemeForge.Text.Split

/-!
# Numbers packed from bytes

A colour is a number of three bytes with red in the lowest one. Blend settings are a flag, a
fraction in steps of 1/256 and a mode.
-/

namespace ThemeForge.Packing

def noAlpha : Int := 0x1000000

def byte (function : Function) (value : Int64) : Except Fault Int :=
  if 0 ≤ value.toInt ∧ value.toInt ≤ 255 then .ok value.toInt
  else .error (.byteRange function value)

def natural (function : Function) (value : Int64) : Except Fault Nat :=
  if value.toInt < 0 then .error (.negative function value) else .ok value.toInt.toNat

/-- The colour with the given red, green and blue. Blue is looked at first. -/
def colour (r g b : Int64) : Except Fault Int := do
  let b ← byte .rgb b
  let g ← byte .rgb g
  let r ← byte .rgb r
  return b * 0x10000 + g * 0x100 + r

def alphaColour (r g b a : Int64) : Except Fault Int := do
  let r ← byte .rgba r
  let g ← byte .rgba g
  let b ← byte .rgba b
  let a ← byte .rgba a
  return r * 0x1000000 + g * 0x10000 + b * 0x100 + a

/-- The number whose bytes are `value` and then the given ones, most significant first. -/
def appendBytes (value : Int64) : List Int64 → Except Fault Int64
  | [] => .ok value
  | b :: bytes => do
    let b ← byte .hex b
    match Number.fit? (value.toInt * 256 + b) with
    | some value => appendBytes value bytes
    | none => throw .overflow

/-- The number whose bytes are given, most significant first. -/
def ofBytes (bytes : List Int64) : Except Fault Int64 := appendBytes 0 bytes

/-- The bytes of a number in decimal, most significant first, with a space between them. -/
def listing (value : Int64) : Except Fault String := do
  let n ← natural .arr value
  return String.intercalate " " ((Number.bigBytes n).map toString)

/-- The number whose bytes are `value` and then those of `n`, the lowest first. -/
def appendReversed (value : Int64) (n : Nat) : Except Fault Int64 :=
  if n = 0 then .ok value
  else match Number.fit? (value.toInt * 256 + (n % 256 : Nat)) with
    | some value => appendReversed value (n / 256)
    | none => .error .overflow
termination_by n
decreasing_by omega

/-- The number with the bytes of another one in reverse, from its highest byte that is not zero. -/
def reversed (value : Int64) : Except Fault Value := do
  let n ← natural .rev value
  return .int (← appendReversed 0 n)

@[simp] theorem appendReversed_zero (value : Int64) : appendReversed value 0 = .ok value := by
  rw [appendReversed, if_pos rfl]

theorem appendReversed_some {value next : Int64} {n : Nat} (nonzero : n ≠ 0)
    (fits : Number.fit? (value.toInt * 256 + (n % 256 : Nat)) = some next) :
    appendReversed value n = appendReversed next (n / 256) := by
  rw [appendReversed, if_neg nonzero, fits]

theorem appendReversed_none {value : Int64} {n : Nat} (nonzero : n ≠ 0)
    (outside : Number.fit? (value.toInt * 256 + (n % 256 : Nat)) = none) :
    appendReversed value n = .error .overflow := by
  rw [appendReversed, if_neg nonzero, outside]

def blendModes : List (String × Int) :=
  [("normal",0),("add",1),("dodge",2),("multiply",3),("overlay",4),("hsv",0xFE)]

/-- The whole number nearest to a double between 0 and 256, the even one of two. -/
def nearest (x : Float) : Nat :=
  let below := x.floor
  let n := below.toUInt64.toNat
  let part := x - below
  if part < 0.5 then n else if part > 0.5 then n + 1 else n + n % 2

/-- The blend setting for a mode and a fraction. The fraction is looked at first. -/
def blend (mode : String) (fraction : Float) : Except Fault Int := do
  if !(0 ≤ fraction && fraction ≤ 1) then throw (.fractionRange fraction)
  match blendModes.lookup mode with
  | none => throw (.unknownBlendMode mode)
  | some code => return 0x20000 + nearest (fraction * 256) * 0x100 + code

end ThemeForge.Packing
