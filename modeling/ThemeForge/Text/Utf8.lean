/-!
# Text as bytes

Reading bytes as UTF-8. What cannot be read is located by the index of the first byte that belongs
to no character, and measured by the longest start of a character found there.
-/

namespace ThemeForge.Text

/-- Why bytes are no text: a run of `count` bytes at `index` that starts no character, or an end in
the middle of the character that starts at `index`. -/
inductive Utf8Error
  | invalid (count index : Nat)
  | incomplete (index : Nat)
  deriving DecidableEq, Repr

def Utf8Error.message : Utf8Error → String
  | .invalid count index => s!"invalid utf-8 sequence of {count} bytes from index {index}"
  | .incomplete index => s!"incomplete utf-8 byte sequence from index {index}"

/-- What the first bytes of a text hold: a character written with `more` further bytes, `count`
bytes that start none, or the start of a character that the end of the text cuts off. -/
inductive Utf8Head
  | scalar (c : Char) (more : Nat)
  | invalid (count : Nat)
  | cut
  deriving DecidableEq, Repr

/-- How many bytes follow a leading byte, the range of the first of them, and the bits that the
leading byte gives. The ranges keep out overlong forms, surrogates and numbers above 0x10FFFF. -/
def leadingByte (b : Nat) : Option (Nat × Nat × Nat × Nat) :=
  if b < 0x80 then some (0,0,0,b)
  else if b < 0xC2 then none
  else if b < 0xE0 then some (1,0x80,0xBF,b - 0xC0)
  else if b = 0xE0 then some (2,0xA0,0xBF,0)
  else if b = 0xED then some (2,0x80,0x9F,0xD)
  else if b < 0xF0 then some (2,0x80,0xBF,b - 0xE0)
  else if b = 0xF0 then some (3,0x90,0xBF,0)
  else if b < 0xF4 then some (3,0x80,0xBF,b - 0xF0)
  else if b = 0xF4 then some (3,0x80,0x8F,4)
  else none

/-- Reads `missing` more bytes of a character of which `more` were read after the first. The next
one lies between `low` and `high`, the later ones anywhere among the continuation bytes. -/
def continueScalar (bits more low high : Nat) : Nat → List UInt8 → Utf8Head
  | 0, _ => .scalar (Char.ofNat bits) more
  | _ + 1, [] => .cut
  | missing + 1, b :: bs =>
    if low ≤ b.toNat ∧ b.toNat ≤ high then
      continueScalar (bits * 64 + (b.toNat - 0x80)) (more + 1) 0x80 0xBF missing bs
    else .invalid (more + 1)

def utf8Head (b : UInt8) (bs : List UInt8) : Utf8Head :=
  match leadingByte b.toNat with
  | none => .invalid 1
  | some (missing,low,high,bits) => continueScalar bits 0 low high missing bs

/-- The characters that the bytes from `index` on encode, or the first place where they do not. -/
def decodeFrom (index : Nat) : List UInt8 → Except Utf8Error (List Char)
  | [] => .ok []
  | b :: bs =>
    match utf8Head b bs with
    | .scalar c more => (decodeFrom (index + 1 + more) (bs.drop more)).map (c :: ·)
    | .invalid count => .error (.invalid count index)
    | .cut => .error (.incomplete index)
termination_by bytes => bytes.length
decreasing_by simp only [List.length_drop, List.length_cons]; omega

def decode (bytes : ByteArray) : Except Utf8Error String :=
  (decodeFrom 0 bytes.data.toList).map String.ofList

def decodeLossy : List UInt8 → List Char
  | [] => []
  | b :: bs =>
    match utf8Head b bs with
    | .scalar c more => c :: decodeLossy (bs.drop more)
    | .invalid count => '\uFFFD' :: decodeLossy (bs.drop (count - 1))
    | .cut => ['\uFFFD']
termination_by bytes => bytes.length
decreasing_by
  all_goals simp only [List.length_drop, List.length_cons]; omega

end ThemeForge.Text
