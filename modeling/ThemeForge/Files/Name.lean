import ThemeForge.Text.Utf8

/-!
# File names

A file name is text, or bytes that are no text. Names are ordered by their bytes.
-/

namespace ThemeForge

/-- The name of a directory entry. `raw` is for bytes that are not UTF-8. -/
inductive FileName
  | text (s : String)
  | raw (bytes : List UInt8)
  deriving DecidableEq, Repr

namespace FileName

def ofBytes (bytes : List UInt8) : FileName :=
  match Text.decodeFrom 0 bytes with
  | .ok cs => .text (String.ofList cs)
  | .error _ => .raw bytes

def bytes : FileName → List UInt8
  | .text s => s.toUTF8.data.toList
  | .raw bytes => bytes

def text? : FileName → Option String
  | .text s => some s
  | .raw _ => none

def display : FileName → String
  | .text s => s
  | .raw bytes => String.ofList (Text.decodeLossy bytes)

def le (a b : FileName) : Bool := !decide (b.bytes < a.bytes)

end FileName

end ThemeForge
