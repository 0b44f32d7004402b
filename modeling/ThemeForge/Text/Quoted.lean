import ThemeForge.Text.Visible

/-!
# Quoted text

A text between double quotes for messages. Quotes and backslashes are escaped with a backslash, the
common controls have a letter, and every character that does not show on its own is written as its
code point in hexadecimal.
-/

namespace ThemeForge.Text

def hexDigits (n : Nat) : String := String.ofList (Nat.toDigits 16 n)

def quotedChar (c : Char) : String :=
  if c = '\x00' then "\\0"
  else if c = '\t' then "\\t"
  else if c = '\r' then "\\r"
  else if c = '\n' then "\\n"
  else if c = '"' then "\\\""
  else if c = '\\' then "\\\\"
  else if isVisible c then c.toString
  else "\\u\x7b" ++ hexDigits c.toNat ++ "\x7d"

def quoted (s : String) : String := "\"" ++ String.join (s.toList.map quotedChar) ++ "\""

end ThemeForge.Text
