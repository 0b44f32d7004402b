import ThemeForge.Text.Quoted

/-!
# JSON output

The values a report is made of, and their text with one member a line.
-/

namespace ThemeForge.Text

/-- A value of a report. The members of an object keep their order. -/
inductive Json
  | text (s : String)
  | number (n : Nat)
  | array (items : List Json)
  | object (members : List (String × Json))

/-- One character inside a JSON string: only quotes, backslashes and controls are escaped. -/
def jsonChar (c : Char) : String :=
  if c = '"' then "\\\""
  else if c = '\\' then "\\\\"
  else if c = '\x08' then "\\b"
  else if c = '\t' then "\\t"
  else if c = '\n' then "\\n"
  else if c = '\x0c' then "\\f"
  else if c = '\r' then "\\r"
  else if c.toNat < 0x10 then "\\u000" ++ hexDigits c.toNat
  else if c.toNat < 0x20 then "\\u00" ++ hexDigits c.toNat
  else c.toString

def jsonString (s : String) : String := "\"" ++ String.join (s.toList.map jsonChar) ++ "\""

/-- Items between brackets, one a line and two columns deeper. None gives the bare brackets. -/
def jsonBlock (opening closing : String) (indent : Nat) (items : List String) : String :=
  if items.isEmpty then opening ++ closing
  else
    let margin := String.ofList (List.replicate indent ' ')
    opening ++ "\n" ++ margin ++ "  " ++ String.intercalate (",\n" ++ margin ++ "  ") items
      ++ "\n" ++ margin ++ closing

mutual

def Json.pretty (indent : Nat) : Json → String
  | .text s => jsonString s
  | .number n => toString n
  | .array items => jsonBlock "[" "]" indent (Json.prettyItems (indent + 2) items)
  | .object members => jsonBlock "\x7b" "\x7d" indent (Json.prettyMembers (indent + 2) members)

def Json.prettyItems (indent : Nat) : List Json → List String
  | [] => []
  | item :: rest => item.pretty indent :: Json.prettyItems indent rest

def Json.prettyMembers (indent : Nat) : List (String × Json) → List String
  | [] => []
  | (name,value) :: rest =>
    (jsonString name ++ ": " ++ value.pretty indent) :: Json.prettyMembers indent rest

end

end ThemeForge.Text
