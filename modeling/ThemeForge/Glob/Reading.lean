import ThemeForge.Glob.Neighbours

/-!
# Reading patterns

A pattern is read into its pieces from left to right. A text with a piece that is not closed, with a
character out of place or with an empty branch is no pattern, and neither is one whose pieces may
not be neighbours.
-/

namespace ThemeForge.Glob

def special : List Char :=
  ['/','?','*','$',':','<','>','(',')','[',']','\x7b','\x7d',',','\\']

/-- Whether a backslash takes the meaning from a character. It does so for what is special, but for
the slash and the backslash itself. -/
def escapable (c : Char) : Bool := c != '/' && c != '\\' && special.contains c

def literalText? : List Char → Option (List Char × List Char)
  | [] => some ([],[])
  | '\\' :: c :: rest =>
    if escapable c then (literalText? rest).map fun (text,rest) => (c :: text,rest) else none
  | c :: rest =>
    if c = '\\' then none
    else if special.contains c then some ([],c :: rest)
    else (literalText? rest).map fun (text,rest) => (c :: text,rest)

/-- One character of a set of characters, and the rest. Brackets and hyphens need a backslash, and
nothing else may have one. -/
def setChar? : List Char → Option (Char × List Char)
  | '\\' :: c :: rest => if ['[',']','-'].contains c then some (c,rest) else none
  | c :: rest => if ['[',']','-','\\'].contains c then none else some (c,rest)
  | [] => none

/-- The ranges of a set of characters up to its closing bracket, and the rest. At most `count` of
them are read. -/
def setRanges? : Nat → List Char → Option (List (Char × Char) × List Char)
  | 0, _ => none
  | count + 1, cs => do
    let (low,rest) ← setChar? cs
    let (high,rest) ←
      match rest with
      | '-' :: after => setChar? after
      | _ => some (low,rest)
    match rest with
    | ']' :: rest => some ([(low,high)],rest)
    | _ =>
      let (ranges,rest) ← setRanges? count rest
      some ((low,high) :: ranges,rest)

/-- A set of characters with the given ranges. A range from a higher to a lower character makes the
whole set, negated or not, match the null character alone. -/
def ofRanges (negated : Bool) (ranges : List (Char × Char)) : Glob :=
  if ranges.all fun (low,high) => low ≤ high then oneOf negated ranges
  else oneOf false [('\x00','\x00')]

def set? : List Char → Option (Glob × List Char)
  | '!' :: cs => (setRanges? cs.length cs).map fun (ranges,rest) => (ofRanges true ranges,rest)
  | cs => (setRanges? cs.length cs).map fun (ranges,rest) => (ofRanges false ranges,rest)

mutual

def flags (ignoreCase : Bool) : List Char → Bool × List Char
  | '(' :: '?' :: cs => (flagGroup? cs).getD (ignoreCase,'(' :: '?' :: cs)
  | cs => (ignoreCase,cs)

/-- The flags of a group up to its closing parenthesis, of which the last one counts, and the groups
after it. -/
def flagGroup? : List Char → Option (Bool × List Char)
  | 'i' :: ')' :: rest => some (flags true rest)
  | '-' :: 'i' :: ')' :: rest => some (flags false rest)
  | 'i' :: rest | '-' :: 'i' :: rest => flagGroup? rest
  | _ => none

end

inductive Row
  | whole
  | branch
  | repeated

def Row.endsAt (row : Row) : List Char → Bool
  | [] => true
  | c :: _ =>
    match row with
    | .whole => false
    | .branch => c == ',' || c == '\x7d'
    | .repeated => c == ':' || c == '>'

/-- The wildcard for any directories that the text starts with, whether cases are ignored after it,
and the rest. `first` tells whether no piece comes before it and `bare` whether nothing at all does.
A slash on either side belongs to it, and flags may stand between. -/
def directories? (row : Row) (first bare ignoreCase : Bool) :
    List Char → Option (Glob × Bool × List Char)
  | '*' :: '*' :: rest => if bare then closing (directories false) ignoreCase rest else none
  | '/' :: cs =>
    match flags ignoreCase cs with
    | (ignoreCase,'*' :: '*' :: rest) => closing (directories first) ignoreCase rest
    | _ => none
  | _ => none
where
  /-- The wildcard, if a slash or the end follows it. -/
  closing (glob : Glob) (ignoreCase : Bool) (cs : List Char) : Option (Glob × Bool × List Char) :=
    match flags ignoreCase cs with
    | (ignoreCase,'/' :: rest) => some (glob,ignoreCase,rest)
    | _ => if row.endsAt cs then some (glob,ignoreCase,cs) else none

/-- A bound of a repetition and the rest. It has to fit a word. -/
def bound? (cs : List Char) : Option (Nat × List Char) :=
  let (digits,rest) := cs.span Char.isDigit
  match (String.ofList digits).toNat? with
  | some bound => if bound < UInt64.size then some (bound,rest) else none
  | none => none

/-- The bounds of a repetition up to its closing bracket, and the rest. Without a colon it may be
left out, and a colon alone says that it may not. -/
def bounds? : List Char → Option ((Nat × Option Nat) × List Char)
  | '>' :: rest => some ((0,none),rest)
  | ':' :: '>' :: rest => some ((1,none),rest)
  | ':' :: cs => do
    let (lower,rest) ← bound? cs
    match rest with
    | '>' :: rest => some ((lower,some lower),rest)
    | ',' :: '>' :: rest => some ((lower,none),rest)
    | ',' :: cs =>
      let (upper,rest) ← bound? cs
      match rest with
      | '>' :: rest => some ((lower,some upper),rest)
      | _ => none
    | _ => none
  | _ => none

/-- A row of pieces, with whether cases are ignored after it, and the rest. A text of `size`
characters is read at most. -/
def pieces? : (size : Nat) → (row : Row) → (first ignoreCase : Bool) → List Char →
    Option (List Glob × Bool × List Char)
  | 0, _, _, _, _ => none
  | size + 1, row, first, ignoreCase, text => do
    let (ignoreCase,cs) := flags ignoreCase text
    let bare := first && cs.length == text.length
    let (piece,ignoreCase,rest) ←
      match directories? row first bare ignoreCase cs with
      | some found => some found
      | none =>
        match cs with
        | [] => none
        | '/' :: rest => some (slash,ignoreCase,rest)
        | '?' :: rest => some (one,ignoreCase,rest)
        | '*' :: rest | '$' :: rest => some (run,ignoreCase,rest)
        | '[' :: rest => (set? rest).map fun (piece,rest) => (piece,ignoreCase,rest)
        | '\x7b' :: rest =>
          (branches? size ignoreCase rest).map fun (branches,ignoreCase,rest) =>
            (choice branches,ignoreCase,rest)
        | '<' :: rest => do
          let (body,ignoreCase,rest) ← pieces? size .repeated true ignoreCase rest
          let ((lower,upper),rest) ← bounds? rest
          some (repeated body lower upper,ignoreCase,rest)
        | cs =>
          match literalText? cs with
          | some ([],_) | none => none
          | some (text,rest) => some (literal text ignoreCase,ignoreCase,rest)
    if row.endsAt rest then some ([piece],ignoreCase,rest)
    else
      let (pieces,ignoreCase,rest) ← pieces? size row false ignoreCase rest
      some (piece :: pieces,ignoreCase,rest)
where
  /-- The branches of a choice up to its closing brace, and the rest. -/
  branches? (size : Nat) (ignoreCase : Bool) (cs : List Char) :
      Option (List (List Glob) × Bool × List Char) :=
    match size with
    | 0 => none
    | size + 1 => do
      let (branch,ignoreCase,rest) ← pieces? size .branch true ignoreCase cs
      match rest with
      | ',' :: rest =>
        let (branches,ignoreCase,rest) ← branches? size ignoreCase rest
        some (branch :: branches,ignoreCase,rest)
      | '\x7d' :: rest => some ([branch],ignoreCase,rest)
      | _ => none

def parse? (pattern : String) : Option (List Glob) :=
  match pattern.toList with
  | [] => some []
  | cs =>
    match pieces? (cs.length + 1) .whole true false cs with
    | some (pieces,_,[]) => if wellFormed pieces then some pieces else none
    | _ => none

end ThemeForge.Glob
