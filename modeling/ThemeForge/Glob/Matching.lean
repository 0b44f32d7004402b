import ThemeForge.Glob.Basic
import ThemeForge.Text.Folding

/-!
# Matching names

Whether a pattern matches all of a name. The places of a name lie before each of its characters and
after the last one, and each place has a mark that tells whether the pieces so far can match what
lies before it. A piece moves the marks over the characters it takes, so the work grows with the
length of the pattern times that of the name.

Only `**` depends on where it stands: between other pieces it needs its slashes, at either end of
the pattern it may stand for nothing. In a choice or a repetition the place that counts for its outer
end is that of the outermost one around it.
-/

namespace ThemeForge.Glob

/-! ## Moving marks -/

def overOne (p : Char → Bool) (cs : List Char) (marks : List Bool) : List Bool :=
  false :: List.zipWith (fun c mark => mark && p c) cs marks

/-- The marks after any number of characters that `p` holds of. `carried` tells whether such a run
goes on from before these places. -/
def overSome (p : Char → Bool) (carried : Bool) : List Char → List Bool → List Bool
  | c :: cs, mark :: marks =>
    (mark || carried) :: overSome p ((mark || carried) && p c) cs marks
  | _, marks => marks.map (· || carried)

def either (left right : List Bool) : List Bool := List.zipWith (· || ·) left right

/-- Whether two characters are the same, with or without distinction of cases. -/
def sameChar (ignoreCase : Bool) (c d : Char) : Bool :=
  c == d || (ignoreCase && Text.foldChar c == Text.foldChar d)

def overText (ignoreCase : Bool) (text cs : List Char) (marks : List Bool) : List Bool :=
  text.foldl (fun marks c => overOne (sameChar ignoreCase c) cs marks) marks

def overSlash (cs : List Char) (marks : List Bool) : List Bool := overOne (· == '/') cs marks

/-- Whether a character is in one of some ranges, or another one that differs from it in case. -/
def inSet (ignoreCase : Bool) (ranges : List (Char × Char)) (c : Char) : Bool :=
  let forms := if ignoreCase then Text.caseVariants c else [c]
  ranges.any fun (low,high) => forms.any fun d => low ≤ d && d ≤ high

/-! ## Matching pieces -/

inductive Place
  | only
  | first
  | inner
  | last

/-- The place of a piece, given whether none comes before it and whether none comes after it. -/
def Place.of : (isFirst isLast : Bool) → Place
  | true, true => .only
  | true, false => .first
  | false, false => .inner
  | false, true => .last

/-- The marks after the directories that `**` stands for, none of which has a line feed in it, given
its place and that of the outermost choice around it. -/
def overDirectories (rooted : Bool) (outer : Option Place) (place : Place) (cs : List Char)
    (marks : List Bool) : List Bool :=
  let overNames := overSome (· != '\n') false cs
  match place, outer with
  | .only, _ => overNames marks
  | .first, some .inner | .first, some .last | .inner, _ | .last, some .first
  | .last, some .inner =>
    let after := overSlash cs marks
    either after (overSlash cs (overNames after))
  | .first, _ =>
    if rooted then overNames (overSlash cs marks)
    else either marks (overSlash cs (overNames marks))
  | .last, _ => either marks (overNames (overSlash cs marks))

def upTo (step : List Bool → List Bool) : (count : Nat) → List Bool → List Bool
  | 0, marks => marks
  | count + 1, marks => either marks (upTo step count (step marks))

/-- The marks after as many steps as bounds allow. More steps than there are characters lead
nowhere else. -/
def overRepeated (step : List Bool → List Bool) (lower : Nat) (upper : Option Nat)
    (cs : List Char) (marks : List Bool) : List Bool :=
  let further := (upper.map (· - lower)).getD cs.length
  upTo step (min further cs.length) (Nat.repeat step lower marks)

mutual

/-- The marks after some pieces. `outer` is the place of the outermost choice or repetition around
them, `isFirst` tells whether none comes before them in their branch, and `ignoreCase` is what the
last literal before them had. -/
def through (outer : Option Place) (cs : List Char) (isFirst ignoreCase : Bool) :
    List Glob → List Bool → List Bool
  | [], marks => marks
  | literal text ignore :: rest, marks =>
    through outer cs false ignore rest (overText ignore text cs marks)
  | one :: rest, marks => through outer cs false ignoreCase rest (overOne (· != '/') cs marks)
  | run :: rest, marks =>
    through outer cs false ignoreCase rest (overSome (· != '/') false cs marks)
  | slash :: rest, marks => through outer cs false ignoreCase rest (overSlash cs marks)
  | oneOf negated ranges :: rest, marks =>
    let inside c := c != '/' && inSet ignoreCase ranges c != negated
    through outer cs false ignoreCase rest (overOne inside cs marks)
  | directories rooted :: rest, marks =>
    let place := Place.of isFirst rest.isEmpty
    through outer cs false ignoreCase rest (overDirectories rooted outer place cs marks)
  | choice branches :: rest, marks =>
    let outermost := outer.getD (Place.of isFirst rest.isEmpty)
    through outer cs false ignoreCase rest (throughSome outermost cs ignoreCase branches marks)
  | repeated body lower upper :: rest, marks =>
    let outermost := outer.getD (Place.of isFirst rest.isEmpty)
    let step marks := through (some outermost) cs true ignoreCase body marks
    through outer cs false ignoreCase rest (overRepeated step lower upper cs marks)

def throughSome (outer : Place) (cs : List Char) (ignoreCase : Bool) :
    List (List Glob) → List Bool → List Bool
  | [], marks => marks.map fun _ => false
  | branch :: rest, marks =>
    either (through (some outer) cs true ignoreCase branch marks)
      (throughSome outer cs ignoreCase rest marks)

end

def matchesName (pieces : List Glob) (name : String) : Bool :=
  let cs := name.toList
  (through none cs true false pieces (true :: cs.map fun _ => false)).getLastD false

end ThemeForge.Glob
