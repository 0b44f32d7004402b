import ThemeForge.Glob.Basic

/-!
# Neighbouring pieces

Not every row of pieces is a pattern. Two boundaries may not meet, nor may two runs, and a choice or
a repetition counts as what it starts or ends with. So a repetition may not meet itself. No branch is
`**` alone, and no pattern starts with a choice or a repetition that can be left out if that starts
with a slash.
-/

namespace ThemeForge.Glob

mutual

/-- Whether a piece, or a branch of it at any depth, starts with a piece that `p` holds of. -/
def opens (p : Glob → Bool) : Glob → Bool
  | choice branches => someOpens p branches
  | repeated body _ _ => firstOpens p body
  | piece => p piece

def someOpens (p : Glob → Bool) : List (List Glob) → Bool
  | [] => false
  | branch :: rest => firstOpens p branch || someOpens p rest

def firstOpens (p : Glob → Bool) : List Glob → Bool
  | [] => false
  | piece :: _ => opens p piece

end

mutual

/-- Whether a piece, or a branch of it at any depth, ends with a piece that `p` holds of. -/
def closes (p : Glob → Bool) : Glob → Bool
  | choice branches => someCloses p branches
  | repeated body _ _ => lastCloses p body
  | piece => p piece

def someCloses (p : Glob → Bool) : List (List Glob) → Bool
  | [] => false
  | branch :: rest => lastCloses p branch || someCloses p rest

def lastCloses (p : Glob → Bool) : List Glob → Bool
  | [] => false
  | [piece] => closes p piece
  | _ :: rest => lastCloses p rest

end

def clashes (left right : Glob) : Bool :=
  [isBoundary,isRun].any fun p => closes p left && opens p right

mutual

/-- Whether no pieces in a row clash, at any depth. -/
def harmonious : List Glob → Bool
  | [] => true
  | piece :: rest =>
    piece.harmoniousWithin && !(rest.head?.any piece.clashes) && harmonious rest

/-- Whether what is within a piece is harmonious, and a repetition has bounds that can be kept and
does not clash with itself. -/
def harmoniousWithin : Glob → Bool
  | choice branches => allHarmonious branches
  | repeated body lower upper =>
    upper.all (fun upper => upper != 0 && lower ≤ upper) && harmonious body &&
      !(repeated body lower upper).clashes (repeated body lower upper)
  | _ => true

def allHarmonious : List (List Glob) → Bool
  | [] => true
  | [directories _] :: _ => false
  | branch :: rest => harmonious branch && allHarmonious rest

end

mutual

/-- Whether pieces start with a slash in a branch, or in a repetition that can be left out. -/
def startsRootedWithin : List Glob → Bool
  | [] => false
  | piece :: _ => piece.rootedWithin

def rootedWithin : Glob → Bool
  | choice branches => someOpens isRooted branches
  | repeated body 0 _ => firstOpens isRooted body
  | repeated body _ _ => startsRootedWithin body
  | _ => false

end

def wellFormed (pieces : List Glob) : Bool :=
  harmonious pieces && !startsRootedWithin pieces

end ThemeForge.Glob
