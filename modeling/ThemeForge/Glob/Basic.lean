/-!
# Glob patterns

A pattern is matched against a whole name. `?` stands for one character other than a slash, `*` and
`$` for any run of them, `**` between slashes for any directories, `[...]` for one of some
characters and `{...}` for one of some patterns. `<...>` stands for a pattern any number of times,
or as often as the bounds after a colon say. A backslash takes the meaning from the character after
it, and `(?i)` and `(?-i)` turn the distinction of cases off and on for the literal text that
follows.
-/

namespace ThemeForge

/-- A piece of a pattern. `rooted` tells of `**` whether a slash comes before it at the start of the
pattern or branch. -/
inductive Glob
  | literal (text : List Char) (ignoreCase : Bool)
  | one
  | run
  | directories (rooted : Bool)
  | slash
  | oneOf (negated : Bool) (ranges : List (Char × Char))
  | choice (branches : List (List Glob))
  | repeated (body : List Glob) (lower : Nat) (upper : Option Nat)

namespace Glob

def isBoundary : Glob → Bool
  | slash | directories _ => true
  | _ => false

def isRun : Glob → Bool
  | run => true
  | _ => false

def isRooted : Glob → Bool
  | slash | directories true => true
  | _ => false

end Glob

end ThemeForge
