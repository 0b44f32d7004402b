import ThemeForge.Expression.Fault
import ThemeForge.Text.Blank
import ThemeForge.Text.Split

/-!
# Templates

A template is text with expressions between double braces. Everything outside them stands for
itself, single braces included.
-/

namespace ThemeForge

namespace Text

/-- The parts before and after the first place where `c` comes twice in a row. -/
def splitPair? (c : Char) : List Char → Option (List Char × List Char)
  | [] => none
  | d :: cs =>
    if d = c ∧ cs.head? = some c then some ([],cs.tail)
    else (splitPair? c cs).map fun (before,after) => (d :: before,after)

/-- Cutting at a pair loses only the pair. -/
theorem eq_append_of_splitPair? {c : Char} {cs before after : List Char}
    (cut : splitPair? c cs = some (before,after)) : cs = before ++ c :: c :: after := by
  induction cs generalizing before after with
  | nil => simp [splitPair?] at cut
  | cons d cs ih =>
    rw [splitPair?] at cut
    split at cut
    · next both =>
      obtain ⟨rfl,second⟩ := both
      obtain ⟨rfl,rfl⟩ := Prod.mk.inj (Option.some.inj cut)
      cases cs with
      | nil => simp at second
      | cons e rest => simpa using second
    · obtain ⟨⟨first,last⟩,found,same⟩ := Option.map_eq_some_iff.1 cut
      obtain ⟨rfl,rfl⟩ := Prod.mk.inj same
      simpa using ih found

end Text

inductive Segment
  | literal (text : String)
  | expression (source : String)
  deriving DecidableEq, Repr

structure BadSpan where
  span : String
  fault : Fault

namespace Template

def braced (source : List Char) : List Char := '{' :: '{' :: source ++ ['}','}']

def literal (text : List Char) : List Segment :=
  if text.isEmpty then [] else [.literal (String.ofList text)]

/-- What is shown of double braces that are never closed: the rest of their line. -/
def openSpan (body : List Char) : List Char :=
  Text.dropEndWhile (· == '\r') ('{' :: '{' :: body.takeWhile (· != '\n'))

def segmentsOf (text : List Char) : Except BadSpan (List Segment) :=
  match opened : Text.splitPair? '{' text with
  | none => .ok (literal text)
  | some (before,body) =>
    match closed : Text.splitPair? '}' body with
    | none => .error ⟨String.ofList (openSpan body),.unterminatedSpan⟩
    | some (source,rest) =>
      if Text.allBlank source then .error ⟨String.ofList (braced source),.emptySpan⟩
      else
        have shorter : rest.length < text.length := by
          simp [Text.eq_append_of_splitPair? opened, Text.eq_append_of_splitPair? closed]
          omega
        (segmentsOf rest).map fun segments =>
          literal before ++ .expression (String.ofList source) :: segments
termination_by text.length

/-- The segments of a text, without the fact that the recursion rests on. -/
theorem segmentsOf_eq (text : List Char) :
    segmentsOf text =
      match Text.splitPair? '{' text with
      | none => .ok (literal text)
      | some (before,body) =>
        match Text.splitPair? '}' body with
        | none => .error ⟨String.ofList (openSpan body),.unterminatedSpan⟩
        | some (source,rest) =>
          if Text.allBlank source then .error ⟨String.ofList (braced source),.emptySpan⟩
          else
            (segmentsOf rest).map fun segments =>
              literal before ++ .expression (String.ofList source) :: segments := by
  rw [segmentsOf]
  split
  · simp_all
  · split <;> simp_all

/-- The segments of a template. Two literals never come in a row, and none is empty. -/
def segments (text : String) : Except BadSpan (List Segment) := segmentsOf text.toList

def write : Segment → List Char
  | .literal text => text.toList
  | .expression source => braced source.toList

theorem flatMap_write_literal (text : List Char) : (literal text).flatMap write = text := by
  cases text <;> simp [literal, write]

/-- Written one after another, the segments of a text are the text. -/
theorem flatMap_write_segmentsOf {text : List Char} {pieces : List Segment}
    (cut : segmentsOf text = .ok pieces) : pieces.flatMap write = text := by
  fun_induction segmentsOf text generalizing pieces with
  | case1 text opened =>
    cases cut
    exact flatMap_write_literal text
  | case2 => contradiction
  | case3 => contradiction
  | case4 text before body opened source rest closed blank shorter ih =>
    cases more : segmentsOf rest with
    | error bad => simp [more, Except.map] at cut
    | ok others =>
      simp only [more, Except.map, Except.ok.injEq] at cut
      subst cut
      rw [List.flatMap_append, flatMap_write_literal, List.flatMap_cons, ih more]
      simp [write, braced, Text.eq_append_of_splitPair? opened,
        Text.eq_append_of_splitPair? closed]

end Template

end ThemeForge
