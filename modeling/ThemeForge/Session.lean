import ThemeForge.Expression.Grammar
import ThemeForge.Expression.Meaning
import ThemeForge.Tables
import ThemeForge.Template

/-!
# Evaluation sessions

A session evaluates expressions and templates over two tables. The value of a constant is kept once
it has been found. While an entry is evaluated it is in the chain of entries that led to it, and a
reference back into that chain is a fault: so lookups nest at most as deep as the tables have
entries.
-/

namespace ThemeForge

abbrev Known := List (String × Value)

namespace Reference

/-- The value that is kept for a reference. Only constants are. -/
def known? (r : Reference) (known : Known) : Option Value :=
  match r.table with
  | .constant => known.lookup r.name
  | .preset => none

def keep (r : Reference) (value : Value) (known : Known) : Known :=
  match r.table with
  | .constant => (r.name,value) :: known
  | .preset => known

def missing (r : Reference) : Fault :=
  match r.table with
  | .constant => .unknownConstant r.name
  | .preset => .unknownPreset r.name

/-- The fault of evaluating an entry, as it shows where the entry is referred to. A constant is
named around all faults but that of a chain. -/
def within (r : Reference) (fault : Fault) : Fault :=
  match r.table, fault with
  | .constant, .circular chain => .circular chain
  | .constant, fault => .inConstant r.name fault
  | .preset, fault => fault

end Reference

/-- The chain of a reference back to `label`, from its first place in the chain of entries, whose
latest comes first. -/
def circle (label : String) (chain : List String) : List String :=
  label :: (chain.takeWhile (· != label)).reverse ++ [label]

/-- The value of a table entry while the entries of `chain`, latest first, are being evaluated. -/
def Tables.answer (t : Tables) (chain : List String) (r : Reference) (known : Known) :
    Except Fault Value × Known :=
  match r.known? known with
  | some value => (.ok value,known)
  | none =>
    if (splitName? r.name).isNone then (.error (.invalidLookupName r.table r.name),known)
    else
      match found : t.entry? r with
      | none => (.error r.missing,known)
      | some raw =>
        if new : r.label ∈ chain then (.error (r.within (.circular (circle r.label chain))),known)
        else
          match Expr.parse raw with
          | .error fault => (.error (r.within fault),known)
          | .ok e =>
            have _ := Tables.unvisited_cons_lt (Tables.label_mem_labels found) new
            match e.value.run (fun other known => t.answer (r.label :: chain) other known) known with
            | (.ok value,known) => (.ok value,r.keep value known)
            | (.error fault,known) => (.error (r.within fault),known)
termination_by t.unvisited chain

/-- What a reference is answered with, without the facts that the recursion rests on. -/
theorem Tables.answer_eq (t : Tables) (chain : List String) (r : Reference) (known : Known) :
    t.answer chain r known =
      match r.known? known with
      | some value => (.ok value,known)
      | none =>
        if (splitName? r.name).isNone then (.error (.invalidLookupName r.table r.name),known)
        else
          match t.entry? r with
          | none => (.error r.missing,known)
          | some raw =>
            if r.label ∈ chain then (.error (r.within (.circular (circle r.label chain))),known)
            else
              match Expr.parse raw with
              | .error fault => (.error (r.within fault),known)
              | .ok e =>
                match e.value.run (t.answer (r.label :: chain)) known with
                | (.ok value,known) => (.ok value,r.keep value known)
                | (.error fault,known) => (.error (r.within fault),known) := by
  rw [Tables.answer]
  cases r.known? known with
  | some value => rfl
  | none =>
    dsimp only
    split
    · rfl
    · split
      · next missing => simp only [missing]
      · next raw present =>
        simp only [present]
        split
        · rfl
        · cases Expr.parse raw <;> rfl

/-- Two tables and what is known of their constants. -/
structure Session where
  tables : Tables
  known : Known

structure ExpansionFault where
  location : String
  span : String
  fault : Fault

namespace Session

def start (tables : Tables) : Session := ⟨tables,[]⟩

def eval (s : Session) (e : Expr) : Except Fault Value × Session :=
  match e.value.run (fun r known => s.tables.answer [] r known) s.known with
  | (result,known) => (result,{ s with known })

def evaluate (s : Session) (source : String) : Except Fault Value × Session :=
  match Expr.parse source with
  | .error fault => (.error fault,s)
  | .ok e => s.eval e

/-- The text of segments, each expression replaced by its value. The first failure ends it. -/
def expandSegments (location : String) :
    List Segment → Session → Except ExpansionFault String × Session
  | [], s => (.ok "",s)
  | .literal text :: rest, s =>
    match expandSegments location rest s with
    | (.ok expanded,s) => (.ok (text ++ expanded),s)
    | (.error fault,s) => (.error fault,s)
  | .expression source :: rest, s =>
    match s.evaluate source with
    | (.error fault,s) =>
      (.error ⟨location,String.ofList (Template.braced source.toList),fault⟩,s)
    | (.ok value,s) =>
      match expandSegments location rest s with
      | (.ok expanded,s) => (.ok (value.result ++ expanded),s)
      | (.error fault,s) => (.error fault,s)

/-- A template with each expression replaced by its value. `location` says where it stands. -/
def expand (s : Session) (location template : String) : Except ExpansionFault String × Session :=
  match Template.segments template with
  | .error bad => (.error ⟨location,bad.span,bad.fault⟩,s)
  | .ok segments => expandSegments location segments s

/-- Every value of settings expanded in order, up to the first failure. -/
def expandSettings (s : Session) (settings : Settings) :
    Settings × Option ExpansionFault × Session :=
  settings.mapValues
    (fun section_ key value s => s.expand (section_ ++ "." ++ key) value) s

end Session

end ThemeForge
