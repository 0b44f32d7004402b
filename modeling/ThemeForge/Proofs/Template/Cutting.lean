import ThemeForge.Proofs.Evaluation.Sessions

/-!
# Cutting templates one after another

A text that is cut into segments without a fault closes all its braces. So what follows it is cut as
if it stood alone, and only the literals at the boundary run together. A brace on either side of the
boundary is the exception: two of them open an expression.
-/

namespace ThemeForge

namespace Text

variable {c : Char} {cs rest before after : List Char}

/-- The first pair stays the first one, whatever follows. -/
theorem splitPair?_append_some (found : splitPair? c cs = some (before,after)) (rest : List Char) :
    splitPair? c (cs ++ rest) = some (before,after ++ rest) := by
  induction cs generalizing before with
  | nil => simp [splitPair?] at found
  | cons d ds ih =>
    rw [splitPair?] at found
    rw [List.cons_append, splitPair?]
    split at found
    · rename_i both
      obtain ⟨e,es,rfl⟩ : ∃ e es, ds = e :: es := by
        cases ds with
        | nil => simp at both
        | cons e es => exact ⟨e,es,rfl⟩
      simp_all
    · rename_i open_
      obtain ⟨⟨front,back⟩,later,same⟩ := Option.map_eq_some_iff.mp found
      obtain ⟨rfl,rfl⟩ := Prod.mk.inj same
      have apart : ¬(d = c ∧ (ds ++ rest).head? = some c) := by
        cases ds with
        | nil => simp [splitPair?] at later
        | cons e es => simpa using open_
      rw [if_neg apart, ih later]
      rfl

/-- Text without a pair only lengthens what stands before the first pair, if none forms where it
ends. -/
theorem splitPair?_append_none (absent : splitPair? c cs = none)
    (apart : cs.getLast? = some c → rest.head? ≠ some c) :
    splitPair? c (cs ++ rest) =
      (splitPair? c rest).map fun (before,after) => (cs ++ before,after) := by
  induction cs with
  | nil => simp
  | cons d ds ih =>
    rw [splitPair?] at absent
    split at absent
    · simp at absent
    · rename_i open_
      have later : splitPair? c ds = none := by simpa using absent
      rw [List.cons_append, splitPair?]
      cases ds with
      | nil =>
        have alone : ¬(d = c ∧ rest.head? = some c) := by
          rintro ⟨rfl,next⟩
          exact apart rfl next
        simp [alone]
      | cons e es =>
        have alone : ¬(d = c ∧ (e :: es ++ rest).head? = some c) := by simpa using open_
        rw [if_neg alone, ih later (by simpa using apart), Option.map_map]
        rfl

theorem splitPair?_free (free : c ∉ cs) : splitPair? c cs = none := by
  induction cs with
  | nil => rfl
  | cons d ds ih =>
    simp only [List.mem_cons, not_or] at free
    simp [splitPair?, Ne.symm free.1, ih free.2]

/-- What follows the last pair that can close changes nothing about there being none. -/
theorem splitPair?_append_free (absent : splitPair? c cs = none) (free : c ∉ rest) :
    splitPair? c (cs ++ rest) = none := by
  rw [splitPair?_append_none absent, splitPair?_free free]
  · rfl
  · intro _ first
    exact free (List.mem_of_mem_head? first)

end Text

namespace Template

/-- Segments after others. A literal at the end and one at the beginning are one literal. -/
def glue : List Segment → List Segment → List Segment
  | [], others => others
  | [.literal text], .literal more :: others => .literal (text ++ more) :: others
  | piece :: rest, others => piece :: glue rest others

variable {text others : List Char} {pieces more : List Segment}

@[simp] theorem glue_nil (pieces : List Segment) : glue [] pieces = pieces := rfl

@[simp] theorem glue_expression (source : String) (rest others : List Segment) :
    glue (.expression source :: rest) others = .expression source :: glue rest others := rfl

theorem glue_literal_expression (text : List Char) (source : String) (rest others : List Segment) :
    glue (literal text ++ .expression source :: rest) others =
      literal text ++ .expression source :: glue rest others := by
  cases text <;> simp [literal, glue]

theorem literal_append (text others : List Char) :
    literal (text ++ others) = glue (literal text) (literal others) := by
  cases text <;> cases others <;> simp [literal, glue, String.append_assoc]

theorem literal_append_expression (text others : List Char) (source : String)
    (rest : List Segment) :
    literal (text ++ others) ++ .expression source :: rest =
      glue (literal text) (literal others ++ .expression source :: rest) := by
  cases text <;> cases others <;> simp [literal, glue, String.append_assoc]

/-- What follows a text that is cut is cut as if it stood alone. -/
theorem segmentsOf_append (cut : segmentsOf text = .ok pieces)
    (apart : text.getLast? = some '{' → others.head? ≠ some '{') :
    segmentsOf (text ++ others) = (segmentsOf others).map (glue pieces) := by
  fun_induction segmentsOf text generalizing pieces with
  | case1 text opened =>
    cases cut
    rw [segmentsOf_eq, segmentsOf_eq others, Text.splitPair?_append_none opened apart]
    cases Text.splitPair? '{' others with
    | none => simp [Except.map, literal_append]
    | some found =>
      obtain ⟨before,body⟩ := found
      simp only [Option.map_some]
      cases Text.splitPair? '}' body with
      | none => rfl
      | some closing =>
        obtain ⟨source,rest⟩ := closing
        dsimp only
        split
        · rfl
        · cases segmentsOf rest with
          | error bad => rfl
          | ok later => simp [Except.map, literal_append_expression]
  | case2 => cases cut
  | case3 => cases cut
  | case4 text before body opened source rest closed shown shorter ih =>
    cases later : segmentsOf rest with
    | error bad => simp [later, Except.map] at cut
    | ok others' =>
      simp only [later, Except.map, Except.ok.injEq] at cut
      subst cut
      have still : rest.getLast? = some '{' → others.head? ≠ some '{' := by
        intro last
        apply apart
        have whole : text = (before ++ braced source) ++ rest := by
          simp [braced, Text.eq_append_of_splitPair? opened, Text.eq_append_of_splitPair? closed]
        rw [whole, List.getLast?_append, last, Option.some_or]
      rw [segmentsOf_eq, Text.splitPair?_append_some opened]
      simp only [Text.splitPair?_append_some closed, shown, Bool.false_eq_true, if_false,
        ih later still]
      cases segmentsOf others with
      | error bad => rfl
      | ok after => simp [Except.map, glue_literal_expression]

end Template

end ThemeForge
