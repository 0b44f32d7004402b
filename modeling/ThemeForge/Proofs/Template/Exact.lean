import ThemeForge.Proofs.Results
import ThemeForge.Proofs.Template.Cutting
import ThemeForge.Proofs.Text.Trimmed
import Mathlib

/-!
# Cutting a template is exact

Many lists of segments are written as the same text. One of them at most is normal, and that is the
one which cutting gives. If there is none, reading from the left comes to double braces that open no
expression.
-/

namespace ThemeForge

namespace Text

variable {c : Char} {cs before after : List Char}

/-- Two of a character stand in a row in a text, or first of all. -/
theorem pair_infix_cons {d : Char} :
    [c,c] <:+: d :: cs ↔ (d = c ∧ cs.head? = some c) ∨ [c,c] <:+: cs := by
  rw [List.infix_cons_iff, List.cons_prefix_cons]
  cases cs with
  | nil => simp
  | cons e es => simp [List.cons_prefix_cons, eq_comm]

theorem splitPair?_eq_none_iff : splitPair? c cs = none ↔ ¬[c,c] <:+: cs := by
  induction cs with
  | nil => simp [splitPair?]
  | cons d cs ih =>
    rw [splitPair?, pair_infix_cons, not_or, ← ih]
    split
    · rename_i both
      simp [both]
    · rename_i apart
      simp [apart]

/-- A text is cut at its first pair, so what stands before has none and does not end with a half. -/
theorem splitPair?_eq_some_iff :
    splitPair? c cs = some (before,after) ↔
      cs = before ++ c :: c :: after ∧ ¬[c,c] <:+: before ∧ before.getLast? ≠ some c := by
  constructor
  · intro found
    refine ⟨eq_append_of_splitPair? found,?_⟩
    induction cs generalizing before with
    | nil => simp [splitPair?] at found
    | cons d cs ih =>
      rw [splitPair?] at found
      split at found
      · cases found
        simp
      · rename_i apart
        obtain ⟨⟨front,back⟩,later,same⟩ := Option.map_eq_some_iff.mp found
        obtain ⟨rfl,rfl⟩ := Prod.mk.inj same
        obtain ⟨free,ends⟩ := ih later
        have whole := eq_append_of_splitPair? later
        cases front with
        | nil =>
          have single : d ≠ c := fun same => apart ⟨same,by simp [whole]⟩
          simp [pair_infix_cons, single]
        | cons e front =>
          refine ⟨?_,by simpa using ends⟩
          rw [pair_infix_cons, not_or]
          exact ⟨by simpa [whole] using apart,free⟩
  · rintro ⟨rfl,free,ends⟩
    rw [splitPair?_append_none (splitPair?_eq_none_iff.mpr free) fun last => absurd last ends]
    simp [splitPair?]

theorem dropEndWhile_append {p : Char → Bool} (cut : ∀ d ∈ after, p d = true) (cs : List Char) :
    dropEndWhile p (cs ++ after) = dropEndWhile p cs := by
  induction cs with
  | nil =>
    induction after with
    | nil => rfl
    | cons d after ih =>
      obtain ⟨first,others⟩ := List.forall_mem_cons.mp cut
      have none := ih others
      rw [List.nil_append, dropEndWhile_nil] at none
      simp [dropEndWhile, none, first]
  | cons d cs ih => rw [List.cons_append, dropEndWhile, dropEndWhile, ih]

end Text

/-- A segment as cutting gives it. A literal is some text that opens no expression, and an expression
is closed where it ends and not before. -/
def Segment.Proper : Segment → Prop
  | .literal text => text ≠ "" ∧ ¬['{','{'] <:+: text.toList
  | .expression source =>
    Text.allBlank source.toList = false ∧ ¬['}','}'] <:+: source.toList ∧
      source.toList.getLast? ≠ some '}'

/-- Segments that stay apart when they are written one after the other. -/
def Segment.Apart : Segment → Segment → Prop
  | .literal _, .literal _ => False
  | .literal text, .expression _ => text.toList.getLast? ≠ some '{'
  | .expression _, _ => True

namespace Template

/-- Segments as cutting gives them. -/
structure Normal (pieces : List Segment) : Prop where
  proper : ∀ piece ∈ pieces, piece.Proper
  apart : pieces.IsChain Segment.Apart

/-- Reading a text from the left goes through the segments in front and comes to double braces, behind
which is the body. -/
structure Reaches (text : List Char) (front : List Segment) (body : List Char) : Prop where
  whole : text = front.flatMap write ++ '{' :: '{' :: body
  normal : Normal front
  first : (front.flatMap write).getLast? ≠ some '{'

/-- What is told of double braces that open no expression, by the body behind them. If they are never
closed it is the rest of their line without the carriage returns at its end. If they are closed behind
blanks only it is all from brace to brace. -/
inductive Spoiled (body : List Char) : BadSpan → Prop
  | unclosed (never : ¬['}','}'] <:+: body) (part : '{' :: '{' :: body = span ++ returns ++ rest)
      (line : '\n' ∉ span) (returned : ∀ c ∈ returns, c = '\r')
      (kept : span.getLast? ≠ some '\r') (ended : ∀ c ∈ rest.head?, c = '\n') :
      Spoiled body ⟨String.ofList span,.unterminatedSpan⟩
  | blank (none : Text.allBlank source = true) (closed : body = source ++ '}' :: '}' :: rest) :
      Spoiled body ⟨String.ofList (braced source),.emptySpan⟩

variable {text before body rest : List Char} {source : String} {pieces front : List Segment}
  {bad : BadSpan}

theorem getLast?_braced (source : List Char) : (braced source).getLast? = some '}' := by
  simp [braced, List.getLast?_cons]

theorem normal_nil : Normal [] := ⟨nofun,.nil⟩

theorem normal_literal (free : ¬['{','{'] <:+: text) : Normal (literal text) := by
  cases text with
  | nil => exact normal_nil
  | cons c cs =>
    refine ⟨fun piece found => ?_,.singleton _⟩
    rw [List.mem_singleton.mp found]
    exact ⟨by simp,by simpa using free⟩

/-- An expression before segments, behind a text that does not open it too early. -/
theorem Normal.expression (normal : Normal pieces) (free : ¬['{','{'] <:+: before)
    (ends : before.getLast? ≠ some '{') (proper : Segment.Proper (.expression source)) :
    Normal (literal before ++ .expression source :: pieces) := by
  have behind : Normal (.expression source :: pieces) := by
    refine ⟨List.forall_mem_cons.mpr ⟨proper,normal.proper⟩,normal.apart.cons fun _ _ => trivial⟩
  cases before with
  | nil => exact behind
  | cons c cs =>
    have text := (normal_literal free).proper _ List.mem_cons_self
    refine ⟨List.forall_mem_cons.mpr ⟨text,behind.proper⟩,behind.apart.cons ?_⟩
    rintro _ ⟨⟩
    simpa [Segment.Apart] using ends

theorem segmentsOf_normal (cut : segmentsOf text = .ok pieces) : Normal pieces := by
  fun_induction segmentsOf text generalizing pieces with
  | case1 text opened =>
    cases cut
    exact normal_literal (Text.splitPair?_eq_none_iff.mp opened)
  | case2 => cases cut
  | case3 => cases cut
  | case4 text before body opened source rest closed shown shorter ih =>
    obtain ⟨others,later,rfl⟩ := map_ok_iff.mp cut
    obtain ⟨_,free,ends⟩ := Text.splitPair?_eq_some_iff.mp opened
    obtain ⟨_,single,last⟩ := Text.splitPair?_eq_some_iff.mp closed
    exact (ih later).expression free ends ⟨by simpa using shown,by simpa using single,
      by simpa using last⟩

/-- A text that starts with an expression gives it as the first segment. -/
theorem segmentsOf_braced (proper : Segment.Proper (.expression source)) (rest : List Char) :
    segmentsOf (braced source.toList ++ rest) =
      (segmentsOf rest).map (.expression source :: ·) := by
  obtain ⟨shown,single,last⟩ := proper
  have opened : Text.splitPair? '{' (braced source.toList ++ rest) =
      some ([],source.toList ++ '}' :: '}' :: rest) := by
    simp [braced, Text.splitPair?]
  have closed : Text.splitPair? '}' (source.toList ++ '}' :: '}' :: rest) =
      some (source.toList,rest) := Text.splitPair?_eq_some_iff.mpr ⟨rfl,single,last⟩
  rw [segmentsOf_eq, opened]
  simp [closed, shown, literal]

/-- Normal segments are found again in the text that they are written as. -/
theorem Normal.segmentsOf (normal : Normal pieces) :
    segmentsOf (pieces.flatMap write) = .ok pieces := by
  induction pieces with
  | nil =>
    rw [segmentsOf_eq]
    rfl
  | cons piece pieces ih =>
    obtain ⟨first,others⟩ := List.forall_mem_cons.mp normal.proper
    obtain ⟨apart,chain⟩ := List.isChain_cons.mp normal.apart
    have later := ih ⟨others,chain⟩
    cases piece with
    | expression source =>
      rw [List.flatMap_cons, write, segmentsOf_braced first, later]
      rfl
    | literal text =>
      obtain ⟨some,free⟩ := first
      have alone : Template.segmentsOf text.toList = .ok [.literal text] := by
        rw [segmentsOf_eq, Text.splitPair?_eq_none_iff.mpr free]
        simp [literal, some]
      -- What is glued to the literal starts with an expression, if there is anything.
      have open_ : text.toList.getLast? = Option.some '{' →
          (pieces.flatMap write).head? ≠ Option.some '{' := by
        intro last
        cases pieces with
        | nil => simp
        | cons next pieces =>
          cases next with
          | literal more => exact (apart _ rfl).elim
          | expression source => exact absurd last (apart _ rfl)
      rw [List.flatMap_cons, write, segmentsOf_append alone open_, later]
      cases pieces with
      | nil => rfl
      | cons next pieces =>
        cases next with
        | literal more => exact (apart _ rfl).elim
        | expression source => rfl

theorem segmentsOf_eq_ok_iff :
    segmentsOf text = .ok pieces ↔ pieces.flatMap write = text ∧ Normal pieces := by
  constructor
  · exact fun cut => ⟨flatMap_write_segmentsOf cut,segmentsOf_normal cut⟩
  · rintro ⟨rfl,normal⟩
    exact normal.segmentsOf

/-- The rest of a line, told by where it ends. -/
theorem openSpan_eq {span returns : List Char}
    (part : '{' :: '{' :: body = span ++ returns ++ rest) (line : '\n' ∉ span)
    (returned : ∀ c ∈ returns, c = '\r') (kept : span.getLast? ≠ some '\r')
    (ended : ∀ c ∈ rest.head?, c = '\n') : openSpan body = span := by
  have inside : ∀ c ∈ span ++ returns, (c != '\n') = true := by
    intro c found
    rcases List.mem_append.mp found with found | found
    · have other : c ≠ '\n' := fun same => line (same ▸ found)
      simpa using other
    · rw [returned c found]
      rfl
  have stopped : rest.takeWhile (· != '\n') = [] := by
    cases rest with
    | nil => rfl
    | cons c rest => simp [ended c rfl]
  have cut : ('{' :: '{' :: body).takeWhile (· != '\n') = span ++ returns := by
    rw [part, List.takeWhile_append_of_pos inside, stopped, List.append_nil]
  have opening : ('{' :: '{' :: body).takeWhile (· != '\n') =
      '{' :: '{' :: body.takeWhile (· != '\n') := by simp
  rw [openSpan, ← opening, cut, Text.dropEndWhile_append (by simpa using returned)]
  refine Text.dropEndWhile_eq fun c last => ?_
  have other : c ≠ '\r' := fun same => kept (same ▸ last)
  simpa using other

theorem unclosed_spoiled (never : ¬['}','}'] <:+: body) :
    Spoiled body ⟨String.ofList (openSpan body),.unterminatedSpan⟩ := by
  have line : '\n' ∉ '{' :: '{' :: body.takeWhile (· != '\n') := by
    have other : '\n' ∉ body.takeWhile (· != '\n') := fun found => by
      simpa using List.mem_takeWhile_imp found
    simpa using other
  obtain ⟨returns,split,returned⟩ := Text.exists_dropEndWhile_append (· == '\r')
    ('{' :: '{' :: body.takeWhile (· != '\n'))
  have part : '{' :: '{' :: body = openSpan body ++ returns ++ body.dropWhile (· != '\n') := by
    rw [openSpan, ← split, List.cons_append, List.cons_append, List.takeWhile_append_dropWhile]
  refine .unclosed never part ?_ ?_ ?_ ?_
  · exact fun found => line ((Text.dropEndWhile_front _ _).subset found)
  · simpa using returned
  · intro last
    simpa using Text.dropEndWhile_last (· == '\r') _ _ last
  · intro c found
    have stopped := List.head?_dropWhile_not (· != '\n') body
    rw [found] at stopped
    simpa using stopped

/-- Nothing is cut from double braces on that open no expression. -/
theorem Spoiled.segmentsOf (spoiled : Spoiled body bad) :
    Template.segmentsOf ('{' :: '{' :: body) = .error bad := by
  have opened : Text.splitPair? '{' ('{' :: '{' :: body) = some ([],body) := by
    simp [Text.splitPair?]
  rw [segmentsOf_eq, opened]
  cases spoiled with
  | unclosed never part line returned kept ended =>
    simp [Text.splitPair?_eq_none_iff.mpr never, openSpan_eq part line returned kept ended]
  | @blank source rest none closed =>
    have free : '}' ∉ source := fun found => by
      have blank : Text.isBlank '}' = true := List.all_eq_true.mp none '}' found
      revert blank
      decide
    have single : ¬['}','}'] <:+: source := fun pair => free (pair.subset (by simp))
    have cut := Text.splitPair?_eq_some_iff.mpr
      ⟨closed,single,fun last => free (List.mem_of_getLast? last)⟩
    simp [cut, none]

/-- What cannot be cut is read up to double braces that open no expression. -/
theorem exists_spoiled (failed : segmentsOf text = .error bad) :
    ∃ front body, Reaches text front body ∧ Spoiled body bad := by
  fun_induction segmentsOf text with
  | case1 => cases failed
  | case2 text before body opened closed =>
    cases failed
    obtain ⟨whole,free,ends⟩ := Text.splitPair?_eq_some_iff.mp opened
    refine ⟨literal before,body,⟨?_,normal_literal free,?_⟩,
      unclosed_spoiled (Text.splitPair?_eq_none_iff.mp closed)⟩
    · rw [flatMap_write_literal, whole]
    · rwa [flatMap_write_literal]
  | case3 text before body opened source rest closed shown =>
    cases failed
    obtain ⟨whole,free,ends⟩ := Text.splitPair?_eq_some_iff.mp opened
    refine ⟨literal before,body,⟨?_,normal_literal free,?_⟩,
      .blank shown (Text.eq_append_of_splitPair? closed)⟩
    · rw [flatMap_write_literal, whole]
    · rwa [flatMap_write_literal]
  | case4 text before body opened source rest closed shown shorter ih =>
    have later : segmentsOf rest = .error bad := by
      cases found : segmentsOf rest with
      | ok others => simp [found, Except.map] at failed
      | error fault => simpa [found, Except.map] using failed
    obtain ⟨front,behind,reaches,spoiled⟩ := ih later
    obtain ⟨whole,free,ends⟩ := Text.splitPair?_eq_some_iff.mp opened
    obtain ⟨inside,single,last⟩ := Text.splitPair?_eq_some_iff.mp closed
    have proper : Segment.Proper (.expression (String.ofList source)) :=
      ⟨by simpa using shown,by simpa using single,by simpa using last⟩
    refine ⟨literal before ++ .expression (String.ofList source) :: front,behind,
      ⟨?_,reaches.normal.expression free ends proper,?_⟩,spoiled⟩
    · rw [whole, inside, reaches.whole]
      simp [flatMap_write_literal, write, braced]
    · rw [List.flatMap_append, List.flatMap_cons, ← List.append_assoc, List.getLast?_append]
      cases found : (front.flatMap write).getLast? with
      | none => simp [write, getLast?_braced]
      | some c => simpa [found] using reaches.first

theorem segmentsOf_eq_error_iff :
    segmentsOf text = .error bad ↔ ∃ front body, Reaches text front body ∧ Spoiled body bad := by
  refine ⟨exists_spoiled,?_⟩
  rintro ⟨front,body,⟨rfl,normal,first⟩,spoiled⟩
  rw [segmentsOf_append normal.segmentsOf fun last => absurd last first, spoiled.segmentsOf]
  rfl

theorem exists_spoiled_iff : (∃ bad, Spoiled body bad) ↔
    ¬['}','}'] <:+: body ∨
      ∃ source rest, body = source ++ '}' :: '}' :: rest ∧ Text.allBlank source = true := by
  constructor
  · rintro ⟨bad,never | ⟨none,closed⟩⟩
    · exact .inl never
    · exact .inr ⟨_,_,closed,none⟩
  · rintro (never | ⟨source,rest,closed,none⟩)
    · exact ⟨_,unclosed_spoiled never⟩
    · exact ⟨_,.blank none closed⟩

/-- Cutting a template is exact. The segments that it gives are written as the text, and they are the
only normal ones that are. It fails exactly if reading from the left comes to double braces that are
never closed or have only blanks behind them up to where they are closed, and tells what spoils that
place. -/
theorem segments_exact (text : String) :
    (∀ pieces, segments text = .ok pieces ↔
      pieces.flatMap write = text.toList ∧ Normal pieces) ∧
    ((∃ bad, segments text = .error bad) ↔
      ∃ front body, Reaches text.toList front body ∧
        (¬['}','}'] <:+: body ∨
          ∃ source rest, body = source ++ '}' :: '}' :: rest ∧ Text.allBlank source = true)) ∧
    ∀ bad, segments text = .error bad ↔
      ∃ front body, Reaches text.toList front body ∧ Spoiled body bad := by
  refine ⟨fun _ => segmentsOf_eq_ok_iff,?_,fun _ => segmentsOf_eq_error_iff⟩
  constructor
  · rintro ⟨bad,failed⟩
    obtain ⟨front,body,reaches,spoiled⟩ := segmentsOf_eq_error_iff.mp failed
    exact ⟨front,body,reaches,exists_spoiled_iff.mp ⟨bad,spoiled⟩⟩
  · rintro ⟨front,body,reaches,reason⟩
    obtain ⟨bad,spoiled⟩ := exists_spoiled_iff.mpr reason
    exact ⟨bad,segmentsOf_eq_error_iff.mpr ⟨front,body,reaches,spoiled⟩⟩

/-- The first braces open and the first ones close. -/
example : segments "x\x7b\x7b\x7b1\x7d\x7d\x7d" =
    .ok [.literal "x",.expression "\x7b1",.literal "\x7d"] := by cbv

end Template

end ThemeForge
