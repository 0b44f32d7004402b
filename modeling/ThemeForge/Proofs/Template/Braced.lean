import ThemeForge.Proofs.Expression.Ending
import ThemeForge.Proofs.Template.Exact

/-!
# Expressions as templates

An expression between double braces is a template. The braces are looked for before the expression is
read, so they end at the first two closing braces in a row. No expression has such a pair but in a
quoted text, and then its template does not expand.
-/

namespace ThemeForge

/-- Nothing but blanks is no expression. -/
theorem Expr.parse_blank {source : String} (blank : Text.allBlank source.toList = true) :
    parse source = .error (unexpected .value []) := by
  have tokens : Token.scan source = .ok [] := by
    have none := Token.scanFrom_blank_append (w := source.toList)
      (fun c found => List.all_eq_true.mp blank c found) (Token.byteLength source.toList) []
    rwa [List.append_nil, Token.scanFrom] at none
  rw [parse, tokens]
  change ofTokens [] = _
  cbv

theorem Expr.not_blank_of_parse {source : String}
    (other : parse source ≠ .error (unexpected .value [])) :
    Text.allBlank source.toList = false := by
  cases blank : Text.allBlank source.toList with
  | false => rfl
  | true => exact absurd (parse_blank blank) other

theorem Expr.parse_before_brace {source : String} {front rest : List Char}
    (read : parse source = .ok e) (cut : source.toList = front ++ '}' :: rest) :
    parse (String.ofList front) = .error .unterminatedText ∧ rest ≠ [] := by
  obtain ⟨tokens,scanned,_⟩ := bind_ok_iff.mp read
  rw [Token.scan, cut] at scanned
  obtain ⟨inside,behind⟩ := Token.scanFrom_before_brace scanned
    (Token.byteLength (String.ofList front).toList)
  refine ⟨?_,behind⟩
  rw [parse, Token.scan, String.toList_ofList]
  rw [String.toList_ofList] at inside
  rw [inside]
  rfl

namespace Session

variable {s after : Session} {source : String} {value : Value}

theorem exists_parse (evaluated : s.evaluate source = (.ok value,after)) :
    ∃ e, Expr.parse source = .ok e := by
  unfold evaluate at evaluated
  cases read : Expr.parse source with
  | error fault => simp [read] at evaluated
  | ok e => exact ⟨e,rfl⟩

/-- An expression is a proper segment, if it has no pair of closing braces. -/
theorem proper_of_parse {e : Expr} (read : Expr.parse source = .ok e)
    (free : ¬['}','}'] <:+: source.toList) : Segment.Proper (.expression source) := by
  refine ⟨Expr.not_blank_of_parse (by simp [read]),free,fun last => ?_⟩
  obtain ⟨front,whole⟩ := List.getLast?_eq_some_iff.mp last
  exact (Expr.parse_before_brace read whole).2 rfl

/-- What stands before the first pair of closing braces in an expression is a proper segment, but it
ends inside a quoted text. -/
theorem exists_front_of_parse {e : Expr} (read : Expr.parse source = .ok e)
    (pair : ['}','}'] <:+: source.toList) :
    ∃ front back, source.toList = front.toList ++ '}' :: '}' :: back ∧
      Segment.Proper (.expression front) ∧ Expr.parse front = .error .unterminatedText := by
  obtain ⟨⟨front,back⟩,found⟩ := Option.ne_none_iff_exists'.mp
    (mt Text.splitPair?_eq_none_iff.mp (not_not.mpr pair))
  obtain ⟨whole,single,last⟩ := Text.splitPair?_eq_some_iff.mp found
  obtain ⟨inside,_⟩ := Expr.parse_before_brace read whole
  refine ⟨String.ofList front,back,by simpa using whole,⟨?_,?_,?_⟩,inside⟩
  · exact Expr.not_blank_of_parse (by simp [inside, Expr.unexpected])
  · simpa using single
  · simpa using last

theorem segments_braced {text : String} (proper : Segment.Proper (.expression source))
    (whole : text.toList = Template.braced source.toList ++ rest) :
    Template.segments text = (Template.segmentsOf rest).map (.expression source :: ·) := by
  rw [Template.segments, whole, Template.segmentsOf_braced proper]

/-- An expression that has a value has the same one as a template between double braces, if there are
no two closing braces in a row in it. If there are, the template ends inside a quoted text and cannot
be expanded. -/
theorem expand_braced (location : String) (evaluated : s.evaluate source = (.ok value,after)) :
    (¬['}','}'] <:+: source.toList →
      s.expand location ("\x7b\x7b" ++ source ++ "\x7d\x7d") = (.ok value.result,after)) ∧
    (['}','}'] <:+: source.toList → ∃ fault,
      s.expand location ("\x7b\x7b" ++ source ++ "\x7d\x7d") = (.error fault,s)) := by
  obtain ⟨e,read⟩ := exists_parse evaluated
  constructor
  · intro free
    have whole : ("\x7b\x7b" ++ source ++ "\x7d\x7d").toList =
        Template.braced source.toList ++ [] := by simp [Template.braced]
    have nothing : Template.segmentsOf [] = .ok [] := by
      rw [Template.segmentsOf_eq]
      rfl
    rw [expand, segments_braced (proper_of_parse read free) whole, nothing]
    simp only [Except.map]
    rw [expandSegments_expression evaluated]
    simp [expandSegments, Except.map]
  · intro pair
    obtain ⟨front,back,cut,proper,inside⟩ := exists_front_of_parse read pair
    have whole : ("\x7b\x7b" ++ source ++ "\x7d\x7d").toList =
        Template.braced front.toList ++ (back ++ ['}','}']) := by simp [Template.braced, cut]
    have failed : s.evaluate front = (.error .unterminatedText,s) := by rw [evaluate, inside]
    rw [expand, segments_braced proper whole]
    cases Template.segmentsOf (back ++ ['}','}']) with
    | error bad => exact ⟨_,rfl⟩
    | ok pieces => exact ⟨_,expandSegments_failing failed⟩

/-- Single closing braces and pairs of opening ones in quoted texts do not end the template. -/
theorem expand_braced_braces :
    (start ⟨.empty,.empty⟩).evaluate "'\x7b\x7b\x7d' + '\x7d'" =
        (.ok (.text "\x7b\x7b\x7d\x7d"),start ⟨.empty,.empty⟩) ∧
      ¬['}','}'] <:+: "'\x7b\x7b\x7d' + '\x7d'".toList ∧
      (start ⟨.empty,.empty⟩).expand "S.k" "\x7b\x7b'\x7b\x7b\x7d' + '\x7d'\x7d\x7d" =
        (.ok "\x7b\x7b\x7d\x7d",start ⟨.empty,.empty⟩) := by
  have evaluated : (start ⟨.empty,.empty⟩).evaluate "'\x7b\x7b\x7d' + '\x7d'" =
      (.ok (.text "\x7b\x7b\x7d\x7d"),start ⟨.empty,.empty⟩) := by cbv
  have free : ¬['}','}'] <:+: "'\x7b\x7b\x7d' + '\x7d'".toList := by decide
  exact ⟨evaluated,free,(expand_braced "S.k" evaluated).1 free⟩

/-- Two closing braces in a quoted text end the template. -/
theorem expand_braced_differs :
    (start ⟨.empty,.empty⟩).evaluate "'\x7d\x7d'" = (.ok (.text "\x7d\x7d"),start ⟨.empty,.empty⟩) ∧
      (start ⟨.empty,.empty⟩).expand "S.k" "\x7b\x7b'\x7d\x7d'\x7d\x7d" =
        (.error ⟨"S.k","\x7b\x7b'\x7d\x7d",.unterminatedText⟩,start ⟨.empty,.empty⟩) := by
  exact ⟨by cbv,by cbv⟩

end Session

end ThemeForge
