import ThemeForge.Proofs.Evaluation.Coverage
import ThemeForge.Settings.Reading
import Mathlib

/-!
# What earlier calls change

Two sessions over the same tables, of which one knows more, answer alike as long as the one that
knows less is not misled by a label that two entries have. With such a label an earlier call can
change an answer: the tables at the end show it.
-/

namespace ThemeForge.Session

structure Settled (s : Session) : Prop where
  sound : s.Sound
  closed : s.tables.Closed s.known

/-- The first of two sessions over the same tables knows no more than the second. -/
structure Below (s other : Session) : Prop where
  tables : s.tables = other.tables
  sound : s.Sound
  settled : other.Settled
  more : Tables.Extends s.known other.known

variable {s other : Session}

theorem start_settled (t : Tables) : (start t).Settled := ⟨start_sound t,Tables.closed_nil⟩

theorem evaluate_settled (settled : s.Settled) (source : String) :
    (s.evaluate source).2.Settled := by
  refine ⟨(evaluate_sound s source settled.sound).1,?_⟩
  unfold evaluate
  cases Expr.parse source with
  | error fault => exact settled.closed
  | ok e => exact ((s.eval_run e).closed settled.sound settled.closed).1

theorem expandSegments_settled (location : String) (segments : List Segment)
    (settled : s.Settled) : (expandSegments location segments s).2.Settled := by
  induction segments generalizing s with
  | nil => exact settled
  | cons segment rest ih =>
    cases segment with
    | literal text =>
      rw [expandSegments_literal]
      exact ih settled
    | expression source =>
      have after := evaluate_settled settled source
      rcases evaluated : s.evaluate source with ⟨fault | value,s'⟩
      · rw [expandSegments_failing evaluated]
        rwa [evaluated] at after
      · rw [expandSegments_expression evaluated]
        rw [evaluated] at after
        exact ih after

theorem call_settled (settled : s.Settled) (c : Call) : (s.call c).2.Settled := by
  cases c with
  | evaluate source => exact evaluate_settled settled source
  | expand location template =>
    cases cut : Template.segments template with
    | error bad =>
      rw [call_malformed s cut]
      exact settled
    | ok segments =>
      rw [call_segments s cut]
      exact expandSegments_settled location segments settled

theorem after_settled (settled : s.Settled) (calls : List Call) :
    (s.after calls).Settled ∧ (s.after calls).tables = s.tables := by
  induction calls generalizing s with
  | nil => exact ⟨settled,rfl⟩
  | cons c rest ih =>
    obtain ⟨after,same⟩ := ih (call_settled settled c)
    exact ⟨after,same.trans (call_sound s c settled.sound).1⟩

/-- One expression has one result in both sessions, unless the one that knows less is misled. -/
theorem evaluate_agree (below : s.Below other) (source : String) :
    ((s.evaluate source).1 = (other.evaluate source).1 ∧
        (s.evaluate source).2.Below (other.evaluate source).2) ∨
      s.tables.Misled (s.evaluate source).1 := by
  cases parsed : Expr.parse source with
  | error fault =>
    have first : s.evaluate source = (.error fault,s) := by rw [evaluate,parsed]
    have second : other.evaluate source = (.error fault,other) := by rw [evaluate,parsed]
    rw [first,second]
    exact .inl ⟨rfl,below⟩
  | ok e =>
    have sound := (evaluate_sound s source below.sound).1
    have settled := evaluate_settled below.settled source
    have first : s.evaluate source = s.eval e := by rw [evaluate,parsed]
    have second : other.evaluate source = other.eval e := by rw [evaluate,parsed]
    rw [first] at sound ⊢
    rw [second] at settled ⊢
    have run := other.eval_run e
    have soundOther := below.settled.sound
    have closed := below.settled.closed
    rw [Sound,← below.tables] at soundOther
    rw [← below.tables] at run closed
    rcases (s.eval_run e).agree run below.sound soundOther closed below.more (by simp) with
      ⟨same,more⟩ | misled
    · exact .inl ⟨same,below.tables,sound,settled,more⟩
    · exact .inr misled

/-- An answer tells of a chain that closes at a label that two entries have. -/
def Misleading (t : Tables) (answer : Answer) : Prop :=
  ∃ chain, answer.chain? = some chain ∧ t.Misleads chain

theorem expandSegments_agree (location : String) (segments : List Segment)
    (below : s.Below other) :
    (expandSegments location segments s).1 = (expandSegments location segments other).1 ∨
      Misleading s.tables (.text (expandSegments location segments s).1) := by
  induction segments generalizing s other with
  | nil => exact .inl rfl
  | cons segment rest ih =>
    cases segment with
    | literal text =>
      rw [expandSegments_literal,expandSegments_literal]
      rcases ih below with same | ⟨chain,tells,misleads⟩
      · rw [same]
        exact .inl rfl
      · refine .inr ⟨chain,?_,misleads⟩
        cases result : (expandSegments location rest s).1 <;>
          simp_all [Answer.chain?,Except.map]
    | expression source =>
      have tables := tables_evaluate s source
      rcases evaluate_agree below source with ⟨same,after⟩ | ⟨chain,tells,misleads⟩
      · rcases evaluated : s.evaluate source with ⟨result,s'⟩
        rcases evaluated' : other.evaluate source with ⟨result',other'⟩
        rw [evaluated,evaluated'] at same after
        rw [evaluated] at tables
        cases same
        cases result with
        | error fault =>
          rw [expandSegments_failing evaluated,expandSegments_failing evaluated']
          exact .inl rfl
        | ok value =>
          rw [expandSegments_expression evaluated,expandSegments_expression evaluated']
          rcases ih after with same | ⟨chain,tells,misleads⟩
          · rw [same]
            exact .inl rfl
          · refine .inr ⟨chain,?_,tables ▸ misleads⟩
            cases result : (expandSegments location rest s').1 <;>
              simp_all [Answer.chain?,Except.map]
      · rcases evaluated : s.evaluate source with ⟨fault | value,s'⟩
        · rw [evaluated] at tells
          rw [expandSegments_failing evaluated]
          exact .inr ⟨chain,tells,misleads⟩
        · rw [evaluated] at tells
          cases tells

theorem call_agree (below : s.Below other) (c : Call) :
    (s.call c).1 = (other.call c).1 ∨ Misleading s.tables (s.call c).1 := by
  cases c with
  | evaluate source =>
    rcases evaluate_agree below source with ⟨same,_⟩ | misled
    · exact .inl (congrArg Answer.value same)
    · exact .inr misled
  | expand location template =>
    cases cut : Template.segments template with
    | error bad =>
      rw [call_malformed s cut,call_malformed other cut]
      exact .inl rfl
    | ok segments =>
      rw [call_segments s cut,call_segments other cut]
      rcases expandSegments_agree location segments below with same | misled
      · exact .inl (congrArg Answer.text same)
      · exact .inr misled

/-- A session answers a call as a new one does, whatever calls came before, unless the new one
tells of a chain that closes at a label which a preset and a constant have in common. -/
theorem call_after (t : Tables) (earlier : List Call) (c : Call) :
    (((start t).after earlier).call c).1 = ((start t).call c).1 ∨
      ∃ chain label, ((start t).call c).1.chain? = some chain ∧ chain.getLast? = some label ∧
        t.Ambiguous label := by
  obtain ⟨settled,tables⟩ := after_settled (start_settled t) earlier
  have below : (start t).Below ((start t).after earlier) :=
    ⟨tables.symm,start_sound t,settled,Tables.extends_nil _⟩
  rcases call_agree below c with same | ⟨chain,tells,label,last,ambiguous⟩
  · exact .inl same.symm
  · exact .inr ⟨chain,label,tells,last,ambiguous⟩

/-- An expression that only refers to an entry is answered with the entry. -/
theorem evaluate_ask (s : Session) (parsed : Expr.parse source = .ok e)
    (asks : e.value = .ask r .done) :
    s.evaluate source =
      ((s.tables.answer [] r s.known).1,⟨s.tables,(s.tables.answer [] r s.known).2⟩) := by
  simp only [evaluate,parsed,eval,asks,Query.run]
  rcases s.tables.answer [] r s.known with ⟨_ | _,_⟩ <;> rfl

def namesakes : Tables := ⟨⟨[("p(x",[("y)","1")])]⟩,⟨[("x",[("y","c('p(x.y)')")])]⟩⟩

theorem parse_preset : Expr.parse "p(x.y)" = .ok (.call .preset [.symbol "x.y"] []) := by cbv

theorem parse_constant :
    Expr.parse "c('p(x.y)')" = .ok (.call .constant [.text "p(x.y)"] []) := by cbv

theorem preset_asks :
    Expr.value (.call .preset [.symbol "x.y"] []) = .ask ⟨.preset,"x.y"⟩ .done := rfl

theorem constant_asks :
    Expr.value (.call .constant [.text "p(x.y)"] []) = .ask ⟨.constant,"p(x.y)"⟩ .done := rfl

theorem namesakes_constant :
    namesakes.answer [] ⟨.constant,"p(x.y)"⟩ [] = (.ok (.int 1),[("p(x.y)",.int 1)]) := by
  have parsed : Expr.parse "1" = .ok (.int 1) := by cbv
  rw [Tables.answer_eq,show namesakes.entry? ⟨.constant,"p(x.y)"⟩ = some "1" by cbv]
  simp only [parsed]
  rfl

/-- Inside the preset the constant closes the chain, unless its value is known. -/
theorem namesakes_preset (k : Known) :
    (namesakes.answer [] ⟨.preset,"x.y"⟩ k).1 =
      match k.lookup "p(x.y)" with
      | none => .error (.circular ["p(x.y)","p(x.y)"])
      | some value => .ok value := by
  rw [Tables.answer_eq,show namesakes.entry? ⟨.preset,"x.y"⟩ = some "c('p(x.y)')" by cbv]
  have inside : namesakes.answer ["p(x.y)"] ⟨.constant,"p(x.y)"⟩ k =
      match k.lookup "p(x.y)" with
      | none => (.error (.circular ["p(x.y)","p(x.y)"]),k)
      | some value => (.ok value,k) := by
    rw [Tables.answer_eq,show namesakes.entry? ⟨.constant,"p(x.y)"⟩ = some "1" by cbv]
    simp only [Reference.known?]
    cases k.lookup "p(x.y)" <;> rfl
  simp only [parse_constant,constant_asks,Query.run]
  rw [show Reference.label ⟨.preset,"x.y"⟩ = "p(x.y)" from rfl,inside]
  cases k.lookup "p(x.y)" <;> rfl

/-- A call that came before makes the chain of a preset close no more. -/
theorem call_after_differs :
    Settings.parse "[p(x]\ny)=1" = .ok namesakes.constants ∧
      Settings.parse "[x]\ny=c('p(x.y)')" = .ok namesakes.presets ∧
      (((start namesakes).after [.evaluate "c('p(x.y)')"]).call (.evaluate "p(x.y)")).1 ≠
        ((start namesakes).call (.evaluate "p(x.y)")).1 := by
  have before : (start namesakes).after [.evaluate "c('p(x.y)')"] =
      ⟨namesakes,[("p(x.y)",.int 1)]⟩ := by
    simp only [after,call,evaluate_ask _ parse_constant constant_asks,start,namesakes_constant]
  have known (k : Known) : ((Session.mk namesakes k).call (.evaluate "p(x.y)")).1 =
      .value (namesakes.answer [] ⟨.preset,"x.y"⟩ k).1 := by
    simp only [call,evaluate_ask _ parse_preset preset_asks]
  refine ⟨by cbv,by cbv,?_⟩
  rw [before,start,known,known,namesakes_preset,namesakes_preset]
  simp

end ThemeForge.Session
