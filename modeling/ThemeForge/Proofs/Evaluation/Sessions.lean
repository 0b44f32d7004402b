import Mathlib.Data.List.Forall2
import ThemeForge.Proofs.Evaluation.Run

/-!
# Sessions and plain evaluation

A session answers calls one after another and remembers the values of constants, also after a call
that failed. Every value that it remembers is the plain value of its constant, so each answer is the
plain one unless it tells of a chain.
-/

namespace ThemeForge

inductive Call
  | evaluate (source : String)
  | expand (location template : String)

inductive Answer
  | value (result : Except Fault Value)
  | text (result : Except ExpansionFault String)

def Answer.chain? : Answer → Option (List String)
  | .value result => ThemeForge.chain? result
  | .text (.ok _) => none
  | .text (.error fault) => fault.fault.chain?

/-- The plain answer to a call. -/
inductive Tables.Means (t : Tables) : Call → Answer → Prop
  | evaluate : t.Evaluates source result → t.Means (.evaluate source) (.value result)
  | expand : t.Expands location template result →
      t.Means (.expand location template) (.text result)

namespace Session

def call (s : Session) : Call → Answer × Session
  | .evaluate source => (.value (s.evaluate source).1,(s.evaluate source).2)
  | .expand location template =>
    (.text (s.expand location template).1,(s.expand location template).2)

def after (s : Session) : List Call → Session
  | [] => s
  | c :: rest => (s.call c).2.after rest

def answers (s : Session) : List Call → List Answer
  | [] => []
  | c :: rest => (s.call c).1 :: (s.call c).2.answers rest

end Session

namespace Tables

variable {t : Tables}

theorem Means.unique (first : t.Means call a) (second : t.Means call b) : a = b := by
  cases first with
  | evaluate result => cases second with | evaluate other => rw [result.unique other]
  | expand result => cases second with | expand other => rw [result.unique other]

def Sound (t : Tables) (k : Known) : Prop :=
  ∀ name value, k.lookup name = some value → t.HasValue ⟨.constant,name⟩ value

theorem sound_nil : t.Sound [] := by
  intro name value found
  simp at found

theorem Sound.hasValue (sound : t.Sound k) (known : r.known? k = some v) : t.HasValue r v := by
  obtain ⟨table,name⟩ := r
  cases table with
  | constant => exact sound name v known
  | preset => simp [Reference.known?] at known

theorem Sound.keep (sound : t.Sound k) (value : t.HasValue r v) : t.Sound (r.keep v k) := by
  obtain ⟨table,name⟩ := r
  cases table with
  | preset => exact sound
  | constant =>
    intro other w found
    by_cases same : other = name
    · subst same
      obtain rfl : v = w := by simpa [Reference.keep] using found
      exact value
    · have no : (other == name) = false := by simpa using same
      exact sound other w (by simpa [Reference.keep,List.lookup_cons,no] using found)

/-- A run keeps what is known sound. Its result is the plain one unless it tells of a chain. -/
theorem Runs.sound (run : t.Runs above q k result k') (sound : t.Sound k) :
    t.Sound k' ∧ (chain? result = none → t.Yields q result) := by
  induction run with
  | done => exact ⟨sound,fun _ => .done⟩
  | fail => exact ⟨sound,fun _ => .fail⟩
  | known known _ ih =>
    obtain ⟨e,tree,yields⟩ := sound.hasValue known
    obtain ⟨kept,plain⟩ := ih sound
    exact ⟨kept,fun other => .answered tree yields (plain other)⟩
  | lost _ absent => exact ⟨sound,fun _ => .lost absent⟩
  | circular => exact ⟨sound,fun other => by simp [chain?,Fault.chain?] at other⟩
  | unreadable _ tree _ =>
    refine ⟨sound,fun other => ?_⟩
    rw [Reference.within_eq_wrapped _ (by simpa [chain?] using other)]
    exact .unreadable tree
  | failing _ tree _ _ ih =>
    obtain ⟨kept,plain⟩ := ih sound
    refine ⟨kept,fun other => ?_⟩
    rw [Reference.within_eq_wrapped _ (by simpa [chain?] using other)]
    exact .failing tree (plain (by simpa [chain?] using other))
  | answered _ tree _ _ _ ihInner ihRest =>
    obtain ⟨kept,plain⟩ := ihInner sound
    have yields := plain rfl
    obtain ⟨keptAfter,plainRest⟩ := ihRest (kept.keep ⟨_,tree,yields⟩)
    exact ⟨keptAfter,fun other => .answered tree yields (plainRest other)⟩

end Tables

namespace Session

def Sound (s : Session) : Prop := s.tables.Sound s.known

theorem start_sound (t : Tables) : (start t).Sound := Tables.sound_nil

theorem eval_run (s : Session) (e : Expr) :
    s.tables.Runs [] e.value s.known (s.eval e).1 (s.eval e).2.known :=
  Tables.run_runs s.tables [] e.value s.known

@[simp] theorem tables_evaluate (s : Session) (source : String) :
    (s.evaluate source).2.tables = s.tables := by
  unfold evaluate
  cases Expr.parse source <;> rfl

theorem evaluate_sound (s : Session) (source : String) (sound : s.Sound) :
    (s.evaluate source).2.Sound ∧
      (chain? (s.evaluate source).1 = none → s.tables.Evaluates source (s.evaluate source).1) := by
  unfold evaluate
  cases parsed : Expr.parse source with
  | error fault => exact ⟨sound,fun _ => .unreadable parsed⟩
  | ok e =>
    obtain ⟨kept,plain⟩ := (s.eval_run e).sound sound
    exact ⟨kept,fun other => .tree parsed (plain other)⟩

theorem expandSegments_literal (location text : String) (rest : List Segment) (s : Session) :
    expandSegments location (.literal text :: rest) s =
      ((expandSegments location rest s).1.map (text ++ ·),(expandSegments location rest s).2) := by
  rw [expandSegments]
  rcases expandSegments location rest s with ⟨_ | _,_⟩ <;> rfl

theorem expandSegments_failing {s : Session} (failed : s.evaluate source = (.error fault,s')) :
    expandSegments location (.expression source :: rest) s =
      (.error ⟨location,String.ofList (Template.braced source.toList),fault⟩,s') := by
  rw [expandSegments,failed]

theorem expandSegments_expression {s : Session} (found : s.evaluate source = (.ok value,s')) :
    expandSegments location (.expression source :: rest) s =
      ((expandSegments location rest s').1.map (value.result ++ ·),
        (expandSegments location rest s').2) := by
  rw [expandSegments,found]
  dsimp only
  rcases expandSegments location rest s' with ⟨_ | _,_⟩ <;> rfl

theorem expandSegments_sound (location : String) (segments : List Segment) (s : Session)
    (sound : s.Sound) :
    (expandSegments location segments s).2.tables = s.tables ∧
      (expandSegments location segments s).2.Sound ∧
        ((Answer.text (expandSegments location segments s).1).chain? = none →
          s.tables.Spells location segments (expandSegments location segments s).1) := by
  induction segments generalizing s with
  | nil => exact ⟨rfl,sound,fun _ => .nil⟩
  | cons segment rest ih =>
    cases segment with
    | literal text =>
      obtain ⟨same,kept,plain⟩ := ih s sound
      rw [expandSegments_literal]
      refine ⟨same,kept,fun other => .literal (plain ?_)⟩
      cases result : (expandSegments location rest s).1 <;>
        simp_all [Answer.chain?,Except.map]
    | expression source =>
      have same := tables_evaluate s source
      obtain ⟨kept,plain⟩ := evaluate_sound s source sound
      rcases evaluated : s.evaluate source with ⟨fault | value,s'⟩
      · rw [expandSegments_failing evaluated]
        rw [evaluated] at same kept plain
        exact ⟨same,kept,fun other => .failing (plain other)⟩
      · rw [expandSegments_expression evaluated]
        rw [evaluated] at same kept plain
        obtain ⟨sameAfter,keptAfter,plainAfter⟩ := ih s' kept
        refine ⟨sameAfter.trans same,keptAfter,fun other => ?_⟩
        rw [same] at plainAfter
        refine .expression (plain rfl) (plainAfter ?_)
        cases result : (expandSegments location rest s').1 <;>
          simp_all [Answer.chain?,Except.map]

theorem call_malformed (s : Session) (cut : Template.segments template = .error bad) :
    s.call (.expand location template) =
      (.text (.error ⟨location,bad.span,bad.fault⟩),s) := by
  simp only [call,expand,cut]

theorem call_segments (s : Session) (cut : Template.segments template = .ok segments) :
    s.call (.expand location template) =
      (.text (expandSegments location segments s).1,(expandSegments location segments s).2) := by
  simp only [call,expand,cut]

/-- A call keeps the tables and leaves only plain values known, also if it fails. -/
theorem call_sound (s : Session) (c : Call) (sound : s.Sound) :
    (s.call c).2.tables = s.tables ∧ (s.call c).2.Sound ∧
      ((s.call c).1.chain? = none → s.tables.Means c (s.call c).1) := by
  cases c with
  | evaluate source =>
    obtain ⟨kept,plain⟩ := evaluate_sound s source sound
    exact ⟨tables_evaluate s source,kept,fun other => .evaluate (plain other)⟩
  | expand location template =>
    cases cut : Template.segments template with
    | error bad =>
      rw [call_malformed s cut]
      exact ⟨rfl,sound,fun _ => .expand (.malformed cut)⟩
    | ok segments =>
      obtain ⟨same,kept,plain⟩ := expandSegments_sound location segments s sound
      rw [call_segments s cut]
      exact ⟨same,kept,fun other => .expand (.segments cut (plain other))⟩

theorem answers_sound (s : Session) (calls : List Call) (sound : s.Sound) :
    List.Forall₂ (fun c answer => answer.chain? = none → s.tables.Means c answer)
      calls (s.answers calls) := by
  induction calls generalizing s with
  | nil => exact .nil
  | cons c rest ih =>
    obtain ⟨same,kept,plain⟩ := call_sound s c sound
    have later := ih (s.call c).2 kept
    rw [same] at later
    exact .cons plain later

/-- In every sequence of calls, failing ones included, each answer that tells of no chain is the one
that plain evaluation gives. -/
theorem answers_eq_plain (t : Tables) (calls : List Call) :
    List.Forall₂ (fun c answer => answer.chain? = none → ∀ other, t.Means c other ↔ other = answer)
      calls ((start t).answers calls) := by
  refine (answers_sound (start t) calls (start_sound t)).imp fun c answer plain other result => ?_
  constructor
  · intro means
    exact means.unique (plain other)
  · rintro rfl
    exact plain other

end Session

end ThemeForge
