import Mathlib.Data.List.Nodup
import Mathlib.Logic.Relation
import ThemeForge.Proofs.Evaluation.Independence

/-!
# The entries that are being evaluated

The calls of a session one step at a time. What waits for a result is on a stack; the entries on it
are those that are being evaluated. Their labels are distinct at every moment, so there are never more
than the tables have entries, and each call comes to its end with nothing on the stack.
-/

namespace ThemeForge

inductive Task
  | serve (c : Call)
  | spell (location text : String) (segments : List Segment)
  | read (source : String)
  | run (q : Query Value)
  | give (result : Except Fault Value)
  | finish (answer : Answer)

def Task.evaluating : Except Fault Expr → Task
  | .error fault => .give (.error fault)
  | .ok e => .run e.value

/-- What waits for a result: an entry that was asked for, with what goes on then, or a template. -/
inductive Frame
  | entry (r : Reference) (next : Value → Query Value)
  | template (location text source : String) (rest : List Segment)

def Frame.entry? : Frame → Option Reference
  | .entry r _ => some r
  | .template .. => none

/-- The labels of the entries on a stack, the latest first. -/
def labelsOf (waiting : List Frame) : List String :=
  (waiting.filterMap Frame.entry?).map Reference.label

structure Moment where
  task : Task
  waiting : List Frame
  known : Known

/-- The entries that are being evaluated, the latest first. -/
def Moment.resolving (m : Moment) : List Reference := m.waiting.filterMap Frame.entry?

namespace Tables

def lookUp (t : Tables) (r : Reference) (next : Value → Query Value) (waiting : List Frame)
    (k : Known) : Moment :=
  match r.known? k, t.entry? r with
  | some value, _ => ⟨.run (next value),waiting,k⟩
  | none, none => ⟨.give (.error r.lost),waiting,k⟩
  | none, some raw =>
    if r.label ∈ labelsOf waiting then
      ⟨.give (.error (.circular (circle r.label (labelsOf waiting)))),waiting,k⟩
    else ⟨.read raw,.entry r next :: waiting,k⟩

def resume (result : Except Fault Value) (waiting : List Frame) (k : Known) : Moment :=
  match waiting, result with
  | [], result => ⟨.finish (.value result),[],k⟩
  | .entry r next :: waiting, .ok value => ⟨.run (next value),waiting,r.keep value k⟩
  | .entry r _ :: waiting, .error fault => ⟨.give (.error (r.within fault)),waiting,k⟩
  | .template location text _ rest :: waiting, .ok value =>
    ⟨.spell location (text ++ value.result) rest,waiting,k⟩
  | .template location _ source _ :: waiting, .error fault =>
    ⟨.finish (.text (.error ⟨location,String.ofList (Template.braced source.toList),fault⟩)),
      waiting,k⟩

/-- The next moment, unless the call is finished. -/
def step (t : Tables) (m : Moment) : Option Moment :=
  match m.task with
  | .serve (.evaluate source) => some { m with task := .read source }
  | .serve (.expand location template) =>
    match Template.segments template with
    | .error bad => some { m with task := .finish (.text (.error ⟨location,bad.span,bad.fault⟩)) }
    | .ok segments => some { m with task := .spell location "" segments }
  | .spell _ text [] => some { m with task := .finish (.text (.ok text)) }
  | .spell location text (.literal more :: rest) =>
    some { m with task := .spell location (text ++ more) rest }
  | .spell location text (.expression source :: rest) =>
    some ⟨.read source,.template location text source rest :: m.waiting,m.known⟩
  | .read source => some { m with task := .evaluating (Expr.parse source) }
  | .run (.done value) => some { m with task := .give (.ok value) }
  | .run (.fail fault) => some { m with task := .give (.error fault) }
  | .run (.ask r next) => some (t.lookUp r next m.waiting m.known)
  | .give result => some (resume result m.waiting m.known)
  | .finish _ => none

def Passes (t : Tables) : Moment → Moment → Prop :=
  Relation.ReflTransGen fun m m' => t.step m = some m'

/-- The moments of all sessions. A further call finds what the one before it has left. -/
inductive Occurs (t : Tables) : Moment → Prop
  | start : t.Occurs ⟨.serve c,[],[]⟩
  | step : t.Occurs m → t.step m = some m' → t.Occurs m'
  | next : t.Occurs ⟨.finish a,waiting,k⟩ → t.Occurs ⟨.serve c,waiting,k⟩

variable {t : Tables} {m m' : Moment} {r : Reference} {next : Value → Query Value}
  {waiting : List Frame} {k : Known}

structure Distinct (t : Tables) (entries : List Reference) : Prop where
  labels : (entries.map Reference.label).Nodup
  exist : ∀ r ∈ entries, (t.entry? r).isSome

theorem distinct_nil : t.Distinct [] := ⟨.nil,by simp⟩

theorem Distinct.length_le (distinct : t.Distinct entries) : entries.length ≤ t.labels.length := by
  have among : entries.map Reference.label ⊆ t.labels := by
    intro label member
    obtain ⟨r,being,rfl⟩ := List.mem_map.mp member
    obtain ⟨raw,found⟩ := Option.isSome_iff_exists.mp (distinct.exist r being)
    exact label_mem_labels found
  simpa using (distinct.labels.subperm among).length_le

theorem Distinct.tail (distinct : t.Distinct (r :: entries)) : t.Distinct entries :=
  ⟨distinct.labels.of_cons,fun s member => distinct.exist s (List.mem_cons_of_mem _ member)⟩

theorem Distinct.cons (distinct : t.Distinct entries) (entry : (t.entry? r).isSome)
    (new : r.label ∉ entries.map Reference.label) : t.Distinct (r :: entries) := by
  refine ⟨List.nodup_cons.mpr ⟨new,distinct.labels⟩,?_⟩
  intro s member
  rcases List.mem_cons.mp member with rfl | member
  · exact entry
  · exact distinct.exist s member

theorem step_read (parsed : Expr.parse source = result) :
    t.step ⟨.read source,waiting,k⟩ = some ⟨.evaluating result,waiting,k⟩ :=
  parsed ▸ rfl

theorem step_malformed (cut : Template.segments template = .error bad) :
    t.step ⟨.serve (.expand location template),waiting,k⟩ =
      some ⟨.finish (.text (.error ⟨location,bad.span,bad.fault⟩)),waiting,k⟩ := by
  simp only [step, cut]

theorem step_segments (cut : Template.segments template = .ok segments) :
    t.step ⟨.serve (.expand location template),waiting,k⟩ =
      some ⟨.spell location "" segments,waiting,k⟩ := by
  simp only [step, cut]

theorem lookUp_known (known : r.known? k = some v) :
    t.lookUp r next waiting k = ⟨.run (next v),waiting,k⟩ := by
  simp only [lookUp, known]

theorem lookUp_lost (unknown : r.known? k = none) (absent : t.entry? r = none) :
    t.lookUp r next waiting k = ⟨.give (.error r.lost),waiting,k⟩ := by
  simp only [lookUp, unknown, absent]

theorem lookUp_circular (unknown : r.known? k = none) (found : t.entry? r = some raw)
    (back : r.label ∈ labelsOf waiting) : t.lookUp r next waiting k =
      ⟨.give (.error (.circular (circle r.label (labelsOf waiting)))),waiting,k⟩ := by
  simp only [lookUp, unknown, found, if_pos back]

theorem lookUp_enter (unknown : r.known? k = none) (found : t.entry? r = some raw)
    (new : r.label ∉ labelsOf waiting) :
    t.lookUp r next waiting k = ⟨.read raw,.entry r next :: waiting,k⟩ := by
  simp only [lookUp, unknown, found, if_neg new]

/-- Looking an entry up leaves the stack as it is, or puts an entry on it that it does not hold. -/
theorem lookUp_waiting (t : Tables) (r : Reference) (next : Value → Query Value)
    (waiting : List Frame) (k : Known) :
    (t.lookUp r next waiting k).waiting = waiting ∨
      (t.lookUp r next waiting k).waiting = .entry r next :: waiting ∧ (t.entry? r).isSome ∧
        r.label ∉ labelsOf waiting := by
  cases known : r.known? k with
  | some value =>
    rw [lookUp_known known]
    exact .inl rfl
  | none =>
    cases found : t.entry? r with
    | none =>
      rw [lookUp_lost known found]
      exact .inl rfl
    | some raw =>
      by_cases back : r.label ∈ labelsOf waiting
      · rw [lookUp_circular known found back]
        exact .inl rfl
      · rw [lookUp_enter known found back]
        exact .inr ⟨rfl,rfl,back⟩

theorem resume_waiting (result : Except Fault Value) (waiting : List Frame) (k : Known) :
    (resume result waiting k).waiting = waiting.tail := by
  unfold resume
  split <;> rfl

theorem step_waiting (taken : t.step m = some m') :
    m'.waiting = m.waiting ∨ m'.waiting = m.waiting.tail ∨
      (∃ location text source rest, m'.waiting = .template location text source rest :: m.waiting) ∨
      ∃ r next, m'.waiting = .entry r next :: m.waiting ∧ (t.entry? r).isSome ∧
        r.label ∉ m.resolving.map Reference.label := by
  obtain ⟨task,waiting,k⟩ := m
  unfold step at taken
  cases task with
  | serve c =>
    cases c with
    | evaluate source =>
      cases taken
      exact .inl rfl
    | expand location template =>
      dsimp only at taken
      split at taken <;> cases taken <;> exact .inl rfl
  | spell location text segments =>
    rcases segments with _ | ⟨_ | source,rest⟩
    · cases taken
      exact .inl rfl
    · cases taken
      exact .inl rfl
    · cases taken
      exact .inr (.inr (.inl ⟨location,text,source,rest,rfl⟩))
  | read source =>
    cases taken
    exact .inl rfl
  | run q =>
    cases q with
    | done value =>
      cases taken
      exact .inl rfl
    | fail fault =>
      cases taken
      exact .inl rfl
    | ask r next =>
      cases taken
      rcases t.lookUp_waiting r next waiting k with same | put
      · exact .inl same
      · exact .inr (.inr (.inr ⟨r,next,put⟩))
  | give result =>
    cases taken
    exact .inr (.inl (resume_waiting result waiting k))
  | finish a => cases taken

theorem step_distinct (taken : t.step m = some m') (distinct : t.Distinct m.resolving) :
    t.Distinct m'.resolving := by
  unfold Moment.resolving at *
  rcases step_waiting taken with same | fewer | ⟨_,_,_,_,template⟩ | ⟨r,next,entry,exists_,new⟩
  · rwa [same]
  · rw [fewer]
    generalize m.waiting = waiting at distinct
    rcases waiting with _ | ⟨r | _,rest⟩
    · exact distinct
    · exact distinct.tail
    · exact distinct
  · rw [template]
    exact distinct
  · rw [entry]
    exact distinct.cons exists_ new

theorem Occurs.distinct (occurs : t.Occurs m) : t.Distinct m.resolving := by
  induction occurs with
  | start => exact distinct_nil
  | step _ taken ih => exact step_distinct taken ih
  | next _ ih => exact ih

theorem Passes.head (taken : t.step m = some m') (passes : t.Passes m' last) : t.Passes m last :=
  Relation.ReflTransGen.head taken passes

theorem Passes.eq (passes : t.Passes m m') (ended : t.step m = none) : m = m' := by
  rcases passes.cases_head with same | ⟨_,taken,_⟩
  · exact same
  · cases ended.symm.trans taken

/-- A moment that is passed on the way to the end of a call comes to that end. -/
theorem Passes.ends (passes : t.Passes m m') (whole : t.Passes m last) (ended : t.step last = none) :
    t.Passes m' last := by
  -- There is one next moment at most, so one of the two moments comes after the other.
  have functional : Relator.RightUnique fun m m' => t.step m = some m' :=
    fun _ _ _ taken taken' => Option.some.inj (taken.symm.trans taken')
  rcases Relation.ReflTransGen.total_of_right_unique functional passes whole with ends | beyond
  · exact ends
  · exact (Passes.eq beyond ended).symm ▸ .refl

theorem passes_entry (unknown : r.known? k = none) (tree : t.tree? r = some parsed)
    (new : r.label ∉ labelsOf waiting) : t.Passes ⟨.run (.ask r next),waiting,k⟩
      ⟨.evaluating parsed,.entry r next :: waiting,k⟩ := by
  obtain ⟨raw,found,rfl⟩ := Option.map_eq_some_iff.mp tree
  exact .head (congrArg some (lookUp_enter unknown found new)) (.head rfl .refl)

/-- What a run comes to, the steps come to, whatever waits for it. -/
theorem Runs.passes (run : t.Runs above q k result k')
    (resolving : waiting.filterMap Frame.entry? = above) :
    t.Passes ⟨.run q,waiting,k⟩ ⟨.give result,waiting,k'⟩ := by
  -- What is looked up runs with its own frame on the stack, so the stack varies in the induction.
  induction run generalizing waiting with
  | done | fail => exact .head rfl .refl
  | known known _ ih => exact .head (congrArg some (lookUp_known known)) (ih resolving)
  | lost unknown absent =>
    have absent := Option.map_eq_none_iff.mp absent
    exact .head (congrArg some (lookUp_lost unknown absent)) .refl
  | circular unknown tree back =>
    obtain ⟨raw,found,_⟩ := Option.map_eq_some_iff.mp tree
    subst resolving
    exact .head (congrArg some (lookUp_circular unknown found back)) .refl
  | unreadable unknown tree new =>
    subst resolving
    exact (passes_entry unknown tree new).trans (.head rfl .refl)
  | failing unknown tree new _ ih =>
    subst resolving
    refine (passes_entry unknown tree new).trans ?_
    exact (ih rfl).trans (.head rfl .refl)
  | answered unknown tree new _ _ ihInner ihRest =>
    subst resolving
    refine (passes_entry unknown tree new).trans ?_
    exact (ihInner rfl).trans (.head rfl (ihRest rfl))

end Tables

namespace Session

open Tables

variable {waiting : List Frame}

theorem evaluate_passes (s : Session) (source : String)
    (alone : waiting.filterMap Frame.entry? = []) :
    s.tables.Passes ⟨.read source,waiting,s.known⟩
      ⟨.give (s.evaluate source).1,waiting,(s.evaluate source).2.known⟩ := by
  cases parsed : Expr.parse source with
  | error fault =>
    have first : s.evaluate source = (.error fault,s) := by rw [evaluate, parsed]
    rw [first]
    exact .head (step_read parsed) .refl
  | ok e =>
    have first : s.evaluate source = s.eval e := by rw [evaluate, parsed]
    rw [first]
    exact .head (step_read parsed) ((s.eval_run e).passes alone)

theorem map_append_append (text more : String) (result : Except ExpansionFault String) :
    (result.map (more ++ ·)).map (text ++ ·) = result.map (text ++ more ++ ·) := by
  cases result with
  | error fault => rfl
  | ok rest => simp only [Except.map, String.append_assoc]

theorem expandSegments_passes (location text : String) (segments : List Segment) (s : Session) :
    s.tables.Passes ⟨.spell location text segments,[],s.known⟩
      ⟨.finish (.text ((expandSegments location segments s).1.map (text ++ ·))),[],
        (expandSegments location segments s).2.known⟩ := by
  induction segments generalizing s text with
  | nil =>
    have whole : text ++ "" = text := String.append_empty
    refine .head rfl ?_
    rw [expandSegments, Except.map, whole]
    exact .refl
  | cons segment rest ih =>
    cases segment with
    | literal more =>
      refine .head rfl ?_
      rw [expandSegments_literal, map_append_append]
      exact ih (text ++ more) s
    | expression source =>
      have alone : [Frame.template location text source rest].filterMap Frame.entry? = [] := rfl
      have value := s.evaluate_passes source alone
      have same := tables_evaluate s source
      refine .head rfl ?_
      rcases evaluated : s.evaluate source with ⟨fault | v,after⟩
      · rw [expandSegments_failing evaluated]
        rw [evaluated] at value
        exact value.trans (.head rfl .refl)
      · rw [expandSegments_expression evaluated]
        rw [evaluated] at value same
        refine value.trans (.head rfl ?_)
        rw [map_append_append]
        exact same ▸ ih (text ++ v.result) after

/-- The steps of a call come to its answer, with nothing left on the stack. -/
theorem call_passes (s : Session) (c : Call) :
    s.tables.Passes ⟨.serve c,[],s.known⟩ ⟨.finish (s.call c).1,[],(s.call c).2.known⟩ := by
  cases c with
  | evaluate source => exact .head rfl ((s.evaluate_passes source rfl).trans (.head rfl .refl))
  | expand location template =>
    cases cut : Template.segments template with
    | error bad =>
      rw [call_malformed s cut]
      exact .head (step_malformed cut) .refl
    | ok segments =>
      have expanded := expandSegments_passes location "" segments s
      have same : ∀ result : Except ExpansionFault String, result.map ("" ++ ·) = result := by
        rintro (_ | _) <;> simp [Except.map]
      rw [same] at expanded
      rw [call_segments s cut]
      exact .head (step_segments cut) expanded

theorem after_append (s : Session) (calls : List Call) (c : Call) :
    s.after (calls ++ [c]) = ((s.after calls).call c).2 := by
  induction calls generalizing s with
  | nil => rfl
  | cons first rest ih => exact ih _

theorem ends_of_passed {t : Tables} {m : Moment} (earlier : List Call) (c : Call)
    (passes : t.Passes ⟨.serve c,[],((start t).after earlier).known⟩ m) :
    t.Passes m ⟨.finish (((start t).after earlier).call c).1,[],
      (((start t).after earlier).call c).2.known⟩ := by
  obtain ⟨_,same⟩ := after_settled (start_settled t) earlier
  have whole := call_passes ((start t).after earlier) c
  rw [same] at whole
  exact passes.ends whole rfl

theorem passed_of_occurs {t : Tables} {m : Moment} (occurs : t.Occurs m) :
    ∃ earlier c, t.Passes ⟨.serve c,[],((start t).after earlier).known⟩ m := by
  induction occurs with
  | start => exact ⟨[],_,.refl⟩
  | step _ taken ih =>
    obtain ⟨earlier,c,passes⟩ := ih
    exact ⟨earlier,c,passes.tail taken⟩
  | @next a waiting k further _ ih =>
    obtain ⟨earlier,c,passes⟩ := ih
    cases (ends_of_passed earlier c passes).eq rfl
    refine ⟨earlier ++ [c],further,?_⟩
    rw [after_append]
    exact .refl

/-- Whatever the tables are, every moment of a session comes to the end of a call. At every moment
the entries that are being evaluated exist and have distinct labels, so there are no more of them
than the tables have, and where a call ends there are none. A call ends with the answer of the
session, which tells of a chain if the call has no plain answer. -/
theorem calls_end (t : Tables) :
    (∀ m, t.Occurs m →
      (m.resolving.map Reference.label).Nodup ∧ (∀ r ∈ m.resolving, (t.entry? r).isSome) ∧
        m.resolving.length ≤ t.labels.length ∧ (∀ a, m.task = .finish a → m.waiting = []) ∧
          ∃ a k, t.Passes m ⟨.finish a,[],k⟩) ∧
      ∀ earlier c, t.Passes ⟨.serve c,[],((start t).after earlier).known⟩
          ⟨.finish (((start t).after earlier).call c).1,[],
            (((start t).after earlier).call c).2.known⟩ ∧
        ((∀ a, ¬t.Means c a) →
          ∃ chain, (((start t).after earlier).call c).1.chain? = some chain) := by
  refine ⟨?_,?_⟩
  · intro m occurs
    obtain ⟨earlier,c,passes⟩ := passed_of_occurs occurs
    have ends := ends_of_passed earlier c passes
    have distinct := occurs.distinct
    refine ⟨distinct.labels,distinct.exist,distinct.length_le,?_,_,_,ends⟩
    intro a finished
    have ended : t.step m = none := by rw [step, finished]
    rw [ends.eq ended]
  · intro earlier c
    obtain ⟨settled,same⟩ := after_settled (start_settled t) earlier
    obtain ⟨_,_,plain⟩ := call_sound ((start t).after earlier) c settled.sound
    refine ⟨ends_of_passed earlier c .refl,?_⟩
    intro meaningless
    cases tells : (((start t).after earlier).call c).1.chain? with
    | some chain => exact ⟨chain,rfl⟩
    | none => exact absurd (same ▸ plain tells) (meaningless _)

def itself : Tables := ⟨⟨[("a",[("b","c('a.b')")])]⟩,⟨[]⟩⟩

theorem itself_tree? : itself.tree? ⟨.constant,"a.b"⟩ =
    some (.ok (.call .constant [.text "a.b"] [])) := by cbv

theorem itself_asks :
    Expr.value (.call .constant [.text "a.b"] []) = .ask ⟨.constant,"a.b"⟩ .done := rfl

theorem itself_recurs : itself.Recurs ⟨.constant,"a.b"⟩ :=
  ⟨_,itself_tree?,itself_asks ▸ .here⟩

theorem itself_meaningless (a : Answer) : ¬itself.Means (.evaluate "c('a.b')") a := by
  have parsed : Expr.parse "c('a.b')" = .ok (.call .constant [.text "a.b"] []) := by cbv
  rintro ⟨fails | ⟨parsed',yields⟩⟩
  · cases parsed.symm.trans fails
  · cases parsed.symm.trans parsed'
    rw [itself_asks] at yields
    exact yields.not_recurs .here itself_recurs

/-- The evaluation of such a constant ends, with a chain. -/
theorem itself_ends :
    itself.Occurs ⟨.serve (.evaluate "c('a.b')"),[],[]⟩ ∧
      (∃ a k, itself.Passes ⟨.serve (.evaluate "c('a.b')"),[],[]⟩ ⟨.finish a,[],k⟩) ∧
      ∃ chain, (((start itself).after []).call (.evaluate "c('a.b')")).1.chain? = some chain := by
  obtain ⟨moments,answers⟩ := calls_end itself
  obtain ⟨_,_,_,_,ends⟩ := moments ⟨.serve (.evaluate "c('a.b')"),[],[]⟩ .start
  exact ⟨.start,ends,(answers [] _).2 itself_meaningless⟩

end Session
end ThemeForge
