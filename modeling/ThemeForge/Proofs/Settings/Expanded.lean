import ThemeForge.Proofs.Evaluation.Sessions
import ThemeForge.Proofs.Settings.Compiled
import Mathlib

/-!
# Changing values in order

Settings are a list of values, section by section. Each value is changed at the state that the changes
before it leave, up to the first one that fails: what comes before is changed, and that value and all
behind it are as they were. So it is for settings that a session expands.
-/

namespace ThemeForge

namespace Settings

structure Entry where
  sectionName : String
  key : String
  value : String
  deriving DecidableEq, Repr

def entriesOf (name : String) (keys : List (String × String)) : List Entry :=
  keys.map fun (key,value) => ⟨name,key,value⟩

def entries (s : Settings) : List Entry :=
  s.sections.flatMap fun (name,keys) => entriesOf name keys

variable {σ ε : Type}

/-- Every value of a list is changed, each at the state that the one before it leaves. -/
inductive Changes (change : String → String → String → σ → Except ε String × σ) :
    σ → List Entry → List Entry → σ → Prop
  | nil : Changes change state [] [] state
  | cons : change entry.sectionName entry.key entry.value state = (.ok value,state₁) →
      Changes change state₁ rest rest' state' →
      Changes change state (entry :: rest) ({ entry with value } :: rest') state'

/-- The values before number `n` can be changed, and that one cannot. -/
def StopsAt (change : String → String → String → σ → Except ε String × σ) (state : σ)
    (all : List Entry) (n : Nat) : Prop :=
  ∃ entry changed state₁ e state', all[n]? = some entry ∧
    Changes change state (all.take n) changed state₁ ∧
    change entry.sectionName entry.key entry.value state₁ = (.error e,state')

/-- What changing the values of a list ends with: all are changed, or one of them could not be and is
as it was, with all behind it. -/
inductive Ends (change : String → String → String → σ → Except ε String × σ) :
    σ → List Entry → List Entry → Option ε → σ → Prop
  | all : Changes change state front changed state' → Ends change state front changed none state'
  | stopped : Changes change state front changed state₁ →
      change entry.sectionName entry.key entry.value state₁ = (.error e,state') →
      Ends change state (front ++ entry :: rest) (changed ++ entry :: rest) (some e) state'

variable {change : String → String → String → σ → Except ε String × σ} {state state' state₁ : σ}
  {front changed rest rest' : List Entry} {fault : Option ε} {e : ε}

theorem Changes.append (first : Changes change state front changed state₁)
    (later : Changes change state₁ rest rest' state') :
    Changes change state (front ++ rest) (changed ++ rest') state' := by
  induction first with
  | nil => exact later
  | cons done _ ih => exact .cons done (ih later)

theorem Ends.changes (ends : Ends change state front changed none state') :
    Changes change state front changed state' := by
  cases ends with
  | all changes => exact changes

/-- Values that are changed first come before those at which it ends. -/
theorem Ends.behind (first : Changes change state front changed state₁)
    (later : Ends change state₁ rest rest' fault state') :
    Ends change state (front ++ rest) (changed ++ rest') fault state' := by
  cases later with
  | all more => exact .all (first.append more)
  | stopped more failed =>
    rw [← List.append_assoc, ← List.append_assoc]
    exact .stopped (first.append more) failed

/-- Values behind one that could not be changed stay. -/
theorem Ends.before (stopped : Ends change state front changed (some e) state') (rest : List Entry) :
    Ends change state (front ++ rest) (changed ++ rest) (some e) state' := by
  cases stopped with
  | stopped first failed =>
    rw [List.append_assoc, List.append_assoc]
    exact .stopped first failed

variable (change) in
theorem mapKeys_ends (name : String) (keys : List (String × String)) (state : σ) :
    Ends change state (entriesOf name keys) (entriesOf name (mapKeys (change name) keys state).1)
      (mapKeys (change name) keys state).2.1 (mapKeys (change name) keys state).2.2 := by
  induction keys generalizing state with
  | nil => exact .all .nil
  | cons option rest ih =>
    obtain ⟨key,value⟩ := option
    rw [mapKeys]
    rcases done : change name key value state with ⟨e | text,state₁⟩
    · have stopped : Ends change state ([] ++ ⟨name,key,value⟩ :: entriesOf name rest)
          ([] ++ ⟨name,key,value⟩ :: entriesOf name rest) (some e) state₁ := .stopped .nil done
      exact stopped
    · have first : Changes change state [⟨name,key,value⟩] [⟨name,key,text⟩] state₁ := .cons done .nil
      exact (ih state₁).behind first

variable (change) in
theorem mapSections_ends (sections : List (String × List (String × String))) (state : σ) :
    Ends change state (entries ⟨sections⟩) (entries ⟨(mapSections change sections state).1⟩)
      (mapSections change sections state).2.1 (mapSections change sections state).2.2 := by
  induction sections generalizing state with
  | nil => exact .all .nil
  | cons section_ rest ih =>
    obtain ⟨name,keys⟩ := section_
    have here := mapKeys_ends change name keys state
    rw [mapSections]
    rcases done : mapKeys (change name) keys state with ⟨changed,e | _,state₁⟩
    · rw [done] at here
      exact (ih state₁).behind here.changes
    · rw [done] at here
      exact here.before (entries ⟨rest⟩)

variable (change) in
theorem mapValues_ends (s : Settings) (state : σ) :
    Ends change state s.entries (s.mapValues change state).1.entries (s.mapValues change state).2.1
      (s.mapValues change state).2.2 := mapSections_ends change s.sections state

/-- At most one value is the first that cannot be changed. -/
theorem StopsAt.unique {all : List Entry} {m n : Nat} (first : StopsAt change state all m)
    (second : StopsAt change state all n) : m = n := by
  induction all generalizing state m n with
  | nil =>
    obtain ⟨_,_,_,_,_,absent,_⟩ := first
    cases absent
  | cons entry all ih =>
    obtain ⟨_,_,_,_,_,here,before,failed⟩ := first
    obtain ⟨_,_,_,_,_,here',before',failed'⟩ := second
    cases m with
    | zero =>
      cases n with
      | zero => rfl
      | succ n =>
        cases here
        cases before
        cases before' with
        | cons done _ => cases failed.symm.trans done
    | succ m =>
      cases n with
      | zero =>
        cases here'
        cases before'
        cases before with
        | cons done _ => cases failed'.symm.trans done
      | succ n =>
        cases before with
        | cons done more =>
          cases before' with
          | cons done' more' =>
            cases done.symm.trans done'
            exact congrArg Nat.succ
              (ih ⟨_,_,_,_,_,here,more,failed⟩ ⟨_,_,_,_,_,here',more',failed'⟩)

/-- Where changing values ends with a failure, that is the one of a certain value. -/
theorem Ends.exists_stopsAt {all after : List Entry}
    (ends : Ends change state all after (some e) state') :
    ∃ n entry changed state₁, all[n]? = some entry ∧
      Changes change state (all.take n) changed state₁ ∧
      change entry.sectionName entry.key entry.value state₁ = (.error e,state') ∧
      after = changed ++ all.drop n := by
  cases ends with
  | @stopped front changed state₁ _ _ entry rest first failed =>
    refine ⟨front.length,entry,changed,state₁,?_,?_,failed,?_⟩
    · simp
    · rwa [List.take_left]
    · rw [List.drop_left]

end Settings

namespace Session

def expandValue (section_ key value : String) (s : Session) :
    Except ExpansionFault String × Session := s.expand (section_ ++ "." ++ key) value

theorem expandSettings_eq (s : Session) (settings : Settings) :
    s.expandSettings settings = settings.mapValues expandValue s := rfl

theorem expandSegments_location (location : String) (segments : List Segment) (s : Session)
    (failed : (expandSegments location segments s).1 = .error fault) : fault.location = location := by
  induction segments generalizing s with
  | nil => cases failed
  | cons segment rest ih =>
    cases segment with
    | literal text =>
      rw [expandSegments_literal] at failed
      cases more : (expandSegments location rest s).1 with
      | ok text =>
        rw [more] at failed
        cases failed
      | error other =>
        rw [more] at failed
        cases failed
        exact ih s more
    | expression source =>
      rcases evaluated : s.evaluate source with ⟨reason | value,s'⟩
      · rw [expandSegments_failing evaluated] at failed
        cases failed
        rfl
      · rw [expandSegments_expression evaluated] at failed
        cases more : (expandSegments location rest s').1 with
        | ok text =>
          rw [more] at failed
          cases failed
        | error other =>
          rw [more] at failed
          cases failed
          exact ih s' more

theorem expand_location {s : Session} (failed : (s.expand location template).1 = .error fault) :
    fault.location = location := by
  rw [expand] at failed
  cases cut : Template.segments template with
  | error bad =>
    rw [cut] at failed
    cases failed
    rfl
  | ok segments =>
    rw [cut] at failed
    exact expandSegments_location location segments s failed

/-- Expanding settings keeps all sections and keys in their order. If it succeeds, every value is the
expansion of the one in its place, one after another in one session. Otherwise there is exactly one
first value whose expansion fails. The fault is the one of that expansion, at its section and key;
values before it are expanded, and it and those behind it are as they were. -/
theorem expandSettings_pointwise {s s' : Session} {settings after : Settings}
    {fault : Option ExpansionFault} (done : s.expandSettings settings = (after,fault,s')) :
    after.outline = settings.outline ∧
      (fault = none → Settings.Changes expandValue s settings.entries after.entries s') ∧
      ∀ f, fault = some f → ∃ n entry changed s₁, settings.entries[n]? = some entry ∧
        Settings.Changes expandValue s (settings.entries.take n) changed s₁ ∧
        s₁.expand (entry.sectionName ++ "." ++ entry.key) entry.value = (.error f,s') ∧
        f.location = entry.sectionName ++ "." ++ entry.key ∧
        after.entries = changed ++ settings.entries.drop n ∧
        ∀ m, Settings.StopsAt expandValue s settings.entries m → m = n := by
  have outline := Settings.outline_mapValues expandValue settings s
  have ends := Settings.mapValues_ends expandValue settings s
  rw [expandSettings_eq] at done
  rw [done] at outline ends
  refine ⟨outline,?_,?_⟩
  · rintro rfl
    exact ends.changes
  · rintro f rfl
    obtain ⟨n,entry,changed,s₁,here,before,failed,rest⟩ := ends.exists_stopsAt
    refine ⟨n,entry,changed,s₁,here,before,failed,?_,rest,?_⟩
    · exact expand_location (s := s₁) (congrArg Prod.fst failed)
    · exact fun m stops => stops.unique ⟨entry,changed,s₁,f,s',here,before,failed⟩

/-- A sum is expanded. With an empty expression behind it, that one is the first that fails. -/
theorem expandSettings_sum :
    let s := start ⟨.empty,.empty⟩
    let sum := "\x7b\x7b1+2\x7d\x7d"
    let empty := "\x7b\x7b\x7d\x7d"
    (s.expandSettings ⟨[("S",[("a",sum)])]⟩ = (⟨[("S",[("a","3")])]⟩,none,s) ∧
      Settings.Changes expandValue s [⟨"S","a",sum⟩] [⟨"S","a","3"⟩] s) ∧
    s.expandSettings ⟨[("S",[("a",sum),("b",empty)]),("T",[("a",sum)])]⟩ =
      (⟨[("S",[("a","3"),("b",empty)]),("T",[("a",sum)])]⟩,
        some ⟨"S.b",empty,.emptySpan⟩,s) ∧
    ∃ n, ∀ m, Settings.StopsAt expandValue s
      [⟨"S","a",sum⟩,⟨"S","b",empty⟩,⟨"T","a",sum⟩] m ↔ m = n := by
  intro s sum empty
  have done : s.expandSettings ⟨[("S",[("a",sum)])]⟩ = (⟨[("S",[("a","3")])]⟩,none,s) := by cbv
  have fails : s.expandSettings ⟨[("S",[("a",sum),("b",empty)]),("T",[("a",sum)])]⟩ =
      (⟨[("S",[("a","3"),("b",empty)]),("T",[("a",sum)])]⟩,
        some ⟨"S.b",empty,.emptySpan⟩,s) := by cbv
  obtain ⟨n,entry,changed,s₁,here,before,failed,_,_,first⟩ :=
    (expandSettings_pointwise fails).2.2 _ rfl
  refine ⟨⟨done,(expandSettings_pointwise done).2.1 rfl⟩,fails,n,fun m => ⟨first m,?_⟩⟩
  rintro rfl
  exact ⟨entry,changed,s₁,_,s,here,before,failed⟩

end Session

end ThemeForge
