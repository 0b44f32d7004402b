import ThemeForge.Proofs.Evaluation.Plain

/-!
# Runs of a session

The evaluation of a query in a session as a relation with one rule for each way in which a reference
is answered. `run_runs` says that the session's evaluation is one, so that what holds of all runs is
proved once by induction on the rules.
-/

namespace ThemeForge

def Fault.chain? : Fault → Option (List String)
  | .circular chain => some chain
  | _ => none

def chain? : Except Fault Value → Option (List String)
  | .ok _ => none
  | .error fault => fault.chain?

@[simp] theorem Reference.within_circular (r : Reference) (chain : List String) :
    r.within (.circular chain) = .circular chain := by
  unfold within
  cases r.table <;> rfl

/-- The fault of an entry tells of the chain that the fault in its text tells of. -/
@[simp] theorem Reference.chain?_within (r : Reference) (fault : Fault) :
    (r.within fault).chain? = fault.chain? := by
  unfold within
  cases r.table <;> cases fault <;> rfl

/-- A constant is named around every fault but that of a chain. -/
theorem Reference.within_eq_wrapped (r : Reference) {fault : Fault} (other : fault.chain? = none) :
    r.within fault = r.wrapped fault := by
  unfold within wrapped
  cases r.table with
  | preset => rfl
  | constant =>
    cases fault
    case circular chain => simp [Fault.chain?] at other
    all_goals rfl

namespace Tables

/-- The run of a query while the entries `above`, the latest first, are being evaluated, from the
values that are known before to its result and the values that are known after. -/
inductive Runs (t : Tables) :
    List Reference → Query Value → Known → Except Fault Value → Known → Prop
  | done : t.Runs above (.done value) k (.ok value) k
  | fail : t.Runs above (.fail fault) k (.error fault) k
  | known : r.known? k = some value → t.Runs above (next value) k result k' →
      t.Runs above (.ask r next) k result k'
  | lost : r.known? k = none → t.tree? r = none → t.Runs above (.ask r next) k (.error r.lost) k
  | circular : r.known? k = none → t.tree? r = some tree →
      r.label ∈ above.map Reference.label →
      t.Runs above (.ask r next) k
        (.error (.circular (circle r.label (above.map Reference.label)))) k
  | unreadable : r.known? k = none → t.tree? r = some (.error fault) →
      r.label ∉ above.map Reference.label →
      t.Runs above (.ask r next) k (.error (r.within fault)) k
  | failing : r.known? k = none → t.tree? r = some (.ok e) →
      r.label ∉ above.map Reference.label → t.Runs (r :: above) e.value k (.error fault) k' →
      t.Runs above (.ask r next) k (.error (r.within fault)) k'
  | answered : r.known? k = none → t.tree? r = some (.ok e) →
      r.label ∉ above.map Reference.label → t.Runs (r :: above) e.value k (.ok value) k' →
      t.Runs above (next value) (r.keep value k') result k'' →
      t.Runs above (.ask r next) k result k''

/-- The evaluation of a session is a run. The outer induction is on the entries that are not yet
being evaluated, the inner one on the query. -/
theorem run_runs (t : Tables) (above : List Reference) (q : Query Value) (k : Known) :
    t.Runs above q k (q.run (t.answer (above.map Reference.label)) k).1
      (q.run (t.answer (above.map Reference.label)) k).2 := by
  induction left : t.unvisited (above.map Reference.label) using Nat.strongRecOn
    generalizing above q k with
  | ind left fewer =>
    subst left
    induction q generalizing k with
    | done value => exact .done
    | fail fault => exact .fail
    | ask r next ih =>
      rw [Query.run, answer_eq]
      cases known : r.known? k with
      | some value => exact .known known (ih value k)
      | none =>
        by_cases unsplit : (splitName? r.name).isNone
        · have absent : t.tree? r = none := by
            simp [tree?, entry?, Option.isNone_iff_eq_none.1 unsplit]
          have run : t.Runs above (.ask r next) k (.error r.lost) k := .lost known absent
          rw [Reference.lost, if_pos unsplit] at run
          simpa only [if_pos unsplit] using run
        simp only [if_neg unsplit]
        cases found : t.entry? r with
        | none =>
          have absent : t.tree? r = none := by simp [tree?, found]
          have run : t.Runs above (.ask r next) k (.error r.lost) k := .lost known absent
          rwa [Reference.lost, if_neg unsplit] at run
        | some raw =>
          have tree : t.tree? r = some (Expr.parse raw) := by simp [tree?, found]
          by_cases back : r.label ∈ above.map Reference.label
          · simp only [if_pos back, Reference.within_circular]
            exact .circular known tree back
          simp only [if_neg back]
          have smaller := unvisited_cons_lt (label_mem_labels found) back
          cases parsed : Expr.parse raw with
          | error fault => exact .unreadable known (parsed ▸ tree) back
          | ok e =>
            have inner := fewer _ smaller (r :: above) e.value k rfl
            rw [List.map_cons] at inner
            dsimp only
            generalize e.value.run (t.answer (r.label :: above.map Reference.label)) k = outcome
              at inner
            obtain ⟨result,k'⟩ := outcome
            cases result with
            | error fault => exact .failing known (parsed ▸ tree) back inner
            | ok value => exact .answered known (parsed ▸ tree) back inner (ih value _)

end Tables

end ThemeForge
