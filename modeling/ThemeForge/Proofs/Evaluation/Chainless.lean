import ThemeForge.Proofs.Evaluation.Run
import ThemeForge.Proofs.Results

/-!
# Faults of no chain

Neither reading an expression nor its own operations say that a chain closes, and so no plain result
does. Only a session says so, of a reference that it looks up.
-/

namespace ThemeForge

def Chainless (result : Except Fault α) : Prop := ∀ fault, result = .error fault → fault.chain? = none

namespace Chainless

variable {first : Except Fault α}

theorem ok (a : α) : Chainless (.ok a) := by
  rintro fault same
  cases same

theorem error (other : fault.chain? = none) : Chainless (.error fault : Except Fault α) := by
  rintro fault same
  cases same
  exact other

theorem bind {next : α → Except Fault β} (chainless : Chainless first)
    (rest : ∀ a, Chainless (next a)) : Chainless (first >>= next) := by
  cases first with
  | error fault =>
    rintro other same
    cases same
    exact chainless fault rfl
  | ok a => exact rest a

theorem map (f : α → β) (chainless : Chainless first) : Chainless (first.map f) := by
  cases first with
  | error fault =>
    rintro other same
    cases same
    exact chainless fault rfl
  | ok a => exact ok _

end Chainless

namespace Token

theorem first_chainless (total : Nat) (c : Char) (cs : List Char) :
    Chainless (first total c cs) := by
  unfold first
  repeat' split
  all_goals first | exact .ok _ | exact .error rfl

theorem scanFrom_chainless (total : Nat) (cs : List Char) : Chainless (scanFrom total cs) := by
  induction cs using scanFrom.induct total with
  | case1 =>
    rw [scanFrom]
    exact .ok _
  | case2 c cs blank ih =>
    rwa [scanFrom_cons, if_pos blank]
  | case3 c cs shown fault fails =>
    have chainless := first_chainless total c cs
    rw [scanFrom_cons, if_neg shown]
    rw [fails]
    exact .error (chainless fault fails)
  | case4 c cs shown token rest found _ ih =>
    rw [scanFrom_cons, if_neg shown, found]
    exact ih.map _

end Token

namespace Expr

theorem deeper_chainless (depth : Nat) : Chainless (deeper depth) := by
  unfold deeper
  split <;> first | exact .ok _ | exact .error rfl

theorem unexpected_chainless (expected : Expectation) (tokens : List Token) :
    Chainless (.error (unexpected expected tokens) : Except Fault α) := .error rfl

-- One lemma for each reader, by the recursion of the readers.
mutual

theorem sum_chainless (depth : Nat) (tokens : List Token) : Chainless (sum depth tokens) := by
  rw [sum]
  refine (product_chainless depth tokens).bind fun left => ?_
  have shorter := left.shorter
  exact (moreTerms_chainless depth left.value left.rest).bind fun whole => .ok _
termination_by (tokens.length,3)

theorem moreTerms_chainless (depth : Nat) (left : Expr) (tokens : List Token) :
    Chainless (moreTerms depth left tokens) := by
  match tokens with
  | [] =>
    rw [moreTerms]
    exact .ok _
  | token :: tokens =>
    rw [moreTerms]
    cases sumOperator? token with
    | none => exact .ok _
    | some operator =>
      refine (deeper_chainless depth).bind fun depth => ?_
      refine (product_chainless depth tokens).bind fun right => ?_
      have shorter := right.shorter
      exact (moreTerms_chainless depth _ right.rest).bind fun whole => .ok _
termination_by (tokens.length,0)

theorem product_chainless (depth : Nat) (tokens : List Token) :
    Chainless (product depth tokens) := by
  rw [product]
  refine (signed_chainless depth tokens).bind fun left => ?_
  have shorter := left.shorter
  exact (moreFactors_chainless depth left.value left.rest).bind fun whole => .ok _
termination_by (tokens.length,2)

theorem moreFactors_chainless (depth : Nat) (left : Expr) (tokens : List Token) :
    Chainless (moreFactors depth left tokens) := by
  match tokens with
  | [] =>
    rw [moreFactors]
    exact .ok _
  | token :: tokens =>
    rw [moreFactors]
    cases productOperator? token with
    | none => exact .ok _
    | some operator =>
      refine (deeper_chainless depth).bind fun depth => ?_
      refine (signed_chainless depth tokens).bind fun right => ?_
      have shorter := right.shorter
      exact (moreFactors_chainless depth _ right.rest).bind fun whole => .ok _
termination_by (tokens.length,0)

theorem signed_chainless (depth : Nat) (tokens : List Token) : Chainless (signed depth tokens) := by
  match tokens with
  | [] =>
    rw [signed]
    exact (deeper_chainless depth).bind fun _ => unexpected_chainless _ _
  | token :: tokens =>
    rw [signed]
    refine (deeper_chainless depth).bind fun depth => ?_
    cases sign? token with
    | none => exact primary_chainless depth token tokens
    | some sign => exact (signed_chainless depth tokens).bind fun operand => .ok _
termination_by (tokens.length,1)

theorem primary_chainless (depth : Nat) (token : Token) (tokens : List Token) :
    Chainless (primary depth token tokens) := by
  cases token with
  | int | float | text =>
    rw [primary]
    exact .ok _
  | leftParen =>
    rw [primary]
    refine (sum_chainless depth tokens).bind fun inner => ?_
    split
    · exact .ok _
    · exact unexpected_chainless _ _
  | name name =>
    unfold primary
    dsimp only
    split
    · next tokens =>
      cases Function.named? name with
      | none => exact .error rfl
      | some function => exact (arguments_chainless depth false tokens).bind fun inside => .ok _
    · exact .ok _
  | plus | minus | star | slash | rightParen | comma | assign =>
    simp only [primary]
    exact unexpected_chainless _ _
termination_by (tokens.length + 1,0)

theorem arguments_chainless (depth : Nat) (keyed : Bool) (tokens : List Token) :
    Chainless (arguments depth keyed tokens) := by
  unfold arguments
  split
  · exact .ok _
  · next name after =>
    refine (sum_chainless depth after).bind fun argument => ?_
    have shorter := argument.shorter
    exact (moreArguments_chainless depth true argument.rest).bind fun more => .ok _
  · cases keyed with
    | true => exact unexpected_chainless _ _
    | false =>
      refine (sum_chainless depth tokens).bind fun argument => ?_
      have shorter := argument.shorter
      exact (moreArguments_chainless depth false argument.rest).bind fun more => .ok _
termination_by (tokens.length,4)
decreasing_by all_goals subst_vars; decreasing_tactic

theorem moreArguments_chainless (depth : Nat) (keyed : Bool) (tokens : List Token) :
    Chainless (moreArguments depth keyed tokens) := by
  unfold moreArguments
  split
  · next rest => exact (arguments_chainless depth keyed rest).bind fun more => .ok _
  · exact .ok _
  · exact unexpected_chainless _ _
termination_by (tokens.length,5)

end

theorem parse_chainless (source : String) : Chainless (parse source) := by
  refine (Token.scanFrom_chainless _ _).bind fun tokens => ?_
  refine (sum_chainless 0 tokens).bind fun whole => ?_
  split
  · exact .ok _
  · exact .error rfl

end Expr

/-- A query does not end by itself in the fault of a chain, whatever it is answered with. -/
inductive Query.Chainless {α : Type} : Query α → Prop
  | done : Query.Chainless (.done a)
  | fail : fault.chain? = none → Query.Chainless (.fail fault)
  | ask : (∀ value, Query.Chainless (next value)) → Query.Chainless (.ask r next)

namespace Query.Chainless

theorem bind {q : Query α} {next : α → Query β} (chainless : q.Chainless)
    (rest : ∀ a, (next a).Chainless) : (q >>= next).Chainless := by
  induction chainless with
  | done => exact rest _
  | fail other => exact .fail other
  | ask _ ih => exact .ask ih

theorem ofExcept {result : Except Fault α} (chainless : ThemeForge.Chainless result) :
    (Query.ofExcept result).Chainless := by
  cases result with
  | ok a => exact .done
  | error fault => exact .fail (chainless fault rfl)

theorem mapM {f : α → Query β} {as : List α} (each : ∀ a ∈ as, (f a).Chainless) :
    (as.mapM f).Chainless := by
  induction as with
  | nil => exact .done
  | cons a rest ih =>
    rw [List.mapM_cons]
    refine (each a (List.mem_cons_self ..)).bind fun b => ?_
    exact (ih fun a later => each a (List.mem_cons_of_mem _ later)).bind fun bs => .done

end Query.Chainless

theorem Value.whole_chainless (i : Int) : Chainless (Value.whole i) := by
  unfold Value.whole
  split <;> first | exact .ok _ | exact .error rfl

theorem Sign.apply_chainless (sign : Sign) (value : Value) : Chainless (sign.apply value) := by
  unfold Sign.apply
  repeat' split
  · exact .ok _
  · exact Value.whole_chainless _
  all_goals first | exact .ok _ | exact .error rfl

namespace Operator

theorem floats_chainless (a b : Float) (operator : Operator) : Chainless (operator.floats a b) := by
  unfold floats
  repeat' split
  all_goals first | exact .ok _ | exact .error rfl

theorem wholes_chainless (a b : Int64) (operator : Operator) :
    Chainless (operator.wholes a b) := by
  cases operator with
  | add | sub | mul => exact Value.whole_chainless _
  | div =>
    rw [wholes]
    split
    · exact .error rfl
    · split
      · exact Value.whole_chainless _
      · exact floats_chainless _ _ _

theorem apply_chainless (operator : Operator) (left right : Value) :
    Chainless (operator.apply left right) := by
  unfold apply
  split
  · exact wholes_chainless _ _ _
  · split <;> first | exact .ok _ | exact .error rfl
  · split
    · exact floats_chainless _ _ _
    · exact .error rfl

end Operator

namespace Packing

variable (function : Function)

theorem byte_chainless (value : Int64) : Chainless (byte function value) := by
  unfold byte
  split <;> first | exact .ok _ | exact .error rfl

theorem natural_chainless (value : Int64) : Chainless (natural function value) := by
  unfold natural
  split <;> first | exact .ok _ | exact .error rfl

theorem colour_chainless (r g b : Int64) : Chainless (colour r g b) :=
  (byte_chainless _ b).bind fun _ => (byte_chainless _ g).bind fun _ =>
    (byte_chainless _ r).bind fun _ => .ok _

theorem alphaColour_chainless (r g b a : Int64) : Chainless (alphaColour r g b a) :=
  (byte_chainless _ r).bind fun _ => (byte_chainless _ g).bind fun _ =>
    (byte_chainless _ b).bind fun _ => (byte_chainless _ a).bind fun _ => .ok _

theorem appendBytes_chainless (value : Int64) (bytes : List Int64) :
    Chainless (appendBytes value bytes) := by
  induction bytes generalizing value with
  | nil => exact .ok _
  | cons b bytes ih =>
    refine (byte_chainless _ b).bind fun b => ?_
    split
    · exact ih _
    · exact .error rfl

theorem listing_chainless (value : Int64) : Chainless (listing value) :=
  (natural_chainless _ value).bind fun _ => .ok _

theorem appendReversed_chainless (value : Int64) (n : Nat) : Chainless (appendReversed value n) := by
  induction value, n using appendReversed.induct with
  | case1 value =>
    rw [appendReversed_zero]
    exact .ok _
  | case2 value n nonzero next fits ih =>
    rw [appendReversed_some nonzero fits]
    exact ih
  | case3 value n nonzero outside =>
    rw [appendReversed_none nonzero outside]
    exact .error rfl

theorem reversed_chainless (value : Int64) : Chainless (reversed value) :=
  (natural_chainless _ value).bind fun n => (appendReversed_chainless 0 n).bind fun _ => .ok _

theorem blend_chainless (mode : String) (fraction : Float) : Chainless (blend mode fraction) := by
  unfold blend
  repeat' split
  all_goals first | exact .ok _ | exact .error rfl

end Packing

namespace Binding

variable {function : Function} {parameters : List String} {slots filled : List (Option α)}
  {P : α → Prop}

def Holding (P : α → Prop) (slots : List (Option α)) : Prop := ∀ a, some a ∈ slots → P a

theorem positional_holding (count : Nat) {arguments : List α} (each : ∀ a ∈ arguments, P a) :
    Holding P (positional count arguments) := by
  induction count generalizing arguments with
  | zero => exact nofun
  | succ count ih =>
    cases arguments with
    | nil =>
      intro a member
      cases member with
      | tail _ later => exact ih each a later
    | cons b arguments =>
      intro a member
      cases member with
      | head => exact each _ (List.mem_cons_self ..)
      | tail _ later => exact ih (fun a later => each a (List.mem_cons_of_mem _ later)) a later

theorem keyword_holding {argument : α} (holding : Holding P slots) (has : P argument)
    (put : keyword function parameters slots name argument = .ok filled) : Holding P filled := by
  unfold keyword at put
  split at put
  · cases put
  · split at put
    · cases put
      intro a member
      rcases List.mem_or_eq_of_mem_set member with old | new
      · exact holding a old
      · cases new
        exact has
    · cases put

theorem keyword_chainless (argument : α) :
    Chainless (keyword function parameters slots name argument) := by
  unfold keyword
  repeat' split
  all_goals first | exact .ok _ | exact .error rfl

theorem keywords_holding {named : List (String × α)} (holding : Holding P slots)
    (each : ∀ entry ∈ named, P entry.2)
    (put : keywords function parameters slots named = .ok filled) : Holding P filled := by
  induction named generalizing slots with
  | nil =>
    cases put
    exact holding
  | cons entry named ih =>
    obtain ⟨next,first,rest⟩ := bind_ok_iff.mp put
    have has := each entry (List.mem_cons_self ..)
    exact ih (keyword_holding holding has first)
      (fun entry later => each entry (List.mem_cons_of_mem _ later)) rest

theorem keywords_chainless (slots : List (Option α)) (named : List (String × α)) :
    Chainless (keywords function parameters slots named) := by
  induction named generalizing slots with
  | nil => exact .ok _
  | cons entry named ih => exact (keyword_chainless entry.2).bind ih

theorem bind_chainless (arguments : List α) (named : List (String × α)) :
    Chainless (bind function parameters arguments named) := by
  unfold bind
  split
  · exact .error rfl
  · refine (keywords_chainless _ named).bind fun slots => ?_
    split
    · exact .ok _
    · exact .error rfl

theorem bind_holding {arguments : List α} {named : List (String × α)}
    (each : ∀ a ∈ arguments, P a) (eachNamed : ∀ entry ∈ named, P entry.2)
    (bound : bind function parameters arguments named = .ok filled) : Holding P filled := by
  unfold bind at bound
  split at bound
  · cases bound
  · obtain ⟨slots,put,checked⟩ := bind_ok_iff.mp bound
    split at checked
    · cases checked
      exact keywords_holding (positional_holding _ each) eachNamed put
    · cases checked

end Binding

/-- Neither the value nor the text of an operand ends by itself in the fault of a chain. -/
structure Operand.Chainless (operand : Operand) : Prop where
  value : operand.value.Chainless
  text : operand.text.Chainless

theorem Operand.Chainless.int (function : Function) {operand : Operand}
    (chainless : operand.Chainless) : (operand.int function).Chainless := by
  refine chainless.value.bind fun value => ?_
  cases value with
  | int => exact .done
  | float | text => exact .fail rfl

theorem Operand.Chainless.number (function : Function) {operand : Operand}
    (chainless : operand.Chainless) : (operand.number function).Chainless := by
  refine chainless.value.bind fun value => ?_
  cases value.float? with
  | some => exact .done
  | none => exact .fail rfl

namespace Function

open Query.Chainless

variable (function : Function) {arguments : List Operand} {named : List (String × Operand)}
  (each : ∀ operand ∈ arguments, operand.Chainless)
  (eachNamed : ∀ entry ∈ named, entry.2.Chainless)

include each eachNamed

theorem slots_bind_chainless {next : List (Option Operand) → Query β}
    (rest : ∀ slots, Binding.Holding Operand.Chainless slots → (next slots).Chainless) :
    (function.slots arguments named >>= next).Chainless := by
  unfold slots
  cases bound : Binding.bind function (function.parameters?.getD []) arguments named with
  | error fault => exact .fail (Binding.bind_chainless arguments named fault bound)
  | ok slots => exact rest slots (Binding.bind_holding each eachNamed bound)

theorem integers_chainless : (function.integers arguments named).Chainless := by
  refine slots_bind_chainless function each eachNamed fun slots holding => mapM fun operand => ?_
  intro member
  have bound : some operand ∈ slots := by simpa using member
  exact (holding operand bound).int function

theorem texts_chainless : (function.texts arguments named).Chainless := by
  refine slots_bind_chainless function each eachNamed fun slots holding => mapM fun slot => ?_
  intro member
  cases slot with
  | none => exact .done
  | some operand => exact (holding operand member).text.bind fun text => .done

omit each eachNamed in
theorem packed_chainless {number : Except Fault Int} (chainless : ThemeForge.Chainless number) :
    (packed number).Chainless :=
  (ofExcept chainless).bind fun i => ofExcept (Value.whole_chainless i)

theorem apply_chainless : (function.apply arguments named).Chainless := by
  have integers := integers_chainless function each eachNamed
  cases function with
  | rgb =>
    refine integers.bind fun values => ?_
    split
    · exact packed_chainless (Packing.colour_chainless _ _ _)
    · exact .fail rfl
  | nrgb =>
    refine integers.bind fun values => ?_
    split
    · exact packed_chainless ((Packing.colour_chainless _ _ _).map _)
    · exact .fail rfl
  | rgba =>
    refine integers.bind fun values => ?_
    split
    · exact packed_chainless (Packing.alphaColour_chainless _ _ _ _)
    · exact .fail rfl
  | hex =>
    cases named with
    | cons entry rest => exact .fail rfl
    | nil =>
      unfold apply
      dsimp only
      split
      · exact .fail rfl
      · refine (mapM fun operand member => (each operand member).int _).bind fun bytes => ?_
        exact (ofExcept (Packing.appendBytes_chainless 0 bytes)).bind fun packed => .done
  | arr =>
    refine integers.bind fun values => ?_
    split
    · exact (ofExcept (Packing.listing_chainless _)).bind fun text => .done
    · exact .fail rfl
  | rev =>
    refine integers.bind fun values => ?_
    split
    · exact ofExcept (Packing.reversed_chainless _)
    · exact .fail rfl
  | blend =>
    refine slots_bind_chainless _ each eachNamed fun slots holding => ?_
    split
    · rename_i mode fraction
      refine (holding mode (by simp)).text.bind fun mode => ?_
      refine ((holding fraction (by simp)).number _).bind fun fraction => ?_
      exact packed_chainless (Packing.blend_chainless mode fraction)
    · exact .fail rfl
  | set =>
    refine (texts_chainless _ each eachNamed).bind fun texts => ?_
    cases texts with
    | nil => exact .fail rfl
    | cons target rest => exact .done
  | constant | preset =>
    refine slots_bind_chainless _ each eachNamed fun slots holding => ?_
    split
    · rename_i name
      exact (holding name (by simp)).text.bind fun name => .ask fun value => .done
    · exact .fail rfl

end Function

namespace Expr

theorem textWith_chainless (e : Expr) {value : Query Value} (chainless : value.Chainless) :
    (e.textWith value).Chainless := by
  unfold textWith
  split
  · exact .done
  · exact chainless.bind fun value => .done

/-- The value of an expression tells of no chain unless what it refers to does. -/
theorem value_chainless (e : Expr) : e.value.Chainless := by
  refine (value.mutual_induct (fun e => e.value.Chainless)
    (fun keywords => ∀ entry ∈ keywordOperands keywords, entry.2.Chainless)
    (fun arguments => ∀ operand ∈ operands arguments, operand.Chainless)
    ?int ?float ?text ?symbol ?unary ?binary ?call ?noArgument ?argument ?noKeyword ?keyword).1 e
  case int | float | text =>
    intro value
    rw [Expr.value]
    exact .done
  case symbol =>
    intro name
    rw [value, symbolValue]
    split
    · exact .ofExcept (Value.whole_chainless _)
    · exact .fail rfl
  case unary =>
    intro sign operand chainless
    rw [value]
    exact chainless.bind fun value => .ofExcept (sign.apply_chainless value)
  case binary =>
    intro operator left right chainless chainless'
    rw [value]
    exact chainless.bind fun left => chainless'.bind fun right =>
      .ofExcept (operator.apply_chainless left right)
  case call =>
    intro function arguments keywords each eachNamed
    rw [value]
    exact function.apply_chainless each eachNamed
  case noArgument | noKeyword => simp [operands, keywordOperands]
  case argument =>
    intro e rest chainless each operand member
    rw [operands] at member
    rcases List.mem_cons.mp member with rfl | later
    · exact ⟨chainless,e.textWith_chainless chainless⟩
    · exact each operand later
  case keyword =>
    intro name e rest chainless each entry member
    rw [keywordOperands] at member
    rcases List.mem_cons.mp member with rfl | later
    · exact ⟨chainless,e.textWith_chainless chainless⟩
    · exact each entry later

end Expr

/-- A template whose braces are not closed, or enclose nothing, tells of no chain. -/
theorem Template.segmentsOf_chainless {text : List Char} {bad : BadSpan}
    (cut : segmentsOf text = .error bad) : bad.fault.chain? = none := by
  fun_induction segmentsOf text with
  | case1 => cases cut
  | case2 | case3 =>
    cases cut
    rfl
  | case4 text before body opened source rest closed shown shorter ih =>
    cases more : segmentsOf rest with
    | error other =>
      rw [more] at cut
      cases cut
      exact ih more
    | ok pieces =>
      rw [more] at cut
      cases cut

namespace Tables

variable {t : Tables} {r : Reference}

theorem unreadable_chain? (unreadable : t.tree? r = some (.error fault)) : fault.chain? = none := by
  obtain ⟨raw,_,parsed⟩ := Option.map_eq_some_iff.mp unreadable
  exact Expr.parse_chainless raw fault parsed

theorem lost_chain? (r : Reference) : r.lost.chain? = none := by
  unfold Reference.lost Reference.missing
  split
  · rfl
  · cases r.table <;> rfl

theorem wrapped_chain? (r : Reference) (other : fault.chain? = none) :
    (r.wrapped fault).chain? = none := by
  rwa [← r.within_eq_wrapped other, Reference.chain?_within]

theorem Yields.chain?_eq_none (yields : t.Yields q result) (chainless : q.Chainless) :
    chain? result = none := by
  induction yields with
  | done => rfl
  | fail =>
    cases chainless with
    | fail other => exact other
  | lost => exact lost_chain? _
  | unreadable tree => exact wrapped_chain? _ (unreadable_chain? tree)
  | failing _ _ ih => exact wrapped_chain? _ (ih (Expr.value_chainless _))
  | answered _ _ _ _ ihRest =>
    cases chainless with
    | ask rest => exact ihRest (rest _)

theorem Evaluates.chain?_eq_none (evaluates : t.Evaluates source result) :
    chain? result = none := by
  cases evaluates with
  | unreadable fails => exact Expr.parse_chainless source _ fails
  | tree _ yields => exact yields.chain?_eq_none (Expr.value_chainless _)

end Tables

end ThemeForge
