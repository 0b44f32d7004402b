import ThemeForge.Proofs.Evaluation.Calls
import ThemeForge.Proofs.Evaluation.Exact
import ThemeForge.Proofs.Evaluation.Independence
import ThemeForge.Proofs.Evaluation.Presets

/-!
# Parts of an expression

A part of an expression can be replaced by another one with the same value, wherever it stands. Only
where a bare name stands for itself the two must have the same text too. So the call of a preset can be
replaced by the text of the preset, but for a text that is a bare name in such a place: there the call
has the value of the name, as the name would have behind a sign.
-/

namespace ThemeForge

/-- The argument for this parameter is taken as a text, in which a bare name stands for itself. -/
def Function.Symbolic (function : Function) (parameter : String) : Prop :=
  match function with
  | .set | .constant | .preset => True
  | .blend => parameter = "mode"
  | _ => False

namespace Function

variable {t : Tables} {function : Function} {pairs : List (Operand × Operand)}
  {named : List (String × Operand × Operand)}

/-- What a call goes on with when its arguments are bound, for two calls with paired arguments. -/
theorem slots_bind_equates {next : List (Option Operand) → Query β}
    (rest : ∀ slots, Binding.bind function function.parameters pairs named = .ok slots →
      t.Equates (next (slots.map (Option.map Prod.fst))) (next (slots.map (Option.map Prod.snd)))) :
    t.Equates
      (function.slots (pairs.map Prod.fst) (named.map fun entry => (entry.1,entry.2.1)) >>= next)
      (function.slots (pairs.map Prod.snd) (named.map fun entry => (entry.1,entry.2.2)) >>= next) := by
  rw [slots, slots, ← parameters, Binding.bind_map Prod.fst, Binding.bind_map Prod.snd]
  cases bound : Binding.bind function function.parameters pairs named with
  | error fault => exact .refl _
  | ok slots => exact rest slots bound

theorem int_equates {x y : Operand} (function : Function) (value : t.Equates x.value y.value) :
    t.Equates (x.int function) (y.int function) := value.bind fun _ => .refl _

theorem number_equates {x y : Operand} (function : Function) (value : t.Equates x.value y.value) :
    t.Equates (x.number function) (y.number function) := value.bind fun _ => .refl _

section Apply

variable (values : ∀ pair ∈ pairs, t.Equates pair.1.value pair.2.value)
  (namedValues : ∀ entry ∈ named, t.Equates entry.2.1.value entry.2.2.value)
  (texts : ∀ entry ∈ Binding.given function.parameters pairs named, function.Symbolic entry.1 →
    t.Equates entry.2.1.text entry.2.2.text)

variable (function) in
include values namedValues in
theorem integers_equates :
    t.Equates (function.integers (pairs.map Prod.fst) (named.map fun entry => (entry.1,entry.2.1)))
      (function.integers (pairs.map Prod.snd) (named.map fun entry => (entry.1,entry.2.2))) := by
  refine slots_bind_equates fun slots bound => ?_
  have holding := Binding.bind_holding
    (P := fun pair : Operand × Operand => t.Equates pair.1.value pair.2.value) values namedValues bound
  have operands (f : Operand × Operand → Operand) :
      (slots.map (Option.map f)).filterMap id = (slots.filterMap id).map f := by
    rw [List.filterMap_map, List.map_filterMap]
    rfl
  rw [operands, operands, List.mapM_map, List.mapM_map]
  refine .mapM fun pair member => int_equates function (holding pair ?_)
  simpa using member

include texts in
theorem text_equates {slots : List (Option (Operand × Operand))} {pair : Operand × Operand}
    (bound : Binding.bind function function.parameters pairs named = .ok slots) (index : Nat)
    (slot : slots[index]? = some (some pair))
    (symbolic : ∀ parameter, function.parameters[index]? = some parameter →
      function.Symbolic parameter) : t.Equates pair.1.text pair.2.text := by
  obtain ⟨parameter,here,member⟩ :=
    Binding.mem_given_of_bind function.parameters_distinct bound slot
  exact texts _ member (symbolic parameter here)

include texts in
theorem texts_equates (symbolic : ∀ parameter, function.Symbolic parameter) :
    t.Equates (function.texts (pairs.map Prod.fst) (named.map fun entry => (entry.1,entry.2.1)))
      (function.texts (pairs.map Prod.snd) (named.map fun entry => (entry.1,entry.2.2))) := by
  refine slots_bind_equates fun slots bound => ?_
  rw [List.mapM_map, List.mapM_map]
  refine .mapM fun slot member => ?_
  cases slot with
  | none => exact .refl _
  | some pair =>
    obtain ⟨index,here⟩ := List.mem_iff_getElem?.mp member
    exact (text_equates texts bound index here fun _ _ => symbolic _).bind fun _ => .refl _

variable (function pairs named) in
include values namedValues texts in
/-- Two calls of a function have the same result if their arguments have the same values, and the same
texts where these are used. -/
theorem apply_equates :
    t.Equates (function.apply (pairs.map Prod.fst) (named.map fun entry => (entry.1,entry.2.1)))
      (function.apply (pairs.map Prod.snd) (named.map fun entry => (entry.1,entry.2.2))) := by
  have integers := integers_equates function values namedValues
  cases function with
  | rgb | nrgb | rgba | arr | rev =>
    simp only [apply, List.length_map]
    exact integers.bind fun _ => .refl _
  | hex =>
    cases named with
    | cons entry rest => exact .refl _
    | nil =>
      simp only [apply, List.length_map, List.isEmpty_map, List.map_nil, List.mapM_map]
      split
      · exact .refl _
      · exact (Tables.Equates.mapM fun pair member => int_equates _ (values pair member)).bind
          fun _ => .refl _
  | blend =>
    simp only [apply, List.length_map]
    refine slots_bind_equates fun slots bound => ?_
    have holding := Binding.bind_holding
      (P := fun pair : Operand × Operand => t.Equates pair.1.value pair.2.value) values namedValues bound
    rcases slots with _ | ⟨_ | mode,_ | ⟨_ | fraction,_ | ⟨_,_⟩⟩⟩
    case cons.some.cons.some.nil =>
      have text : t.Equates mode.1.text mode.2.text :=
        text_equates texts bound 0 rfl fun parameter here => (Option.some.inj here).symm
      refine text.bind fun _ => ?_
      exact (number_equates _ (holding fraction (by simp))).bind fun _ => .refl _
    all_goals exact .refl _
  | set =>
    simp only [apply, List.length_map]
    exact (texts_equates texts fun _ => trivial).bind fun _ => .refl _
  | constant | preset =>
    simp only [apply, List.length_map]
    refine slots_bind_equates fun slots bound => ?_
    rcases slots with _ | ⟨_ | name,_ | ⟨_,_⟩⟩
    case cons.some.nil =>
      exact (text_equates texts bound 0 rfl fun _ _ => trivial).bind fun _ => .refl _
    all_goals exact .refl _

end Apply

section Argument

theorem eq_of_twin {operands : List Operand} {pair : Operand × Operand}
    (member : pair ∈ operands.map fun o => (o,o)) : pair.1 = pair.2 := by
  obtain ⟨o,_,rfl⟩ := List.mem_map.mp member
  rfl

theorem eq_of_namedTwin {operands : List (String × Operand)} {entry : String × Operand × Operand}
    (member : entry ∈ operands.map fun o => (o.1,o.2,o.2)) : entry.2.1 = entry.2.2 := by
  obtain ⟨o,_,rfl⟩ := List.mem_map.mp member
  rfl

variable {x y : Operand} (value : t.Equates x.value y.value)

include value

theorem apply_argument (before after : List Operand) (named : List (String × Operand))
    (text : ∀ parameter, function.parameters[before.length]? = some parameter →
      function.Symbolic parameter → t.Equates x.text y.text) :
    t.Equates (function.apply (before ++ x :: after) named)
      (function.apply (before ++ y :: after) named) := by
  have calls := apply_equates (t := t) function
    (before.map (fun o => (o,o)) ++ (x,y) :: after.map fun o => (o,o))
    (named.map fun entry => (entry.1,entry.2,entry.2)) ?_ ?_ ?_
  · simpa [Function.comp_def] using calls
  · intro pair member
    rcases List.mem_append.mp member with front | last
    · exact .of_eq (congrArg Operand.value (eq_of_twin front))
    · rcases List.mem_cons.mp last with rfl | behind
      · exact value
      · exact .of_eq (congrArg Operand.value (eq_of_twin behind))
  · exact fun entry member => .of_eq (congrArg Operand.value (eq_of_namedTwin member))
  · intro entry member symbolic
    rw [Binding.given, Binding.zip_append, List.length_map, List.append_assoc] at member
    rcases List.mem_append.mp member with front | last
    · exact .of_eq (congrArg Operand.text (eq_of_twin (List.of_mem_zip front).2))
    · rcases List.mem_append.mp last with positional | keyword
      · cases rest : function.parameters.drop before.length with
        | nil => simp [rest] at positional
        | cons parameter parameters =>
          rw [rest, List.zip_cons_cons] at positional
          have here : function.parameters[before.length]? = some parameter := by
            rw [← List.head?_drop, rest, List.head?_cons]
          rcases List.mem_cons.mp positional with rfl | behind
          · exact text parameter here symbolic
          · exact .of_eq (congrArg Operand.text (eq_of_twin (List.of_mem_zip behind).2))
      · exact .of_eq (congrArg Operand.text (eq_of_namedTwin keyword))

theorem apply_keyword (arguments : List Operand) (before after : List (String × Operand))
    (name : String) (text : function.Symbolic name → t.Equates x.text y.text) :
    t.Equates (function.apply arguments (before ++ (name,x) :: after))
      (function.apply arguments (before ++ (name,y) :: after)) := by
  have calls := apply_equates (t := t) function (arguments.map fun o => (o,o))
    (before.map (fun entry => (entry.1,entry.2,entry.2)) ++
      (name,x,y) :: after.map fun entry => (entry.1,entry.2,entry.2)) ?_ ?_ ?_
  · simpa [Function.comp_def] using calls
  · exact fun pair member => .of_eq (congrArg Operand.value (eq_of_twin member))
  · intro entry member
    rcases List.mem_append.mp member with front | last
    · exact .of_eq (congrArg Operand.value (eq_of_namedTwin front))
    · rcases List.mem_cons.mp last with rfl | behind
      · exact value
      · exact .of_eq (congrArg Operand.value (eq_of_namedTwin behind))
  · intro entry member symbolic
    rcases List.mem_append.mp member with positional | keyword
    · exact .of_eq (congrArg Operand.text (eq_of_twin (List.of_mem_zip positional).2))
    · rcases List.mem_append.mp keyword with front | last
      · exact .of_eq (congrArg Operand.text (eq_of_namedTwin front))
      · rcases List.mem_cons.mp last with rfl | behind
        · exact text symbolic
        · exact .of_eq (congrArg Operand.text (eq_of_namedTwin behind))

end Argument

end Function

namespace Expr

/-- An expression with one part left out. -/
inductive Context
  | hole
  | unary (sign : Sign) (inside : Context)
  | left (operator : Operator) (inside : Context) (right : Expr)
  | right (operator : Operator) (left : Expr) (inside : Context)
  | argument (function : Function) (before : List Expr) (inside : Context) (after : List Expr)
      (named : List (String × Expr))
  | keyword (function : Function) (arguments : List Expr) (before : List (String × Expr))
      (name : String) (inside : Context) (after : List (String × Expr))

namespace Context

def fill (part : Expr) : Context → Expr
  | .hole => part
  | .unary sign inside => .unary sign (inside.fill part)
  | .left operator inside e => .binary operator (inside.fill part) e
  | .right operator e inside => .binary operator e (inside.fill part)
  | .argument function before inside after named =>
    .call function (before ++ inside.fill part :: after) named
  | .keyword function arguments before name inside after =>
    .call function arguments (before ++ (name,inside.fill part) :: after)

/-- The part that is left out is an argument that is taken as a text. -/
def Symbolic : Context → Prop
  | .hole => False
  | .unary _ inside | .left _ inside _ | .right _ _ inside => inside.Symbolic
  | .argument function before inside _ _ =>
    (inside = .hole ∧ ∃ parameter, function.parameters[before.length]? = some parameter ∧
      function.Symbolic parameter) ∨ inside.Symbolic
  | .keyword function _ _ name inside _ =>
    (inside = .hole ∧ function.Symbolic name) ∨ inside.Symbolic

variable {t : Tables} {part other : Expr}

theorem textWith_fill (c : Context) (open_ : c ≠ .hole) (part : Expr) (value : Query Value) :
    (c.fill part).textWith value = value >>= fun v => .done v.result := by
  cases c with
  | hole => exact absurd rfl open_
  | _ => rfl

theorem text_fill (c : Context) (whole : t.Equates (c.fill part).value (c.fill other).value)
    (text : c = .hole → t.Equates part.textQuery other.textQuery) :
    t.Equates (c.fill part).toOperand.text (c.fill other).toOperand.text := by
  by_cases hole : c = .hole
  · subst hole
    exact text rfl
  · rw [toOperand, toOperand, textWith_fill c hole, textWith_fill c hole]
    exact whole.bind fun _ => .refl _

/-- An expression has the same result with another part put in that has the same value, and the same
text if that counts. -/
theorem fill_equates (c : Context) (value : t.Equates part.value other.value)
    (text : c.Symbolic → t.Equates part.textQuery other.textQuery) :
    t.Equates (c.fill part).value (c.fill other).value := by
  induction c with
  | hole => exact value
  | unary sign inside ih =>
    rw [fill, fill, Expr.value, Expr.value]
    exact (ih text).bind fun _ => .refl _
  | left operator inside e ih =>
    rw [fill, fill, Expr.value, Expr.value]
    exact (ih text).bind fun _ => .refl _
  | right operator e inside ih =>
    rw [fill, fill, Expr.value, Expr.value]
    exact (Tables.Equates.refl _).bind fun _ => (ih text).bind fun _ => .refl _
  | argument function before inside after named ih =>
    have whole := ih fun symbolic => text (.inr symbolic)
    rw [fill, fill, Expr.value, Expr.value, operands_eq, operands_eq, List.map_append, List.map_append,
      List.map_cons, List.map_cons]
    refine Function.apply_argument whole _ _ _ fun parameter here symbolic => ?_
    rw [List.length_map] at here
    exact text_fill inside whole fun hole => text (.inl ⟨hole,parameter,here,symbolic⟩)
  | keyword function arguments before name inside after ih =>
    have whole := ih fun symbolic => text (.inr symbolic)
    rw [fill, fill, Expr.value, Expr.value, keywordOperands_eq, keywordOperands_eq, List.map_append,
      List.map_append, List.map_cons, List.map_cons]
    refine Function.apply_keyword whole _ _ _ _ fun symbolic => ?_
    exact text_fill inside whole fun hole => text (.inl ⟨hole,symbolic⟩)

end Context

/-- A call of the preset with a name, which is given by an expression with that text. -/
inductive CallsPreset (name : String) : Expr → Prop
  | positional : e.textQuery = .done name → CallsPreset name (.call .preset [e] [])
  | keyword : e.textQuery = .done name → CallsPreset name (.call .preset [] [("name",e)])

theorem CallsPreset.value {call : Expr} (calls : call.CallsPreset name) :
    call.value = .ask ⟨.preset,name⟩ .done := by
  cases calls with
  | positional text | keyword text =>
    rw [Expr.value]
    change (textQuery _ >>= fun name => Query.ask ⟨.preset,name⟩ .done) = _
    rw [text]
    rfl

theorem CallsPreset.textQuery {call : Expr} (calls : call.CallsPreset name) :
    call.textQuery = call.value >>= fun v => .done v.result := by
  cases calls <;> rfl

theorem value_plus_symbol (name : String) :
    (Expr.unary .plus (.symbol name)).value = (Expr.symbol name).value := by
  have bare : (Expr.symbol name).value = symbolValue name := by rw [Expr.value]
  rw [bare, Expr.value, bare, symbolValue]
  split <;> rfl

end Expr

/-- A preset has its label alone, but for one constant. -/
theorem Reference.eq_of_label {r : Reference} {name : String}
    (same : r.label = Reference.label ⟨.preset,name⟩) :
    r = ⟨.preset,name⟩ ∨ r = ⟨.constant,"p(" ++ name ++ ")"⟩ := by
  obtain ⟨table,other⟩ := r
  cases table with
  | constant => exact .inr (congrArg (Reference.mk .constant) same)
  | preset =>
    have inner : ("p(" ++ other ++ ")").toList = ("p(" ++ name ++ ")").toList :=
      congrArg String.toList same
    simp only [String.toList_append, List.append_assoc, List.append_cancel_left_eq,
      List.append_cancel_right_eq, String.toList_inj] at inner
    exact .inl (congrArg (Reference.mk .preset) inner)

namespace Session

open Tables

theorem eval_of_equates {s : Session} (sound : s.Sound) {e e' : Expr}
    (same : s.tables.Equates e.value e'.value) : s.eval e = s.eval e' := by
  rw [eval, eval, same s.known sound]

/-- A call of a preset can be replaced by the tree of the preset's text, in any place of any
expression and after any calls, if the evaluation of that text comes neither to the preset itself nor
to a constant with the label of the preset. The place and the text decide about one more thing: where a
bare name stands for itself, a text that is a bare name still has its value. -/
theorem eval_preset_text (t : Tables) (calls : List Call) (c : Expr.Context) {name : String}
    {call tree : Expr} (asks : call.CallsPreset name)
    (found : t.tree? ⟨.preset,name⟩ = some (.ok tree)) (straight : ¬t.Recurs ⟨.preset,name⟩)
    (apart : ¬t.Reaches tree.value ⟨.constant,"p(" ++ name ++ ")"⟩) :
    ((c.Symbolic → ∀ bare, tree ≠ .symbol bare) →
      ((start t).after calls).eval (c.fill call) = ((start t).after calls).eval (c.fill tree)) ∧
    ∀ bare, tree = .symbol bare → ((start t).after calls).eval (c.fill call) =
      ((start t).after calls).eval (c.fill (.unary .plus (.symbol bare))) := by
  obtain ⟨settled,tables⟩ := after_settled (start_settled t) calls
  have labels : ∀ r, t.Reaches tree.value r → r.label ≠ Reference.label ⟨.preset,name⟩ := by
    intro r reached same
    rcases Reference.eq_of_label same with rfl | rfl
    · exact straight ⟨tree,found,reached⟩
    · exact apart reached
  have value : t.Equates call.value tree.value := asks.value ▸ equates_preset found labels
  refine ⟨fun shown => ?_,?_⟩
  · refine eval_of_equates settled.sound (tables ▸ c.fill_equates value fun symbolic => ?_)
    have text : tree.textQuery = tree.value >>= fun v => .done v.result := by
      cases tree with
      | symbol bare => exact absurd rfl (shown symbolic bare)
      | _ => rfl
    rw [asks.textQuery, text]
    exact value.bind fun _ => .refl _
  · rintro bare rfl
    rw [← Expr.value_plus_symbol] at value
    refine eval_of_equates settled.sound (tables ▸ c.fill_equates value fun _ => ?_)
    rw [asks.textQuery]
    exact value.bind fun _ => .refl _

def shades : Tables := ⟨⟨[("a",[("b","2")])]⟩,⟨[("x",[("y","c(a.b)"),("z","tcp.mute")])]⟩⟩

theorem shades_tree? : shades.tree? ⟨.preset,"x.y"⟩ =
    some (.ok (.call .constant [.symbol "a.b"] [])) := by cbv

theorem shades_constant : shades.tree? ⟨.constant,"a.b"⟩ = some (.ok (.int 2)) := by cbv

theorem shades_reaches {r : Reference}
    (reached : shades.Reaches (Expr.call .constant [.symbol "a.b"] []).value r) :
    r = ⟨.constant,"a.b"⟩ := by
  have asks : (Expr.call .constant [.symbol "a.b"] []).value = .ask ⟨.constant,"a.b"⟩ .done := rfl
  rw [asks] at reached
  cases reached with
  | here => rfl
  | inside tree within =>
    cases shades_constant.symm.trans tree
    rw [Expr.value] at within
    cases within
  | later _ after => cases after

/-- The reference to the constant stands for the preset in a sum. -/
theorem shades_replaced :
    shades.tree? ⟨.preset,"x.y"⟩ = some (.ok (.call .constant [.symbol "a.b"] [])) ∧
      ¬shades.Recurs ⟨.preset,"x.y"⟩ ∧
      ¬shades.Reaches (Expr.call .constant [.symbol "a.b"] []).value ⟨.constant,"p(" ++ "x.y" ++ ")"⟩ ∧
      (start shades).eval (.binary .add (.int 1) (.call .preset [.symbol "x.y"] [])) =
        (start shades).eval (.binary .add (.int 1) (.call .constant [.symbol "a.b"] [])) := by
  have straight : ¬shades.Recurs ⟨.preset,"x.y"⟩ := by
    rintro ⟨tree,found,back⟩
    cases shades_tree?.symm.trans found
    cases shades_reaches back
  have apart : ¬shades.Reaches (Expr.call .constant [.symbol "a.b"] []).value
      ⟨.constant,"p(" ++ "x.y" ++ ")"⟩ := fun reached => by
    have name := congrArg Reference.name (shades_reaches reached)
    revert name
    decide
  have replaced := eval_preset_text shades [] (.right .add (.int 1) .hole)
    (.positional (e := .symbol "x.y") rfl) shades_tree? straight apart
  exact ⟨shades_tree?,straight,apart,replaced.1 fun symbolic => symbolic.elim⟩

theorem eval_of_run {s : Session} (run : s.tables.Runs [] e.value s.known result k) :
    s.eval e = (result,{ s with known := k }) := by
  have evaluated := run.run_eq
  rw [List.map_nil] at evaluated
  rw [eval, evaluated]

/-- A bare name as the target of a placement is a text, and a preset with that name as its text has no
value there. -/
theorem bare_text_differs :
    Settings.parse "[a]\nb=2" = .ok shades.constants ∧
      Settings.parse "[x]\ny=c(a.b)\nz=tcp.mute" = .ok shades.presets ∧
      shades.tree? ⟨.preset,"x.z"⟩ = some (.ok (.symbol "tcp.mute")) ∧
      ¬shades.Recurs ⟨.preset,"x.z"⟩ ∧
      ((start shades).eval (.call .set [.call .preset [.symbol "x.z"] []] [])).1 =
        .error (.unknownName "tcp.mute") ∧
      ((start shades).eval (.call .set [.symbol "tcp.mute"] [])).1 =
        .ok (.text "set tcp.mute [. . . . . . . .]") := by
  have constants : Settings.parse "[a]\nb=2" = .ok shades.constants := by cbv
  have presets : Settings.parse "[x]\ny=c(a.b)\nz=tcp.mute" = .ok shades.presets := by cbv
  have named : (Expr.call .set [.symbol "tcp.mute"] []).value =
      .done (.text "set tcp.mute [. . . . . . . .]") := by cbv
  have tree : shades.tree? ⟨.preset,"x.z"⟩ = some (.ok (.symbol "tcp.mute")) := by cbv
  have bare : (Expr.symbol "tcp.mute").value = .fail (.unknownName "tcp.mute") := rfl
  have straight : ¬shades.Recurs ⟨.preset,"x.z"⟩ := by
    rintro ⟨e,found,back⟩
    cases tree.symm.trans found
    rw [bare] at back
    cases back
  refine ⟨constants,presets,tree,straight,?_,?_⟩
  · obtain ⟨next,asks⟩ : ∃ next, (Expr.call .set [.call .preset [.symbol "x.z"] []] []).value =
        .ask ⟨.preset,"x.z"⟩ next := ⟨_,rfl⟩
    have run : (start shades).tables.Runs [] (.ask ⟨.preset,"x.z"⟩ next) []
        (.error (.unknownName "tcp.mute")) [] :=
      .failing rfl tree List.not_mem_nil (bare ▸ .fail)
    rw [eval_of_run (asks ▸ run)]
  · rw [eval, named]
    rfl

end Session

end ThemeForge
