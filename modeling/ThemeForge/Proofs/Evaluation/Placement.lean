import ThemeForge.Proofs.Evaluation.Calls
import ThemeForge.Proofs.Expression.Placement

/-!
# Calls that place a layout element

A `set` call takes the texts of its arguments, each under its parameter, and places the element that
they tell of. It fails if its arguments do not fit or one of them has no text.
-/

namespace ThemeForge

variable {σ : Type} {answer : Reference → σ → Except Fault Value × σ}

namespace Expr

/-- The texts of the arguments in slots, each evaluated in the state that the one before it left. An
empty slot has no text. -/
inductive Told (answer : Reference → σ → Except Fault Value × σ) :
    List (Option Expr) → σ → List (Option String) → σ → Prop
  | nil : Told answer [] k [] k
  | empty (others : Told answer slots k texts k') : Told answer (none :: slots) k (none :: texts) k'
  | text {text : String} (found : e.textQuery.run answer k = (.ok text,k₁))
      (others : Told answer slots k₁ texts k') :
      Told answer (some e :: slots) k (some text :: texts) k'

/-- How the arguments in slots are evaluated: all are told, or those before one that fails. -/
inductive Telling (answer : Reference → σ → Except Fault Value × σ) (slots : List (Option Expr))
    (k : σ) : Except Fault (List (Option String)) × σ → Prop
  | told (told : Told answer slots k texts k') : Telling answer slots k (.ok texts,k')
  | fails (place : slots = before ++ some e :: behind) (told : Told answer before k texts k₁)
      (failed : e.textQuery.run answer k₁ = (.error fault,k')) :
      Telling answer slots k (.error fault,k')

variable {arguments : List Expr} {named : List (String × Expr)} {slots : List (Option Expr)}
  {texts : List (Option String)} {k k' : σ}

theorem Told.length_eq (told : Told answer slots k texts k') : slots.length = texts.length := by
  induction told with
  | nil => rfl
  | empty _ ih | text _ _ ih => exact congrArg Nat.succ ih

def slotText : Option Expr → Query (Option String)
  | none => .done none
  | some e => e.textQuery >>= fun text => .done (some text)

theorem slotTexts_telling (answer : Reference → σ → Except Fault Value × σ)
    (slots : List (Option Expr)) (k : σ) :
    Telling answer slots k ((slots.mapM slotText).run answer k) := by
  induction slots generalizing k with
  | nil => exact .told .nil
  | cons slot slots ih =>
    rw [List.mapM_cons, Query.run_bind]
    cases slot with
    | none =>
      have others := ih k
      simp only [slotText, Query.run, Query.run_bind]
      generalize (slots.mapM slotText).run answer k = outcome at others ⊢
      cases others with
      | told told => exact .told (.empty told)
      | fails place told failed => exact .fails (congrArg (none :: ·) place) (.empty told) failed
    | some e =>
      rw [slotText, Query.run_bind]
      rcases found : e.textQuery.run answer k with ⟨fault | text,k₁⟩
      · exact .fails rfl .nil found
      · have others := ih k₁
        simp only [Query.run, Query.run_bind]
        generalize (slots.mapM slotText).run answer k₁ = outcome at others ⊢
        cases others with
        | told told => exact .told (.text found told)
        | fails place told failed =>
          exact .fails (congrArg (some e :: ·) place) (.text found told) failed

end Expr

namespace Function

def bound (function : Function) (arguments : List Expr) (named : List (String × Expr)) :
    List (Option Expr) :=
  Binding.filled function.parameters (Binding.given function.parameters arguments named)

/-- How a `set` call ends: its arguments do not fit its parameters, or the text of one of them fails
after those before it are told, or they are told and place the element that they tell of. -/
inductive SetEnds (answer : Reference → σ → Except Fault Value × σ) (arguments : List Expr)
    (named : List (String × Expr)) (k : σ) : Except Fault Value × σ → Prop
  | unbound (unfit : ¬Binding.Fits set.parameters set.required arguments named)
      (refused : Binding.bind set set.parameters arguments named = .error fault) :
      SetEnds answer arguments named k (.error fault,k)
  | fails (fits : Binding.Fits set.parameters set.required arguments named)
      (place : set.bound arguments named = before ++ some e :: behind)
      (told : Expr.Told answer before k earlier k₁)
      (failed : e.textQuery.run answer k₁ = (.error fault,k')) :
      SetEnds answer arguments named k (.error fault,k')
  | places (fits : Binding.Fits set.parameters set.required arguments named) {p : Placement}
      (told : Expr.Told answer (set.bound arguments named) k
        (some p.target :: (p.coordinates ++ [p.condition,p.add,p.sub,p.otherwise])) k')
      (eight : p.coordinates.length = 8) (lays : p.Lays hoisted items text) :
      SetEnds answer arguments named k (.ok (.text text),k')

variable {function : Function} {arguments : List Expr} {named : List (String × Expr)}
  {texts : List (Option String)} {k k' : σ}

theorem bind_operands : Binding.bind function function.parameters (Expr.operands arguments)
      (Expr.keywordOperands named) =
    (Binding.bind function function.parameters arguments named).map
      (List.map (Option.map Expr.toOperand)) := by
  rw [Expr.operands_eq, Expr.keywordOperands_eq, Binding.bind_map]

/-- The texts of a call whose arguments fit are those of the arguments, by parameter. -/
theorem texts_eq (fits : Binding.Fits function.parameters function.required arguments named) :
    function.texts (Expr.operands arguments) (Expr.keywordOperands named) =
      (function.bound arguments named).mapM Expr.slotText := by
  have slots := (Binding.bind_eq_ok_iff function.parameters_distinct).mpr ⟨fits,rfl⟩
  rw [Function.texts, Function.slots, ← parameters, bind_operands, slots, Except.map,
    Query.ofExcept, Query.bind_done, List.mapM_map, bound]
  congr 1
  funext slot
  cases slot <;> rfl

theorem exists_placement (fits : Binding.Fits set.parameters set.required arguments named)
    (told : Expr.Told answer (set.bound arguments named) k texts k') :
    ∃ p : Placement, p.coordinates.length = 8 ∧
      texts = some p.target :: (p.coordinates ++ [p.condition,p.add,p.sub,p.otherwise]) := by
  have count : texts.length = 13 := told.length_eq.symm.trans (List.length_map _)
  obtain ⟨target,rest,rfl⟩ := List.exists_of_length_succ texts count
  -- The target is the parameter that must be given.
  have required := (Binding.all_isSome_filled set.parameters 1
    (Binding.given set.parameters arguments named)).mpr fun parameter member => by
      rw [Binding.names_given]
      exact List.mem_append.mpr (fits.filled parameter member)
  obtain ⟨target,rfl⟩ : ∃ s, target = some s := by
    generalize slots : set.bound arguments named = slots at told
    rw [bound] at slots
    rw [slots] at required
    cases told with
    | empty => cases required
    | text => exact ⟨_,rfl⟩
  obtain ⟨condition,add,sub,otherwise,behind⟩ := List.length_eq_four.mp
    (show (rest.drop 8).length = 4 by rw [List.length_drop, Nat.succ.inj count])
  refine ⟨⟨target,rest.take 8,condition,add,sub,otherwise⟩,?_,?_⟩
  · rw [List.length_take, Nat.succ.inj count]
    rfl
  · rw [← behind, List.take_append_drop]

/-- Every element is placed by lines that each set the variable of a coordinate of several words, and
by a list of eight words, in which with these lines every coordinate is found in its place. A `set`
call whose arguments have texts generates such lines for the element that they tell of, each under its
parameter. It fails where they do not fit or where one of them does. -/
theorem set_lays :
    (∀ p : Placement, p.coordinates.length = 8 → ∃ hoisted items, p.Lays hoisted items p.render) ∧
    ∀ {σ : Type} (answer : Reference → σ → Except Fault Value × σ) arguments named k,
      SetEnds answer arguments named k ((Expr.call .set arguments named).value.run answer k) := by
  refine ⟨fun p eight => ⟨_,_,p.lays_render eight⟩,fun answer arguments named k => ?_⟩
  rw [Expr.value]
  by_cases fits : Binding.Fits set.parameters set.required arguments named
  · have telling := Expr.slotTexts_telling answer (set.bound arguments named) k
    rw [← texts_eq fits] at telling
    simp only [apply, Query.run_bind]
    generalize (set.texts _ _).run answer k = outcome at telling ⊢
    cases telling with
    | fails place told failed => exact .fails fits place told failed
    | told told =>
      obtain ⟨p,eight,rfl⟩ := exists_placement fits told
      have front : (p.coordinates ++ [p.condition,p.add,p.sub,p.otherwise]).take 8 = p.coordinates :=
        List.take_left' eight
      have behind : ∀ i, (p.coordinates ++ [p.condition,p.add,p.sub,p.otherwise])[8 + i]? =
          [p.condition,p.add,p.sub,p.otherwise][i]? := by
        intro i
        rw [List.getElem?_append_right (by omega), eight, Nat.add_sub_cancel_left]
      simp only [front, behind 0, behind 1, behind 2, behind 3]
      exact .places fits told eight (p.lays_render eight)
  · cases slots : Binding.bind set set.parameters arguments named with
    | ok slots => exact absurd ((Binding.bind_eq_ok_iff set.parameters_distinct).mp slots).1 fits
    | error fault =>
      have refused : set.texts (Expr.operands arguments) (Expr.keywordOperands named) =
          .fail fault := by
        rw [texts, Function.slots, ← parameters, bind_operands, slots]
        rfl
      rw [apply, refused]
      exact .unbound fits slots

end Function

namespace Expr

def labelArguments : List Expr := [.symbol "tcp.label",.call .constant [.symbol "label.x"] []]

def labelNamed : List (String × Expr) :=
  [("sub",.text "c"),("w",.text "w\n 0.5 *"),("y",.text " 5\n"),("bs",.text "."),
    ("condition",.text "a<1 b"),("add",.text "[1]")]

/-- A call that places a label with a width of three words under a condition of two. Where it begins
is looked up. -/
def labelCall : Expr := .call .set labelArguments labelNamed

def labelText : String := "set __w w 0.5 *\nset tcp.label a<1 b - + [7 5 __w . . . . .] [1] c " ++
  "[. . . . . . . .] [. . . . . . . .]"

def sevens (_ : Reference) (count : Nat) : Except Fault Value × Nat := (.ok (.int 7),count + 1)

end Expr

/-- The call is asked for one entry and places the label. -/
theorem Expr.labelCall_lays : labelCall.value.run sevens 0 = (.ok (.text labelText),1) ∧
    Function.SetEnds sevens labelArguments labelNamed 0 (.ok (.text labelText),1) := by
  have run : labelCall.value.run sevens 0 = (.ok (.text labelText),1) := by cbv
  exact ⟨run,run ▸ Function.set_lays.2 sevens labelArguments labelNamed 0⟩

end ThemeForge
