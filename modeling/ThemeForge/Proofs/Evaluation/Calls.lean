import ThemeForge.Proofs.Expression.Binding
import ThemeForge.Session

/-!
# Spellings of a call

A call means the same however its arguments are spelled: the last positional arguments can be given by
name and the keyword arguments in any order. The two calls are one query, so they have one result in
every state of a session and leave the same state behind.
-/

namespace ThemeForge

namespace Expr

def toOperand (e : Expr) : Operand := ⟨e.value,e.textWith e.value⟩

theorem operands_eq (arguments : List Expr) : operands arguments = arguments.map toOperand := by
  induction arguments with
  | nil => rfl
  | cons e rest ih => rw [operands, ih, List.map_cons, toOperand]

theorem keywordOperands_eq (named : List (String × Expr)) :
    keywordOperands named = named.map fun entry => (entry.1,entry.2.toOperand) := by
  induction named with
  | nil => rfl
  | cons entry rest ih => rw [keywordOperands, ih, List.map_cons, toOperand]

end Expr

namespace Function

/-- The parameters of a function in order. One that takes any number of arguments has none. -/
def parameters (function : Function) : List String := function.parameters?.getD []

theorem parameters_distinct (function : Function) : function.parameters.Nodup := by
  cases function <;> decide

def Binds (function : Function) (arguments : List Expr) (named : List (String × Expr)) : Prop :=
  ∃ slots, Binding.bind function function.parameters (Expr.operands arguments)
    (Expr.keywordOperands named) = .ok slots

theorem binds_iff (function : Function) (arguments : List Expr) (named : List (String × Expr)) :
    function.Binds arguments named ↔
      Binding.Fits function.parameters function.required arguments named := by
  rw [Binds, Expr.operands_eq, Expr.keywordOperands_eq, Binding.bind_map]
  constructor
  · rintro ⟨slots,bound⟩
    obtain ⟨_,bound,_⟩ := map_ok_iff.mp bound
    exact ((Binding.bind_eq_ok_iff function.parameters_distinct).mp bound).1
  · intro fits
    have bound := (Binding.bind_eq_ok_iff function.parameters_distinct).mpr ⟨fits,rfl⟩
    exact ⟨_,map_ok_iff.mpr ⟨_,bound,rfl⟩⟩

/-- Apart from their number, a function looks at its arguments only once they are bound. -/
theorem apply_congr {function : Function} (bounded : function ≠ .hex)
    {arguments others : List Operand} {named named' : List (String × Operand)}
    (slots : function.slots arguments named = function.slots others named')
    (count : arguments.length + named.length = others.length + named'.length) :
    function.apply arguments named = function.apply others named' := by
  cases function with
  | hex => exact absurd rfl bounded
  | rgb | nrgb | rgba | arr | rev => simp only [apply, integers, slots, count]
  | set => simp only [apply, texts, slots, count]
  | blend | constant | preset => simp only [apply, slots, count]

variable {function : Function} {arguments more : List Expr} {named named' : List (String × Expr)}

theorem slots_respelled (binds : function.Binds (arguments ++ more) named)
    (perm : named'.Perm ((function.parameters.drop arguments.length).zip more ++ named)) :
    function.Binds arguments named' ∧
      function.slots (Expr.operands arguments) (Expr.keywordOperands named') =
        function.slots (Expr.operands (arguments ++ more)) (Expr.keywordOperands named) := by
  obtain ⟨slots,bound⟩ := binds
  have respelled : Binding.bind function function.parameters (Expr.operands arguments)
      (Expr.keywordOperands named') = .ok slots := by
    rw [Expr.operands_eq, Expr.keywordOperands_eq, Binding.bind_map] at bound ⊢
    obtain ⟨_,bound,same⟩ := map_ok_iff.mp bound
    exact map_ok_iff.mpr ⟨_,Binding.bind_respelled function.parameters_distinct bound perm,same⟩
  refine ⟨⟨slots,respelled⟩,?_⟩
  rw [Function.slots, Function.slots, ← parameters, respelled, bound]

theorem count_respelled (room : (arguments ++ more).length ≤ function.parameters.length)
    (perm : named'.Perm ((function.parameters.drop arguments.length).zip more ++ named)) :
    arguments.length + named'.length = (arguments ++ more).length + named.length := by
  have count := perm.length_eq
  rw [List.length_append] at room
  rw [List.length_append, List.length_zip, List.length_drop] at count
  rw [List.length_append]
  omega

theorem value_respelled (bounded : function ≠ .hex) (binds : function.Binds (arguments ++ more) named)
    (perm : named'.Perm ((function.parameters.drop arguments.length).zip more ++ named)) :
    (Expr.call function arguments named').value =
      (Expr.call function (arguments ++ more) named).value := by
  have count := count_respelled ((binds_iff _ _ _).mp binds).room perm
  rw [Expr.value, Expr.value]
  refine apply_congr bounded (slots_respelled binds perm).2 ?_
  rw [Expr.operands_eq, Expr.operands_eq, Expr.keywordOperands_eq, Expr.keywordOperands_eq]
  simpa only [List.length_map] using count

/-- A call binds exactly if it has no more positional arguments than parameters, each keyword once,
for a parameter that no positional argument is for, and an argument for each parameter that needs one.
If its last positional arguments are given by name instead and its keyword arguments in another order,
it binds too, with the same result and the same state afterwards, whatever entries are being evaluated
and whatever is known. -/
theorem calls_respelled (function : Function) (bounded : function ≠ .hex) :
    (∀ arguments named, function.Binds arguments named ↔
      Binding.Fits function.parameters function.required arguments named) ∧
    ∀ arguments more named named', function.Binds (arguments ++ more) named →
      named'.Perm ((function.parameters.drop arguments.length).zip more ++ named) →
        function.Binds arguments named' ∧
        (∀ (t : Tables) chain known,
          (Expr.call function arguments named').value.run (t.answer chain) known =
            (Expr.call function (arguments ++ more) named).value.run (t.answer chain) known) ∧
        ∀ s : Session, s.eval (.call function arguments named') =
          s.eval (.call function (arguments ++ more) named) := by
  refine ⟨function.binds_iff,fun arguments more named named' binds perm => ?_⟩
  have value := value_respelled bounded binds perm
  refine ⟨(slots_respelled binds perm).1,fun t chain known => ?_,fun s => ?_⟩
  · rw [value]
  · rw [Session.eval, Session.eval, value]

/-- A colour whose green and blue are given by name and the other way round. -/
theorem colour_respelled : rgb ≠ .hex ∧ rgb.Binds [.int 1,.int 2] [("b",.int 3)] ∧
    rgb.Binds [.int 1] [("b",.int 3),("g",.int 2)] ∧ ∀ s : Session,
      s.eval (.call .rgb [.int 1] [("b",.int 3),("g",.int 2)]) =
        s.eval (.call .rgb [.int 1,.int 2] [("b",.int 3)]) := by
  obtain ⟨binds,respelled⟩ := calls_respelled .rgb (by decide)
  have first : rgb.Binds ([.int 1] ++ [.int 2]) [("b",.int 3)] := (binds _ _).mpr (by
    constructor <;> decide)
  obtain ⟨second,_,same⟩ := respelled [.int 1] [.int 2] [("b",.int 3)]
    [("b",.int 3),("g",.int 2)] first (.swap _ _ _)
  exact ⟨by decide,first,second,same⟩

end Function

end ThemeForge
