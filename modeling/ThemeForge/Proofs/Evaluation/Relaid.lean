import Mathlib.Data.List.Forall2
import ThemeForge.Proofs.Evaluation.Plain
import ThemeForge.Proofs.Expression.Relaid

/-!
# Evaluating another layout

An expression in another layout asks for the same entries, and its value is the same but for the
layout of a text. Only a name with a line feed in it can change with the layout, and no entry of
tables that were read has such a name.
-/

namespace ThemeForge

open Text

inductive Value.Relaid : Value → Value → Prop
  | same : Relaid value value
  | text : Alike s other → Relaid (.text s) (.text other)

theorem Value.Relaid.result {v w : Value} (relaid : v.Relaid w) : Alike v.result w.result := by
  cases relaid with
  | same => exact .refl _
  | text alike => exact alike

theorem Value.Relaid.float?_eq {v w : Value} (relaid : v.Relaid w) : v.float? = w.float? := by
  cases relaid <;> rfl

/-- A query that asks for the same entries, with a result that is related. Nothing is said of a query
that fails, or that asks for a name with a line feed. -/
inductive Query.Relaid (R : α → β → Prop) : Query α → Query β → Prop
  | done : R a b → Relaid R (.done a) (.done b)
  | fail : Relaid R (.fail fault) other
  | ask : (∀ value, Relaid R (next value) (next' value)) → Relaid R (.ask r next) (.ask r next')
  | lost : '\n' ∈ r.name.toList → Relaid R (.ask r next) other

namespace Query.Relaid

variable {R : α → β → Prop} {S : γ → δ → Prop}

theorem bind {q : Query α} {q' : Query β} {f : α → Query γ} {g : β → Query δ}
    (relaid : q.Relaid R q') (rest : ∀ a b, R a b → (f a).Relaid S (g b)) :
    (q >>= f).Relaid S (q' >>= g) := by
  induction relaid with
  | done related => exact rest _ _ related
  | fail => exact .fail
  | ask _ ih => exact .ask ih
  | lost feed => exact .lost feed

theorem refl {R : α → α → Prop} (same : ∀ a, R a a) (q : Query α) : q.Relaid R q := by
  induction q with
  | done a => exact .done (same a)
  | fail fault => exact .fail
  | ask r next ih => exact .ask ih

theorem ofExcept {first : Except Fault α} {second : Except Fault β}
    (related : ∀ a, first = .ok a → ∃ b, second = .ok b ∧ R a b) :
    (Query.ofExcept first).Relaid R (Query.ofExcept second) := by
  cases first with
  | error fault => exact .fail
  | ok a =>
    obtain ⟨b,rfl,holds⟩ := related a rfl
    exact .done holds

theorem mapM {f : γ → Query α} {g : δ → Query β} {as : List γ} {bs : List δ}
    (each : List.Forall₂ (fun a b => (f a).Relaid R (g b)) as bs) :
    (as.mapM f).Relaid (List.Forall₂ R) (bs.mapM g) := by
  induction each with
  | nil => exact .done .nil
  | cons first _ ih =>
    rw [List.mapM_cons, List.mapM_cons]
    exact first.bind fun a b related => ih.bind fun as bs others => .done (.cons related others)

end Query.Relaid

theorem Sign.apply_relaid (sign : Sign) {v w : Value} (relaid : v.Relaid w) :
    (Query.ofExcept (sign.apply v)).Relaid Value.Relaid (Query.ofExcept (sign.apply w)) := by
  cases relaid with
  | same => exact .refl (fun _ => .same) _
  | text => exact .fail

theorem Operator.apply_relaid (operator : Operator) {v w v' w' : Value} (left : v.Relaid w)
    (right : v'.Relaid w') :
    (Query.ofExcept (operator.apply v v')).Relaid Value.Relaid
      (Query.ofExcept (operator.apply w w')) := by
  cases left with
  | same =>
    cases right with
    | same => exact .refl (fun _ => .same) _
    | text alike =>
      cases v with
      | text s =>
        cases operator with
        | add => exact .done (.text ((Alike.refl s).append alike))
        | sub | mul | div => exact .fail
      | int | float => exact .fail
  | @text s other alike =>
    cases right with
    | same =>
      cases v' with
      | text s' =>
        cases operator with
        | add => exact .done (.text (alike.append (.refl s')))
        | sub | mul | div => exact .fail
      | int | float => exact .fail
    | text alike' =>
      cases operator with
      | add => exact .done (.text (alike.append alike'))
      | sub | mul | div => exact .fail

namespace Binding

variable {R : α → β → Prop} {slots filled : List (Option α)} {others : List (Option β)}

theorem positional_relaid (count : Nat) (each : List.Forall₂ R as bs) :
    List.Forall₂ (Option.Rel R) (positional count as) (positional count bs) := by
  induction count generalizing as bs with
  | zero => exact .nil
  | succ count ih =>
    cases each with
    | nil => exact .cons .none (ih .nil)
    | cons first rest => exact .cons (.some first) (ih rest)

/-- An empty slot is empty in both lists, and filling it keeps them related. -/
theorem slot_relaid (each : List.Forall₂ (Option.Rel R) slots others) (related : R a b)
    (empty : slots[index]? = some none) : others[index]? = some none ∧
      List.Forall₂ (Option.Rel R) (slots.set index (some a)) (others.set index (some b)) := by
  induction each generalizing index with
  | nil => simp at empty
  | cons first rest ih =>
    cases index with
    | zero =>
      obtain rfl : _ = none := by simpa using empty
      cases first
      exact ⟨rfl,.cons (.some related) rest⟩
    | succ index =>
      obtain ⟨empty',others⟩ := ih (by simpa using empty)
      exact ⟨by simpa using empty',.cons first others⟩

theorem keyword_relaid (each : List.Forall₂ (Option.Rel R) slots others) (related : R a b)
    (put : keyword function parameters slots name a = .ok filled) :
    ∃ filled', keyword function parameters others name b = .ok filled' ∧
      List.Forall₂ (Option.Rel R) filled filled' := by
  unfold keyword at put ⊢
  split at put
  · cases put
  · split at put
    · next empty =>
      cases put
      obtain ⟨empty',both⟩ := slot_relaid each related empty
      exact ⟨_,by rw [empty'],both⟩
    · cases put

/-- Keyword arguments with the same names. -/
def Named (R : α → β → Prop) : List (String × α) → List (String × β) → Prop :=
  List.Forall₂ fun entry other => entry.1 = other.1 ∧ R entry.2 other.2

theorem keywords_relaid (each : List.Forall₂ (Option.Rel R) slots others)
    (eachNamed : Named R named named')
    (put : keywords function parameters slots named = .ok filled) :
    ∃ filled', keywords function parameters others named' = .ok filled' ∧
      List.Forall₂ (Option.Rel R) filled filled' := by
  induction eachNamed generalizing slots others with
  | nil =>
    cases put
    exact ⟨others,rfl,each⟩
  | cons first _ ih =>
    obtain ⟨next,put,rest⟩ := bind_ok_iff.mp put
    obtain ⟨next',put',both⟩ := keyword_relaid each first.2 put
    obtain ⟨filled',rest',all⟩ := ih both rest
    exact ⟨filled',bind_ok_iff.mpr ⟨next',first.1 ▸ put',rest'⟩,all⟩

theorem filled_eq (each : List.Forall₂ (Option.Rel R) slots others) (count : Nat) :
    (slots.take count).all Option.isSome = (others.take count).all Option.isSome := by
  induction each generalizing count with
  | nil => simp
  | cons first _ ih =>
    cases count with
    | zero => rfl
    | succ count => cases first <;> simp [ih count]

theorem bind_relaid (each : List.Forall₂ R as bs) (eachNamed : Named R named named')
    (bound : bind function parameters as named = .ok filled) :
    ∃ filled', bind function parameters bs named' = .ok filled' ∧
      List.Forall₂ (Option.Rel R) filled filled' := by
  unfold bind at bound ⊢
  rw [← each.length_eq, ← eachNamed.length_eq]
  split at bound
  · cases bound
  · next fits =>
    rw [if_neg fits]
    obtain ⟨slots,put,checked⟩ := bind_ok_iff.mp bound
    obtain ⟨slots',put',both⟩ :=
      keywords_relaid (positional_relaid parameters.length each) eachNamed put
    split at checked
    · next full =>
      cases checked
      rw [filled_eq both] at full
      exact ⟨slots',bind_ok_iff.mpr ⟨slots',put',if_pos full⟩,both⟩
    · cases checked

end Binding

structure Operand.Relaid (operand other : Operand) : Prop where
  value : operand.value.Relaid Value.Relaid other.value
  text : operand.text.Relaid Alike other.text

namespace Operand.Relaid

variable {operand other : Operand}

theorem int (relaid : operand.Relaid other) (function : Function) :
    (operand.int function).Relaid Eq (other.int function) := by
  refine relaid.value.bind fun v w related => ?_
  cases related with
  | same => exact .refl (fun _ => rfl) _
  | text => exact .fail

theorem number (relaid : operand.Relaid other) (function : Function) :
    (operand.number function).Relaid Eq (other.number function) := by
  refine relaid.value.bind fun v w related => ?_
  rw [related.float?_eq]
  exact .refl (fun _ => rfl) _

end Operand.Relaid

theorem Packing.blend_lineFeed (feed : '\n' ∈ mode.toList) (fraction : Float) :
    ∃ fault, blend mode fraction = .error fault := by
  have missing : blendModes.lookup mode = none := by
    rw [List.lookup_eq_none_iff]
    intro entry member
    have plain : '\n' ∉ entry.1.toList := by
      revert entry
      decide
    simpa using fun same : mode = entry.1 => plain (same ▸ feed)
  unfold blend
  simp only [missing]
  split <;> exact ⟨_,rfl⟩

namespace Placement

structure Relaid (p other : Placement) : Prop where
  target : Alike p.target other.target
  coordinates : List.Forall₂ (Option.Rel Alike) p.coordinates other.coordinates
  condition : Option.Rel Alike p.condition other.condition
  add : Option.Rel Alike p.add other.add
  sub : Option.Rel Alike p.sub other.sub
  otherwise : Option.Rel Alike p.otherwise other.otherwise

theorem words_eq (alike : Alike s other) : words s = words other := by
  rw [words, words, Relaid.words_eq alike]

theorem getD_alike {text other : Option String} (related : Option.Rel Alike text other)
    (default : String) : Alike (text.getD default) (other.getD default) := by
  cases related with
  | none => exact .refl default
  | some alike => exact alike

theorem join_alike (each : List.Forall₂ (Option.Rel Alike) texts others) (index : Nat) :
    Option.Rel Alike texts[index]?.join others[index]?.join := by
  induction each generalizing index with
  | nil => exact .none
  | cons first _ ih =>
    cases index with
    | zero => exact first
    | succ index => exact ih index

theorem wrapped_alike (operator : String) (inner : Alike s other)
    (part : Option.Rel Alike text text') :
    Alike (wrapped operator s text) (wrapped operator other text') := by
  cases part with
  | none => exact inner
  | some alike =>
    exact ((((Alike.refl operator).append (.refl " ")).append inner).append (.refl " ")).append alike

theorem intercalate_alike (separator : String) (each : List.Forall₂ Alike ss others) :
    Alike (String.intercalate separator ss) (String.intercalate separator others) := by
  induction each with
  | nil => exact .refl _
  | cons first rest ih =>
    cases rest with
    | nil => rwa [String.intercalate_singleton, String.intercalate_singleton]
    | cons _ _ =>
      rw [String.intercalate_cons_cons, String.intercalate_cons_cons]
      exact (first.append (.refl separator)).append ih

theorem forall₂_replicate {R : α → β → Prop} (related : R a b) (count : Nat) :
    List.Forall₂ R (List.replicate count a) (List.replicate count b) := by
  induction count with
  | zero => exact .nil
  | succ count ih => exact .cons related ih

theorem coordinateWords_eq {p other : Placement}
    (coordinates : List.Forall₂ (Option.Rel Alike) p.coordinates other.coordinates) :
    p.coordinateWords = other.coordinateWords := by
  unfold coordinateWords
  generalize p.coordinates = texts, other.coordinates = texts' at coordinates
  generalize Function.coordinates = names
  induction coordinates generalizing names with
  | nil => simp
  | cons first _ ih =>
    cases names with
    | nil => rfl
    | cons name names =>
      simp only [List.zip_cons_cons, List.map_cons, ih names, words_eq (getD_alike first "")]

theorem Relaid.body {p other : Placement} (relaid : p.Relaid other) : Alike p.body other.body := by
  have items : p.items = other.items := by rw [items, items, coordinateWords_eq relaid.coordinates]
  have list : Alike (wrapped "-" (wrapped "+" (bracketed p.items) p.add) p.sub)
      (wrapped "-" (wrapped "+" (bracketed other.items) other.add) other.sub) :=
    wrapped_alike "-" (wrapped_alike "+" (items ▸ .refl _) relaid.add) relaid.sub
  have fallback := getD_alike relaid.otherwise emptyList
  have condition := relaid.condition
  unfold Placement.body
  generalize p.condition = text, other.condition = text' at condition
  cases condition with
  | none => exact list
  | some alike =>
    dsimp only
    rw [words_eq alike]
    refine (((alike.append (.refl " ")).append list).append (.refl " ")).append ?_
    exact intercalate_alike " " (forall₂_replicate fallback _)

theorem Relaid.render {p other : Placement} (relaid : p.Relaid other) :
    Alike p.render other.render := by
  have lines : p.hoistedLines = other.hoistedLines := by
    rw [hoistedLines, hoistedLines, coordinateWords_eq relaid.coordinates]
  rw [Placement.render, Placement.render, lines]
  refine intercalate_alike "\n" (List.rel_append ?_ (.cons ?_ .nil))
  · exact List.forall₂_same.mpr fun line _ => .refl line
  · exact (((Alike.refl "set ").append relaid.target).append (.refl " ")).append relaid.body

end Placement

namespace Function

variable (function : Function) {arguments others : List Operand}
  {named named' : List (String × Operand)}
  (each : List.Forall₂ Operand.Relaid arguments others)
  (eachNamed : Binding.Named Operand.Relaid named named')

include each eachNamed

theorem slots_relaid : (function.slots arguments named).Relaid
    (List.Forall₂ (Option.Rel Operand.Relaid)) (function.slots others named') :=
  .ofExcept fun _ bound => Binding.bind_relaid each eachNamed bound

theorem integers_relaid :
    (function.integers arguments named).Relaid Eq (function.integers others named') := by
  refine (slots_relaid function each eachNamed).bind fun slots slots' both => ?_
  have operands : List.Forall₂ Operand.Relaid (slots.filterMap id) (slots'.filterMap id) :=
    List.rel_filterMap (fun _ _ related => related) both
  have equal := Query.Relaid.mapM (operands.imp fun _ _ relaid => relaid.int function)
  rwa [List.forall₂_eq_eq_eq] at equal

theorem texts_relaid : (function.texts arguments named).Relaid
    (List.Forall₂ (Option.Rel Alike)) (function.texts others named') := by
  refine (slots_relaid function each eachNamed).bind fun slots slots' both => ?_
  refine .mapM (both.imp fun slot slot' related => ?_)
  cases related with
  | none => exact .done .none
  | some relaid => exact relaid.text.bind fun _ _ alike => .done (.some alike)

theorem apply_relaid :
    (function.apply arguments named).Relaid Value.Relaid (function.apply others named') := by
  have integers := integers_relaid function each eachNamed
  have slots := slots_relaid function each eachNamed
  have same (q : Query Value) : q.Relaid Value.Relaid q := .refl (fun _ => .same) q
  cases function with
  | rgb | nrgb | rgba | arr | rev =>
    refine integers.bind fun values _ equal => ?_
    subst equal
    split
    · exact same _
    · exact .fail
  | hex =>
    cases eachNamed with
    | cons _ _ => exact .fail
    | nil =>
      unfold apply
      dsimp only
      split
      · exact .fail
      · next some =>
        have some' : ¬others.isEmpty = true := by
          cases each with
          | nil => exact absurd rfl some
          | cons => exact Bool.false_ne_true
        rw [if_neg some']
        have bytes := Query.Relaid.mapM (each.imp fun _ _ relaid => relaid.int .hex)
        rw [List.forall₂_eq_eq_eq] at bytes
        refine bytes.bind fun bytes _ equal => ?_
        subst equal
        exact same _
  | blend =>
    refine slots.bind fun slots slots' both => ?_
    split
    · rename_i mode fraction
      rcases both with _ | ⟨⟨mode⟩,_ | ⟨⟨fraction⟩,⟨⟩⟩⟩
      refine mode.text.bind fun text other alike => (fraction.number _).bind fun x _ equal => ?_
      subst equal
      rcases alike.eq_or with rfl | feed
      · exact same _
      · obtain ⟨fault,failed⟩ := Packing.blend_lineFeed feed x
        rw [failed]
        exact .fail
    · exact .fail
  | set =>
    refine (texts_relaid _ each eachNamed).bind fun texts texts' both => ?_
    cases both with
    | nil => exact .fail
    | cons target rest =>
      have later := Placement.join_alike rest
      refine .done (.text (Placement.Relaid.render ⟨?_,?_,later 8,later 9,later 10,later 11⟩))
      · exact Placement.getD_alike target ""
      · exact List.forall₂_take 8 rest
  | constant | preset =>
    refine slots.bind fun slots slots' both => ?_
    split
    · rename_i name
      rcases both with _ | ⟨⟨name⟩,⟨⟩⟩
      refine name.text.bind fun text other alike => ?_
      rcases alike.eq_or with rfl | feed
      · exact .ask fun value => .done .same
      · exact .lost feed
    · exact .fail

end Function

namespace Expr

theorem textWith_relaid {e e' : Expr} (relaid : e.Relaid e')
    (value : e.value.Relaid Value.Relaid e'.value) :
    (e.textWith e.value).Relaid Alike (e'.textWith e'.value) := by
  have shown := value.bind (S := Alike) (f := fun v => .done v.result) (g := fun v => .done v.result)
    fun v w related => .done related.result
  cases relaid with
  | symbol => exact .done (.refl _)
  | _ => exact shown

def CallsAlike (e e' : Expr) : Prop :=
  ∀ function more named more' named', e = .call function more named →
    e' = .call function more' named' → List.Forall₂ Operand.Relaid (operands more) (operands more') ∧
      Binding.Named Operand.Relaid (keywordOperands named) (keywordOperands named')

theorem CallsAlike.value (alike : CallsAlike (.call function more named) (.call function more' named')) :
    (Expr.call function more named).value.Relaid Value.Relaid
      (Expr.call function more' named').value := by
  obtain ⟨each,eachNamed⟩ := alike function more named more' named' rfl rfl
  rw [Expr.value, Expr.value]
  exact function.apply_relaid each eachNamed

theorem Relaid.value {e e' : Expr} (relaid : e.Relaid e') :
    e.value.Relaid Value.Relaid e'.value ∧ CallsAlike e e' := by
  induction relaid with
  | int | float =>
    refine ⟨?_,nofun⟩
    rw [Expr.value]
    exact .done .same
  | text alike =>
    refine ⟨?_,nofun⟩
    rw [Expr.value, Expr.value]
    exact .done (.text alike)
  | symbol => exact ⟨.refl (fun _ => .same) _,nofun⟩
  | unary _ ih =>
    refine ⟨?_,nofun⟩
    rw [Expr.value, Expr.value]
    exact ih.1.bind fun v w related => Sign.apply_relaid _ related
  | binary _ _ ih ih' =>
    refine ⟨?_,nofun⟩
    rw [Expr.value, Expr.value]
    exact ih.1.bind fun v w left => ih'.1.bind fun v' w' right =>
      Operator.apply_relaid _ left right
  | noArgument =>
    refine (fun alike => ⟨CallsAlike.value alike,alike⟩) ?_
    rintro _ _ _ _ _ ⟨⟩ ⟨⟩
    exact ⟨.nil,.nil⟩
  | positional relaid _ ih others =>
    refine (fun alike => ⟨CallsAlike.value alike,alike⟩) ?_
    rintro function _ named _ named' ⟨⟩ ⟨⟩
    obtain ⟨each,eachNamed⟩ := others.2 _ _ _ _ _ rfl rfl
    rw [operands, operands]
    exact ⟨.cons ⟨ih.1,textWith_relaid relaid ih.1⟩ each,eachNamed⟩
  | keyword relaid _ ih others =>
    refine (fun alike => ⟨CallsAlike.value alike,alike⟩) ?_
    rintro function _ _ _ _ ⟨⟩ ⟨⟩
    obtain ⟨each,eachNamed⟩ := others.2 _ _ _ _ _ rfl rfl
    rw [keywordOperands, keywordOperands]
    exact ⟨each,.cons ⟨rfl,ih.1,textWith_relaid relaid ih.1⟩ eachNamed⟩

end Expr

namespace Tables

variable {t : Tables}

def Unfed (t : Tables) : Prop := ∀ r : Reference, '\n' ∈ r.name.toList → t.tree? r = none

theorem Yields.relaid (yields : t.Yields q (.ok v)) (unfed : t.Unfed)
    (relaid : q.Relaid Value.Relaid q') : ∃ w, t.Yields q' (.ok w) ∧ v.Relaid w := by
  generalize found : (Except.ok v : Except Fault Value) = result at yields
  induction yields generalizing q' with
  | done =>
    cases found
    cases relaid with
    | done related => exact ⟨_,.done,related⟩
  | fail | lost | unreadable | failing => cases found
  | answered tree inner _ _ ih =>
    cases relaid with
    | lost feed => cases (unfed _ feed).symm.trans tree
    | ask others =>
      obtain ⟨w,rest,related⟩ := ih (others _) found
      exact ⟨w,.answered tree inner rest,related⟩

theorem Evaluates.relaid (evaluates : t.Evaluates source (.ok v)) (unfed : t.Unfed)
    (alike : Alike source other) : ∃ w, t.Evaluates other (.ok w) ∧ v.Relaid w := by
  cases evaluates with
  | tree read yields =>
    obtain ⟨e',read',relaid⟩ := Expr.parse_relaid read alike
    obtain ⟨w,yields',related⟩ := yields.relaid unfed relaid.value.1
    exact ⟨w,.tree read' yields',related⟩

end Tables

end ThemeForge
