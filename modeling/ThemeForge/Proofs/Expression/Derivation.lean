import ThemeForge.Expression.Grammar

/-!
# Derivations

The grammar of expressions as a relation between tokens and the trees that they stand for. It knows
nothing of reading: a phrase is any way of putting its parts one after another. A derivation also
tells the highest level that it reaches. No tokens have two derivations.
-/

namespace ThemeForge

/-- The two kinds of chains of operands with operators between them. -/
inductive Chain
  | sum
  | product

/-- The phrases of the grammar. Of a chain there is also the rest after its first operands, and of a
call what follows its opening parenthesis, with the closing one. -/
inductive Phrase
  | chain (kind : Chain)
  | rest (kind : Chain) (left : Expr)
  | signed
  | primary
  | arguments (function : Function)
  | keywords (function : Function)

namespace Chain

def operator? : Chain → Token → Option Operator
  | .sum => Expr.sumOperator?
  | .product => Expr.productOperator?

def operand : Chain → Phrase
  | .sum => .chain .product
  | .product => .signed

end Chain

namespace Phrase

/-- Tokens derive a tree as a phrase that starts at `level`, and `top` is the highest level of the
derivation. Each operand of a chain starts one level above the one before it. A sign or a primary
lies one level above the start of its operand or above the sign before it, and what is inside
parentheses starts at the level of the primary. -/
inductive Derives : Phrase → (level : Nat) → List Token → Expr → (top : Nat) → Prop
  | chain : Derives kind.operand d first left t → Derives (.rest kind left) d others e u →
      Derives (.chain kind) d (first ++ others) e (max t u)
  | last : Derives (.rest kind left) d [] left d
  | operand : kind.operator? token = some operator →
      Derives kind.operand (d + 1) next right t →
      Derives (.rest kind (.binary operator left right)) (d + 1) others e u →
      Derives (.rest kind left) d (token :: (next ++ others)) e (max t u)
  | sign : Expr.sign? token = some sign → Derives .signed (d + 1) tokens e t →
      Derives .signed d (token :: tokens) (.unary sign e) t
  | unsigned : Derives .primary (d + 1) tokens e t → Derives .signed d tokens e t
  | int : Derives .primary d [.int value] (.int value) d
  | float : Derives .primary d [.float value] (.float value) d
  | text : Derives .primary d [.text value] (.text value) d
  | symbol : Derives .primary d [.name name] (.symbol name) d
  | parentheses : Derives (.chain .sum) d inside e t →
      Derives .primary d (.leftParen :: (inside ++ [.rightParen])) e t
  | call : Derives (.arguments function) d inside e t →
      Derives .primary d (.name function.name :: .leftParen :: inside) e t
  | lastPositional : Derives (.chain .sum) d argument e t →
      Derives (.arguments function) d (argument ++ [.rightParen]) (.call function [e] []) t
  | positional : Derives (.chain .sum) d argument e t →
      Derives (.arguments function) d others (.call function more named) u →
      Derives (.arguments function) d (argument ++ .comma :: others)
        (.call function (e :: more) named) (max t u)
  | onlyKeywords : Derives (.keywords function) d tokens e t →
      Derives (.arguments function) d tokens e t
  | noKeyword : Derives (.keywords function) d [.rightParen] (.call function [] []) d
  | lastKeyword : Derives (.chain .sum) d argument e t →
      Derives (.keywords function) d (.name name :: .assign :: (argument ++ [.rightParen]))
        (.call function [] [(name,e)]) t
  | keyword : Derives (.chain .sum) d argument e t →
      Derives (.keywords function) d others (.call function [] named) u →
      Derives (.keywords function) d (.name name :: .assign :: (argument ++ .comma :: others))
        (.call function [] ((name,e) :: named)) (max t u)

end Phrase

def Chain.MayPrecede : Chain → Token → Prop
  | .sum, token => token = .rightParen ∨ token = .comma
  | .product, token =>
    (token = .rightParen ∨ token = .comma) ∨ (Expr.sumOperator? token).isSome

namespace Phrase

/-- The tokens that can stand right after a phrase. After the end of a call anything can. -/
def MayPrecede : Phrase → Token → Prop
  | .chain kind, token | .rest kind _, token => kind.MayPrecede token
  | .signed, token | .primary, token =>
    Chain.product.MayPrecede token ∨ (Expr.productOperator? token).isSome
  | .arguments _, _ | .keywords _, _ => True

def Before (p : Phrase) (tokens : List Token) : Prop := ∀ token ∈ tokens.head?, p.MayPrecede token

def IsExpression : Phrase → Prop
  | .chain _ | .signed | .primary => True
  | _ => False

/-- Tokens that start neither with a closing parenthesis nor like a keyword argument. -/
structure Positional (tokens : List Token) : Prop where
  opened : ∀ others, tokens ≠ .rightParen :: others
  unnamed : ∀ name others, tokens ≠ .name name :: .assign :: others

variable {p : Phrase} {kind : Chain} {token : Token} {tokens : List Token}

theorem positional_or (tokens : List Token) :
    (∃ others, tokens = .rightParen :: others) ∨
      (∃ name others, tokens = .name name :: .assign :: others) ∨ Positional tokens := by
  by_cases closing : ∃ others, tokens = .rightParen :: others
  · exact .inl closing
  · by_cases named : ∃ name others, tokens = .name name :: .assign :: others
    · exact .inr (.inl named)
    · refine .inr (.inr ⟨?_,?_⟩)
      · exact fun others same => closing ⟨others,same⟩
      · exact fun name others same => named ⟨name,others,same⟩

theorem operand_isExpression (kind : Chain) : kind.operand.IsExpression := by
  cases kind <;> trivial

theorem before_nil (p : Phrase) : p.Before [] := nofun

theorem before_cons : p.Before (token :: tokens) ↔ p.MayPrecede token := by
  simp [Before]

theorem before_closing (tokens : List Token) : (chain .sum).Before (.rightParen :: tokens) :=
  before_cons.mpr (.inl rfl)

theorem before_comma (tokens : List Token) : (chain .sum).Before (.comma :: tokens) :=
  before_cons.mpr (.inr rfl)

theorem mayPrecede_operand (may : kind.MayPrecede token) : kind.operand.MayPrecede token := by
  cases kind <;> exact .inl may

theorem mayPrecede_operator (operator : kind.operator? token = some o) :
    kind.operand.MayPrecede token := by
  cases kind <;> exact .inr (Option.isSome_of_eq_some operator)

theorem mayPrecede_primary (may : kind.operand.MayPrecede token) : primary.MayPrecede token := by
  cases kind with
  | sum => exact .inl may
  | product => exact may

theorem operator?_eq_none (may : kind.MayPrecede token) : kind.operator? token = none := by
  cases kind <;> cases token <;>
    simp_all [Chain.MayPrecede, Chain.operator?, Expr.sumOperator?, Expr.productOperator?]

theorem before_operand (before : (chain kind).Before tokens) : kind.operand.Before tokens :=
  fun token first => mayPrecede_operand (before token first)

/-- The tokens that can follow a primary are neither a parenthesis that opens nor an equals sign. -/
theorem primary_before {others : List Token} (before : primary.Before tokens) :
    tokens ≠ .leftParen :: others ∧ tokens ≠ .assign :: others := by
  constructor
  all_goals
    rintro rfl
    have may := before_cons.mp before
    simp [MayPrecede, Chain.MayPrecede, Expr.sumOperator?, Expr.productOperator?] at may

theorem sign_positional (sign : Expr.sign? token = some s) (tokens : List Token) :
    Positional (token :: tokens) := by
  refine ⟨?_,?_⟩
  · rintro others same
    cases same
    cases sign
  · rintro name others same
    cases same
    cases sign

theorem eq_of_name {f g : Function} (same : f.name = g.name) : f = g := by
  rw [← Option.some_inj, ← Function.named?_name f, same, Function.named?_name]

namespace Derives

variable {d t : Nat} {e left : Expr} {ts r : List Token}

theorem before_operand (others : Derives (.rest kind left) d ts e t)
    (before : (Phrase.chain kind).Before r) : kind.operand.Before (ts ++ r) := by
  cases others with
  | last => exact Phrase.before_operand before
  | operand operator => exact before_cons.mpr (mayPrecede_operator operator)

theorem before_primary (others : Derives (.rest kind left) d ts e t)
    (before : Phrase.primary.Before r) : Phrase.primary.Before (ts ++ r) := by
  cases others with
  | last => exact before
  | operand operator => exact before_cons.mpr (mayPrecede_primary (mayPrecede_operator operator))

theorem level_le_top (derives : Derives p d ts e t) : d ≤ t := by
  induction derives with
  | sign _ _ ih | unsigned _ ih => exact Nat.le_of_succ_le ih
  | _ => omega

/-- An expression does not start like anything else between the parentheses of a call. -/
theorem starts_positional (derives : Derives p d ts e t) (whole : p.IsExpression)
    (before : Phrase.primary.Before r) : Positional (ts ++ r) := by
  induction derives generalizing r with
  | chain _ others first _ =>
    rw [List.append_assoc]
    exact first (operand_isExpression _) (others.before_primary before)
  | sign sign => exact sign_positional sign _
  | unsigned _ inner => exact inner trivial before
  | symbol =>
    refine ⟨nofun,?_⟩
    rintro name others same
    exact (primary_before before).2 (List.cons.inj same).2
  | int | float | text | parentheses => exact ⟨nofun,nofun⟩
  | call =>
    refine ⟨nofun,?_⟩
    rintro name others same
    cases (List.cons.inj same).2
  | _ => cases whole

theorem unsigned_start (derives : Derives .primary d ts e t) (sign : Expr.sign? token = some s)
    (tokens : List Token) : ts ++ r ≠ token :: tokens := by
  rintro same
  cases derives <;> cases same <;> cases sign

theorem argument_positional (derives : Derives (.chain .sum) d ts e t)
    (before : (Phrase.chain .sum).Before r) : Positional (ts ++ r) :=
  derives.starts_positional trivial fun token first =>
    mayPrecede_primary (Phrase.before_operand before token first)

theorem not_positional (derives : Derives (.keywords function) d ts e t) :
    ¬Positional (ts ++ r) := by
  intro positional
  cases derives with
  | noKeyword => exact positional.opened _ rfl
  | lastKeyword | keyword => exact positional.unnamed _ _ rfl

/-- Whatever derivation tokens have that start like a phrase, it is the one of these tokens. -/
def Unique (p : Phrase) (d : Nat) (ts : List Token) (e : Expr) (t : Nat) : Prop :=
  ∀ ⦃ts' r r' e' t'⦄, Derives p d ts' e' t' → ts ++ r = ts' ++ r' → p.Before r → p.Before r' →
    ts = ts' ∧ e = e' ∧ t = t'

namespace Unique

variable {ts' r' : List Token} {e' : Expr} {t' : Nat} {function : Function}

theorem argument {after after' : Token} (unique : Unique (.chain .sum) d ts e t)
    (other : Derives (.chain .sum) d ts' e' t') (same : ts ++ after :: r = ts' ++ after' :: r')
    (ends : Chain.sum.MayPrecede after) (ends' : Chain.sum.MayPrecede after') :
    (ts = ts' ∧ e = e' ∧ t = t') ∧ after = after' ∧ r = r' := by
  obtain ⟨rfl,rfl,rfl⟩ := unique other same (before_cons.mpr ends) (before_cons.mpr ends')
  exact ⟨⟨rfl,rfl,rfl⟩,List.cons.inj (List.append_cancel_left same)⟩

theorem lastPositional (derives : Derives (.chain .sum) d ts e t)
    (unique : Unique (.chain .sum) d ts e t) :
    Unique (.arguments function) d (ts ++ [.rightParen]) (.call function [e] []) t := by
  intro ts' r r' e' t' other same _ _
  rw [List.append_assoc] at same
  cases other with
  | lastPositional argument' =>
    rw [List.append_assoc] at same
    obtain ⟨⟨rfl,rfl,rfl⟩,_⟩ := unique.argument argument' same (.inl rfl) (.inl rfl)
    exact ⟨rfl,rfl,rfl⟩
  | positional argument' =>
    rw [List.append_assoc] at same
    cases (unique.argument argument' same (.inl rfl) (.inr rfl)).2.1
  | onlyKeywords keywords =>
    exact absurd (same ▸ derives.argument_positional (before_closing _))
      keywords.not_positional

theorem positional (derives : Derives (.chain .sum) d ts e t)
    (unique : Unique (.chain .sum) d ts e t)
    (others : Unique (.arguments function) d more (.call function es named) u) :
    Unique (.arguments function) d (ts ++ .comma :: more) (.call function (e :: es) named)
      (max t u) := by
  intro ts' r r' e' t' other same before before'
  rw [List.append_assoc] at same
  cases other with
  | lastPositional argument' =>
    rw [List.append_assoc] at same
    cases (unique.argument argument' same (.inr rfl) (.inl rfl)).2.1
  | positional argument' others' =>
    rw [List.append_assoc] at same
    obtain ⟨⟨rfl,rfl,rfl⟩,_,tail⟩ := unique.argument argument' same (.inr rfl) (.inr rfl)
    obtain ⟨rfl,call,rfl⟩ := others others' tail before before'
    cases call
    exact ⟨rfl,rfl,rfl⟩
  | onlyKeywords keywords =>
    exact absurd (same ▸ derives.argument_positional (before_comma _))
      keywords.not_positional

theorem onlyKeywords (derives : Derives (.keywords function) d ts e t)
    (unique : Unique (.keywords function) d ts e t) : Unique (.arguments function) d ts e t := by
  intro ts' r r' e' t' other same before before'
  cases other with
  | onlyKeywords keywords' => exact unique keywords' same before before'
  | lastPositional argument =>
    rw [List.append_assoc] at same
    exact absurd (same ▸ argument.argument_positional (before_closing _))
      derives.not_positional
  | positional argument =>
    rw [List.append_assoc] at same
    exact absurd (same ▸ argument.argument_positional (before_comma _))
      derives.not_positional

theorem lastKeyword (unique : Unique (.chain .sum) d ts e t) :
    Unique (.keywords function) d (.name name :: .assign :: (ts ++ [.rightParen]))
      (.call function [] [(name,e)]) t := by
  intro ts' r r' e' t' other same _ _
  cases other with
  | noKeyword => cases same
  | lastKeyword argument' =>
    simp only [List.cons_append, List.append_assoc, List.cons.injEq, true_and] at same
    obtain ⟨name,tail⟩ := same
    cases name
    obtain ⟨⟨rfl,rfl,rfl⟩,_⟩ := unique.argument argument' tail (.inl rfl) (.inl rfl)
    exact ⟨rfl,rfl,rfl⟩
  | keyword argument' =>
    simp only [List.cons_append, List.append_assoc, List.cons.injEq, true_and] at same
    cases (unique.argument argument' same.2 (.inl rfl) (.inr rfl)).2.1

theorem keyword (unique : Unique (.chain .sum) d ts e t)
    (others : Unique (.keywords function) d more (.call function [] named) u) :
    Unique (.keywords function) d (.name name :: .assign :: (ts ++ .comma :: more))
      (.call function [] ((name,e) :: named)) (max t u) := by
  intro ts' r r' e' t' other same before before'
  cases other with
  | noKeyword => cases same
  | lastKeyword argument' =>
    simp only [List.cons_append, List.append_assoc, List.cons.injEq, true_and] at same
    cases (unique.argument argument' same.2 (.inr rfl) (.inl rfl)).2.1
  | keyword argument' others' =>
    simp only [List.cons_append, List.append_assoc, List.cons.injEq, true_and] at same
    obtain ⟨name,tail⟩ := same
    cases name
    obtain ⟨⟨rfl,rfl,rfl⟩,_,tail⟩ := unique.argument argument' tail (.inr rfl) (.inr rfl)
    obtain ⟨rfl,call,rfl⟩ := others others' tail before before'
    cases call
    exact ⟨rfl,rfl,rfl⟩

end Unique

/-- Tokens have at most one derivation as a phrase, also where more tokens follow. -/
theorem unique (derives : Derives p d ts e t) : Unique p d ts e t := by
  -- The other derivation must end in the same rule: the first token tells which, or the first two
  -- of a name, or what may not follow the phrase.
  induction derives with
  | chain _ more ihFirst ihMore =>
    intro ts' r r' e' t' other same before before'
    cases other with
    | chain first more' =>
      rw [List.append_assoc, List.append_assoc] at same
      obtain ⟨rfl,rfl,rfl⟩ := ihFirst first same (more.before_operand before)
        (more'.before_operand before')
      obtain ⟨rfl,rfl,rfl⟩ := ihMore more' (List.append_cancel_left same) before before'
      exact ⟨rfl,rfl,rfl⟩
  | last =>
    intro ts' r r' e' t' other same before _
    cases other with
    | last => exact ⟨rfl,rfl,rfl⟩
    | operand operator =>
      subst same
      cases (operator?_eq_none (before_cons.mp before)).symm.trans operator
  | operand operator _ more ihNext ihMore =>
    intro ts' r r' e' t' other same before before'
    cases other with
    | last =>
      subst same
      cases (operator?_eq_none (before_cons.mp before')).symm.trans operator
    | operand operator' next more' =>
      simp only [List.cons_append, List.append_assoc, List.cons.injEq] at same
      obtain ⟨rfl,tail⟩ := same
      obtain rfl := Option.some.inj (operator.symm.trans operator')
      obtain ⟨rfl,rfl,rfl⟩ := ihNext next tail (more.before_operand before)
        (more'.before_operand before')
      obtain ⟨rfl,rfl,rfl⟩ := ihMore more' (List.append_cancel_left tail) before before'
      exact ⟨rfl,rfl,rfl⟩
  | sign sign _ ih =>
    intro ts' r r' e' t' other same before before'
    cases other with
    | sign sign' tokens =>
      obtain ⟨rfl,tail⟩ := List.cons.inj same
      obtain rfl := Option.some.inj (sign.symm.trans sign')
      obtain ⟨rfl,rfl,rfl⟩ := ih tokens tail before before'
      exact ⟨rfl,rfl,rfl⟩
    | unsigned primary => exact absurd same.symm (primary.unsigned_start sign _)
  | unsigned primary ih =>
    intro ts' r r' e' t' other same before before'
    cases other with
    | sign sign => exact absurd same (primary.unsigned_start sign _)
    | unsigned primary' => exact ih primary' same before before'
  | int | float | text =>
    intro ts' r r' e' t' other same _ _
    cases other <;> simp_all
  | symbol =>
    intro ts' r r' e' t' other same before _
    cases other with
    | symbol => simp_all
    | call => exact absurd (List.cons.inj same).2 (primary_before before).1
    | _ => cases same
  | parentheses _ ih =>
    intro ts' r r' e' t' other same _ _
    cases other with
    | parentheses inner' =>
      simp only [List.cons_append, List.append_assoc, List.cons.injEq, true_and] at same
      obtain ⟨⟨rfl,rfl,rfl⟩,_⟩ := ih.argument inner' same (.inl rfl) (.inl rfl)
      exact ⟨rfl,rfl,rfl⟩
    | _ => cases same
  | call _ ih =>
    intro ts' r r' e' t' other same _ before'
    cases other with
    | call inner' =>
      obtain ⟨name,tail⟩ := List.cons.inj same
      obtain rfl := eq_of_name (Token.name.inj name)
      obtain ⟨rfl,rfl,rfl⟩ := ih inner' (List.cons.inj tail).2 (fun _ _ => trivial)
        fun _ _ => trivial
      exact ⟨rfl,rfl,rfl⟩
    | symbol => exact absurd (List.cons.inj same).2.symm (primary_before before').1
    | _ => cases same
  | lastPositional argument ih => exact ih.lastPositional argument
  | positional argument _ ih others => exact ih.positional argument others
  | onlyKeywords keywords ih => exact ih.onlyKeywords keywords
  | noKeyword =>
    intro ts' r r' e' t' other same _ _
    cases other <;> simp_all
  | lastKeyword _ ih => exact ih.lastKeyword
  | keyword _ _ ih others => exact ih.keyword others

end Derives

end Phrase
end ThemeForge
