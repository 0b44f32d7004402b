import ThemeForge.Proofs.Expression.Derivation
import ThemeForge.Proofs.Results

/-!
# Reading expressions

What is read from tokens is what they derive. For each phrase there is a reader; what one does in
terms of the others is stated once, and used in both directions.
-/

namespace ThemeForge

/-- A reader succeeds with a value and leaves the rest of its tokens. -/
def Takes {bound : Nat} (result : Except Fault (Parsed α bound)) (value : α) (after : List Token) :
    Prop :=
  ∃ read, result = .ok read ∧ read.value = value ∧ read.rest = after

section Readers

variable {value : α} {after : List Token}

theorem Takes.shorter {bound : Nat} {result : Except Fault (Parsed α bound)}
    (taken : Takes result value after) : after.length < bound := by
  obtain ⟨read,_,_,rfl⟩ := taken
  exact read.shorter

theorem takes_ok {bound : Nat} {read : Parsed α bound} :
    Takes (.ok read) value after ↔ read.value = value ∧ read.rest = after := by
  simp [Takes]

theorem not_takes_error {bound : Nat} {fault : Fault} :
    ¬Takes (.error fault : Except Fault (Parsed α bound)) value after := by
  rintro ⟨_,impossible,_⟩
  cases impossible

theorem takes_ok_bind {bound : Nat} {first : Except Fault β}
    {next : β → Except Fault (Parsed α bound)} :
    Takes (first >>= next) value after ↔ ∃ b, first = .ok b ∧ Takes (next b) value after := by
  constructor
  · rintro ⟨read,ran,same⟩
    obtain ⟨b,done,ran⟩ := bind_ok_iff.mp ran
    exact ⟨b,done,read,ran,same⟩
  · rintro ⟨b,done,read,ran,same⟩
    exact ⟨read,bind_ok_iff.mpr ⟨b,done,ran⟩,same⟩

/-- A reader that goes on after another one, with its value and what it left. -/
theorem takes_bind {m n : Nat} {first : Except Fault (Parsed β m)}
    {next : Parsed β m → Except Fault (Parsed α n)} {p : β → List Token → Prop}
    (goes : ∀ read, Takes (next read) value after ↔ p read.value read.rest) :
    Takes (first >>= next) value after ↔ ∃ b more, Takes first b more ∧ p b more := by
  rw [takes_ok_bind]
  constructor
  · rintro ⟨read,done,ran⟩
    exact ⟨read.value,read.rest,⟨read,done,rfl,rfl⟩,(goes read).mp ran⟩
  · rintro ⟨_,_,⟨read,done,rfl,rfl⟩,holds⟩
    exact ⟨read,done,(goes read).mpr holds⟩

theorem takes_map {m n : Nat} {first : Except Fault (Parsed β m)}
    {next : Parsed β m → Except Fault (Parsed α n)} {f : β → α}
    (made : ∀ read, ∃ shorter, next read = .ok ⟨f read.value,read.rest,shorter⟩) :
    Takes (first >>= next) value after ↔ ∃ b, Takes first b after ∧ f b = value := by
  have each : ∀ read, Takes (next read) value after ↔ f read.value = value ∧ read.rest = after := by
    intro read
    obtain ⟨shorter,same⟩ := made read
    rw [same, takes_ok]
  rw [takes_bind (p := fun b more => f b = value ∧ more = after) each]
  constructor
  · rintro ⟨b,_,taken,same,rfl⟩
    exact ⟨b,taken,same⟩
  · rintro ⟨b,taken,same⟩
    exact ⟨b,after,taken,same,rfl⟩

theorem takes_same {m n : Nat} {first : Except Fault (Parsed α m)}
    {next : Parsed α m → Except Fault (Parsed α n)}
    (made : ∀ read, ∃ shorter, next read = .ok ⟨read.value,read.rest,shorter⟩) :
    Takes (first >>= next) value after ↔ Takes first value after := by
  rw [takes_map (f := id) made]
  simp

theorem takes_deeper {bound : Nat} {d : Nat} {next : Nat → Except Fault (Parsed α bound)} :
    Takes (Expr.deeper d >>= next) value after ↔
      d + 1 ≤ maxDepth ∧ Takes (next (d + 1)) value after := by
  rw [takes_ok_bind]
  unfold Expr.deeper
  split
  · rename_i above
    simp [Nat.not_le.mpr above]
  · rename_i below
    simp [Nat.not_lt.mp below]

end Readers

namespace Phrase

/-- The reader of a phrase reads a tree from tokens. -/
def Reads : Phrase → Nat → List Token → Expr → List Token → Prop
  | .chain .sum, d, tokens, e, after => Takes (Expr.sum d tokens) e after
  | .chain .product, d, tokens, e, after => Takes (Expr.product d tokens) e after
  | .rest .sum left, d, tokens, e, after => Takes (Expr.moreTerms d left tokens) e after
  | .rest .product left, d, tokens, e, after => Takes (Expr.moreFactors d left tokens) e after
  | .signed, d, tokens, e, after => Takes (Expr.signed d tokens) e after
  | .primary, _, [], _, _ => False
  | .primary, d, token :: tokens, e, after => Takes (Expr.primary d token tokens) e after
  | .arguments function, d, tokens, e, after =>
    ∃ value, Takes (Expr.arguments d false tokens) value after ∧
      e = .call function value.1 value.2
  | .keywords function, d, tokens, e, after =>
    ∃ value, Takes (Expr.arguments d true tokens) value after ∧
      e = .call function value.1 value.2

variable {d : Nat} {e left : Expr} {tokens after : List Token} {kind : Chain} {token : Token}

theorem reads_chain : Reads (.chain kind) d tokens e after ↔
    ∃ left more, Reads kind.operand d tokens left more ∧ Reads (.rest kind left) d more e after := by
  cases kind with
  | sum =>
    rw [Reads, Expr.sum]
    exact takes_bind fun left => takes_same fun whole => ⟨_,rfl⟩
  | product =>
    rw [Reads, Expr.product]
    exact takes_bind fun left => takes_same fun whole => ⟨_,rfl⟩

theorem reads_last (ends : ∀ token ∈ tokens.head?, kind.operator? token = none) :
    Reads (.rest kind left) d tokens e after ↔ left = e ∧ tokens = after := by
  cases tokens with
  | nil => cases kind <;> simp only [Reads, Expr.moreTerms, Expr.moreFactors, takes_ok]
  | cons token tokens =>
    have none := ends token rfl
    cases kind with
    | sum =>
      rw [Reads, Expr.moreTerms, show Expr.sumOperator? token = _ from none, takes_ok]
    | product =>
      rw [Reads, Expr.moreFactors, show Expr.productOperator? token = _ from none, takes_ok]

theorem reads_operand (operator : kind.operator? token = some o) :
    Reads (.rest kind left) d (token :: tokens) e after ↔ d + 1 ≤ maxDepth ∧
      ∃ right more, Reads kind.operand (d + 1) tokens right more ∧
        Reads (.rest kind (.binary o left right)) (d + 1) more e after := by
  cases kind with
  | sum =>
    rw [Reads, Expr.moreTerms, show Expr.sumOperator? token = _ from operator]
    refine takes_deeper.trans (and_congr_right fun _ => ?_)
    exact takes_bind fun right => takes_same fun whole => ⟨_,rfl⟩
  | product =>
    rw [Reads, Expr.moreFactors, show Expr.productOperator? token = _ from operator]
    refine takes_deeper.trans (and_congr_right fun _ => ?_)
    exact takes_bind fun right => takes_same fun whole => ⟨_,rfl⟩

theorem reads_sign (sign : Expr.sign? token = some s) : Reads .signed d (token :: tokens) e after ↔
    d + 1 ≤ maxDepth ∧ ∃ operand, Reads .signed (d + 1) tokens operand after ∧
      .unary s operand = e := by
  rw [Reads, Expr.signed, takes_deeper, sign]
  exact and_congr_right fun _ => takes_map fun operand => ⟨_,rfl⟩

theorem reads_unsigned (unsigned : ∀ token ∈ tokens.head?, Expr.sign? token = none) :
    Reads .signed d tokens e after ↔ d + 1 ≤ maxDepth ∧ Reads .primary (d + 1) tokens e after := by
  cases tokens with
  | nil =>
    rw [Reads, Expr.signed, takes_deeper]
    exact and_congr_right fun _ => iff_false_intro not_takes_error
  | cons token tokens =>
    rw [Reads, Expr.signed, takes_deeper, unsigned token rfl]
    rfl

theorem reads_parentheses : Reads .primary d (.leftParen :: tokens) e after ↔
    Reads (.chain .sum) d tokens e (.rightParen :: after) := by
  unfold Reads Expr.primary
  refine takes_ok_bind.trans ?_
  constructor
  · rintro ⟨inner,read,taken⟩
    split at taken
    · rename_i rest closed
      obtain ⟨rfl,rfl⟩ := takes_ok.mp taken
      exact ⟨inner,read,rfl,closed⟩
    · exact absurd taken not_takes_error
  · rintro ⟨inner,read,rfl,closed⟩
    refine ⟨inner,read,?_⟩
    split
    · rename_i rest closed'
      cases closed.symm.trans closed'
      exact takes_ok.mpr ⟨rfl,rfl⟩
    · rename_i open'
      exact absurd closed (open' _)

theorem reads_symbol (apart : ∀ others, tokens ≠ .leftParen :: others) :
    Reads .primary d (.name name :: tokens) e after ↔ .symbol name = e ∧ tokens = after := by
  unfold Reads Expr.primary
  dsimp only
  split
  · exact absurd rfl (apart _)
  · exact takes_ok

theorem reads_call : Reads .primary d (.name name :: .leftParen :: tokens) e after ↔
    ∃ function, function.name = name ∧ Reads (.arguments function) d tokens e after := by
  rw [Reads, Expr.primary]
  cases found : Function.named? name with
  | none =>
    refine iff_of_false not_takes_error ?_
    rintro ⟨function,rfl,_⟩
    cases found.symm.trans (Function.named?_name function)
  | some function =>
    dsimp only
    refine (takes_map (f := fun value => Expr.call function value.1 value.2) ?_).trans ?_
    · exact fun _ => ⟨_,rfl⟩
    constructor
    · rintro ⟨value,taken,same⟩
      exact ⟨function,Function.name_of_named? found,value,taken,same.symm⟩
    · rintro ⟨other,rfl,value,taken,same⟩
      cases found.symm.trans (Function.named?_name other)
      exact ⟨value,taken,same.symm⟩

/-- After an argument comes the closing parenthesis, or a comma and further arguments. -/
theorem takes_moreArguments {keyed : Bool} {value : Arguments} :
    Takes (Expr.moreArguments d keyed tokens) value after ↔
      (tokens = .rightParen :: after ∧ value = ([],[])) ∨
        ∃ others, tokens = .comma :: others ∧ Takes (Expr.arguments d keyed others) value after := by
  unfold Expr.moreArguments
  split
  · refine (takes_same fun _ => ⟨_,rfl⟩).trans ?_
    simp
  · refine takes_ok.trans ?_
    simp [and_comm, eq_comm]
  · rename_i noComma noParenthesis
    refine iff_of_false not_takes_error ?_
    rintro (⟨same,_⟩ | ⟨others,same,_⟩)
    · exact noParenthesis _ same
    · exact noComma _ same

theorem takes_noArgument {keyed : Bool} {value : Arguments} :
    Takes (Expr.arguments d keyed (.rightParen :: tokens)) value after ↔
      ([],[]) = value ∧ tokens = after := by
  rw [Expr.arguments]
  exact takes_ok

theorem takes_keyword {keyed : Bool} {value : Arguments} :
    Takes (Expr.arguments d keyed (.name name :: .assign :: tokens)) value after ↔
      ∃ a more, Takes (Expr.sum d tokens) a more ∧
        ∃ others, Takes (Expr.moreArguments d true more) others after ∧
          (others.1,(name,a) :: others.2) = value := by
  rw [Expr.arguments]
  refine takes_bind fun argument => ?_
  refine takes_map (f := fun others : Arguments => (others.1,(name,argument.value) :: others.2)) ?_
  exact fun _ => ⟨_,rfl⟩

theorem takes_positional {keyed : Bool} {value : Arguments} (positional : Positional tokens) :
    Takes (Expr.arguments d keyed tokens) value after ↔ keyed = false ∧
      ∃ a more, Takes (Expr.sum d tokens) a more ∧
        ∃ others, Takes (Expr.moreArguments d false more) others after ∧
          (a :: others.1,others.2) = value := by
  unfold Expr.arguments
  split
  · exact absurd rfl (positional.opened _)
  · exact absurd rfl (positional.unnamed _ _)
  · cases keyed with
    | true => exact iff_of_false not_takes_error (by simp)
    | false =>
      rw [eq_self, true_and]
      refine takes_bind fun argument => ?_
      refine takes_map (f := fun others : Arguments => (argument.value :: others.1,others.2)) ?_
      exact fun _ => ⟨_,rfl⟩

/-- Arguments of which the first is not positional are all keyword arguments. -/
theorem reads_onlyKeywords (named : ¬Positional tokens) :
    Reads (.arguments function) d tokens e after ↔ Reads (.keywords function) d tokens e after := by
  rcases positional_or tokens with ⟨others,rfl⟩ | ⟨name,others,rfl⟩ | positional
  · simp only [Reads, takes_noArgument]
  · simp only [Reads, takes_keyword]
  · exact absurd positional named

/-- A reader calls others on fewer tokens, or on the same tokens for a phrase that comes earlier in
this order. -/
def rank : Phrase → Nat
  | .primary | .rest _ _ => 0
  | .signed => 1
  | .chain .product => 2
  | .chain .sum => 3
  | .keywords _ => 4
  | .arguments _ => 5

def size (p : Phrase) (tokens : List Token) : Nat := 6 * tokens.length + p.rank

theorem size_lt_of_shorter {p q : Phrase} {fewer : List Token}
    (shorter : fewer.length < tokens.length) : p.size fewer < q.size tokens := by
  have bound : p.rank < 6 := by
    cases p with
    | chain kind => cases kind <;> decide
    | _ => simp [rank]
  simp only [size]
  omega

theorem size_operand (kind : Chain) (tokens : List Token) :
    kind.operand.size tokens < (chain kind).size tokens := by
  cases kind <;> simp [size, rank, Chain.operand]

theorem Reads.shorter_operand (reads : Reads kind.operand d tokens e after) :
    after.length < tokens.length := by
  cases kind <;> exact Takes.shorter reads

/-- Of a call whose first argument is not positional none is. -/
theorem Derives.no_positional {function : Function}
    (derives : Derives (.keywords function) d tokens (.call function given named) t) :
    given = [] := by
  cases derives <;> rfl

def Front (p : Phrase) (d : Nat) (tokens : List Token) (e : Expr) (after : List Token) : Prop :=
  ∃ read t, tokens = read ++ after ∧ Derives p d read e t ∧ t ≤ maxDepth

namespace Front

variable {function : Function} {others : List Token}

theorem chain (first : Front kind.operand d tokens left others)
    (rest : Front (.rest kind left) d others e after) : Front (.chain kind) d tokens e after := by
  obtain ⟨read,t,rfl,derives,low⟩ := first
  obtain ⟨read',u,rfl,derives',low'⟩ := rest
  exact ⟨read ++ read',max t u,(List.append_assoc ..).symm,.chain derives derives',
    Nat.max_le.mpr ⟨low,low'⟩⟩

theorem operand (operator : kind.operator? token = some o)
    (next : Front kind.operand (d + 1) tokens right others)
    (rest : Front (.rest kind (.binary o left right)) (d + 1) others e after) :
    Front (.rest kind left) d (token :: tokens) e after := by
  obtain ⟨read,t,rfl,derives,low⟩ := next
  obtain ⟨read',u,rfl,derives',low'⟩ := rest
  exact ⟨token :: (read ++ read'),max t u,by simp,.operand operator derives derives',
    Nat.max_le.mpr ⟨low,low'⟩⟩

theorem lastPositional (argument : Front (.chain .sum) d tokens e (.rightParen :: after)) :
    Front (.arguments function) d tokens (.call function [e] []) after := by
  obtain ⟨read,t,rfl,derives,low⟩ := argument
  exact ⟨read ++ [.rightParen],t,by simp,.lastPositional derives,low⟩

theorem positional (argument : Front (.chain .sum) d tokens e (.comma :: others))
    (more : Front (.arguments function) d others (.call function es named) after) :
    Front (.arguments function) d tokens (.call function (e :: es) named) after := by
  obtain ⟨read,t,rfl,derives,low⟩ := argument
  obtain ⟨read',u,rfl,derives',low'⟩ := more
  exact ⟨read ++ .comma :: read',max t u,by simp,.positional derives derives',
    Nat.max_le.mpr ⟨low,low'⟩⟩

theorem lastKeyword (argument : Front (.chain .sum) d tokens e (.rightParen :: after)) :
    Front (.keywords function) d (.name name :: .assign :: tokens)
      (.call function [] [(name,e)]) after := by
  obtain ⟨read,t,rfl,derives,low⟩ := argument
  exact ⟨.name name :: .assign :: (read ++ [.rightParen]),t,by simp,.lastKeyword derives,low⟩

theorem keyword (argument : Front (.chain .sum) d tokens e (.comma :: others))
    (more : Front (.keywords function) d others (.call function es named) after) :
    Front (.keywords function) d (.name name :: .assign :: tokens)
      (.call function es ((name,e) :: named)) after := by
  obtain ⟨read,t,rfl,derives,low⟩ := argument
  obtain ⟨read',u,rfl,derives',low'⟩ := more
  obtain rfl := derives'.no_positional
  exact ⟨.name name :: .assign :: (read ++ .comma :: read'),max t u,by simp,
    .keyword derives derives',Nat.max_le.mpr ⟨low,low'⟩⟩

end Front

/-- What is read from tokens is derived from them, at levels that there are. -/
theorem Reads.front {p : Phrase} (reads : Reads p d tokens e after) (admitted : d ≤ maxDepth) :
    Front p d tokens e after := by
  -- One induction for all readers: each calls others on fewer tokens, or for an earlier phrase.
  induction whole : p.size tokens using Nat.strongRecOn generalizing p d tokens e after with
  | ind whole ih =>
    subst whole
    cases p with
    | chain kind =>
      obtain ⟨left,more,first,others⟩ := reads_chain.mp reads
      have shorter := first.shorter_operand
      exact (ih _ (size_operand kind tokens) first admitted rfl).chain
        (ih _ (size_lt_of_shorter shorter) others admitted rfl)
    | rest kind left =>
      cases tokens with
      | nil =>
        obtain ⟨rfl,rfl⟩ := (reads_last (by simp)).mp reads
        exact ⟨[],d,rfl,.last,admitted⟩
      | cons token tokens =>
        cases operator : kind.operator? token with
        | none =>
          obtain ⟨rfl,rfl⟩ := (reads_last (by simpa using operator)).mp reads
          exact ⟨[],d,rfl,.last,admitted⟩
        | some o =>
          obtain ⟨above,right,more,next,others⟩ := (reads_operand operator).mp reads
          have fewer : tokens.length < (token :: tokens).length := Nat.lt_succ_self _
          have shorter := Nat.lt_trans next.shorter_operand fewer
          exact (ih _ (size_lt_of_shorter fewer) next above rfl).operand operator
            (ih _ (size_lt_of_shorter shorter) others above rfl)
    | signed =>
      cases tokens with
      | nil => exact ((reads_unsigned (by simp)).mp reads).2.elim
      | cons token tokens =>
        cases sign : Expr.sign? token with
        | none =>
          obtain ⟨above,inner⟩ := (reads_unsigned (by simpa using sign)).mp reads
          obtain ⟨read,t,same,derives,low⟩ := ih _ (by simp [size, rank]) inner above rfl
          exact ⟨read,t,same,.unsigned derives,low⟩
        | some s =>
          obtain ⟨above,operand,inner,rfl⟩ := (reads_sign sign).mp reads
          have fewer : tokens.length < (token :: tokens).length := Nat.lt_succ_self _
          obtain ⟨read,t,rfl,derives,low⟩ := ih _ (size_lt_of_shorter fewer) inner above rfl
          exact ⟨token :: read,t,rfl,.sign sign derives,low⟩
    | primary =>
      cases tokens with
      | nil => exact reads.elim
      | cons token tokens =>
        have fewer : tokens.length < (token :: tokens).length := Nat.lt_succ_self _
        cases token with
        | int value | float value | text value =>
          unfold Reads Expr.primary at reads
          obtain ⟨rfl,rfl⟩ := takes_ok.mp reads
          exact ⟨[_],d,rfl,by constructor,admitted⟩
        | leftParen =>
          obtain ⟨read,t,rfl,derives,low⟩ :=
            ih _ (size_lt_of_shorter fewer) (reads_parentheses.mp reads) admitted rfl
          exact ⟨.leftParen :: (read ++ [.rightParen]),t,by simp,.parentheses derives,low⟩
        | name name =>
          by_cases call : ∃ inner, tokens = .leftParen :: inner
          · obtain ⟨inner,rfl⟩ := call
            obtain ⟨function,rfl,inside⟩ := reads_call.mp reads
            have fewer := Nat.lt_trans (Nat.lt_succ_self inner.length) fewer
            obtain ⟨read,t,rfl,derives,low⟩ := ih _ (size_lt_of_shorter fewer) inside admitted rfl
            exact ⟨.name function.name :: .leftParen :: read,t,rfl,.call derives,low⟩
          · obtain ⟨rfl,rfl⟩ := (reads_symbol fun inner same => call ⟨inner,same⟩).mp reads
            exact ⟨[.name name],d,rfl,.symbol,admitted⟩
        | _ =>
          unfold Reads Expr.primary at reads
          exact absurd reads not_takes_error
    | arguments function =>
      by_cases positional : Positional tokens
      · obtain ⟨value,taken,rfl⟩ := reads
        obtain ⟨_,a,more,argument,others,rest,rfl⟩ := (takes_positional positional).mp taken
        have first := ih _ (by simp [size, rank]) (p := .chain .sum) argument admitted rfl
        rcases takes_moreArguments.mp rest with ⟨rfl,rfl⟩ | ⟨next,rfl,further⟩
        · exact first.lastPositional
        · have shorter := Nat.lt_trans (Nat.lt_succ_self next.length) argument.shorter
          exact first.positional
            (ih _ (size_lt_of_shorter shorter) (p := .arguments function) ⟨_,further,rfl⟩ admitted rfl)
      · obtain ⟨read,t,same,derives,low⟩ :=
          ih _ (by simp [size, rank]) ((reads_onlyKeywords positional).mp reads) admitted rfl
        exact ⟨read,t,same,.onlyKeywords derives,low⟩
    | keywords function =>
      obtain ⟨value,taken,rfl⟩ := reads
      rcases positional_or tokens with ⟨others,rfl⟩ | ⟨name,others,rfl⟩ | positional
      · obtain ⟨rfl,rfl⟩ := takes_noArgument.mp taken
        exact ⟨[.rightParen],d,rfl,.noKeyword,admitted⟩
      · obtain ⟨a,more,argument,_,rest,rfl⟩ := takes_keyword.mp taken
        have fewer : others.length < (Token.name name :: .assign :: others).length :=
          Nat.lt_add_of_pos_right Nat.two_pos
        have first := ih _ (size_lt_of_shorter fewer) (p := .chain .sum) argument admitted rfl
        rcases takes_moreArguments.mp rest with ⟨rfl,rfl⟩ | ⟨next,rfl,further⟩
        · exact first.lastKeyword
        · have shorter := Nat.lt_trans (Nat.lt_succ_self next.length)
            (Nat.lt_trans argument.shorter fewer)
          exact first.keyword
            (ih _ (size_lt_of_shorter shorter) (p := .keywords function) ⟨_,further,rfl⟩ admitted rfl)
      · cases ((takes_positional positional).mp taken).1

/-- What tokens derive, at levels that there are, is read from them, and what follows is left. -/
theorem Derives.reads {p : Phrase} {ts r : List Token} {t : Nat} (derives : Derives p d ts e t)
    (low : t ≤ maxDepth) (before : p.Before r) : Reads p d (ts ++ r) e r := by
  induction derives generalizing r with
  | chain _ others first rest =>
    obtain ⟨low,low'⟩ := Nat.max_le.mp low
    rw [List.append_assoc]
    exact reads_chain.mpr ⟨_,_,first low (others.before_operand before),rest low' before⟩
  | last => exact (reads_last fun token first => operator?_eq_none (before token first)).mpr ⟨rfl,rfl⟩
  | operand operator next others right rest =>
    obtain ⟨low,low'⟩ := Nat.max_le.mp low
    rw [List.cons_append, List.append_assoc]
    exact (reads_operand operator).mpr ⟨Nat.le_trans next.level_le_top low,_,_,
      right low (others.before_operand before),rest low' before⟩
  | sign sign inner ih =>
    exact (reads_sign sign).mpr ⟨Nat.le_trans inner.level_le_top low,_,ih low before,rfl⟩
  | unsigned primary ih =>
    refine (reads_unsigned ?_).mpr ⟨Nat.le_trans primary.level_le_top low,ih low before⟩
    intro token first
    obtain ⟨others,same⟩ := List.head?_eq_some_iff.mp first
    exact Option.eq_none_iff_forall_ne_some.mpr fun s sign => primary.unsigned_start sign others same
  | int | float | text =>
    unfold Reads Expr.primary
    exact takes_ok.mpr ⟨rfl,rfl⟩
  | symbol => exact (reads_symbol fun others => (primary_before before).1).mpr ⟨rfl,rfl⟩
  | parentheses _ ih =>
    rw [List.cons_append, List.append_assoc]
    exact reads_parentheses.mpr (ih low (before_closing _))
  | call _ ih => exact reads_call.mpr ⟨_,rfl,ih low fun _ _ => trivial⟩
  | lastPositional argument ih =>
    have ends := before_closing r
    rw [List.append_assoc]
    exact ⟨_,(takes_positional (argument.argument_positional ends)).mpr
      ⟨rfl,_,_,ih low ends,_,takes_moreArguments.mpr (.inl ⟨rfl,rfl⟩),rfl⟩,rfl⟩
  | positional argument _ ih others =>
    obtain ⟨low,low'⟩ := Nat.max_le.mp low
    obtain ⟨⟨_,_⟩,further,call⟩ := others low' before
    cases call
    rw [List.append_assoc]
    exact ⟨_,(takes_positional (argument.argument_positional (before_comma _))).mpr
      ⟨rfl,_,_,ih low (before_comma _),_,takes_moreArguments.mpr (.inr ⟨_,rfl,further⟩),rfl⟩,rfl⟩
  | onlyKeywords keywords ih =>
    exact (reads_onlyKeywords keywords.not_positional).mpr (ih low before)
  | noKeyword => exact ⟨_,takes_noArgument.mpr ⟨rfl,rfl⟩,rfl⟩
  | lastKeyword _ ih =>
    have ends := before_closing r
    rw [List.cons_append, List.cons_append, List.append_assoc]
    exact ⟨_,takes_keyword.mpr ⟨_,_,ih low ends,_,takes_moreArguments.mpr (.inl ⟨rfl,rfl⟩),rfl⟩,rfl⟩
  | keyword _ _ ih others =>
    obtain ⟨low,low'⟩ := Nat.max_le.mp low
    obtain ⟨⟨_,_⟩,further,call⟩ := others low' before
    cases call
    rw [List.cons_append, List.cons_append, List.append_assoc]
    exact ⟨_,takes_keyword.mpr
      ⟨_,_,ih low (before_comma _),_,takes_moreArguments.mpr (.inr ⟨_,rfl,further⟩),rfl⟩,rfl⟩

end Phrase

namespace Expr

variable {tokens : List Token} {e : Expr}

theorem ofTokens_eq_ok : ofTokens tokens = .ok e ↔ Phrase.Reads (.chain .sum) 0 tokens e [] := by
  refine bind_ok_iff.trans (exists_congr fun whole => and_congr_right fun _ => ?_)
  cases rest : whole.rest with
  | nil => simp [pure, Except.pure]
  | cons token others => simp [throw, throwThe, MonadExceptOf.throw]

theorem exists_derives (read : ofTokens tokens = .ok e) :
    ∃ top, Phrase.Derives (.chain .sum) 0 tokens e top ∧ top ≤ maxDepth := by
  obtain ⟨front,top,same,derives,low⟩ := (ofTokens_eq_ok.mp read).front (Nat.zero_le _)
  rw [List.append_nil] at same
  exact ⟨top,same ▸ derives,low⟩

theorem ofTokens_of_derives (derives : Phrase.Derives (.chain .sum) 0 tokens e top)
    (low : top ≤ maxDepth) : ofTokens tokens = .ok e := by
  have reads := derives.reads low (Phrase.before_nil _)
  rw [List.append_nil] at reads
  exact ofTokens_eq_ok.mpr reads

/-- A list of tokens is read as an expression exactly if all of it derives the expression as a sum
that starts at level zero, at levels that there are. What it derives, at whatever levels, is
determined, and so is how far up. -/
theorem ofTokens_eq_ok_iff_derives (tokens : List Token) :
    (∀ e, ofTokens tokens = .ok e ↔
        ∃ top, Phrase.Derives (.chain .sum) 0 tokens e top ∧ top ≤ maxDepth) ∧
      ∀ e e' top top', Phrase.Derives (.chain .sum) 0 tokens e top →
        Phrase.Derives (.chain .sum) 0 tokens e' top' → e = e' ∧ top = top' := by
  refine ⟨fun e => ofTokens_eq_ok.trans ⟨?_,?_⟩,?_⟩
  · intro reads
    obtain ⟨read,top,same,derives,low⟩ := reads.front (Nat.zero_le _)
    rw [List.append_nil] at same
    exact ⟨top,same ▸ derives,low⟩
  · rintro ⟨top,derives,low⟩
    have reads := derives.reads low (Phrase.before_nil _)
    rwa [List.append_nil] at reads
  · intro e e' top top' derives derives'
    exact (derives.unique derives' (r := []) rfl (Phrase.before_nil _) (Phrase.before_nil _)).2

/-- Differences are taken from the left, and each operand lies a level above the one before it. -/
theorem ofTokens_differences :
    ofTokens [.int 7,.minus,.int 2,.minus,.int 1] =
        .ok (.binary .sub (.binary .sub (.int 7) (.int 2)) (.int 1)) ∧
      ∀ e top, Phrase.Derives (.chain .sum) 0 [.int 7,.minus,.int 2,.minus,.int 1] e top →
        e = .binary .sub (.binary .sub (.int 7) (.int 2)) (.int 1) ∧ top = 3 := by
  have number : ∀ value d, Phrase.Derives Chain.sum.operand d [.int value] (.int value) (d + 1) := by
    intro value d
    have signed : Phrase.Derives Chain.product.operand d [.int value] (.int value) (d + 1) :=
      .unsigned .int
    simpa [Chain.operand] using Phrase.Derives.chain signed .last
  have last : ∀ left, Phrase.Derives (.rest .sum left) 1 [.minus,.int 1]
      (.binary .sub left (.int 1)) 3 := fun left => .operand rfl (number 1 2) .last
  have derives : Phrase.Derives (.chain .sum) 0 [.int 7,.minus,.int 2,.minus,.int 1]
      (.binary .sub (.binary .sub (.int 7) (.int 2)) (.int 1)) 3 :=
    .chain (number 7 0) (.operand rfl (number 2 1) (last _))
  obtain ⟨reads,unique⟩ := ofTokens_eq_ok_iff_derives [.int 7,.minus,.int 2,.minus,.int 1]
  exact ⟨(reads _).mpr ⟨3,derives,by decide⟩,fun e top other => unique _ _ _ _ other derives⟩

end Expr
end ThemeForge
