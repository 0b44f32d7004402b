import ThemeForge.Expression.Value

/-!
# Queries

An expression has no value by itself: it may ask for entries of the tables. A query is a computation
that ends in a result or a fault and asks on the way. Whoever runs it decides how an entry is found;
an answer that is a fault ends the query.
-/

namespace ThemeForge

/-- A dotted name in one of the two tables. -/
structure Reference where
  table : TableKind
  name : String
  deriving DecidableEq, Repr

/-- A computation that may ask for the values of table entries. -/
inductive Query (α : Type)
  | done (result : α)
  | fail (fault : Fault)
  | ask (reference : Reference) (next : Value → Query α)

namespace Query

variable {α β γ σ : Type}

def andThen : Query α → (α → Query β) → Query β
  | .done result, next => next result
  | .fail fault, _ => .fail fault
  | .ask reference answer, next => .ask reference fun value => (answer value).andThen next

instance : Monad Query where
  pure := .done
  bind := andThen

instance : MonadExceptOf Fault Query where
  throw := .fail
  tryCatch query _ := query

def ofExcept : Except Fault α → Query α
  | .ok result => .done result
  | .error fault => .fail fault

/-- Runs a query. `answer` finds entries and may keep a state while it does. -/
def run (answer : Reference → σ → Except Fault Value × σ) :
    Query α → σ → Except Fault α × σ
  | .done result, s => (.ok result,s)
  | .fail fault, s => (.error fault,s)
  | .ask reference next, s =>
    match answer reference s with
    | (.ok value,s) => (next value).run answer s
    | (.error fault,s) => (.error fault,s)

@[simp] theorem bind_done (a : α) (next : α → Query β) : (Query.done a >>= next) = next a := rfl

@[simp] theorem bind_fail (f : Fault) (next : α → Query β) :
    (Query.fail f >>= next) = .fail f := rfl

@[simp] theorem bind_ask (r : Reference) (answer : Value → Query α) (next : α → Query β) :
    (Query.ask r answer >>= next) = .ask r fun value => answer value >>= next := rfl

theorem bind_pure (q : Query α) : (q >>= Query.done) = q := by
  induction q with
  | done a => rfl
  | fail f => rfl
  | ask r answer ih => exact congrArg (Query.ask r) (funext ih)

theorem bind_assoc (q : Query α) (f : α → Query β) (g : β → Query γ) :
    (q >>= f >>= g) = q >>= fun a => f a >>= g := by
  induction q with
  | done a => rfl
  | fail f => rfl
  | ask r answer ih => exact congrArg (Query.ask r) (funext ih)

instance : LawfulMonad Query :=
  LawfulMonad.mk' Query bind_pure (fun _ _ => rfl) bind_assoc

theorem run_bind (answer : Reference → σ → Except Fault Value × σ) (q : Query α)
    (next : α → Query β) (s : σ) :
    (q >>= next).run answer s =
      match q.run answer s with
      | (.ok a,s) => (next a).run answer s
      | (.error fault,s) => (.error fault,s) := by
  induction q generalizing s with
  | done a => rfl
  | fail f => rfl
  | ask r following ih =>
    simp only [bind_ask, run]
    split
    · exact ih _ _
    · rfl

end Query

end ThemeForge
