import ThemeForge.Session

/-!
# Plain evaluation

What expressions and templates mean without a session. A reference is cut at its last dot, its entry
is looked up and the text of the entry is evaluated afresh each time. Nothing is kept and no chain is
tracked, so entries that lead back to themselves have no result: the meaning is a relation.
-/

namespace ThemeForge

def Reference.lost (r : Reference) : Fault :=
  if (splitName? r.name).isNone then .invalidLookupName r.table r.name else r.missing

def Reference.wrapped (r : Reference) (fault : Fault) : Fault :=
  match r.table with
  | .constant => .inConstant r.name fault
  | .preset => fault

namespace Tables

def tree? (t : Tables) (r : Reference) : Option (Except Fault Expr) := (t.entry? r).map Expr.parse

/-- The result of a query. An answer that is a fault ends it. -/
inductive Yields (t : Tables) : Query Value → Except Fault Value → Prop
  | done : t.Yields (.done value) (.ok value)
  | fail : t.Yields (.fail fault) (.error fault)
  | lost : t.tree? r = none → t.Yields (.ask r next) (.error r.lost)
  | unreadable : t.tree? r = some (.error fault) →
      t.Yields (.ask r next) (.error (r.wrapped fault))
  | failing : t.tree? r = some (.ok e) → t.Yields e.value (.error fault) →
      t.Yields (.ask r next) (.error (r.wrapped fault))
  | answered : t.tree? r = some (.ok e) → t.Yields e.value (.ok value) →
      t.Yields (next value) result → t.Yields (.ask r next) result

inductive Evaluates (t : Tables) (source : String) : Except Fault Value → Prop
  | unreadable : Expr.parse source = .error fault → t.Evaluates source (.error fault)
  | tree : Expr.parse source = .ok e → t.Yields e.value result → t.Evaluates source result

/-- The text of segments: literals are copied and expressions replaced by their results, from the
left up to the first that fails. -/
inductive Spells (t : Tables) (location : String) :
    List Segment → Except ExpansionFault String → Prop
  | nil : t.Spells location [] (.ok "")
  | literal : t.Spells location rest result →
      t.Spells location (.literal text :: rest) (result.map (text ++ ·))
  | failing : t.Evaluates source (.error fault) →
      t.Spells location (.expression source :: rest)
        (.error ⟨location,String.ofList (Template.braced source.toList),fault⟩)
  | expression : t.Evaluates source (.ok value) → t.Spells location rest result →
      t.Spells location (.expression source :: rest) (result.map (value.result ++ ·))

inductive Expands (t : Tables) (location template : String) : Except ExpansionFault String → Prop
  | malformed : Template.segments template = .error bad →
      t.Expands location template (.error ⟨location,bad.span,bad.fault⟩)
  | segments : Template.segments template = .ok segments → t.Spells location segments result →
      t.Expands location template result

def HasValue (t : Tables) (r : Reference) (value : Value) : Prop :=
  ∃ e, t.tree? r = some (.ok e) ∧ t.Yields e.value (.ok value)

/-- A query comes to ask for an entry, by itself or inside an entry that it asks for. -/
inductive Reaches (t : Tables) : Query Value → Reference → Prop
  | here : t.Reaches (.ask r next) r
  | inside : t.tree? r = some (.ok e) → t.Reaches e.value s → t.Reaches (.ask r next) s
  | later : t.HasValue r value → t.Reaches (next value) s → t.Reaches (.ask r next) s

/-- Evaluating an entry comes back to it. -/
def Recurs (t : Tables) (r : Reference) : Prop :=
  ∃ e, t.tree? r = some (.ok e) ∧ t.Reaches e.value r

variable {t : Tables}

/-- Plain evaluation has at most one result. -/
theorem Yields.unique (first : t.Yields q a) (second : t.Yields q b) : a = b := by
  induction first generalizing b with
  | done => cases second; rfl
  | fail => cases second; rfl
  | lost absent => cases second <;> simp_all
  | unreadable tree => cases second <;> simp_all
  | failing tree inner ih =>
    cases second with
    | lost absent => simp_all
    | unreadable other => simp_all
    | failing other inner' =>
      obtain rfl : _ = _ := by simpa [tree] using other
      cases ih inner'
      rfl
    | answered other inner' rest =>
      obtain rfl : _ = _ := by simpa [tree] using other
      cases ih inner'
  | answered tree inner rest ihInner ihRest =>
    cases second with
    | lost absent => simp_all
    | unreadable other => simp_all
    | failing other inner' =>
      obtain rfl : _ = _ := by simpa [tree] using other
      cases ihInner inner'
    | answered other inner' rest' =>
      obtain rfl : _ = _ := by simpa [tree] using other
      cases ihInner inner'
      exact ihRest rest'

theorem HasValue.unique (first : t.HasValue r v) (second : t.HasValue r w) : v = w := by
  obtain ⟨e,tree,yields⟩ := first
  obtain ⟨e',tree',yields'⟩ := second
  obtain rfl : e = e' := by simpa [tree] using tree'
  exact Except.ok.inj (yields.unique yields')

/-- The value of an entry that is asked for is where the rest of a query goes on. -/
theorem Yields.rest (whole : t.Yields (.ask r next) result) (value : t.HasValue r v) :
    t.Yields (next v) result := by
  obtain ⟨e,tree,yields⟩ := value
  cases whole with
  | lost absent => simp [tree] at absent
  | unreadable other => simp [tree] at other
  | failing other inner =>
    obtain rfl : e = _ := by simpa [tree] using other
    cases yields.unique inner
  | answered other inner rest =>
    obtain rfl : e = _ := by simpa [tree] using other
    cases yields.unique inner
    exact rest

/-- What has a result never comes to an entry that leads back to itself. -/
theorem Yields.not_recurs (yields : t.Yields q result) (reached : t.Reaches q r) : ¬t.Recurs r := by
  induction yields generalizing r with
  | done => cases reached
  | fail => cases reached
  | lost absent =>
    rintro ⟨e,tree,back⟩
    cases reached with
    | here => simp [tree] at absent
    | inside other => simp [absent] at other
    | later value => obtain ⟨e',other,_⟩ := value; simp [absent] at other
  | unreadable unreadable =>
    rintro ⟨e,tree,back⟩
    cases reached with
    | here => simp [tree] at unreadable
    | inside other => simp [unreadable] at other
    | later value => obtain ⟨e',other,_⟩ := value; simp [unreadable] at other
  | failing tree inner ih =>
    cases reached with
    | here =>
      rintro ⟨e,other,back⟩
      obtain rfl : _ = e := by simpa [tree] using other
      exact ih back ⟨_,tree,back⟩
    | inside other within =>
      obtain rfl : _ = _ := by simpa [tree] using other
      exact ih within
    | later value =>
      obtain ⟨e',other,yields⟩ := value
      obtain rfl : _ = e' := by simpa [tree] using other
      cases inner.unique yields
  | answered tree inner rest ihInner ihRest =>
    cases reached with
    | here =>
      rintro ⟨e,other,back⟩
      obtain rfl : _ = e := by simpa [tree] using other
      exact ihInner back ⟨_,tree,back⟩
    | inside other within =>
      obtain rfl : _ = _ := by simpa [tree] using other
      exact ihInner within
    | later value after =>
      obtain rfl := value.unique ⟨_,tree,inner⟩
      exact ihRest after

theorem Evaluates.unique (first : t.Evaluates source a) (second : t.Evaluates source b) :
    a = b := by
  cases first with
  | unreadable fails => cases second <;> simp_all
  | tree parsed yields =>
    cases second with
    | unreadable fails => simp [parsed] at fails
    | tree parsed' yields' =>
      obtain rfl : _ = _ := by simpa [parsed] using parsed'
      exact yields.unique yields'

theorem Spells.unique (first : t.Spells location segments a) (second : t.Spells location segments b) :
    a = b := by
  induction first generalizing b with
  | nil => cases second; rfl
  | literal _ ih =>
    cases second with
    | literal rest => rw [ih rest]
  | failing fails =>
    cases second with
    | failing fails' => cases fails.unique fails'; rfl
    | expression succeeds => cases fails.unique succeeds
  | expression succeeds _ ih =>
    cases second with
    | failing fails => cases succeeds.unique fails
    | expression succeeds' rest =>
      cases succeeds.unique succeeds'
      rw [ih rest]

theorem Expands.unique (first : t.Expands location template a)
    (second : t.Expands location template b) : a = b := by
  cases first with
  | malformed bad => cases second <;> simp_all
  | segments cut spells =>
    cases second with
    | malformed bad => simp [cut] at bad
    | segments cut' spells' =>
      obtain rfl : _ = _ := by simpa [cut] using cut'
      exact spells.unique spells'

end Tables

end ThemeForge
