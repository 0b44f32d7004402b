import ThemeForge.Ordered

/-!
# Settings

Values under a section and a key. Sections, and the keys of a section, keep the order in which they
first came.
-/

namespace ThemeForge

/-- Sections with their keys and values. -/
structure Settings where
  sections : List (String × List (String × String))
  deriving DecidableEq, Repr, Inhabited

namespace Settings

def empty : Settings := ⟨[]⟩

def get? (settings : Settings) (section_ key : String) : Option String :=
  (settings.sections.lookup section_).bind (·.lookup key)

def agreeBy {α : Type} (same : α → α → Bool) (a b : List (String × α)) : Bool :=
  a.length == b.length && a.all fun (key,value) => (b.lookup key).any (same value)

def agrees (settings others : Settings) : Bool :=
  agreeBy (agreeBy (· == ·)) settings.sections others.sections

/-- The settings with one value, in a new section if there is none of that name. -/
def set (settings : Settings) (section_ key value : String) : Settings :=
  ⟨Ordered.update section_ (fun keys => Ordered.put key value (keys.getD [])) settings.sections⟩

/-- The settings with others on top, whose values replace those of the same section and key. -/
def merge (settings others : Settings) : Settings :=
  ⟨others.sections.foldl
    (fun sections (name,entries) =>
      Ordered.update name (fun keys => Ordered.putAll (keys.getD []) entries) sections)
    settings.sections⟩

/-- The values of one section changed by `change`, which may keep a state and fail. After the first
failure all values stay as they are. -/
def mapKeys {σ ε : Type} (change : String → String → σ → Except ε String × σ) :
    List (String × String) → σ → List (String × String) × Option ε × σ
  | [], s => ([],none,s)
  | (key,value) :: rest, s =>
    match change key value s with
    | (.error fault,s) => ((key,value) :: rest,some fault,s)
    | (.ok changed,s) =>
      let (entries,fault,s) := mapKeys change rest s
      ((key,changed) :: entries,fault,s)

/-- The values of all sections changed by `change`, up to its first failure. -/
def mapSections {σ ε : Type} (change : String → String → String → σ → Except ε String × σ) :
    List (String × List (String × String)) → σ →
      List (String × List (String × String)) × Option ε × σ
  | [], s => ([],none,s)
  | (name,entries) :: rest, s =>
    match mapKeys (change name) entries s with
    | (entries,some fault,s) => ((name,entries) :: rest,some fault,s)
    | (entries,none,s) =>
      let (sections,fault,s) := mapSections change rest s
      ((name,entries) :: sections,fault,s)

/-- Every value changed in order by `change section key value`, which may keep a state. The first
failure is reported; values before it are changed and the others are not. -/
def mapValues {σ ε : Type} (change : String → String → String → σ → Except ε String × σ)
    (settings : Settings) (s : σ) : Settings × Option ε × σ :=
  let (sections,fault,s) := mapSections change settings.sections s
  (⟨sections⟩,fault,s)

/-- A value set is the value got, and no other value changes. -/
theorem get?_set (settings : Settings) (section_ key value s k : String) :
    (settings.set section_ key value).get? s k =
      if s = section_ ∧ k = key then some value else settings.get? s k := by
  simp only [set, get?, Ordered.lookup_update, Ordered.put]
  by_cases same : s = section_
  · subst same
    by_cases sameKey : k = key
    · simp [sameKey, Ordered.lookup_update]
    · cases found : settings.sections.lookup s with
      | none => simp [sameKey, Ordered.lookup_update]
      | some keys => simp [sameKey, Ordered.lookup_update]
  · simp [same]

end Settings

end ThemeForge
