/-!
# Steps that can fail

A sequence of steps gives a result exactly if each of them does.
-/

namespace ThemeForge

theorem ok_bind (a : α) (next : α → Except ε β) : (Except.ok a >>= next) = next a := rfl

theorem bind_ok_iff {first : Except ε α} {next : α → Except ε β} :
    first >>= next = .ok b ↔ ∃ a, first = .ok a ∧ next a = .ok b := by
  cases first with
  | error e =>
    refine ⟨nofun,?_⟩
    rintro ⟨a,failed,_⟩
    cases failed
  | ok a =>
    refine ⟨fun done => ⟨a,rfl,done⟩,?_⟩
    rintro ⟨_,same,done⟩
    cases same
    exact done

/-- A sequence fails where the first of its steps does. -/
theorem bind_error_iff {first : Except ε α} {next : α → Except ε β} :
    first >>= next = .error e ↔ first = .error e ∨ ∃ a, first = .ok a ∧ next a = .error e := by
  cases first with
  | error e' =>
    refine ⟨?_,?_⟩
    · intro failed
      cases failed
      exact .inl rfl
    · rintro (failed | ⟨a,done,_⟩)
      · cases failed
        rfl
      · cases done
  | ok a =>
    refine ⟨fun failed => .inr ⟨a,rfl,failed⟩,?_⟩
    rintro (failed | ⟨_,same,failed⟩)
    · cases failed
    · cases same
      exact failed

theorem map_ok_iff {first : Except ε α} {f : α → β} :
    first.map f = .ok b ↔ ∃ a, first = .ok a ∧ f a = b := by
  cases first with
  | error e =>
    refine ⟨nofun,?_⟩
    rintro ⟨a,failed,_⟩
    cases failed
  | ok a =>
    refine ⟨fun done => ⟨a,rfl,Except.ok.inj done⟩,?_⟩
    rintro ⟨_,same,rfl⟩
    cases same
    rfl

theorem mapError_ok_iff {first : Except ε α} {f : ε → δ} :
    first.mapError f = .ok a ↔ first = .ok a := by
  cases first with
  | error e =>
    refine ⟨nofun,?_⟩
    intro failed
    cases failed
  | ok b =>
    constructor
    · intro done
      cases done
      rfl
    · intro done
      cases done
      rfl

theorem mapError_error {first : Except ε α} {f : ε → δ} (failed : first.mapError f = .error e) :
    ∃ reason, e = f reason := by
  cases first with
  | error reason =>
    cases failed
    exact ⟨reason,rfl⟩
  | ok a => cases failed

theorem mapM_ok {α β ε : Type} {f : α → Except ε β} {as : List α} {bs : List β}
    (all : as.mapM f = .ok bs) : ∀ b ∈ bs, ∃ a ∈ as, f a = .ok b := by
  induction as generalizing bs with
  | nil =>
    cases all
    simp
  | cons a as ih =>
    rw [List.mapM_cons] at all
    obtain ⟨first,done,more⟩ := bind_ok_iff.mp all
    obtain ⟨rest,others,made⟩ := bind_ok_iff.mp more
    cases made
    intro b member
    rcases List.mem_cons.mp member with rfl | later
    · exact ⟨a,List.mem_cons_self,done⟩
    · obtain ⟨other,among,given⟩ := ih others b later
      exact ⟨other,List.mem_cons_of_mem _ among,given⟩

/-- If several steps give results, each of them does. -/
theorem mapM_each {α β ε : Type} {f : α → Except ε β} {as : List α} {bs : List β}
    (all : as.mapM f = .ok bs) : ∀ a ∈ as, ∃ b, f a = .ok b := by
  induction as generalizing bs with
  | nil => nofun
  | cons a as ih =>
    rw [List.mapM_cons] at all
    obtain ⟨first,done,more⟩ := bind_ok_iff.mp all
    obtain ⟨rest,others,_⟩ := bind_ok_iff.mp more
    intro other member
    rcases List.mem_cons.mp member with rfl | later
    · exact ⟨first,done⟩
    · exact ih others other later

theorem mapM_congr {α β ε : Type} {f g : α → Except ε β} {as : List α}
    (same : ∀ a ∈ as, f a = g a) : as.mapM f = as.mapM g := by
  induction as with
  | nil => rfl
  | cons a as ih =>
    rw [List.mapM_cons, List.mapM_cons, same a List.mem_cons_self,
      ih fun b later => same b (List.mem_cons_of_mem _ later)]

/-- If not all of several steps give a result, one of them fails. -/
theorem mapM_error {α β ε : Type} {f : α → Except ε β} {as : List α} {e : ε}
    (failed : as.mapM f = .error e) : ∃ a ∈ as, f a = .error e := by
  induction as with
  | nil => cases failed
  | cons a as ih =>
    rw [List.mapM_cons] at failed
    rcases bind_error_iff.mp failed with first | ⟨b,_,failed⟩
    · exact ⟨a,List.mem_cons_self,first⟩
    · rcases bind_error_iff.mp failed with later | ⟨_,_,made⟩
      · obtain ⟨other,among,failed⟩ := ih later
        exact ⟨other,List.mem_cons_of_mem _ among,failed⟩
      · cases made

/-- What all results of a step keep of their inputs, the list of them keeps. -/
theorem mapM_map {α β γ ε : Type} {f : α → Except ε β} {as : List α} {bs : List β} {g : β → γ}
    {h : α → γ} (all : as.mapM f = .ok bs) (each : ∀ a b, f a = .ok b → g b = h a) :
    bs.map g = as.map h := by
  induction as generalizing bs with
  | nil =>
    cases all
    rfl
  | cons a as ih =>
    rw [List.mapM_cons] at all
    obtain ⟨first,done,more⟩ := bind_ok_iff.mp all
    obtain ⟨rest,others,made⟩ := bind_ok_iff.mp more
    cases made
    rw [List.map_cons, List.map_cons, each a first done, ih others]

theorem mapM_eq_ok {α β ε : Type} {f : α → Except ε β} {g : α → β} {as : List α}
    (each : ∀ a ∈ as, f a = .ok (g a)) : as.mapM f = .ok (as.map g) := by
  induction as with
  | nil => rfl
  | cons a as ih =>
    have rest := ih fun b later => each b (List.mem_cons_of_mem _ later)
    rw [List.mapM_cons, each a List.mem_cons_self, rest]
    rfl

end ThemeForge
