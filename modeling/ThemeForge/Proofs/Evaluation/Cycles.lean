import ThemeForge.Proofs.Evaluation.Chainless
import ThemeForge.Proofs.Evaluation.Sessions

/-!
# Chains that close

A chain of references is a list of labels. A label does not always tell one entry from another: the
constant `p(a.b)` is called like the preset `a.b`. So a chain that closes means either an entry that
leads back to itself or two entries with one label, and what has a plain result meets only the second.
-/

namespace ThemeForge.Tables

variable {t : Tables}

/-- A label that a preset and a constant have in common. -/
def Ambiguous (t : Tables) (label : String) : Prop :=
  ∃ name, label = "p(" ++ name ++ ")" ∧ (t.entry? ⟨.preset,name⟩).isSome ∧
    (t.entry? ⟨.constant,label⟩).isSome

def Misleads (t : Tables) (chain : List String) : Prop :=
  ∃ label, chain.getLast? = some label ∧ t.Ambiguous label

def Misled (t : Tables) (result : Except Fault Value) : Prop :=
  ∃ chain, chain? result = some chain ∧ t.Misleads chain

def Leads (t : Tables) (r : Reference) (q : Query Value) : Prop :=
  ∃ e, t.tree? r = some (.ok e) ∧ ∀ s, t.Reaches q s → t.Reaches e.value s

theorem entry?_isSome {tree : Except Fault Expr} (found : t.tree? r = some tree) :
    (t.entry? r).isSome := by
  obtain ⟨raw,entry,_⟩ := Option.map_eq_some_iff.1 found
  simp [entry]

theorem ambiguous_of_label_eq (first : (t.entry? r).isSome) (second : (t.entry? s).isSome)
    (different : r ≠ s) (same : r.label = s.label) : t.Ambiguous r.label := by
  obtain ⟨table,name⟩ := r
  obtain ⟨table',name'⟩ := s
  cases table <;> cases table'
  · exact absurd (congrArg (Reference.mk .constant) same) different
  · obtain rfl : name = "p(" ++ name' ++ ")" := same
    exact ⟨name',rfl,second,first⟩
  · obtain rfl : "p(" ++ name ++ ")" = name' := same
    exact ⟨name,rfl,first,second⟩
  · have inner : ("p(" ++ name ++ ")").toList = ("p(" ++ name' ++ ")").toList :=
      congrArg String.toList same
    simp only [String.toList_append,List.append_assoc,List.append_cancel_left_eq,
      List.append_cancel_right_eq,String.toList_inj] at inner
    exact absurd (congrArg (Reference.mk .preset) inner) different

@[simp] theorem getLast?_circle (label : String) (chain : List String) :
    (circle label chain).getLast? = some label := List.getLast?_concat

theorem misled_within (r : Reference) (misled : t.Misled (.error fault)) :
    t.Misled (.error (r.within fault)) := by
  obtain ⟨chain,tells,misleads⟩ := misled
  exact ⟨chain,by simpa [chain?] using tells,misleads⟩

theorem Leads.later (leads : t.Leads r (.ask s next)) (value : t.HasValue s v) :
    t.Leads r (next v) := by
  obtain ⟨e,tree,reaches⟩ := leads
  exact ⟨e,tree,fun u reached => reaches u (.later value reached)⟩

theorem Leads.inside (leads : t.Leads r (.ask s next)) (tree : t.tree? s = some (.ok e)) :
    t.Leads r e.value := by
  obtain ⟨e',tree',reaches⟩ := leads
  exact ⟨e',tree',fun u reached => reaches u (.inside tree reached)⟩

/-- The entries that are being evaluated lead to the evaluation of a further one. -/
theorem leads_inside {above : List Reference} (leads : ∀ a ∈ above, t.Leads a (.ask r next))
    (tree : t.tree? r = some (.ok e)) : ∀ a ∈ r :: above, t.Leads a e.value := by
  intro a member
  rcases List.mem_cons.1 member with rfl | member
  · exact ⟨e,tree,fun _ reached => reached⟩
  · exact (leads a member).inside tree

/-- Where an entry does not lead back to itself, a chain that closes at it is misleading. -/
theorem misleads_circle {above : List Reference} (leads : ∀ a ∈ above, t.Leads a (.ask r next))
    (entry : (t.entry? r).isSome) (straight : ¬t.Recurs r)
    (back : r.label ∈ above.map Reference.label) :
    t.Misleads (circle r.label (above.map Reference.label)) := by
  obtain ⟨a,member,same⟩ := List.mem_map.1 back
  obtain ⟨e,tree,reaches⟩ := leads a member
  have different : r ≠ a := by
    rintro rfl
    exact straight ⟨e,tree,reaches _ .here⟩
  exact ⟨r.label,getLast?_circle _ _,
    ambiguous_of_label_eq entry (entry?_isSome tree) different same.symm⟩

/-- A query with a plain result has that result in every run, unless the run is misled. -/
theorem Runs.plain_or_misled (run : t.Runs above q k result k') (sound : t.Sound k)
    (leads : ∀ a ∈ above, t.Leads a q) (plain : t.Yields q other) :
    result = other ∨ t.Misled result := by
  induction run generalizing other with
  | done =>
    cases plain
    exact .inl rfl
  | fail =>
    cases plain
    exact .inl rfl
  | known known _ ih =>
    have value := sound.hasValue known
    exact ih sound (fun a member => (leads a member).later value) (plain.rest value)
  | lost _ absent =>
    cases plain with
    | lost => exact .inl rfl
    | unreadable tree | failing tree | answered tree => cases absent.symm.trans tree
  | circular _ tree back =>
    have straight := plain.not_recurs .here
    exact .inr ⟨_,rfl,misleads_circle leads (entry?_isSome tree) straight back⟩
  | unreadable _ tree _ =>
    rw [Reference.within_eq_wrapped _ (unreadable_chain? tree)]
    cases plain with
    | lost absent => cases absent.symm.trans tree
    | unreadable tree' =>
      cases tree.symm.trans tree'
      exact .inl rfl
    | failing tree' | answered tree' => cases tree.symm.trans tree'
  | failing _ tree _ _ ih =>
    cases plain with
    | lost absent => cases absent.symm.trans tree
    | unreadable tree' => cases tree.symm.trans tree'
    | failing tree' inner =>
      cases tree.symm.trans tree'
      rcases ih sound (leads_inside leads tree) inner with same | misled
      · cases same
        have straight := inner.chain?_eq_none (Expr.value_chainless _)
        exact .inl (congrArg _ (Reference.within_eq_wrapped _ straight))
      · exact .inr (misled_within _ misled)
    | answered tree' inner =>
      cases tree.symm.trans tree'
      rcases ih sound (leads_inside leads tree) inner with impossible | misled
      · cases impossible
      · exact .inr (misled_within _ misled)
  | answered _ tree _ inner _ _ ihRest =>
    obtain ⟨kept,yields⟩ := inner.sound sound
    have value : t.HasValue _ _ := ⟨_,tree,yields rfl⟩
    exact ihRest (kept.keep value) (fun a member => (leads a member).later value) (plain.rest value)

end ThemeForge.Tables
