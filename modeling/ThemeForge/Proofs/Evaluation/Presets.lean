import ThemeForge.Proofs.Evaluation.Sessions

/-!
# A preset is its text

An entry at the bottom of the chain can be left out where nothing with its label is looked up above
it. So outside of all entries a preset that is not looked up in its own text has the value of that
text, and what is known afterwards is the same.
-/

namespace ThemeForge

theorem circle_append {chain : List String} (member : label ∈ chain) (behind : List String) :
    circle label (chain ++ behind) = circle label chain := by
  have stops : (chain ++ behind).takeWhile (· != label) = chain.takeWhile (· != label) := by
    induction chain with
    | nil => cases member
    | cons other chain ih =>
      by_cases same : other = label
      · simp [same]
      · have later : label ∈ chain := by simpa [Ne.symm same] using member
        simp [same, ih later]
  rw [circle, circle, stops]

namespace Tables

variable {t : Tables} {r : Reference} {k k' : Known} {above front : List Reference}
  {q : Query Value} {result : Except Fault Value} {e : Expr}

theorem exists_of_tree? {parsed : Except Fault Expr} (tree : t.tree? r = some parsed) :
    ∃ raw, (splitName? r.name).isNone = false ∧ t.entry? r = some raw ∧ Expr.parse raw = parsed := by
  obtain ⟨raw,found,same⟩ := Option.map_eq_some_iff.mp tree
  obtain ⟨name,cut,_⟩ := Option.bind_eq_some_iff.mp found
  exact ⟨raw,by rw [cut]; rfl,found,same⟩

theorem Runs.run_eq (run : t.Runs above q k result k') :
    q.run (t.answer (above.map Reference.label)) k = (result,k') := by
  induction run with
  | done | fail => rfl
  | known known _ ih =>
    rw [Query.run, answer_eq, known]
    exact ih
  | @lost r _ _ _ unknown absent =>
    rw [Query.run, answer_eq, unknown]
    have missing : t.entry? r = none := Option.map_eq_none_iff.mp absent
    simp only [missing, Reference.lost]
    cases (splitName? r.name).isNone <;> rfl
  | circular unknown tree back =>
    obtain ⟨raw,cut,found,_⟩ := exists_of_tree? tree
    rw [Query.run, answer_eq, unknown]
    simp only [cut, found, if_pos back, Bool.false_eq_true, if_false, Reference.within_circular]
  | unreadable unknown tree new =>
    obtain ⟨raw,cut,found,parsed⟩ := exists_of_tree? tree
    rw [Query.run, answer_eq, unknown]
    simp only [cut, found, if_neg new, parsed, Bool.false_eq_true, if_false]
  | failing unknown tree new _ ih =>
    obtain ⟨raw,cut,found,parsed⟩ := exists_of_tree? tree
    rw [List.map_cons] at ih
    rw [Query.run, answer_eq, unknown]
    simp only [cut, found, if_neg new, parsed, Bool.false_eq_true, if_false, ih]
  | answered unknown tree new _ _ ihInner ihRest =>
    obtain ⟨raw,cut,found,parsed⟩ := exists_of_tree? tree
    rw [List.map_cons] at ihInner
    rw [Query.run, answer_eq, unknown]
    simp only [cut, found, if_neg new, parsed, Bool.false_eq_true, if_false, ihInner]
    exact ihRest

/-- An entry at the bottom of the chain makes no difference to what comes to nothing with its label. -/
theorem Runs.without (run : t.Runs (front ++ [r]) q k result k') (sound : t.Sound k)
    (apart : ∀ s, t.Reaches q s → s.label ≠ r.label) : t.Runs front q k result k' := by
  generalize whole : front ++ [r] = above at run
  -- What is looked up is evaluated with one more entry above, so the front varies in the induction.
  induction run generalizing front with
  | done => exact .done
  | fail => exact .fail
  | known known _ ih =>
    exact .known known (ih sound (fun s reached => apart s (.later (sound.hasValue known) reached)) whole)
  | lost unknown absent => exact .lost unknown absent
  | @circular s _ _ _ _ unknown tree back =>
    subst whole
    have here : s.label ∈ front.map Reference.label := by
      simpa [apart s .here] using back
    rw [List.map_append, circle_append here]
    exact .circular unknown tree here
  | unreadable unknown tree new =>
    subst whole
    exact .unreadable unknown tree fun back => new (by simp [back])
  | failing unknown tree new _ ih =>
    subst whole
    refine .failing unknown tree (fun back => new (by simp [back])) ?_
    exact ih sound (fun s reached => apart s (.inside tree reached)) rfl
  | @answered s _ _ _ _ _ _ _ _ unknown tree new inner _ ihInner ihRest =>
    subst whole
    obtain ⟨kept,yields⟩ := inner.sound sound
    have value : t.HasValue _ _ := ⟨_,tree,yields rfl⟩
    have first := @ihInner (s :: front) sound (fun s reached => apart s (.inside tree reached)) rfl
    have later := ihRest (kept.keep value) (fun s reached => apart s (.later value reached)) rfl
    exact .answered unknown tree (fun back => new (by simp [back])) first later

/-- Two queries have the same result in every session that knows plain values, and leave the same
values known. -/
def Equates (t : Tables) (q q' : Query α) : Prop :=
  ∀ k, t.Sound k → q.run (t.answer []) k = q'.run (t.answer []) k

theorem Equates.refl (q : Query α) : t.Equates q q := fun _ _ => rfl

theorem Equates.of_eq {q q' : Query α} (same : q = q') : t.Equates q q' := same ▸ .refl q

/-- Whatever is evaluated, only plain values become known. -/
theorem run_sound (q : Query α) (sound : t.Sound k) : t.Sound (q.run (t.answer []) k).2 := by
  induction q generalizing k with
  | done | fail => exact sound
  | ask r next ih =>
    have answered := ((run_runs t [] (.ask r .done) k).sound sound).1
    rw [List.map_nil, Query.run] at answered
    rw [Query.run]
    generalize t.answer [] r k = outcome at answered
    rcases outcome with ⟨_ | value,k'⟩
    · exact answered
    · exact ih value answered

theorem Equates.bind {q q' : Query α} {next next' : α → Query β} (first : t.Equates q q')
    (rest : ∀ a, t.Equates (next a) (next' a)) : t.Equates (q >>= next) (q' >>= next') := by
  intro k sound
  have after := run_sound q' sound
  rw [Query.run_bind, Query.run_bind, first k sound]
  generalize q'.run (t.answer []) k = outcome at after
  rcases outcome with ⟨_ | a,k'⟩
  · rfl
  · exact rest a k' after

theorem Equates.mapM {f g : α → Query β} {as : List α} (each : ∀ a ∈ as, t.Equates (f a) (g a)) :
    t.Equates (as.mapM f) (as.mapM g) := by
  induction as with
  | nil => exact .refl _
  | cons a as ih =>
    rw [List.mapM_cons, List.mapM_cons]
    refine (each a List.mem_cons_self).bind fun b => ?_
    exact (ih fun a later => each a (List.mem_cons_of_mem _ later)).bind fun bs => .refl _

/-- A preset that is not looked up in its own text has the value of that text. -/
theorem equates_preset {name : String} (tree : t.tree? ⟨.preset,name⟩ = some (.ok e))
    (apart : ∀ s, t.Reaches e.value s → s.label ≠ Reference.label ⟨.preset,name⟩) :
    t.Equates (.ask ⟨.preset,name⟩ .done) e.value := by
  intro k sound
  have inner := run_runs t [⟨.preset,name⟩] e.value k
  generalize e.value.run (t.answer ([⟨.preset,name⟩].map Reference.label)) k = outcome at inner
  obtain ⟨result,k'⟩ := outcome
  have alone : t.Runs [] e.value k result k' := inner.without sound apart
  have asked : t.Runs [] (.ask ⟨.preset,name⟩ .done) k result k' := by
    cases result with
    | error fault => exact .failing rfl tree List.not_mem_nil inner
    | ok value => exact .answered rfl tree List.not_mem_nil inner .done
  exact asked.run_eq.trans alone.run_eq.symm

end Tables

end ThemeForge
