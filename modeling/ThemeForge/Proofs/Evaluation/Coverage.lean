import ThemeForge.Proofs.Evaluation.Cycles

/-!
# What is known rests on what is known

A session that knows the value of a constant also knows the constants that this value rests on. So
of two runs of one query, the one that starts with less never learns what the other does not know.
-/

namespace ThemeForge.Tables

variable {t : Tables}

def Extends (k k' : Known) : Prop := ∀ name value, k.lookup name = some value →
  k'.lookup name = some value

/-- A query gets its value from constants that are known, and from presets that do. -/
inductive Covers (t : Tables) (k : Known) : Query Value → Value → Prop
  | done : t.Covers k (.done value) value
  | known : r.known? k = some w → t.Covers k (next w) value → t.Covers k (.ask r next) value
  | preset : r.table = .preset → t.tree? r = some (.ok e) → t.Covers k e.value w →
      t.Covers k (next w) value → t.Covers k (.ask r next) value

def Closed (t : Tables) (k : Known) : Prop := ∀ name value, k.lookup name = some value →
  ∃ e, t.tree? ⟨.constant,name⟩ = some (.ok e) ∧ t.Covers k e.value value

variable {r : Reference} {v w : Value}

theorem Extends.refl (k : Known) : Extends k k := fun _ _ found => found

theorem Extends.trans (first : Extends k k') (second : Extends k' k'') : Extends k k'' :=
  fun name value found => second name value (first name value found)

theorem extends_nil (k : Known) : Extends [] k := by
  intro name value found
  simp at found

theorem closed_nil : t.Closed [] := by
  intro name value found
  simp at found

theorem Extends.known? (more : Extends k k') (known : r.known? k = some v) :
    r.known? k' = some v := by
  obtain ⟨table,name⟩ := r
  cases table with
  | constant => exact more name v known
  | preset => simp [Reference.known?] at known

theorem known?_keep {k : Known} (constant : r.table = .constant) :
    r.known? (r.keep v k) = some v := by
  obtain ⟨table,name⟩ := r
  cases constant
  simp [Reference.known?,Reference.keep]

theorem lookup_keep {k : Known} (found : (r.keep v k).lookup name = some w) :
    (r = ⟨.constant,name⟩ ∧ v = w) ∨ k.lookup name = some w := by
  obtain ⟨table,other⟩ := r
  cases table with
  | preset => exact .inr found
  | constant =>
    by_cases same : name = other
    · subst same
      exact .inl ⟨rfl,by simpa [Reference.keep] using found⟩
    · have no : (name == other) = false := by simpa using same
      exact .inr (by simpa [Reference.keep,List.lookup_cons,no] using found)

/-- Keeping the value of an entry forgets nothing, since the value that may be known is the same. -/
theorem extends_keep (sound : t.Sound k) (value : t.HasValue r v) : Extends k (r.keep v k) := by
  intro name w found
  obtain ⟨table,other⟩ := r
  cases table with
  | preset => exact found
  | constant =>
    by_cases same : name = other
    · subst same
      rw [value.unique (sound name w found)]
      simp [Reference.keep]
    · have no : (name == other) = false := by simpa using same
      simpa [Reference.keep,List.lookup_cons,no] using found

/-- One more value is known already where its entry is a constant that is known. -/
theorem Extends.keep_left (more : Extends k all)
    (known : r.table = .constant → r.known? all = some v) : Extends (r.keep v k) all := by
  intro name w found
  rcases lookup_keep found with ⟨rfl,rfl⟩ | before
  · exact known rfl
  · exact more name w before

theorem Extends.keep (more : Extends k k') (sound : t.Sound k') (value : t.HasValue r v) :
    Extends (r.keep v k) (r.keep v k') :=
  (more.trans (extends_keep sound value)).keep_left known?_keep

theorem Covers.mono (more : Extends k k') (covers : t.Covers k q v) : t.Covers k' q v := by
  induction covers with
  | done => exact .done
  | known known _ ih => exact .known (more.known? known) ih
  | preset table tree _ _ ihInner ihRest => exact .preset table tree ihInner ihRest

theorem Covers.yields (sound : t.Sound k) (covers : t.Covers k q v) : t.Yields q (.ok v) := by
  induction covers with
  | done => exact .done
  | known known _ ih =>
    obtain ⟨e,tree,yields⟩ := sound.hasValue known
    exact .answered tree yields ih
  | preset _ tree _ _ ihInner ihRest => exact .answered tree ihInner ihRest

theorem Closed.of_known? (closed : t.Closed k) (known : r.known? k = some v) :
    ∃ e, t.tree? r = some (.ok e) ∧ t.Covers k e.value v := by
  obtain ⟨table,name⟩ := r
  cases table with
  | constant => exact closed name v known
  | preset => simp [Reference.known?] at known

/-- The entry that a covered query asks for is covered, and known if it is a constant. -/
theorem Covers.asked (closed : t.Closed k) (covers : t.Covers k (.ask r next) v) :
    ∃ e w, t.tree? r = some (.ok e) ∧ t.Covers k e.value w ∧ t.Covers k (next w) v ∧
      (r.table = .constant → r.known? k = some w) := by
  cases covers with
  | known known rest =>
    obtain ⟨e,tree,inner⟩ := closed.of_known? known
    exact ⟨e,_,tree,inner,rest,fun _ => known⟩
  | preset isPreset tree inner rest =>
    exact ⟨_,_,tree,inner,rest,fun isConstant => by cases isPreset.symm.trans isConstant⟩

theorem Closed.keep (closed : t.Closed k) (sound : t.Sound k) (tree : t.tree? r = some (.ok e))
    (covers : t.Covers k e.value v) : t.Closed (r.keep v k) := by
  have more := extends_keep sound ⟨e,tree,covers.yields sound⟩
  intro name w found
  rcases lookup_keep found with ⟨rfl,rfl⟩ | before
  · exact ⟨e,tree,covers.mono more⟩
  · obtain ⟨e',tree',covers'⟩ := closed name w before
    exact ⟨e',tree',covers'.mono more⟩

/-- A run forgets nothing and keeps what is known closed. What it knows in the end covers its query
if it has a value. -/
theorem Runs.closed (run : t.Runs above q k result k') (sound : t.Sound k) (closed : t.Closed k) :
    t.Closed k' ∧ Extends k k' ∧ ∀ v, result = .ok v → t.Covers k' q v := by
  induction run with
  | done => exact ⟨closed,.refl _,fun v same => by cases same; exact .done⟩
  | fail => exact ⟨closed,.refl _,fun v same => by cases same⟩
  | known known _ ih =>
    obtain ⟨closed',more,covers⟩ := ih sound closed
    exact ⟨closed',more,fun v same => .known (more.known? known) (covers v same)⟩
  | lost | circular | unreadable => exact ⟨closed,.refl _,fun v same => by cases same⟩
  | failing _ _ _ _ ih =>
    obtain ⟨closed',more,_⟩ := ih sound closed
    exact ⟨closed',more,fun v same => by cases same⟩
  | @answered r _ _ _ _ _ _ _ _ _ tree _ inner _ ihInner ihRest =>
    obtain ⟨closed',more,covers⟩ := ihInner sound closed
    obtain ⟨sound',yields⟩ := inner.sound sound
    have value : t.HasValue r _ := ⟨_,tree,yields rfl⟩
    have kept := extends_keep sound' value
    obtain ⟨closedAfter,moreAfter,coversAfter⟩ :=
      ihRest (sound'.keep value) (closed'.keep sound' tree (covers _ rfl))
    refine ⟨closedAfter,more.trans (kept.trans moreAfter),fun v same => ?_⟩
    cases table : r.table with
    | constant => exact .known (moreAfter.known? (known?_keep table)) (coversAfter v same)
    | preset =>
      exact .preset table tree ((covers _ rfl).mono (kept.trans moreAfter)) (coversAfter v same)

/-- A run of a query that a closed set of values covers learns no more than that set. -/
theorem Runs.extends_of_covers (run : t.Runs above q k result k') (sound : t.Sound k)
    (soundAll : t.Sound all) (closed : t.Closed all) (more : Extends k all)
    (covers : t.Covers all q v) : Extends k' all := by
  induction run generalizing v with
  | done | fail | lost | circular | unreadable => exact more
  | known known _ ih =>
    obtain ⟨e,w,tree,inner,rest,_⟩ := covers.asked closed
    obtain rfl := (sound.hasValue known).unique ⟨e,tree,inner.yields soundAll⟩
    exact ih sound more rest
  | failing _ tree _ _ ih =>
    obtain ⟨e,w,other,inner,_,_⟩ := covers.asked closed
    obtain rfl : _ = e := by simpa [tree] using other
    exact ih sound more inner
  | answered _ tree _ run _ ihInner ihRest =>
    obtain ⟨e,w,other,inner,rest,known⟩ := covers.asked closed
    obtain rfl : _ = e := by simpa [tree] using other
    obtain ⟨sound',yields⟩ := run.sound sound
    have value : t.HasValue _ _ := ⟨_,tree,yields rfl⟩
    obtain rfl := value.unique ⟨_,tree,inner.yields soundAll⟩
    exact ihRest (sound'.keep value) ((ihInner sound more inner).keep_left known) rest

/-- Runs of one query from two sets of values agree, unless the one that knows less is misled. -/
theorem Runs.agree (first : t.Runs above q k a k') (second : t.Runs above q all b all')
    (sound : t.Sound k) (soundAll : t.Sound all) (closed : t.Closed all) (more : Extends k all)
    (leads : ∀ r ∈ above, t.Leads r q) : (a = b ∧ Extends k' all') ∨ t.Misled a := by
  induction first generalizing all all' b with
  | done => cases second; exact .inl ⟨rfl,more⟩
  | fail => cases second; exact .inl ⟨rfl,more⟩
  | known known _ ih =>
    have value := sound.hasValue known
    have knownAll := more.known? known
    cases second with
    | known other rest =>
      obtain rfl : _ = _ := by simpa [knownAll] using other
      exact ih rest sound soundAll closed more fun r member => (leads r member).later value
    | lost unknown | circular unknown | unreadable unknown | failing unknown
    | answered unknown => simp [knownAll] at unknown
  | lost _ absent =>
    cases second with
    | known known => obtain ⟨e,tree,_⟩ := soundAll.hasValue known; simp [absent] at tree
    | lost => exact .inl ⟨rfl,more⟩
    | circular _ tree | unreadable _ tree | failing _ tree | answered _ tree =>
      simp [absent] at tree
  | circular _ tree back =>
    cases second with
    | known known =>
      obtain ⟨e,other,yields⟩ := soundAll.hasValue known
      have plain : t.Yields (.ask _ .done) (.ok _) := .answered other yields .done
      have straight := plain.not_recurs .here
      exact .inr ⟨_,rfl,misleads_circle leads (entry?_isSome tree) straight back⟩
    | lost _ absent => simp [absent] at tree
    | circular => exact .inl ⟨rfl,more⟩
    | unreadable _ _ new | failing _ _ new | answered _ _ new => exact absurd back new
  | unreadable _ tree new =>
    cases second with
    | known known => obtain ⟨e,other,_⟩ := soundAll.hasValue known; simp [tree] at other
    | lost _ absent => simp [absent] at tree
    | circular _ _ back => exact absurd back new
    | unreadable _ other =>
      obtain rfl : _ = _ := by simpa [tree] using other
      exact .inl ⟨rfl,more⟩
    | failing _ other | answered _ other => simp [tree] at other
  | failing _ tree new inner ih =>
    cases second with
    | known known =>
      obtain ⟨e,other,yields⟩ := soundAll.hasValue known
      obtain rfl : _ = e := by simpa [tree] using other
      rcases inner.plain_or_misled sound (leads_inside leads tree) yields with impossible | misled
      · cases impossible
      · exact .inr (misled_within _ misled)
    | lost _ absent => simp [absent] at tree
    | circular _ _ back => exact absurd back new
    | unreadable _ other => simp [tree] at other
    | failing _ other _ inner' =>
      obtain rfl : _ = _ := by simpa [tree] using other
      rcases ih inner' sound soundAll closed more (leads_inside leads tree) with
        ⟨same,after⟩ | misled
      · cases same
        exact .inl ⟨rfl,after⟩
      · exact .inr (misled_within _ misled)
    | answered _ other _ inner' =>
      obtain rfl : _ = _ := by simpa [tree] using other
      rcases ih inner' sound soundAll closed more (leads_inside leads tree) with
        ⟨same,after⟩ | misled
      · cases same
      · exact .inr (misled_within _ misled)
  | answered _ tree new inner _ ihInner ihRest =>
    obtain ⟨sound',yields⟩ := inner.sound sound
    have value : t.HasValue _ _ := ⟨_,tree,yields rfl⟩
    have onward : ∀ r ∈ _, t.Leads r _ := fun r member => (leads r member).later value
    cases second with
    | known known rest =>
      obtain rfl := value.unique (soundAll.hasValue known)
      obtain ⟨e,other,covers⟩ := closed.of_known? known
      obtain rfl : _ = e := by simpa [tree] using other
      have kept := inner.extends_of_covers sound soundAll closed more covers
      exact ihRest rest (sound'.keep value) soundAll closed (kept.keep_left fun _ => known) onward
    | lost _ absent => simp [absent] at tree
    | circular _ _ back => exact absurd back new
    | unreadable _ other => simp [tree] at other
    | failing _ other _ inner' =>
      obtain rfl : _ = _ := by simpa [tree] using other
      rcases ihInner inner' sound soundAll closed more (leads_inside leads tree) with
        ⟨same,after⟩ | ⟨_,tells,_⟩
      · cases same
      · cases tells
    | answered _ other _ inner' rest =>
      obtain rfl : _ = _ := by simpa [tree] using other
      rcases ihInner inner' sound soundAll closed more (leads_inside leads tree) with
        ⟨same,after⟩ | ⟨_,tells,_⟩
      · cases same
        obtain ⟨soundAll',_⟩ := inner'.sound soundAll
        obtain ⟨closed',_,covers⟩ := inner'.closed soundAll closed
        exact ihRest rest (sound'.keep value) (soundAll'.keep value)
          (closed'.keep soundAll' tree (covers _ rfl)) (after.keep soundAll' value) onward
      · cases tells

end ThemeForge.Tables
