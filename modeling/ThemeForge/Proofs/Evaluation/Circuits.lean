import ThemeForge.Proofs.Evaluation.Independence

/-!
# What a chain tells

The entries of a chain that is told of lead from one to the next: each looks the next one up while it
is evaluated. The last has the label of the first, and is the first unless two entries have that
label. What has a plain result tells of a chain only in the second case.
-/

namespace ThemeForge

/-- The label of a reference closes a chain at the latest entry that has it. -/
theorem exists_circle {r : Reference} {above : List Reference}
    (back : r.label ∈ above.map Reference.label) :
    ∃ between a behind, above = between ++ a :: behind ∧ a.label = r.label ∧
      circle r.label (above.map Reference.label) =
        (a :: (between.reverse ++ [r])).map Reference.label := by
  suffices split : ∃ between a behind, above = between ++ a :: behind ∧ a.label = r.label ∧
      (above.map Reference.label).takeWhile (· != r.label) = between.map Reference.label by
    obtain ⟨between,a,behind,whole,same,front⟩ := split
    refine ⟨between,a,behind,whole,same,?_⟩
    simp [circle, front, same]
  induction above with
  | nil => cases back
  | cons b above ih =>
    by_cases same : b.label = r.label
    · exact ⟨[],b,above,rfl,same,by simp [same]⟩
    · have later : r.label ∈ above.map Reference.label := by
        simpa [Ne.symm same] using back
      obtain ⟨between,a,behind,rfl,closes,front⟩ := ih later
      refine ⟨b :: between,a,behind,rfl,closes,?_⟩
      rw [List.map_cons, List.takeWhile_cons_of_pos (by simpa using same), front, List.map_cons]

namespace Tables

inductive Asks (t : Tables) : Query Value → Reference → Prop
  | here : t.Asks (.ask r next) r
  | later : t.HasValue r value → t.Asks (next value) s → t.Asks (.ask r next) s

def LooksUp (t : Tables) (r s : Reference) : Prop :=
  ∃ e, t.tree? r = some (.ok e) ∧ t.Asks e.value s

/-- A chain has the labels of entries each of which looks the next one up. The last is the first, or
they are two entries with one label. -/
def Circuit (t : Tables) (chain : List String) : Prop :=
  ∃ first between last, chain = (first :: (between ++ [last])).map Reference.label ∧
    (∀ r ∈ first :: (between ++ [last]), (t.entry? r).isSome) ∧
    List.IsChain t.LooksUp (first :: (between ++ [last])) ∧ first.label = last.label ∧
    (first = last ∨ t.Ambiguous last.label)

/-- The entries above a query lead to it, the latest first. -/
structure Trail (t : Tables) (above : List Reference) (q : Query Value) : Prop where
  entries : ∀ a ∈ above, (t.entry? a).isSome
  path : above.IsChain fun r s => t.LooksUp s r
  latest : ∀ a ∈ above.head?, ∀ s, t.Asks q s → t.LooksUp a s

variable {t : Tables} {above : List Reference} {r : Reference} {q : Query Value}

theorem trail_nil (q : Query Value) : t.Trail [] q := ⟨by simp,.nil,by simp⟩

namespace Trail

variable {next : Value → Query Value}

theorem later (trail : t.Trail above (.ask r next)) (value : t.HasValue r v) :
    t.Trail above (next v) :=
  ⟨trail.entries,trail.path,fun a last s asks => trail.latest a last s (.later value asks)⟩

theorem path_cons (trail : t.Trail above (.ask r next)) :
    (r :: above).IsChain fun r s => t.LooksUp s r :=
  List.isChain_cons.mpr ⟨fun a last => trail.latest a last r .here,trail.path⟩

theorem inside (trail : t.Trail above (.ask r next)) (tree : t.tree? r = some (.ok e)) :
    t.Trail (r :: above) e.value := by
  refine ⟨?_,trail.path_cons,?_⟩
  · intro a member
    rcases List.mem_cons.mp member with rfl | member
    · exact entry?_isSome tree
    · exact trail.entries a member
  · intro a last s asks
    cases last
    exact ⟨e,tree,asks⟩

theorem circuit (trail : t.Trail above (.ask r next)) (entry : (t.entry? r).isSome)
    (back : r.label ∈ above.map Reference.label) :
    t.Circuit (circle r.label (above.map Reference.label)) := by
  obtain ⟨between,a,behind,rfl,same,labels⟩ := exists_circle back
  have exist : ∀ s ∈ a :: (between.reverse ++ [r]), (t.entry? s).isSome := by
    intro s member
    by_cases latest : s = r
    · exact latest ▸ entry
    · have nearer : s = a ∨ s ∈ between := by simpa [latest] using member
      refine trail.entries s (List.mem_append.mpr ?_)
      rcases nearer with rfl | nearer
      · exact .inr (List.mem_cons_self ..)
      · exact .inl nearer
  refine ⟨a,between.reverse,r,labels,exist,?_,same,?_⟩
  · have path := trail.path_cons
    rw [← List.cons_append, List.append_cons] at path
    have front := List.isChain_reverse.mpr path.left_of_append
    simpa using front
  · by_cases closed : a = r
    · exact .inl closed
    · rw [← same]
      exact .inr (ambiguous_of_label_eq (exist a (by simp)) entry closed same)

end Trail

theorem Runs.circuit (run : t.Runs above q k result k') (sound : t.Sound k)
    (trail : t.Trail above q) (chainless : q.Chainless) (tells : chain? result = some chain) :
    t.Circuit chain := by
  -- A chain begins where a label is found again; what an entry tells is passed on by those above it.
  induction run with
  | done => cases tells
  | fail =>
    cases chainless with
    | fail other => cases other.symm.trans tells
  | known known _ ih =>
    cases chainless with
    | ask rest => exact ih sound (trail.later (sound.hasValue known)) (rest _) tells
  | lost => cases (lost_chain? _).symm.trans tells
  | circular _ tree back =>
    cases tells
    exact trail.circuit (entry?_isSome tree) back
  | unreadable _ tree _ =>
    rw [chain?, Reference.chain?_within, unreadable_chain? tree] at tells
    cases tells
  | failing _ tree _ _ ih =>
    rw [chain?, Reference.chain?_within] at tells
    exact ih sound (trail.inside tree) (Expr.value_chainless _) tells
  | answered _ tree _ inner _ _ ihRest =>
    obtain ⟨kept,yields⟩ := inner.sound sound
    have value : t.HasValue _ _ := ⟨_,tree,yields rfl⟩
    cases chainless with
    | ask rest => exact ihRest (kept.keep value) (trail.later value) (rest _) tells

end Tables

namespace Session

variable {s : Session} {chain : List String}

/-- The chain that an evaluation tells of is a circuit, and misleads where there is a plain result.
-/
theorem evaluate_chain (sound : s.Sound) (tells : chain? (s.evaluate source).1 = some chain) :
    s.tables.Circuit chain ∧
      ∀ result, s.tables.Evaluates source result → s.tables.Misleads chain := by
  unfold evaluate at tells
  cases parsed : Expr.parse source with
  | error fault =>
    rw [parsed] at tells
    cases (Tables.Evaluates.unreadable (t := s.tables) parsed).chain?_eq_none.symm.trans tells
  | ok e =>
    rw [parsed] at tells
    have run := s.eval_run e
    refine ⟨run.circuit sound (Tables.trail_nil _) (Expr.value_chainless e) tells,?_⟩
    intro result evaluates
    cases evaluates with
    | unreadable fails => cases parsed.symm.trans fails
    | tree parsed' plain =>
      cases parsed.symm.trans parsed'
      rcases run.plain_or_misled sound (by simp) plain with same | ⟨other,tells',misleads⟩
      · rw [same, plain.chain?_eq_none (Expr.value_chainless e)] at tells
        cases tells
      · cases tells.symm.trans tells'
        exact misleads

theorem chain?_map (f : String → String) (result : Except ExpansionFault String) :
    (Answer.text (result.map f)).chain? = (Answer.text result).chain? := by
  cases result <;> rfl

/-- The chain that an expansion tells of is that of one of its expressions, which has a plain result
if the template has a plain text. -/
theorem expandSegments_chain (location : String) (segments : List Segment) (sound : s.Sound)
    (tells : (Answer.text (expandSegments location segments s).1).chain? = some chain) :
    ∃ (s' : Session) (source : String), s'.tables = s.tables ∧ s'.Sound ∧
      chain? (s'.evaluate source).1 = some chain ∧
        ∀ text, s.tables.Spells location segments text →
          ∃ result, s.tables.Evaluates source result := by
  induction segments generalizing s with
  | nil => cases tells
  | cons segment rest ih =>
    cases segment with
    | literal text =>
      rw [expandSegments_literal, chain?_map] at tells
      obtain ⟨s',source,same,sound',tells,plain⟩ := ih sound tells
      refine ⟨s',source,same,sound',tells,?_⟩
      rintro _ (_ | spells)
      exact plain _ spells
    | expression source =>
      have same := tables_evaluate s source
      obtain ⟨kept,value⟩ := evaluate_sound s source sound
      rcases evaluated : s.evaluate source with ⟨fault | v,after⟩
      · rw [expandSegments_failing evaluated] at tells
        refine ⟨s,source,rfl,sound,?_,?_⟩
        · rw [evaluated]
          exact tells
        · rintro _ (_ | _ | fails | succeeds)
          · exact ⟨_,fails⟩
          · exact ⟨_,succeeds⟩
      · rw [expandSegments_expression evaluated, chain?_map] at tells
        rw [evaluated] at same kept value
        obtain ⟨s',source',same',sound',tells,plain⟩ := ih kept tells
        refine ⟨s',source',same'.trans same,sound',tells,?_⟩
        rintro _ (_ | _ | fails | ⟨succeeds,spells⟩)
        · cases (value rfl).unique fails
        · exact same ▸ plain _ (same ▸ spells)

/-- Whatever calls came before, a chain that an answer tells of is a circuit. If the call has a plain
answer, the chain closes at a label that a preset and a constant have in common. -/
theorem chain_circuit (t : Tables) (earlier : List Call) (c : Call)
    (tells : (((start t).after earlier).call c).1.chain? = some chain) :
    t.Circuit chain ∧ ∀ answer, t.Means c answer → t.Misleads chain := by
  obtain ⟨⟨sound,_⟩,same⟩ := after_settled (start_settled t) earlier
  generalize (start t).after earlier = s at tells sound same
  obtain rfl : s.tables = t := same
  cases c with
  | evaluate source =>
    obtain ⟨circuit,misleads⟩ := evaluate_chain sound tells
    refine ⟨circuit,?_⟩
    rintro _ ⟨evaluates⟩
    exact misleads _ evaluates
  | expand location template =>
    cases cut : Template.segments template with
    | error bad =>
      rw [call_malformed s cut] at tells
      cases (Template.segmentsOf_chainless cut).symm.trans tells
    | ok segments =>
      rw [call_segments s cut] at tells
      obtain ⟨s',source,same,sound',tells',plain⟩ := expandSegments_chain location segments sound tells
      obtain ⟨circuit,misleads⟩ := evaluate_chain sound' tells'
      rw [same] at circuit misleads
      refine ⟨circuit,?_⟩
      rintro _ (_ | ⟨malformed | ⟨cut',spells⟩⟩)
      · cases cut.symm.trans malformed
      · cases cut.symm.trans cut'
        obtain ⟨result,evaluates⟩ := plain _ spells
        exact misleads _ evaluates

theorem namesakes_evaluates : namesakes.Evaluates "p(x.y)" (.ok (.int 1)) := by
  have preset : namesakes.tree? ⟨.preset,"x.y"⟩ = some (.ok (.call .constant [.text "p(x.y)"] [])) :=
    congrArg (Option.map Expr.parse) (show _ = some "c('p(x.y)')" by cbv) |>.trans
      (congrArg some parse_constant)
  have constant : namesakes.tree? ⟨.constant,"p(x.y)"⟩ = some (.ok (.int 1)) := by cbv
  refine .tree parse_preset ?_
  rw [preset_asks]
  refine .answered preset ?_ .done
  rw [constant_asks]
  exact .answered constant .done .done

theorem namesakes_chain? : chain? ((start namesakes).evaluate "p(x.y)").1 =
    some ["p(x.y)","p(x.y)"] := by
  rw [evaluate_ask _ parse_preset preset_asks]
  dsimp only [start]
  rw [namesakes_preset]
  rfl

/-- The chain of two entries with one label is a circuit that misleads. -/
theorem namesakes_circuit : namesakes.Circuit ["p(x.y)","p(x.y)"] ∧
    namesakes.Misleads ["p(x.y)","p(x.y)"] := by
  have tells : (((start namesakes).after []).call (.evaluate "p(x.y)")).1.chain? =
      some ["p(x.y)","p(x.y)"] := namesakes_chain?
  obtain ⟨circuit,misleads⟩ := chain_circuit namesakes [] (.evaluate "p(x.y)") tells
  exact ⟨circuit,misleads _ (.evaluate namesakes_evaluates)⟩

/-- A preset with a plain value is answered with a chain. -/
theorem evaluates_and_misleads :
    Settings.parse "[p(x]\ny)=1" = .ok namesakes.constants ∧
      Settings.parse "[x]\ny=c('p(x.y)')" = .ok namesakes.presets ∧
      namesakes.Evaluates "p(x.y)" (.ok (.int 1)) ∧
      chain? ((start namesakes).evaluate "p(x.y)").1 = some ["p(x.y)","p(x.y)"] :=
  ⟨by cbv,by cbv,namesakes_evaluates,namesakes_chain?⟩

end Session
end ThemeForge
