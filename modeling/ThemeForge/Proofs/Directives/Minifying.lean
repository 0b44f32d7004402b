import ThemeForge.Proofs.Directives.Contents
import ThemeForge.Proofs.Directives.Joining
import ThemeForge.Proofs.Evaluation.Circuits
import ThemeForge.Proofs.Evaluation.Independence
import ThemeForge.Proofs.Evaluation.Relaid
import ThemeForge.Proofs.Settings.Proper
import ThemeForge.Proofs.Template.Relaid
import Mathlib

/-!
# Minified directives

Directives are minified before they are expanded, without regard to expressions. If no expression
reaches into a comment or out of one, nothing but comments and layout is lost: the expansion says
the same as without minifying, unless a comment is more than a comment once it is expanded.
-/

namespace ThemeForge

open Text

theorem Tables.unfed_of_parse {t : Tables} (constants : Settings.parse written = .ok t.constants)
    (presets : Settings.parse written' = .ok t.presets) : t.Unfed := by
  intro r feed
  have proper : (t.settings r.table).Proper := by
    cases r.table with
    | constant => exact Settings.parse_proper constants
    | preset => exact Settings.parse_proper presets
  cases found : t.entry? r with
  | none => rw [Tables.tree?, found]; rfl
  | some raw =>
    obtain ⟨⟨section_,key⟩,split,got⟩ := Option.bind_eq_some_iff.mp found
    obtain ⟨keys,inSections,inKeys⟩ := Option.bind_eq_some_iff.mp got
    have own := proper.each _ (exists_of_lookup inSections)
    have option := own.options.each _ (exists_of_lookup inKeys)
    rw [eq_of_splitName? split] at feed
    simp only [String.toList_append, List.mem_append] at feed
    rcases feed with (feed | feed) | feed
    · exact absurd feed own.single
    · simp at feed
    · exact absurd feed option.key.single

namespace Tables

variable {t : Tables} {location : String}

@[simp] theorem spells_nil {text : String} : t.Spells location [] (.ok text) ↔ text = "" := by
  constructor
  · intro spells
    cases spells
    rfl
  · rintro rfl
    exact .nil

theorem spells_literal_cons {s text : String} {rest : List Segment} :
    t.Spells location (.literal s :: rest) (.ok text) ↔
      ∃ more, t.Spells location rest (.ok more) ∧ text = s ++ more := by
  constructor
  · intro spells
    generalize whole : (Except.ok text : Except ExpansionFault String) = result at spells
    cases spells with
    | literal spells =>
      obtain ⟨more,rfl,rfl⟩ := map_ok_iff.mp whole.symm
      exact ⟨more,spells,rfl⟩
  · rintro ⟨more,spells,rfl⟩
    exact .literal spells

theorem spells_expression_cons {source text : String} {rest : List Segment} :
    t.Spells location (.expression source :: rest) (.ok text) ↔
      ∃ v more, t.Evaluates source (.ok v) ∧ t.Spells location rest (.ok more) ∧
        text = v.result ++ more := by
  constructor
  · intro spells
    generalize whole : (Except.ok text : Except ExpansionFault String) = result at spells
    cases spells with
    | failing => cases whole
    | expression evaluates spells =>
      obtain ⟨more,rfl,rfl⟩ := map_ok_iff.mp whole.symm
      exact ⟨_,more,evaluates,spells,rfl⟩
  · rintro ⟨v,more,evaluates,spells,rfl⟩
    exact .expression evaluates spells

theorem spells_literal {x : List Char} {text : String} :
    t.Spells location (Template.literal x) (.ok text) ↔ text = String.ofList x := by
  cases x with
  | nil => exact spells_nil
  | cons c x => simp [Template.literal, spells_literal_cons]

theorem spells_glue {pieces others : List Segment} {text : String} :
    t.Spells location (Template.glue pieces others) (.ok text) ↔
      ∃ first second, t.Spells location pieces (.ok first) ∧
        t.Spells location others (.ok second) ∧ text = first ++ second := by
  fun_induction Template.glue pieces others generalizing text with
  | case1 others => simp
  | case2 s more others =>
    simp only [spells_literal_cons, spells_nil]
    constructor
    · rintro ⟨rest,spells,rfl⟩
      exact ⟨s,more ++ rest,⟨"",rfl,by simp⟩,⟨rest,spells,rfl⟩,String.append_assoc ..⟩
    · rintro ⟨_,_,⟨_,rfl,rfl⟩,⟨rest,spells,rfl⟩,rfl⟩
      exact ⟨rest,spells,by simp [String.append_assoc]⟩
  | case3 piece rest others _ ih =>
    cases piece with
    | literal s =>
      simp only [spells_literal_cons, ih]
      constructor
      · rintro ⟨_,⟨first,second,front,back,rfl⟩,rfl⟩
        exact ⟨s ++ first,second,⟨first,front,rfl⟩,back,(String.append_assoc ..).symm⟩
      · rintro ⟨_,second,⟨first,front,rfl⟩,back,rfl⟩
        exact ⟨first ++ second,⟨first,second,front,back,rfl⟩,String.append_assoc ..⟩
    | expression source =>
      simp only [spells_expression_cons, ih]
      constructor
      · rintro ⟨v,_,evaluates,⟨first,second,front,back,rfl⟩,rfl⟩
        exact ⟨_,second,⟨v,first,evaluates,front,rfl⟩,back,(String.append_assoc ..).symm⟩
      · rintro ⟨_,second,⟨v,first,evaluates,front,rfl⟩,back,rfl⟩
        exact ⟨v,_,evaluates,⟨first,second,front,back,rfl⟩,String.append_assoc ..⟩

theorem spells_relaid {pieces others : List Segment} (unfed : t.Unfed)
    (each : List.Forall₂ Segment.Relaid pieces others)
    (spells : t.Spells location pieces (.ok text)) :
    ∃ other, t.Spells location others (.ok other) ∧ Alike text other := by
  induction each generalizing text with
  | nil => exact ⟨text,spells,.refl text⟩
  | cons first _ ih =>
    cases first with
    | literal alike =>
      obtain ⟨more,rest,rfl⟩ := spells_literal_cons.mp spells
      obtain ⟨other,rest',alike'⟩ := ih rest
      exact ⟨_,spells_literal_cons.mpr ⟨other,rest',rfl⟩,alike.append alike'⟩
    | expression alike =>
      obtain ⟨v,more,evaluates,rest,rfl⟩ := spells_expression_cons.mp spells
      obtain ⟨w,evaluates',relaid⟩ := evaluates.relaid unfed alike
      obtain ⟨other,rest',alike'⟩ := ih rest
      exact ⟨_,spells_expression_cons.mpr ⟨w,other,evaluates',rest',rfl⟩,
        relaid.result.append alike'⟩

theorem expands_ok_iff {template text : String} : t.Expands location template (.ok text) ↔
    ∃ pieces, Template.segments template = .ok pieces ∧ t.Spells location pieces (.ok text) := by
  constructor
  · rintro (_ | ⟨cut,spells⟩)
    exact ⟨_,cut,spells⟩
  · rintro ⟨pieces,cut,spells⟩
    exact .segments cut spells

theorem expands_under {above below text : String} (cut : Template.segments above = .ok pieces) :
    t.Expands location (above ++ "\n" ++ below) (.ok text) ↔
      ∃ first second, t.Expands location above (.ok first) ∧
        t.Expands location below (.ok second) ∧ text = first ++ "\n" ++ second := by
  have whole := Template.segments_under cut below
  have feed {x : String} : t.Spells location [.literal "\n"] (.ok x) ↔ x = "\n" := by
    simp [spells_literal_cons]
  simp only [expands_ok_iff]
  constructor
  · rintro ⟨_,found,spells⟩
    obtain ⟨others,cutBelow,rfl⟩ := map_ok_iff.mp (whole ▸ found)
    obtain ⟨_,second,front,back,rfl⟩ := spells_glue.mp spells
    obtain ⟨first,_,own,ended,rfl⟩ := spells_glue.mp front
    rw [feed.mp ended]
    exact ⟨first,second,⟨pieces,cut,own⟩,⟨others,cutBelow,back⟩,rfl⟩
  · rintro ⟨first,second,⟨_,cut',own⟩,⟨others,cutBelow,back⟩,rfl⟩
    cases cut.symm.trans cut'
    refine ⟨_,whole.trans (by rw [cutBelow]; rfl),spells_glue.mpr ?_⟩
    exact ⟨_,second,spells_glue.mpr ⟨first,"\n",own,feed.mpr rfl,rfl⟩,back,rfl⟩

end Tables

namespace Directives

/-- The text without the comments of its lines. -/
def withoutComments (x : List Char) : List Char :=
  unlines ((splitOn '\n' x).map (beforeComment false))

/-- Directives with a comment behind them. -/
structure Commented where
  directives : List Char
  comment : List Char

namespace Commented

def text (p : Commented) : List Char := p.directives ++ p.comment

/-- The comment is what a comment of the text is, and no expression reaches from the directives into
it or out of it. -/
structure Apart (p : Commented) : Prop where
  single : '\n' ∉ p.comment
  cut : withoutComments p.text = p.directives
  closed : ∃ pieces, Template.segmentsOf p.directives = .ok pieces
  closedComment : ∃ pieces, Template.segmentsOf p.comment = .ok pieces

/-- The comment is still nothing but a comment when it is expanded with its directives. -/
def Silent (t : Tables) (location : String) (p : Commented) : Prop :=
  ∀ alone whole, t.Expands location (String.ofList p.directives) (.ok alone) →
    t.Expands location (String.ofList p.text) (.ok whole) → minified whole = minified alone

variable {p : Commented} {t : Tables} {location : String}

/-- The lines of the directives are those of the text without their comments. -/
theorem Apart.lines_eq (apart : p.Apart) :
    splitOn '\n' p.directives = (splitOn '\n' p.text).map (beforeComment false) := by
  conv => lhs; rw [← apart.cut, withoutComments]
  refine splitOn_unlines ?_ (by simpa using splitOn_ne_nil '\n' p.text)
  intro line member
  obtain ⟨part,within,rfl⟩ := List.mem_map.mp member
  exact fun feed => not_mem_of_mem_splitOn within ((beforeComment_front false part).mem feed)

theorem Apart.plain (apart : p.Apart) :
    ∀ line ∈ splitOn '\n' p.directives, beforeComment false line = line := by
  rw [apart.lines_eq]
  intro line member
  obtain ⟨part,_,rfl⟩ := List.mem_map.mp member
  exact beforeComment_idem false part

theorem Apart.contents_text (apart : p.Apart) : contents p.text = contents p.directives := by
  have same : content ∘ beforeComment false = content :=
    funext fun line => by rw [Function.comp, content, beforeComment_idem, content]
  rw [contents_eq, contents_eq, apart.lines_eq, contentsOf, contentsOf, List.map_map, same]

theorem Apart.comment_head (apart : p.Apart) (first : p.comment.head? = some c) : c = ';' := by
  obtain ⟨front,last,parts,further⟩ := splitOn_append '\n' p.directives
  have whole := apart.lines_eq
  rw [text, further, splitOn_free apart.single, parts, List.modifyHead_cons, List.map_append,
    List.map_cons, List.map_nil] at whole
  have ended : last = beforeComment false (last ++ p.comment) := by
    simpa using (List.append_inj' whole rfl).2
  have own := apart.plain last (by simp [parts])
  rcases beforeComment_append false last with ⟨_,escaped,after⟩ | ⟨cut,_⟩
  · obtain ⟨rest,written⟩ := List.head?_eq_some_iff.mp first
    rw [after, written, List.self_eq_append_right, beforeComment] at ended
    split at ended
    · next starts => exact starts.1
    · cases ended
  · exact absurd own cut

theorem Apart.open_ (apart : p.Apart) :
    p.directives.getLast? = some '{' → p.comment.head? ≠ some '{' := by
  intro _ first
  cases apart.comment_head first

theorem Apart.closed_text (apart : p.Apart) :
    ∃ pieces, Template.segments (String.ofList p.text) = .ok pieces := by
  obtain ⟨pieces,cut⟩ := apart.closed
  obtain ⟨others,cutComment⟩ := apart.closedComment
  rw [Template.segments, String.toList_ofList, text, Template.segmentsOf_append cut apart.open_,
    cutComment]
  exact ⟨_,rfl⟩

/-- A commented text is expanded to what its directives are expanded to, and more. -/
theorem Apart.expands (apart : p.Apart)
    (expands : t.Expands location (String.ofList p.text) (.ok whole)) :
    ∃ alone more, t.Expands location (String.ofList p.directives) (.ok alone) ∧
      whole = alone ++ more := by
  obtain ⟨pieces,cut⟩ := apart.closed
  obtain ⟨found,segments,spells⟩ := Tables.expands_ok_iff.mp expands
  rw [Template.segments, String.toList_ofList, text,
    Template.segmentsOf_append cut apart.open_] at segments
  obtain ⟨others,_,rfl⟩ := map_ok_iff.mp segments
  obtain ⟨alone,more,front,_,same⟩ := Tables.spells_glue.mp spells
  refine ⟨alone,more,Tables.expands_ok_iff.mpr ⟨pieces,?_,front⟩,same⟩
  rw [Template.segments, String.toList_ofList, cut]

theorem Apart.expands_contents (apart : p.Apart) (unfed : t.Unfed)
    (expands : t.Expands location (String.ofList p.directives) (.ok alone)) :
    ∃ shown, t.Expands location (String.ofList (unlines (contents p.directives))) (.ok shown) ∧
      contents shown.toList = contents alone.toList := by
  obtain ⟨w,inner,v,laysOut⟩ := exists_laysOut apart.plain
  obtain ⟨whole,before,behind,relaid⟩ := laysOut
  rw [← contents_eq] at relaid
  rw [unlines_splitOn, List.append_assoc] at whole
  obtain ⟨found,segments,spells⟩ := Tables.expands_ok_iff.mp expands
  rw [Template.segments, String.toList_ofList, whole, Template.segmentsOf_blank_append before] at segments
  obtain ⟨rest,cut,rfl⟩ := map_ok_iff.mp segments
  obtain ⟨pieces,own⟩ := Template.segmentsOf_append_blank behind cut
  have open_ : inner.getLast? = some '{' → v.head? ≠ some '{' := fun _ first =>
    not_mem_of_blank behind (by decide) (List.mem_of_head? first)
  rw [Template.segmentsOf_append own open_, Template.segmentsOf_blank behind] at cut
  cases cut
  obtain ⟨_,_,front,later,rfl⟩ := Tables.spells_glue.mp spells
  obtain ⟨core,_,middle,back,rfl⟩ := Tables.spells_glue.mp later
  rw [Tables.spells_literal.mp front, Tables.spells_literal.mp back]
  obtain ⟨others,own',each⟩ := Template.segmentsOf_relaid own relaid
  obtain ⟨shown,spells',alike⟩ := Tables.spells_relaid unfed each middle
  refine ⟨shown,Tables.expands_ok_iff.mpr ⟨others,?_,spells'⟩,?_⟩
  · rw [Template.segments, String.toList_ofList, own']
  · simp only [String.toList_append, String.toList_ofList]
    rw [contents_blank_append before, contents_append_blank behind, contents_relaid alike]

/-- What the directives say is expanded to no more than the text is, and to the same exactly if the
comment stays silent. -/
theorem Apart.expands_within (apart : p.Apart) (unfed : t.Unfed)
    (expands : t.Expands location (String.ofList p.text) (.ok whole)) :
    ∃ shown, t.Expands location (String.ofList (unlines (contents p.directives))) (.ok shown) ∧
      Within (contents shown.toList) (contents whole.toList) ∧
      (contents shown.toList = contents whole.toList ↔ p.Silent t location) := by
  obtain ⟨alone,more,own,rfl⟩ := apart.expands expands
  obtain ⟨shown,expands',same⟩ := apart.expands_contents unfed own
  refine ⟨shown,expands',?_,?_⟩
  · rw [same, String.toList_append]
    exact contents_append_within _ _
  · rw [same]
    constructor
    · intro silent alone' whole' own' expands''
      cases own.unique own'
      cases expands.unique expands''
      exact minified_inj.mpr silent.symm
    · exact fun silent => (minified_inj.mp (silent alone _ own expands)).symm

end Commented

variable {t : Tables} {location : String} {x y : String}

/-- Lines under others are expanded under their expansion, if there are any. -/
theorem expands_unlines {ls others : List (List Char)}
    (above : t.Expands location (String.ofList (unlines ls)) (.ok x))
    (below : t.Expands location (String.ofList (unlines others)) (.ok y)) :
    ∃ z, t.Expands location (String.ofList (unlines (ls ++ others))) (.ok z) ∧
      contents z.toList = contents x.toList ++ contents y.toList := by
  have empty {x : String} (expands : t.Expands location (String.ofList (unlines [])) (.ok x)) :
      contents x.toList = [] := by
    obtain ⟨pieces,cut,spells⟩ := Tables.expands_ok_iff.mp expands
    cases cut.symm.trans (show Template.segments "" = .ok [] by cbv)
    rw [Tables.spells_nil.mp spells]
    rfl
  by_cases none : ls = []
  · subst none
    exact ⟨y,below,by rw [empty above, List.nil_append]⟩
  by_cases none' : others = []
  · subst none'
    exact ⟨x,by rwa [List.append_nil],by rw [empty below, List.append_nil]⟩
  · obtain ⟨pieces,cut,_⟩ := Tables.expands_ok_iff.mp above
    refine ⟨x ++ "\n" ++ y,?_,?_⟩
    · rw [unlines_append none none', String.ofList_append, ← List.singleton_append,
        String.ofList_append, ← String.append_assoc]
      exact (Tables.expands_under cut).mpr ⟨x,y,above,below,rfl⟩
    · simp [contents_append_lineFeed]

/-- What commented texts under one another say is expanded to no more than the texts are, and to the
same exactly if all comments stay silent. -/
theorem expands_commented (unfed : t.Unfed) {ps : List Commented} (each : ∀ p ∈ ps, p.Apart)
    (expands : t.Expands location (String.ofList (unlines (ps.map Commented.text))) (.ok whole)) :
    ∃ shown, t.Expands location
        (String.ofList (unlines (ps.flatMap fun p => contents p.directives))) (.ok shown) ∧
      Within (contents shown.toList) (contents whole.toList) ∧
      (contents shown.toList = contents whole.toList ↔ ∀ p ∈ ps, p.Silent t location) := by
  induction ps generalizing whole with
  | nil => exact ⟨whole,expands,.inl rfl,by simp⟩
  | cons p ps ih =>
    obtain ⟨own,others⟩ := List.forall_mem_cons.mp each
    cases ps with
    | nil =>
      rw [List.map_cons, List.map_nil, unlines_singleton] at expands
      obtain ⟨shown,expands',within,silent⟩ := own.expands_within unfed expands
      refine ⟨shown,by simpa using expands',within,by simpa using silent⟩
    | cons q ps =>
      obtain ⟨pieces,cut⟩ := own.closed_text
      rw [List.map_cons, List.map_cons, unlines_cons_cons, String.ofList_append,
        ← List.singleton_append, String.ofList_append, ← String.append_assoc] at expands
      obtain ⟨first,second,above,below,rfl⟩ := (Tables.expands_under cut).mp expands
      obtain ⟨shown,expands',within,silent⟩ := own.expands_within unfed above
      obtain ⟨shown',expands'',within',silent'⟩ := ih others below
      obtain ⟨z,whole,same⟩ := expands_unlines expands' expands''
      have said : contents (first ++ String.ofList ['\n'] ++ second).toList =
          contents first.toList ++ contents second.toList := by
        simp [contents_append_lineFeed]
      refine ⟨z,by rwa [List.flatMap_cons],?_,?_⟩
      · rw [same]
        exact said ▸ within.append within'
      · rw [List.forall_mem_cons, ← silent, ← silent', same]
        constructor
        · exact fun equal => within.append_inj within' (equal.trans said)
        · rintro ⟨equal,equal'⟩
          rw [equal, equal']
          exact said.symm

end Directives

namespace Session

variable {s : Session} {location template : String}

/-- A session expands a template to its plain expansion, unless it tells of a chain that misleads. -/
theorem expand_of_expands (sound : s.Sound) (expands : s.tables.Expands location template (.ok text))
    (straight : ¬Misleading s.tables (s.call (.expand location template)).1) :
    (s.expand location template).1 = .ok text := by
  obtain ⟨pieces,cut,spells⟩ := Tables.expands_ok_iff.mp expands
  rw [call_segments s cut] at straight
  rw [expand_segments s location cut]
  cases tells : (Answer.text (expandSegments location pieces s).1).chain? with
  | none =>
    obtain ⟨_,_,plain⟩ := expandSegments_sound location pieces s sound
    exact (plain tells).unique spells
  | some chain =>
    obtain ⟨s',source,same,sound',tells',plain⟩ := expandSegments_chain location pieces sound tells
    obtain ⟨_,misleads⟩ := evaluate_chain sound' tells'
    obtain ⟨result,evaluates⟩ := plain _ spells
    rw [same] at misleads
    exact absurd ⟨chain,tells,misleads _ evaluates⟩ straight

end Session

namespace Directives

/-- Whatever was evaluated before, directives that are expanded can be minified before, if no
expression reaches into a comment or out of one. The expansion says the same exactly if every comment
is still nothing but a comment when it is expanded. A chain that closes at a label which a preset and
a constant have in common is the exception. -/
theorem expand_minified {t : Tables} (constants : Settings.parse written = .ok t.constants)
    (presets : Settings.parse written' = .ok t.presets) (earlier : List Call) (location : String)
    (texts : List String) (ps : List Commented) (apart : ∀ p ∈ ps, p.Apart)
    (made : (join false texts).toList = unlines (ps.map Commented.text))
    (expanded : (((Session.start t).after earlier).expand location (join false texts)).1 = .ok whole)
    (straight : ¬Session.Misleading t
      (((Session.start t).after earlier).call (.expand location (join true texts))).1) :
    ∃ shown, (((Session.start t).after earlier).expand location (join true texts)).1 = .ok shown ∧
      (minified shown = minified whole ↔ ∀ p ∈ ps, p.Silent t location) := by
  obtain ⟨settled,same⟩ := Session.after_settled (Session.start_settled t) earlier
  generalize (Session.start t).after earlier = s at *
  obtain rfl : s.tables = t := same
  have unfed := Tables.unfed_of_parse constants presets
  have plain : s.tables.Expands location (join false texts) (.ok whole) := by
    obtain ⟨_,_,plain⟩ := Session.call_sound s (.expand location (join false texts)) settled.sound
    rw [Session.call, expanded] at plain
    cases plain rfl with
    | expand expands => exact expands
  rw [← String.ofList_toList (s := join false texts), made] at plain
  obtain ⟨shown,expands,_,silent⟩ := expands_commented unfed apart plain
  have minify : join true texts =
      String.ofList (unlines (ps.flatMap fun p => contents p.directives)) := by
    rw [join_minified, minified, made, contents_unlines, List.flatMap_map]
    exact congrArg (fun ls => String.ofList (unlines ls))
      (List.flatMap_congr fun p member => (apart p member).contents_text)
  rw [← minify] at expands
  exact ⟨shown,Session.expand_of_expands settled.sound expands straight,minified_inj.trans silent⟩

/-- A text with an expression on two lines and one in a comment, one with a comment alone and one
without a comment. -/
def remarked : List String := ["x \x7b\x7b1 +\n  1\x7d\x7d  ; \x7b\x7b2\x7d\x7d\n\n","; all of it\n","y"]

def remarks : List Commented :=
  [⟨"x \x7b\x7b1 +\n  1\x7d\x7d  ".toList,"; \x7b\x7b2\x7d\x7d".toList⟩,⟨[],"; all of it".toList⟩,⟨['y'],[]⟩]

theorem remarks_apart : ∀ p ∈ remarks, p.Apart := by
  simp only [remarks, List.forall_mem_cons, List.not_mem_nil, false_imp_iff, implies_true, and_true]
  refine ⟨⟨by decide,by cbv,⟨_,by cbv⟩,⟨_,by cbv⟩⟩,⟨by decide,by cbv,⟨_,by cbv⟩,⟨_,by cbv⟩⟩,
    ⟨by decide,by cbv,⟨_,by cbv⟩,⟨_,by cbv⟩⟩⟩

def oneConstant : Tables := ⟨⟨[("a",[("b","1")])]⟩,.empty⟩

theorem remarked_silent :
    (Settings.parse "[a]\nb=1" = .ok oneConstant.constants ∧
      Settings.parse "" = .ok oneConstant.presets ∧ (∀ p ∈ remarks, p.Apart) ∧
      (join false remarked).toList = unlines (remarks.map Commented.text) ∧
      ((Session.start oneConstant).expand "rtconfig.txt" (join false remarked)).1 =
        .ok "x 2  ; 2\n; all of it\ny") ∧
      ∀ p ∈ remarks, p.Silent oneConstant "rtconfig.txt" := by
  have constants : Settings.parse "[a]\nb=1" = .ok oneConstant.constants := by cbv
  have presets : Settings.parse "" = .ok oneConstant.presets := by cbv
  have made : (join false remarked).toList = unlines (remarks.map Commented.text) := by cbv
  have whole : ((Session.start oneConstant).expand "rtconfig.txt" (join false remarked)).1 =
      .ok "x 2  ; 2\n; all of it\ny" := by cbv
  have short : ((Session.start oneConstant).expand "rtconfig.txt" (join true remarked)).1 =
      .ok "x 2\ny" := by cbv
  have straight : ¬Session.Misleading oneConstant
      ((Session.start oneConstant).call (.expand "rtconfig.txt" (join true remarked))).1 := by
    rw [Session.call, short]
    rintro ⟨chain,tells,_⟩
    cases tells
  obtain ⟨shown,expanded,silent⟩ := expand_minified constants presets [] "rtconfig.txt" remarked
    remarks remarks_apart made whole straight
  refine ⟨⟨constants,presets,remarks_apart,made,whole⟩,silent.mp ?_⟩
  cases short.symm.trans expanded
  cbv

/-- A semicolon in an expression is cut off when the directives are minified, and a comment can be
expanded to a line of its own. -/
theorem minified_differs :
    (((Session.start ⟨.empty,.empty⟩).expand "rtconfig.txt" (join false ["\x7b\x7b'a;b'\x7d\x7d"])).1 =
        .ok "a;b" ∧
      ((Session.start ⟨.empty,.empty⟩).expand "rtconfig.txt" (join true ["\x7b\x7b'a;b'\x7d\x7d"])).1 =
        .error ⟨"rtconfig.txt","\x7b\x7b'a",.unterminatedSpan⟩) ∧
    ((Session.start ⟨.empty,.empty⟩).expand "rtconfig.txt" (join false ["; \x7b\x7b'a\\nb'\x7d\x7d"])).1 =
        .ok "; a\nb" ∧
      ((Session.start ⟨.empty,.empty⟩).expand "rtconfig.txt" (join true ["; \x7b\x7b'a\\nb'\x7d\x7d"])).1 =
        .ok "" ∧
      minified "" ≠ minified "; a\nb" :=
  ⟨⟨by cbv,by cbv⟩,by cbv,by cbv,by cbv⟩

end Directives

end ThemeForge
