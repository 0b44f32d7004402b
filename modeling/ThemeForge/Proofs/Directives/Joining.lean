import ThemeForge.Directives
import ThemeForge.Proofs.Results
import ThemeForge.Proofs.Template.Cutting
import Mathlib

/-!
# Directives that are expanded together

Bodies under one another are expanded as they are one after another: a line feed stands between them,
so no expression reaches from one into the next. The session is handed on, and the first failure ends
both.
-/

namespace ThemeForge

/-- The expression that a segment is. -/
def Segment.source? : Segment → Option String
  | .literal _ => none
  | .expression source => some source

namespace Template

variable {text others : String} {pieces more : List Segment}

/-- The expressions of a template that is cut without a fault. -/
def sources (template : String) : List String :=
  match segments template with
  | .ok pieces => pieces.filterMap Segment.source?
  | .error _ => []

theorem filterMap_source?_glue (pieces others : List Segment) :
    (glue pieces others).filterMap Segment.source? =
      pieces.filterMap Segment.source? ++ others.filterMap Segment.source? := by
  fun_induction glue pieces others with
  | case1 => rfl
  | case2 => rfl
  | case3 piece rest others _ ih =>
    simp only [List.filterMap_cons, ih]
    split <;> rfl

theorem segments_append (cut : segments text = .ok pieces)
    (apart : text.toList.getLast? = some '{' → others.toList.head? ≠ some '{') :
    segments (text ++ others) = (segments others).map (glue pieces) := by
  unfold segments at cut ⊢
  rw [String.toList_append, segmentsOf_append cut apart]

theorem segments_lineFeed : segments "\n" = .ok [.literal "\n"] := by cbv

theorem segments_under (cut : segments text = .ok pieces) (others : String) :
    segments (text ++ "\n" ++ others) =
      (segments others).map (glue (glue pieces [.literal "\n"])) := by
  have ended : segments (text ++ "\n") = .ok (glue pieces [.literal "\n"]) := by
    rw [segments_append cut (by simp), segments_lineFeed]
    rfl
  exact segments_append ended (by simp)

/-- Templates under one another have the expressions that they have alone. -/
theorem segments_joined {texts : List String}
    (each : ∀ text ∈ texts, ∃ pieces, segments text = .ok pieces) :
    ∃ pieces, segments (String.intercalate "\n" texts) = .ok pieces ∧
      pieces.filterMap Segment.source? = texts.flatMap sources := by
  induction texts with
  | nil => exact ⟨[],by cbv,rfl⟩
  | cons text rest ih =>
    obtain ⟨⟨pieces,cut⟩,others⟩ := List.forall_mem_cons.mp each
    have own : sources text = pieces.filterMap Segment.source? := by rw [sources, cut]
    cases rest with
    | nil => exact ⟨pieces,by rw [String.intercalate_singleton, cut],by simp [own]⟩
    | cons next rest =>
      obtain ⟨more,whole,same⟩ := ih others
      refine ⟨glue (glue pieces [.literal "\n"]) more,?_,?_⟩
      · rw [String.intercalate_cons_cons, segments_under cut, whole]
        rfl
      · rw [filterMap_source?_glue, filterMap_source?_glue, same]
        simp [own, Segment.source?]

end Template

namespace Session

variable {s : Session} {location : String} {pieces others : List Segment}

theorem expandSegments_glue (location : String) (pieces others : List Segment) (s : Session) :
    expandSegments location (Template.glue pieces others) s =
      match expandSegments location pieces s with
      | (.error fault,after) => (.error fault,after)
      | (.ok text,after) =>
        ((expandSegments location others after).1.map (text ++ ·),
          (expandSegments location others after).2) := by
  fun_induction Template.glue pieces others generalizing s with
  | case1 others =>
    rcases found : expandSegments location others s with ⟨_ | _,_⟩ <;>
      simp [expandSegments, found, Except.map]
  | case2 text more others =>
    rcases found : expandSegments location others s with ⟨_ | _,_⟩ <;>
      simp [expandSegments, found, Except.map, String.append_assoc]
  | case3 piece rest others _ ih =>
    cases piece with
    | literal text =>
      simp only [expandSegments_literal, ih]
      rcases expandSegments location rest s with ⟨_ | expanded,after⟩
      · rfl
      · rcases found : expandSegments location others after with ⟨_ | _,_⟩ <;>
          simp [Except.map, found, String.append_assoc]
    | expression source =>
      rcases evaluated : s.evaluate source with ⟨_ | value,after⟩
      · simp only [expandSegments_failing evaluated]
      · simp only [expandSegments_expression evaluated, ih]
        rcases expandSegments location rest after with ⟨_ | expanded,later⟩
        · rfl
        · rcases found : expandSegments location others later with ⟨_ | _,_⟩ <;>
            simp [Except.map, found, String.append_assoc]

theorem expand_segments (s : Session) (location : String) {template : String}
    (cut : Template.segments template = .ok pieces) :
    s.expand location template = expandSegments location pieces s := by
  rw [expand, cut]

/-- A template under another is expanded in the session that the other one leaves. -/
theorem expand_under (s : Session) (location : String) {text below : String}
    (cut : Template.segments text = .ok pieces) (cutBelow : Template.segments below = .ok others) :
    s.expand location (text ++ "\n" ++ below) =
      match s.expand location text with
      | (.error fault,after) => (.error fault,after)
      | (.ok expanded,after) =>
        ((after.expand location below).1.map (expanded ++ "\n" ++ ·),
          (after.expand location below).2) := by
  have whole := Template.segments_under cut below
  rw [cutBelow] at whole
  rw [expand_segments s location whole, expand_segments s location cut]
  rw [expandSegments_glue, expandSegments_glue]
  rcases expandSegments location pieces s with ⟨_ | expanded,after⟩
  · rfl
  · simp [expandSegments, expand_segments after location cutBelow, Except.map]

/-- Templates expanded one after another, up to the first that fails. -/
def expandAll (location : String) :
    List String → Session → Except ExpansionFault (List String) × Session
  | [], s => (.ok [],s)
  | template :: rest, s =>
    match s.expand location template with
    | (.error fault,s) => (.error fault,s)
    | (.ok expanded,s) =>
      ((expandAll location rest s).1.map (expanded :: ·),(expandAll location rest s).2)

theorem expandAll_length {texts expanded : List String}
    (all : (expandAll location texts s).1 = .ok expanded) : expanded.length = texts.length := by
  induction texts generalizing s expanded with
  | nil =>
    cases all
    rfl
  | cons text rest ih =>
    rw [expandAll] at all
    rcases first : s.expand location text with ⟨_ | front,between⟩
    · simp [first] at all
    · simp only [first] at all
      obtain ⟨back,others,rfl⟩ := map_ok_iff.mp all
      simp [ih others]

/-- Templates under one another are expanded as they are one after another. -/
theorem expand_joined (s : Session) (location : String) {texts : List String}
    (each : ∀ text ∈ texts, ∃ pieces, Template.segments text = .ok pieces) :
    s.expand location (String.intercalate "\n" texts) =
      ((expandAll location texts s).1.map (String.intercalate "\n"),
        (expandAll location texts s).2) := by
  induction texts generalizing s with
  | nil =>
    have cut : Template.segments "" = .ok [] := by cbv
    exact expand_segments s location cut
  | cons text rest ih =>
    obtain ⟨⟨pieces,cut⟩,others⟩ := List.forall_mem_cons.mp each
    cases rest with
    | nil =>
      rw [String.intercalate_singleton, expandAll]
      rcases s.expand location text with ⟨_ | expanded,after⟩ <;>
        simp [expandAll, Except.map]
    | cons next rest =>
      obtain ⟨more,whole,_⟩ := Template.segments_joined others
      rw [String.intercalate_cons_cons, expand_under s location cut whole, expandAll]
      rcases s.expand location text with ⟨_ | expanded,after⟩
      · rfl
      · simp only [ih after others]
        rcases found : expandAll location (next :: rest) after with ⟨_ | list,later⟩
        · rfl
        · have count : list.length = (next :: rest).length :=
            expandAll_length (congrArg Prod.fst found)
          obtain ⟨front,back,rfl⟩ := List.exists_cons_of_length_eq_add_one count
          simp [Except.map, String.intercalate_cons_cons]

end Session

namespace Directives

def bodies (minify : Bool) (texts : List String) : List String :=
  (texts.map (body minify)).filter fun text => !text.isEmpty

/-- The directives of several texts have the expressions of their bodies. From every session they are
expanded as the bodies are one after another, with a line feed between the results: to the same
text or the same first failure, and the same session is left. -/
theorem expand_join (s : Session) (location : String) (minify : Bool) (texts : List String)
    (each : ∀ text ∈ bodies minify texts, ∃ pieces, Template.segments text = .ok pieces) :
    (∃ pieces, Template.segments (join minify texts) = .ok pieces ∧
        pieces.filterMap Segment.source? = (bodies minify texts).flatMap Template.sources) ∧
      s.expand location (join minify texts) =
        ((s.expandAll location (bodies minify texts)).1.map (String.intercalate "\n"),
          (s.expandAll location (bodies minify texts)).2) :=
  ⟨Template.segments_joined each,s.expand_joined location each⟩

def framed : List String := ["x \x7b\r\n","\n","\x7b \x7b\x7b1 + 1\x7d\x7d"]

theorem framed_expand :
    (∀ text ∈ bodies false framed, ∃ pieces, Template.segments text = .ok pieces) ∧
      ((Session.start ⟨.empty,.empty⟩).expand "rtconfig.txt" (join false framed)).1 =
        .ok "x \x7b\n\x7b 2" := by
  have bodies_framed : bodies false framed = ["x \x7b","\x7b \x7b\x7b1 + 1\x7d\x7d"] := by cbv
  have each : ∀ text ∈ bodies false framed, ∃ pieces, Template.segments text = .ok pieces := by
    rw [bodies_framed]
    simp only [List.forall_mem_cons, List.not_mem_nil, false_imp_iff, implies_true, and_true]
    exact ⟨⟨[.literal "x \x7b"],by cbv⟩,⟨[.literal "\x7b ",.expression "1 + 1"],by cbv⟩⟩
  refine ⟨each,?_⟩
  rw [(expand_join (.start ⟨.empty,.empty⟩) "rtconfig.txt" false framed each).2, bodies_framed]
  cbv

end Directives

end ThemeForge
