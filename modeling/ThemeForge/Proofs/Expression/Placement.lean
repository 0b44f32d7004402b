import ThemeForge.Expression.Placement
import ThemeForge.Proofs.Text.Words
import Mathlib

/-!
# The lines of a layout element

Whatever texts a `set` call is given, its list has eight words. A coordinate of several words stands on
a line of its own and its variable in the list, so with the lines at hand every coordinate is found
again in its place.
-/

namespace ThemeForge

namespace Placement

def IsWord (s : String) : Prop := Text.Word s.toList

/-- What the list holds for a coordinate of these words. -/
inductive Stands (coordinate : String) : List String → String → Prop
  | none : Stands coordinate [] "."
  | one : Stands coordinate [word] word
  | several : 2 ≤ ws.length → Stands coordinate ws ("__" ++ coordinate)

inductive Operated (operator : String) (list : String) : Option String → String → Prop
  | without : Operated operator list none list
  | part : Operated operator list (some part) (operator ++ " " ++ list ++ " " ++ part)

/-- A list and what it is under a condition, if there is one: the fallback follows once for each word of
the condition, and once for one without words. -/
inductive Conditional (list : String) (otherwise : Option String) : Option String → String → Prop
  | always : Conditional list otherwise none list
  | under {text : String} : fallbacks.length = max 1 (words text).length →
      (∀ fallback ∈ fallbacks, fallback = otherwise.getD "[. . . . . . . .]") →
      Conditional list otherwise (some text) (text ++ " " ++ list ++ " " ++ spaced fallbacks)

def hoistedLine (coordinate : String) (ws : List String) : String :=
  "set __" ++ coordinate ++ " " ++ spaced ws

def hoists (entries : List (String × List String)) : List String :=
  (entries.filter fun entry => 2 ≤ entry.2.length).map fun entry => hoistedLine entry.1 entry.2

/-- The words that are meant by the item of a coordinate: those of the line that sets its variable, if
there is one, and else the item. -/
def restored (hoisted : List String) (coordinate item : String) : List String :=
  match hoisted.find? fun line => (words line)[1]? = some ("__" ++ coordinate) with
  | some line => (words line).drop 2
  | none => [item]

/-- A text that places an element as `p` says, with the lines that it starts with and the items of its
list. -/
structure Lays (p : Placement) (hoisted items : List String) (text : String) : Prop where
  text_eq : ∃ added list body, Operated "+" ("[" ++ spaced items ++ "]") p.add added ∧
    Operated "-" added p.sub list ∧ Conditional list p.otherwise p.condition body ∧
    text = String.intercalate "\n" (hoisted ++ ["set " ++ p.target ++ " " ++ body])
  hoists_eq : hoisted = hoists p.coordinateWords
  lines : ∀ line ∈ hoisted, '\n' ∉ line.toList
  eight : items.length = 8
  single : ∀ item ∈ items, IsWord item
  -- What is between the brackets is read as these items and no others.
  apart : words (spaced items) = items
  stands : List.Forall₂ (fun entry item => Stands entry.1 entry.2 item) p.coordinateWords items
  -- The dot is an item like others: it is what is found for a coordinate without words.
  found : List.zipWith (restored hoisted) Function.coordinates items =
    p.coordinateWords.map fun entry => if entry.2 = [] then ["."] else entry.2

variable {p : Placement} {ws : List String} {w s coordinate : String}
  {entries : List (String × List String)} {entry : String × List String}

theorem isWord_of_mem (member : w ∈ words s) : IsWord w := by
  obtain ⟨cs,inside,rfl⟩ := List.mem_map.mp member
  rw [IsWord, String.toList_ofList]
  exact Text.word_of_mem_words inside

theorem toList_spaced (ws : List String) :
    (spaced ws).toList = [' '].intercalate (ws.map String.toList) := String.toList_intercalate

theorem words_spaced (each : ∀ w ∈ ws, IsWord w) : words (spaced ws) = ws := by
  rw [words, toList_spaced, Text.words_intercalate rfl, List.map_map]
  · simp [Function.comp_def]
  · intro cs member
    obtain ⟨w,inside,rfl⟩ := List.mem_map.mp member
    exact each w inside

theorem spaced_line (each : ∀ w ∈ ws, IsWord w) : '\n' ∉ (spaced ws).toList := by
  intro member
  rw [toList_spaced] at member
  rcases Text.mem_intercalate member with space | ⟨cs,inside,here⟩
  · cases space
  · obtain ⟨w,listed,rfl⟩ := List.mem_map.mp inside
    cases (each w listed).solid _ here

theorem isWord_of_solid
    (solid : (!s.toList.isEmpty && s.toList.all fun c => !Text.isBlank c) = true) : IsWord s := by
  simp only [Bool.and_eq_true, Bool.not_eq_true', List.isEmpty_eq_false_iff, List.all_eq_true] at solid
  exact ⟨solid.1,solid.2⟩

theorem isWord_hoistedName (name : coordinate ∈ Function.coordinates) :
    IsWord (hoistedName coordinate) := by
  have names : (Function.coordinates.all fun name => !(hoistedName name).toList.isEmpty &&
    (hoistedName name).toList.all fun c => !Text.isBlank c) = true := by cbv
  exact isWord_of_solid (List.all_eq_true.mp names coordinate name)

/-- A line that sets a variable is words with a space between neighbours. -/
theorem hoistedLine_eq (coordinate : String) (some : ws ≠ []) :
    hoistedLine coordinate ws = spaced ("set" :: hoistedName coordinate :: ws) := by
  obtain ⟨w,ws,rfl⟩ := List.exists_cons_of_ne_nil some
  have set : "set __" = "set" ++ (" " ++ "__") := rfl
  rw [hoistedLine, spaced, spaced, String.intercalate_cons_cons, String.intercalate_cons_cons,
    hoistedName, set]
  simp only [String.append_assoc]

/-- Coordinates under their names, each once, with words. -/
structure Named (entries : List (String × List String)) : Prop where
  distinct : (entries.map Prod.fst).Nodup
  known : ∀ entry ∈ entries, entry.1 ∈ Function.coordinates
  each : ∀ entry ∈ entries, ∀ w ∈ entry.2, IsWord w

theorem mem_hoists {line : String} : line ∈ hoists entries ↔
    ∃ entry ∈ entries, 2 ≤ entry.2.length ∧ hoistedLine entry.1 entry.2 = line := by
  simp [hoists, and_assoc]

theorem hoistedLines_eq (p : Placement) : p.hoistedLines = hoists p.coordinateWords := by
  rw [hoistedLines, hoists]
  induction p.coordinateWords with
  | nil => rfl
  | cons entry rest ih =>
    obtain ⟨name,ws⟩ := entry
    rw [List.filterMap_cons]
    by_cases several : 2 ≤ ws.length
    · have line : hoisted? name ws = some (hoistedLine name ws) := by
        rw [hoisted?, if_neg (Nat.not_lt.mpr several), hoistedName, ← String.append_assoc]
        rfl
      rw [List.filter_cons_of_pos (by simpa using several), List.map_cons, ← ih]
      simp only [line]
    · have none : hoisted? name ws = none := if_pos (Nat.not_le.mp several)
      rw [List.filter_cons_of_neg (by simpa using several), ← ih]
      simp only [none]

namespace Named

variable (named : Named entries) (member : entry ∈ entries)

include named member

theorem words_line (several : 2 ≤ entry.2.length) :
    words (hoistedLine entry.1 entry.2) = "set" :: hoistedName entry.1 :: entry.2 ∧
      '\n' ∉ (hoistedLine entry.1 entry.2).toList := by
  have all : ∀ w ∈ "set" :: hoistedName entry.1 :: entry.2, IsWord w :=
    List.forall_mem_cons.mpr ⟨isWord_of_solid (by cbv),
      List.forall_mem_cons.mpr ⟨isWord_hoistedName (named.known entry member),named.each entry member⟩⟩
  rw [hoistedLine_eq entry.1 (List.ne_nil_of_length_pos (Nat.lt_of_succ_lt several))]
  exact ⟨words_spaced all,spaced_line all⟩

/-- A line that sets the variable of a coordinate is the coordinate's own. -/
theorem find?_hoists : ((hoists entries).find? fun line => (words line)[1]? = some ("__" ++ entry.1)) =
    if 2 ≤ entry.2.length then some (hoistedLine entry.1 entry.2) else none := by
  cases search : (hoists entries).find? fun line => (words line)[1]? = some ("__" ++ entry.1) with
  | none =>
    rw [if_neg]
    intro several
    have missed := List.find?_eq_none.mp search _ (mem_hoists.mpr ⟨entry,member,several,rfl⟩)
    rw [(named.words_line member several).1] at missed
    exact missed (decide_eq_true rfl)
  | some line =>
    have second : (words line)[1]? = some ("__" ++ entry.1) := by simpa using List.find?_some search
    obtain ⟨other,inside,several,rfl⟩ := mem_hoists.mp (List.mem_of_find?_eq_some search)
    rw [(named.words_line inside several).1] at second
    have same : other.1 = entry.1 := String.append_right_inj _ |>.mp (Option.some.inj second)
    cases List.inj_on_of_nodup_map named.distinct inside member same
    rw [if_pos several]

theorem restored_eq : restored (hoists entries) entry.1 (item entry.1 entry.2) =
    if entry.2 = [] then ["."] else entry.2 := by
  rw [restored, named.find?_hoists member]
  by_cases several : 2 ≤ entry.2.length
  · rw [if_pos several, if_neg (List.ne_nil_of_length_pos (Nat.lt_of_succ_lt several))]
    dsimp only
    rw [(named.words_line member several).1]
    rfl
  · obtain ⟨name,ws⟩ := entry
    rw [if_neg several]
    rcases ws with _ | ⟨w,_ | ⟨v,ws⟩⟩
    · rfl
    · rfl
    · exact absurd (Nat.le_add_left 2 ws.length) several

end Named

/-- The items stand for the coordinates, each a word. -/
theorem stands_item (coordinate : String) (ws : List String) :
    Stands coordinate ws (item coordinate ws) := by
  rcases ws with _ | ⟨w,_ | ⟨v,ws⟩⟩
  · exact .none
  · exact .one
  · exact .several (Nat.le_add_left 2 ws.length)

theorem Stands.isWord {text : String} (stands : Stands coordinate ws text)
    (name : coordinate ∈ Function.coordinates) (each : ∀ w ∈ ws, IsWord w) : IsWord text := by
  cases stands with
  | none => exact isWord_of_solid (by cbv)
  | one => exact each text (List.mem_singleton_self text)
  | several => exact isWord_hoistedName name

theorem map_fst_coordinateWords (eight : p.coordinates.length = 8) :
    p.coordinateWords.map Prod.fst = Function.coordinates := by
  rw [coordinateWords, List.map_map]
  exact List.map_fst_zip (by rw [eight]; exact Nat.le_refl 8)

theorem named_coordinateWords (eight : p.coordinates.length = 8) : Named p.coordinateWords where
  distinct := by
    rw [map_fst_coordinateWords eight]
    decide
  known entry member := by
    rw [← map_fst_coordinateWords eight]
    exact List.mem_map_of_mem member
  each entry member w inside := by
    obtain ⟨_,_,rfl⟩ := List.mem_map.mp member
    exact isWord_of_mem inside

theorem operated_wrapped (operator list : String) (part : Option String) :
    Operated operator list part (wrapped operator list part) := by
  cases part with
  | none => exact .without
  | some part => exact .part

theorem conditional_body (p : Placement) :
    Conditional (wrapped "-" (wrapped "+" (bracketed p.items) p.add) p.sub) p.otherwise p.condition
      p.body := by
  rw [body]
  cases p.condition with
  | none => exact .always
  | some condition =>
    refine .under List.length_replicate fun fallback member => ?_
    rw [List.eq_of_mem_replicate member]
    rfl

/-- Every element is placed by lines and a list of eight words in which its coordinates are found. -/
theorem lays_render (eight : p.coordinates.length = 8) : p.Lays p.hoistedLines p.items p.render := by
  have named := named_coordinateWords eight
  have names := map_fst_coordinateWords eight
  have stands : List.Forall₂ (fun entry item => Stands entry.1 entry.2 item) p.coordinateWords p.items :=
    List.forall₂_map_right_iff.mpr (List.forall₂_same.mpr fun entry _ => stands_item entry.1 entry.2)
  have single : ∀ item ∈ p.items, IsWord item := by
    intro text member
    obtain ⟨entry,inside,rfl⟩ := List.mem_map.mp member
    exact (stands_item entry.1 entry.2).isWord (named.known entry inside) (named.each entry inside)
  refine ⟨?_,hoistedLines_eq p,?_,?_,single,words_spaced single,stands,?_⟩
  · exact ⟨_,_,_,operated_wrapped _ _ _,operated_wrapped _ _ _,conditional_body p,rfl⟩
  · intro line member
    rw [hoistedLines_eq] at member
    obtain ⟨entry,inside,several,rfl⟩ := mem_hoists.mp member
    exact (named.words_line inside several).2
  · rw [← stands.length_eq, ← List.length_map Prod.fst, names]
    rfl
  · rw [hoistedLines_eq, ← names, items, List.zipWith_map, List.zipWith_self]
    exact List.map_congr_left fun entry member => named.restored_eq member

end Placement

end ThemeForge
