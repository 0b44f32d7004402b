import ThemeForge.Expression.Query
import ThemeForge.Settings.Basic
import ThemeForge.Text.Split

/-!
# Tables of constants and presets

Two settings whose values are expressions, addressed by dotted names. A name is cut at its last dot
into section and key.
-/

namespace ThemeForge

/-- The section and the key that a dotted name stands for. Neither may be empty. -/
def splitName? (name : String) : Option (String × String) :=
  match Text.splitLast? (· == '.') name.toList with
  | some (c :: section_,d :: key) => some (String.ofList (c :: section_),String.ofList (d :: key))
  | _ => none

def Reference.label (r : Reference) : String :=
  match r.table with
  | .constant => r.name
  | .preset => "p(" ++ r.name ++ ")"

structure Tables where
  constants : Settings
  presets : Settings
  deriving DecidableEq, Repr

namespace Tables

def settings (t : Tables) : TableKind → Settings
  | .constant => t.constants
  | .preset => t.presets

def entry? (t : Tables) (r : Reference) : Option String :=
  (splitName? r.name).bind fun (section_,key) => (t.settings r.table).get? section_ key

def references (t : Tables) (table : TableKind) : List Reference :=
  (t.settings table).sections.flatMap fun (section_,keys) =>
    keys.map fun (key,_) => ⟨table,section_ ++ "." ++ key⟩

def labels (t : Tables) : List String :=
  (t.references .constant ++ t.references .preset).map Reference.label

def unvisited (t : Tables) (chain : List String) : Nat :=
  (t.labels.filter fun label => label ∉ chain).length

end Tables

/-- Section and key, joined by the dot between them, are the name. -/
theorem eq_of_splitName? {name section_ key : String}
    (split : splitName? name = some (section_,key)) : name = section_ ++ "." ++ key := by
  unfold splitName? at split
  split at split
  · next c before d after found =>
    obtain ⟨dot,whole,isDot⟩ := Text.eq_append_of_splitLast? found
    obtain rfl : dot = '.' := by simpa using isDot
    obtain ⟨rfl,rfl⟩ := Prod.mk.inj (Option.some.inj split)
    rw [← String.toList_inj]
    simp only [String.toList_append, String.toList_ofList, whole]
    simp
  · contradiction

theorem exists_of_lookup {α : Type} {key : String} {value : α} {entries : List (String × α)}
    (found : entries.lookup key = some value) : (key,value) ∈ entries := by
  obtain ⟨before,after,rfl,-⟩ := List.lookup_eq_some_iff.1 found
  simp

namespace Tables

theorem label_mem_labels {t : Tables} {r : Reference} {raw : String}
    (found : t.entry? r = some raw) : r.label ∈ t.labels := by
  obtain ⟨⟨section_,key⟩,split,got⟩ := Option.bind_eq_some_iff.1 found
  obtain ⟨keys,inSections,inKeys⟩ := Option.bind_eq_some_iff.1 got
  have member : r ∈ t.references r.table := by
    refine List.mem_flatMap.2 ⟨(section_,keys),exists_of_lookup inSections,?_⟩
    refine List.mem_map.2 ⟨(key,raw),exists_of_lookup inKeys,?_⟩
    cases r
    simp only [Reference.mk.injEq, true_and]
    exact (eq_of_splitName? split).symm
  refine List.mem_map.2 ⟨r,?_,rfl⟩
  cases table : r.table <;> simp [table] at member <;> simp [member]

theorem unvisited_cons_lt {t : Tables} {label : String} {chain : List String}
    (member : label ∈ t.labels) (new : label ∉ chain) :
    t.unvisited (label :: chain) < t.unvisited chain := by
  have split : t.labels.filter (fun l => l ∉ label :: chain) =
      (t.labels.filter fun l => l ∉ chain).filter fun l => l ≠ label := by
    rw [List.filter_filter]
    congr 1
    funext l
    simp [not_or]
  have here : label ∈ t.labels.filter fun l => l ∉ chain := by simp [member, new]
  unfold unvisited
  rw [split, ← List.countP_eq_length_filter]
  have bound := List.countP_le_length (p := fun l => decide (l ≠ label))
    (l := t.labels.filter fun l => decide (l ∉ chain))
  refine Nat.lt_of_le_of_ne bound fun all => ?_
  have := List.countP_eq_length.1 all label here
  simp at this

end Tables

end ThemeForge
