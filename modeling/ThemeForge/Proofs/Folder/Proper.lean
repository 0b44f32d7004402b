import ThemeForge.Folder.Tree
import Mathlib.Data.List.Nodup

/-!
# Names in a folder

The names in a directory are different, and none is empty or has a slash. What holds of a file
system holds of the folders that are scanned in it.
-/

namespace ThemeForge

def ProperName (name : String) : Prop := name ≠ "" ∧ '/' ∉ name.toList

structure FileSystem.Proper (fs : FileSystem) : Prop where
  distinct : (fs.entries.map Prod.fst).Nodup
  named : ∀ location ∈ fs.entries.map Prod.fst, ∀ name, .text name ∈ location → ProperName name

inductive ProperEntries : List (FileName × Content) → Prop
  | intro (distinct : (entries.map Prod.fst).Nodup)
      (named : ∀ name, .text name ∈ entries.map Prod.fst → ProperName name)
      (inner : ∀ name inside, (name,.directory inside) ∈ entries → ProperEntries inside) :
      ProperEntries entries

theorem ProperEntries.rest {entries : List (FileName × Content)}
    (proper : ProperEntries (entry :: entries)) : ProperEntries entries := by
  obtain ⟨distinct,named,inner⟩ := proper
  refine ⟨(List.nodup_cons.mp distinct).2,?_,?_⟩
  · intro name found
    exact named name (List.mem_cons_of_mem _ found)
  · intro name inside found
    exact inner name inside (List.mem_cons_of_mem _ found)

/-- The name of the first of several entries is proper and not that of another one. -/
theorem ProperEntries.first {entries : List (FileName × Content)}
    (proper : ProperEntries ((.text name,content) :: entries)) :
    ProperName name ∧ .text name ∉ entries.map Prod.fst := by
  obtain ⟨distinct,named,_⟩ := proper
  exact ⟨named name List.mem_cons_self,(List.nodup_cons.mp distinct).1⟩

theorem ProperEntries.inside {entries inside : List (FileName × Content)}
    (proper : ProperEntries ((name,.directory inside) :: entries)) : ProperEntries inside := by
  obtain ⟨_,_,inner⟩ := proper
  exact inner name inside List.mem_cons_self

namespace FileSystem

variable {fs : FileSystem}

def nameIn? (directory location : Location) : Option FileName :=
  match location.getLast? with
  | some name => if location.dropLast = directory then some name else none
  | none => none

theorem nameIn?_eq {directory location : Location}
    (named : nameIn? directory location = some name) : location = directory ++ [name] := by
  unfold nameIn? at named
  split at named
  · rename_i last
    obtain ⟨before,rfl⟩ := List.getLast?_eq_some_iff.mp last
    simp_all
  · cases named

theorem names_perm (fs : FileSystem) (directory : Location) :
    (fs.names directory).Perm ((fs.entries.map Prod.fst).filterMap (nameIn? directory)) := by
  rw [List.filterMap_map]
  exact List.mergeSort_perm _ _

theorem names_distinct (proper : fs.Proper) (directory : Location) :
    (fs.names directory).Nodup := by
  rw [(fs.names_perm directory).nodup_iff]
  refine proper.distinct.filterMap ?_
  intro location other name found again
  rw [nameIn?_eq found,nameIn?_eq again]

theorem names_proper (proper : fs.Proper) (directory : Location)
    (found : .text name ∈ fs.names directory) : ProperName name := by
  obtain ⟨location,listed,named⟩ :=
    List.mem_filterMap.mp ((fs.names_perm directory).mem_iff.mp found)
  refine proper.named location listed name ?_
  rw [nameIn?_eq named]
  exact List.mem_append_right _ (List.mem_singleton_self _)

theorem contentTo_names (fs : FileSystem) (depth : Nat) (trail : List (Location × List FileName))
    (location : Location) (place : List FileName) :
    (fs.contentTo (depth + 1) trail location place).map Prod.fst = fs.names location := by
  rw [contentTo, List.map_map]
  refine (List.map_congr_left ?_).trans (List.map_id _)
  intro name _
  dsimp only [Function.comp_apply]
  repeat' split
  all_goals rfl

/-- A directory among the entries is listed in the same way, one level less deep. -/
theorem contentTo_inner {depth : Nat} {trail : List (Location × List FileName)}
    {location : Location} {place : List FileName}
    (listed : (name,.directory inside) ∈ fs.contentTo (depth + 1) trail location place) :
    ∃ there, inside = fs.contentTo depth ((there,place ++ [name]) :: trail) there
      (place ++ [name]) := by
  rw [contentTo] at listed
  obtain ⟨other,_,made⟩ := List.mem_map.mp listed
  dsimp only at made
  repeat' split at made
  all_goals cases made
  all_goals exact ⟨_,rfl⟩

theorem contentTo_proper (proper : fs.Proper) (depth : Nat)
    (trail : List (Location × List FileName)) (location : Location) (place : List FileName) :
    ProperEntries (fs.contentTo depth trail location place) := by
  induction depth generalizing trail location place with
  | zero =>
    rw [contentTo]
    exact .intro .nil (by simp) (by simp)
  | succ depth ih =>
    refine .intro ?_ ?_ ?_
    · rw [contentTo_names]
      exact names_distinct proper location
    · intro name found
      rw [contentTo_names] at found
      exact names_proper proper location found
    · intro name inside listed
      obtain ⟨there,rfl⟩ := contentTo_inner listed
      exact ih _ there _

end FileSystem

end ThemeForge
