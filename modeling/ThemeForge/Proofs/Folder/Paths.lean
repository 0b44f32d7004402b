import ThemeForge.Proofs.Folder.Listed
import ThemeForge.Proofs.Folder.Traversal

/-!
# Paths in a folder

A folder of proper entries is proper, and no two of its directories have the same path. On disk
different places below a root have different paths.
-/

namespace ThemeForge

namespace Folder

def lastName (f : Folder) : String := f.path.getLastD ""

def entryNames (f : Folder) : List String := f.files ++ f.fragments ++ f.children.map lastName

inductive Proper : Folder → Prop
  | intro (distinct : f.entryNames.Nodup) (named : ∀ name ∈ f.entryNames, ProperName name)
      (below : ∀ child ∈ f.children, child.path = f.path ++ [child.lastName])
      (inner : ∀ child ∈ f.children, Proper child) : Proper f

variable {f child d : Folder}

/-- A file adds its name, or nothing. -/
theorem addFile_names (includes : String → Bool) (name : String) (f : Folder) :
    (addFile includes name f).entryNames.Perm (name :: f.entryNames) ∨
      addFile includes name f = f := by
  rcases addFile_cases includes name f with fragment | resource | left
  · rw [fragment]
    exact .inl (List.perm_middle.append_right _)
  · rw [resource]
    exact .inl (.refl _)
  · exact .inr left

theorem addFile_children (includes : String → Bool) (name : String) (f : Folder) :
    (addFile includes name f).children = f.children := by
  rcases addFile_cases includes name f with added | added | added <;> rw [added]

theorem entryNames_child (f child : Folder) :
    { f with children := child :: f.children }.entryNames.Perm (child.lastName :: f.entryNames) :=
  List.perm_middle

theorem Listed.entryNames_listed (listed : Listed includes place entries f) :
    ∀ name ∈ f.entryNames, .text name ∈ entries.map Prod.fst := by
  induction listed with
  | nil => simp [entryNames]
  | @file place entries f name rest ih =>
    intro other found
    rcases addFile_names includes name f with added | same
    · rcases List.mem_cons.mp (added.mem_iff.mp found) with rfl | found
      · exact List.mem_cons_self
      · exact List.mem_cons_of_mem _ (ih other found)
    · rw [same] at found
      exact List.mem_cons_of_mem _ (ih other found)
  | @directory place name inside child entries f inner rest _ ih =>
    intro other found
    rcases List.mem_cons.mp ((entryNames_child f child).mem_iff.mp found) with rfl | found
    · rw [lastName, inner.path_eq, List.getLastD_concat]
      exact List.mem_cons_self
    · exact List.mem_cons_of_mem _ (ih other found)

/-- A directory stays proper with another name in it. -/
theorem Proper.added {f added : Folder} (proper : f.Proper) (named : ProperName name)
    (fresh : name ∉ f.entryNames) (names : added.entryNames.Perm (name :: f.entryNames))
    (samePath : added.path = f.path)
    (children : ∀ child ∈ added.children,
      child ∈ f.children ∨ child.path = f.path ++ [child.lastName] ∧ child.Proper) :
    added.Proper := by
  obtain ⟨distinct,others,below,inner⟩ := proper
  refine .intro ?_ ?_ ?_ ?_
  · exact names.nodup_iff.mpr (List.nodup_cons.mpr ⟨fresh,distinct⟩)
  · intro other found
    rcases List.mem_cons.mp (names.mem_iff.mp found) with rfl | found
    · exact named
    · exact others other found
  · intro child found
    rw [samePath]
    rcases children child found with old | ⟨path,_⟩
    · exact below child old
    · exact path
  · intro child found
    rcases children child found with old | ⟨_,proper⟩
    · exact inner child old
    · exact proper

/-- The names in a directory are those of its entries, so they are different and proper. -/
theorem Listed.proper (listed : Listed includes place entries f) (proper : ProperEntries entries) :
    f.Proper := by
  induction listed with
  | nil => exact .intro (by simp [entryNames]) (by simp [entryNames]) (by simp) (by simp)
  | @file place entries f name rest ih =>
    obtain ⟨named,other⟩ := proper.first
    have fresh : name ∉ f.entryNames := fun found => other (rest.entryNames_listed name found)
    rcases addFile_names includes name f with names | same
    · refine (ih proper.rest).added named fresh names (addFile_path includes name f) ?_
      intro child found
      rw [addFile_children] at found
      exact .inl found
    · rw [same]
      exact ih proper.rest
  | @directory place name inside child entries f inner rest ihInner ih =>
    obtain ⟨named,other⟩ := proper.first
    have fresh : name ∉ f.entryNames := fun found => other (rest.entryNames_listed name found)
    have last : child.lastName = name := by rw [lastName, inner.path_eq, List.getLastD_concat]
    have names := entryNames_child f child
    rw [last] at names
    refine (ih proper.rest).added named fresh names rfl ?_
    intro other found
    rcases List.mem_cons.mp found with rfl | old
    · refine .inr ⟨?_,ihInner proper.inside⟩
      rw [last, inner.path_eq, rest.path_eq]
    · exact .inl old

theorem Proper.files (proper : f.Proper) : f.files.Nodup ∧ ∀ name ∈ f.files, ProperName name := by
  obtain ⟨distinct,named,_,_⟩ := proper
  refine ⟨(List.nodup_append.mp (List.nodup_append.mp distinct).1).1,?_⟩
  intro name found
  exact named name (List.mem_append_left _ (List.mem_append_left _ found))

theorem Proper.childNames (proper : f.Proper) :
    (f.children.map lastName).Nodup ∧ ∀ child ∈ f.children, ProperName child.lastName := by
  obtain ⟨distinct,named,_,_⟩ := proper
  refine ⟨(List.nodup_append.mp distinct).2.1,?_⟩
  intro child found
  exact named child.lastName (List.mem_append_right _ (List.mem_map_of_mem found))

/-- What is below a directory has a path that goes on with proper names. -/
theorem Proper.path_below (proper : f.Proper) (found : d ∈ f.depthFirst) :
    ∃ names, d.path = f.path ++ names ∧ ∀ name ∈ names, ProperName name := by
  induction proper with
  | intro distinct named below inner ih =>
    rename_i f
    rw [depthFirst_cons, depthFirsts_eq] at found
    rcases List.mem_cons.mp found with rfl | found
    · exact ⟨[],by simp,by simp⟩
    · obtain ⟨child,isChild,found⟩ := List.mem_flatMap.mp found
      obtain ⟨names,path,proper⟩ := ih child isChild found
      refine ⟨child.lastName :: names,?_,?_⟩
      · rw [path, below child isChild, List.append_assoc, List.singleton_append]
      · intro name first
        rcases List.mem_cons.mp first with rfl | later
        · exact named _ (List.mem_append_right _ (List.mem_map_of_mem isChild))
        · exact proper name later

theorem Proper.inside (proper : f.Proper) (found : d ∈ f.depthFirst) : d.Proper := by
  induction proper with
  | intro distinct named below inner ih =>
    rename_i f
    rw [depthFirst_cons, depthFirsts_eq] at found
    rcases List.mem_cons.mp found with rfl | found
    · exact .intro distinct named below inner
    · obtain ⟨child,isChild,found⟩ := List.mem_flatMap.mp found
      exact ih child isChild found

theorem Proper.path_inside (proper : f.Proper) (isChild : child ∈ f.children)
    (found : d ∈ child.depthFirst) : ∃ names, d.path = f.path ++ child.lastName :: names := by
  obtain ⟨_,_,below,inner⟩ := proper
  obtain ⟨names,path,_⟩ := (inner child isChild).path_below found
  refine ⟨names,?_⟩
  rw [path, below child isChild, List.append_assoc, List.singleton_append]

theorem Proper.paths_distinct (proper : f.Proper) : (f.depthFirst.map path).Nodup := by
  induction proper with
  | intro distinct named below inner ih =>
    rename_i f
    have proper : f.Proper := .intro distinct named below inner
    rw [depthFirst_cons, depthFirsts_eq, List.map_cons, List.map_flatMap]
    refine List.nodup_cons.mpr ⟨?_,List.nodup_flatMap.mpr ⟨ih,?_⟩⟩
    · intro found
      obtain ⟨child,isChild,found⟩ := List.mem_flatMap.mp found
      obtain ⟨d,found,same⟩ := List.mem_map.mp found
      obtain ⟨names,path⟩ := proper.path_inside isChild found
      rw [path] at same
      simp at same
    · refine (List.pairwise_map.mp proper.childNames.1).imp_of_mem ?_
      intro child other isChild isOther different
      refine List.disjoint_left.mpr ?_
      intro place here there
      obtain ⟨d,inChild,rfl⟩ := List.mem_map.mp here
      obtain ⟨d',inOther,same⟩ := List.mem_map.mp there
      obtain ⟨names,path⟩ := proper.path_inside isChild inChild
      obtain ⟨names',path'⟩ := proper.path_inside isOther inOther
      rw [path,path',List.append_cancel_left_eq] at same
      exact different (List.cons.inj same).1.symm

end Folder

end ThemeForge
