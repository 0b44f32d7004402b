import ThemeForge.Proofs.Folder.Disk
import ThemeForge.Proofs.Folder.Paths
import Mathlib

/-!
# What a directory owns

Every resource that a directory owns lies below it. Its relative path is made of the names that lead
there, so no two resources of one directory have the same relative path.
-/

namespace ThemeForge

namespace Folder

variable {f d : Folder}

mutual

theorem reach_sublist (keep : Folder → Bool) : (f : Folder) → (f.reach keep).Sublist f.depthFirst
  | ⟨_,_,_,children⟩ => (reachIn_sublist keep children).cons_cons _

theorem reachIn_sublist (keep : Folder → Bool) :
    (folders : List Folder) → (reachIn keep folders).Sublist (depthFirsts folders)
  | [] => .slnil
  | f :: rest => by
    rw [reachIn, depthFirsts]
    refine List.Sublist.append ?_ (reachIn_sublist keep rest)
    split
    · exact reach_sublist keep f
    · exact List.nil_sublist _

end

mutual

theorem depthFirst_below : (f : Folder) → d ∈ f.depthFirst → d.depthFirst ⊆ f.depthFirst
  | ⟨_,_,_,children⟩, found => by
    rcases List.mem_cons.mp found with rfl | below
    · exact List.Subset.refl _
    · exact List.subset_cons_of_subset _ (depthFirsts_below children below)

theorem depthFirsts_below :
    (folders : List Folder) → d ∈ depthFirsts folders → d.depthFirst ⊆ depthFirsts folders
  | f :: rest, found => by
    rcases List.mem_append.mp found with here | later
    · exact List.subset_append_of_subset_left _ (depthFirst_below f here)
    · exact List.subset_append_of_subset_right _ (depthFirsts_below rest later)

end

/-- The directories whose resources a directory owns are among those below it. -/
theorem ownFolders_subperm (f : Folder) : f.ownFolders.Subperm f.depthFirst := by
  have visited := breadthFirst_perm (fun child => !child.isData) [f]
  rw [List.flatMap_singleton] at visited
  exact visited.subperm.trans (reach_sublist _ f).subperm

theorem mem_filesIn {folders : List Folder} {file : List String × String} :
    file ∈ filesIn folders ↔ ∃ d ∈ folders, d.path = file.1 ∧ file.2 ∈ d.files := by
  obtain ⟨path,name⟩ := file
  rw [filesIn, List.mem_flatMap]
  constructor
  · rintro ⟨d,among,listed⟩
    obtain ⟨_,found,same⟩ := List.mem_map.mp listed
    obtain ⟨rfl,rfl⟩ := Prod.mk.inj same
    exact ⟨d,among,rfl,found⟩
  · rintro ⟨d,among,rfl,found⟩
    exact ⟨d,among,List.mem_map_of_mem found⟩

theorem mem_ownedFiles {file : List String × String} (owned : file ∈ f.ownedFiles) :
    ∃ d ∈ f.depthFirst, d.path = file.1 ∧ file.2 ∈ d.files := by
  obtain ⟨d,own,place⟩ := mem_filesIn.mp owned
  exact ⟨d,f.ownFolders_subperm.subset own,place⟩

def namesTo (file : List String × String) : List String := file.1 ++ [file.2]

theorem filesIn_distinct {folders : List Folder} (paths : (folders.map path).Nodup)
    (files : ∀ d ∈ folders, d.files.Nodup) : ((filesIn folders).map namesTo).Nodup := by
  rw [filesIn, List.map_flatMap]
  refine List.nodup_flatMap.mpr ⟨?_,?_⟩
  · intro d among
    rw [List.map_map]
    refine (files d among).map ?_
    intro name other same
    exact List.singleton_injective (List.append_cancel_left same)
  · refine (List.pairwise_map.mp paths).imp ?_
    intro d other different
    refine List.disjoint_left.mpr ?_
    simp only [List.map_map]
    intro names here there
    obtain ⟨name,_,rfl⟩ := List.mem_map.mp here
    obtain ⟨name',_,same⟩ := List.mem_map.mp there
    exact different (List.append_inj_left' same rfl).symm

theorem Proper.ownedFiles_distinct (proper : f.Proper) : (f.ownedFiles.map namesTo).Nodup := by
  refine filesIn_distinct ?_ fun d own => ?_
  · obtain ⟨visited,same,below⟩ := f.ownFolders_subperm
    exact (same.map path).nodup_iff.mp (proper.paths_distinct.sublist (below.map path))
  · exact (proper.inside (f.ownFolders_subperm.subset own)).files.1

/-- The names that lead to what a directory owns are those to the directory and further ones. -/
theorem Proper.namesTo_owned (proper : f.Proper) {file : List String × String}
    (owned : file ∈ f.ownedFiles) :
    ∃ names, namesTo file = f.path ++ names ∧ names ≠ [] ∧ ∀ name ∈ names, ProperName name := by
  obtain ⟨d,inside,path,found⟩ := mem_ownedFiles owned
  obtain ⟨names,samePath,named⟩ := proper.path_below inside
  refine ⟨names ++ [file.2],?_,by simp,?_⟩
  · rw [namesTo, ← path, samePath, List.append_assoc]
  · intro name step
    rcases List.mem_append.mp step with step | step
    · exact named name step
    · rw [List.mem_singleton.mp step]
      exact (proper.inside inside).files.2 file.2 found

/-- What is below a listed directory was listed as well, and its path starts with the directory's. -/
theorem Listed.descend (listed : Listed includes place entries f) (found : d ∈ f.depthFirst) :
    ∃ names inside, d.path = place ++ names ∧ Listed includes d.path inside d := by
  induction listed with
  | @nil place =>
    cases List.mem_singleton.mp found
    exact ⟨[],[],(List.append_nil place).symm,.nil⟩
  | @file place entries f name rest ih =>
    rw [depthFirst_cons, addFile_children] at found
    rcases List.mem_cons.mp found with rfl | below
    · rw [addFile_path, rest.path_eq]
      exact ⟨[],_,(List.append_nil place).symm,.file rest⟩
    · refine ih ?_
      rw [depthFirst_cons]
      exact List.mem_cons_of_mem _ below
  | @directory place name inside child entries f inner rest ihInner ih =>
    rw [depthFirst_cons, depthFirsts, List.mem_cons, List.mem_append] at found
    rcases found with rfl | inChild | below
    · have added := Listed.directory inner rest
      rw [← rest.path_eq] at added ⊢
      exact ⟨[],_,(List.append_nil _).symm,added⟩
    · obtain ⟨names,entries,path,listed⟩ := ihInner inChild
      exact ⟨name :: names,entries,by rw [path, List.append_assoc, List.singleton_append],listed⟩
    · refine ih ?_
      rw [depthFirst_cons]
      exact List.mem_cons_of_mem _ below

theorem Listed.files (listed : Listed includes place entries f) :
    ∀ name ∈ f.files, FileKind.classify name = .resource ∧ includes name = true := by
  induction listed with
  | nil => nofun
  | @file place entries f name rest ih =>
    intro other found
    unfold addFile at found
    split at found
    · exact ih other found
    · rename_i kind
      split at found
      · rename_i chosen
        rcases List.mem_cons.mp found with rfl | old
        · exact ⟨kind,chosen⟩
        · exact ih other old
      · exact ih other found
  | directory inner rest _ ih => exact ih

end Folder

theorem slashed_intercalate (name : String) (rest : List String) :
    slashed (name :: rest) = '/' :: (String.intercalate "/" (name :: rest)).toList := by
  induction rest generalizing name with
  | nil => simp [slashed]
  | cons next rest ih =>
    rw [String.intercalate_cons_cons, String.toList_append, String.toList_append]
    have further := ih next
    rw [slashed, List.flatMap_cons, ← slashed, further]
    simp

theorem intercalate_injective {names others : List String} (some : names ≠ [])
    (someOther : others ≠ []) (proper : ∀ name ∈ names, ProperName name)
    (properOthers : ∀ name ∈ others, ProperName name)
    (same : String.intercalate "/" names = String.intercalate "/" others) : names = others := by
  obtain ⟨name,rest,rfl⟩ := List.exists_cons_of_ne_nil some
  obtain ⟨other,others,rfl⟩ := List.exists_cons_of_ne_nil someOther
  refine slashed_injective _ _ proper properOthers ?_
  rw [slashed_intercalate, slashed_intercalate, same]

namespace SourceTree

variable {t : SourceTree} {d : Folder} {file : OwnedFile}

theorem mem_dataFolders (t : SourceTree) : d ∈ t.dataFolders ↔ d ∈ t.top.depthFirst ∧ d.isData := by
  rw [dataFolders, t.top.dataFolders_perm.mem_iff, List.mem_filter]

structure Proper (t : SourceTree) : Prop where
  named : t.root.text ≠ ""
  top : t.top.path = []
  folder : t.top.Proper

theorem scan_proper {fs : FileSystem} {root : FilePath} (proper : fs.Proper)
    (scanned : scan fs root includes = .ok t) : t.Proper := by
  obtain ⟨named,rfl,_,listed⟩ := scan_listed scanned
  exact ⟨named,listed.path_eq,listed.proper (FileSystem.contentTo_proper proper _ _ _ _)⟩

theorem Proper.path_names (proper : t.Proper) (below : d ∈ t.top.depthFirst) :
    ∀ name ∈ d.path, ProperName name := by
  obtain ⟨names,path,named⟩ := proper.folder.path_below below
  rw [path, proper.top]
  exact named

/-- A resource that a directory owns lies in a directory at or below it. -/
theorem mem_ownedFiles (listed : Folder.Listed includes place entries t.top)
    (below : d ∈ t.top.depthFirst) (owned : file ∈ t.ownedFiles d) :
    ∃ e ∈ d.depthFirst, ∃ name ∈ e.files, ∃ names, e.path = d.path ++ names ∧
      file = ⟨pathOf t.root (d.path ++ (names ++ [name])),
        String.intercalate "/" (names ++ [name])⟩ := by
  obtain ⟨⟨path,name⟩,own,rfl⟩ := List.mem_map.mp owned
  obtain ⟨e,inside,samePath,found⟩ := Folder.mem_ownedFiles own
  obtain ⟨_,_,_,listed⟩ := listed.descend below
  obtain ⟨names,_,samePlace,_⟩ := listed.descend inside
  obtain rfl : path = d.path ++ names := samePath.symm.trans samePlace
  refine ⟨e,inside,name,found,names,samePlace,?_⟩
  dsimp only
  rw [List.append_assoc, List.drop_left]

theorem relatives_distinct (t : SourceTree) (proper : d.Proper) :
    ((t.ownedFiles d).map OwnedFile.relative).Nodup := by
  have listed : (t.ownedFiles d).map OwnedFile.relative = (d.ownedFiles.map Folder.namesTo).map
      fun names => String.intercalate "/" (names.drop d.path.length) := by
    rw [ownedFiles, List.map_map, List.map_map]
    rfl
  rw [listed]
  refine proper.ownedFiles_distinct.map_on ?_
  intro names found others foundOthers same
  obtain ⟨file,owned,rfl⟩ := List.mem_map.mp found
  obtain ⟨other,ownedOther,rfl⟩ := List.mem_map.mp foundOthers
  obtain ⟨below,namesTo,some,named⟩ := proper.namesTo_owned owned
  obtain ⟨belowOther,namesToOther,someOther,namedOther⟩ := proper.namesTo_owned ownedOther
  rw [namesTo, namesToOther] at same ⊢
  rw [List.drop_left, List.drop_left] at same
  rw [intercalate_injective some someOther named namedOther same]

end SourceTree

end ThemeForge
