import ThemeForge.Proofs.Files.Plain
import ThemeForge.Proofs.Folder.Owned
import ThemeForge.Resources

/-!
# Places of resources

Resources are placed one after another, and the first whose place is taken ends that. In a tree that
was scanned this happens exactly if two data directories own resources with one relative path.
-/

namespace ThemeForge

namespace Resources

variable {r : Resources} {entry first second : Resource} {entries : List Resource}

/-- The first of some resources whose place an earlier one has, after that one. -/
def Clash (entries : List Resource) (first second : Resource) : Prop :=
  ∃ before after, entries = before ++ second :: after ∧ (before.map Resource.member).Nodup ∧
    first ∈ before ∧ first.member = second.member

theorem insert_free (free : entry.member ∉ r.entries.map Resource.member) :
    r.insert entry = .ok ⟨r.entries ++ [entry]⟩ := by
  have none : r.source? entry.member = none := by
    rw [source?, Option.map_eq_none_iff, List.find?_eq_none]
    intro other found same
    exact free (List.mem_map.mpr ⟨other,found,by simpa using same⟩)
  rw [insert, none]

theorem insert_taken (distinct : (r.entries.map Resource.member).Nodup) (found : first ∈ r.entries)
    (same : first.member = second.member) :
    r.insert second = .error (.duplicateResource second.member first.source second.source) := by
  have some : r.source? second.member = some first.source := by
    cases there : r.entries.find? fun other => other.member = second.member with
    | none => exact absurd same (by simpa using List.find?_eq_none.mp there first found)
    | some other =>
      have sameMember : other.member = second.member := by simpa using List.find?_some there
      have listed := List.mem_of_find?_eq_some there
      rw [source?, there, List.inj_on_of_nodup_map distinct listed found (sameMember.trans same.symm)]
      rfl
  rw [insert, some]

theorem insertAll_free (distinct : ((r.entries ++ entries).map Resource.member).Nodup) :
    r.insertAll entries = .ok ⟨r.entries ++ entries⟩ := by
  induction entries generalizing r with
  | nil => rw [insertAll, List.append_nil]
  | cons entry entries ih =>
    have free : entry.member ∉ r.entries.map Resource.member := by
      rw [List.map_append, List.nodup_append] at distinct
      exact fun found => distinct.2.2 _ found _ List.mem_cons_self rfl
    rw [List.append_cons] at distinct ⊢
    rw [insertAll, insert_free free]
    exact ih distinct

theorem insertAll_append (r : Resources) (entries others : List Resource) :
    r.insertAll (entries ++ others) = r.insertAll entries >>= fun r => r.insertAll others := by
  induction entries generalizing r with
  | nil => rfl
  | cons entry entries ih =>
    rw [List.cons_append, insertAll, insertAll]
    cases r.insert entry with
    | error failure => rfl
    | ok r => exact ih r

theorem insertAll_clash (clash : Clash entries first second) :
    empty.insertAll entries =
      .error (.duplicateResource second.member first.source second.source) := by
  obtain ⟨before,after,rfl,distinct,found,same⟩ := clash
  have taken := insert_taken (r := ⟨before⟩) distinct found same
  rw [insertAll_append, insertAll_free (r := empty) distinct]
  simp only [bind, Except.bind, empty, List.nil_append, insertAll, taken]

theorem exists_clash (again : ¬(entries.map Resource.member).Nodup) :
    ∃ first second, Clash entries first second := by
  induction entries using List.reverseRecOn with
  | nil => exact absurd .nil again
  | append_singleton entries last ih =>
    by_cases distinct : (entries.map Resource.member).Nodup
    · have taken : last.member ∈ entries.map Resource.member := by
        by_contra free
        rw [List.map_append] at again
        exact again (List.concat_eq_append ▸ distinct.concat free)
      obtain ⟨first,found,same⟩ := List.mem_map.mp taken
      exact ⟨first,last,entries,[],rfl,distinct,found,same⟩
    · obtain ⟨first,second,before,after,rfl,clash⟩ := ih distinct
      exact ⟨first,second,before,after ++ [last],by simp,clash⟩

theorem insertAll_eq_ok_iff :
    empty.insertAll entries = .ok r ↔
      r.entries = entries ∧ (entries.map Resource.member).Nodup := by
  constructor
  · intro done
    by_cases distinct : (entries.map Resource.member).Nodup
    · rw [insertAll_free (r := empty) distinct] at done
      cases done
      exact ⟨rfl,distinct⟩
    · obtain ⟨first,second,clash⟩ := exists_clash distinct
      rw [insertAll_clash clash] at done
      cases done
  · rintro ⟨rfl,distinct⟩
    exact insertAll_free (r := empty) distinct

theorem insertAll_eq_error_iff {failure : Failure} :
    empty.insertAll entries = .error failure ↔ ∃ first second, Clash entries first second ∧
      failure = .duplicateResource second.member first.source second.source := by
  constructor
  · intro failed
    by_cases distinct : (entries.map Resource.member).Nodup
    · rw [insertAll_free (r := empty) distinct] at failed
      cases failed
    · obtain ⟨first,second,clash⟩ := exists_clash distinct
      rw [insertAll_clash clash] at failed
      cases failed
      exact ⟨first,second,clash,rfl⟩
  · rintro ⟨first,second,clash,rfl⟩
    exact insertAll_clash clash

theorem insertAll_fails_iff :
    (∃ failure, empty.insertAll entries = .error failure) ↔
      ¬(entries.map Resource.member).Nodup := by
  constructor
  · rintro ⟨failure,failed⟩ distinct
    rw [insertAll_free (r := empty) distinct] at failed
    cases failed
  · intro again
    obtain ⟨first,second,clash⟩ := exists_clash again
    exact ⟨_,insertAll_clash clash⟩

end Resources

namespace SourceTree

variable {t : SourceTree}

def placed (t : SourceTree) (title : String) : List Resource :=
  t.dataFolders.flatMap fun d => (t.ownedFiles d).map (Resources.ofOwned title)

theorem ofTree_eq_ok_iff {title : String} {r : Resources} : Resources.ofTree title t = .ok r ↔
    r.entries = t.placed title ∧ ((t.placed title).map Resource.member).Nodup :=
  Resources.insertAll_eq_ok_iff

/-- Two different data directories own resources with the same relative path. -/
def Overlaps (t : SourceTree) : Prop :=
  ∃ d ∈ t.dataFolders, ∃ other ∈ t.dataFolders, d.path ≠ other.path ∧
    ∃ file ∈ t.ownedFiles d, ∃ again ∈ t.ownedFiles other, file.relative = again.relative

theorem dataFolders_distinct (proper : t.top.Proper) : (t.dataFolders.map Folder.path).Nodup := by
  have found := (t.top.dataFolders_perm.map Folder.path).nodup_iff
  exact found.mpr (proper.paths_distinct.sublist (List.filter_sublist.map _))

theorem member_injective (title : String) :
    Function.Injective fun relative => title ++ "/" ++ relative := by
  intro relative other same
  have chars := congrArg String.toList same
  simp only [String.toList_append] at chars
  exact String.toList_inj.mp (List.append_cancel_left chars)

theorem placed_members (t : SourceTree) (title : String) :
    (t.placed title).map Resource.member = t.dataFolders.flatMap fun d =>
      ((t.ownedFiles d).map OwnedFile.relative).map fun relative => title ++ "/" ++ relative := by
  rw [placed, List.map_flatMap]
  simp only [List.map_map]
  rfl

/-- All places are different unless data directories overlap. -/
theorem placed_distinct_iff (proper : t.top.Proper) (title : String) :
    ((t.placed title).map Resource.member).Nodup ↔ ¬t.Overlaps := by
  rw [placed_members, List.nodup_flatMap]
  constructor
  · rintro ⟨_,apart⟩ ⟨d,data,other,dataOther,different,file,owned,again,ownedOther,same⟩
    have symm : Std.Symm (Function.onFun List.Disjoint fun d : Folder =>
        ((t.ownedFiles d).map OwnedFile.relative).map fun relative => title ++ "/" ++ relative) :=
      ⟨fun _ _ disjoint => disjoint.symm⟩
    have disjoint := apart.forall data dataOther fun equal => different (equal ▸ rfl)
    refine disjoint (List.mem_map_of_mem (List.mem_map_of_mem owned)) ?_
    rw [same]
    exact List.mem_map_of_mem (List.mem_map_of_mem ownedOther)
  · intro none
    refine ⟨?_,?_⟩
    · intro d data
      have inside := (proper.inside (t.mem_dataFolders.mp data).1)
      exact (t.relatives_distinct inside).map (member_injective title)
    · refine (List.pairwise_map.mp (dataFolders_distinct proper)).imp_of_mem ?_
      intro d other data dataOther different
      refine List.disjoint_left.mpr ?_
      intro member here there
      obtain ⟨_,relative,rfl⟩ := List.mem_map.mp here
      obtain ⟨_,relativeOther,sameMember⟩ := List.mem_map.mp there
      obtain ⟨file,owned,rfl⟩ := List.mem_map.mp relative
      obtain ⟨again,ownedOther,rfl⟩ := List.mem_map.mp relativeOther
      have same := member_injective title sameMember
      exact none ⟨d,data,other,dataOther,different,file,owned,again,ownedOther,same.symm⟩

theorem pathOf_append (root : FilePath) (names further : List String) :
    pathOf root (names ++ further) = pathOf (pathOf root names) further := List.foldl_append

/-- Resources of a scanned tree get the places below the theme's name at which they lie below their
owners, each in its turn. This fails exactly if two data directories own resources with the same
relative path, and tells the first resource whose place was taken with the one that has it. -/
theorem ofTree_places {fs : FileSystem} {root : FilePath} (scanned : scan fs root includes = .ok t)
    (proper : fs.Proper) (title : String) :
    (∀ d ∈ t.dataFolders, ((t.ownedFiles d).map OwnedFile.relative).Nodup) ∧
    (∀ d ∈ t.dataFolders, ∀ file ∈ t.ownedFiles d, ∃ names,
      file.source = pathOf (t.folderPath d) names ∧
      file.relative = String.intercalate "/" names) ∧
    ((∃ failure, Resources.ofTree title t = .error failure) ↔ t.Overlaps) ∧
    (∀ failure, Resources.ofTree title t = .error failure →
      ∃ first second, Resources.Clash (t.placed title) first second ∧
        failure = .duplicateResource second.member first.source second.source) ∧
    (∀ r, Resources.ofTree title t = .ok r →
      r.entries = t.placed title ∧ (r.entries.map Resource.member).Nodup) := by
  obtain ⟨_,_,_,listed⟩ := scan_listed scanned
  have proper := (scan_proper proper scanned).folder
  have made : Resources.ofTree title t = Resources.empty.insertAll (t.placed title) := rfl
  refine ⟨?_,?_,?_,?_,?_⟩
  · intro d data
    exact t.relatives_distinct (proper.inside (t.mem_dataFolders.mp data).1)
  · intro d data file owned
    obtain ⟨e,_,name,_,names,_,rfl⟩ := mem_ownedFiles listed (t.mem_dataFolders.mp data).1 owned
    exact ⟨names ++ [name],pathOf_append _ _ _,rfl⟩
  · rw [made, Resources.insertAll_fails_iff, placed_distinct_iff proper title, not_not]
  · intro failure failed
    exact Resources.insertAll_eq_error_iff.mp failed
  · intro r done
    obtain ⟨entries,distinct⟩ := ofTree_eq_ok_iff.mp done
    exact ⟨entries,entries ▸ distinct⟩

/-- A theme with two data directories, one inside the other, that own files of the same name. -/
def twinDisk : FileSystem where
  entries := [([.text "theme"],.directory),
    ([.text "theme",.text "a.png"],.file .empty),
    ([.text "theme",.text "rtconfig.txt"],.file .empty),
    ([.text "theme",.text "sub"],.directory),
    ([.text "theme",.text "sub",.text "a.png"],.file .empty),
    ([.text "theme",.text "sub",.text "rtconfig.txt"],.file .empty)]
  workingDirectory := []

def subFolder : Folder := ⟨["sub"],["a.png"],["rtconfig.txt"],[]⟩

def twinTree : SourceTree := ⟨"/theme",⟨[],["a.png"],["rtconfig.txt"],[subFolder]⟩⟩

theorem twinDisk_proper : twinDisk.Proper where
  distinct := by decide
  named := by simp [twinDisk, ProperName]

theorem twinDisk_scanned : scan twinDisk "/theme" (fun _ => true) = .ok twinTree := by
  have resolved : twinDisk.resolve "/theme" = .ok (["theme"].map .text) :=
    FileSystem.resolveWith_plain true false rfl (by decide) (by decide) (by decide) (by cbv)
  have content : twinDisk.content [.text "theme"] =
      [(.text "a.png",.file),(.text "rtconfig.txt",.file),
        (.text "sub",.directory [(.text "a.png",.file),(.text "rtconfig.txt",.file)])] := by cbv
  refine scan_eq_ok_iff.mpr ⟨rfl,_,resolved,rfl,?_⟩
  simp only [List.map_cons, List.map_nil, content, Folder.ofEntries_file,
    Folder.ofEntries_directory]
  rw [Folder.ofEntries, Folder.ofEntries]
  rfl

theorem twinTree_dataFolders : twinTree.dataFolders = [twinTree.top,subFolder] := by
  simp [dataFolders, Folder.dataFolders, Folder.breadthFirst, Folder.kept, twinTree, subFolder,
    Folder.isData]

theorem twinTree_ownedFiles :
    twinTree.ownedFiles twinTree.top = [⟨"/theme/a.png","a.png"⟩] ∧
    twinTree.ownedFiles subFolder = [⟨"/theme/sub/a.png","a.png"⟩] := by
  have top : twinTree.top.ownFolders = [twinTree.top] := by
    simp [Folder.ownFolders, Folder.breadthFirst, Folder.kept, twinTree, subFolder, Folder.isData]
  have sub : subFolder.ownFolders = [subFolder] := by
    simp [Folder.ownFolders, Folder.breadthFirst, Folder.kept, subFolder]
  rw [ownedFiles, ownedFiles, Folder.ownedFiles, Folder.ownedFiles, top, sub]
  exact ⟨rfl,rfl⟩

theorem twinTree_overlaps : twinTree.Overlaps := by
  refine ⟨twinTree.top,?_,subFolder,?_,by decide,?_⟩
  · simp [twinTree_dataFolders]
  · simp [twinTree_dataFolders]
  · simp [twinTree_ownedFiles]

theorem twin_places :
    scan twinDisk "/theme" (fun _ => true) = .ok twinTree ∧ twinDisk.Proper ∧
    Resources.Clash (twinTree.placed "T") ⟨"T/a.png","/theme/a.png"⟩
      ⟨"T/a.png","/theme/sub/a.png"⟩ ∧
    ∃ failure, Resources.ofTree "T" twinTree = .error failure := by
  have placed : twinTree.placed "T" =
      [⟨"T/a.png","/theme/a.png"⟩,⟨"T/a.png","/theme/sub/a.png"⟩] := by
    simp [SourceTree.placed, twinTree_dataFolders, twinTree_ownedFiles, Resources.ofOwned]
  have clash : Resources.Clash (twinTree.placed "T") ⟨"T/a.png","/theme/a.png"⟩
      ⟨"T/a.png","/theme/sub/a.png"⟩ :=
    ⟨[⟨"T/a.png","/theme/a.png"⟩],[],placed,by decide,by decide,rfl⟩
  have fails := (ofTree_places twinDisk_scanned twinDisk_proper "T").2.2.1
  exact ⟨twinDisk_scanned,twinDisk_proper,clash,fails.mpr twinTree_overlaps⟩

end SourceTree

end ThemeForge
