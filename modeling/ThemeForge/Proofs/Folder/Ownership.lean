import ThemeForge.Proofs.Files.Plain
import ThemeForge.Proofs.Folder.Owned

/-!
# Who owns a resource

The data directories and the orphans share out what a folder records: each resource goes to the
nearest data directory that it is in.
-/

namespace ThemeForge

namespace Folder

/-- A resource that a folder records, with its directory and those above, the nearest first. -/
structure Recorded where
  folder : Folder
  above : List Folder
  name : String

namespace Recorded

/-- The nearest data directory that a resource is in. -/
def owner? (r : Recorded) : Option Folder := (r.folder :: r.above).find? isData

def place (r : Recorded) : List String × String := (r.folder.path,r.name)

def share (r : Recorded) : Option Folder × List String × String := (r.owner?,r.place)

end Recorded

mutual

def recorded (above : List Folder) : Folder → List Recorded
  | f@⟨_,files,_,children⟩ => files.map (⟨f,above,·⟩) ++ recordedIn (f :: above) children

def recordedIn (above : List Folder) : List Folder → List Recorded
  | [] => []
  | f :: rest => f.recorded above ++ recordedIn above rest

end

theorem recorded_eq (above : List Folder) (f : Folder) :
    f.recorded above = f.files.map (⟨f,above,·⟩) ++ recordedIn (f :: above) f.children := by
  obtain ⟨_,_,_,_⟩ := f
  rfl

def owned (folders : List Folder) : List (Option Folder × List String × String) :=
  (folders.filter isData).flatMap fun d => d.ownedFiles.map (some d,·)

theorem owned_append (folders others : List Folder) :
    owned (folders ++ others) = owned folders ++ owned others := by
  rw [owned, List.filter_append, List.flatMap_append]
  rfl

theorem owned_cons_data {f : Folder} (data : f.isData = true) (rest : List Folder) :
    owned (f :: rest) = f.ownedFiles.map (some f,·) ++ owned rest := by
  rw [owned, List.filter_cons_of_pos data, List.flatMap_cons]
  rfl

theorem owned_cons_plain {f : Folder} (plain : f.isData = false) (rest : List Folder) :
    owned (f :: rest) = owned rest := by
  rw [owned, List.filter_cons_of_neg (by simp [plain])]
  rfl

/-- The resources that a directory leaves to the data directory above it, which is `owner`. -/
def left (owner : Option Folder) (f : Folder) : List (Option Folder × List String × String) :=
  if f.isData then [] else f.ownedFiles.map (owner,·)

theorem left_data {f : Folder} (data : f.isData = true) (owner : Option Folder) :
    f.left owner = [] := if_pos data

theorem left_plain {f : Folder} (plain : f.isData = false) (owner : Option Folder) :
    f.left owner = f.ownedFiles.map (owner,·) := if_neg (by simp [plain])

/-- What several folders leave is what those own that are no data directories. -/
theorem flatMap_left (owner : Option Folder) (folders : List Folder) :
    folders.flatMap (left owner) =
      ((folders.filter fun f => !f.isData).flatMap ownedFiles).map (owner,·) := by
  induction folders with
  | nil => rfl
  | cons f rest ih =>
    cases data : f.isData with
    | true => simp [left_data data, data, ih]
    | false => simp [left_plain data, data, ih]

/-- Resources of a directory and those left by its children make up what it owns. -/
theorem own_perm (owner : Option Folder) (f : Folder) :
    (f.files.map (fun name => (owner,f.path,name)) ++ f.children.flatMap (left owner)).Perm
      (f.ownedFiles.map (owner,·)) := by
  have whole := (f.ownedFiles_perm.map (owner,·)).symm
  rw [List.map_append, List.map_map] at whole
  rw [flatMap_left]
  exact whole

theorem interchange (a b c d : List α) : (a ++ b ++ (c ++ d)).Perm (a ++ c ++ (b ++ d)) := by
  rw [List.append_assoc, List.append_assoc]
  exact (List.perm_append_comm_assoc b c d).append_left a

/-- One directory: if what its children record is shared out, so is what it records. -/
theorem recorded_step (above : List Folder) (f : Folder)
    (below : ((recordedIn (f :: above) f.children).map Recorded.share).Perm
      (owned (depthFirsts f.children) ++ f.children.flatMap (left ((f :: above).find? isData)))) :
    ((f.recorded above).map Recorded.share).Perm
      (owned f.depthFirst ++ f.left (above.find? isData)) := by
  have inside : ((f.recorded above).map Recorded.share).Perm
      (owned (depthFirsts f.children) ++ f.ownedFiles.map ((f :: above).find? isData,·)) := by
    rw [recorded_eq, List.map_append, List.map_map]
    refine (below.append_left _).trans ?_
    refine (List.perm_append_comm_assoc _ _ _).trans ?_
    exact (own_perm ((f :: above).find? isData) f).append_left _
  rw [depthFirst_cons]
  cases data : f.isData with
  | true =>
    rw [owned_cons_data data, left_data data, List.append_nil]
    rw [List.find?_cons_of_pos data] at inside
    exact inside.trans List.perm_append_comm
  | false =>
    rw [owned_cons_plain data, left_plain data]
    rw [List.find?_cons_of_neg (by simp [data])] at inside
    exact inside

mutual

/-- The data directories of a folder and the data directory above share out its resources. -/
theorem recorded_perm (above : List Folder) : (f : Folder) →
    ((f.recorded above).map Recorded.share).Perm
      (owned f.depthFirst ++ f.left (above.find? isData))
  | ⟨_,_,_,children⟩ => recorded_step above _ (recordedIn_perm _ children)

theorem recordedIn_perm (above : List Folder) : (folders : List Folder) →
    ((recordedIn above folders).map Recorded.share).Perm
      (owned (depthFirsts folders) ++ folders.flatMap (left (above.find? isData)))
  | [] => by simp [recordedIn, depthFirsts, owned]
  | f :: rest => by
    have first := recorded_perm above f
    have others := recordedIn_perm above rest
    rw [recordedIn, depthFirsts, List.map_append, owned_append, List.flatMap_cons]
    exact (first.append others).trans (interchange _ _ _ _)

end

/-- The shares of a folder: what each data directory owns, nearest first, and the orphans. -/
def shares (f : Folder) : List (Option Folder × List String × String) :=
  (f.dataFolders.flatMap fun d => d.ownedFiles.map (some d,·)) ++ f.orphans.map (none,·)

/-- Every resource of a folder is in one share, that of its owner. -/
theorem shares_perm (f : Folder) : f.shares.Perm ((f.recorded []).map Recorded.share) := by
  have ownedBy : (f.dataFolders.flatMap fun d => d.ownedFiles.map (some d,·)).Perm
      (owned f.depthFirst) := f.dataFolders_perm.flatMap_right _
  have orphaned : f.orphans.map (none,·) = f.left none := by
    cases data : f.isData with
    | true => simp [orphans, left_data data, data]
    | false => simp [orphans, left_plain data, data, ownedFiles]
  rw [shares, orphaned]
  exact (ownedBy.append_right _).trans (recorded_perm [] f).symm

mutual

theorem recorded_files (above : List Folder) : (f : Folder) →
    (f.recorded above).map (fun r => (r.folder,r.name)) =
      f.depthFirst.flatMap fun d => d.files.map (d,·)
  | ⟨_,_,_,children⟩ => by
    rw [recorded_eq, depthFirst_cons, List.map_append, List.map_map, List.flatMap_cons,
      recordedIn_files _ children]
    rfl

theorem recordedIn_files (above : List Folder) : (folders : List Folder) →
    (recordedIn above folders).map (fun r => (r.folder,r.name)) =
      (depthFirsts folders).flatMap fun d => d.files.map (d,·)
  | [] => rfl
  | f :: rest => by
    rw [recordedIn, depthFirsts, List.map_append, List.flatMap_append, recorded_files above f,
      recordedIn_files above rest]

end

variable {f : Folder}

def Recorded.names (r : Recorded) : List String := r.folder.path ++ [r.name]

theorem Recorded.file {r : Recorded} {above : List Folder} (found : r ∈ f.recorded above) :
    r.folder ∈ f.depthFirst ∧ r.name ∈ r.folder.files := by
  have listed : (r.folder,r.name) ∈ (f.recorded above).map fun r => (r.folder,r.name) :=
    List.mem_map_of_mem found
  rw [recorded_files] at listed
  obtain ⟨d,below,listed⟩ := List.mem_flatMap.mp listed
  obtain ⟨name,file,same⟩ := List.mem_map.mp listed
  cases same
  exact ⟨below,file⟩

/-- No two resources of a proper folder have the same names leading to them. -/
theorem Proper.names_distinct (proper : f.Proper) (above : List Folder) :
    ((f.recorded above).map Recorded.names).Nodup := by
  have split : (f.recorded above).map Recorded.names = (filesIn f.depthFirst).map namesTo := by
    have listed := congrArg (List.map fun file : Folder × String => file.1.path ++ [file.2])
      (recorded_files above f)
    rw [List.map_map, List.map_flatMap] at listed
    refine listed.trans ?_
    rw [filesIn, List.map_flatMap]
    simp only [List.map_map]
    rfl
  rw [split]
  exact filesIn_distinct proper.paths_distinct fun d below => (proper.inside below).files.1

end Folder

def OwnedFile.sourceText (file : OwnedFile) : String := file.source.text

namespace SourceTree

def recorded (t : SourceTree) : List Folder.Recorded := t.top.recorded []

def source (t : SourceTree) (r : Folder.Recorded) : String := (pathOf t.root r.names).text

/-- What each data directory owns, nearest first, and the orphans, with the owners. -/
def shares (t : SourceTree) : List (Option Folder × String) :=
  (t.dataFolders.flatMap fun d => (t.ownedFiles d).map fun file => (some d,file.sourceText)) ++
    t.orphans.map (none,·)

/-- The resources that data directories own, nearest first, and the orphans. -/
def handedOut (t : SourceTree) : List String :=
  t.dataFolders.flatMap (fun d => (t.ownedFiles d).map OwnedFile.sourceText) ++ t.orphans

theorem handedOut_eq (t : SourceTree) : t.handedOut = t.shares.map Prod.snd := by
  rw [handedOut, shares, List.map_append, List.map_flatMap, List.map_map]
  simp only [List.map_map]
  exact congrArg (_ ++ ·) (List.map_id _).symm

theorem owned_share (t : SourceTree) (d : Folder) (path : String) :
    (some d,path) ∈ t.shares ↔
      d ∈ t.dataFolders ∧ path ∈ (t.ownedFiles d).map OwnedFile.sourceText := by
  rw [shares, List.mem_append, List.mem_flatMap]
  constructor
  · rintro (⟨other,data,owned⟩ | orphan)
    · obtain ⟨file,listed,same⟩ := List.mem_map.mp owned
      cases same
      exact ⟨data,List.mem_map_of_mem listed⟩
    · obtain ⟨_,_,same⟩ := List.mem_map.mp orphan
      cases same
  · rintro ⟨data,owned⟩
    obtain ⟨file,listed,rfl⟩ := List.mem_map.mp owned
    exact .inl ⟨d,data,List.mem_map_of_mem listed⟩

theorem orphan_share (t : SourceTree) (path : String) :
    (none,path) ∈ t.shares ↔ path ∈ t.orphans := by
  rw [shares, List.mem_append, List.mem_flatMap]
  constructor
  · rintro (⟨other,data,owned⟩ | orphan)
    · obtain ⟨_,_,same⟩ := List.mem_map.mp owned
      cases same
    · obtain ⟨_,orphan,same⟩ := List.mem_map.mp orphan
      cases same
      exact orphan
  · exact fun orphan => .inr (List.mem_map_of_mem orphan)

/-- Every resource is in one share, that of its owner. -/
theorem shares_perm (t : SourceTree) :
    t.shares.Perm (t.recorded.map fun r => (r.owner?,t.source r)) := by
  have onDisk := t.top.shares_perm.map fun share =>
    (share.1,(pathOf t.root (share.2.1 ++ [share.2.2])).text)
  rw [List.map_map] at onDisk
  refine List.Perm.trans (List.Perm.of_eq ?_) onDisk
  simp only [shares, Folder.shares, ownedFiles, orphans, List.map_append, List.map_flatMap,
    List.map_map]
  rfl

theorem sources_distinct {fs : FileSystem} {root : FilePath} {t : SourceTree} (proper : fs.Proper)
    (scanned : scan fs root includes = .ok t) : (t.recorded.map t.source).Nodup := by
  have proper := scan_proper proper scanned
  have namesProper : ∀ r ∈ t.recorded, ∀ name ∈ r.names, ProperName name := by
    intro r found name step
    obtain ⟨below,file⟩ := Folder.Recorded.file found
    rcases List.mem_append.mp step with step | step
    · exact proper.path_names below name step
    · rw [List.mem_singleton.mp step]
      exact (proper.folder.inside below).files.2 r.name file
  have distinct := proper.folder.names_distinct []
  refine (List.pairwise_map.mpr ?_)
  refine (List.pairwise_map.mp distinct).imp_of_mem ?_
  intro r other found isOther different same
  have properNames := namesProper r found
  exact different
    (pathOf_injective proper.named _ _ properNames (namesProper other isOther) same)

/-- The resources of a tree are handed out to their owners. In a tree that was scanned each of them
is handed out once: to the nearest data directory that it is in, or as an orphan if there is none.
-/
theorem scan_hands_out {fs : FileSystem} {root : FilePath} {t : SourceTree}
    (scanned : scan fs root includes = .ok t) :
    t.shares.Perm (t.recorded.map fun r => (r.owner?,t.source r)) ∧
    (fs.Proper → ∀ r ∈ t.recorded,
      t.handedOut.count (t.source r) = 1 ∧
      (∀ d, d ∈ t.dataFolders ∧ t.source r ∈ (t.ownedFiles d).map OwnedFile.sourceText ↔
        r.owner? = some d) ∧
      (t.source r ∈ t.orphans ↔ r.owner? = none)) := by
  refine ⟨t.shares_perm,?_⟩
  intro proper r found
  have distinct := sources_distinct proper scanned
  have share : ∀ owner, (owner,t.source r) ∈ t.shares ↔ r.owner? = owner := by
    intro owner
    rw [t.shares_perm.mem_iff]
    constructor
    · intro shared
      obtain ⟨other,isOther,same⟩ := List.mem_map.mp shared
      obtain ⟨sameOwner,sameSource⟩ := Prod.mk.inj same
      rw [← sameOwner, List.inj_on_of_nodup_map distinct isOther found sameSource]
    · rintro rfl
      exact List.mem_map_of_mem found
  refine ⟨?_,?_,?_⟩
  · have sources : t.handedOut.Perm (t.recorded.map t.source) := by
      rw [handedOut_eq]
      refine (t.shares_perm.map Prod.snd).trans (List.Perm.of_eq ?_)
      exact List.map_map
    rw [sources.count_eq]
    exact List.count_eq_one_of_mem distinct (List.mem_map_of_mem found)
  · intro d
    rw [← owned_share]
    exact share (some d)
  · rw [← orphan_share]
    exact share none

/-- A theme whose root has a resource but no fragment, and a data directory in it. -/
def nestedDisk : FileSystem where
  entries := [([.text "theme"],.directory),
    ([.text "theme",.text "a.png"],.file .empty),
    ([.text "theme",.text "extra"],.directory),
    ([.text "theme",.text "extra",.text "b.png"],.file .empty),
    ([.text "theme",.text "extra",.text "rtconfig.txt"],.file .empty)]
  workingDirectory := []

def extraFolder : Folder := ⟨["extra"],["b.png"],["rtconfig.txt"],[]⟩

def nestedTree : SourceTree := ⟨"/theme",⟨[],["a.png"],[],[extraFolder]⟩⟩

theorem nestedDisk_proper : nestedDisk.Proper where
  distinct := by decide
  named := by simp [nestedDisk, ProperName]

theorem nestedDisk_content : nestedDisk.content [.text "theme"] =
    [(.text "a.png",.file),
      (.text "extra",.directory [(.text "b.png",.file),(.text "rtconfig.txt",.file)])] := by
  cbv

theorem nestedDisk_resolve : nestedDisk.resolve "/theme" = .ok (["theme"].map .text) :=
  FileSystem.resolveWith_plain true false rfl (by decide) (by decide) (by decide) (by cbv)

theorem nestedDisk_scanned :
    scan nestedDisk "/theme" (fun _ => true) = .ok nestedTree := by
  refine scan_eq_ok_iff.mpr ⟨rfl,_,nestedDisk_resolve,rfl,?_⟩
  simp only [List.map_cons, List.map_nil, nestedDisk_content, Folder.ofEntries_file,
    Folder.ofEntries_directory]
  rw [Folder.ofEntries, Folder.ofEntries]
  rfl

theorem nested_hands_out :
    scan nestedDisk "/theme" (fun _ => true) = .ok nestedTree ∧ nestedDisk.Proper ∧
    nestedTree.handedOut.count "/theme/a.png" = 1 ∧ "/theme/a.png" ∈ nestedTree.orphans ∧
    extraFolder ∈ nestedTree.dataFolders ∧
    "/theme/extra/b.png" ∈ (nestedTree.ownedFiles extraFolder).map OwnedFile.sourceText := by
  have each := (scan_hands_out nestedDisk_scanned).2 nestedDisk_proper
  obtain ⟨once,_,orphan⟩ := each ⟨nestedTree.top,[],"a.png"⟩ List.mem_cons_self
  obtain ⟨_,owned,_⟩ := each ⟨extraFolder,[nestedTree.top],"b.png"⟩
    (List.mem_cons_of_mem _ List.mem_cons_self)
  obtain ⟨data,listed⟩ := (owned extraFolder).mpr rfl
  exact ⟨nestedDisk_scanned,nestedDisk_proper,once,orphan.mpr rfl,data,listed⟩

end SourceTree

end ThemeForge
