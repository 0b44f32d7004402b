import ThemeForge.Proofs.Folder.Numbering

/-!
# The table of a scanned tree

A scan numbers the directories that it meets and records each file in the directory that it lies in.
-/

namespace ThemeForge

namespace Folder

variable {f : Folder}

theorem addFile_fragments (includes : String → Bool) (name : String) (f : Folder) :
    (addFile includes name f).fragments =
      if FileKind.classify name ≠ .resource then name :: f.fragments else f.fragments := by
  unfold addFile
  cases FileKind.classify name with
  | fragment kind => rfl
  | resource => by_cases chosen : includes name <;> simp [chosen]

theorem addFile_files (includes : String → Bool) (name : String) (f : Folder) :
    (addFile includes name f).files =
      if FileKind.classify name = .resource ∧ includes name then name :: f.files else f.files := by
  unfold addFile
  cases FileKind.classify name with
  | fragment kind => rfl
  | resource => by_cases chosen : includes name <;> simp [chosen]

def chosenFile? (chosen : String → Bool) : List FileName × Content → Option (List FileName)
  | (place,.file) => if (place.getLast?.bind FileName.text?).any chosen then some place else none
  | _ => none

def filePlaces (chosen : String → Bool) (entries : List (List FileName × Content)) :
    List (List FileName) := entries.filterMap (chosenFile? chosen)

theorem mem_filePlaces {chosen : String → Bool} {entries : List (List FileName × Content)}
    {place : List FileName} : place ∈ filePlaces chosen entries ↔
      (place,.file) ∈ entries ∧ (place.getLast?.bind FileName.text?).any chosen := by
  rw [filePlaces, List.mem_filterMap]
  constructor
  · rintro ⟨⟨other,content⟩,listed,file⟩
    cases content with
    | file =>
      obtain ⟨isChosen,same⟩ := Option.ite_none_right_eq_some.mp file
      cases same
      exact ⟨listed,isChosen⟩
    | directory inside => cases file
    | unreadable fault => cases file
  · rintro ⟨listed,isChosen⟩
    exact ⟨_,listed,if_pos isChosen⟩

def placed (listed : Folder → List String) (f : Folder) : List (List FileName) :=
  (listed f).map fun name => f.path.map .text ++ [.text name]

/-- If files are listed by their names, the directories of a folder list those of the walk. -/
theorem Listed.placed_perm {listed : Folder → List String} {chosen : String → Bool}
    (empty : ∀ place, listed ⟨place,[],[],[]⟩ = [])
    (adds : ∀ name f, listed (addFile includes name f) =
      if chosen name then name :: listed f else listed f)
    (keeps : ∀ f children, listed { f with children := children } = listed f)
    (made : Listed includes place entries f) :
    (f.depthFirst.flatMap (placed listed)).Perm
      (filePlaces chosen (walk (place.map .text) entries)) := by
  induction made with
  | @nil place =>
    rw [depthFirst_cons, depthFirsts, List.flatMap_singleton, placed, empty, walk]
    exact .nil
  | @file place entries f name rest ih =>
    have met : chosenFile? chosen (place.map .text ++ [.text name],.file) =
        if chosen name then some (place.map .text ++ [.text name]) else none := by
      simp [chosenFile?, FileName.text?]
    have same : placed listed (addFile includes name f) =
        (if chosen name then [place.map .text ++ [.text name]] else []) ++ placed listed f := by
      rw [placed, adds, addFile_path, rest.path_eq, placed, rest.path_eq]
      split <;> rfl
    rw [depthFirst_cons, List.flatMap_cons] at ih
    rw [depthFirst_cons, addFile_children, List.flatMap_cons, same, Arena.walk_file, filePlaces,
      List.filterMap_cons, met, List.append_assoc]
    by_cases isChosen : chosen name
    · rw [if_pos isChosen, if_pos isChosen]
      exact ih.cons _
    · rw [if_neg isChosen, if_neg isChosen]
      exact ih
  | @directory place name inside child entries f inner rest ihInner ih =>
    have same : placed listed { f with children := child :: f.children } = placed listed f := by
      rw [placed, keeps, placed]
    rw [depthFirst_cons, List.flatMap_cons] at ih
    rw [List.map_append, List.map_singleton] at ihInner
    have noFile : chosenFile? chosen (place.map .text ++ [.text name],.directory inside) = none := rfl
    rw [depthFirst_cons, depthFirsts, List.flatMap_cons, same, List.flatMap_append, walk, filePlaces,
      List.cons_append, List.filterMap_cons_none noFile, List.filterMap_append]
    exact (List.perm_append_comm_assoc _ _ _).trans (ihInner.append ih)

/-- Each entry of a walk lies in a directory of the folder and has a text for its name. -/
theorem Listed.entry_place (made : Listed includes place entries f) :
    ∀ entry ∈ walk (place.map .text) entries, ∃ names ∈ f.depthFirst.map path, ∃ name,
      entry.1 = names.map .text ++ [.text name] := by
  induction made with
  | nil =>
    intro entry met
    rw [walk] at met
    cases met
  | @file place entries f name rest ih =>
    intro entry met
    have same : (addFile includes name f).depthFirst.map path = f.depthFirst.map path := by
      rw [depthFirst_cons, addFile_children, List.map_cons, addFile_path, depthFirst_cons f,
        List.map_cons]
    rw [Arena.walk_file] at met
    rw [same]
    rcases List.mem_cons.mp met with rfl | later
    · refine ⟨place,?_,name,rfl⟩
      rw [depthFirst_cons, List.map_cons, rest.path_eq]
      exact List.mem_cons_self
    · exact ih entry later
  | @directory place name inside child entries f inner rest ihInner ih =>
    intro entry met
    rw [depthFirst_cons, depthFirsts, List.map_cons, List.map_append]
    rw [depthFirst_cons, List.map_cons] at ih
    rw [walk, List.cons_append, List.mem_cons, List.mem_append] at met
    rcases met with rfl | below | later
    · exact ⟨place,List.mem_cons.mpr (.inl rest.path_eq.symm),name,rfl⟩
    · obtain ⟨names,among,lies⟩ := ihInner entry (by rwa [List.map_append])
      exact ⟨names,List.mem_cons_of_mem _ (List.mem_append_left _ among),lies⟩
    · obtain ⟨names,among,lies⟩ := ih entry later
      refine ⟨names,?_,lies⟩
      rcases List.mem_cons.mp among with rfl | other
      · exact List.mem_cons_self
      · exact List.mem_cons_of_mem _ (List.mem_append_right _ other)

end Folder

namespace Arena

variable {a : Arena} {f : Folder}

def Node.path (root : FilePath) (node : Node) : FilePath :=
  SourceTree.pathOf root (node.place.map FileName.display)

def recorded (a : Arena) (listed : Node → List String) : List (List FileName) :=
  a.nodes.flatMap fun node => (listed node).map fun name => node.place ++ [.text name]

theorem recorded_nodup {listed : Node → List String} (distinct : (a.nodes.map Node.place).Nodup)
    (once : ∀ node ∈ a.nodes, (listed node).Nodup) : (a.recorded listed).Nodup := by
  refine List.nodup_flatMap.mpr ⟨fun node among => ?_,?_⟩
  · refine (once node among).map fun name other same => ?_
    exact FileName.text.inj (List.singleton_injective (List.append_cancel_left same))
  · refine (List.pairwise_map.mp distinct).imp fun different => ?_
    refine List.disjoint_left.mpr fun file here there => ?_
    obtain ⟨_,_,rfl⟩ := List.mem_map.mp here
    obtain ⟨_,_,same⟩ := List.mem_map.mp there
    exact different (List.append_inj_left' same rfl).symm

theorem count_recorded {listed : Node → List String} {chosen : String → Bool}
    {entries : List (List FileName × Content)} {place : List FileName} {name : String}
    (same : (a.recorded listed).Perm (Folder.filePlaces chosen entries))
    (once : (a.recorded listed).Nodup) (met : (place ++ [.text name],.file) ∈ entries) :
    (a.recorded listed).count (place ++ [.text name]) = if chosen name then 1 else 0 := by
  have recorded : place ++ [.text name] ∈ a.recorded listed ↔ chosen name := by
    rw [same.mem_iff, Folder.mem_filePlaces]
    simp [met, FileName.text?]
  by_cases isChosen : chosen name
  · rw [if_pos isChosen]
    exact List.count_eq_one_of_mem once (recorded.mpr isChosen)
  · rw [if_neg isChosen]
    exact List.count_eq_zero.mpr fun found => isChosen (recorded.mp found)

theorem ofFolder_recorded {listed : Node → List String} {told : Folder → List String}
    (same : ∀ number d, listed (.ofFolder number d) = told d) (f : Folder) :
    (ofFolder f).recorded listed = f.depthFirst.flatMap (Folder.placed told) := by
  rw [recorded, ofFolder, List.flatMap_def, List.flatMap_def]
  refine congrArg List.flatten (rows_map (fun number d => ?_) 0 f.depthFirst)
  rw [same]
  rfl

theorem mem_ofFolder {node : Node} (among : node ∈ (ofFolder f).nodes) :
    ∃ number, ∃ d ∈ f.depthFirst, .ofFolder number d = node := by
  obtain ⟨number,found⟩ := List.mem_iff_getElem?.mp among
  obtain ⟨d,here,same⟩ := row_eq found
  exact ⟨number,d,List.mem_of_getElem? here,same⟩

theorem Node.path_ofFolder (root : FilePath) (number : Nat) (d : Folder) :
    (Node.ofFolder number d).path root = SourceTree.pathOf root d.path := by
  rw [Node.path, Node.ofFolder, List.map_map]
  exact congrArg _ (List.map_id _)

theorem ofFolder_places (f : Folder) :
    (ofFolder f).nodes.map Node.place = f.depthFirst.map fun d => d.path.map .text :=
  rows_map (fun _ _ => rfl) 0 f.depthFirst

end Arena

namespace Folder

/-- Fragments are recorded as such, -/
theorem Listed.fragments_perm (made : Listed includes [] entries f) :
    ((Arena.ofFolder f).recorded Arena.Node.fragments).Perm
      (filePlaces (fun name => FileKind.classify name ≠ .resource) (walk [] entries)) := by
  rw [Arena.ofFolder_recorded (fun _ _ => rfl)]
  exact made.placed_perm (fun _ => rfl) (fun name f => by simp [addFile_fragments]) (fun _ _ => rfl)

theorem Listed.files_perm (made : Listed includes [] entries f) :
    ((Arena.ofFolder f).recorded Arena.Node.files).Perm
      (filePlaces (fun name => FileKind.classify name = .resource ∧ includes name)
        (walk [] entries)) := by
  rw [Arena.ofFolder_recorded (fun _ _ => rfl)]
  exact made.placed_perm (fun _ => rfl) (fun name f => by simp [addFile_files]) (fun _ _ => rfl)

theorem Proper.recorded_nodup (proper : f.Proper) :
    ((Arena.ofFolder f).recorded Arena.Node.fragments).Nodup ∧
      ((Arena.ofFolder f).recorded Arena.Node.files).Nodup := by
  have texts : Function.Injective (List.map FileName.text) :=
    List.map_injective_iff.mpr fun _ _ same => FileName.text.inj same
  have apart : ((Arena.ofFolder f).nodes.map Arena.Node.place).Nodup := by
    have paths := proper.paths_distinct.map texts
    rw [List.map_map] at paths
    rw [Arena.ofFolder_places]
    exact paths
  refine ⟨Arena.recorded_nodup apart fun node among => ?_,
    Arena.recorded_nodup apart fun node among => ?_⟩
  · obtain ⟨_,d,below,rfl⟩ := Arena.mem_ofFolder among
    exact (proper.inside below).fragments.1
  · obtain ⟨_,d,below,rfl⟩ := Arena.mem_ofFolder among
    exact (proper.inside below).files.1

/-- A file of a walk is recorded once in its directory, or nowhere if it is no fragment and not
chosen. -/
theorem Listed.file_recorded {file : List FileName} (made : Listed includes [] entries f)
    (proper : f.Proper) (met : (file,.file) ∈ walk [] entries) :
    ∃ node ∈ (Arena.ofFolder f).nodes, ∃ name, file = node.place ++ [.text name] ∧
      ((Arena.ofFolder f).recorded Arena.Node.fragments).count file =
        (if FileKind.classify name ≠ .resource then 1 else 0) ∧
      ((Arena.ofFolder f).recorded Arena.Node.files).count file =
        (if FileKind.classify name = .resource ∧ includes name then 1 else 0) := by
  obtain ⟨names,among,name,rfl⟩ := made.entry_place _ met
  obtain ⟨fragments,files⟩ := proper.recorded_nodup
  have lies : names.map .text ∈ (Arena.ofFolder f).nodes.map Arena.Node.place := by
    obtain ⟨d,below,rfl⟩ := List.mem_map.mp among
    rw [Arena.ofFolder_places]
    exact List.mem_map_of_mem below
  obtain ⟨node,inside,place⟩ := List.mem_map.mp lies
  refine ⟨node,inside,name,by rw [place],?_,?_⟩
  · simpa using Arena.count_recorded made.fragments_perm fragments met
  · simpa using Arena.count_recorded made.files_perm files met

end Folder

namespace SourceTree

variable {fs : FileSystem} {root : FilePath} {t : SourceTree} {a : Arena}

theorem Proper.folderPaths_distinct (proper : t.Proper) :
    (t.top.depthFirst.map t.folderPath).Nodup := by
  refine List.pairwise_map.mpr ((List.pairwise_map.mp proper.folder.paths_distinct).imp_of_mem ?_)
  intro d e below other different same
  exact different (pathOf_injective proper.named _ _ (proper.path_names below)
    (proper.path_names other) (congrArg FilePath.text same))

/-- What a table of the directories among the entries at the root of a tree holds. -/
structure Numbered (includes : String → Bool) (entries : List (FileName × Content))
    (t : SourceTree) (a : Arena) : Prop where
  /-- The directories of the tree are numbered in the order of a walk, from the root on. -/
  rows : a.nodes = Arena.rows 0 t.top.depthFirst
  places : a.nodes.map Arena.Node.place = [] :: Folder.directoryPlaces (Folder.walk [] entries)
  root : a.nodes[0]?.map (Arena.Node.path t.root) = some t.root
  distinct : (a.nodes.map (Arena.Node.path t.root)).Nodup
  /-- Each but the root is listed once, in the directory that it lies in. -/
  tree : a.Tree
  parent : ∀ number, 0 < number → number < a.nodes.length → ∃! above, a.Lists above number
  child : ∀ above number, a.Lists above number → above < number ∧ ∃ node child name,
    a.nodes[above]? = some node ∧ a.nodes[number]? = some child ∧
      child.place = node.place ++ [.text name] ∧
      child.path t.root = (node.path t.root).join name
  reached : ∀ number < a.nodes.length, Relation.ReflTransGen a.Lists 0 number
  /-- Each file lies in one of them. It is recorded there once or, as a resource that is not chosen,
  nowhere. -/
  files : ∀ file, (file,.file) ∈ Folder.walk [] entries → ∃ node ∈ a.nodes, ∃ name,
    file = node.place ++ [.text name] ∧
      (a.recorded Arena.Node.fragments).count file =
        (if FileKind.classify name ≠ .resource then 1 else 0) ∧
      (a.recorded Arena.Node.files).count file =
        (if FileKind.classify name = .resource ∧ includes name then 1 else 0)
  only : ∀ file, file ∈ a.recorded Arena.Node.fragments ∨ file ∈ a.recorded Arena.Node.files →
    (file,.file) ∈ Folder.walk [] entries
  /-- A queue that enters all children visits all directories, so it finds the data directories. -/
  all : ∃ visited, a.Sweep Arena.Node.children 0 visited ∧ visited.Perm (List.range a.nodes.length) ∧
    (visited.filterMap (t.top.depthFirst[·]?)).filter Folder.isData = t.dataFolders
  /-- One that enters only children without a fragment finds what a directory owns, -/
  owned : ∀ number d, t.top.depthFirst[number]? = some d → ∃ visited,
    a.Sweep a.plain number visited ∧
      Folder.filesIn (visited.filterMap (t.top.depthFirst[·]?)) = d.ownedFiles
  /-- and one that enters nothing from a data directory the orphans. -/
  orphans : ∃ visited, a.Sweep Arena.Node.loose 0 visited ∧
    Folder.filesIn ((visited.filterMap (t.top.depthFirst[·]?)).filter fun d => !d.isData) =
      t.top.orphans

theorem Proper.numbered (proper : t.Proper) (listed : Folder.Listed includes [] entries t.top) :
    t.Numbered includes entries (Arena.ofFolder t.top) := by
  have tree := Arena.ofFolder_tree t.top
  have paths : (Arena.ofFolder t.top).nodes.map (Arena.Node.path t.root) =
      t.top.depthFirst.map t.folderPath :=
    Arena.rows_map (Arena.Node.path_ofFolder t.root) 0 t.top.depthFirst
  exact {
    rows := rfl
    places := (Arena.ofFolder_places t.top).trans listed.walked
    root := by
      rw [Arena.row_at t.top.depthFirst_zero, Option.map_some, Arena.Node.path_ofFolder, proper.top]
      rfl
    distinct := by
      rw [paths]
      exact proper.folderPaths_distinct
    tree := tree
    parent := fun number later inside => tree.existsUnique_parent later inside
    child := by
      intro above number lists
      obtain ⟨d,child,here,there,path⟩ := Arena.lists_child proper.folder lists
      refine ⟨tree.later above number lists,.ofFolder above d,.ofFolder number child,
        child.lastName,Arena.row_at here,Arena.row_at there,?_,?_⟩
      · rw [Arena.Node.ofFolder, path, List.map_append]
        rfl
      · rw [Arena.Node.path_ofFolder, Arena.Node.path_ofFolder, path, pathOf_append]
        rfl
    reached := fun number inside => tree.reached inside
    files := fun file met => listed.file_recorded proper.folder met
    only := by
      rintro file (fragment | resource)
      · exact (Folder.mem_filePlaces.mp (listed.fragments_perm.mem_iff.mp fragment)).1
      · exact (Folder.mem_filePlaces.mp (listed.files_perm.mem_iff.mp resource)).1
    all := by
      obtain ⟨visited,sweep⟩ := tree.exists_sweep (fun _ _ => .refl _) tree.rooted
      exact ⟨visited,sweep,tree.sweep_all sweep,sweep.dataFolders⟩
    owned := by
      intro number d here
      have inside : number < (Arena.ofFolder t.top).nodes.length := by
        rw [Arena.ofFolder, Arena.length_rows]
        exact (List.getElem?_eq_some_iff.mp here).1
      obtain ⟨visited,sweep⟩ := tree.exists_sweep
        (fun node _ => (Arena.ofFolder t.top).plain_sublist node) inside
      exact ⟨visited,sweep,sweep.ownedFiles here⟩
    orphans := by
      obtain ⟨visited,sweep⟩ := tree.exists_sweep (fun node _ => Arena.loose_sublist node) tree.rooted
      exact ⟨visited,sweep,sweep.orphans⟩ }

/-- A scan numbers the directories that it meets as a tree and records each file in its directory.
Work queues over the table end, visit no directory twice and find what is found in the tree. -/
theorem scan_numbered (scanned : scan fs root includes = .ok t) (proper : fs.Proper) :
    t.root = root ∧ ∃ location, fs.resolve root = .ok location ∧ ∃ a,
      Arena.ofWalk includes (Folder.walk [] (fs.content location)) = .ok a ∧
        t.Numbered includes (fs.content location) a := by
  obtain ⟨sameRoot,location,resolved,_,made⟩ := scan_eq_ok_iff.mp scanned
  refine ⟨sameRoot,location,resolved,Arena.ofFolder t.top,?_,?_⟩
  · rw [Arena.ofWalk_eq, made]
    rfl
  · exact (scan_proper proper scanned).numbered (Folder.ofEntries_listed _ _ _ _ made)

theorem nested_numbered :
    scan nestedDisk "/theme" (fun _ => true) = .ok nestedTree ∧ nestedDisk.Proper ∧
    ∃ a, Arena.ofWalk (fun _ => true) (Folder.walk [] (nestedDisk.content [.text "theme"])) = .ok a ∧
      a.nodes.map (Arena.Node.path "/theme") = ["/theme","/theme/extra"] ∧ a.Lists 0 1 ∧
      (a.recorded Arena.Node.files).count [.text "extra",.text "b.png"] = 1 := by
  obtain ⟨_,location,resolved,a,filled,numbered⟩ :=
    scan_numbered nestedDisk_scanned nestedDisk_proper
  cases nestedDisk_resolve.symm.trans resolved
  have paths : a.nodes.map (Arena.Node.path "/theme") = ["/theme","/theme/extra"] := by
    rw [numbered.rows]
    rfl
  have length : a.nodes.length = 2 := by
    rw [numbered.rows]
    rfl
  refine ⟨nestedDisk_scanned,nestedDisk_proper,a,filled,paths,?_,?_⟩
  · obtain ⟨above,listed,_⟩ := numbered.parent 1 Nat.one_pos (by rw [length]; decide)
    obtain ⟨less,_⟩ := numbered.child above 1 listed
    obtain rfl := Nat.lt_one_iff.mp less
    exact listed
  · have met : ([.text "extra",.text "b.png"],.file) ∈
        Folder.walk [] (nestedDisk.content [.text "theme"]) := by
      rw [nestedDisk_content]
      simp [Folder.walk]
    obtain ⟨node,_,name,lies,_,once⟩ := numbered.files _ met
    have named : [FileName.text "extra"] ++ [.text "b.png"] = node.place ++ [.text name] := lies
    obtain rfl : "b.png" = name :=
      FileName.text.inj (List.singleton_injective (List.append_inj_right' named rfl))
    have kind : FileKind.classify "b.png" = .resource := rfl
    rw [once, if_pos ⟨kind,rfl⟩]

end SourceTree

end ThemeForge
