import ThemeForge.Proofs.Compiling
import ThemeForge.Proofs.Folder.Placing

/-!
# Choosing resources

Patterns leave out resources and nothing else. The folder that is scanned with them is the one that
is scanned without them less those resources, so the data directories, the fragments and the order
of what is left stay as they are.
-/

namespace ThemeForge

namespace Folder

variable (includes : String → Bool)

mutual

/-- The folder with only the resources whose names a predicate holds of. -/
def selected : Folder → Folder
  | ⟨path,files,fragments,children⟩ =>
    ⟨path,files.filter includes,fragments,selectedIn children⟩

/-- Several folders, each with only those resources. -/
def selectedIn : List Folder → List Folder
  | [] => []
  | f :: rest => f.selected :: selectedIn rest

end

theorem selectedIn_eq (folders : List Folder) :
    selectedIn includes folders = folders.map (selected includes) := by
  induction folders with
  | nil => rfl
  | cons f rest ih => rw [selectedIn, ih, List.map_cons]

theorem selected_eq (f : Folder) : f.selected includes =
    ⟨f.path,f.files.filter includes,f.fragments,f.children.map (selected includes)⟩ := by
  obtain ⟨_,_,_,_⟩ := f
  rw [selected, selectedIn_eq]

@[simp] theorem selected_path (f : Folder) : (f.selected includes).path = f.path := by
  rw [selected_eq]

@[simp] theorem selected_files (f : Folder) :
    (f.selected includes).files = f.files.filter includes := by rw [selected_eq]

@[simp] theorem selected_fragments (f : Folder) :
    (f.selected includes).fragments = f.fragments := by rw [selected_eq]

@[simp] theorem selected_children (f : Folder) :
    (f.selected includes).children = f.children.map (selected includes) := by rw [selected_eq]

@[simp] theorem selected_isData (f : Folder) : (f.selected includes).isData = f.isData := by
  rw [isData, selected_fragments, isData]

theorem addFile_selected (name : String) (f : Folder) :
    addFile includes name (f.selected includes) =
      (addFile (fun _ => true) name f).selected includes := by
  rw [selected_eq, selected_eq]
  unfold addFile
  cases FileKind.classify name with
  | fragment kind => rfl
  | resource => by_cases chosen : includes name <;> simp [chosen]

/-- A folder that is listed with a predicate is the whole one with only what that chooses. -/
theorem ofEntries_selected (place : List String) (entries : List (FileName × Content)) :
    ofEntries includes place entries =
      (ofEntries (fun _ => true) place entries).map (selected includes) := by
  induction place, entries using ofEntries.induct with
  | case1 place =>
    rw [ofEntries, ofEntries]
    rfl
  | case2 place name rest reason =>
    rw [ofEntries, ofEntries]
    rfl
  | case3 place name content rest raw readable =>
    rw [ofEntries, ofEntries] <;> first | exact raw | exact readable | rfl
  | case4 place name rest text named ih =>
    cases text?_eq named
    rw [ofEntries_file, ofEntries_file, ih]
    cases ofEntries (fun _ => true) place rest with
    | error fault => rfl
    | ok f => exact congrArg Except.ok (addFile_selected includes text f)
  | case5 place name rest entries text named inner ih =>
    cases text?_eq named
    rw [ofEntries_directory, ofEntries_directory, inner]
    cases ofEntries (fun _ => true) (place ++ [text]) entries with
    | error fault => rfl
    | ok child =>
      rw [ih]
      cases ofEntries (fun _ => true) place rest with
      | error fault => rfl
      | ok f => exact congrArg Except.ok (by simp [selected_eq])

theorem dataFolders_selected (f : Folder) :
    (f.selected includes).dataFolders = f.dataFolders.map (selected includes) :=
  dataFolders_map (selected_children includes) (selected_isData includes) f

theorem ownFolders_selected (f : Folder) :
    (f.selected includes).ownFolders = f.ownFolders.map (selected includes) :=
  ownFolders_map (selected_children includes) (selected_isData includes) f

theorem filesIn_selected (folders : List Folder) :
    filesIn (folders.map (selected includes)) =
      (filesIn folders).filter fun file => includes file.2 := by
  rw [filesIn, filesIn, List.flatMap_map, List.filter_flatMap]
  refine List.flatMap_congr ?_
  intro f _
  rw [selected_files, selected_path, List.filter_map]
  rfl

theorem ownedFiles_selected (f : Folder) :
    (f.selected includes).ownedFiles = f.ownedFiles.filter fun file => includes file.2 := by
  rw [ownedFiles, ownFolders_selected, filesIn_selected, ownedFiles]

end Folder

def Path.lastName (path : String) : String :=
  String.ofList (path.toList.rtakeWhile (· != '/'))

theorem Path.lastName_join (proper : ProperName name) (named : path ≠ "") :
    Path.lastName (Path.join path name) = name := by
  have inside : ∀ c ∈ name.toList.reverse, (c != '/') = true :=
    fun c found => proper.unslashed c (List.mem_reverse.mp found)
  rw [lastName, join_toList proper named, List.rtakeWhile, List.reverse_append, List.reverse_cons,
    List.append_assoc, List.takeWhile_append_of_pos inside]
  simp

namespace SourceTree

variable {t : SourceTree} {includes : String → Bool}

/-- The tree with only the resources whose names a predicate holds of. -/
def selected (includes : String → Bool) (t : SourceTree) : SourceTree :=
  ⟨t.root,t.top.selected includes⟩

theorem scan_selected {fs : FileSystem} {root : FilePath}
    (scanned : scan fs root (fun _ => true) = .ok t) (includes : String → Bool) :
    scan fs root includes = .ok (t.selected includes) := by
  obtain ⟨sameRoot,location,resolved,directory,made⟩ := scan_eq_ok_iff.mp scanned
  refine scan_eq_ok_iff.mpr ⟨sameRoot,location,resolved,directory,?_⟩
  rw [Folder.ofEntries_selected, made]
  rfl

theorem dataFolders_selected (t : SourceTree) (includes : String → Bool) :
    (t.selected includes).dataFolders = t.dataFolders.map (Folder.selected includes) :=
  t.top.dataFolders_selected includes

/-- Leaving out resources leaves none loose that was not so before. -/
theorem checkOwnership_selected (checked : t.checkOwnership = .ok ()) (includes : String → Bool) :
    (t.selected includes).checkOwnership = .ok () := by
  obtain ⟨some,owned⟩ := checkOwnership_eq_ok_iff.mp checked
  refine checkOwnership_eq_ok_iff.mpr ⟨?_,?_⟩
  · rw [dataFolders_selected]
    exact mt List.map_eq_nil_iff.mp some
  · intro plain
    rw [selected, Folder.selected_isData] at plain
    rw [selected, Folder.selected_files, owned plain]
    rfl

theorem discover_selected {fs : FileSystem} {root : FilePath}
    (discovered : discover fs root (fun _ => true) = .ok t) (includes : String → Bool) :
    discover fs root includes = .ok (t.selected includes) := by
  obtain ⟨scanned,checked⟩ := discover_eq_ok_iff.mp discovered
  exact discover_eq_ok_iff.mpr
    ⟨scan_selected scanned includes,checkOwnership_selected checked includes⟩

theorem fragments_selected (t : SourceTree) (includes : String → Bool) (kind : FragmentKind) :
    (t.selected includes).fragments kind = t.fragments kind := by
  rw [fragments, dataFolders_selected, List.zipIdx_map, List.flatMap_map, fragments]
  refine List.flatMap_congr ?_
  intro entry _
  simp [selected]

theorem pathOf_ne_empty {root : FilePath} {names : List String} (named : root.text ≠ "")
    (proper : ∀ name ∈ names, ProperName name) : (pathOf root names).text ≠ "" := by
  induction names generalizing root with
  | nil => exact named
  | cons name names ih =>
    have first := join_ne_empty (proper name List.mem_cons_self) named
    rw [← FilePath.text_join] at first
    exact ih first fun n later => proper n (List.mem_cons_of_mem _ later)

theorem lastName_source (proper : t.Proper) {e : Folder} (inside : e ∈ t.top.depthFirst)
    (found : name ∈ e.files) : Path.lastName (pathOf t.root (e.path ++ [name])) = name := by
  have directory := pathOf_ne_empty proper.named (proper.path_names inside)
  rw [pathOf_append]
  refine (congrArg Path.lastName (FilePath.text_join _ name)).trans ?_
  exact Path.lastName_join ((proper.folder.inside inside).files.2 name found) directory

theorem ownedFiles_selected (proper : t.Proper) {d : Folder} (below : d ∈ t.top.depthFirst)
    (includes : String → Bool) :
    (t.selected includes).ownedFiles (d.selected includes) =
      (t.ownedFiles d).filter fun file => includes (Path.lastName file.source) := by
  rw [ownedFiles, Folder.ownedFiles_selected, Folder.selected_path, ownedFiles, List.filter_map]
  refine congrArg _ (List.filter_congr ?_)
  rintro ⟨path,name⟩ owned
  obtain ⟨e,inside,rfl,found⟩ := Folder.mem_ownedFiles owned
  have same := lastName_source proper (Folder.depthFirst_below _ below inside) found
  exact congrArg includes same.symm

theorem placed_selected (proper : t.Proper) (title : String) (includes : String → Bool) :
    (t.selected includes).placed title =
      (t.placed title).filter fun r => includes (Path.lastName r.source) := by
  rw [placed, dataFolders_selected, List.flatMap_map, placed, List.filter_flatMap]
  refine List.flatMap_congr ?_
  intro d data
  rw [ownedFiles_selected proper (t.mem_dataFolders.mp data).1, List.filter_map]
  rfl

theorem ofTree_selected (proper : t.Proper) {title : String} {r : Resources}
    (placed : Resources.ofTree title t = .ok r) (includes : String → Bool) :
    Resources.ofTree title (t.selected includes) =
      .ok ⟨r.entries.filter fun entry => includes (Path.lastName entry.source)⟩ := by
  obtain ⟨entries,distinct⟩ := ofTree_eq_ok_iff.mp placed
  rw [ofTree_eq_ok_iff, placed_selected proper title includes, entries]
  exact ⟨rfl,distinct.sublist (List.filter_sublist.map Resource.member)⟩

end SourceTree

namespace Theme

variable {fs : FileSystem} {root : FilePath} {title : String} {options : Options} {theme : Theme}

/-- A theme with the texts of another one, and those of its resources whose file names a predicate
holds of. -/
structure Selects (theme : Theme) (includes : String → Bool) (chosen : Theme) : Prop where
  settings : chosen.settingsText = theme.settingsText
  directives : chosen.directives = theme.directives
  resources : chosen.resources.entries =
    theme.resources.entries.filter fun r => includes (Path.lastName r.source)

/-- The theme of the folder at a path with the resources whose names a predicate holds of. -/
def compileWith (fs : FileSystem) (root : FilePath) (title : String) (options : Options)
    (includes : String → Bool) : Except Failure Theme := do
  ofTree fs title options (← SourceTree.discover fs root includes)

/-- Patterns only choose among the resources of a theme. If it compiles without them, it does so with
any, and what is not chosen is all that is missing. -/
theorem compile_selects (options : Options) (proper : fs.Proper)
    (compiled : compile fs root title { options with filter := ⟨[]⟩ } = .ok theme) :
    (∀ includes, ∃ chosen, compileWith fs root title options includes = .ok chosen ∧
      theme.Selects includes chosen) ∧
    ∀ filter, ∃ chosen, compile fs root title { options with filter } = .ok chosen ∧
      theme.Selects filter.includes chosen := by
  have any : ∀ includes, ∃ chosen, compileWith fs root title options includes = .ok chosen ∧
      theme.Selects includes chosen := by
    intro includes
    obtain ⟨t,discovered,made⟩ := bind_ok_iff.mp compiled
    obtain ⟨scanned,_⟩ := SourceTree.discover_eq_ok_iff.mp discovered
    obtain ⟨_,placed,_⟩ := ofTree_eq_ok_iff.mp made
    have proper := SourceTree.scan_proper proper scanned
    have placed := SourceTree.ofTree_selected proper placed includes
    have texts := ofTree_resources made (t.fragments_selected includes) placed
    have chosen := SourceTree.discover_selected discovered includes
    exact ⟨_,bind_ok_iff.mpr ⟨_,chosen,texts⟩,⟨rfl,rfl,rfl⟩⟩
  exact ⟨any,fun filter => any filter.includes⟩

def pictureDisk : FileSystem where
  entries := [([.text "theme"],.directory),
    ([.text "theme",.text "a.png"],.file .empty),
    ([.text "theme",.text "b.jpg"],.file .empty),
    ([.text "theme",.text "rtconfig.txt"],.file "zoom 2".toUTF8)]
  workingDirectory := []

def themeRoot : FilePath := .below [.text "theme"] []

def pictureTree : SourceTree := ⟨themeRoot,⟨[],["a.png","b.jpg"],["rtconfig.txt"],[]⟩⟩

def pictures : Resources :=
  ⟨[⟨"T/a.png",themeRoot.join "a.png"⟩,⟨"T/b.jpg",themeRoot.join "b.jpg"⟩]⟩

def pictureTheme : Theme := ⟨"T",.empty,"zoom 2",pictures⟩

/-- Nothing but the folder. -/
def folderOnly : Options := ⟨false,[],⟨[]⟩,⟨.empty,.empty⟩⟩

theorem pictureDisk_proper : pictureDisk.Proper where
  distinct := by decide
  named := by simp [pictureDisk, ProperName]

theorem pictureTree_dataFolders : pictureTree.dataFolders = [pictureTree.top] := by
  simp [SourceTree.dataFolders, Folder.dataFolders, Folder.breadthFirst, Folder.kept, pictureTree,
    Folder.isData]

theorem pictureDisk_resolve : pictureDisk.resolve themeRoot = .ok [.text "theme"] :=
  FileSystem.resolveWith_below true false (by decide) (by decide) (by decide) rfl

theorem pictureDisk_located : pictureDisk.resolve "/theme" = .ok (["theme"].map .text) :=
  FileSystem.resolveWith_plain true false rfl (by decide) (by decide) (by decide) (by cbv)

theorem pictureDisk_discover :
    SourceTree.discover pictureDisk themeRoot (fun _ => true) = .ok pictureTree := by
  have content : pictureDisk.content [.text "theme"] =
      [(.text "a.png",.file),(.text "b.jpg",.file),(.text "rtconfig.txt",.file)] := by cbv
  refine SourceTree.discover_eq_ok_iff.mpr ⟨?_,?_⟩
  · refine SourceTree.scan_eq_ok_iff.mpr ⟨rfl,_,pictureDisk_resolve,rfl,?_⟩
    simp only [content, Folder.ofEntries_file]
    rw [Folder.ofEntries]
    rfl
  · rw [SourceTree.checkOwnership, pictureTree_dataFolders]
    rfl

theorem pictureTree_ownedFiles : pictureTree.ownedFiles pictureTree.top =
    [⟨themeRoot.join "a.png","a.png"⟩,⟨themeRoot.join "b.jpg","b.jpg"⟩] := by
  have own : pictureTree.top.ownFolders = [pictureTree.top] := by
    simp [Folder.ownFolders, Folder.breadthFirst, Folder.kept, pictureTree]
  rw [SourceTree.ownedFiles, Folder.ownedFiles, own]
  rfl

theorem pictureTree_placed (title : String) : pictureTree.placed title =
    [⟨title ++ "/" ++ "a.png",themeRoot.join "a.png"⟩,
      ⟨title ++ "/" ++ "b.jpg",themeRoot.join "b.jpg"⟩] := by
  rw [SourceTree.placed, pictureTree_dataFolders, List.flatMap_singleton, pictureTree_ownedFiles]
  rfl

theorem pictureTree_plan : Plan.ofTree "T" pictureTree =
    .ok ⟨pictureTree,[⟨themeRoot.join "rtconfig.txt",.directives,0⟩],[],pictures⟩ := by
  have resources : Resources.ofTree "T" pictureTree = .ok pictures := by
    rw [SourceTree.ofTree_eq_ok_iff, pictureTree_placed]
    decide
  rw [Plan.ofTree, resources, SourceTree.fragments, SourceTree.fragments, pictureTree_dataFolders]
  rfl

theorem pictureTree_compiled : ofTree pictureDisk "T" folderOnly pictureTree = .ok pictureTheme := by
  have resolved : pictureDisk.resolve (themeRoot.join "rtconfig.txt") =
      .ok [.text "theme",.text "rtconfig.txt"] :=
    FileSystem.resolveWith_below true false (by decide) (by decide) (by decide) (by cbv)
  have read : pictureDisk.readText (themeRoot.join "rtconfig.txt") = .ok "zoom 2" :=
    FileSystem.readText_file resolved rfl (by cbv) (by cbv)
  have literal : Template.segments "zoom 2" = .ok [.literal "zoom 2"] := by
    rw [Template.segments, Template.segmentsOf_eq]
    rfl
  have body : Directives.join false ["zoom 2"] = "zoom 2" := by cbv
  have joined : Directives.ofFragments pictureDisk [⟨themeRoot.join "rtconfig.txt",.directives,0⟩] false =
      .ok "zoom 2" := by
    rw [Directives.ofFragments, List.mapM_cons, read, List.mapM_nil]
    exact congrArg Except.ok body
  have expanded : (Session.start folderOnly.tables).expand Directives.location "zoom 2" =
      (.ok "zoom 2",Session.start folderOnly.tables) := by
    rw [Session.expand, literal]
    rfl
  refine bind_ok_iff.mpr ⟨_,pictureTree_plan,bind_ok_iff.mpr ⟨(.empty,_),rfl,?_⟩⟩
  refine bind_ok_iff.mpr ⟨"zoom 2",bind_ok_iff.mpr ⟨_,joined,?_⟩,rfl⟩
  rw [expanded]
  rfl

/-- Of two pictures the pattern chooses one. -/
theorem pictures_selected : pictureDisk.Proper ∧
    compile pictureDisk themeRoot "T" folderOnly = .ok pictureTheme ∧
    ∃ filter chosen, ResourceFilter.ofPatterns ["*.png"] = .ok filter ∧
      compile pictureDisk themeRoot "T" { folderOnly with filter } = .ok chosen ∧
      chosen.directives = "zoom 2" ∧
      chosen.resources.entries = [⟨"T/a.png",themeRoot.join "a.png"⟩] := by
  have compiled : compile pictureDisk themeRoot "T" folderOnly = .ok pictureTheme :=
    bind_ok_iff.mpr ⟨_,pictureDisk_discover,pictureTree_compiled⟩
  have pattern : ∃ filter, ResourceFilter.ofPatterns ["*.png"] = .ok filter ∧
      filter.includes "a.png" = true ∧ filter.includes "b.jpg" = false :=
    ⟨_,rfl,by cbv,by cbv⟩
  obtain ⟨filter,given,png,jpg⟩ := pattern
  obtain ⟨chosen,done,selects⟩ := (compile_selects folderOnly pictureDisk_proper compiled).2 filter
  refine ⟨pictureDisk_proper,compiled,filter,chosen,given,done,selects.directives,?_⟩
  have last : ∀ name, ProperName name → Path.lastName (themeRoot.join name) = name := by
    intro name proper
    rw [FilePath.text_join]
    exact Path.lastName_join proper (by decide)
  have first := last "a.png" (by simp [ProperName])
  have second := last "b.jpg" (by simp [ProperName])
  rw [selects.resources, pictureTheme, pictures, List.filter_cons_of_pos (first.symm ▸ png),
    List.filter_cons_of_neg, List.filter_nil]
  dsimp only
  rw [second, jpg]
  exact Bool.false_ne_true

end Theme

end ThemeForge
