import ThemeForge.Proofs.Compiling
import ThemeForge.Proofs.Folder.Placing

/-!
# Resources without owner

The resources in directories that no data directory is above have no part in a theme. Two folders
that differ in these alone have the same fragments, and the same resources at the same places.
-/

namespace ThemeForge

namespace Folder

variable (loose : List String → Bool)

mutual

/-- The folder without the resources in directories whose path a predicate holds of. -/
def cleared : Folder → Folder
  | ⟨path,files,fragments,children⟩ =>
    ⟨path,if loose path then [] else files,fragments,clearedIn children⟩

/-- Several folders, each without those resources. -/
def clearedIn : List Folder → List Folder
  | [] => []
  | f :: rest => f.cleared :: clearedIn rest

end

theorem clearedIn_eq (folders : List Folder) :
    clearedIn loose folders = folders.map (cleared loose) := by
  induction folders with
  | nil => rfl
  | cons f rest ih => rw [clearedIn, ih, List.map_cons]

theorem cleared_eq (f : Folder) : f.cleared loose =
    ⟨f.path,if loose f.path then [] else f.files,f.fragments,f.children.map (cleared loose)⟩ := by
  obtain ⟨_,_,_,_⟩ := f
  rw [cleared, clearedIn_eq]

@[simp] theorem cleared_path (f : Folder) : (f.cleared loose).path = f.path := by rw [cleared_eq]

@[simp] theorem cleared_fragments (f : Folder) : (f.cleared loose).fragments = f.fragments := by
  rw [cleared_eq]

@[simp] theorem cleared_children (f : Folder) :
    (f.cleared loose).children = f.children.map (cleared loose) := by rw [cleared_eq]

@[simp] theorem cleared_isData (f : Folder) : (f.cleared loose).isData = f.isData := by
  rw [isData, cleared_fragments, isData]

variable {loose} {f other : Folder}

theorem cleared_files (kept : loose f.path = false) : (f.cleared loose).files = f.files := by
  rw [cleared_eq, kept]
  rfl

/-- Folders are alike if they differ in resources of such directories alone. -/
theorem cleared_eq_iff : f.cleared loose = other.cleared loose ↔
    f.path = other.path ∧ (loose f.path = false → f.files = other.files) ∧
      f.fragments = other.fragments ∧
      f.children.map (cleared loose) = other.children.map (cleared loose) := by
  rw [cleared_eq, cleared_eq, Folder.mk.injEq]
  constructor
  · rintro ⟨path,files,rest⟩
    refine ⟨path,?_,rest⟩
    intro kept
    rw [← path, kept] at files
    simpa using files
  · rintro ⟨path,files,rest⟩
    refine ⟨path,?_,rest⟩
    rw [← path]
    split
    · rfl
    · rename_i kept
      exact files (by simpa using kept)

theorem addFile_alike {includes : String → Bool} (name : String)
    (alike : f.cleared loose = other.cleared loose) :
    (addFile includes name f).cleared loose = (addFile includes name other).cleared loose := by
  obtain ⟨path,files,fragments,children⟩ := cleared_eq_iff.mp alike
  unfold addFile
  cases FileKind.classify name with
  | fragment kind =>
    dsimp only
    exact cleared_eq_iff.mpr ⟨path,files,congrArg (name :: ·) fragments,children⟩
  | resource =>
    dsimp only
    split
    · exact cleared_eq_iff.mpr
        ⟨path,fun kept => congrArg (name :: ·) (files kept),fragments,children⟩
    · exact alike

/-- A resource that is left out, or has no owner, makes no difference. -/
theorem addFile_ignored {includes : String → Bool} {name : String}
    (kind : FileKind.classify name = .resource)
    (ignored : includes name = false ∨ loose f.path = true) :
    (addFile includes name f).cleared loose = f.cleared loose := by
  unfold addFile
  rw [kind]
  dsimp only
  split
  · rename_i included
    have unowned : loose f.path = true := ignored.resolve_left (by simp [included])
    refine cleared_eq_iff.mpr ⟨rfl,?_,rfl,rfl⟩
    intro kept
    rw [unowned] at kept
    cases kept
  · rfl

theorem addChild_alike {child again : Folder} (below : again.cleared loose = child.cleared loose)
    (alike : other.cleared loose = f.cleared loose) :
    { other with children := again :: other.children }.cleared loose =
      { f with children := child :: f.children }.cleared loose := by
  obtain ⟨path,files,fragments,children⟩ := cleared_eq_iff.mp alike
  refine cleared_eq_iff.mpr ⟨path,files,fragments,?_⟩
  rw [List.map_cons, List.map_cons, below, children]

theorem filesIn_cleared {folders : List Folder} (kept : ∀ d ∈ folders, loose d.path = false) :
    filesIn (folders.map (cleared loose)) = filesIn folders := by
  rw [filesIn, filesIn, List.flatMap_map]
  refine List.flatMap_congr fun d among => ?_
  rw [cleared_path, cleared_files (kept d among)]

theorem ownedFiles_cleared (kept : ∀ d ∈ f.depthFirst, loose d.path = false) :
    (f.cleared loose).ownedFiles = f.ownedFiles := by
  rw [ownedFiles, ownFolders_map (cleared_children loose) (cleared_isData loose), ownedFiles]
  exact filesIn_cleared fun d own => kept d (f.ownFolders_subperm.subset own)

end Folder

namespace SourceTree

variable {t other : SourceTree} {loose : List String → Bool}

def cleared (loose : List String → Bool) (t : SourceTree) : SourceTree :=
  ⟨t.root,t.top.cleared loose⟩

theorem dataFolders_cleared (t : SourceTree) (loose : List String → Bool) :
    (t.cleared loose).dataFolders = t.dataFolders.map (Folder.cleared loose) :=
  Folder.dataFolders_map (Folder.cleared_children loose) (Folder.cleared_isData loose) t.top

theorem fragments_cleared (t : SourceTree) (loose : List String → Bool) (kind : FragmentKind) :
    (t.cleared loose).fragments kind = t.fragments kind := by
  rw [fragments, dataFolders_cleared, List.zipIdx_map, List.flatMap_map, fragments]
  refine List.flatMap_congr ?_
  intro entry _
  simp [cleared]

theorem placed_cleared (title : String)
    (kept : ∀ d ∈ t.dataFolders, ∀ e ∈ d.depthFirst, loose e.path = false) :
    (t.cleared loose).placed title = t.placed title := by
  rw [placed, dataFolders_cleared, List.flatMap_map, placed]
  refine List.flatMap_congr fun d data => ?_
  rw [ownedFiles, Folder.ownedFiles_cleared (kept d data), Folder.cleared_path]
  rfl

/-- Whether no data directory of a tree is at a place below its root, or above it. -/
def unowned (t : SourceTree) (place : List String) : Bool :=
  !place.isEmpty && t.dataFolders.all fun d => !d.path.isPrefixOf place

theorem unowned_eq_true_iff {place : List String} : t.unowned place = true ↔
    place ≠ [] ∧ ∀ d ∈ t.dataFolders, ¬d.path <+: place := by
  simp [unowned, ← Bool.not_eq_true, List.isPrefixOf_iff_prefix]

section

variable (alike : other.cleared t.unowned = t.cleared t.unowned)

include alike

theorem fragments_alike (kind : FragmentKind) : other.fragments kind = t.fragments kind := by
  rw [← fragments_cleared other t.unowned, alike, fragments_cleared]

theorem dataPaths_alike : other.dataFolders.map Folder.path = t.dataFolders.map Folder.path := by
  have paths : ∀ tree : SourceTree,
      (tree.cleared t.unowned).dataFolders.map Folder.path = tree.dataFolders.map Folder.path := by
    intro tree
    rw [dataFolders_cleared, List.map_map]
    exact List.map_congr_left fun d _ => Folder.cleared_path _ d
  rw [← paths other, alike, paths]

theorem below_data_alike (listed : Folder.Listed includes place entries other.top) :
    ∀ d ∈ other.dataFolders, ∀ e ∈ d.depthFirst, t.unowned e.path = false := by
  intro d data e below
  obtain ⟨_,_,_,listed⟩ := listed.descend (other.mem_dataFolders.mp data).1
  obtain ⟨names,_,path,_⟩ := listed.descend below
  have among : d.path ∈ t.dataFolders.map Folder.path :=
    dataPaths_alike alike ▸ List.mem_map_of_mem data
  obtain ⟨owner,data,same⟩ := List.mem_map.mp among
  rw [Bool.eq_false_iff]
  intro unowned
  refine (unowned_eq_true_iff.mp unowned).2 owner data ?_
  rw [same, path]
  exact List.prefix_append _ _

theorem placed_alike (listed : Folder.Listed includes place entries t.top)
    (again : Folder.Listed includes place again other.top) (title : String) :
    other.placed title = t.placed title := by
  rw [← placed_cleared title (below_data_alike alike again), alike,
    placed_cleared title (below_data_alike rfl listed)]

theorem checkOwnership_alike (top : t.top.path = []) (checked : t.checkOwnership = .ok ()) :
    other.checkOwnership = .ok () := by
  obtain ⟨some,owned⟩ := checkOwnership_eq_ok_iff.mp checked
  have tops : other.top.cleared t.unowned = t.top.cleared t.unowned :=
    (SourceTree.mk.inj alike).2
  obtain ⟨path,files,fragments,_⟩ := Folder.cleared_eq_iff.mp tops
  refine checkOwnership_eq_ok_iff.mpr ⟨?_,?_⟩
  · intro none
    have paths := dataPaths_alike alike
    rw [none] at paths
    exact some (List.map_eq_nil_iff.mp paths.symm)
  · intro plain
    rw [Folder.isData, fragments] at plain
    -- The root's own files count even if the root is no data directory.
    rw [files (by rw [path, top]; rfl)]
    exact owned plain

end

end SourceTree

end ThemeForge
