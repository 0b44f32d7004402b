import ThemeForge.Folder.Tree
import Mathlib.Data.List.Perm.Basic

/-!
# Walking a folder

A work queue visits the directories in another order than a walk in depth, but the same ones. What
it visits below one directory does not depend on what else is queued.
-/

namespace ThemeForge.Folder

mutual

/-- A folder and what lies below it, where only the children that are kept are entered. -/
def reach (keep : Folder → Bool) : Folder → List Folder
  | f@⟨_,_,_,children⟩ => f :: reachIn keep children

def reachIn (keep : Folder → Bool) : List Folder → List Folder
  | [] => []
  | f :: rest => (if keep f then f.reach keep else []) ++ reachIn keep rest

end

theorem reachIn_eq (keep : Folder → Bool) (folders : List Folder) :
    reachIn keep folders = (folders.filter keep).flatMap (reach keep) := by
  induction folders with
  | nil => rfl
  | cons f rest ih => by_cases kept : keep f <;> simp [reachIn, kept, ih]

theorem reach_eq (keep : Folder → Bool) (f : Folder) :
    f.reach keep = f :: (f.kept keep).flatMap (reach keep) := by
  obtain ⟨_,_,_,children⟩ := f
  rw [reach, reachIn_eq]
  rfl

mutual

theorem reach_all : (f : Folder) → f.reach (fun _ => true) = f.depthFirst
  | ⟨_,_,_,children⟩ => by rw [reach, depthFirst, reachIn_all children]

theorem reachIn_all : (folders : List Folder) →
    reachIn (fun _ => true) folders = depthFirsts folders
  | [] => rfl
  | f :: rest => by rw [reachIn, depthFirsts, if_pos rfl, reach_all f, reachIn_all rest]

end

theorem depthFirst_cons (f : Folder) : f.depthFirst = f :: depthFirsts f.children := by
  obtain ⟨_,_,_,_⟩ := f
  rfl

theorem depthFirsts_eq (folders : List Folder) :
    depthFirsts folders = folders.flatMap depthFirst := by
  induction folders with
  | nil => rfl
  | cons f rest ih => rw [depthFirsts, ih, List.flatMap_cons]

/-- A queue visits what its folders reach, each as if it were queued alone. -/
theorem breadthFirst_perm (keep : Folder → Bool) (queue : List Folder) :
    (breadthFirst keep queue).Perm (queue.flatMap (reach keep)) := by
  induction queue using breadthFirst.induct keep with
  | case1 => simp [breadthFirst]
  | case2 f queue ih =>
    rw [List.flatMap_append] at ih
    rw [breadthFirst, List.flatMap_cons, reach_eq, List.cons_append]
    exact (ih.trans List.perm_append_comm).cons f

/-- A walk does not notice a change of folders that keeps how they are nested. -/
theorem breadthFirst_map {g : Folder → Folder} (children : ∀ f, (g f).children = f.children.map g)
    (keep : Folder → Bool) (keeps : ∀ f, keep (g f) = keep f) (queue : List Folder) :
    breadthFirst keep (queue.map g) = (breadthFirst keep queue).map g := by
  have kept : ∀ f : Folder, (g f).kept keep = (f.kept keep).map g := by
    intro f
    rw [kept, children, List.filter_map, kept]
    exact congrArg _ (List.filter_congr fun child _ => keeps child)
  induction queue using breadthFirst.induct keep with
  | case1 => simp [breadthFirst]
  | case2 f queue ih =>
    rw [List.map_append] at ih
    rw [List.map_cons, breadthFirst, breadthFirst, List.map_cons, kept, ih]

theorem dataFolders_map {g : Folder → Folder} (children : ∀ f, (g f).children = f.children.map g)
    (data : ∀ f, (g f).isData = f.isData) (f : Folder) :
    (g f).dataFolders = f.dataFolders.map g := by
  have visited := breadthFirst_map children (fun _ => true) (fun _ => rfl) [f]
  rw [List.map_singleton] at visited
  rw [dataFolders, visited, List.filter_map, dataFolders]
  exact congrArg _ (List.filter_congr fun d _ => data d)

theorem ownFolders_map {g : Folder → Folder} (children : ∀ f, (g f).children = f.children.map g)
    (data : ∀ f, (g f).isData = f.isData) (f : Folder) : (g f).ownFolders = f.ownFolders.map g :=
  breadthFirst_map children (fun child => !child.isData) (fun child => by rw [data]) [f]

theorem dataFolders_perm (f : Folder) : f.dataFolders.Perm (f.depthFirst.filter isData) := by
  have visited := breadthFirst_perm (fun _ => true) [f]
  rw [List.flatMap_singleton, reach_all] at visited
  exact visited.filter isData

theorem ownFolders_perm (f : Folder) :
    f.ownFolders.Perm (f :: (f.kept fun child => !child.isData).flatMap ownFolders) := by
  have visited := breadthFirst_perm (fun child => !child.isData) [f]
  rw [List.flatMap_singleton, reach_eq] at visited
  refine visited.trans (List.Perm.cons f (List.Perm.flatMap_left _ ?_))
  intro child _
  have below := breadthFirst_perm (fun child => !child.isData) [child]
  rw [List.flatMap_singleton] at below
  exact below.symm

@[simp] theorem filesIn_cons (f : Folder) (rest : List Folder) :
    filesIn (f :: rest) = f.files.map (f.path,·) ++ filesIn rest := List.flatMap_cons

theorem filesIn_flatMap (folders : List Folder) (below : Folder → List Folder) :
    filesIn (folders.flatMap below) = folders.flatMap fun f => filesIn (below f) :=
  List.flatMap_assoc

theorem filesIn_perm {folders others : List Folder} (same : folders.Perm others) :
    (filesIn folders).Perm (filesIn others) := same.flatMap_right _

/-- A directory owns the resources in it and all that its children own if they are no data
directories. -/
theorem ownedFiles_perm (f : Folder) :
    f.ownedFiles.Perm
      (f.files.map (f.path,·) ++ (f.kept fun child => !child.isData).flatMap ownedFiles) := by
  have visited := filesIn_perm f.ownFolders_perm
  rw [filesIn_cons, filesIn_flatMap] at visited
  exact visited

end ThemeForge.Folder
