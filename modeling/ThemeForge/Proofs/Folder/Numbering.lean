import ThemeForge.Proofs.Folder.Ownership
import ThemeForge.Proofs.Folder.Visiting

/-!
# The numbers of directories

The table of a folder numbers its directories in the order of a walk in depth. It is a tree: a
directory lists those in it, by larger numbers.
-/

namespace ThemeForge

namespace Folder

variable {d : Folder}

theorem depthFirst_zero (f : Folder) : f.depthFirst[0]? = some f := by
  rw [depthFirst_cons, List.getElem?_cons_zero]

mutual

/-- What lies in a directory follows it in a walk in depth. -/
theorem depthFirst_cut : (f : Folder) → (number : Nat) → f.depthFirst[number]? = some d →
    ∃ before after, f.depthFirst = before ++ d.depthFirst ++ after ∧ before.length = number
  | f, 0, found => by
    obtain rfl : f = d := Option.some.inj ((depthFirst_zero f).symm.trans found)
    exact ⟨[],[],(List.append_nil _).symm,rfl⟩
  | ⟨path,files,fragments,children⟩, number + 1, found => by
    obtain ⟨before,after,whole,length⟩ := depthFirsts_cut children number found
    refine ⟨⟨path,files,fragments,children⟩ :: before,after,?_,congrArg Nat.succ length⟩
    rw [depthFirst, whole, List.cons_append, List.cons_append]

theorem depthFirsts_cut : (folders : List Folder) → (number : Nat) →
    (depthFirsts folders)[number]? = some d →
    ∃ before after, depthFirsts folders = before ++ d.depthFirst ++ after ∧ before.length = number
  | f :: rest, number, found => by
    rw [depthFirsts] at found ⊢
    rcases Nat.lt_or_ge number f.depthFirst.length with here | past
    · rw [List.getElem?_append_left here] at found
      obtain ⟨before,after,whole,length⟩ := depthFirst_cut f number found
      exact ⟨before,after ++ depthFirsts rest,by rw [whole, List.append_assoc],length⟩
    · rw [List.getElem?_append_right past] at found
      obtain ⟨before,after,whole,length⟩ := depthFirsts_cut rest _ found
      refine ⟨f.depthFirst ++ before,after,by rw [whole]; simp only [List.append_assoc],?_⟩
      rw [List.length_append, length, Nat.add_sub_cancel' past]

end

end Folder

namespace Arena

variable {f d : Folder} {node : Node} {enter : Node → List Nat} {above first number : Nat}
  {queue visited : List Nat}

theorem rows_getElem? (first : Nat) (folders : List Folder) (number : Nat) :
    (rows first folders)[number]? = folders[number]?.map (Node.ofFolder (first + number)) := by
  rw [rows, List.getElem?_map, List.getElem?_zipIdx, Option.map_map]
  rfl

/-- What is told from a row without its number is told from the directory. -/
theorem rows_map {α : Type} {tell : Node → α} {told : Folder → α}
    (same : ∀ number d, tell (.ofFolder number d) = told d) (first : Nat) (folders : List Folder) :
    (rows first folders).map tell = folders.map told := by
  have unnumbered := congrArg (List.map told) (List.zipIdx_map_fst first folders)
  rw [List.map_map] at unnumbered
  rw [rows, List.map_map, ← unnumbered]
  exact List.map_congr_left fun numbered _ => same numbered.2 numbered.1

theorem row_at (here : f.depthFirst[number]? = some d) :
    (ofFolder f).nodes[number]? = some (.ofFolder number d) := by
  rw [ofFolder, rows_getElem?, here, Nat.zero_add, Option.map_some]

theorem row_eq (found : (ofFolder f).nodes[number]? = some node) :
    ∃ d, f.depthFirst[number]? = some d ∧ .ofFolder number d = node := by
  rw [ofFolder, rows_getElem?, Nat.zero_add] at found
  exact Option.map_eq_some_iff.mp found

mutual

/-- In a folder each number but its own is listed once. -/
theorem listed_perm (first : Nat) : (f : Folder) →
    ((rows first f.depthFirst).flatMap Node.children).Perm
      (List.range' (first + 1) (Folder.total f.children))
  | ⟨_,_,_,children⟩ => listed_perms (first + 1) children

/-- With their own numbers, those of several folders are each listed once. -/
theorem listed_perms (first : Nat) : (folders : List Folder) →
    (numbers first folders ++ (rows first (Folder.depthFirsts folders)).flatMap Node.children).Perm
      (List.range' first (Folder.total folders))
  | [] => .refl _
  | f :: rest => by
    have whole : List.range' first (Folder.total (f :: rest)) =
        (first :: List.range' (first + 1) (Folder.total f.children)) ++
          List.range' (first + f.size) (Folder.total rest) := by
      rw [← List.range'_succ, ← Folder.size_eq, Folder.total, ← List.range'_append_1]
    rw [whole, numbers, Folder.depthFirsts, rows_append, length_depthFirst, List.flatMap_append]
    refine List.Perm.cons first ?_
    -- The numbers of the rest stand in front of what the first folder lists.
    have split := (listed_perm first f).append (listed_perms (first + f.size) rest)
    exact (List.perm_append_comm_assoc _ _ _).trans split

end

theorem le_of_mem_numbers {folders : List Folder} (listed : number ∈ numbers first folders) :
    first ≤ number := by
  induction folders generalizing first with
  | nil => cases listed
  | cons f rest ih =>
    rcases List.mem_cons.mp listed with rfl | later
    · exact Nat.le_refl _
    · exact (Nat.le_add_right _ _).trans (ih later)

/-- Directories that follow each other in a list are found under their numbers. -/
theorem numbers_at (before folders after : List Folder) :
    (numbers before.length folders).map
        ((before ++ Folder.depthFirsts folders ++ after)[·]?) = folders.map some := by
  induction folders generalizing before with
  | nil => rfl
  | cons f rest ih =>
    have next := ih (before ++ f.depthFirst)
    rw [List.length_append, length_depthFirst] at next
    rw [numbers, List.map_cons, List.map_cons, Folder.depthFirsts, ← List.append_assoc, next,
      Folder.depthFirst_cons]
    simp

theorem children_at (found : f.depthFirst[number]? = some d) :
    (numbers (number + 1) d.children).map (f.depthFirst[·]?) = d.children.map some := by
  obtain ⟨before,after,whole,rfl⟩ := Folder.depthFirst_cut f number found
  have listed := numbers_at (before ++ [d]) d.children after
  rw [List.length_append, List.length_singleton] at listed
  rw [whole, Folder.depthFirst_cons, ← listed]
  simp

theorem ofFolder_tree (f : Folder) : (ofFolder f).Tree where
  rooted := by
    rw [ofFolder, length_rows, length_depthFirst, Folder.size_eq]
    exact Nat.succ_pos _
  once := by
    have listed := listed_perm 0 f
    rwa [ofFolder, length_rows, length_depthFirst, Folder.size_eq]
  later := by
    rintro above number ⟨node,found,listed⟩
    obtain ⟨d,_,rfl⟩ := row_eq found
    exact le_of_mem_numbers listed

/-- A directory is listed where it lies, under its name. -/
theorem lists_child (proper : f.Proper) (listed : (ofFolder f).Lists above number) :
    ∃ d child, f.depthFirst[above]? = some d ∧ f.depthFirst[number]? = some child ∧
      child.path = d.path ++ [child.lastName] := by
  obtain ⟨node,found,among⟩ := listed
  obtain ⟨d,here,rfl⟩ := row_eq found
  have under : f.depthFirst[number]? ∈ d.children.map some := by
    rw [← children_at here]
    exact List.mem_map_of_mem among
  obtain ⟨child,isChild,there⟩ := List.mem_map.mp under
  obtain ⟨_,_,below,_⟩ := proper.inside (List.mem_of_getElem? here)
  exact ⟨d,child,here,there.symm,below child isChild⟩

def Node.isData (node : Node) : Bool := !node.fragments.isEmpty

/-- The children without a fragment. -/
def plain (a : Arena) (node : Node) : List Nat :=
  node.children.filter fun child => !a.nodes[child]?.any Node.isData

/-- The children of a directory without a fragment. -/
def Node.loose (node : Node) : List Nat := if node.isData then [] else node.children

theorem plain_sublist (a : Arena) (node : Node) : (a.plain node).Sublist node.children :=
  List.filter_sublist

theorem loose_sublist (node : Node) : node.loose.Sublist node.children := by
  rw [Node.loose]
  split
  · exact List.nil_sublist _
  · exact .refl _

/-- Under the numbers of the children without a fragment are those that are no data directories. -/
theorem plain_at (found : f.depthFirst[number]? = some d) :
    ((ofFolder f).plain (.ofFolder number d)).map (f.depthFirst[·]?) =
      (d.kept fun child => !child.isData).map some := by
  have data : ∀ child : Nat, ((ofFolder f).nodes[child]?.any Node.isData) =
      f.depthFirst[child]?.any Folder.isData := by
    intro child
    rw [ofFolder, rows_getElem?, Option.any_map]
    rfl
  simp only [plain, data]
  have chosen := congrArg (List.filter fun d : Option Folder => !d.any Folder.isData)
    (children_at found)
  rw [List.filter_map, List.filter_map] at chosen
  exact chosen

/-- A queue of numbers visits the directories that a queue of folders visits. It may queue more than
are shown, if nothing is shown below those. -/
theorem Visits.breadthFirst (enters : Folder → List Folder) (keep shown : Folder → Bool)
    (same : ∀ number d, f.depthFirst[number]? = some d →
      (enter (.ofFolder number d)).map (f.depthFirst[·]?) = (enters d).map some)
    (goes : ∀ d, (enters d).filter shown = if shown d then d.kept keep else [])
    (run : (ofFolder f).Visits enter queue visited) (folders : List Folder)
    (queued : queue.map (f.depthFirst[·]?) = folders.map some) :
    (visited.filterMap (f.depthFirst[·]?)).filter shown =
      Folder.breadthFirst keep (folders.filter shown) := by
  induction run generalizing folders with
  | done =>
    obtain rfl : folders = [] := List.map_eq_nil_iff.mp queued.symm
    simp [Folder.breadthFirst]
  | @visit number node queue visited found rest ih =>
    obtain ⟨d,here,rfl⟩ := row_eq found
    cases folders with
    | nil => cases queued
    | cons first folders =>
      obtain ⟨first,others⟩ := List.cons.inj queued
      obtain rfl := Option.some.inj (here.symm.trans first)
      -- What is queued behind a directory that is not shown is not shown either.
      have next := ih (folders ++ enters d) (by rw [List.map_append, List.map_append, others,
        same number d here])
      rw [List.filter_append, goes] at next
      rw [List.filterMap_cons_some here]
      by_cases isShown : shown d
      · rw [if_pos isShown] at next
        rw [List.filter_cons_of_pos isShown, List.filter_cons_of_pos isShown, next,
          Folder.breadthFirst]
      · rw [if_neg isShown, List.append_nil] at next
        rw [List.filter_cons_of_neg isShown, List.filter_cons_of_neg isShown, next]

/-- Entering all children from the root on finds the data directories, nearest first. -/
theorem Sweep.dataFolders (sweep : (ofFolder f).Sweep Node.children 0 visited) :
    (visited.filterMap (f.depthFirst[·]?)).filter Folder.isData = f.dataFolders := by
  have found := sweep.run.breadthFirst Folder.children (fun _ => true) (fun _ => true)
    (fun _ _ here => children_at here) (fun _ => rfl) [f]
    (congrArg (fun d => [d]) f.depthFirst_zero)
  rw [List.filter_true, List.filter_true] at found
  rw [found, Folder.dataFolders]

/-- Entering children without a fragment finds what a directory owns. -/
theorem Sweep.ownedFiles (here : f.depthFirst[number]? = some d)
    (sweep : (ofFolder f).Sweep (ofFolder f).plain number visited) :
    Folder.filesIn (visited.filterMap (f.depthFirst[·]?)) = d.ownedFiles := by
  have found := sweep.run.breadthFirst (Folder.kept fun child => !child.isData)
    (fun child => !child.isData) (fun _ => true) (fun _ _ here => plain_at here)
    (fun _ => List.filter_true _) [d] (congrArg (fun d => [d]) here)
  rw [List.filter_true, List.filter_true] at found
  rw [found, Folder.ownedFiles, Folder.ownFolders]

theorem Sweep.orphans (sweep : (ofFolder f).Sweep Node.loose 0 visited) :
    Folder.filesIn ((visited.filterMap (f.depthFirst[·]?)).filter fun d => !d.isData) =
      f.orphans := by
  have same : ∀ number d, f.depthFirst[number]? = some d →
      (Node.ofFolder number d).loose.map (f.depthFirst[·]?) =
        (if d.isData then [] else d.children).map some := by
    intro number d here
    have data : (Node.ofFolder number d).isData = d.isData := rfl
    rw [Node.loose, data]
    split
    · rfl
    · exact children_at here
  have goes : ∀ d : Folder, (if d.isData then [] else d.children).filter (fun d => !d.isData) =
      if !d.isData then d.kept fun child => !child.isData else [] := by
    intro d
    cases d.isData <;> simp [Folder.kept]
  have found := sweep.run.breadthFirst _ _ _ same goes [f]
    (congrArg (fun d => [d]) f.depthFirst_zero)
  rw [found, Folder.orphans, Folder.ownFolders]
  cases data : f.isData <;> simp [data, Folder.breadthFirst, Folder.filesIn]

end Arena

end ThemeForge
