import ThemeForge.Proofs.Folder.Discovery

/-!
# A folder as a table of directories

The directories that a walk meets can be kept in a table, where each refers to those in it by their
numbers. The table is filled entry by entry: an index tells the number of the directory that an entry
lies in. Filled by a walk in depth, it has the directories of the folder in the order of the walk.
-/

namespace ThemeForge

/-- A directory in a table. The children are the numbers of the directories in it. -/
structure Arena.Node where
  place : List FileName
  files : List String
  fragments : List String
  children : List Nat

structure Arena where
  nodes : List Arena.Node
  index : List (List FileName × Nat)

namespace Arena

/-- Why an entry is not added: it cannot be listed, or the directory that it lies in was not met. -/
inductive Refusal
  | entry (fault : EntryFault)
  | outside

def start : Arena where
  nodes := [Node.mk [] [] [] []]
  index := [([],0)]

def Node.record (includes : String → Bool) (name : String) (node : Node) : Node :=
  match FileKind.classify name with
  | .fragment _ => { node with fragments := node.fragments ++ [name] }
  | .resource => if includes name then { node with files := node.files ++ [name] } else node

def Node.adopt (number : Nat) (node : Node) : Node :=
  { node with children := node.children ++ [number] }

def addFile (includes : String → Bool) (parent : Nat) (name : String) (a : Arena) : Arena :=
  { a with nodes := a.nodes.modify parent (Node.record includes name) }

def addDirectory (parent : Nat) (place : List FileName) (a : Arena) : Arena where
  nodes := (a.nodes ++ [Node.mk place [] [] []]).modify parent (Node.adopt a.nodes.length)
  index := (place,a.nodes.length) :: a.index

def add (includes : String → Bool) (a : Arena) (entry : List FileName × Content) :
    Except (List FileName × Refusal) Arena :=
  match entry.2, entry.1.getLast?.bind FileName.text? with
  | .unreadable fault, _ => .error (entry.1,.entry fault)
  | _, none => .error (entry.1,.entry .notText)
  | content, some name =>
    match a.index.lookup entry.1.dropLast with
    | none => .error (entry.1,.outside)
    | some parent =>
      .ok (if content.isDirectory then a.addDirectory parent entry.1
        else a.addFile includes parent name)

/-- The table of the entries that a walk meets, or the first refusal. -/
def ofWalk (includes : String → Bool) (entries : List (List FileName × Content)) :
    Except (List FileName × Refusal) Arena :=
  entries.foldlM (add includes) start

/-- The numbers of directories of which each comes right behind all that lies in the one before. -/
def numbers (first : Nat) : List Folder → List Nat
  | [] => []
  | f :: rest => first :: numbers (first + f.size) rest

/-- The row of a table for a directory. What lies in it is numbered from its own number on. -/
def Node.ofFolder (number : Nat) (f : Folder) : Node :=
  ⟨f.path.map .text,f.files,f.fragments,numbers (number + 1) f.children⟩

/-- Directories in a row, numbered from a first number on. -/
def rows (first : Nat) (folders : List Folder) : List Node :=
  (folders.zipIdx first).map fun (d,number) => .ofFolder number d

/-- Their places with the numbers, the last one first. -/
def keys (first : Nat) (folders : List Folder) : List (List FileName × Nat) :=
  ((folders.zipIdx first).map fun (d,number) => (d.path.map .text,number)).reverse

/-- The table of a folder: its directories in the order of a walk in depth. -/
def ofFolder (f : Folder) : Arena := ⟨rows 0 f.depthFirst,keys 0 f.depthFirst⟩

/-- A directory with the files of a folder, and the directories in it under numbers from a first one
on. -/
def Node.extended (first : Nat) (f : Folder) (node : Node) : Node :=
  ⟨node.place,node.files ++ f.files,node.fragments ++ f.fragments,
    node.children ++ numbers first f.children⟩

def grown (number : Nat) (a : Arena) (f : Folder) : Arena where
  nodes := a.nodes.modify number (Node.extended a.nodes.length f) ++
    rows a.nodes.length (Folder.depthFirsts f.children)
  index := keys a.nodes.length (Folder.depthFirsts f.children) ++ a.index

variable {a : Arena} {number : Nat} {place : List String} {includes : String → Bool}
  {f child : Folder}

theorem modify_middle {α : Type} (before after : List α) (x : α) (change : α → α) :
    (before ++ x :: after).modify before.length change = before ++ change x :: after := by
  induction before with
  | nil => rfl
  | cons b before ih =>
    rw [List.cons_append, List.length_cons, List.modify_succ_cons, ih, List.cons_append]

theorem modify_front {α : Type} {front : List α} (inside : number < front.length) (back : List α)
    (change : α → α) : (front ++ back).modify number change = front.modify number change ++ back := by
  obtain ⟨before,x,after,rfl,rfl,changed⟩ := List.exists_of_modify change inside
  rw [changed, List.append_assoc, List.cons_append, modify_middle, List.append_assoc,
    List.cons_append]

theorem rows_append (first : Nat) (folders others : List Folder) :
    rows first (folders ++ others) = rows first folders ++ rows (first + folders.length) others := by
  rw [rows, List.zipIdx_append, List.map_append, rows, rows]

theorem keys_append (first : Nat) (folders others : List Folder) :
    keys first (folders ++ others) = keys (first + folders.length) others ++ keys first folders := by
  rw [keys, List.zipIdx_append, List.map_append, List.reverse_append, keys, keys]

theorem length_rows (first : Nat) (folders : List Folder) :
    (rows first folders).length = folders.length := by
  rw [rows, List.length_map, List.length_zipIdx]

mutual

theorem length_depthFirst : (f : Folder) → f.depthFirst.length = f.size
  | ⟨_,_,_,children⟩ => congrArg Nat.succ (length_depthFirsts children)

theorem length_depthFirsts : (folders : List Folder) →
    (Folder.depthFirsts folders).length = Folder.total folders
  | [] => rfl
  | f :: rest => by
    rw [Folder.depthFirsts, List.length_append, length_depthFirst f, length_depthFirsts rest,
      Folder.total]

end

/-- An empty directory adds nothing, -/
theorem grown_nil (number : Nat) (a : Arena) (place : List String) :
    a.grown number ⟨place,[],[],[]⟩ = a := by
  have same : Node.extended a.nodes.length ⟨place,[],[],[]⟩ = id := by
    funext node
    simp [Node.extended, numbers]
  rw [grown, same, List.modify_id]
  simp [rows, keys, Folder.depthFirsts]

/-- a file its name, -/
theorem grown_addFile (includes : String → Bool) (number : Nat) (name : String) (a : Arena)
    (f : Folder) :
    (a.addFile includes number name).grown number f =
      a.grown number (Folder.addFile includes name f) := by
  have same : Node.extended a.nodes.length f ∘ Node.record includes name =
      Node.extended a.nodes.length (Folder.addFile includes name f) := by
    funext node
    unfold Function.comp Node.extended Node.record Folder.addFile
    cases FileKind.classify name with
    | fragment kind => simp
    | resource => by_cases chosen : includes name <;> simp [chosen]
  rw [grown, grown, Folder.addFile_children, ← same, ← List.modify_modify_eq]
  simp only [addFile, List.length_modify]

/-- A directory that is met comes behind what the table has, with all that lies in it. -/
theorem grown_met (inside : number < a.nodes.length) (child : Folder) :
    (a.addDirectory number (child.path.map .text)).grown a.nodes.length child =
      ⟨a.nodes.modify number (Node.adopt a.nodes.length) ++ rows a.nodes.length child.depthFirst,
        keys a.nodes.length child.depthFirst ++ a.index⟩ := by
  have length : (a.addDirectory number (child.path.map .text)).nodes.length = a.nodes.length + 1 := by
    rw [addDirectory, List.length_modify, List.length_append, List.length_singleton]
  have last := modify_middle (a.nodes.modify number (Node.adopt a.nodes.length)) []
    (Node.mk (child.path.map .text) [] [] []) (Node.extended (a.nodes.length + 1) child)
  rw [List.length_modify] at last
  rw [grown, length, Folder.depthFirst_cons]
  dsimp only [addDirectory]
  rw [modify_front inside, last]
  simp [rows, keys, Node.ofFolder, Node.extended]

theorem grown_addDirectory (inside : number < a.nodes.length) (f child : Folder) :
    ((a.addDirectory number (child.path.map .text)).grown a.nodes.length child).grown number f =
      a.grown number { f with children := child :: f.children } := by
  have within : number < (a.nodes.modify number (Node.adopt a.nodes.length)).length := by
    rwa [List.length_modify]
  have same : Node.extended (a.nodes.length + child.size) f ∘ Node.adopt a.nodes.length =
      Node.extended a.nodes.length { f with children := child :: f.children } := by
    funext node
    simp [Node.extended, Node.adopt, numbers]
  rw [grown_met inside, grown, grown, ← same, ← List.modify_modify_eq]
  dsimp only
  rw [modify_front within, List.length_append, List.length_modify, length_rows, length_depthFirst,
    Folder.depthFirsts, rows_append, keys_append, length_depthFirst, List.append_assoc,
    List.append_assoc]

theorem lookup_past {here : List FileName} {folders : List Folder}
    (apart : ∀ d ∈ folders, d.path.map .text ≠ here) (first : Nat)
    (index : List (List FileName × Nat)) :
    (keys first folders ++ index).lookup here = index.lookup here := by
  have none : (keys first folders).lookup here = none := by
    refine List.lookup_eq_none_iff.mpr fun key found => ?_
    rw [keys, List.mem_reverse] at found
    obtain ⟨numbered,listed,rfl⟩ := List.mem_map.mp found
    simpa using (apart numbered.1 (List.fst_mem_of_mem_zipIdx listed)).symm
  rw [List.lookup_append, none, Option.none_or]

/-- A file is added to the directory that it lies in, -/
theorem add_file {here : List FileName} (known : a.index.lookup here = some number)
    (name : String) :
    a.add includes (here ++ [.text name],.file) = .ok (a.addFile includes number name) := by
  simp [add, known, FileName.text?, Content.isDirectory]

theorem add_directory {here : List FileName} (known : a.index.lookup here = some number)
    (name : String) (inside : List (FileName × Content)) :
    a.add includes (here ++ [.text name],.directory inside) =
      .ok (a.addDirectory number (here ++ [.text name])) := by
  simp [add, known, FileName.text?, Content.isDirectory]

/-- An entry that cannot be listed is refused, -/
theorem add_unreadable (here : List FileName) (name : FileName) (fault : EntryFault) :
    a.add includes (here ++ [name],.unreadable fault) = .error (here ++ [name],.entry fault) := by
  simp [add]

theorem add_unnamed {name : FileName} {content : Content} (raw : name.text? = none)
    (readable : ∀ fault, content ≠ .unreadable fault) (here : List FileName) :
    a.add includes (here ++ [name],content) = .error (here ++ [name],.entry .notText) := by
  cases content with
  | unreadable fault => exact absurd rfl (readable fault)
  | file => simp [add, raw]
  | directory entries => simp [add, raw]

theorem walk_file (here : List FileName) (name : FileName) (rest : List (FileName × Content)) :
    Folder.walk here ((name,.file) :: rest) = (here ++ [name],.file) :: Folder.walk here rest := by
  rw [Folder.walk.eq_def]

theorem walk_cons (here : List FileName) (name : FileName) (content : Content)
    (rest : List (FileName × Content)) :
    ∃ others, Folder.walk here ((name,content) :: rest) = (here ++ [name],content) :: others := by
  rw [Folder.walk.eq_def]
  cases content <;> exact ⟨_,rfl⟩

def refused (fault : Folder.Fault) : List FileName × Refusal := (fault.1,.entry fault.2)

/-- A walk below a directory adds all that lies in it, or ends at the first fault. -/
theorem foldlM_walk (known : a.index.lookup (place.map .text) = some number)
    (inside : number < a.nodes.length) (entries : List (FileName × Content)) :
    (Folder.walk (place.map .text) entries).foldlM (add includes) a =
      ((Folder.ofEntries includes place entries).map (a.grown number)).mapError refused := by
  induction place, entries using Folder.ofEntries.induct generalizing a number with
  | case1 place =>
    rw [Folder.walk, Folder.ofEntries]
    exact congrArg Except.ok (grown_nil number a place).symm
  | case2 place name rest fault =>
    obtain ⟨others,met⟩ := walk_cons (place.map .text) name (.unreadable fault) rest
    rw [met, List.foldlM_cons, add_unreadable, Folder.ofEntries]
    rfl
  | case3 place name content rest raw readable =>
    obtain ⟨others,met⟩ := walk_cons (place.map .text) name content rest
    rw [met, List.foldlM_cons, add_unnamed raw readable, Folder.ofEntries]
    all_goals first | rfl | exact raw | exact readable
  | case4 place name rest text named ih =>
    cases Folder.text?_eq named
    have within : number < (a.addFile includes number text).nodes.length := by
      simpa [addFile] using inside
    rw [walk_file, List.foldlM_cons, add_file known, ok_bind,
      ih (a := a.addFile includes number text) known within, Folder.ofEntries_file]
    cases Folder.ofEntries includes place rest with
    | error fault => rfl
    | ok f => exact congrArg Except.ok (grown_addFile includes number text a f)
  | case5 place name rest entries text named inner ih =>
    cases Folder.text?_eq named
    have below : place.map FileName.text ++ [.text text] = (place ++ [text]).map .text := by simp
    let opened := a.addDirectory number ((place ++ [text]).map .text)
    have knownInside : opened.index.lookup ((place ++ [text]).map .text) = some a.nodes.length := by
      simp [opened, addDirectory]
    have met := inner knownInside (by simp [opened, addDirectory])
    rw [Folder.walk, List.cons_append, List.foldlM_cons, add_directory known, ok_bind,
      List.foldlM_append, below, met, Folder.ofEntries_directory]
    cases made : Folder.ofEntries includes (place ++ [text]) entries with
    | error fault => rfl
    | ok child =>
      have listed := Folder.ofEntries_listed _ _ _ _ made
      -- The places that the child adds to the index are longer, so they do not hide this one.
      have apart : ∀ d ∈ child.depthFirst, d.path.map .text ≠ place.map FileName.text := by
        intro d found same
        obtain ⟨names,_,further,_⟩ := listed.descend found
        have length := congrArg List.length same
        simp [further] at length
      have behind := grown_met inside child
      have whole (f : Folder) := grown_addDirectory inside f child
      rw [listed.path_eq] at behind whole
      have knownBehind : (opened.grown a.nodes.length child).index.lookup (place.map .text) =
          some number := by
        rw [behind, lookup_past apart]
        exact known
      have later := ih knownBehind
        (by rw [behind, List.length_append, List.length_modify]; exact Nat.lt_add_right _ inside)
      change List.foldlM _ _ _ = _
      rw [later]
      cases Folder.ofEntries includes place rest with
      | error fault => rfl
      | ok f => exact congrArg Except.ok (whole f)

/-- The table that a walk of entries fills is that of their folder, and the fault that ends it is the
one that the folder has. An entry never lies outside of the directories that were met. -/
theorem ofWalk_eq (includes : String → Bool) (entries : List (FileName × Content)) :
    ofWalk includes (Folder.walk [] entries) =
      ((Folder.ofEntries includes [] entries).map ofFolder).mapError refused := by
  have known : start.index.lookup (([] : List String).map .text) = some 0 := rfl
  have walked : (Folder.walk [] entries).foldlM (add includes) start =
      ((Folder.ofEntries includes [] entries).map (start.grown 0)).mapError refused :=
    foldlM_walk known Nat.one_pos entries
  rw [ofWalk, walked]
  cases made : Folder.ofEntries includes [] entries with
  | error fault => rfl
  | ok f =>
    have top := (Folder.ofEntries_listed _ _ _ _ made).path_eq
    refine congrArg Except.ok ?_
    rw [ofFolder, Folder.depthFirst_cons, grown]
    simp [start, rows, keys, Node.extended, Node.ofFolder, top]

end Arena

end ThemeForge
