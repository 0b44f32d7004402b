import ThemeForge.Proofs.Folder.Proper
import ThemeForge.Proofs.Results

/-!
# How a folder comes from entries

`Listed` says what each entry adds to a folder. The folder of proper entries is proper: no two of
its directories have the same path.
-/

namespace ThemeForge

namespace Folder

inductive Listed (includes : String → Bool) :
    List String → List (FileName × Content) → Folder → Prop
  | nil : Listed includes place [] ⟨place,[],[],[]⟩
  | file (rest : Listed includes place entries f) :
      Listed includes place ((.text name,.file) :: entries) (addFile includes name f)
  | directory (inner : Listed includes (place ++ [name]) inside child)
      (rest : Listed includes place entries f) :
      Listed includes place ((.text name,.directory inside) :: entries)
        { f with children := child :: f.children }

theorem text?_eq {name : FileName} (text : name.text? = some s) : name = .text s := by
  cases name with
  | text s' => exact congrArg FileName.text (Option.some.inj text)
  | raw bytes => cases text

theorem ofEntries_file (includes : String → Bool) (place : List String) (name : String)
    (rest : List (FileName × Content)) :
    ofEntries includes place ((.text name,.file) :: rest) =
      (ofEntries includes place rest).map (addFile includes name) := by
  rw [ofEntries.eq_def]
  rfl

theorem ofEntries_directory (includes : String → Bool) (place : List String) (name : String)
    (inside rest : List (FileName × Content)) :
    ofEntries includes place ((.text name,.directory inside) :: rest) =
      (ofEntries includes (place ++ [name]) inside >>= fun child =>
        ofEntries includes place rest >>= fun f =>
          pure { f with children := child :: f.children }) := by
  rw [ofEntries.eq_def]
  rfl

theorem ofEntries_listed (includes : String → Bool) (place : List String)
    (entries : List (FileName × Content)) (f : Folder)
    (made : ofEntries includes place entries = .ok f) : Listed includes place entries f := by
  induction place, entries using ofEntries.induct generalizing f with
  | case1 place =>
    rw [ofEntries] at made
    cases made
    exact .nil
  | case2 place name rest reason =>
    rw [ofEntries] at made
    cases made
  | case3 place name content rest raw readable =>
    rw [ofEntries] at made <;> first | exact raw | exact readable | cases made
  | case4 place name rest text named ih =>
    cases text?_eq named
    rw [ofEntries_file] at made
    obtain ⟨folder,below,rfl⟩ := map_ok_iff.mp made
    exact .file (ih folder below)
  | case5 place name rest entries text named inner ih =>
    cases text?_eq named
    rw [ofEntries_directory] at made
    obtain ⟨child,inside,made⟩ := bind_ok_iff.mp made
    obtain ⟨folder,below,made⟩ := bind_ok_iff.mp made
    cases made
    exact .directory (inner child inside) (ih folder below)

/-- A file is a fragment, a resource or left out. -/
theorem addFile_cases (includes : String → Bool) (name : String) (f : Folder) :
    addFile includes name f = { f with fragments := name :: f.fragments } ∨
      addFile includes name f = { f with files := name :: f.files } ∨
      addFile includes name f = f := by
  unfold addFile
  split
  · exact .inl rfl
  · split
    · exact .inr (.inl rfl)
    · exact .inr (.inr rfl)

theorem addFile_path (includes : String → Bool) (name : String) (f : Folder) :
    (addFile includes name f).path = f.path := by
  rcases addFile_cases includes name f with added | added | added <;> rw [added]

theorem Listed.path_eq (listed : Listed includes place entries f) : f.path = place := by
  induction listed with
  | nil => rfl
  | file rest ih => rw [addFile_path, ih]
  | directory inner rest _ ih => exact ih

end Folder

namespace SourceTree

variable {fs : FileSystem} {root : FilePath} {t : SourceTree}

/-- A tree is scanned if its root leads to a directory whose entries can be listed. -/
theorem scan_eq_ok_iff :
    scan fs root includes = .ok t ↔ t.root = root ∧ ∃ location,
      fs.resolve root = .ok location ∧ fs.isDirectory location = true ∧
        Folder.ofEntries includes [] (fs.content location) = .ok t.top := by
  constructor
  · intro scanned
    unfold scan at scanned
    cases resolved : fs.resolve root with
    | error error => simp [resolved] at scanned
    | ok location =>
      simp only [resolved] at scanned
      split at scanned
      · cases scanned
      · rename_i directory
        cases made : Folder.ofEntries includes [] (fs.content location) with
        | error fault => simp [made] at scanned
        | ok top =>
          simp only [made] at scanned
          cases scanned
          exact ⟨rfl,location,rfl,by simpa using directory,made⟩
  · rintro ⟨rfl,location,resolved,directory,made⟩
    simp only [scan, resolved, directory, made]
    rfl

/-- What is located is a folder by its place, whatever the names that lead to it. -/
theorem locate_eq_ok_iff {path : FilePath} : locate fs path = .ok root ↔
    ∃ place, fs.resolve path = .ok place ∧ .below place [] = root := by
  rw [locate]
  cases fs.resolve path with
  | error error =>
    refine ⟨nofun,?_⟩
    rintro ⟨place,resolved,_⟩
    cases resolved
  | ok place =>
    refine ⟨fun located => ⟨place,rfl,Except.ok.inj located⟩,?_⟩
    rintro ⟨_,same,rfl⟩
    cases same
    rfl

/-- A scanned tree has the entries of the directory that its root leads to. -/
theorem scan_listed (scanned : scan fs root includes = .ok t) :
    root.text ≠ "" ∧ t.root = root ∧
      ∃ location, Folder.Listed includes [] (fs.content location) t.top := by
  obtain ⟨sameRoot,location,resolved,_,made⟩ := scan_eq_ok_iff.mp scanned
  refine ⟨?_,sameRoot,location,Folder.ofEntries_listed _ _ _ _ made⟩
  intro empty
  have noZero : ¬root.text.toList.contains '\x00' = true := by simp [empty]
  rw [FileSystem.resolve, FileSystem.resolveWith, if_neg noZero, if_pos empty] at resolved
  cases resolved

end SourceTree

end ThemeForge
