import ThemeForge.Documents
import ThemeForge.Proofs.Results

/-!
# Paths without links

A path whose names lead through directories, none of them behind a link, leads to the place that it
names. The file there is what is read.
-/

namespace ThemeForge.FileSystem

variable {fs : FileSystem}

/-- Whether each of some names below a place is an entry of the directory before it, and no link. -/
def plain (fs : FileSystem) (here : Location) : List String → Bool
  | [] => true
  | name :: rest =>
    fs.isDirectory here && decide (name.utf8ByteSize ≤ maxName) &&
      (match fs.node? (here ++ [.text name]) with
        | none | some (.link _) => false
        | some _ => true) &&
      fs.plain (here ++ [.text name]) rest

theorem walk_plain (followLast create : Bool) (links : Nat) {here : Location} {names : List String}
    (found : fs.plain here names = true) :
    fs.walk followLast create links here (names.map .name) = .ok (here ++ names.map .text) := by
  induction names generalizing here with
  | nil => simp [walk]
  | cons name rest ih =>
    simp only [plain, Bool.and_eq_true, decide_eq_true_eq] at found
    obtain ⟨⟨⟨inside,short⟩,there⟩,further⟩ := found
    have below := ih further
    rw [List.append_assoc, List.singleton_append] at below
    rw [List.map_cons, walk, if_pos inside, if_neg (Nat.not_lt.mpr short)]
    cases node : fs.node? (here ++ [.text name]) with
    | none => simp [node] at there
    | some other =>
      cases other with
      | link target => simp [node] at there
      | file content number =>
        simp only [node]
        exact below
      | directory =>
        simp only [node]
        exact below

theorem resolveWith_steps (path : FilePath) (noZero : '\x00' ∉ path.text.toList)
    (named : path.text ≠ "") (short : path.size ≤ maxPath) (followLast create : Bool) :
    fs.resolveWith followLast create path =
      fs.walk followLast create maxLinks (path.start fs) path.steps := by
  rw [resolveWith, if_neg (by simpa using noZero), if_neg named, if_neg (Nat.not_lt.mpr short)]

/-- An absolute path without links leads to the place that it names. -/
theorem resolveWith_plain (followLast create : Bool) {path : String} {names : List String}
    (stepped : steps path = .root :: names.map .name) (named : path ≠ "")
    (short : path.utf8ByteSize ≤ maxPath) (noZero : '\x00' ∉ path.toList)
    (found : fs.plain [] names = true) :
    fs.resolveWith followLast create path = .ok (names.map .text) := by
  refine (resolveWith_steps path noZero named short followLast create).trans ?_
  rw [FilePath.steps, stepped, walk, walk_plain followLast create maxLinks found, List.nil_append]

theorem resolveWith_below (followLast create : Bool) {place : Location} {names : List String}
    (noZero : '\x00' ∉ (FilePath.below place names).text.toList)
    (named : (FilePath.below place names).text ≠ "")
    (short : (FilePath.below place names).size ≤ maxPath) (found : fs.plain place names = true) :
    fs.resolveWith followLast create (.below place names) = .ok (place ++ names.map .text) :=
  (resolveWith_steps _ noZero named short followLast create).trans
    (walk_plain followLast create maxLinks found)

section

variable {name : String} (stepped : steps name = [.name name])
  (short : name.utf8ByteSize ≤ maxName) (noZero : '\x00' ∉ name.toList)

include stepped short noZero

theorem resolveWith_name (fs : FileSystem) (followLast create : Bool) :
    fs.resolveWith followLast create name =
      fs.walk followLast create maxLinks fs.workingDirectory [.name name] := by
  have named : name ≠ "" := by
    rintro rfl
    cases stepped
  have limit : maxName ≤ maxPath := by decide
  refine (resolveWith_steps name noZero named (Nat.le_trans short limit) followLast create).trans ?_
  rw [FilePath.steps, stepped]
  rfl

variable (inside : fs.isDirectory fs.workingDirectory = true)

include inside

/-- A name that is free in the working directory leads to a place there. -/
theorem resolveWith_new (followLast : Bool)
    (free : fs.node? (fs.workingDirectory ++ [.text name]) = none) :
    fs.resolveWith followLast true name = .ok (fs.workingDirectory ++ [.text name]) := by
  rw [resolveWith_name stepped short noZero, walk, if_pos inside, if_neg (Nat.not_lt.mpr short)]
  simp only [free]
  rfl

theorem resolveWith_old (followLast create : Bool) {node : Node}
    (there : fs.node? (fs.workingDirectory ++ [.text name]) = some node)
    (unlinked : ∀ target, node ≠ .link target) :
    fs.resolveWith followLast create name = .ok (fs.workingDirectory ++ [.text name]) := by
  rw [resolveWith_name stepped short noZero, walk, if_pos inside, if_neg (Nat.not_lt.mpr short)]
  cases node with
  | link target => exact absurd rfl (unlinked target)
  | file content number | directory => simp only [there, walk]

end

theorem resolve_here (inside : fs.isDirectory fs.workingDirectory = true) :
    fs.resolve "." = .ok fs.workingDirectory := by
  have here : (FilePath.given ".").steps = [.current] := rfl
  rw [resolve, resolveWith_steps _ (by decide) (by decide) (by decide), here, walk, FilePath.start,
    if_pos inside, walk]

variable {path : FilePath}

theorem read_file {location : Location} {content : ByteArray} {number : Option Nat}
    (resolved : fs.resolve path = .ok location)
    (file : fs.node? location = some (.file content number)) : fs.read path = .ok content := by
  rw [read, resolved]
  simp only [bind, Except.bind, file]
  rfl

theorem read_eq_ok_iff {content : ByteArray} : fs.read path = .ok content ↔
    ∃ location number, fs.resolve path = .ok location ∧
      fs.node? location = some (.file content number) := by
  constructor
  · intro read
    unfold FileSystem.read at read
    cases resolved : fs.resolve path with
    | error error =>
      rw [resolved] at read
      cases read
    | ok location =>
      rw [resolved] at read
      simp only [bind, Except.bind] at read
      split at read
      · rename_i file
        cases read
        exact ⟨location,_,rfl,file⟩
      · cases read
  · rintro ⟨_,_,resolved,file⟩
    exact read_file resolved file

theorem readText_read {text : String} (read : fs.readText path = .ok text) :
    ∃ content, fs.read path = .ok content := by
  unfold readText at read
  split at read
  · cases read
  · exact ⟨_,‹_›⟩

theorem readText_congr {after : FileSystem}
    (same : after.read path = fs.read path) : after.readText path = fs.readText path := by
  rw [readText, readText, same]

theorem readText_file {text : String} {location : Location} {number : Option Nat}
    (resolved : fs.resolve path = .ok location)
    (file : fs.node? location = some (.file text.toUTF8 number))
    (decoded : Text.decode text.toUTF8 = .ok text) (unmarked : withoutMark text = text) :
    fs.readText path = .ok text := by
  simp only [readText, read_file resolved file, decoded, unmarked]

end ThemeForge.FileSystem

namespace ThemeForge.Settings

variable {fs : FileSystem} {given : Option String} {path : String}

theorem load_read {settings : Settings} (loaded : load fs given = .ok settings)
    (named : given = some path) : ∃ content, fs.read (.given path) = .ok content := by
  rw [named, load] at loaded
  obtain ⟨text,read,_⟩ := bind_ok_iff.mp loaded
  exact FileSystem.readText_read read

theorem load_congr {after : FileSystem}
    (same : ∀ path, given = some path → after.read (.given path) = fs.read (.given path)) :
    load after given = load fs given := by
  cases given with
  | none => rfl
  | some path => rw [load, load, FileSystem.readText_congr (same path rfl)]

end ThemeForge.Settings
