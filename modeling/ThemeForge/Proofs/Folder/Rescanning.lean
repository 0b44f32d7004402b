import ThemeForge.Proofs.Files.Writing
import ThemeForge.Proofs.Folder.Clearing
import ThemeForge.Proofs.Folder.Depth

/-!
# Scanning again

A folder is scanned again after files were written. It is as before, up to resources without owner,
if no link on the way was replaced and whatever is new is a resource that has no part in the theme.
-/

namespace ThemeForge

namespace FileName

variable {a b c : FileName}

theorem le_iff : le a b = true ↔ a.bytes ≤ b.bytes := by simp [le, List.not_lt]

theorem le_trans (first : le a b = true) (second : le b c = true) : le a c = true := by
  rw [le_iff] at first second ⊢
  exact List.le_trans first second

theorem le_total (a b : FileName) : (le a b || le b a) = true := by
  rw [Bool.or_eq_true, le_iff, le_iff]
  exact List.le_total _ _

theorem eq_of_le {s s' : String} (first : le (.text s) (.text s') = true)
    (second : le (.text s') (.text s) = true) : s = s' := by
  rw [le_iff] at first second
  have bytes : (FileName.text s).bytes = (FileName.text s').bytes := List.le_antisymm first second
  exact String.toByteArray_inj.mp (ByteArray.ext (Array.toList_inj.mp bytes))

/-- Texts in their order are the same names if they are so in any order. -/
theorem eq_of_sorted {names others : List FileName} (text : ∀ name ∈ names, ∃ s, name = .text s)
    (perm : names.Perm others) (sorted : names.Pairwise fun a b => le a b = true)
    (sorted' : others.Pairwise fun a b => le a b = true) : names = others := by
  refine perm.eq_of_pairwise ?_ sorted sorted'
  intro a b among among' first second
  obtain ⟨s,rfl⟩ := text a among
  obtain ⟨s',rfl⟩ := text b (perm.mem_iff.mpr among')
  exact congrArg FileName.text (eq_of_le first second)

end FileName

namespace FileSystem

variable {fs after : FileSystem} {directory location : Location} {places : List Location}

theorem names_sorted (fs : FileSystem) (directory : Location) :
    (fs.names directory).Pairwise fun a b => FileName.le a b = true := by
  refine List.pairwise_mergeSort ?_ FileName.le_total _
  intro a b c
  exact FileName.le_trans

theorem names_of_sorted {texts : List String}
    (perm : ((fs.entries.map Prod.fst).filterMap (nameIn? directory)).Perm (texts.map .text))
    (sorted : (texts.map FileName.text).Pairwise fun a b => FileName.le a b = true) :
    fs.names directory = texts.map .text := by
  have whole := (fs.names_perm directory).trans perm
  refine FileName.eq_of_sorted ?_ whole (fs.names_sorted directory) sorted
  intro name among
  obtain ⟨s,_,same⟩ := List.mem_map.mp (whole.mem_iff.mp among)
  exact ⟨s,same.symm⟩

theorem lookup_of_key {key : Location} {entries : List (Location × Node)}
    (listed : key ∈ entries.map Prod.fst) : entries.lookup key ≠ none := by
  intro missing
  obtain ⟨entry,among,rfl⟩ := List.mem_map.mp listed
  have apart := List.lookup_eq_none_iff.mp missing entry among
  simp at apart

theorem node?_of_key (listed : location ∈ fs.entries.map Prod.fst) : fs.node? location ≠ none := by
  rw [node?]
  split
  · exact Option.some_ne_none _
  · exact lookup_of_key listed

theorem mem_names : name ∈ fs.names directory ↔ directory ++ [name] ∈ fs.entries.map Prod.fst := by
  rw [(fs.names_perm directory).mem_iff, List.mem_filterMap]
  constructor
  · rintro ⟨location,listed,named⟩
    exact nameIn?_eq named ▸ listed
  · intro listed
    refine ⟨_,listed,?_⟩
    simp [nameIn?]

/-- A name in a directory was there before, or is that of a new file. -/
theorem Written.old_or_new (written : Written fs after places)
    (found : name ∈ after.names directory) : name ∈ fs.names directory ∨
      directory ++ [name] ∈ places ∧ fs.node? (directory ++ [name]) = none := by
  obtain ⟨new,keys,free⟩ := written.listed
  rw [mem_names, keys, List.mem_append] at found
  exact found.imp mem_names.mpr (free _)

theorem Written.names_eq (written : Written fs after places)
    (text : ∀ name ∈ after.names directory, ∃ s, name = .text s) :
    fs.names directory =
      (after.names directory).filter fun name => (fs.node? (directory ++ [name])).isSome := by
  obtain ⟨new,keys,free⟩ := written.listed
  have old : ∀ name ∈ (fs.entries.map Prod.fst).filterMap (nameIn? directory),
      (fs.node? (directory ++ [name])).isSome = true := by
    intro name found
    rw [Option.isSome_iff_ne_none]
    exact node?_of_key (mem_names.mp ((fs.names_perm directory).mem_iff.mpr found))
  have young : ∀ name ∈ new.filterMap (nameIn? directory),
      ¬(fs.node? (directory ++ [name])).isSome = true := by
    intro name found
    obtain ⟨l,among,named⟩ := List.mem_filterMap.mp found
    rw [← nameIn?_eq named, (free l among).2]
    nofun
  have perm : (fs.names directory).Perm
      ((after.names directory).filter fun name => (fs.node? (directory ++ [name])).isSome) := by
    refine (fs.names_perm directory).trans (((after.names_perm directory).filter _).trans ?_).symm
    rw [keys, List.filterMap_append, List.filter_append, List.filter_eq_self.mpr old,
      List.filter_eq_nil_iff.mpr young, List.append_nil]
  refine FileName.eq_of_sorted ?_ perm (fs.names_sorted directory)
    ((after.names_sorted directory).filter _)
  intro name among
  exact text name (List.mem_of_mem_filter (perm.mem_iff.mp among))

end FileSystem

namespace Folder

variable {loose : List String → Bool} {place : List String}

theorem Listed.ofEntries_eq (listed : Listed includes place entries f) :
    ofEntries includes place entries = .ok f := by
  induction listed with
  | nil => rw [ofEntries]
  | file rest ih =>
    rw [ofEntries_file, ih]
    rfl
  | directory inner rest child folder =>
    rw [ofEntries_directory, child, folder]
    rfl

inductive Relisted (includes : String → Bool) (loose : List String → Bool) (place : List String) :
    Content → Content → Prop
  | file : Relisted includes loose place .file .file
  | directory (inner : ∀ f, Listed includes place before f →
        ∃ other, Listed includes place now other ∧ other.cleared loose = f.cleared loose) :
      Relisted includes loose place (.directory before) (.directory now)
  | unreadable : Relisted includes loose place (.unreadable fault) content

/-- A resource that has no part in a theme: it is left out, or has no owner. -/
structure Ignored (includes : String → Bool) (loose : List String → Bool) (place : List String)
    (name : String) : Prop where
  kind : FileKind.classify name = .resource
  apart : includes name = false ∨ loose place = true

/-- Resources that have no part in a theme make no difference among other entries. -/
theorem Listed.relisted {names : List FileName} {old : FileName → Bool}
    {before now : FileName → Content}
    (listed : Listed includes place ((names.filter old).map fun name => (name,before name)) f)
    (same : ∀ s, .text s ∈ names → old (.text s) = true →
      Relisted includes loose (place ++ [s]) (before (.text s)) (now (.text s)))
    (new : ∀ name ∈ names, old name = false →
      ∃ s, name = .text s ∧ now name = .file ∧ Ignored includes loose place s) :
    ∃ other, Listed includes place (names.map fun name => (name,now name)) other ∧
      other.cleared loose = f.cleared loose := by
  induction names generalizing f with
  | nil => exact ⟨f,listed,rfl⟩
  | cons name names ih =>
    have same' := fun s found => same s (List.mem_cons_of_mem name found)
    have new' := fun other found => new other (List.mem_cons_of_mem name found)
    rw [List.map_cons]
    -- A new name adds an ignored resource; an old one adds to both folders what is alike.
    cases isOld : old name with
    | false =>
      rw [List.filter_cons_of_neg (by simp [isOld])] at listed
      obtain ⟨other,again,alike⟩ := ih listed same' new'
      obtain ⟨s,rfl,file,ignored⟩ := new name List.mem_cons_self isOld
      have unowned : includes s = false ∨ loose other.path = true := again.path_eq ▸ ignored.apart
      rw [file]
      exact ⟨_,.file again,(addFile_ignored ignored.kind unowned).trans alike⟩
    | true =>
      rw [List.filter_cons_of_pos isOld, List.map_cons] at listed
      have kept : ∀ s, name = .text s →
          Relisted includes loose (place ++ [s]) (before name) (now name) := by
        rintro s rfl
        exact same s List.mem_cons_self isOld
      generalize before name = content at listed kept
      generalize now name = again at kept ⊢
      cases listed with
      | file rest =>
        obtain ⟨other,later,alike⟩ := ih rest same' new'
        cases kept _ rfl
        exact ⟨_,.file later,addFile_alike _ alike⟩
      | directory inner rest =>
        obtain ⟨other,later,alike⟩ := ih rest same' new'
        cases kept _ rfl with
        | directory lists =>
          obtain ⟨child,below,alike'⟩ := lists _ inner
          exact ⟨_,.directory below later,addChild_alike alike' alike⟩

theorem Listed.text (listed : Listed includes place entries f) :
    ∀ name ∈ entries.map Prod.fst, ∃ s, name = .text s := by
  induction listed with
  | nil => nofun
  | file rest ih =>
    intro name found
    rcases List.mem_cons.mp found with rfl | later
    · exact ⟨_,rfl⟩
    · exact ih name later
  | directory inner rest _ ih =>
    intro name found
    rcases List.mem_cons.mp found with rfl | later
    · exact ⟨_,rfl⟩
    · exact ih name later

end Folder

namespace FileSystem

/-- A scan of a directory comes to other ones by the names of directories and links. -/
inductive Scans (fs : FileSystem) (top : Location) : Location → List String → Prop
  | top : Scans fs top top []
  | enter (scans : Scans fs top location place)
      (enters : fs.Enters [] location (.text name) there) : Scans fs top there (place ++ [name])

/-- Files at some places have no part in what is scanned: no link to a directory is there, nor one
that other links are followed by, and whatever is new is a resource that is left out or has no
owner. -/
structure Aside (fs : FileSystem) (top : Location) (includes : String → Bool)
    (loose : List String → Bool) (places : List Location) : Prop where
  entry : ∀ directory below name target there, fs.Scans top directory below →
    fs.node? (directory ++ [name]) = some (.link target) → fs.follow directory target = .ok there →
    fs.isDirectory there = true → directory ++ [name] ∉ places
  target : ∀ directory below name target there followed, fs.Scans top directory below →
    fs.node? (directory ++ [name]) = some (.link target) →
    fs.Leads true false (maxLinks - 1) directory (steps target) there followed →
    ∀ link ∈ followed, link ∉ places
  new : ∀ directory below name, fs.Scans top directory below → directory ++ [name] ∈ places →
    fs.node? (directory ++ [name]) = none →
    ∃ s, name = .text s ∧ Folder.Ignored includes loose below s

variable {fs after : FileSystem} {top location there : Location} {below : List String}
  {places : List Location} {includes : String → Bool} {loose : List String → Bool}
  {trail : List (Location × List FileName)} {name : FileName}

theorem Enters.anyhow (enters : fs.Enters trail location name there) :
    fs.Enters [] location name there := by
  cases enters with
  | directory inside => exact .directory inside
  | link isLink followed inside new => exact .link isLink followed inside (by simp)

theorem follow_eq_ok_iff : fs.follow location target = .ok there ↔
    target ≠ "" ∧ ∃ followed,
      fs.Leads true false (maxLinks - 1) location (steps target) there followed := by
  rw [follow]
  split
  · rename_i empty
    exact ⟨nofun,fun led => absurd empty led.1⟩
  · rename_i named
    rw [walk_eq_ok_iff, and_iff_right named]

theorem Written.follow {target : String} (written : Written fs after places)
    (untouched : ∀ there followed,
      fs.Leads true false (maxLinks - 1) location (steps target) there followed →
      ∀ link ∈ followed, link ∉ places)
    (led : fs.follow location target = .ok there) : after.follow location target = .ok there := by
  obtain ⟨named,followed,leads⟩ := follow_eq_ok_iff.mp led
  exact follow_eq_ok_iff.mpr ⟨named,followed,leads.written written (untouched there followed leads)⟩

/-- An entry that was there before is what it was, given that of the directories it leads to. -/
theorem Written.relisted {s : String}
    {inside again : Location → List (FileName × Content)} (written : Written fs after places)
    (aside : fs.Aside top includes loose places) (scans : fs.Scans top location below)
    (old : fs.node? (location ++ [.text s]) ≠ none)
    (lower : ∀ there, fs.Enters trail location (.text s) there → ∀ f,
      Folder.Listed includes (below ++ [s]) (inside there) f →
      ∃ other, Folder.Listed includes (below ++ [s]) (again there) other ∧
        other.cleared loose = f.cleared loose) :
    Folder.Relisted includes loose (below ++ [s]) (fs.contentAt inside trail location (.text s))
      (after.contentAt again trail location (.text s)) := by
  unfold contentAt
  cases node : fs.node? (location ++ [.text s]) with
  | none => exact absurd node old
  | some found =>
    cases found with
    | file content number =>
      have file : ∃ content number,
          after.node? (location ++ [.text s]) = some (.file content number) := by
        by_cases place : location ++ [.text s] ∈ places
        · exact (written.filed _ place).2
        · exact ⟨content,number,by rw [written.kept _ place, node]⟩
      obtain ⟨_,_,file⟩ := file
      rw [file]
      exact .file
    | directory =>
      have directory := (written.isDirectory _).trans (isDirectory_iff.mpr node)
      rw [isDirectory_iff.mp directory]
      exact .directory (lower _ (.directory node))
    | link target =>
      dsimp only
      cases led : fs.follow location target with
      | error error => exact .unreadable
      | ok there =>
        dsimp only
        -- A link to a file can be replaced by one: in a listing both are files.
        by_cases place : location ++ [.text s] ∈ places
        · obtain ⟨_,_,_,file⟩ := written.filed _ place
          have plain : ¬fs.isDirectory there = true := fun directory =>
            aside.entry _ _ _ _ there scans node led directory place
          rw [if_neg plain, file]
          exact .file
        · have again := written.follow (fun there followed =>
            aside.target _ _ _ _ there followed scans node) led
          rw [written.kept _ place, node]
          dsimp only
          rw [again]
          dsimp only
          rw [written.isDirectory]
          split
          · rename_i directory
            cases ancestor : trail.find? fun ancestor => ancestor.1 = there with
            | some entered => exact .unreadable
            | none =>
              have new : ∀ ancestor ∈ trail, ancestor.1 ≠ there := by
                simpa using List.find?_eq_none.mp ancestor
              exact .directory (lower there (.link node led directory new))
          · exact .file

/-- A directory is listed again as it was, up to resources without owner. -/
theorem Written.listed_again {depth : Nat} {f : Folder}
    (written : Written fs after places) (aside : fs.Aside top includes loose places)
    (scans : fs.Scans top location below)
    (listed :
      Folder.Listed includes below (fs.contentTo depth trail location (below.map .text)) f) :
    ∃ other, Folder.Listed includes below
        (after.contentTo depth trail location (below.map .text)) other ∧
      other.cleared loose = f.cleared loose := by
  induction depth generalizing trail location below f with
  | zero => exact ⟨f,listed,rfl⟩
  | succ depth ih =>
    have text : ∀ name ∈ after.names location, ∃ s, name = .text s := by
      intro name found
      rcases written.old_or_new found with old | ⟨among,free⟩
      · exact listed.text name (by rwa [contentTo_names])
      · obtain ⟨s,named,_⟩ := aside.new _ _ _ scans among free
        exact ⟨s,named⟩
    rw [contentTo_succ, written.names_eq text] at listed
    rw [contentTo_succ]
    refine listed.relisted ?_ ?_
    · intro s found old
      refine written.relisted aside scans (Option.isSome_iff_ne_none.mp old) ?_
      intro there enters f lower
      have place : below.map FileName.text ++ [.text s] = (below ++ [s]).map .text := by simp
      rw [place] at lower ⊢
      exact ih (.enter scans enters.anyhow) lower
    · intro name found new
      have free : fs.node? (location ++ [name]) = none := by simpa using new
      have among : location ++ [name] ∈ places := by
        rcases written.old_or_new found with old | ⟨among,_⟩
        · exact absurd free (node?_of_key (mem_names.mp old))
        · exact among
      obtain ⟨s,rfl,ignored⟩ := aside.new _ _ _ scans among free
      obtain ⟨_,_,_,file⟩ := written.filed _ among
      refine ⟨s,rfl,?_,ignored⟩
      rw [contentAt, file]

end FileSystem

namespace SourceTree

variable {fs after : FileSystem} {root : FilePath} {t : SourceTree} {places : List Location}
  {location : Location} {includes : String → Bool} {loose : List String → Bool}

/-- A folder is scanned again as it was, up to resources without owner. -/
theorem scan_again (written : fs.Written after places)
    (scanned : scan fs root includes = .ok t) (located : fs.resolve root = .ok location)
    (untouched : fs.Untouched places true root) (aside : fs.Aside location includes loose places) :
    ∃ other, scan after root includes = .ok other ∧ other.cleared loose = t.cleared loose := by
  obtain ⟨rfl,top,resolved,directory,made⟩ := scan_eq_ok_iff.mp scanned
  cases located.symm.trans resolved
  have longer : fs.entries.length ≤ after.entries.length := by
    obtain ⟨new,keys,_⟩ := written.listed
    have lengths := congrArg List.length keys
    simp only [List.length_map, List.length_append] at lengths
    omega
  -- There are more entries now, and a listing may be deeper. It was deep enough before.
  have deep := fs.levels_content location
  have deeper := Nat.mul_le_mul (Nat.add_le_add_right longer 2) (Nat.add_le_add_right longer 2)
  have listed := Folder.ofEntries_listed _ _ _ _ made
  rw [FileSystem.content, FileSystem.contentTo_deep deep (Nat.lt_of_lt_of_le deep deeper)] at listed
  obtain ⟨top,again,alike⟩ := written.listed_again aside .top listed
  refine ⟨⟨t.root,top⟩,scan_eq_ok_iff.mpr ⟨rfl,location,?_,?_,again.ofEntries_eq⟩,?_⟩
  · exact written.resolveWith untouched resolved
  · rw [written.isDirectory, directory]
  · rw [cleared, cleared, alike]

theorem discover_again (written : fs.Written after places)
    (discovered : discover fs root includes = .ok t) (located : fs.resolve root = .ok location)
    (untouched : fs.Untouched places true root)
    (aside : fs.Aside location includes t.unowned places) :
    ∃ other, discover after root includes = .ok other ∧
      other.cleared t.unowned = t.cleared t.unowned := by
  obtain ⟨scanned,checked⟩ := discover_eq_ok_iff.mp discovered
  obtain ⟨other,again,alike⟩ := scan_again written scanned located untouched aside
  obtain ⟨_,_,_,listed⟩ := scan_listed scanned
  refine ⟨other,discover_eq_ok_iff.mpr ⟨again,?_⟩,alike⟩
  exact checkOwnership_alike alike listed.path_eq checked

end SourceTree

end ThemeForge
