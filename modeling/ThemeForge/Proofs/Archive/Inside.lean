import ThemeForge.Proofs.Archive.Members
import ThemeForge.Proofs.Text.Parts

/-!
# Members inside the archive

A member's name is a path below the place where an archive is unpacked. Its parts are the theme's
name and names of files and directories, and no file or directory is called by one or two dots. The
theme can be.
-/

namespace ThemeForge

/-- A path of which every part is a name, so that it leads down from where it starts. -/
def Path.Descends (path : String) : Prop :=
  ∀ part ∈ Text.splitOn '/' path.toList, part ≠ [] ∧ part ≠ ['.'] ∧ part ≠ ['.','.']

/-- A name that an entry of a directory has: not empty, without a slash, and neither of those by
which every directory calls itself and the one above it. -/
structure EntryName (name : String) : Prop where
  proper : ProperName name
  notSelf : name ≠ "."
  notAbove : name ≠ ".."

/-- A path of names without slashes leads down if none of them is empty or a special one. -/
theorem Path.descends_intercalate {names : List String} (some : names ≠ [])
    (unslashed : ∀ name ∈ names, '/' ∉ name.toList) :
    Path.Descends (String.intercalate "/" names) ↔
      ∀ name ∈ names, name ≠ "" ∧ name ≠ "." ∧ name ≠ ".." := by
  have parts : Text.splitOn '/' (String.intercalate "/" names).toList =
      names.map String.toList := by
    rw [Text.splitOn_eq, String.toList_intercalate]
    exact List.splitOn_intercalate '/' (by simpa using unslashed) (by simpa using some)
  have dot : ∀ name : String, name.toList = ['.'] ↔ name = "." :=
    fun name => by rw [← String.toList_inj]; rfl
  have dots : ∀ name : String, name.toList = ['.','.'] ↔ name = ".." :=
    fun name => by rw [← String.toList_inj]; rfl
  rw [Path.Descends, parts]
  simp [dot, dots]

namespace FileSystem

variable {fs : FileSystem} {P : String → Prop}

/-- What holds of all names by which entries are reached. -/
def Named (fs : FileSystem) (P : String → Prop) : Prop :=
  ∀ location ∈ fs.entries.map Prod.fst, ∀ name, .text name ∈ location → P name

theorem names_named (named : fs.Named P) (directory : Location) :
    ∀ name, .text name ∈ fs.names directory → P name := by
  intro name found
  obtain ⟨location,listed,last⟩ :=
    List.mem_filterMap.mp ((fs.names_perm directory).mem_iff.mp found)
  refine named location listed name ?_
  rw [nameIn?_eq last]
  exact List.mem_append_right _ (List.mem_singleton_self _)

end FileSystem

inductive NamedEntries (P : String → Prop) : List (FileName × Content) → Prop
  | intro (named : ∀ name, .text name ∈ entries.map Prod.fst → P name)
      (inner : ∀ name inside, (name,.directory inside) ∈ entries → NamedEntries P inside) :
      NamedEntries P entries

theorem NamedEntries.rest {P : String → Prop} {entries : List (FileName × Content)}
    (named : NamedEntries P (entry :: entries)) : NamedEntries P entries := by
  obtain ⟨names,inner⟩ := named
  refine ⟨?_,?_⟩
  · intro name found
    exact names name (List.mem_cons_of_mem _ found)
  · intro name inside found
    exact inner name inside (List.mem_cons_of_mem _ found)

theorem FileSystem.contentTo_named {fs : FileSystem} {P : String → Prop} (named : fs.Named P)
    (depth : Nat) (trail : List (Location × List FileName)) (location : Location)
    (place : List FileName) : NamedEntries P (fs.contentTo depth trail location place) := by
  induction depth generalizing trail location place with
  | zero =>
    rw [contentTo]
    exact .intro (by simp) (by simp)
  | succ depth ih =>
    refine .intro ?_ ?_
    · rw [contentTo_names]
      exact names_named named location
    · intro name inside listed
      obtain ⟨there,rfl⟩ := contentTo_inner listed
      exact ih _ there _

/-- The names of files and directories of a folder are those of its entries. -/
theorem Folder.Listed.named {P : String → Prop} {f : Folder}
    (listed : Listed includes place entries f) (named : NamedEntries P entries) :
    ∀ d ∈ f.depthFirst,
      (∃ names, d.path = place ++ names ∧ ∀ name ∈ names, P name) ∧ ∀ name ∈ d.files, P name := by
  induction listed with
  | @nil place =>
    intro d found
    cases List.mem_singleton.mp found
    exact ⟨⟨[],(List.append_nil place).symm,by simp⟩,by simp⟩
  | @file place entries f name rest ih =>
    have rest := ih named.rest
    intro d found
    rw [depthFirst_cons, addFile_children] at found
    rw [depthFirst_cons] at rest
    rcases List.mem_cons.mp found with rfl | below
    · obtain ⟨path,files⟩ := rest f List.mem_cons_self
      refine ⟨by rwa [addFile_path],?_⟩
      obtain ⟨names,_⟩ := named
      intro other found
      rcases addFile_cases includes name f with added | added | added
      · rw [added] at found
        exact files other found
      · rw [added] at found
        rcases List.mem_cons.mp found with rfl | old
        · exact names _ List.mem_cons_self
        · exact files other old
      · rw [added] at found
        exact files other found
    · exact rest d (List.mem_cons_of_mem _ below)
  | @directory place name inside child entries f inner rest ihInner ih =>
    have rest := ih named.rest
    obtain ⟨names,within⟩ := named
    intro d found
    rw [depthFirst_cons, depthFirsts, List.mem_cons, List.mem_append] at found
    rw [depthFirst_cons] at rest
    rcases found with rfl | inChild | below
    · exact rest f List.mem_cons_self
    · obtain ⟨⟨further,path,proper⟩,files⟩ :=
        ihInner (within _ inside List.mem_cons_self) d inChild
      refine ⟨⟨name :: further,?_,?_⟩,files⟩
      · rw [path, List.append_assoc, List.singleton_append]
      · intro other step
        rcases List.mem_cons.mp step with rfl | later
        · exact names _ List.mem_cons_self
        · exact proper other later
    · exact rest d (List.mem_cons_of_mem _ below)

namespace SourceTree

variable {fs : FileSystem} {root : FilePath} {title : String} {t : SourceTree} {P : String → Prop}

theorem placed_named (scanned : scan fs root includes = .ok t) (named : fs.Named P)
    (placed : r ∈ t.placed title) :
    ∃ names, r.member = String.intercalate "/" (title :: names) ∧ ∀ name ∈ names, P name := by
  obtain ⟨_,location,_,_,made⟩ := scan_eq_ok_iff.mp scanned
  have listed := Folder.ofEntries_listed _ _ _ _ made
  have entries := listed.named (FileSystem.contentTo_named named _ _ location _)
  obtain ⟨d,data,resource⟩ := List.mem_flatMap.mp placed
  obtain ⟨file,owned,rfl⟩ := List.mem_map.mp resource
  have below := (t.mem_dataFolders.mp data).1
  obtain ⟨e,inside,name,found,names,path,rfl⟩ := mem_ownedFiles listed below owned
  obtain ⟨⟨all,samePath,proper⟩,files⟩ := entries e (Folder.depthFirst_below _ below inside)
  refine ⟨names ++ [name],?_,?_⟩
  · have some : names ++ [name] ≠ [] := by simp
    obtain ⟨first,rest,cons⟩ := List.exists_cons_of_ne_nil some
    rw [Resources.ofOwned, cons, String.intercalate_cons_cons]
  · intro other step
    rcases List.mem_append.mp step with step | last
    · rw [List.nil_append, path] at samePath
      exact proper other (samePath ▸ List.mem_append_right _ step)
    · rw [List.mem_singleton.mp last]
      exact files name found

end SourceTree

theorem Path.fileName?_unslashed {path name : String} (ends : Path.fileName? path = some name) :
    '/' ∉ name.toList := by
  obtain ⟨⟨before,last⟩,cut,rfl⟩ := Option.map_eq_some_iff.mp ends
  unfold split? at cut
  dsimp only at cut
  split at cut
  · cases cut
  · cases cut
    intro slash
    have inside := List.mem_takeWhile_imp (List.mem_reverse.mp (by simpa using slash))
    simp at inside

namespace Target

/-- A theme's name is the front of a file name, and not empty. -/
theorem ofOutput_name {path : String} {target : Target} (accepted : ofOutput path = .ok target) :
    target.name ≠ "" ∧ '/' ∉ target.name.toList := by
  unfold ofOutput at accepted
  split at accepted
  · cases accepted
  · rename_i front ending cut
    split at accepted
    · cases accepted
    · split at accepted
      · cases accepted
      · rename_i solid
        cases accepted
        obtain ⟨name,ends,cut⟩ := Option.bind_eq_some_iff.mp cut
        obtain ⟨dot,whole,_⟩ := Text.eq_append_of_splitLast? cut
        refine ⟨?_,?_⟩
        · intro empty
          rw [String.ofList_eq_empty_iff.mp empty] at solid
          exact solid rfl
        · rw [String.toList_ofList]
          intro slash
          refine Path.fileName?_unslashed ends ?_
          rw [whole]
          exact List.mem_append_left _ slash

end Target

theorem entryName_directives : EntryName "rtconfig.txt" :=
  ⟨⟨by decide,by decide⟩,by decide,by decide⟩

theorem Target.descends_below {target : Target} (named : target.name ≠ "")
    (unslashed : '/' ∉ target.name.toList) {names : List String}
    (entries : ∀ name ∈ names, EntryName name) :
    Path.Descends (String.intercalate "/" (target.name :: names)) ↔
      target.name ≠ "." ∧ target.name ≠ ".." := by
  rw [Path.descends_intercalate (by simp), List.forall_mem_cons]
  · constructor
    · exact fun all => all.1.2
    · intro undotted
      refine ⟨⟨named,undotted⟩,?_⟩
      intro name found
      have entry := entries name found
      exact ⟨entry.proper.1,entry.notSelf,entry.notAbove⟩
  · rw [List.forall_mem_cons]
    exact ⟨unslashed,fun name found => (entries name found).proper.2⟩

theorem Target.descends_settingsMember {target : Target} (unslashed : '/' ∉ target.name.toList) :
    Path.Descends target.settingsMember := by
  have single : target.settingsMember = String.intercalate "/" [target.settingsMember] :=
    String.intercalate_singleton.symm
  have long : ∀ special : String, special.length < 12 → target.settingsMember ≠ special := by
    rintro special short rfl
    rw [Target.settingsMember, String.length_append] at short
    have ending : ".ReaperTheme".length = 12 := rfl
    omega
  rw [single, Path.descends_intercalate (by simp)]
  · intro name found
    rw [List.mem_singleton.mp found]
    exact ⟨long _ (by decide),long _ (by decide),long _ (by decide)⟩
  · intro name found
    rw [List.mem_singleton.mp found, Target.settingsMember, String.toList_append]
    have ending : '/' ∉ ".ReaperTheme".toList := by decide
    exact fun slash => (List.mem_append.mp slash).elim unslashed ending

theorem Target.directivesMember_eq (target : Target) :
    target.directivesMember = String.intercalate "/" (target.name :: ["rtconfig.txt"]) := by
  rw [String.intercalate_cons_cons, String.intercalate_singleton, String.append_assoc]
  rfl

namespace BuildRequest

variable {r : BuildRequest} {fs : FileSystem} {host : Host} {members : List Member}

/-- Where entries have names as on a disk, every member of an archive lies below the place where it
is unpacked, unless the theme is called by one or two dots. -/
theorem run_members_descend (built : (r.run fs host).archive = some members)
    (named : fs.Named EntryName) :
    ∃ target, Target.ofOutput r.output = .ok target ∧
      ((∀ member ∈ members, Path.Descends member.name) ↔
        target.name ≠ "." ∧ target.name ≠ "..") := by
  obtain ⟨job,t,prepared,scanned,names⟩ := run_member_names built
  have accepted := (prepare_eq_ok_iff.mp prepared).1
  obtain ⟨some,unslashed⟩ := Target.ofOutput_name accepted
  have each : (∀ member ∈ members, Path.Descends member.name) ↔
      ∀ name ∈ members.map Member.name, Path.Descends name := by simp
  refine ⟨job.target,accepted,?_⟩
  rw [each, names]
  constructor
  · intro all
    have directives := all job.target.directivesMember (by simp)
    rw [Target.directivesMember_eq] at directives
    refine (Target.descends_below some unslashed ?_).mp directives
    intro name found
    rw [List.mem_singleton.mp found]
    exact entryName_directives
  · intro undotted name found
    rcases List.mem_append.mp found with resource | text
    · obtain ⟨entry,placed,rfl⟩ := List.mem_map.mp resource
      obtain ⟨below,member,entries⟩ := SourceTree.placed_named scanned named placed
      rw [member]
      exact (Target.descends_below some unslashed entries).mpr undotted
    · rcases List.mem_cons.mp text with rfl | text
      · exact Target.descends_settingsMember unslashed
      · rw [List.mem_singleton.mp text, Target.directivesMember_eq]
        refine (Target.descends_below some unslashed ?_).mpr undotted
        intro name found
        rw [List.mem_singleton.mp found]
        exact entryName_directives

theorem pictureDisk_named : Theme.pictureDisk.Named EntryName := by
  have named : ∀ name ∈ ["theme","a.png","b.jpg","rtconfig.txt"], EntryName name := by
    intro name found
    simp only [List.mem_cons, List.not_mem_nil, or_false] at found
    rcases found with rfl | rfl | rfl | rfl
    all_goals exact ⟨⟨by decide,by decide⟩,by decide,by decide⟩
  intro location listed name step
  refine named name ?_
  simp only [Theme.pictureDisk, List.map_cons, List.map_nil, List.mem_cons, List.not_mem_nil,
    or_false] at listed
  rcases listed with rfl | rfl | rfl | rfl
  all_goals
    simp only [List.mem_cons, List.not_mem_nil, or_false, FileName.text.injEq] at step
    rcases step with rfl | rfl
    all_goals simp

/-- All members of the archive with the pictures lie below the place where it is unpacked. -/
theorem pictures_descend : (pictureRequest.run Theme.pictureDisk).archive = some pictureMembers ∧
    Theme.pictureDisk.Named EntryName ∧ ∀ member ∈ pictureMembers, Path.Descends member.name := by
  obtain ⟨target,accepted,descend⟩ := run_members_descend pictureRequest_run pictureDisk_named
  have same : Target.ofOutput "T.ReaperThemeZip" = .ok pictureTarget := rfl
  cases same.symm.trans accepted
  exact ⟨pictureRequest_run,pictureDisk_named,descend.mpr ⟨by decide,by decide⟩⟩

def dottedRequest : BuildRequest := { pictureRequest with output := "...ReaperThemeZip" }

def dottedTarget : Target := ⟨"...ReaperThemeZip",".."⟩

/-- The pictures and the directives of a theme called by two dots are members beside the place where
the archive is unpacked. -/
theorem dotted_ascends : ∃ members,
    (dottedRequest.run Theme.pictureDisk).archive = some members ∧
    members.map Member.name = ["../a.png","../b.jpg","...ReaperTheme","../rtconfig.txt"] ∧
    ¬∀ member ∈ members, Path.Descends member.name := by
  have built : (dottedRequest.run Theme.pictureDisk).archive = some _ :=
    pictureRequest_archive dottedTarget rfl rfl rfl (by decide) (by decide) rfl
  refine ⟨_,built,rfl,?_⟩
  intro all
  have directives := all ⟨dottedTarget.directivesMember,_⟩
    (List.mem_append_right _ (List.mem_cons_of_mem _ List.mem_cons_self))
  exact absurd (directives ['.','.'] (by decide)) (by decide)

end BuildRequest

end ThemeForge
