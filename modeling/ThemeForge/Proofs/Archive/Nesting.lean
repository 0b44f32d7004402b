import ThemeForge.Proofs.Archive.Members

/-!
# Members below members

Where a member's name is that of a directory for another one, an archive cannot be unpacked. Within
one directory of a disk no file is called as a directory is, but files of different data directories
come to lie below the same name, and so do the directives.
-/

namespace ThemeForge

namespace Folder

variable {f d e : Folder}

end Folder

/-- What a theme has below its name: the files that data directories own, and the directives. -/
inductive SourceTree.Holds (t : SourceTree) : String → Prop
  | owned (data : d ∈ t.dataFolders) (owned : file ∈ t.ownedFiles d) : Holds t file.relative
  | directives : Holds t "rtconfig.txt"

/-- Where one data directory owns a file another one owns something below, or something is owned
below a directory that is called as the directives are. -/
inductive SourceTree.Covers (t : SourceTree) : Prop
  | file (data : d ∈ t.dataFolders) (other : e ∈ t.dataFolders) (different : d.path ≠ e.path)
      (owned : file ∈ t.ownedFiles d) (ownedLower : lower ∈ t.ownedFiles e)
      (below : lower.relative = file.relative ++ "/" ++ further)
  | directives (data : d ∈ t.dataFolders) (ownedLower : lower ∈ t.ownedFiles d)
      (below : lower.relative = "rtconfig.txt" ++ "/" ++ further)

namespace SourceTree

variable {fs : FileSystem} {root : FilePath} {t : SourceTree} {d : Folder} {file lower : OwnedFile}

end SourceTree

namespace Target

variable {target : Target} {t : SourceTree} {name : String}

/-- A name in an archive is that of the settings, or what is held below the theme's name. -/
theorem mem_names :
    name ∈ (t.placed target.name).map Resource.member ++
        [target.settingsMember,target.directivesMember] ↔
      name = target.settingsMember ∨ ∃ relative, t.Holds relative ∧
        name = target.name ++ "/" ++ relative := by
  have directives : target.directivesMember = target.name ++ "/" ++ "rtconfig.txt" := by
    rw [directivesMember, String.append_assoc]
    rfl
  rw [SourceTree.placed_members, directives]
  simp only [List.mem_append, List.mem_flatMap, List.mem_map, List.mem_cons, List.not_mem_nil,
    or_false]
  constructor
  · rintro (⟨d,data,relative,⟨file,owned,rfl⟩,rfl⟩ | rfl | rfl)
    · exact .inr ⟨_,.owned data owned,rfl⟩
    · exact .inl rfl
    · exact .inr ⟨_,.directives,rfl⟩
  · rintro (rfl | ⟨relative,held,rfl⟩)
    · exact .inr (.inl rfl)
    · cases held with
      | owned data owned => exact .inl ⟨_,data,_,⟨_,owned,rfl⟩,rfl⟩
      | directives => exact .inr (.inr rfl)

end Target

namespace BuildRequest

variable {r : BuildRequest} {fs : FileSystem} {host : Host} {members : List Member}

end BuildRequest

end ThemeForge
