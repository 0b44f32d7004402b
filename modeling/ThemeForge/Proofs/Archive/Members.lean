import ThemeForge.Proofs.Build.Steps
import ThemeForge.Proofs.Files.Writing
import ThemeForge.Proofs.Folder.Choosing

/-!
# Members of an archive

Resources lie below the theme's name at different places, and none has the place of the directives
there. The settings lie beside that name. So all members of an archive have different names.
-/

namespace ThemeForge

theorem classify_directives : FileKind.classify "rtconfig.txt" = .fragment .directives := rfl

theorem intercalate_ne_directives (names : List String)
    (kind : FileKind.classify name = .resource) :
    String.intercalate "/" (names ++ [name]) ≠ "rtconfig.txt" := by
  intro same
  cases names with
  | nil =>
    rw [List.nil_append, String.intercalate_singleton] at same
    rw [same, classify_directives] at kind
    cases kind
  | cons first names =>
    have slash : '/' ∈ "rtconfig.txt".toList := by
      rw [← same, String.intercalate_append_of_ne_nil (by simp) (by simp)]
      simp
    exact absurd slash (by decide)

/-- Every resource of a scanned tree has a place below the theme's name, other than that of the
directives. -/
theorem SourceTree.placed_apart {fs : FileSystem} {root : FilePath} {title : String}
    {t : SourceTree} (scanned : scan fs root includes = .ok t) (placed : r ∈ t.placed title) :
    ∃ relative, r.member = title ++ "/" ++ relative ∧ relative ≠ "rtconfig.txt" := by
  obtain ⟨_,_,_,listed⟩ := scan_listed scanned
  obtain ⟨d,data,resource⟩ := List.mem_flatMap.mp placed
  obtain ⟨file,owned,rfl⟩ := List.mem_map.mp resource
  have below := (t.mem_dataFolders.mp data).1
  obtain ⟨e,inside,name,found,names,_,rfl⟩ := mem_ownedFiles listed below owned
  obtain ⟨_,_,_,recorded⟩ := listed.descend (Folder.depthFirst_below _ below inside)
  exact ⟨_,rfl,intercalate_ne_directives names (recorded.files name found).1⟩

namespace Target

variable {target : Target}

theorem settingsMember_ne (target : Target) (relative : String) :
    target.name ++ "/" ++ relative ≠ target.settingsMember := by
  intro same
  have chars := congrArg String.toList same
  rw [settingsMember, String.append_assoc] at chars
  simp only [String.toList_append] at chars
  have after := List.append_cancel_left chars
  simp at after

/-- The members of the resources and the texts of a theme have different names. -/
theorem names_distinct {fs : FileSystem} {root : FilePath} {t : SourceTree} {r : Resources}
    (scanned : SourceTree.scan fs root includes = .ok t)
    (placed : Resources.ofTree target.name t = .ok r) :
    (r.entries.map Resource.member ++ [target.settingsMember,target.directivesMember]).Nodup := by
  obtain ⟨entries,distinct⟩ := SourceTree.ofTree_eq_ok_iff.mp placed
  have texts : target.settingsMember ≠ target.directivesMember := by
    have beside := target.settingsMember_ne "rtconfig.txt"
    rw [String.append_assoc] at beside
    exact beside.symm
  rw [entries]
  refine List.nodup_append.mpr ⟨distinct,by simp [texts],?_⟩
  intro member listed text generated
  obtain ⟨entry,found,rfl⟩ := List.mem_map.mp listed
  obtain ⟨relative,place,apart⟩ := SourceTree.placed_apart scanned found
  rw [place]
  rcases List.mem_cons.mp generated with rfl | generated
  · exact target.settingsMember_ne relative
  · rw [List.mem_singleton.mp generated]
    intro same
    have place : target.name ++ "/" ++ relative = target.name ++ "/" ++ "rtconfig.txt" := by
      rw [same, directivesMember, String.append_assoc]
      rfl
    exact apart (SourceTree.member_injective _ place)

theorem readResource_read {fs : FileSystem} {resource : Resource} {member : Member}
    (done : target.readResource fs resource = .ok member) :
    ∃ content, fs.read resource.source = .ok content := by
  unfold readResource at done
  split at done
  · cases done
  · exact ⟨_,‹_›⟩

/-- The members of an archive depend on the content of the resources alone. -/
theorem members_congr {fs after : FileSystem} {theme : Theme} (same : ∀ resource ∈
      theme.resources.entries, after.read resource.source = fs.read resource.source) :
    target.members after theme = target.members fs theme := by
  rw [members, members, mapM_congr (g := target.readResource fs)]
  intro resource listed
  rw [readResource, readResource, same resource listed]

/-- A theme is packed with its resources in order, then its texts. -/
theorem members_eq {fs : FileSystem} {theme : Theme} {members : List Member}
    (packed : target.members fs theme = .ok members) :
    ∃ resources, members = resources ++ target.texts theme ∧
      resources.map Member.name = theme.resources.entries.map Resource.member := by
  obtain ⟨resources,read,made⟩ := bind_ok_iff.mp packed
  cases made
  refine ⟨resources,rfl,mapM_map read ?_⟩
  intro resource member done
  unfold readResource at done
  split at done
  · cases done
  · cases done
    rfl

theorem checkDirectory_eq_ok_iff {fs : FileSystem} : target.checkDirectory fs = .ok () ↔
    ∃ location, fs.resolve target.directory = .ok location ∧ fs.isDirectory location = true := by
  rw [checkDirectory, bind_ok_iff]
  refine exists_congr fun location => and_congr_right fun _ => ?_
  cases fs.isDirectory location with
  | true => exact ⟨fun _ => rfl,fun _ => rfl⟩
  | false => exact ⟨nofun,nofun⟩

/-- An archive is written if its directory can be, all its members can be read and its path can be
taken. -/
theorem write_eq_ok_iff {fs after : FileSystem} {disk : Disk} {theme : Theme}
    {members : List Member} :
    target.write fs disk theme = .ok (after,members) ↔
      target.checkDirectory fs = .ok () ∧ target.members fs theme = .ok members ∧
        fs.replace (disk target.path) target.path (Zip.encode members) = .ok after := by
  constructor
  · intro written
    obtain ⟨_,checked,written⟩ := bind_ok_iff.mp written
    obtain ⟨_,packed,written⟩ := bind_ok_iff.mp written
    obtain ⟨_,replaced,made⟩ := bind_ok_iff.mp written
    cases made
    exact ⟨mapError_ok_iff.mp checked,packed,mapError_ok_iff.mp replaced⟩
  · rintro ⟨checked,packed,replaced⟩
    refine bind_ok_iff.mpr ⟨(),mapError_ok_iff.mpr checked,bind_ok_iff.mpr ⟨_,packed,?_⟩⟩
    exact bind_ok_iff.mpr ⟨after,mapError_ok_iff.mpr replaced,rfl⟩

/-- An archive with a free name in the working directory is put there. -/
theorem write_new {fs : FileSystem} {disk : Disk} {theme : Theme} {members : List Member}
    (here : target.directory = ".") (stepped : FileSystem.steps target.path = [.name target.path])
    (short : target.path.utf8ByteSize ≤ FileSystem.maxName) (noZero : '\x00' ∉ target.path.toList)
    (inside : fs.isDirectory fs.workingDirectory = true)
    (free : fs.node? (fs.workingDirectory ++ [.text target.path]) = none)
    (able : disk target.path = none) (packed : target.members fs theme = .ok members) :
    target.write fs disk theme = .ok (fs.put (fs.workingDirectory ++ [.text target.path])
      (.file (Zip.encode members)),members) := by
  refine write_eq_ok_iff.mpr ⟨?_,packed,?_⟩
  · rw [checkDirectory_eq_ok_iff, here]
    exact ⟨_,FileSystem.resolve_here inside,inside⟩
  · have place := FileSystem.resolveWith_new stepped short noZero inside false free
    have vacant : fs.isDirectory (fs.workingDirectory ++ [.text target.path]) = false := by
      rw [FileSystem.isDirectory, free]
      rfl
    exact FileSystem.replace_eq_ok_iff.mpr ⟨_,place,vacant,able,rfl⟩

end Target

variable {fs : FileSystem} {members : List Member}

namespace BuildRequest

variable {r : BuildRequest} {host : Host}

/-- The archive of a build is that of the theme that its folder compiles to. -/
theorem run_archive (built : (r.run fs host).archive = some members) :
    ∃ job t theme between, r.Compiles fs host.glob job t theme ∧
      job.target.members between theme = .ok members := by
  have ended := r.run_ends fs host
  generalize r.run fs host = outcome at built ended
  cases ended with
  | failed => cases built
  | written compiled ends =>
    cases ends with
    | stopped copied => cases built
    | refused copied refused => cases built
    | done copied written =>
      cases built
      exact ⟨_,_,_,_,compiled,(Target.write_eq_ok_iff.mp written).2.1⟩

/-- The members of a build's archive are called by the places of the resources of the folder that it
scans, and then of the two texts. -/
theorem run_member_names (built : (r.run fs host).archive = some members) :
    ∃ job t, r.prepare fs host.glob = .ok job ∧
      SourceTree.scan fs job.input job.options.filter.includes = .ok t ∧
      members.map Member.name = (t.placed job.target.name).map Resource.member ++
        [job.target.settingsMember,job.target.directivesMember] := by
  obtain ⟨job,t,theme,_,compiled,packed⟩ := run_archive built
  obtain ⟨scanned,_⟩ := SourceTree.discover_eq_ok_iff.mp compiled.discovered
  obtain ⟨_,placed,_⟩ := Theme.ofTree_eq_ok_iff.mp compiled.made
  obtain ⟨resources,rfl,names⟩ := Target.members_eq packed
  refine ⟨job,t,compiled.prepared,scanned,?_⟩
  rw [List.map_append, names, (SourceTree.ofTree_eq_ok_iff.mp placed).1]
  rfl

/-- The archive of a build has the resources of the compiled theme and then its two texts, and no
two of them have the same name, whatever resources a reader of patterns chooses. -/
theorem run_members_distinct (built : (r.run fs host).archive = some members) :
    ∃ job theme, r.prepare fs host.glob = .ok job ∧ Target.ofOutput r.output = .ok job.target ∧
      Theme.compile fs job.input job.target.name job.options = .ok theme ∧
      (∃ resources, members = resources ++ job.target.texts theme ∧
        resources.map Member.name = theme.resources.entries.map Resource.member) ∧
      members.map Member.name = theme.resources.entries.map Resource.member ++
        [job.target.name ++ ".ReaperTheme",job.target.name ++ "/rtconfig.txt"] ∧
      (members.map Member.name).Nodup := by
  obtain ⟨job,t,theme,_,⟨prepared,discovered,made⟩,packed⟩ := run_archive built
  obtain ⟨scanned,_⟩ := SourceTree.discover_eq_ok_iff.mp discovered
  obtain ⟨resources,rfl,names⟩ := Target.members_eq packed
  have compiled : Theme.compile fs job.input job.target.name job.options = .ok theme :=
    bind_ok_iff.mpr ⟨t,discovered,made⟩
  have whole : (resources ++ job.target.texts theme).map Member.name =
      theme.resources.entries.map Resource.member ++
        [job.target.settingsMember,job.target.directivesMember] := by
    rw [List.map_append, names]
    rfl
  refine ⟨job,theme,prepared,(prepare_eq_ok_iff.mp prepared).1,compiled,⟨resources,rfl,names⟩,whole,?_⟩
  rw [whole]
  exact Target.names_distinct scanned (Theme.ofTree_eq_ok_iff.mp made).2.1

/-- A request for nothing but a folder in an archive is sound if these are. -/
theorem prepare_plain {input output : String} {place : FilePath} {glob : GlobReader}
    {target : Target} (debug : Bool) (accepted : Target.ofOutput output = .ok target)
    (located : SourceTree.locate fs input = .ok place) :
    (⟨input,output,[],debug,false,none,none,[]⟩ : BuildRequest).prepare fs glob =
      .ok ⟨target,Theme.folderOnly,place,debug⟩ :=
  prepare_eq_ok_iff.mpr ⟨accepted,rfl,rfl,rfl,located,rfl,rfl⟩

def pictureRequest : BuildRequest := ⟨"/theme","T.ReaperThemeZip",[],false,false,none,none,[]⟩

def pictureTarget : Target := ⟨"T.ReaperThemeZip","T"⟩

def pictureMembers : List Member :=
  [⟨"T/a.png",.empty⟩,⟨"T/b.jpg",.empty⟩] ++ pictureTarget.texts Theme.pictureTheme

def pictureThemed (title : String) : Theme :=
  ⟨title,.empty,"zoom 2",⟨Theme.pictureTree.placed title⟩⟩

theorem pictureThemed_resources (title : String) :
    Resources.ofTree title Theme.pictureTree = .ok (pictureThemed title).resources := by
  have apart : title ++ "/" ++ "a.png" ≠ title ++ "/" ++ "b.jpg" := by
    intro same
    exact absurd (SourceTree.member_injective title same) (by decide)
  refine SourceTree.ofTree_eq_ok_iff.mpr ⟨rfl,?_⟩
  rw [Theme.pictureTree_placed]
  simp [apart]

theorem pictureRequest_compiles {output : String} {glob : GlobReader} {target : Target} (debug : Bool)
    (accepted : Target.ofOutput output = .ok target) :
    ({ pictureRequest with output := output, debug := debug } : BuildRequest).Compiles
      Theme.pictureDisk glob ⟨target,Theme.folderOnly,Theme.themeRoot,debug⟩ Theme.pictureTree
      (pictureThemed target.name) where
  prepared := prepare_plain debug accepted
    (SourceTree.locate_eq_ok_iff.mpr ⟨_,Theme.pictureDisk_located,rfl⟩)
  discovered := Theme.pictureDisk_discover
  made := Theme.ofTree_resources Theme.pictureTree_compiled (fun _ => rfl)
    (pictureThemed_resources target.name)

theorem pictureThemed_members (target : Target) :
    target.members Theme.pictureDisk (pictureThemed target.name) = .ok
      ([⟨target.name ++ "/" ++ "a.png",.empty⟩,⟨target.name ++ "/" ++ "b.jpg",.empty⟩] ++
        target.texts (pictureThemed target.name)) := by
  have first : Theme.pictureDisk.resolve (Theme.themeRoot.join "a.png") =
      .ok [.text "theme",.text "a.png"] :=
    FileSystem.resolveWith_below true false (by decide) (by decide) (by decide) (by cbv)
  have second : Theme.pictureDisk.resolve (Theme.themeRoot.join "b.jpg") =
      .ok [.text "theme",.text "b.jpg"] :=
    FileSystem.resolveWith_below true false (by decide) (by decide) (by decide) (by cbv)
  rw [Target.members, pictureThemed, Theme.pictureTree_placed, List.mapM_cons, List.mapM_cons,
    Target.readResource, Target.readResource, FileSystem.read_file first rfl,
    FileSystem.read_file second rfl]
  rfl

theorem pictureRequest_archive {output : String} (target : Target)
    (accepted : Target.ofOutput output = .ok target) (here : target.directory = ".")
    (stepped : FileSystem.steps target.path = [.name target.path])
    (short : target.path.utf8ByteSize ≤ FileSystem.maxName) (noZero : '\x00' ∉ target.path.toList)
    (free : Theme.pictureDisk.node? [.text target.path] = none) :
    (({ pictureRequest with output := output } : BuildRequest).run Theme.pictureDisk).archive =
      some ([⟨target.name ++ "/" ++ "a.png",.empty⟩,⟨target.name ++ "/" ++ "b.jpg",.empty⟩] ++
        target.texts (pictureThemed target.name)) := by
  have able : Host.standard.disk target.path = none := rfl
  have written := Target.write_new here stepped short noZero rfl free able
    (pictureThemed_members target)
  obtain ⟨_,run⟩ := (pictureRequest_compiles false accepted).run_written rfl written
  exact congrArg Outcome.archive run

theorem pictureRequest_run :
    (pictureRequest.run Theme.pictureDisk).archive = some pictureMembers :=
  pictureRequest_archive pictureTarget rfl rfl rfl (by decide) (by decide) rfl

/-- The resources and the texts of that build. -/
theorem pictures_distinct : (pictureRequest.run Theme.pictureDisk).archive = some pictureMembers ∧
    pictureMembers.map Member.name = ["T/a.png","T/b.jpg","T.ReaperTheme","T/rtconfig.txt"] ∧
    (pictureMembers.map Member.name).Nodup := by
  obtain ⟨_,_,_,_,_,_,_,distinct⟩ := run_members_distinct pictureRequest_run
  exact ⟨pictureRequest_run,rfl,distinct⟩

end BuildRequest

end ThemeForge
