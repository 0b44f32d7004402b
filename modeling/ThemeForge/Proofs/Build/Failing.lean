import ThemeForge.Proofs.Archive.Members
import ThemeForge.Proofs.Files.Writing

/-!
# Builds that fail

A build that fails has written no archive. Without loose copies it has written nothing at all; with
them, those before the failure are left where they are, and one that fails can be left empty or cut.
-/

namespace ThemeForge

variable {fs after : FileSystem} {failure : Failure} {host : Host}

namespace SourceTree

def lone (root : FilePath) (name : String) : SourceTree := ⟨root,⟨[],[],[name],[]⟩⟩

variable {name title : String}

theorem lone_dataFolders (root : FilePath) (name : String) :
    (lone root name).dataFolders = [(lone root name).top] := by
  simp [dataFolders, Folder.dataFolders, Folder.breadthFirst, Folder.kept, lone, Folder.isData]

@[simp] theorem lone_fragments (root : FilePath) (name : String) (kind : FragmentKind) :
    (lone root name).fragments kind =
      if FileKind.classify name = .fragment kind then [⟨pathOf root [name],kind,0⟩] else [] := by
  rw [fragments, lone_dataFolders]
  by_cases same : FileKind.classify name = .fragment kind <;> simp [lone, same]

theorem lone_resources (root : FilePath) (name title : String) :
    Resources.ofTree title (lone root name) = .ok .empty := by
  have owned : (lone root name).ownedFiles (lone root name).top = [] := by
    simp [ownedFiles, Folder.ownedFiles, Folder.ownFolders, Folder.breadthFirst, Folder.filesIn,
      lone, Folder.kept]
  have placed : (lone root name).placed title = [] := by
    rw [SourceTree.placed, lone_dataFolders, List.flatMap_singleton, owned]
    rfl
  rw [ofTree_eq_ok_iff, placed]
  exact ⟨rfl,.nil⟩

theorem discover_lone {root : FilePath} {location : Location} {kind : FragmentKind}
    (fragment : FileKind.classify name = .fragment kind) (resolved : fs.resolve root = .ok location)
    (inside : fs.isDirectory location = true)
    (content : fs.content location = [(.text name,.file)]) :
    discover fs root includes = .ok (lone root name) := by
  refine discover_eq_ok_iff.mpr ⟨scan_eq_ok_iff.mpr ⟨rfl,location,resolved,inside,?_⟩,?_⟩
  · rw [content, Folder.ofEntries_file, Folder.ofEntries]
    simp only [Except.map, Folder.addFile, fragment]
    rfl
  · rw [checkOwnership, lone_dataFolders]
    rfl

end SourceTree

theorem Target.write_error {target : Target} {disk : Disk} {theme : Theme}
    (refused : target.write fs disk theme = .error failure) :
    ∃ reason, failure = .archiveWrite target.path reason := by
  rcases bind_error_iff.mp refused with unchecked | ⟨_,_,refused⟩
  · obtain ⟨error,rfl⟩ := mapError_error unchecked
    exact ⟨_,rfl⟩
  · rcases bind_error_iff.mp refused with unpacked | ⟨_,_,refused⟩
    · rcases bind_error_iff.mp unpacked with unread | ⟨_,_,made⟩
      · obtain ⟨resource,_,unread⟩ := mapM_error unread
        unfold readResource at unread
        split at unread
        · cases unread
          exact ⟨_,rfl⟩
        · cases unread
      · cases made
    · rcases bind_error_iff.mp refused with unplaced | ⟨_,_,made⟩
      · obtain ⟨error,rfl⟩ := mapError_error unplaced
        exact ⟨_,rfl⟩
      · cases made

theorem Target.copies_path {target : Target} {theme : Theme} {copy : String × String}
    (listed : copy ∈ target.copies theme) :
    copy.1 = target.settingsCopy ∨ copy.1 = target.directivesCopy := by
  rw [copies, List.mem_cons, List.mem_singleton] at listed
  rcases listed with settings | directives
  · left
    rw [settings]
  · right
    rw [directives]

/-- Loose copies are written only if they are asked for. -/
theorem BuildJob.mem_copies {job : BuildJob} {theme : Theme} {copy : String × String}
    (listed : copy ∈ job.copies theme) : job.debug = true ∧ copy ∈ job.target.copies theme := by
  unfold copies at listed
  split at listed
  · rename_i debug
    exact ⟨debug,listed⟩
  · cases listed

/-- Loose copies that a build leaves behind when it fails: those before one that cannot be written
and what has become of that one, or all of them if the archive cannot be written. -/
inductive BuildRequest.LeavesCopies (r : BuildRequest) (fs : FileSystem) (host : Host) :
    FileSystem → Failure → Prop
  | copy (compiled : r.Compiles fs host.glob job t theme) (asked : r.debug = true)
      (whole : job.target.copies theme = written ++ (path,text) :: missing)
      (copied : fs.writeTexts host.disk written = (between,none))
      (refused : between.write (host.disk path) path text.toUTF8 = (left,some error))
      (spoiled : between.Spoils path text.toUTF8 left) :
      LeavesCopies r fs host left (.fileWrite path error)
  | archive (compiled : r.Compiles fs host.glob job t theme) (asked : r.debug = true)
      (copied : fs.writeTexts host.disk (job.target.copies theme) = (left,none))
      (refused : job.target.write left host.disk theme =
        .error (.archiveWrite job.target.path reason)) :
      LeavesCopies r fs host left (.archiveWrite job.target.path reason)

namespace BuildRequest

variable {r : BuildRequest} {job : BuildJob} {t : SourceTree} {theme : Theme}

/-- What copies change are the files that their paths lead to, under all names of these. -/
theorem Compiles.copies_changed {result : Option Failure}
    (compiled : r.Compiles fs host.glob job t theme) (rooted : fs.Rooted)
    (copied : fs.writeTexts host.disk (job.copies theme) = (after,result)) :
    ∀ location, after.node? location ≠ fs.node? location → r.debug = true ∧
      (∃ target place, Target.ofOutput r.output = .ok target ∧
        (fs.resolveWith true true target.settingsCopy = .ok place ∨
          fs.resolveWith true true target.directivesCopy = .ok place) ∧
        fs.SameFile place location) ∧
      ∃ content number, after.node? location = some (.file content number) := by
  intro location changed
  obtain ⟨accepted,_,_,_,_,_,asked⟩ := prepare_eq_ok_iff.mp compiled.prepared
  obtain ⟨places,filed,sources,_⟩ := FileSystem.writeTexts_written rooted copied
  have among : location ∈ places := by
    by_contra apart
    exact changed (filed.kept location apart)
  obtain ⟨copy,listed,place,resolved,same⟩ := sources location among
  obtain ⟨debug,listed⟩ := BuildJob.mem_copies listed
  refine ⟨asked ▸ debug,⟨job.target,place,accepted,?_,same⟩,(filed.filed location among).2⟩
  rcases Target.copies_path listed with settings | directives
  · rw [settings] at resolved
    exact .inl resolved
  · rw [directives] at resolved
    exact .inr resolved

/-- A build that fails writes no archive. What it leaves behind are loose copies, if they are asked
for and the theme was compiled: those that were written before it failed, and one that was cut if
that is why it failed. Nothing else changes but other names of the same files. -/
theorem run_fails (failed : (r.run fs host).failure = some failure) (rooted : fs.Rooted) :
    (r.run fs host).archive = none ∧
    ((r.run fs host).files = fs ∨ r.LeavesCopies fs host (r.run fs host).files failure) ∧
    ∀ location, (r.run fs host).files.node? location ≠ fs.node? location → r.debug = true ∧
      (∃ target place, Target.ofOutput r.output = .ok target ∧
        (fs.resolveWith true true target.settingsCopy = .ok place ∨
          fs.resolveWith true true target.directivesCopy = .ok place) ∧
        fs.SameFile place location) ∧
      ∃ content number, (r.run fs host).files.node? location = some (.file content number) := by
  have ended := r.run_ends fs host
  generalize r.run fs host = outcome at failed ended ⊢
  cases ended with
  | failed => exact ⟨rfl,.inl rfl,fun location changed => absurd rfl changed⟩
  | @written job t theme _ compiled ends =>
    have asked := (prepare_eq_ok_iff.mp compiled.prepared).2.2.2.2.2.2
    cases ends with
    | stopped stopped =>
      cases failed
      have changed := compiled.copies_changed rooted stopped
      obtain ⟨written,path,text,missing,between,error,whole,copied,refused,rfl⟩ :=
        FileSystem.writeTexts_stopped stopped
      -- A copy that could not be written was one that was asked for.
      have debug : job.debug = true := by
        have listed : (path,text) ∈ job.copies theme := by
          rw [whole]
          exact List.mem_append_right _ List.mem_cons_self
        exact (BuildJob.mem_copies listed).1
      rw [BuildJob.copies, if_pos debug] at whole
      have spoiled := FileSystem.write_spoils refused
      exact ⟨rfl,.inr (.copy compiled (asked ▸ debug) whole copied refused spoiled),changed⟩
    | refused copied refused =>
      cases failed
      refine ⟨rfl,?_,compiled.copies_changed rooted copied⟩
      obtain ⟨reason,rfl⟩ := Target.write_error refused
      cases debug : job.debug with
      | false =>
        rw [BuildJob.copies, debug] at copied
        cases copied
        exact .inl rfl
      | true =>
        rw [BuildJob.copies, if_pos debug] at copied
        exact .inr (.archive compiled (asked ▸ debug) copied refused)
    | done copied written => cases failed

/-- Copies in the working directory are put there, in place of old files or not. -/
theorem pictureTarget_copied {fs : FileSystem} {theme : Theme}
    (inside : fs.isDirectory fs.workingDirectory = true)
    (settings : ∀ node, fs.node? (fs.workingDirectory ++ [.text "T.ReaperTheme"]) = some node →
      ∃ old, node = .file old)
    (directives : ∀ node, fs.node? (fs.workingDirectory ++ [.text "T.rtconfig.txt"]) = some node →
      ∃ old, node = .file old) :
    fs.writeTexts Host.standard.disk (pictureTarget.copies theme) =
      ((fs.put (fs.workingDirectory ++ [.text "T.ReaperTheme"])
        (.file theme.settingsText.toUTF8)).put (fs.workingDirectory ++ [.text "T.rtconfig.txt"])
        (.file theme.directives.toUTF8),none) := by
  have copies : pictureTarget.copies theme =
      [("T.ReaperTheme",theme.settingsText),("T.rtconfig.txt",theme.directives)] := rfl
  have first : fs.write (Host.standard.disk "T.ReaperTheme") "T.ReaperTheme"
      theme.settingsText.toUTF8 = (_,none) :=
    FileSystem.write_here rfl (by decide) (by decide) inside settings
  have inside' : (fs.put (fs.workingDirectory ++ [.text "T.ReaperTheme"])
      (.file theme.settingsText.toUTF8)).isDirectory fs.workingDirectory = true := by
    rw [FileSystem.isDirectory_iff] at inside ⊢
    exact (FileSystem.node?_put_other (by simp)).trans inside
  have second : (fs.put (fs.workingDirectory ++ [.text "T.ReaperTheme"])
      (.file theme.settingsText.toUTF8)).write (Host.standard.disk "T.rtconfig.txt")
      "T.rtconfig.txt" theme.directives.toUTF8 = (_,none) :=
    FileSystem.write_here rfl (by decide) (by decide) inside' fun node there =>
      directives node ((FileSystem.node?_put_other (by simp)).symm.trans there)
  simp only [copies, FileSystem.writeTexts, first, second]
  rfl

def blockedDisk : FileSystem where
  entries := [([.text "theme"],.directory),([.text "theme",.text "rtconfig.txt"],.file .empty),
    ([.text "T.ReaperThemeZip"],.directory)]
  workingDirectory := []

def blockedTree : SourceTree := .lone Theme.themeRoot "rtconfig.txt"

def blockedTheme : Theme := ⟨"T",.empty,"",.empty⟩

def blockedRequest : BuildRequest := { pictureRequest with debug := true }

theorem blockedDisk_rooted : blockedDisk.Rooted := .of_entries rfl (by decide)

theorem blockedDisk_compiles : blockedRequest.Compiles blockedDisk Host.standard.glob
    ⟨pictureTarget,Theme.folderOnly,Theme.themeRoot,true⟩ blockedTree blockedTheme := by
  have named : blockedDisk.resolve "/theme" = .ok (["theme"].map .text) :=
    FileSystem.resolveWith_plain true false rfl (by decide) (by decide) (by decide) (by cbv)
  have resolved : blockedDisk.resolve Theme.themeRoot = .ok [.text "theme"] :=
    FileSystem.resolveWith_below true false (by decide) (by decide) (by decide) rfl
  have fragment : blockedDisk.resolve (.below [.text "theme"] ["rtconfig.txt"]) =
      .ok [.text "theme",.text "rtconfig.txt"] :=
    FileSystem.resolveWith_below true false (by decide) (by decide) (by decide) (by cbv)
  have content : blockedDisk.content [.text "theme"] = [(.text "rtconfig.txt",.file)] := by cbv
  have located : SourceTree.locate blockedDisk "/theme" = .ok Theme.themeRoot :=
    SourceTree.locate_eq_ok_iff.mpr ⟨_,named,rfl⟩
  refine ⟨prepare_plain true rfl located,
    SourceTree.discover_lone classify_directives resolved rfl content,?_⟩
  refine Theme.ofTree_empty rfl (SourceTree.lone_resources _ _ _)
    (by simp [blockedTree, classify_directives]) ?_
  intro entry listed
  simp only [blockedTree, SourceTree.lone_fragments, classify_directives, if_true,
    List.mem_singleton] at listed
  rw [listed]
  exact FileSystem.readText_file fragment rfl (by cbv) (by cbv)

def copiedDisk : FileSystem :=
  (blockedDisk.put [.text "T.ReaperTheme"] (.file "".toUTF8)).put [.text "T.rtconfig.txt"]
    (.file "".toUTF8)

theorem blockedDisk_copied :
    blockedDisk.writeTexts Host.standard.disk (pictureTarget.copies blockedTheme) =
      (copiedDisk,none) :=
  pictureTarget_copied rfl nofun nofun

theorem copiedDisk_write : pictureTarget.write copiedDisk Host.standard.disk blockedTheme =
    .error (.archiveWrite "T.ReaperThemeZip" "Is a directory (os error 21)") := by
  have checked : pictureTarget.checkDirectory copiedDisk = .ok () :=
    Target.checkDirectory_eq_ok_iff.mpr ⟨_,FileSystem.resolve_here rfl,rfl⟩
  have packed : pictureTarget.members copiedDisk blockedTheme =
      .ok (pictureTarget.texts blockedTheme) := rfl
  have place : copiedDisk.resolveWith false true "T.ReaperThemeZip" =
      .ok [.text "T.ReaperThemeZip"] :=
    FileSystem.resolveWith_old rfl (by decide) (by decide) rfl false true rfl (by simp)
  have refused : copiedDisk.replace (Host.standard.disk "T.ReaperThemeZip") "T.ReaperThemeZip"
      (Zip.encode (pictureTarget.texts blockedTheme)) = .error .isDirectory := by
    rw [FileSystem.replace, place]
    rfl
  have path : pictureTarget.path = "T.ReaperThemeZip" := rfl
  rw [Target.write, checked, packed]
  simp only [bind, Except.bind, Except.mapError, path, refused]
  rfl

theorem blockedRequest_run : ∃ printed, blockedRequest.run blockedDisk =
    .failed copiedDisk printed blockedTree.orphans
      (.archiveWrite "T.ReaperThemeZip" "Is a directory (os error 21)") := by
  have copies : (⟨pictureTarget,Theme.folderOnly,Theme.themeRoot,true⟩ : BuildJob).copies
      blockedTheme = pictureTarget.copies blockedTheme := rfl
  rw [blockedDisk_compiles.run_eq]
  simp only [BuildJob.write, copies, blockedDisk_copied, copiedDisk_write]
  exact ⟨_,rfl⟩

/-- A build whose archive cannot be put in place has left two copies behind. -/
theorem blocked_leaves : ∃ failure, (blockedRequest.run blockedDisk).failure = some failure ∧
    blockedDisk.node? [.text "T.ReaperTheme"] = none ∧
    (blockedRequest.run blockedDisk).files.node? [.text "T.ReaperTheme"] =
      some (.file "".toUTF8) := by
  obtain ⟨_,run⟩ := blockedRequest_run
  rw [run]
  exact ⟨_,rfl,rfl,rfl⟩

/-- It has written no archive, and what it has written are those copies. -/
theorem blocked_fails : ∃ failure, (blockedRequest.run blockedDisk).failure = some failure ∧
    blockedDisk.Rooted ∧ (blockedRequest.run blockedDisk).archive = none ∧
    blockedRequest.LeavesCopies blockedDisk .standard (blockedRequest.run blockedDisk).files
      failure := by
  obtain ⟨_,run⟩ := blockedRequest_run
  have failed : (blockedRequest.run blockedDisk).failure = some _ := congrArg Outcome.failure run
  obtain ⟨none,left,_⟩ := run_fails failed blockedDisk_rooted
  refine ⟨_,failed,blockedDisk_rooted,none,left.resolve_left ?_⟩
  rw [run]
  intro same
  have there := congrArg (fun fs => fs.node? [.text "T.ReaperTheme"]) same
  cases there

end BuildRequest

end ThemeForge
