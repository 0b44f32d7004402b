import ThemeForge.Proofs.Build.Failing
import ThemeForge.Proofs.Folder.Rescanning

/-!
# Building again

A build that keeps apart from what it reads can be repeated. None of the files that it read has
changed, and the second build writes an archive with the same members.
-/

namespace ThemeForge

/-- The places that a build writes to: that of the archive, which takes the place of a link, and all
names of the files that the paths of the loose copies lead to. -/
inductive BuildJob.Writes (job : BuildJob) (fs : FileSystem) : Location → Prop
  | archive (resolved : fs.resolveWith false true job.target.path = .ok location) :
      Writes job fs location
  | settings (asked : job.debug = true)
      (resolved : fs.resolveWith true true job.target.settingsCopy = .ok place)
      (same : fs.SameFile place location) : Writes job fs location
  | directives (asked : job.debug = true)
      (resolved : fs.resolveWith true true job.target.directivesCopy = .ok place)
      (same : fs.SameFile place location) : Writes job fs location

namespace BuildRequest

/-- The files that a build reads: both tables, all fragments and the resources of the theme. -/
inductive Reads (r : BuildRequest) (job : BuildJob) (t : SourceTree) : FilePath → Prop
  | constants (given : r.constants = some path) : Reads r job t (.given path)
  | presets (given : r.presets = some path) : Reads r job t (.given path)
  | fragment (listed : fragment ∈ t.fragments kind) : Reads r job t fragment.path
  | resource (placed : resource ∈ t.placed job.target.name) : Reads r job t resource.source

/-- The paths that a build uses, and whether a link at the end of one is followed. -/
inductive Uses (r : BuildRequest) (job : BuildJob) (t : SourceTree) : Bool → FilePath → Prop
  | reads (reads : r.Reads job t path) : Uses r job t true path
  | input : Uses r job t true r.input
  | folder : Uses r job t true job.input
  | directory : Uses r job t true job.target.directory
  | archive : Uses r job t false job.target.path
  | settings (asked : job.debug = true) : Uses r job t true job.target.settingsCopy
  | directives (asked : job.debug = true) : Uses r job t true job.target.directivesCopy

/-- The links that a build follows: on the way of a path that it uses, into a directory of its
folder, and on the way of a link in the folder. -/
inductive Follows (r : BuildRequest) (fs : FileSystem) (job : BuildJob) (t : SourceTree) :
    Location → Prop
  | path (uses : r.Uses job t followLast path)
      (reaches : fs.Reaches followLast true path place followed) (among : link ∈ followed) :
      Follows r fs job t link
  | entry (located : fs.resolve job.input = .ok top) (scans : fs.Scans top directory below)
      (isLink : fs.node? (directory ++ [name]) = some (.link target))
      (led : fs.follow directory target = .ok there) (inside : fs.isDirectory there = true) :
      Follows r fs job t (directory ++ [name])
  | target (located : fs.resolve job.input = .ok top) (scans : fs.Scans top directory below)
      (isLink : fs.node? (directory ++ [name]) = some (.link target))
      (leads : fs.Leads true false (FileSystem.maxLinks - 1) directory (FileSystem.steps target)
        there followed) (among : link ∈ followed) : Follows r fs job t link

/-- A build keeps apart from what it reads: it writes to no file that it reads, replaces no link
that it follows, and what is new in its folder are resources that are left out or have no owner. -/
structure Apart (r : BuildRequest) (fs : FileSystem) (job : BuildJob) (t : SourceTree) : Prop where
  reads : ∀ path place, r.Reads job t path → fs.resolveWith true true path = .ok place →
    ¬job.Writes fs place
  links : ∀ link, r.Follows fs job t link → ¬job.Writes fs link
  entries : ∀ top directory below name, fs.resolve job.input = .ok top →
    fs.Scans top directory below → job.Writes fs (directory ++ [.text name]) →
    fs.node? (directory ++ [.text name]) = none →
    Folder.Ignored job.options.filter.includes t.unowned below name

end BuildRequest

section

variable {fs between after : FileSystem} {job : BuildJob} {theme : Theme} {members : List Member}
  {places : List Location} {place location : Location} {disk : Disk}

/-- What a build left behind: files at all of its places. -/
structure BuildJob.Left (job : BuildJob) (theme : Theme) (fs after : FileSystem)
    (places : List Location) : Prop where
  written : fs.Written after places
  writes : ∀ l ∈ places, job.Writes fs l
  copies : ∀ copy ∈ job.copies theme, ∃ place ∈ places,
    fs.resolveWith true true copy.1 = .ok place ∧ ∀ l, after.SameFile place l → l ∈ places
  archive : ∃ l ∈ places, fs.resolveWith false true job.target.path = .ok l

theorem BuildJob.Writes.text_end (writes : job.Writes fs location) (rooted : fs.Rooted)
    (free : fs.node? location = none) : ∃ directory name, location = directory ++ [.text name] := by
  have start : fs.node? fs.workingDirectory ≠ none := by
    rw [FileSystem.isDirectory_iff.mp rooted.here]
    nofun
  cases writes with
  | archive resolved =>
    obtain ⟨_,reaches⟩ := FileSystem.resolveWith_eq_ok_iff.mp resolved
    exact reaches.leads.text_end rooted start free
  | settings _ resolved same | directives _ resolved same =>
    -- A file that is new has no other name.
    cases same.symm.eq_of_unnumbered (FileSystem.number?_free free)
    obtain ⟨_,reaches⟩ := FileSystem.resolveWith_eq_ok_iff.mp resolved
    exact reaches.leads.text_end rooted start free

theorem BuildJob.writes_copy (copy : String × String) (listed : copy ∈ job.copies theme)
    (resolved : fs.resolveWith true true copy.1 = .ok place) (same : fs.SameFile place location) :
    job.Writes fs location := by
  obtain ⟨debug,listed⟩ := mem_copies listed
  rcases Target.copies_path listed with settings | directives
  · exact .settings debug (settings ▸ resolved) same
  · exact .directives debug (directives ▸ resolved) same

/-- The archive is put where its path led at first. -/
theorem BuildJob.archive_place (written : fs.Written between places)
    (unlinked : ∀ l ∈ places, ∀ target, fs.node? l ≠ some (.link target))
    (packed : job.target.write between disk theme = .ok (after,members)) :
    ∃ l, fs.resolveWith false true job.target.path = .ok l ∧ between.Written after [l] := by
  obtain ⟨_,_,replaced⟩ := Target.write_eq_ok_iff.mp packed
  obtain ⟨l,resolved,vacant,_,rfl⟩ := FileSystem.replace_eq_ok_iff.mp replaced
  exact ⟨l,written.resolveWith_before unlinked resolved,.put vacant _⟩

/-- The copies that a build wrote are at its places, none of which was a link. -/
theorem BuildJob.copies_places (rooted : fs.Rooted)
    (copied : fs.writeTexts disk (job.copies theme) = (between,none)) :
    ∃ places, fs.Written between places ∧
      (∀ l ∈ places, job.Writes fs l ∧ ∀ target, fs.node? l ≠ some (.link target)) ∧
      ∀ copy ∈ job.copies theme, ∃ place ∈ places, fs.resolveWith true true copy.1 = .ok place ∧
        ∀ l, between.SameFile place l → l ∈ places := by
  obtain ⟨places,written,sources,copies⟩ := FileSystem.writeTexts_written rooted copied
  refine ⟨places,written,?_,copies rfl⟩
  intro l among
  obtain ⟨copy,listed,place,resolved,same⟩ := sources l among
  exact ⟨job.writes_copy copy listed resolved same,
    same.unlinked (FileSystem.resolveWith_unlinked resolved rooted)⟩

theorem BuildJob.left (rooted : fs.Rooted)
    (copied : fs.writeTexts disk (job.copies theme) = (between,none))
    (packed : job.target.write between disk theme = .ok (after,members)) :
    ∃ places, job.Left theme fs after places := by
  obtain ⟨places,written,writes,copies⟩ := job.copies_places rooted copied
  obtain ⟨place,resolved,last⟩ :=
    job.archive_place written (fun l among => (writes l among).2) packed
  refine ⟨places ++ [place],written.trans last,?_,?_,place,by simp,resolved⟩
  · intro l among
    rcases List.mem_append.mp among with copy | archive
    · exact (writes l copy).1
    · cases List.mem_singleton.mp archive
      exact .archive resolved
  · intro copy listed
    obtain ⟨l,among,place,names⟩ := copies copy listed
    exact ⟨l,List.mem_append_left _ among,place,fun other same =>
      List.mem_append_left _ (names other (last.sameFile same))⟩

end

namespace BuildRequest

variable {r : BuildRequest} {fs between after : FileSystem} {job : BuildJob} {t other : SourceTree}
  {theme : Theme} {members : List Member} {places : List Location} {path : FilePath} {host : Host}

theorem Apart.read_before (apart : r.Apart fs job t) (compiled : r.Compiles fs host.glob job t theme)
    (rooted : fs.Rooted) (copied : fs.writeTexts host.disk (job.copies theme) = (between,none))
    (packed : job.target.write between host.disk theme = .ok (after,members))
    (reads : r.Reads job t path) : ∃ content, fs.read path = .ok content := by
  obtain ⟨_,_,_,loaded,_⟩ := prepare_eq_ok_iff.mp compiled.prepared
  obtain ⟨constants,first,loaded⟩ := bind_ok_iff.mp loaded
  obtain ⟨presets,second,_⟩ := bind_ok_iff.mp loaded
  cases reads with
  | constants given => exact Settings.load_read first given
  | presets given => exact Settings.load_read second given
  | fragment listed =>
    obtain ⟨text,read⟩ := Theme.ofTree_fragments compiled.made _ _ listed
    exact FileSystem.readText_read read
  | @resource resource placed =>
    -- Resources are read after the copies were written, which are at other places.
    obtain ⟨places,written,writes,_⟩ := job.copies_places rooted copied
    obtain ⟨_,resources,_⟩ := Theme.ofTree_eq_ok_iff.mp compiled.made
    obtain ⟨_,whole,_⟩ := Target.write_eq_ok_iff.mp packed
    obtain ⟨_,all,_⟩ := bind_ok_iff.mp whole
    rw [(SourceTree.ofTree_eq_ok_iff.mp resources).1] at all
    obtain ⟨member,done⟩ := mapM_each all resource placed
    obtain ⟨content,read⟩ := Target.readResource_read done
    refine ⟨content,written.read_before (fun l among => (writes l among).2) ?_ read⟩
    intro place resolved among
    exact apart.reads _ place (.resource placed) resolved (writes place among).1

namespace Apart

variable (apart : r.Apart fs job t) (writes : ∀ l ∈ places, job.Writes fs l)

include apart writes

theorem untouched (uses : r.Uses job t followLast path) : fs.Untouched places followLast path :=
  fun _ _ reaches link among touched =>
    apart.links link (.path uses reaches among) (writes link touched)

theorem read_eq (written : fs.Written after places) (reads : r.Reads job t path)
    (there : ∃ content, fs.read path = .ok content) : after.read path = fs.read path := by
  obtain ⟨content,before⟩ := there
  rw [before]
  refine written.read (apart.untouched writes (.reads reads)) ?_ before
  intro place resolved among
  exact apart.reads path place reads resolved (writes place among)

theorem aside (rooted : fs.Rooted) (located : fs.resolve job.input = .ok top) :
    fs.Aside top job.options.filter.includes t.unowned places where
  entry directory below name target there scans isLink led inside among :=
    apart.links _ (.entry located scans isLink led inside) (writes _ among)
  target directory below name target there followed scans isLink leads link among touched :=
    apart.links link (.target located scans isLink leads among) (writes link touched)
  new directory below name scans among free := by
    obtain ⟨before,s,same⟩ := (writes _ among).text_end rooted free
    obtain ⟨rfl,last⟩ := List.append_inj' same rfl
    cases last
    exact ⟨s,rfl,apart.entries top _ below s located scans (writes _ among) free⟩

end Apart

theorem Apart.prepare_again (apart : r.Apart fs job t) (left : job.Left theme fs after places)
    (prepared : r.prepare fs glob = .ok job)
    (same : ∀ path, r.Reads job t path → after.read path = fs.read path) :
    r.prepare after glob = .ok job := by
  obtain ⟨accepted,parsed,chosen,loaded,located,rest⟩ := prepare_eq_ok_iff.mp prepared
  refine prepare_eq_ok_iff.mpr ⟨accepted,parsed,chosen,?_,?_,rest⟩
  · have constants := Settings.load_congr fun path given => same path (.constants given)
    have presets := Settings.load_congr fun path given => same path (.presets given)
    rw [← loaded, Tables.load, Tables.load, constants, presets]
  · obtain ⟨place,resolved,shown⟩ := SourceTree.locate_eq_ok_iff.mp located
    exact SourceTree.locate_eq_ok_iff.mpr
      ⟨place,left.written.resolveWith (apart.untouched left.writes .input) resolved,shown⟩

theorem Apart.compiles_again (apart : r.Apart fs job t) (left : job.Left theme fs after places)
    (rooted : fs.Rooted) (compiled : r.Compiles fs glob job t theme)
    (same : ∀ path, r.Reads job t path → after.read path = fs.read path) :
    ∃ other, r.Compiles after glob job other theme := by
  obtain ⟨prepared,discovered,made⟩ := compiled
  obtain ⟨scanned,_⟩ := SourceTree.discover_eq_ok_iff.mp discovered
  obtain ⟨_,top,located,_⟩ := SourceTree.scan_eq_ok_iff.mp scanned
  have untouched := apart.untouched left.writes .folder
  obtain ⟨other,again,alike⟩ := SourceTree.discover_again left.written discovered located untouched
    (apart.aside left.writes rooted located)
  refine ⟨other,apart.prepare_again left prepared same,again,?_⟩
  obtain ⟨named,resources,_⟩ := Theme.ofTree_eq_ok_iff.mp made
  obtain ⟨_,_,_,listed⟩ := SourceTree.scan_listed scanned
  obtain ⟨_,_,_,relisted⟩ := SourceTree.scan_listed (SourceTree.discover_eq_ok_iff.mp again).1
  have fragments := SourceTree.fragments_alike alike
  have placed : Resources.ofTree job.target.name other = .ok theme.resources := by
    rw [SourceTree.ofTree_eq_ok_iff, SourceTree.placed_alike alike listed relisted]
    exact SourceTree.ofTree_eq_ok_iff.mp resources
  have remade := Theme.ofTree_resources made fragments placed
  rw [← named] at remade ⊢
  refine (Theme.ofTree_congr ?_).trans remade
  intro kind fragment listed
  rw [fragments] at listed
  exact FileSystem.readText_congr (same _ (.fragment listed))

theorem Apart.write_again (apart : r.Apart fs job t) (left : job.Left theme fs after places)
    (unlinked : ∀ l ∈ copies, ∀ target, fs.node? l ≠ some (.link target))
    (copied : fs.Written between copies)
    (packed : job.target.write between disk theme = .ok (last,members))
    (same : ∀ resource ∈ theme.resources.entries,
      after.read resource.source = between.read resource.source)
    (able : later job.target.path = none) :
    ∃ again, job.target.write after later theme = .ok (again,members) := by
  obtain ⟨checked,whole,_⟩ := Target.write_eq_ok_iff.mp packed
  obtain ⟨place,among,resolved⟩ := left.archive
  have vacant : after.isDirectory place = false := by
    rw [left.written.isDirectory]
    exact (left.written.filed place among).1
  have free := left.written.resolveWith (apart.untouched left.writes .archive) resolved
  have replaced : after.replace (later job.target.path) job.target.path (Zip.encode members) =
      .ok _ :=
    FileSystem.replace_eq_ok_iff.mpr ⟨place,free,vacant,able,rfl⟩
  refine ⟨_,Target.write_eq_ok_iff.mpr ⟨?_,?_,replaced⟩⟩
  · obtain ⟨place,resolved,directory⟩ := Target.checkDirectory_eq_ok_iff.mp checked
    have inside := (copied.isDirectory place).symm.trans directory
    -- The copies made no directory, so it was there from the start.
    have before : fs.resolve job.target.directory = .ok place := by
      refine FileSystem.resolveWith_existing (copied.resolveWith_before unlinked resolved) ?_
      rw [FileSystem.isDirectory_iff.mp inside]
      nofun
    exact Target.checkDirectory_eq_ok_iff.mpr
      ⟨place,left.written.resolveWith (apart.untouched left.writes .directory) before,
        (left.written.isDirectory place).trans inside⟩
  · rw [Target.members_congr same, whole]

theorem Apart.copy_again (apart : r.Apart fs job t) (left : job.Left theme fs after places)
    (rooted : fs.Rooted) (able : ∀ path, disk path = none) :
    ∃ later, after.writeTexts disk (job.copies theme) = (later,none) ∧
      job.Left theme fs later places := by
  have each : ∀ copy ∈ job.copies theme, ∃ place ∈ places,
      (∀ l, after.SameFile place l → l ∈ places) ∧ ∃ followed,
        fs.Reaches true true copy.1 place followed ∧ ∀ link ∈ followed, link ∉ places := by
    intro copy listed
    have uses : r.Uses job t true copy.1 := by
      obtain ⟨debug,listed⟩ := BuildJob.mem_copies listed
      rcases Target.copies_path listed with settings | directives
      · exact settings ▸ .settings debug
      · exact directives ▸ .directives debug
    obtain ⟨place,among,resolved,names⟩ := left.copies copy listed
    obtain ⟨followed,reaches⟩ := FileSystem.resolveWith_eq_ok_iff.mp resolved
    exact ⟨place,among,names,followed,reaches,
      apart.untouched left.writes uses place followed reaches⟩
  obtain ⟨later,copied,written⟩ := left.written.writeTexts able each
  obtain ⟨_,rewritten,_⟩ := FileSystem.writeTexts_written (rooted.written left.written) copied
  refine ⟨later,copied,{ left with written := written, copies := ?_ }⟩
  intro copy listed
  obtain ⟨place,among,resolved,names⟩ := left.copies copy listed
  exact ⟨place,among,resolved,fun l same => names l (rewritten.sameFile same)⟩

/-- A build that succeeds and keeps apart from what it reads has left all files that it read as they
were. The same build again, with a disk that takes all that is written, succeeds and writes an
archive with the same members. -/
theorem run_again {again : Host} (built : (r.run fs host).failure = none) (rooted : fs.Rooted)
    (prepared : r.prepare fs host.glob = .ok job)
    (discovered : SourceTree.discover fs job.input job.options.filter.includes = .ok t)
    (apart : r.Apart fs job t) (patterns : again.glob = host.glob)
    (able : ∀ path, again.disk path = none) :
    (∀ path, r.Reads job t path → ∃ content,
      fs.read path = .ok content ∧ (r.run fs host).files.read path = .ok content) ∧
    ∃ members, (r.run fs host).archive = some members ∧
      (r.run (r.run fs host).files again).failure = none ∧
      (r.run (r.run fs host).files again).archive = some members := by
  have ended := r.run_ends fs host
  generalize r.run fs host = outcome at built ended ⊢
  cases ended with
  | failed => cases built
  | @written job' t' theme _ compiled ends =>
    cases Except.ok.inj (compiled.prepared.symm.trans prepared)
    cases Except.ok.inj (compiled.discovered.symm.trans discovered)
    cases ends with
    | stopped copied => cases built
    | refused copied refused => cases built
    | @done between after members printed skipped copied packed =>
      obtain ⟨places,left⟩ := job.left rooted copied packed
      obtain ⟨copies,first,copiesAt,_⟩ := job.copies_places rooted copied
      have read : ∀ path, r.Reads job t path → ∃ content, fs.read path = .ok content :=
        fun path reads => apart.read_before compiled rooted copied packed reads
      have same : ∀ path, r.Reads job t path → after.read path = fs.read path :=
        fun path reads => apart.read_eq left.writes left.written reads (read path reads)
      obtain ⟨other,recompiled⟩ := apart.compiles_again left rooted compiled same
      obtain ⟨later,recopied,left'⟩ := apart.copy_again left rooted able
      obtain ⟨_,resources,_⟩ := Theme.ofTree_eq_ok_iff.mp compiled.made
      -- Both runs read the resources after their copies were written.
      have sources : ∀ resource ∈ theme.resources.entries,
          later.read resource.source = between.read resource.source := by
        intro resource listed
        rw [(SourceTree.ofTree_eq_ok_iff.mp resources).1] at listed
        have reads : r.Reads job t resource.source := .resource listed
        rw [apart.read_eq left'.writes left'.written reads (read _ reads),
          apart.read_eq (fun l among => (copiesAt l among).1) first reads (read _ reads)]
      obtain ⟨_,repacked⟩ := apart.write_again left' (fun l among => (copiesAt l among).2) first
        packed sources (able _)
      rw [← patterns] at recompiled
      obtain ⟨_,run⟩ := recompiled.run_written recopied repacked
      refine ⟨?_,members,rfl,?_,?_⟩
      · intro path reads
        obtain ⟨content,before⟩ := read path reads
        exact ⟨content,before,before ▸ same path reads⟩
      · rw [run]
      · rw [run]

def copyingRequest : BuildRequest := { pictureRequest with debug := true }

def copyingJob : BuildJob := ⟨pictureTarget,Theme.folderOnly,Theme.themeRoot,true⟩

theorem copyingRequest_compiles : copyingRequest.Compiles Theme.pictureDisk Host.standard.glob
    copyingJob Theme.pictureTree (pictureThemed "T") :=
  pictureRequest_compiles true (rfl : Target.ofOutput "T.ReaperThemeZip" = .ok pictureTarget)

theorem pictureDisk_rooted : Theme.pictureDisk.Rooted := .of_entries rfl (by decide)

theorem pictureDisk_unlinked : ∀ l target, Theme.pictureDisk.node? l ≠ some (.link target) := by
  intro l target isLink
  by_cases root : l = []
  · rw [root] at isLink
    cases isLink
  · have listed := FileSystem.mem_entries root isLink
    simp [Theme.pictureDisk] at listed

theorem copying_places (writes : copyingJob.Writes Theme.pictureDisk location) :
    location ∈ [[.text "T.ReaperThemeZip"],[.text "T.ReaperTheme"],[.text "T.rtconfig.txt"]] := by
  cases writes with
  | archive resolved =>
    have there : Theme.pictureDisk.resolveWith false true copyingJob.target.path = _ :=
      FileSystem.resolveWith_new rfl (by decide) (by decide) rfl false rfl
    cases resolved.symm.trans there
    decide
  | settings _ resolved same =>
    have path : copyingJob.target.settingsCopy = "T.ReaperTheme" := rfl
    rw [path, FileSystem.resolveWith_new rfl (by decide) (by decide) rfl true rfl] at resolved
    cases resolved
    cases same.eq_of_unnumbered rfl
    decide
  | directives _ resolved same =>
    have path : copyingJob.target.directivesCopy = "T.rtconfig.txt" := rfl
    rw [path, FileSystem.resolveWith_new rfl (by decide) (by decide) rfl true rfl] at resolved
    cases resolved
    cases same.eq_of_unnumbered rfl
    decide

theorem copying_scans (scans : Theme.pictureDisk.Scans [.text "theme"] directory below) :
    directory = [.text "theme"] := by
  induction scans with
  | top => rfl
  | enter scans enters ih =>
    cases enters with
    | directory inside =>
      have listed := FileSystem.mem_entries (by simp) inside
      simp [ih, Theme.pictureDisk] at listed
    | link isLink => exact absurd isLink (pictureDisk_unlinked _ _)

theorem copying_reads (reads : copyingRequest.Reads copyingJob Theme.pictureTree path) :
    ∃ name ∈ ["rtconfig.txt","a.png","b.jpg"], path = .below [.text "theme"] [name] := by
  cases reads with
  | constants given => cases given
  | presets given => cases given
  | @fragment kind fragment listed =>
    rw [SourceTree.fragments, Theme.pictureTree_dataFolders] at listed
    cases kind with
    | settings => cases listed
    | directives =>
      cases List.mem_singleton.mp listed
      decide
  | resource placed =>
    rw [Theme.pictureTree_placed, List.mem_cons, List.mem_singleton] at placed
    rcases placed with rfl | rfl <;> decide

theorem copying_resolve (listed : name ∈ ["rtconfig.txt","a.png","b.jpg"]) :
    Theme.pictureDisk.resolveWith true create (.below [.text "theme"] [name]) =
      .ok [.text "theme",.text name] := by
  simp only [List.mem_cons, List.not_mem_nil, or_false] at listed
  rcases listed with rfl | rfl | rfl
  all_goals
    exact FileSystem.resolveWith_below true create (by decide) (by decide) (by decide) (by cbv)

theorem copying_apart : copyingRequest.Apart Theme.pictureDisk copyingJob Theme.pictureTree where
  reads path place reads resolved writes := by
    obtain ⟨name,listed,rfl⟩ := copying_reads reads
    rw [copying_resolve listed] at resolved
    cases resolved
    have root := copying_places writes
    simp at root
  links link follows writes := by
    cases follows with
    | path uses reaches among =>
      rw [reaches.leads.unfollowed pictureDisk_unlinked] at among
      cases among
    | entry located scans isLink | target located scans isLink =>
      exact absurd isLink (pictureDisk_unlinked _ _)
  entries top directory below name located scans writes free := by
    have folder : copyingJob.input = Theme.themeRoot := rfl
    rw [folder, Theme.pictureDisk_resolve] at located
    cases located
    rw [copying_scans scans] at writes
    have root := copying_places writes
    simp at root

def copiedPictures : FileSystem :=
  (Theme.pictureDisk.put [.text "T.ReaperTheme"] (.file "".toUTF8)).put [.text "T.rtconfig.txt"]
    (.file "zoom 2".toUTF8)

theorem copying_copied : Theme.pictureDisk.writeTexts Host.standard.disk
    (copyingJob.copies (pictureThemed "T")) = (copiedPictures,none) :=
  pictureTarget_copied rfl nofun nofun

theorem copying_written : ∃ after, pictureTarget.write copiedPictures Host.standard.disk
    (pictureThemed "T") = .ok (after,pictureMembers) := by
  obtain ⟨places,written,writes,_⟩ := copyingJob.copies_places pictureDisk_rooted copying_copied
  have same : ∀ resource ∈ (pictureThemed "T").resources.entries,
      copiedPictures.read resource.source = Theme.pictureDisk.read resource.source := by
    intro resource listed
    have reads : copyingRequest.Reads copyingJob Theme.pictureTree resource.source :=
      .resource listed
    obtain ⟨name,among,path⟩ := copying_reads reads
    simp only [List.mem_cons, List.not_mem_nil, or_false] at among
    refine copying_apart.read_eq (fun l among => (writes l among).1) written reads ?_
    rw [path]
    rcases among with rfl | rfl | rfl <;>
      exact ⟨_,FileSystem.read_file (copying_resolve (by decide)) rfl⟩
  have packed : pictureTarget.members copiedPictures (pictureThemed "T") = .ok pictureMembers :=
    (Target.members_congr same).trans (pictureThemed_members pictureTarget)
  exact ⟨_,Target.write_new rfl rfl (by decide) (by decide) rfl rfl rfl packed⟩

theorem copying_run : ∃ after printed, copyingRequest.run Theme.pictureDisk =
    ⟨after,printed,Theme.pictureTree.orphans,some pictureMembers,none⟩ := by
  obtain ⟨after,written⟩ := copying_written
  exact ⟨after,copyingRequest_compiles.run_written copying_copied written⟩

/-- The pictures are built twice. -/
theorem pictures_again : (copyingRequest.run Theme.pictureDisk).failure = none ∧
    Theme.pictureDisk.Rooted ∧ copyingRequest.Apart Theme.pictureDisk copyingJob Theme.pictureTree ∧
    (∀ path, Host.standard.disk path = none) ∧
    (copyingRequest.run (copyingRequest.run Theme.pictureDisk).files).archive =
      some pictureMembers := by
  obtain ⟨after,printed,run⟩ := copying_run
  have built : (copyingRequest.run Theme.pictureDisk).failure = none := by rw [run]
  obtain ⟨prepared,discovered,_⟩ := copyingRequest_compiles
  have able : ∀ path, Host.standard.disk path = none := fun _ => rfl
  obtain ⟨_,members,first,_,second⟩ :=
    run_again built pictureDisk_rooted prepared discovered copying_apart rfl able
  refine ⟨built,pictureDisk_rooted,copying_apart,able,?_⟩
  rw [second, ← first, run]

def handDisk : FileSystem where
  entries := [([.text "theme"],.directory),
    ([.text "theme",.text "T.ReaperTheme"],.file "; by hand\n".toUTF8)]
  workingDirectory := [.text "theme"]

def handTree : SourceTree := .lone Theme.themeRoot "T.ReaperTheme"

def handRequest : BuildRequest := ⟨".","T.ReaperThemeZip",[],true,false,none,none,[]⟩

theorem handDisk_rooted : handDisk.Rooted := .of_entries rfl (by decide)

theorem classify_settings : FileKind.classify "T.ReaperTheme" = .fragment .settings := rfl

theorem handTree_settings :
    handTree.fragments .settings = [⟨.below [.text "theme"] ["T.ReaperTheme"],.settings,0⟩] := by
  rw [handTree, SourceTree.lone_fragments, if_pos classify_settings]
  rfl

theorem handDisk_resolve : handDisk.resolve (.below [.text "theme"] ["T.ReaperTheme"]) =
    .ok [.text "theme",.text "T.ReaperTheme"] :=
  FileSystem.resolveWith_below true false (by decide) (by decide) (by decide) (by cbv)

theorem handDisk_compiles : handRequest.Compiles handDisk Host.standard.glob copyingJob handTree
    blockedTheme := by
  have resolved : handDisk.resolve Theme.themeRoot = .ok [.text "theme"] :=
    FileSystem.resolveWith_below true false (by decide) (by decide) (by decide) rfl
  have content : handDisk.content [.text "theme"] = [(.text "T.ReaperTheme",.file)] := by cbv
  have located : SourceTree.locate handDisk "." = .ok Theme.themeRoot :=
    SourceTree.locate_eq_ok_iff.mpr ⟨_,FileSystem.resolve_here rfl,rfl⟩
  refine ⟨prepare_plain true rfl located,
    SourceTree.discover_lone classify_settings resolved rfl content,?_⟩
  refine Theme.ofTree_empty rfl (SourceTree.lone_resources _ _ _) ?_
    (by simp [handTree, classify_settings])
  intro entry listed
  rw [handTree_settings, List.mem_singleton] at listed
  have read : handDisk.readText (.below [.text "theme"] ["T.ReaperTheme"]) = .ok "; by hand\n" :=
    FileSystem.readText_file handDisk_resolve rfl (by cbv) (by cbv)
  have parsed : Settings.parseFrom "/theme/T.ReaperTheme" "; by hand\n" = .ok .empty := by cbv
  rw [listed, FragmentFile.settings, read]
  exact parsed

def copiedHand : FileSystem :=
  (handDisk.put [.text "theme",.text "T.ReaperTheme"] (.file "".toUTF8)).put
    [.text "theme",.text "T.rtconfig.txt"] (.file "".toUTF8)

theorem handDisk_copied :
    handDisk.writeTexts Host.standard.disk (copyingJob.copies blockedTheme) = (copiedHand,none) := by
  refine pictureTarget_copied rfl ?_ nofun
  intro node there
  cases there
  exact ⟨_,rfl⟩

def packedHand : FileSystem :=
  copiedHand.put [.text "theme",.text "T.ReaperThemeZip"]
    (.file (Zip.encode (pictureTarget.texts blockedTheme)))

def packedTree : SourceTree :=
  ⟨Theme.themeRoot,⟨[],["T.ReaperThemeZip"],["T.ReaperTheme","T.rtconfig.txt"],[]⟩⟩

theorem handDisk_run : ∃ printed, handRequest.run handDisk =
    ⟨packedHand,printed,handTree.orphans,some (pictureTarget.texts blockedTheme),none⟩ := by
  have packed : pictureTarget.members copiedHand blockedTheme =
      .ok (pictureTarget.texts blockedTheme) := rfl
  exact handDisk_compiles.run_written handDisk_copied
    (Target.write_new rfl rfl (by decide) (by decide) rfl rfl rfl packed)

theorem packedHand_content : packedHand.content [.text "theme"] =
    [(.text "T.ReaperTheme",.file),(.text "T.ReaperThemeZip",.file),
      (.text "T.rtconfig.txt",.file)] := by
  have names : packedHand.names [.text "theme"] =
      ["T.ReaperTheme","T.ReaperThemeZip","T.rtconfig.txt"].map .text := by
    refine FileSystem.names_of_sorted ?_ (by decide)
    exact .cons _ (.swap _ _ _)
  rw [FileSystem.content_files, names]
  · rfl
  · intro name listed
    simp only [names, List.map_cons, List.map_nil, List.mem_cons, List.not_mem_nil,
      or_false] at listed
    rcases listed with rfl | rfl | rfl <;> exact ⟨_,rfl⟩

theorem packedHand_scan :
    SourceTree.scan packedHand Theme.themeRoot (fun _ => true) = .ok packedTree := by
  have resolved : packedHand.resolve Theme.themeRoot = .ok [.text "theme"] :=
    FileSystem.resolveWith_below true false (by decide) (by decide) (by decide) rfl
  refine SourceTree.scan_eq_ok_iff.mpr ⟨rfl,_,resolved,rfl,?_⟩
  simp only [packedHand_content, Folder.ofEntries_file, Folder.ofEntries]
  rfl

theorem packedTree_placed (title : String) : packedTree.placed title =
    [⟨title ++ "/" ++ "T.ReaperThemeZip",.below [.text "theme"] ["T.ReaperThemeZip"]⟩] := by
  have data : packedTree.dataFolders = [packedTree.top] := by
    simp [SourceTree.dataFolders, Folder.dataFolders, Folder.breadthFirst, Folder.kept, packedTree,
      Folder.isData]
  have own : packedTree.top.ownFolders = [packedTree.top] := by
    simp [Folder.ownFolders, Folder.breadthFirst, Folder.kept, packedTree]
  rw [SourceTree.placed, data, List.flatMap_singleton, SourceTree.ownedFiles, Folder.ownedFiles,
    own]
  rfl

/-- A build that succeeds has written over a theme that it read, and the same build again gives
another archive if it gives one. -/
theorem hand_overwritten : ∃ job t, handDisk.Rooted ∧
    handRequest.prepare handDisk Host.standard.glob = .ok job ∧
    SourceTree.discover handDisk job.input job.options.filter.includes = .ok t ∧
    (handRequest.run handDisk).failure = none ∧
    handRequest.Reads job t (.below [.text "theme"] ["T.ReaperTheme"]) ∧
    handDisk.read (.below [.text "theme"] ["T.ReaperTheme"]) = .ok "; by hand\n".toUTF8 ∧
    (handRequest.run handDisk).files.read (.below [.text "theme"] ["T.ReaperTheme"]) =
      .ok "".toUTF8 ∧
    (handRequest.run (handRequest.run handDisk).files).archive ≠
      (handRequest.run handDisk).archive := by
  obtain ⟨printed,run⟩ := handDisk_run
  have reads : handRequest.Reads copyingJob handTree (.below [.text "theme"] ["T.ReaperTheme"]) :=
    .fragment (handTree_settings ▸ List.mem_cons_self)
  have resolved : packedHand.resolve (.below [.text "theme"] ["T.ReaperTheme"]) =
      .ok [.text "theme",.text "T.ReaperTheme"] :=
    FileSystem.resolveWith_below true false (by decide) (by decide) (by decide) rfl
  refine ⟨copyingJob,handTree,handDisk_rooted,handDisk_compiles.prepared,
    handDisk_compiles.discovered,?_,reads,FileSystem.read_file handDisk_resolve rfl,?_,?_⟩
  · rw [run]
  · rw [run]
    exact FileSystem.read_file resolved rfl
  · rw [run]
    intro same
    obtain ⟨job,t,prepared,scanned,names⟩ := run_member_names same
    have located : SourceTree.locate packedHand "." = .ok Theme.themeRoot :=
      SourceTree.locate_eq_ok_iff.mpr ⟨_,FileSystem.resolve_here rfl,rfl⟩
    have again : handRequest.prepare packedHand Host.standard.glob = .ok copyingJob :=
      prepare_plain true rfl located
    cases Except.ok.inj (again.symm.trans prepared)
    cases Except.ok.inj (packedHand_scan.symm.trans scanned)
    -- The second archive would have a member more.
    have lengths := congrArg List.length names
    rw [packedTree_placed] at lengths
    exact absurd lengths (by decide)

end BuildRequest

end ThemeForge
