import ThemeForge.Proofs.Folder.Levels
import ThemeForge.Proofs.Folder.Placing
import ThemeForge.Proofs.Settings.Layers

/-!
# The order of discovery

Data directories are discovered nearest first, in the order of a walk on each level. Fragments are
listed in that order, so those further down come later and override those above them.
-/

namespace ThemeForge

def Content.isDirectory : Content → Bool
  | .directory _ => true
  | _ => false

/-- In a list in the order of a number, a member with a smaller one comes before a larger one. -/
theorem pair_sublist {α : Type} {number : α → Nat} {l : List α} {a b : α}
    (grouped : l.Pairwise fun x y => number x ≤ number y) (first : a ∈ l) (second : b ∈ l)
    (less : number a < number b) : [a,b].Sublist l := by
  obtain ⟨before,after,rfl⟩ := List.append_of_mem first
  have behind : b ∈ after := by
    rcases List.mem_append.mp second with earlier | found
    · have back := (List.pairwise_append.mp grouped).2.2 b earlier a List.mem_cons_self
      omega
    · rcases List.mem_cons.mp found with rfl | behind
      · omega
      · exact behind
  have tail := (List.singleton_sublist.mpr behind).cons_cons a
  exact tail.trans (List.sublist_append_right before (a :: after))

namespace Folder

variable {f d : Folder}

/-- The entries below a place, each with its place. A directory comes before what it contains. -/
def walk (place : List FileName) : List (FileName × Content) → List (List FileName × Content)
  | [] => []
  | (name,.directory inside) :: rest =>
    (place ++ [name],.directory inside) :: walk (place ++ [name]) inside ++ walk place rest
  | (name,content) :: rest => (place ++ [name],content) :: walk place rest

def directoryPlaces (entries : List (List FileName × Content)) : List (List FileName) :=
  (entries.filter fun entry => entry.2.isDirectory).map Prod.fst

/-- A walk in depth meets the directories in the order of the entries. -/
theorem Listed.walked (listed : Listed includes place entries f) :
    f.depthFirst.map (fun d => d.path.map FileName.text) =
      place.map FileName.text :: directoryPlaces (walk (place.map FileName.text) entries) := by
  induction listed with
  | nil => simp [depthFirst_cons, depthFirsts, walk, directoryPlaces]
  | @file place entries f name rest ih =>
    rw [depthFirst_cons, List.map_cons] at ih ⊢
    rw [addFile_path, addFile_children, ih]
    simp [walk, directoryPlaces, Content.isDirectory]
  | @directory place name inside child entries f inner rest ihInner ih =>
    rw [depthFirst_cons, List.map_cons] at ih
    obtain ⟨here,others⟩ := List.cons.inj ih
    rw [List.map_append, List.map_singleton] at ihInner
    rw [depthFirst_cons, depthFirsts, List.map_cons, List.map_append, ihInner, others, here, walk,
      directoryPlaces, directoryPlaces, directoryPlaces]
    simp [Content.isDirectory]

theorem Listed.fragments (listed : Listed includes place entries f) :
    ∀ name ∈ f.fragments, ∃ kind, FileKind.classify name = .fragment kind := by
  induction listed with
  | nil => nofun
  | @file place entries f name rest ih =>
    intro other found
    unfold addFile at found
    split at found
    · rename_i kind isFragment
      rcases List.mem_cons.mp found with rfl | old
      · exact ⟨kind,isFragment⟩
      · exact ih other old
    · split at found
      · exact ih other found
      · exact ih other found
  | directory inner rest _ ih => exact ih

theorem Proper.fragments (proper : f.Proper) :
    f.fragments.Nodup ∧ ∀ name ∈ f.fragments, ProperName name := by
  obtain ⟨distinct,named,_,_⟩ := proper
  refine ⟨(List.nodup_append.mp (List.nodup_append.mp distinct).1).2.1,?_⟩
  intro name found
  exact named name (List.mem_append_left _ (List.mem_append_right _ found))

end Folder

namespace Settings

variable {fs : FileSystem} {before after : List FragmentFile} {y : FragmentFile} {s merged : Settings}

/-- A value that some settings give comes from them or from those on top of them. -/
theorem highest?_append (front back : List Settings) (given : (s.get? name key).isSome) :
    ∃ u ∈ s :: back, (u.get? name key).isSome ∧
      highest? (front ++ s :: back) name key = u.get? name key := by
  have whole : highest? (front ++ s :: back) name key =
      (highest? (s :: back) name key).or (highest? front name key) := by
    rw [highest?, List.reverse_append, List.findSome?_append, highest?, highest?]
  have found : (highest? (s :: back) name key).isSome := by
    rw [highest?, List.findSome?_isSome_iff]
    exact ⟨s,by simp,given⟩
  obtain ⟨value,top⟩ := Option.isSome_iff_exists.mp found
  obtain ⟨u,among,gives⟩ := List.exists_of_findSome?_eq_some top
  refine ⟨u,List.mem_reverse.mp among,by rw [gives]; rfl,?_⟩
  rw [whole, top, gives]
  rfl

/-- What a fragment gives is overridden only by fragments behind it. -/
theorem ofFragments_behind
    (done : ofFragments fs (before ++ y :: after) overrides = .ok merged)
    (read : y.settings fs = .ok s) (given : (s.get? name key).isSome)
    (untouched : Override.last? overrides name key = none) :
    ∃ z ∈ y :: after, ∃ u, z.settings fs = .ok u ∧ (u.get? name key).isSome ∧
      merged.get? name key = u.get? name key := by
  obtain ⟨all,reads,made⟩ := bind_ok_iff.mp done
  cases made
  have distinct : ∀ s ∈ all, s.Distinct := by
    intro s found
    obtain ⟨fragment,_,given⟩ := mapM_ok reads s found
    exact (fragment_proper given).distinct
  rw [List.mapM_append] at reads
  obtain ⟨front,_,reads⟩ := bind_ok_iff.mp reads
  obtain ⟨upper,behind,made⟩ := bind_ok_iff.mp reads
  cases made
  have each := mapM_ok behind
  rw [List.mapM_cons] at behind
  obtain ⟨first,here,behind⟩ := bind_ok_iff.mp behind
  obtain ⟨back,_,made⟩ := bind_ok_iff.mp behind
  cases made
  cases read.symm.trans here
  obtain ⟨u,among,gives,highest⟩ := highest?_append front back given
  obtain ⟨z,behind,readHere⟩ := each u among
  refine ⟨z,behind,u,readHere,gives,?_⟩
  rw [(applyAll_layered distinct overrides).value, untouched, highest]
  rfl

end Settings

namespace SourceTree

variable {fs : FileSystem} {root : FilePath} {t : SourceTree} {d e : Folder}

structure Discovers (fs : FileSystem) (entries : List (FileName × Content)) (t : SourceTree) :
    Prop where
  /-- The tree has the directories among the entries, in the order of a walk. -/
  walked : t.top.depthFirst.map (fun d => d.path.map FileName.text) =
    [] :: Folder.directoryPlaces (Folder.walk [] entries)
  /-- Data directories are the directories with a fragment. -/
  data : ∀ d, d ∈ t.dataFolders ↔ d ∈ t.top.depthFirst ∧ d.fragments ≠ []
  once : (t.dataFolders.map Folder.path).Nodup
  /-- They are in the order of the walk, except that those nearer to the root come first. -/
  sorted : t.dataFolders =
    (t.top.depthFirst.filter Folder.isData).mergeSort fun d e => d.depth ≤ e.depth
  /-- Fragments of a kind are listed with the position of their directory. -/
  listed : ∀ kind file, file ∈ t.fragments kind ↔
    ∃ d name, t.dataFolders[file.order]? = some d ∧ name ∈ d.fragments ∧
      FileKind.classify name = .fragment kind ∧
      file = ⟨pathOf t.root (d.path ++ [name]),kind,file.order⟩
  distinct : ∀ kind, ((t.fragments kind).map FragmentFile.path).Nodup
  grouped : ∀ kind, (t.fragments kind).Pairwise fun x y => x.order ≤ y.order
  /-- Every fragment of every directory is of exactly one kind. -/
  kinds : ∀ d ∈ t.top.depthFirst, ∀ name ∈ d.fragments, ∃! kind,
    pathOf t.root (d.path ++ [name]) ∈ (t.fragments kind).map FragmentFile.path
  /-- Fragments of a directory come after those of the directories that it lies in. -/
  nested : ∀ kind, ∀ x ∈ t.fragments kind, ∀ y ∈ t.fragments kind, ∀ d e,
    t.dataFolders[x.order]? = some d → t.dataFolders[y.order]? = some e →
    e ∈ Folder.depthFirsts d.children → x.order < y.order ∧ [x,y].Sublist (t.fragments kind)
  /-- What a fragment of settings gives is overridden by none of an earlier directory. -/
  overridden : ∀ overrides merged,
    Settings.ofFragments fs (t.fragments .settings) overrides = .ok merged →
    ∀ y ∈ t.fragments .settings, ∀ s, y.settings fs = .ok s → ∀ name key,
    (s.get? name key).isSome → Override.last? overrides name key = none →
    ∃ z ∈ t.fragments .settings, y.order ≤ z.order ∧ ∃ u, z.settings fs = .ok u ∧
      (u.get? name key).isSome ∧ merged.get? name key = u.get? name key

theorem mem_fragments (t : SourceTree) (kind : FragmentKind) (file : FragmentFile) :
    file ∈ t.fragments kind ↔
      ∃ d name, t.dataFolders[file.order]? = some d ∧ name ∈ d.fragments ∧
        FileKind.classify name = .fragment kind ∧
        file = ⟨pathOf t.root (d.path ++ [name]),kind,file.order⟩ := by
  rw [fragments, List.mem_flatMap]
  constructor
  · rintro ⟨⟨d,order⟩,found,listed⟩
    obtain ⟨name,among,rfl⟩ := List.mem_map.mp listed
    obtain ⟨inside,kind⟩ := List.mem_filter.mp among
    exact ⟨d,name,List.mem_zipIdx_iff_getElem?.mp found,inside,of_decide_eq_true kind,rfl⟩
  · rintro ⟨d,name,found,inside,kind,same⟩
    refine ⟨(d,file.order),List.mem_zipIdx_iff_getElem?.mpr found,?_⟩
    rw [same]
    exact List.mem_map_of_mem (List.mem_filter.mpr ⟨inside,decide_eq_true kind⟩)

theorem fragments_grouped (t : SourceTree) (kind : FragmentKind) :
    (t.fragments kind).Pairwise fun x y => x.order ≤ y.order := by
  rw [fragments, List.pairwise_flatMap]
  refine ⟨?_,?_⟩
  · rintro ⟨d,order⟩ _
    refine List.pairwise_of_forall_mem_list fun x found y other => ?_
    obtain ⟨_,_,rfl⟩ := List.mem_map.mp found
    obtain ⟨_,_,rfl⟩ := List.mem_map.mp other
    exact Nat.le_refl _
  · have positions : (t.dataFolders.zipIdx.map Prod.snd).Pairwise (· < ·) := by
      rw [List.zipIdx_map_snd]
      exact List.pairwise_lt_range'
    refine (List.pairwise_map.mp positions).imp ?_
    rintro ⟨d,order⟩ ⟨e,later⟩ less x found y other
    obtain ⟨_,_,rfl⟩ := List.mem_map.mp found
    obtain ⟨_,_,rfl⟩ := List.mem_map.mp other
    exact Nat.le_of_lt less

/-- Files of different names or in different directories have different paths. -/
theorem Proper.place_injective (proper : t.Proper) (inside : d ∈ t.top.depthFirst)
    (other : e ∈ t.top.depthFirst) (named : ProperName name) (otherNamed : ProperName again)
    (same : pathOf t.root (d.path ++ [name]) = pathOf t.root (e.path ++ [again])) :
    d.path = e.path ∧ name = again := by
  have names : ∀ {f : Folder} {last}, f ∈ t.top.depthFirst → ProperName last →
      ∀ step ∈ f.path ++ [last], ProperName step := by
    intro f last below proper' step found
    rcases List.mem_append.mp found with found | found
    · exact proper.path_names below step found
    · exact List.mem_singleton.mp found ▸ proper'
  have steps := pathOf_injective proper.named _ _ (names inside named) (names other otherNamed)
    (congrArg FilePath.text same)
  exact ⟨List.append_inj_left' steps rfl,List.singleton_injective (List.append_inj_right' steps rfl)⟩

theorem fragments_distinct (proper : t.Proper) (kind : FragmentKind) :
    ((t.fragments kind).map FragmentFile.path).Nodup := by
  have inside : ∀ {d order}, (d,order) ∈ t.dataFolders.zipIdx → d ∈ t.top.depthFirst := by
    intro d order found
    exact (t.mem_dataFolders.mp (List.mem_of_getElem? (List.mem_zipIdx_iff_getElem?.mp found))).1
  rw [fragments, List.map_flatMap]
  refine List.nodup_flatMap.mpr ⟨?_,?_⟩
  · rintro ⟨d,order⟩ found
    obtain ⟨distinct,named⟩ := (proper.folder.inside (inside found)).fragments
    rw [List.map_map]
    refine (distinct.filter _).map_on ?_
    intro name first again second same
    exact (proper.place_injective (inside found) (inside found)
      (named name (List.mem_filter.mp first).1) (named again (List.mem_filter.mp second).1) same).2
  · have paths : ((t.dataFolders.zipIdx.map Prod.fst).map Folder.path).Nodup := by
      rw [List.zipIdx_map_fst]
      exact dataFolders_distinct proper.folder
    rw [List.map_map] at paths
    refine (List.pairwise_map.mp paths).imp_of_mem ?_
    rintro ⟨d,order⟩ ⟨e,later⟩ found other different
    refine List.disjoint_left.mpr ?_
    intro path here there
    obtain ⟨_,file,rfl⟩ := List.mem_map.mp here
    obtain ⟨_,file',same⟩ := List.mem_map.mp there
    obtain ⟨name,first,rfl⟩ := List.mem_map.mp file
    obtain ⟨again,second,rfl⟩ := List.mem_map.mp file'
    have named := (proper.folder.inside (inside found)).fragments.2 name (List.mem_filter.mp first).1
    have named' :=
      (proper.folder.inside (inside other)).fragments.2 again (List.mem_filter.mp second).1
    exact different
      (proper.place_injective (inside other) (inside found) named' named same).1.symm

theorem order_lt {i j : Nat} (listed : Folder.Listed includes place entries t.top)
    (above : t.dataFolders[i]? = some d) (below : t.dataFolders[j]? = some e)
    (inside : e ∈ Folder.depthFirsts d.children) : i < j := by
  have met := (t.mem_dataFolders.mp (List.mem_of_getElem? above)).1
  obtain ⟨_,_,_,own⟩ := listed.descend met
  have deeper := own.leveled.depth_lt e inside
  obtain ⟨first,rfl⟩ := List.getElem?_eq_some_iff.mp above
  obtain ⟨second,rfl⟩ := List.getElem?_eq_some_iff.mp below
  by_contra back
  rcases Nat.lt_or_eq_of_le (Nat.le_of_not_lt back) with earlier | same
  · have sorted := List.pairwise_iff_getElem.mp listed.leveled.dataFolders_sorted j i second first
      earlier
    exact Nat.not_lt.mpr sorted deeper
  · subst same
    exact Nat.lt_irrefl _ deeper

/-- Each recorded fragment is listed among those of its own kind, and no others. -/
theorem fragment_kind (proper : t.Proper) (listed : Folder.Listed includes place entries t.top)
    (met : d ∈ t.top.depthFirst) (recorded : name ∈ d.fragments) :
    ∃! kind, pathOf t.root (d.path ++ [name]) ∈ (t.fragments kind).map FragmentFile.path := by
  obtain ⟨_,_,_,own⟩ := listed.descend met
  obtain ⟨kind,isKind⟩ := own.fragments name recorded
  have named := (proper.folder.inside met).fragments.2 name recorded
  refine ⟨kind,?_,?_⟩
  · have isData : d.isData = true := by
      rw [Folder.isData, Bool.not_eq_true', List.isEmpty_eq_false_iff]
      exact List.ne_nil_of_mem recorded
    obtain ⟨order,position⟩ := List.mem_iff_getElem?.mp (t.mem_dataFolders.mpr ⟨met,isData⟩)
    refine List.mem_map.mpr ⟨⟨pathOf t.root (d.path ++ [name]),kind,order⟩,?_,rfl⟩
    exact (t.mem_fragments _ _).mpr ⟨d,name,position,recorded,isKind,rfl⟩
  · intro other found
    obtain ⟨file,among,path⟩ := List.mem_map.mp found
    obtain ⟨e,again,position,recordedAgain,isOther,same⟩ := (t.mem_fragments _ _).mp among
    have metAgain := (t.mem_dataFolders.mp (List.mem_of_getElem? position)).1
    have namedAgain := (proper.folder.inside metAgain).fragments.2 again recordedAgain
    rw [same] at path
    obtain ⟨_,rfl⟩ := proper.place_injective metAgain met namedAgain named path
    cases isKind.symm.trans isOther
    rfl

/-- The data directories of a scanned tree are the directories with fragments, level by level and on
each level in the order of the walk. Their fragments are listed in that order, each under one kind,
so fragments further down override those of the directories they lie in. -/
theorem scan_discovers (scanned : scan fs root includes = .ok t) (proper : fs.Proper) :
    t.root = root ∧ ∃ location, fs.resolve root = .ok location ∧
      t.Discovers fs (fs.content location) := by
  obtain ⟨sameRoot,location,resolved,_,made⟩ := scan_eq_ok_iff.mp scanned
  have listed := Folder.ofEntries_listed _ _ _ _ made
  have proper := scan_proper proper scanned
  refine ⟨sameRoot,location,resolved,?_⟩
  exact {
    walked := listed.walked
    data := fun d => by
      rw [mem_dataFolders, Folder.isData, Bool.not_eq_true', List.isEmpty_eq_false_iff]
    once := dataFolders_distinct proper.folder
    sorted := listed.leveled.dataFolders_eq
    listed := t.mem_fragments
    distinct := fragments_distinct proper
    grouped := t.fragments_grouped
    kinds := fun d met name recorded => fragment_kind proper listed met recorded
    nested := by
      intro kind x first y second d e above below inside
      have less := order_lt listed above below inside
      exact ⟨less,pair_sublist (t.fragments_grouped kind) first second less⟩
    overridden := by
      intro overrides merged done y among s read name key given untouched
      obtain ⟨before,after,cut⟩ := List.append_of_mem among
      have grouped := t.fragments_grouped .settings
      rw [cut] at done grouped ⊢
      obtain ⟨z,behind,u,gives⟩ := Settings.ofFragments_behind done read given untouched
      refine ⟨z,List.mem_append_right before behind,?_,u,gives⟩
      rcases List.mem_cons.mp behind with rfl | later
      · exact Nat.le_refl _
      · exact (List.pairwise_cons.mp (List.pairwise_append.mp grouped).2.1).1 z later }

/-- A theme with settings in a directory and again further down, and a data directory that a walk in
depth meets after both of them. -/
def deepDisk : FileSystem where
  entries := [([.text "theme"],.directory),
    ([.text "theme",.text "a"],.directory),
    ([.text "theme",.text "a",.text "deep"],.directory),
    ([.text "theme",.text "a",.text "deep",.text "two.ReaperTheme"],.file "[S]\nk=2\n".toUTF8),
    ([.text "theme",.text "a",.text "one.ReaperTheme"],.file "[S]\nk=1\n".toUTF8),
    ([.text "theme",.text "b"],.directory),
    ([.text "theme",.text "b",.text "rtconfig.txt"],.file .empty)]
  workingDirectory := []

def innerFolder : Folder := ⟨["a","deep"],[],["two.ReaperTheme"],[]⟩

def outerFolder : Folder := ⟨["a"],[],["one.ReaperTheme"],[innerFolder]⟩

def lastFolder : Folder := ⟨["b"],[],["rtconfig.txt"],[]⟩

def deepTree : SourceTree := ⟨"/theme",⟨[],[],[],[outerFolder,lastFolder]⟩⟩

theorem deepDisk_proper : deepDisk.Proper where
  distinct := by decide
  named := by simp [deepDisk, ProperName]

theorem deepDisk_scanned : scan deepDisk "/theme" (fun _ => true) = .ok deepTree := by
  have resolved : deepDisk.resolve "/theme" = .ok (["theme"].map .text) :=
    FileSystem.resolveWith_plain true false rfl (by decide) (by decide) (by decide) (by cbv)
  have content : deepDisk.content [.text "theme"] =
      [(.text "a",.directory [(.text "deep",.directory [(.text "two.ReaperTheme",.file)]),
        (.text "one.ReaperTheme",.file)]),(.text "b",.directory [(.text "rtconfig.txt",.file)])] := by
    cbv
  refine scan_eq_ok_iff.mpr ⟨rfl,_,resolved,rfl,?_⟩
  simp only [List.map_cons, List.map_nil, content, Folder.ofEntries_file,
    Folder.ofEntries_directory]
  rw [Folder.ofEntries, Folder.ofEntries, Folder.ofEntries, Folder.ofEntries]
  rfl

theorem deepDisk_read :
    (⟨"/theme/a/one.ReaperTheme",.settings,0⟩ : FragmentFile).settings deepDisk =
      .ok ⟨[("S",[("k","1")])]⟩ ∧
    (⟨"/theme/a/deep/two.ReaperTheme",.settings,2⟩ : FragmentFile).settings deepDisk =
      .ok ⟨[("S",[("k","2")])]⟩ := by
  have one : deepDisk.resolve "/theme/a/one.ReaperTheme" =
      .ok (["theme","a","one.ReaperTheme"].map .text) :=
    FileSystem.resolveWith_plain true false rfl (by decide) (by decide) (by decide) (by cbv)
  have two : deepDisk.resolve "/theme/a/deep/two.ReaperTheme" =
      .ok (["theme","a","deep","two.ReaperTheme"].map .text) :=
    FileSystem.resolveWith_plain true false rfl (by decide) (by decide) (by decide) (by cbv)
  refine ⟨?_,?_⟩
  · exact Settings.fragment_settings one rfl (by cbv) (by cbv) (by cbv)
  · exact Settings.fragment_settings two rfl (by cbv) (by cbv) (by cbv)

theorem deep_discovers :
    scan deepDisk "/theme" (fun _ => true) = .ok deepTree ∧ deepDisk.Proper ∧
    deepTree.dataFolders = [outerFolder,lastFolder,innerFolder] ∧
    ∃ merged, Settings.ofFragments deepDisk (deepTree.fragments .settings) [] = .ok merged ∧
      merged.get? "S" "k" = some "2" := by
  obtain ⟨_,_,_,found⟩ := scan_discovers deepDisk_scanned deepDisk_proper
  have order : deepTree.dataFolders = [outerFolder,lastFolder,innerFolder] := by
    rw [found.sorted]
    cbv
  refine ⟨deepDisk_scanned,deepDisk_proper,order,?_⟩
  obtain ⟨one,two⟩ := deepDisk_read
  have files : deepTree.fragments .settings = [⟨"/theme/a/one.ReaperTheme",.settings,0⟩,
      ⟨"/theme/a/deep/two.ReaperTheme",.settings,2⟩] := by
    rw [fragments, order]
    rfl
  obtain ⟨merged,done,_⟩ := Settings.ofFragments_layered (.cons one (.cons two .nil)) []
  rw [← files] at done
  refine ⟨merged,done,?_⟩
  obtain ⟨z,among,behind,u,read,_,value⟩ :=
    found.overridden [] merged done _ (by rw [files]; simp) _ two "S" "k" rfl rfl
  -- Only the fragment further down is at its position or behind it.
  rw [files] at among
  rcases List.mem_cons.mp among with rfl | among
  · exact absurd behind (by decide)
  · obtain rfl := List.mem_singleton.mp among
    cases two.symm.trans read
    exact value

end SourceTree

end ThemeForge
