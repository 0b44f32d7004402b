import ThemeForge.Proofs.Compiling
import ThemeForge.Proofs.Files.Plain
import ThemeForge.Proofs.Folder.Listed
import ThemeForge.Proofs.Settings.RoundTrip

/-!
# The text of a compiled theme

Settings are read back from their text exactly if they are proper. The names in fragments always are;
those of overrides may be any text, and so may the values once their expressions are replaced. So the
text of a theme gives its settings again exactly if these are proper as well.
-/

namespace ThemeForge

theorem Ordered.map_update {α β : Type} {key : String} {value : Option α → α}
    {changed : Option β → β} {f : α → β} (same : ∀ old, f (value old) = changed (old.map f))
    (table : List (String × α)) :
    (update key value table).map (fun entry => (entry.1,f entry.2)) =
      update key changed (table.map fun entry => (entry.1,f entry.2)) := by
  induction table with
  | nil => simp [update, same]
  | cons entry rest ih =>
    obtain ⟨k,old⟩ := entry
    by_cases here : k = key
    · simp [update, here, same]
    · simp [update, here, ih]

structure Override.Proper (o : Override) : Prop where
  some : o.sectionName ≠ ""
  single : '\n' ∉ o.sectionName.toList
  key : Settings.ProperKey o.key.toList

namespace Settings

/-- Settings are read back from their text exactly if they are proper. -/
theorem parse_serialize_iff {s : Settings} : parse s.serialize = .ok s ↔ s.Proper :=
  ⟨parse_proper,Proper.parse_serialize⟩

def outline (s : Settings) : List (String × List String) :=
  s.sections.map fun entry => (entry.1,entry.2.map Prod.fst)

structure ProperKeys (entry : String × List String) : Prop where
  some : entry.1 ≠ ""
  single : '\n' ∉ entry.1.toList
  distinct : entry.2.Nodup
  each : ∀ key ∈ entry.2, ProperKey key.toList

def ProperNames (s : Settings) : Prop := ProperTable ProperKeys s.outline

variable {s : Settings}

theorem names_outline (s : Settings) : s.outline.map Prod.fst = s.sections.map Prod.fst := by
  rw [outline, List.map_map]
  rfl

theorem proper_iff : s.Proper ↔
    s.ProperNames ∧ ∀ entry ∈ s.sections, ∀ option ∈ entry.2, ProperValue option.2 := by
  constructor
  · intro proper
    refine ⟨⟨?_,?_⟩,fun entry found option member => ?_⟩
    · rw [names_outline]
      exact proper.distinct
    · intro titled found
      obtain ⟨entry,member,rfl⟩ := List.mem_map.mp found
      have here := proper.each entry member
      refine ⟨here.some,here.single,here.options.distinct,fun key found => ?_⟩
      obtain ⟨option,among,rfl⟩ := List.mem_map.mp found
      exact (here.options.each option among).key
    · exact ((proper.each entry found).options.each option member).value
  · rintro ⟨names,values⟩
    refine ⟨?_,fun entry found => ?_⟩
    · rw [← names_outline]
      exact names.distinct
    · have here := names.each _ (List.mem_map_of_mem found)
      refine ⟨here.some,here.single,here.distinct,fun option member => ?_⟩
      exact ⟨here.each _ (List.mem_map_of_mem member),values entry found option member⟩

def withKey (key : String) (keys : List String) : List String :=
  if key ∈ keys then keys else keys ++ [key]

theorem outline_set (s : Settings) (name key value : String) :
    (s.set name key value).outline =
      Ordered.update name (fun keys => withKey key (keys.getD [])) s.outline := by
  refine Ordered.map_update (fun old => ?_) s.sections
  rw [Ordered.put, Ordered.map_fst_update, withKey]
  cases old <;> rfl

theorem withKey_each {key : String} {keys : List String} (new : ProperKey key.toList)
    (each : ∀ k ∈ keys, ProperKey k.toList) : ∀ k ∈ withKey key keys, ProperKey k.toList := by
  unfold withKey
  split
  · exact each
  · intro k found
    rcases List.mem_append.mp found with old | last
    · exact each k old
    · exact List.mem_singleton.mp last ▸ new

theorem withKey_distinct {key : String} {keys : List String} (distinct : keys.Nodup) :
    (withKey key keys).Nodup := by
  unfold withKey
  split
  · exact distinct
  · rename_i other
    exact nodup_concat distinct other

theorem ProperNames.set (names : s.ProperNames) {o : Override} (proper : o.Proper) :
    (s.set o.sectionName o.key o.value).ProperNames := by
  unfold ProperNames
  rw [outline_set]
  refine ProperTable.update names ?_ ?_
  · have none : ∀ k ∈ ([] : List String), ProperKey k.toList := by simp
    exact ⟨proper.some,proper.single,withKey_distinct .nil,withKey_each proper.key none⟩
  · intro keys old
    exact ⟨proper.some,proper.single,withKey_distinct old.distinct,withKey_each proper.key old.each⟩

theorem mem_outline {name key : String} (present : (s.get? name key).isSome) :
    ∃ keys, (name,keys) ∈ s.outline ∧ key ∈ keys := by
  obtain ⟨value,found⟩ := Option.isSome_iff_exists.mp present
  obtain ⟨options,inSections,inOptions⟩ := Option.bind_eq_some_iff.mp found
  refine ⟨options.map Prod.fst,?_,?_⟩
  · exact List.mem_map.mpr ⟨(name,options),exists_of_lookup inSections,rfl⟩
  · exact List.mem_map.mpr ⟨(key,value),exists_of_lookup inOptions,rfl⟩

theorem mapKeys_names {σ ε : Type} (change : String → String → σ → Except ε String × σ)
    (options : List (String × String)) (state : σ) :
    (mapKeys change options state).1.map Prod.fst = options.map Prod.fst := by
  induction options generalizing state with
  | nil => rfl
  | cons option rest ih =>
    rw [mapKeys]
    split
    · rfl
    · exact congrArg (option.1 :: ·) (ih _)

theorem mapSections_outline {σ ε : Type}
    (change : String → String → String → σ → Except ε String × σ)
    (sections : List (String × List (String × String))) (state : σ) :
    outline ⟨(mapSections change sections state).1⟩ = outline ⟨sections⟩ := by
  induction sections generalizing state with
  | nil => rfl
  | cons entry rest ih =>
    have names := mapKeys_names (change entry.1) entry.2 state
    rw [mapSections]
    split
    · rename_i done
      rw [done] at names
      exact congrArg (fun keys => (entry.1,keys) :: outline ⟨rest⟩) names
    · rename_i done
      rw [done] at names
      exact congrArg₂ (fun keys others => (entry.1,keys) :: others) names (ih _)

theorem outline_mapValues {σ ε : Type}
    (change : String → String → String → σ → Except ε String × σ) (s : Settings) (state : σ) :
    (s.mapValues change state).1.outline = s.outline :=
  mapSections_outline change s.sections state

theorem applyAll_keeps {name key : String} (overrides : List Override)
    (present : (s.get? name key).isSome) :
    ((Override.applyAll overrides s).get? name key).isSome := by
  induction overrides generalizing s with
  | nil => exact present
  | cons o overrides ih =>
    apply ih
    rw [get?_set]
    split
    · rfl
    · exact present

theorem applyAll_sets {overrides : List Override} (s : Settings) (member : o ∈ overrides) :
    ((Override.applyAll overrides s).get? o.sectionName o.key).isSome := by
  induction overrides generalizing s with
  | nil => cases member
  | cons first overrides ih =>
    rcases List.mem_cons.mp member with rfl | later
    · apply applyAll_keeps overrides
      rw [get?_set, if_pos ⟨rfl,rfl⟩]
      rfl
    · exact ih _ later

/-- Overriding keeps the names proper if those of the overrides are, and not otherwise. -/
theorem properNames_applyAll {overrides : List Override} (names : s.ProperNames) :
    (Override.applyAll overrides s).ProperNames ↔ ∀ o ∈ overrides, o.Proper := by
  constructor
  · -- The names of an override are there afterwards, whatever the later ones do.
    intro after o member
    obtain ⟨keys,found,key⟩ := mem_outline (applyAll_sets s member)
    have here := after.each _ found
    exact ⟨here.some,here.single,here.each o.key key⟩
  · intro each
    induction overrides generalizing s with
    | nil => exact names
    | cons o overrides ih =>
      have first := names.set (each o List.mem_cons_self)
      exact ih first fun other later => each other (List.mem_cons_of_mem _ later)

theorem fragment_proper {fs : FileSystem} {fragment : FragmentFile}
    (read : fragment.settings fs = .ok s) : s.Proper := by
  obtain ⟨text,_,parsed⟩ := bind_ok_iff.mp read
  unfold parseFrom at parsed
  split at parsed
  · cases parsed
  · rename_i given
    cases parsed
    exact parse_proper given

theorem mergeAll_proper {all : List Settings} (each : ∀ s ∈ all, s.Proper) :
    (mergeAll all).Proper := by
  have start : Settings.empty.Proper := ProperTable.nil
  rw [mergeAll]
  generalize Settings.empty = lower at start
  induction all generalizing lower with
  | nil => exact start
  | cons first all ih =>
    have merged := start.merge (each first List.mem_cons_self)
    exact ih (fun s later => each s (List.mem_cons_of_mem _ later)) _ merged

end Settings

namespace Theme

variable {fs : FileSystem} {root title : String} {options : Options} {theme : Theme}

/-- The names of a compiled theme are those of its fragments with those of the overrides. -/
theorem compile_outline (compiled : compile fs root title options = .ok theme) :
    ∃ merged : Settings, merged.Proper ∧
      theme.settings.outline = (Override.applyAll options.overrides merged).outline := by
  obtain ⟨tree,_,made⟩ := bind_ok_iff.mp compiled
  obtain ⟨_,_,session,expanded,_⟩ := ofTree_eq_ok_iff.mp made
  obtain ⟨_,read,expanded⟩ := bind_ok_iff.mp expanded
  obtain ⟨all,fragments,made⟩ := bind_ok_iff.mp read
  cases made
  have each : ∀ s ∈ all, s.Proper := by
    intro s member
    obtain ⟨fragment,_,read⟩ := mapM_ok fragments s member
    exact Settings.fragment_proper read
  refine ⟨Settings.mergeAll all,Settings.mergeAll_proper each,?_⟩
  split at expanded
  · cases expanded
  · rename_i done
    cases expanded
    have same := Settings.outline_mapValues
      (fun section_ key value (s : Session) => s.expand (section_ ++ "." ++ key) value)
      (Override.applyAll options.overrides (Settings.mergeAll all)) (Session.start options.tables)
    rw [Session.expandSettings] at done
    rwa [done] at same

/-- A theme's settings are read back from its text exactly if the names of all overrides and all
values, with their expressions replaced, can stand in a text. -/
theorem parse_settingsText_iff (compiled : compile fs root title options = .ok theme) :
    Settings.parse theme.settingsText = .ok theme.settings ↔
      (∀ o ∈ options.overrides, o.Proper) ∧
        ∀ entry ∈ theme.settings.sections, ∀ option ∈ entry.2, Settings.ProperValue option.2 := by
  obtain ⟨merged,proper,same⟩ := compile_outline compiled
  have names := (Settings.proper_iff.mp proper).1
  rw [settingsText, Settings.parse_serialize_iff, Settings.proper_iff]
  rw [← Settings.properNames_applyAll names, Settings.ProperNames, Settings.ProperNames, same]

def bareDisk : FileSystem where
  entries := [([.text "theme"],.directory),([.text "theme",.text "a.ReaperTheme"],.file .empty)]
  workingDirectory := []

def bareTree : SourceTree := ⟨"/theme",⟨[],[],["a.ReaperTheme"],[]⟩⟩

def bareFragment : FragmentFile := ⟨"/theme/a.ReaperTheme",.settings,0⟩

def barePlan : Plan := ⟨bareTree,[],[bareFragment],.empty⟩

def overriding (value : String) : Options := ⟨false,[⟨"S","k",value⟩],⟨[]⟩,⟨.empty,.empty⟩⟩

theorem bareDisk_resolve : bareDisk.resolve "/theme" = .ok [.text "theme"] ∧
    bareDisk.resolve "/theme/a.ReaperTheme" = .ok [.text "theme",.text "a.ReaperTheme"] := by
  have theme : bareDisk.resolve "/theme" = .ok (["theme"].map .text) :=
    FileSystem.resolveWith_plain true false rfl (by decide) (by decide) (by decide) (by cbv)
  have file : bareDisk.resolve "/theme/a.ReaperTheme" =
      .ok (["theme","a.ReaperTheme"].map .text) :=
    FileSystem.resolveWith_plain true false rfl (by decide) (by decide) (by decide) (by cbv)
  exact ⟨theme,file⟩

theorem bareFragment_settings : bareFragment.settings bareDisk = .ok .empty := by
  have text : bareDisk.readText "/theme/a.ReaperTheme" = .ok "" :=
    FileSystem.readText_file bareDisk_resolve.2 rfl (by cbv) (by cbv)
  rw [FragmentFile.settings, bareFragment, text]
  rfl

theorem bareTree_dataFolders : bareTree.dataFolders = [bareTree.top] := by
  simp [SourceTree.dataFolders, Folder.dataFolders, Folder.breadthFirst, Folder.kept, bareTree,
    Folder.isData]

theorem bareDisk_discover :
    SourceTree.discover bareDisk "/theme" (fun _ => true) = .ok bareTree := by
  have content : bareDisk.content [.text "theme"] = [(.text "a.ReaperTheme",.file)] := by cbv
  refine SourceTree.discover_eq_ok_iff.mpr ⟨?_,?_⟩
  · refine SourceTree.scan_eq_ok_iff.mpr ⟨rfl,_,bareDisk_resolve.1,rfl,?_⟩
    rw [content, Folder.ofEntries_file, Folder.ofEntries]
    rfl
  · rw [SourceTree.checkOwnership, bareTree_dataFolders]
    rfl

theorem bareTree_plan (title : String) : Plan.ofTree title bareTree = .ok barePlan := by
  have owned : bareTree.ownedFiles bareTree.top = [] := by
    simp [SourceTree.ownedFiles, Folder.ownedFiles, Folder.ownFolders, Folder.breadthFirst,
      Folder.filesIn, bareTree, Folder.kept]
  have kind : FileKind.classify "a.ReaperTheme" = .fragment .settings := rfl
  have path : SourceTree.pathOf "/theme" ["a.ReaperTheme"] = "/theme/a.ReaperTheme" := rfl
  have directives : bareTree.fragments .directives = [] := by
    rw [SourceTree.fragments, bareTree_dataFolders]
    simp [bareTree, kind]
  have settings : bareTree.fragments .settings = [bareFragment] := by
    rw [SourceTree.fragments, bareTree_dataFolders]
    simp [bareTree, bareFragment, kind, path]
  have resources : Resources.ofTree title bareTree = .ok .empty := by
    rw [Resources.ofTree, bareTree_dataFolders]
    simp [owned, Resources.insertAll]
  rw [Plan.ofTree, resources, directives, settings]
  rfl

/-- A value without expressions is the only setting of that theme. -/
theorem compile_overriding {value : String}
    (plain : Template.segments value = .ok [.literal value]) :
    compile bareDisk "/theme" "T" (overriding value) =
      .ok ⟨"T",⟨[("S",[("k",value)])]⟩,"",.empty⟩ := by
  have chosen : (overriding value).filter.includes = fun _ => true := rfl
  have merged : Settings.ofFragments bareDisk barePlan.settings (overriding value).overrides =
      .ok ⟨[("S",[("k",value)])]⟩ := by
    rw [Settings.ofFragments, barePlan, List.mapM_cons, bareFragment_settings]
    rfl
  have expanded : (Session.start (overriding value).tables).expandSettings
      ⟨[("S",[("k",value)])]⟩ =
      (⟨[("S",[("k",value)])]⟩,none,Session.start (overriding value).tables) := by
    simp [Session.expandSettings, Settings.mapValues, Settings.mapSections, Settings.mapKeys,
      Session.expand, plain, Session.expandSegments]
  have joined : Directives.ofFragments bareDisk barePlan.directives (overriding value).minify =
      .ok "" := rfl
  have nothing : Template.segments "" = .ok [] := by
    rw [Template.segments, Template.segmentsOf_eq]
    rfl
  have directives : compileDirectives bareDisk (overriding value) barePlan
      (Session.start (overriding value).tables) = .ok "" := by
    rw [compileDirectives, joined]
    simp only [bind, Except.bind, Session.expand, nothing]
    rfl
  rw [compile, chosen, bareDisk_discover]
  simp only [bind, Except.bind, ofTree, bareTree_plan, ofPlan, compileSettings, merged, expanded]
  simp only [pure, Except.pure, directives]
  rfl

theorem segments_plain : Template.segments "1\n2" = .ok [.literal "1\n2"] ∧
    Template.segments "1\n;2" = .ok [.literal "1\n;2"] := by
  simp only [Template.segments]
  constructor
  · rw [Template.segmentsOf_eq]
    rfl
  · rw [Template.segmentsOf_eq]
    rfl

/-- A value of two lines is read back. -/
theorem parse_settingsText_overriding :
    compile bareDisk "/theme" "T" (overriding "1\n2") =
        .ok ⟨"T",⟨[("S",[("k","1\n2")])]⟩,"",.empty⟩ ∧
      Settings.parse (Settings.serialize ⟨[("S",[("k","1\n2")])]⟩) =
        .ok ⟨[("S",[("k","1\n2")])]⟩ := by
  have compiled := compile_overriding segments_plain.1
  have trimmed : ∀ c, Text.isBlank c = false → Text.Trimmed [c] := by
    intro c solid
    exact ⟨by simpa using solid,by simpa using solid⟩
  have key : Settings.ProperKey ['k'] :=
    ⟨by simp,trimmed 'k' (by decide),by decide,by simp,by simp⟩
  have one : Settings.FirstLine "1".toList := ⟨trimmed '1' (by decide),by decide⟩
  have two : Settings.FurtherLine ['2'] := ⟨⟨trimmed '2' (by decide),by decide⟩,by simp,by simp⟩
  have value : Settings.ProperValue "1\n2" := .further (.first one) two
  refine ⟨compiled,(parse_settingsText_iff compiled).mpr ⟨?_,?_⟩⟩
  · intro o member
    cases List.mem_singleton.mp member
    exact ⟨by decide,by decide,key⟩
  · intro entry member option among
    cases List.mem_singleton.mp member
    cases List.mem_singleton.mp among
    exact value

/-- A further line that looks like a comment is not read back. -/
theorem parse_settingsText_drops :
    Override.parseAll [("S.k","1\n;2")] = .ok (overriding "1\n;2").overrides ∧
      ∃ theme, compile bareDisk "/theme" "T" (overriding "1\n;2") = .ok theme ∧
        Settings.parse theme.settingsText ≠ .ok theme.settings := by
  refine ⟨by cbv,_,compile_overriding segments_plain.2,?_⟩
  have read : Settings.parse (Settings.serialize ⟨[("S",[("k","1\n;2")])]⟩) =
      .ok ⟨[("S",[("k","1")])]⟩ := by cbv
  rw [settingsText, read]
  decide

end Theme
end ThemeForge
