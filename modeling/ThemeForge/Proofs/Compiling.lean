import ThemeForge.Proofs.Results
import ThemeForge.Theme

/-!
# What a compiled theme consists of

A folder is discovered if it can be scanned and its resources can have owners. The theme of a folder
has the folder's resources, and its texts come from the fragments alone.
-/

namespace ThemeForge

variable {fs : FileSystem} {root : FilePath} {title : String} {t : SourceTree}

/-- A tree is discovered if it is scanned and its resources can have owners. -/
theorem SourceTree.discover_eq_ok_iff :
    discover fs root includes = .ok t ↔
      scan fs root includes = .ok t ∧ t.checkOwnership = .ok () := by
  constructor
  · intro discovered
    obtain ⟨_,scanned,discovered⟩ := bind_ok_iff.mp discovered
    obtain ⟨_,checked,same⟩ := bind_ok_iff.mp discovered
    cases same
    exact ⟨scanned,checked⟩
  · rintro ⟨scanned,checked⟩
    exact bind_ok_iff.mpr ⟨t,scanned,bind_ok_iff.mpr ⟨(),checked,rfl⟩⟩

/-- There must be a data directory, and no resources in a root that is none. -/
theorem SourceTree.checkOwnership_eq_ok_iff :
    t.checkOwnership = .ok () ↔
      t.dataFolders ≠ [] ∧ (t.top.isData = false → t.top.files = []) := by
  rw [checkOwnership]
  by_cases empty : t.dataFolders = []
  · simp [empty]
  · cases data : t.top.isData with
    | true => simp [empty]
    | false => by_cases loose : t.top.files = [] <;> simp [empty, loose]

def Plan.withResources (t : SourceTree) (r : Resources) : Plan :=
  ⟨t,t.fragments .directives,t.fragments .settings,r⟩

namespace Theme

variable {options : Options} {theme : Theme}

/-- A theme is compiled if its resources can be placed and its two texts can be made. -/
theorem ofTree_eq_ok_iff : ofTree fs title options t = .ok theme ↔
    theme.name = title ∧ Resources.ofTree title t = .ok theme.resources ∧
    ∃ session, compileSettings fs options (.withResources t theme.resources) =
        .ok (theme.settings,session) ∧
      compileDirectives fs options (.withResources t theme.resources) session =
        .ok theme.directives := by
  constructor
  · intro compiled
    obtain ⟨_,planned,compiled⟩ := bind_ok_iff.mp compiled
    obtain ⟨resources,placed,made⟩ := bind_ok_iff.mp planned
    cases made
    obtain ⟨⟨settings,session⟩,merged,compiled⟩ := bind_ok_iff.mp compiled
    obtain ⟨directives,joined,made⟩ := bind_ok_iff.mp compiled
    cases made
    exact ⟨rfl,placed,session,merged,joined⟩
  · rintro ⟨rfl,placed,session,merged,joined⟩
    refine bind_ok_iff.mpr ⟨_,bind_ok_iff.mpr ⟨_,placed,rfl⟩,?_⟩
    exact bind_ok_iff.mpr ⟨_,merged,bind_ok_iff.mpr ⟨_,joined,rfl⟩⟩

theorem ofTree_resources {other : SourceTree} {name : String} {r : Resources}
    (compiled : ofTree fs title options t = .ok theme)
    (fragments : ∀ kind, other.fragments kind = t.fragments kind)
    (placed : Resources.ofTree name other = .ok r) :
    ofTree fs name options other = .ok { theme with name := name, resources := r } := by
  obtain ⟨_,_,session,merged,joined⟩ := ofTree_eq_ok_iff.mp compiled
  have same : Plan.withResources other r =
      ⟨other,t.fragments .directives,t.fragments .settings,r⟩ := by
    rw [Plan.withResources, fragments, fragments]
  refine ofTree_eq_ok_iff.mpr ⟨rfl,placed,session,?_,?_⟩
  · rw [same]
    exact merged
  · rw [same]
    exact joined

theorem ofTree_fragments (compiled : ofTree fs title options t = .ok theme) (kind : FragmentKind) :
    ∀ fragment ∈ t.fragments kind, ∃ text, fs.readText fragment.path = .ok text := by
  obtain ⟨_,_,session,merged,joined⟩ := ofTree_eq_ok_iff.mp compiled
  cases kind with
  | directives =>
    obtain ⟨_,joined,_⟩ := bind_ok_iff.mp joined
    obtain ⟨_,texts,_⟩ := bind_ok_iff.mp joined
    exact mapM_each texts
  | settings =>
    obtain ⟨_,merged,_⟩ := bind_ok_iff.mp merged
    obtain ⟨_,all,_⟩ := bind_ok_iff.mp merged
    intro fragment listed
    obtain ⟨_,parsed⟩ := mapM_each all fragment listed
    obtain ⟨text,read,_⟩ := bind_ok_iff.mp parsed
    exact ⟨text,read⟩

/-- A folder compiles to the same theme in all file systems where its fragments say the same. -/
theorem ofTree_congr {after : FileSystem} (same : ∀ kind, ∀ fragment ∈ t.fragments kind,
      after.readText fragment.path = fs.readText fragment.path) :
    ofTree after title options t = ofTree fs title options t := by
  have settings : Settings.ofFragments after (t.fragments .settings) options.overrides =
      Settings.ofFragments fs (t.fragments .settings) options.overrides := by
    rw [Settings.ofFragments, mapM_congr (g := FragmentFile.settings fs), Settings.ofFragments]
    intro fragment listed
    rw [FragmentFile.settings, same .settings fragment listed, FragmentFile.settings]
  have directives : Directives.ofFragments after (t.fragments .directives) options.minify =
      Directives.ofFragments fs (t.fragments .directives) options.minify := by
    rw [Directives.ofFragments, mapM_congr (same .directives), Directives.ofFragments]
  rw [ofTree, ofTree, Plan.ofTree]
  cases Resources.ofTree title t with
  | error failure => rfl
  | ok resources =>
    simp only [bind, Except.bind, pure, Except.pure, ofPlan, compileSettings, compileDirectives,
      settings, directives]

/-- A folder whose fragments say nothing compiles to a theme without texts. -/
theorem ofTree_empty {r : Resources} (plain : options.overrides = [])
    (placed : Resources.ofTree title t = .ok r)
    (settings : ∀ fragment ∈ t.fragments .settings, fragment.settings fs = .ok .empty)
    (directives : ∀ fragment ∈ t.fragments .directives, fs.readText fragment.path = .ok "") :
    ofTree fs title options t = .ok ⟨title,.empty,"",r⟩ := by
  have merged : ∀ fragments : List FragmentFile,
      Settings.mergeAll (fragments.map fun _ => .empty) = .empty := by
    intro fragments
    induction fragments with
    | nil => rfl
    | cons _ rest ih => exact ih
  have joined : ∀ fragments : List FragmentFile,
      Directives.join options.minify (fragments.map fun _ => "") = "" := by
    intro fragments
    have body : Directives.body options.minify "" = "" := by cases options.minify <;> rfl
    rw [Directives.join, List.filter_eq_nil_iff.mpr]
    · rfl
    · simp [body]
  have nothing : Template.segments "" = .ok [] := by
    rw [Template.segments, Template.segmentsOf_eq]
    rfl
  have first : Settings.ofFragments fs (t.fragments .settings) options.overrides = .ok .empty := by
    rw [Settings.ofFragments, mapM_eq_ok settings, plain]
    exact congrArg Except.ok (merged _)
  have second : Directives.ofFragments fs (t.fragments .directives) options.minify = .ok "" := by
    rw [Directives.ofFragments, mapM_eq_ok directives]
    exact congrArg Except.ok (joined _)
  refine ofTree_eq_ok_iff.mpr ⟨rfl,placed,Session.start options.tables,?_,?_⟩
  · rw [compileSettings, Plan.withResources, first]
    rfl
  · rw [compileDirectives, Plan.withResources, second]
    simp only [bind, Except.bind, Session.expand, nothing]
    rfl

end Theme

end ThemeForge
