import ThemeForge.Proofs.Files.Leading
import ThemeForge.Proofs.Files.Plain
import ThemeForge.Proofs.Results

/-!
# File systems after writing

What is written changes nothing but the places that it is written to. A path leads where it led
before, unless one of the links that are followed on its way was replaced.
-/

namespace ThemeForge

theorem Node.refill_other {number : Nat} {content : ByteArray} {node : Node}
    (other : ∀ old, node ≠ .file old (some number)) : node.refill number content = node := by
  cases node with
  | directory | link => rfl
  | file old same =>
    have different : same ≠ some number := fun isSame => other old (isSame ▸ rfl)
    rw [Node.refill, if_neg different]

namespace FileSystem

variable {fs between after : FileSystem} {location other here place : Location}
  {places later followed : List Location} {steps rest : List Path.Component}
  {followLast create : Bool} {links : Nat}

theorem lookup_listed (here listed : Location) (node : Node) (rest : List (Location × Node)) :
    ((listed,node) :: rest).lookup here =
      if here = listed then some node else rest.lookup here := by
  rw [List.lookup_cons]
  by_cases same : here = listed
  · rw [if_pos same, beq_iff_eq.mpr same]
  · rw [if_neg same, beq_eq_false_iff_ne.mpr same]

theorem lookup_replace (location : Location) (node : Node) (entries : List (Location × Node)) :
    (put.replace location node entries).lookup other =
      if other = location then some node else entries.lookup other := by
  induction entries with
  | nil => rw [put.replace, lookup_listed]
  | cons entry rest ih =>
    obtain ⟨listed,old⟩ := entry
    rw [put.replace]
    by_cases here : listed = location
    · rw [if_pos here, lookup_listed, lookup_listed, here]
      by_cases same : other = location <;> simp [same]
    · rw [if_neg here, lookup_listed, lookup_listed, ih]
      by_cases same : other = listed
      · rw [if_pos same, if_pos same, if_neg (same ▸ here)]
      · rw [if_neg same, if_neg same]

theorem keys_replace (location : Location) (node : Node) (entries : List (Location × Node)) :
    (put.replace location node entries).map Prod.fst =
      entries.map Prod.fst ++ if entries.lookup location = none then [location] else [] := by
  induction entries with
  | nil => rfl
  | cons entry rest ih =>
    obtain ⟨listed,old⟩ := entry
    rw [put.replace, lookup_listed]
    by_cases here : listed = location
    · simp [here]
    · rw [if_neg here, if_neg (Ne.symm here), List.map_cons, ih]
      rfl

theorem node?_put_same (some : location ≠ []) :
    (fs.put location node).node? location = .some node := by
  rw [node?, if_neg some]
  simp [put, lookup_replace]

theorem node?_put_other (apart : other ≠ location) :
    (fs.put location node).node? other = fs.node? other := by
  by_cases root : other = []
  · simp [node?, root]
  · rw [node?, node?, if_neg root, if_neg root]
    simp [put, lookup_replace, apart]

theorem lookup_refill (number : Nat) (content : ByteArray) (entries : List (Location × Node)) :
    (entries.map fun (l,node) => (l,node.refill number content)).lookup other =
      (entries.lookup other).map (Node.refill number content) := by
  induction entries with
  | nil => rfl
  | cons entry rest ih =>
    obtain ⟨listed,node⟩ := entry
    rw [List.map_cons, lookup_listed, lookup_listed, ih]
    split <;> rfl

/-- A location is a name of the file at a place: it is that place, or both have one number. -/
def SameFile (fs : FileSystem) (place location : Location) : Prop :=
  location = place ∨ ∃ number, fs.number? place = some number ∧ fs.number? location = some number

def namesOf (fs : FileSystem) (place : Location) : List Location :=
  match fs.number? place with
  | some number => (fs.entries.map Prod.fst).filter fun l => fs.number? l = some number
  | none => [place]

theorem number?_file {content : ByteArray} {number : Option Nat}
    (file : fs.node? location = some (.file content number)) : fs.number? location = number := by
  rw [number?, file]

theorem number?_free (free : fs.node? location = none) : fs.number? location = none := by
  rw [number?, free]

theorem exists_of_number? {number : Nat} (numbered : fs.number? location = some number) :
    ∃ content, fs.node? location = some (.file content (some number)) := by
  unfold number? at numbered
  split at numbered
  · rename_i file
    exact ⟨_,numbered ▸ file⟩
  · cases numbered

theorem listed_of_number? {number : Nat} (numbered : fs.number? location = some number) :
    location ∈ fs.entries.map Prod.fst := by
  obtain ⟨content,file⟩ := exists_of_number? numbered
  have some : location ≠ [] := by
    rintro rfl
    cases file
  exact List.mem_map_of_mem (mem_entries some file)

theorem mem_namesOf : location ∈ fs.namesOf place ↔ fs.SameFile place location := by
  unfold namesOf SameFile
  cases first : fs.number? place with
  | none => simp
  | some number =>
    simp only [List.mem_filter, decide_eq_true_eq, Option.some.injEq, exists_eq_left']
    constructor
    · rintro ⟨_,second⟩
      exact .inr second
    · rintro (rfl | second)
      · exact ⟨listed_of_number? first,first⟩
      · exact ⟨listed_of_number? second,second⟩

theorem SameFile.unlinked (same : fs.SameFile place location)
    (unlinked : ∀ target, fs.node? place ≠ some (.link target)) :
    ∀ target, fs.node? location ≠ some (.link target) := by
  rcases same with rfl | ⟨number,_,numbered⟩
  · exact unlinked
  · intro target isLink
    obtain ⟨_,file⟩ := exists_of_number? numbered
    cases file.symm.trans isLink

theorem SameFile.symm (same : fs.SameFile place location) : fs.SameFile location place := by
  rcases same with rfl | ⟨number,first,second⟩
  · exact .inl rfl
  · exact .inr ⟨number,second,first⟩

theorem SameFile.eq_of_unnumbered (same : fs.SameFile place location)
    (unnumbered : fs.number? place = none) : location = place := by
  refine same.resolve_right ?_
  rintro ⟨number,numbered,_⟩
  cases unnumbered.symm.trans numbered

theorem ne_nil_of_vacant (vacant : fs.isDirectory location = false) : location ≠ [] := by
  rintro rfl
  simp [isDirectory, node?] at vacant

/-- Files were written to some places, none of which was a directory, and the rest is as it was. A
file that is new has no other name. -/
structure Written (fs after : FileSystem) (places : List Location) : Prop where
  here : after.workingDirectory = fs.workingDirectory
  listed : ∃ new, after.entries.map Prod.fst = fs.entries.map Prod.fst ++ new ∧
    ∀ l ∈ new, l ∈ places ∧ fs.node? l = none
  kept : ∀ l, l ∉ places → after.node? l = fs.node? l
  filed : ∀ l ∈ places, fs.isDirectory l = false ∧
    ∃ content number, after.node? l = some (.file content number)
  numbered : ∀ l number, after.number? l = some number → fs.number? l = some number

namespace Written

theorem refl (fs : FileSystem) : Written fs fs [] where
  here := rfl
  listed := ⟨[],by simp,by simp⟩
  kept := fun _ _ => rfl
  filed := by simp
  numbered := fun _ _ file => file

/-- What is a directory stays so, and nothing else becomes one. -/
theorem isDirectory (written : Written fs after places) (l : Location) :
    after.isDirectory l = fs.isDirectory l := by
  by_cases place : l ∈ places
  · obtain ⟨vacant,content,number,file⟩ := written.filed l place
    rw [vacant, FileSystem.isDirectory, file]
    rfl
  · rw [FileSystem.isDirectory, written.kept l place, FileSystem.isDirectory]

/-- What is no file now was not written to. -/
theorem not_mem (written : Written fs after places)
    (noFile : ∀ content number, after.node? location ≠ some (.file content number)) :
    location ∉ places := by
  intro place
  obtain ⟨_,content,number,file⟩ := written.filed location place
  exact noFile content number file

theorem sameFile (written : Written fs after places) (same : after.SameFile place location) :
    fs.SameFile place location := by
  refine same.imp_right ?_
  rintro ⟨number,first,second⟩
  exact ⟨number,written.numbered _ _ first,written.numbered _ _ second⟩

theorem put (vacant : fs.isDirectory location = false) (content : ByteArray) :
    Written fs (fs.put location (.file content)) [location] := by
  have some := ne_nil_of_vacant vacant
  refine ⟨rfl,⟨_,keys_replace location _ fs.entries,?_⟩,?_,?_,?_⟩
  · intro l new
    split at new
    · rename_i free
      cases List.mem_singleton.mp new
      exact ⟨List.mem_cons_self,by rw [node?, if_neg some, free]⟩
    · cases new
  · intro l apart
    exact node?_put_other (by simpa using apart)
  · intro l place
    cases List.mem_singleton.mp place
    exact ⟨vacant,content,none,node?_put_same some⟩
  · intro l number numbered
    by_cases same : l = location
    · rw [same, number?, node?_put_same some] at numbered
      cases numbered
    · rw [number?, node?_put_other same] at numbered
      exact numbered

theorem fill (vacant : fs.isDirectory location = false) (content : ByteArray) :
    Written fs (fs.fill location content) (fs.namesOf location) := by
  unfold FileSystem.fill namesOf
  cases here : fs.number? location with
  | none => exact .put vacant content
  | some number =>
    dsimp only
    have refilled : ∀ l, FileSystem.node?
        { fs with entries := fs.entries.map fun (l,node) => (l,node.refill number content) } l =
        (fs.node? l).map (Node.refill number content) := by
      intro l
      rw [node?, node?]
      split
      · rfl
      · exact lookup_refill number content fs.entries
    refine ⟨rfl,⟨[],?_,by simp⟩,?_,?_,?_⟩
    · rw [List.append_nil, List.map_map]
      rfl
    · intro l apart
      rw [refilled]
      refine (Option.map_congr ?_).trans Option.map_id'
      intro node there
      refine Node.refill_other fun old same => apart (List.mem_filter.mpr ?_)
      have numbered := number?_file (same ▸ there)
      exact ⟨listed_of_number? numbered,decide_eq_true numbered⟩
    · intro l place
      obtain ⟨old,there⟩ := exists_of_number? (of_decide_eq_true (List.mem_filter.mp place).2)
      rw [refilled, FileSystem.isDirectory, there]
      exact ⟨rfl,_,_,rfl⟩
    · intro l other
      rw [number?, number?, refilled]
      cases fs.node? l with
      | none => exact id
      | some node => cases node <;> exact id

theorem trans (first : Written fs between places) (second : Written between after later) :
    Written fs after (places ++ later) := by
  refine ⟨second.here.trans first.here,?_,?_,?_,?_⟩
  · obtain ⟨new,keys,free⟩ := first.listed
    obtain ⟨newer,keys',freeLater⟩ := second.listed
    refine ⟨new ++ newer,by rw [keys', keys, List.append_assoc],?_⟩
    intro l found
    rcases List.mem_append.mp found with old | young
    · exact ⟨List.mem_append_left _ (free l old).1,(free l old).2⟩
    · obtain ⟨place,free⟩ := freeLater l young
      have earlier : l ∉ places := first.not_mem (by simp [free])
      exact ⟨List.mem_append_right _ place,by rw [← first.kept l earlier, free]⟩
  · intro l apart
    rw [List.mem_append, not_or] at apart
    rw [second.kept l apart.2, first.kept l apart.1]
  · intro l place
    by_cases young : l ∈ later
    · obtain ⟨vacant,file⟩ := second.filed l young
      exact ⟨first.isDirectory l ▸ vacant,file⟩
    · have old := (List.mem_append.mp place).resolve_right young
      obtain ⟨vacant,content,number,file⟩ := first.filed l old
      exact ⟨vacant,content,number,(second.kept l young).trans file⟩
  · exact fun l number file => first.numbered l number (second.numbered l number file)

end Written

theorem Leads.file_end {content : ByteArray} {number : Option Nat}
    (file : fs.node? here = some (.file content number))
    (noRoot : .root ∉ rest) (leads : fs.Leads followLast create links here rest place followed) :
    rest = [] ∧ place = here ∧ followed = [] := by
  have outside : fs.isDirectory here = false := by
    rw [isDirectory, file]
    rfl
  cases leads with
  | done => exact ⟨rfl,rfl,rfl⟩
  | root further => exact absurd List.mem_cons_self noRoot
  | current inside | parent inside | new inside | last inside | link inside | through inside =>
    rw [outside] at inside
    cases inside

/-- A path leads where it led before if no link that it follows was replaced. -/
theorem Leads.written (leads : fs.Leads followLast create links here steps place followed)
    (written : Written fs after places) (unreplaced : ∀ link ∈ followed, link ∉ places) :
    after.Leads followLast create links here steps place followed := by
  induction leads with
  | done => exact .done
  | root further ih => exact .root (ih unreplaced)
  | current inside further ih => exact .current (written.isDirectory _ ▸ inside) (ih unreplaced)
  | parent inside further ih => exact .parent (written.isDirectory _ ▸ inside) (ih unreplaced)
  | @new here links name inside short free created =>
    have inside := written.isDirectory here ▸ inside
    -- The new file may have been written by now; then the path ends at what was written.
    by_cases there : here ++ [.text name] ∈ places
    · obtain ⟨_,content,number,file⟩ := written.filed _ there
      exact .through inside short file nofun .done
    · exact .new inside short (written.kept _ there ▸ free) created
  | @last here target links name inside short isLink left =>
    have inside := written.isDirectory here ▸ inside
    by_cases there : here ++ [.text name] ∈ places
    · obtain ⟨_,content,number,file⟩ := written.filed _ there
      exact .through inside short file nofun .done
    · exact .last inside short (written.kept _ there ▸ isLink) left
  | @link here target links rest place followed name inside short isLink goesOn some further ih =>
    have inside := written.isDirectory here ▸ inside
    have kept := written.kept _ (unreplaced _ List.mem_cons_self)
    exact .link inside short (kept ▸ isLink) goesOn some
      (ih fun link found => unreplaced link (List.mem_cons_of_mem _ found))
  | @through here node links rest place followed name inside short isNode plain further ih =>
    have inside := written.isDirectory here ▸ inside
    by_cases there : here ++ [.text name] ∈ places
    · obtain ⟨_,content,number,file⟩ := written.filed _ there
      exact .through inside short file nofun (ih unreplaced)
    · exact .through inside short (written.kept _ there ▸ isNode) plain (ih unreplaced)

/-- The first step of a path can be to the root, but no later one. -/
theorem root_not_mem_steps (path : String) : .root ∉ (FileSystem.steps path).tail := by
  have plain : ∀ part : List Char,
      (if part = [] ∨ part = ['.'] then Path.Component.current
        else if part = ['.','.'] then .parent else .name (String.ofList part)) ≠ .root := by
    intro part
    split
    · nofun
    · split <;> nofun
  unfold FileSystem.steps
  dsimp only
  split
  · intro found
    obtain ⟨part,_,same⟩ := List.mem_map.mp found
    exact plain part same
  · intro found
    obtain ⟨part,_,same⟩ := List.mem_map.mp (List.mem_of_mem_tail found)
    exact plain part same

theorem root_not_mem_tail {first rest : List Path.Component} (front : .root ∉ first.tail)
    (back : .root ∉ rest) : .root ∉ (first ++ rest).tail := by
  cases first with
  | nil => exact fun found => back (List.mem_of_mem_tail found)
  | cons step first => exact fun found => (List.mem_append.mp found).elim front back

/-- A path that may lead to a new file led there before if no link was replaced. -/
theorem Leads.unwritten (leads : after.Leads followLast create links here steps place followed)
    (written : Written fs after places) (noRoot : .root ∉ steps.tail)
    (unlinked : ∀ l ∈ places, ∀ target, fs.node? l ≠ some (.link target)) :
    fs.Leads followLast true links here steps place followed := by
  induction leads with
  | done => exact .done
  | root further ih => exact .root (ih fun found => noRoot (List.mem_of_mem_tail found))
  | current inside further ih =>
    exact .current (written.isDirectory _ ▸ inside)
      (ih fun found => noRoot (List.mem_of_mem_tail found))
  | parent inside further ih =>
    exact .parent (written.isDirectory _ ▸ inside)
      (ih fun found => noRoot (List.mem_of_mem_tail found))
  | @new here links name inside short free created =>
    have inside := written.isDirectory here ▸ inside
    have there : here ++ [.text name] ∉ places := written.not_mem (by simp [free])
    exact .new inside short (written.kept _ there ▸ free) rfl
  | @last here target links name inside short isLink left =>
    have inside := written.isDirectory here ▸ inside
    have there : here ++ [.text name] ∉ places := written.not_mem (by simp [isLink])
    exact .last inside short (written.kept _ there ▸ isLink) left
  | @link here target links rest place followed name inside short isLink goesOn some further ih =>
    have inside := written.isDirectory here ▸ inside
    have there : here ++ [.text name] ∉ places := written.not_mem (by simp [isLink])
    have tail := root_not_mem_tail (root_not_mem_steps target) noRoot
    exact .link inside short (written.kept _ there ▸ isLink) goesOn some (ih tail)
  | @through here node links rest place followed name inside short isNode plain further ih =>
    have inside := written.isDirectory here ▸ inside
    have further' := ih fun found => noRoot (List.mem_of_mem_tail found)
    by_cases there : here ++ [.text name] ∈ places
    · obtain ⟨vacant,content,number,file⟩ := written.filed _ there
      -- The file is new, or took the place of another one: no directory was there, and no link.
      cases old : fs.node? (here ++ [.text name]) with
      | none =>
        obtain ⟨rfl,rfl,rfl⟩ := further.file_end file noRoot
        exact .new inside short old rfl
      | some node =>
        refine .through inside short old ?_ further'
        rintro target rfl
        exact unlinked _ there target old
    · exact .through inside short (written.kept _ there ▸ isNode) plain further'

theorem Rooted.written (rooted : fs.Rooted) (written : Written fs after places) : after.Rooted where
  above location name inside := by
    rw [written.isDirectory] at inside ⊢
    exact rooted.above location name inside
  here := by
    rw [written.isDirectory, written.here]
    exact rooted.here

variable {path : FilePath}

theorem Written.start (written : Written fs after places) (path : FilePath) :
    path.start after = path.start fs := by
  cases path with
  | given text => exact written.here
  | below place names => rfl

theorem root_not_mem_tail_steps (path : FilePath) : .root ∉ path.steps.tail := by
  cases path with
  | given text => exact FileSystem.root_not_mem_steps text
  | below place names =>
    intro found
    obtain ⟨_,_,same⟩ := List.mem_map.mp (List.mem_of_mem_tail found)
    cases same

theorem Reaches.written (reaches : fs.Reaches followLast create path place followed)
    (written : Written fs after places) (unreplaced : ∀ link ∈ followed, link ∉ places) :
    after.Reaches followLast create path place followed where
  noZero := reaches.noZero
  named := reaches.named
  short := reaches.short
  leads := written.start path ▸ reaches.leads.written written unreplaced

/-- A path led before to where it leads now, if no link was replaced. -/
theorem Written.resolveWith_before (written : Written fs after places)
    (unlinked : ∀ l ∈ places, ∀ target, fs.node? l ≠ some (.link target))
    (resolved : after.resolveWith followLast create path = .ok place) :
    fs.resolveWith followLast true path = .ok place := by
  obtain ⟨followed,reaches⟩ := resolveWith_eq_ok_iff.mp resolved
  have leads := (written.start path ▸ reaches.leads).unwritten written
    (root_not_mem_tail_steps path) unlinked
  exact resolveWith_eq_ok_iff.mpr ⟨followed,{ reaches with leads := leads }⟩

def Untouched (fs : FileSystem) (places : List Location) (followLast : Bool) (path : FilePath) :
    Prop :=
  ∀ place followed, fs.Reaches followLast true path place followed →
    ∀ link ∈ followed, link ∉ places

theorem Written.resolveWith (written : Written fs after places)
    (untouched : fs.Untouched places followLast path)
    (resolved : fs.resolveWith followLast create path = .ok place) :
    after.resolveWith followLast create path = .ok place := by
  obtain ⟨followed,reaches⟩ := resolveWith_eq_ok_iff.mp resolved
  exact resolveWith_eq_ok_iff.mpr
    ⟨followed,reaches.written written (untouched place followed reaches.creating)⟩

theorem Written.read {content : ByteArray} (written : Written fs after places)
    (untouched : fs.Untouched places true path)
    (apart : ∀ place, fs.resolveWith true true path = .ok place → place ∉ places)
    (read : fs.read path = .ok content) : after.read path = .ok content := by
  obtain ⟨place,number,resolved,file⟩ := read_eq_ok_iff.mp read
  refine read_eq_ok_iff.mpr ⟨place,number,written.resolveWith untouched resolved,?_⟩
  rw [written.kept place (apart place (resolveWith_creating resolved)), file]

/-- A file that was not written to was read before, if no link was replaced. -/
theorem Written.read_before {content : ByteArray} (written : Written fs after places)
    (unlinked : ∀ l ∈ places, ∀ target, fs.node? l ≠ some (.link target))
    (apart : ∀ place, fs.resolveWith true true path = .ok place → place ∉ places)
    (read : after.read path = .ok content) : fs.read path = .ok content := by
  obtain ⟨place,number,resolved,file⟩ := read_eq_ok_iff.mp read
  have before := written.resolveWith_before unlinked resolved
  rw [written.kept place (apart place before)] at file
  refine read_eq_ok_iff.mpr ⟨place,number,resolveWith_existing before ?_,file⟩
  rw [file]
  nofun

end FileSystem

end ThemeForge
