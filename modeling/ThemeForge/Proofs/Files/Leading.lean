import ThemeForge.Files.System

/-!
# Where a path leads

A walk that ends at a place as a derivation, with the links that are followed on the way. It is what
a resolution that succeeds does, step by step.
-/

namespace ThemeForge.FileSystem

/-- Steps lead from a location to a place. The links that are followed on the way are listed in
their order. -/
inductive Leads (fs : FileSystem) (followLast create : Bool) :
    Nat → Location → List Path.Component → Location → List Location → Prop
  | done : Leads fs followLast create links here [] here []
  | root (further : Leads fs followLast create links [] rest place followed) :
      Leads fs followLast create links here (.root :: rest) place followed
  | current (inside : fs.isDirectory here = true)
      (further : Leads fs followLast create links here rest place followed) :
      Leads fs followLast create links here (.current :: rest) place followed
  | parent (inside : fs.isDirectory here = true)
      (further : Leads fs followLast create links here.dropLast rest place followed) :
      Leads fs followLast create links here (.parent :: rest) place followed
  | new (inside : fs.isDirectory here = true) (short : name.utf8ByteSize ≤ maxName)
      (free : fs.node? (here ++ [.text name]) = none) (created : create = true) :
      Leads fs followLast create links here [.name name] (here ++ [.text name]) []
  | last (inside : fs.isDirectory here = true) (short : name.utf8ByteSize ≤ maxName)
      (there : fs.node? (here ++ [.text name]) = some (.link target)) (left : followLast = false) :
      Leads fs followLast create links here [.name name] (here ++ [.text name]) []
  | link (inside : fs.isDirectory here = true) (short : name.utf8ByteSize ≤ maxName)
      (there : fs.node? (here ++ [.text name]) = some (.link target))
      (goesOn : (rest.isEmpty && !followLast) = false) (some : target ≠ "")
      (further : Leads fs followLast create links here (steps target ++ rest) place followed) :
      Leads fs followLast create (links + 1) here (.name name :: rest) place
        ((here ++ [.text name]) :: followed)
  | through (inside : fs.isDirectory here = true) (short : name.utf8ByteSize ≤ maxName)
      (there : fs.node? (here ++ [.text name]) = some node) (plain : ∀ target, node ≠ .link target)
      (further : Leads fs followLast create links (here ++ [.text name]) rest place followed) :
      Leads fs followLast create links here (.name name :: rest) place followed

variable {fs : FileSystem} {followLast create : Bool} {links : Nat} {here place : Location}
  {steps : List Path.Component} {followed : List Location}

theorem isDirectory_iff : fs.isDirectory here = true ↔ fs.node? here = some .directory := by
  simp [isDirectory]

theorem mem_entries {node : Node} (some : here ≠ []) (there : fs.node? here = .some node) :
    (here,node) ∈ fs.entries := by
  rw [node?, if_neg some] at there
  obtain ⟨before,after,entries,_⟩ := List.lookup_eq_some_iff.mp there
  simp [entries]

theorem Leads.walk_eq (leads : fs.Leads followLast create links here steps place followed) :
    fs.walk followLast create links here steps = .ok place := by
  induction leads with
  | done => rw [walk]
  | root further ih => rw [walk, ih]
  | current inside further ih => rw [walk, if_pos inside, ih]
  | parent inside further ih => rw [walk, if_pos inside, ih]
  | new inside short free created =>
    rw [walk, if_pos inside, if_neg (Nat.not_lt.mpr short)]
    simp only [free, created]
    rfl
  | last inside short there left =>
    rw [walk, if_pos inside, if_neg (Nat.not_lt.mpr short)]
    simp only [there, left]
    rfl
  | link inside short there goesOn some further ih =>
    rw [walk, if_pos inside, if_neg (Nat.not_lt.mpr short)]
    simp only [there, goesOn, if_neg some, ih]
    rfl
  | through inside short there plain further ih =>
    rw [walk, if_pos inside, if_neg (Nat.not_lt.mpr short)]
    dsimp only
    split
    · rename_i missing
      cases missing.symm.trans there
    · rename_i isLink
      cases isLink.symm.trans there
      exact absurd rfl (plain _)
    · exact ih

theorem exists_leads {links : Nat} {here : Location} {steps : List Path.Component}
    (found : fs.walk followLast create links here steps = .ok place) :
    ∃ followed, fs.Leads followLast create links here steps place followed := by
  cases steps with
  | nil =>
    rw [walk] at found
    cases found
    exact ⟨[],.done⟩
  | cons step rest =>
    cases step with
    | root =>
      rw [walk] at found
      obtain ⟨followed,further⟩ := exists_leads found
      exact ⟨followed,.root further⟩
    | current =>
      rw [walk] at found
      by_cases inside : fs.isDirectory here = true
      · rw [if_pos inside] at found
        obtain ⟨followed,further⟩ := exists_leads found
        exact ⟨followed,.current inside further⟩
      · rw [if_neg inside] at found
        cases found
    | parent =>
      rw [walk] at found
      by_cases inside : fs.isDirectory here = true
      · rw [if_pos inside] at found
        obtain ⟨followed,further⟩ := exists_leads found
        exact ⟨followed,.parent inside further⟩
      · rw [if_neg inside] at found
        cases found
    | name name =>
      rw [walk] at found
      by_cases inside : fs.isDirectory here = true
      · by_cases long : maxName < name.utf8ByteSize
        · rw [if_pos inside, if_pos long] at found
          cases found
        · rw [if_pos inside, if_neg long] at found
          have short := Nat.not_lt.mp long
          cases there : fs.node? (here ++ [.text name]) with
          | none =>
            simp only [there] at found
            by_cases created : (create && rest.isEmpty) = true
            · rw [if_pos created] at found
              cases found
              obtain ⟨wanted,last⟩ := Bool.and_eq_true_iff.mp created
              cases List.isEmpty_iff.mp last
              exact ⟨[],.new inside short there wanted⟩
            · rw [if_neg created] at found
              cases found
          | some node =>
            cases node with
            | file | directory =>
              simp only [there] at found
              obtain ⟨followed,further⟩ := exists_leads found
              exact ⟨followed,.through inside short there (by simp) further⟩
            | link target =>
              simp only [there] at found
              by_cases left : (rest.isEmpty && !followLast) = true
              · rw [if_pos left] at found
                cases found
                obtain ⟨last,unfollowed⟩ := Bool.and_eq_true_iff.mp left
                cases List.isEmpty_iff.mp last
                exact ⟨[],.last inside short there (by simpa using unfollowed)⟩
              · rw [if_neg left] at found
                cases links with
                | zero => cases found
                | succ links =>
                  by_cases named : target = ""
                  · simp only [if_pos named] at found
                    cases found
                  · simp only [if_neg named] at found
                    obtain ⟨followed,further⟩ := exists_leads found
                    exact ⟨_,.link inside short there (by simpa using left) named further⟩
      · rw [if_neg inside] at found
        cases found
termination_by (links,steps.length)

theorem walk_eq_ok_iff : fs.walk followLast create links here steps = .ok place ↔
    ∃ followed, fs.Leads followLast create links here steps place followed :=
  ⟨exists_leads,fun ⟨_,leads⟩ => leads.walk_eq⟩

/-- Every directory lies in a directory, and one of them is where the program runs. -/
structure Rooted (fs : FileSystem) : Prop where
  above : ∀ location name, fs.isDirectory (location ++ [name]) = true →
    fs.isDirectory location = true
  here : fs.isDirectory fs.workingDirectory = true

theorem Rooted.of_entries (here : fs.isDirectory fs.workingDirectory = true)
    (each : ∀ entry ∈ fs.entries, fs.isDirectory entry.1.dropLast = true) : fs.Rooted where
  above location name inside := by
    simpa using each _ (mem_entries (by simp) (isDirectory_iff.mp inside))
  here := here

theorem Rooted.dropLast {location : Location} (rooted : fs.Rooted)
    (inside : fs.isDirectory location = true) : fs.isDirectory location.dropLast = true := by
  rcases List.eq_nil_or_concat location with rfl | ⟨before,name,rfl⟩
  · exact inside
  · rw [List.concat_eq_append] at inside ⊢
    rw [List.dropLast_concat]
    exact rooted.above before name inside

theorem Leads.unlinked (leads : fs.Leads true create links here steps place followed)
    (rooted : fs.Rooted) (start : ∀ target, fs.node? here ≠ some (.link target)) :
    ∀ target, fs.node? place ≠ some (.link target) := by
  have directory : ∀ l, fs.isDirectory l = true → ∀ target, fs.node? l ≠ some (.link target) := by
    intro l inside target isLink
    cases (isDirectory_iff.mp inside).symm.trans isLink
  induction leads with
  | done => exact start
  | root further ih => exact ih (directory [] rfl)
  | current inside further ih => exact ih (directory _ inside)
  | parent inside further ih => exact ih (directory _ (rooted.dropLast inside))
  | new inside short free created =>
    intro target isLink
    cases free.symm.trans isLink
  | last inside short isLink left => cases left
  | link inside short isLink goesOn some further ih => exact ih (directory _ inside)
  | through inside short isNode plain further ih =>
    refine ih fun target isLink => ?_
    cases isNode.symm.trans isLink
    exact plain target rfl

/-- Where no links are none are followed. -/
theorem Leads.unfollowed (leads : fs.Leads followLast create links here steps place followed)
    (unlinked : ∀ l target, fs.node? l ≠ some (.link target)) : followed = [] := by
  induction leads with
  | done | new | last => rfl
  | root further ih => exact ih
  | current inside further ih => exact ih
  | parent inside further ih => exact ih
  | link inside short there goesOn some further ih => exact absurd there (unlinked _ _)
  | through inside short there plain further ih => exact ih

theorem Leads.creating (leads : fs.Leads followLast create links here steps place followed) :
    fs.Leads followLast true links here steps place followed := by
  induction leads with
  | done => exact .done
  | root further ih => exact .root ih
  | current inside further ih => exact .current inside ih
  | parent inside further ih => exact .parent inside ih
  | new inside short free created => exact .new inside short free rfl
  | last inside short there left => exact .last inside short there left
  | link inside short there goesOn some further ih => exact .link inside short there goesOn some ih
  | through inside short there plain further ih => exact .through inside short there plain ih

/-- What exists is found where the last name must exist. -/
theorem Leads.existing (leads : fs.Leads followLast true links here steps place followed)
    (occupied : fs.node? place ≠ none) :
    fs.Leads followLast create links here steps place followed := by
  induction leads with
  | done => exact .done
  | root further ih => exact .root (ih occupied)
  | current inside further ih => exact .current inside (ih occupied)
  | parent inside further ih => exact .parent inside (ih occupied)
  | new inside short free created => exact absurd free occupied
  | last inside short there left => exact .last inside short there left
  | link inside short there goesOn some further ih =>
    exact .link inside short there goesOn some (ih occupied)
  | through inside short there plain further ih =>
    exact .through inside short there plain (ih occupied)

/-- What does not exist yet has a name that is text. -/
theorem Leads.text_end (leads : fs.Leads followLast create links here steps place followed)
    (rooted : fs.Rooted) (start : fs.node? here ≠ none) (free : fs.node? place = none) :
    ∃ directory name, place = directory ++ [.text name] := by
  have directory : ∀ l, fs.isDirectory l = true → fs.node? l ≠ none := by
    intro l inside none
    cases (isDirectory_iff.mp inside).symm.trans none
  induction leads with
  | done => exact absurd free start
  | root further ih => exact ih (directory [] rfl) free
  | current inside further ih => exact ih (directory _ inside) free
  | parent inside further ih => exact ih (directory _ (rooted.dropLast inside)) free
  | new inside short free created => exact ⟨_,_,rfl⟩
  | last inside short there left => exact ⟨_,_,rfl⟩
  | link inside short there goesOn some further ih => exact ih (directory _ inside) free
  | through inside short there plain further ih =>
    refine ih ?_ free
    rw [there]
    nofun

/-- A path leads to a place, and the links that are followed on the way. -/
structure Reaches (fs : FileSystem) (followLast create : Bool) (path : FilePath) (place : Location)
    (followed : List Location) : Prop where
  noZero : '\x00' ∉ path.text.toList
  named : path.text ≠ ""
  short : path.size ≤ maxPath
  leads : fs.Leads followLast create maxLinks (path.start fs) path.steps place followed

variable {path : FilePath}

theorem resolveWith_eq_ok_iff :
    fs.resolveWith followLast create path = .ok place ↔
      ∃ followed, fs.Reaches followLast create path place followed := by
  constructor
  · intro resolved
    unfold resolveWith at resolved
    split at resolved
    · cases resolved
    · rename_i noZero
      split at resolved
      · cases resolved
      · rename_i some
        split at resolved
        · cases resolved
        · rename_i short
          obtain ⟨followed,leads⟩ := exists_leads resolved
          exact ⟨followed,by simpa using noZero,some,Nat.not_lt.mp short,leads⟩
  · rintro ⟨followed,noZero,some,short,leads⟩
    rw [resolveWith, if_neg (by simpa using noZero), if_neg some, if_neg (Nat.not_lt.mpr short),
      leads.walk_eq]

theorem Reaches.creating (reaches : fs.Reaches followLast create path place followed) :
    fs.Reaches followLast true path place followed :=
  { reaches with leads := reaches.leads.creating }

theorem resolveWith_creating (resolved : fs.resolveWith followLast create path = .ok place) :
    fs.resolveWith followLast true path = .ok place := by
  obtain ⟨followed,reaches⟩ := resolveWith_eq_ok_iff.mp resolved
  exact resolveWith_eq_ok_iff.mpr ⟨followed,reaches.creating⟩

theorem resolveWith_existing (resolved : fs.resolveWith followLast true path = .ok place)
    (occupied : fs.node? place ≠ none) : fs.resolveWith followLast create path = .ok place := by
  obtain ⟨followed,reaches⟩ := resolveWith_eq_ok_iff.mp resolved
  exact resolveWith_eq_ok_iff.mpr
    ⟨followed,{ reaches with leads := reaches.leads.existing occupied }⟩

end ThemeForge.FileSystem
