import ThemeForge.Files.Content
import ThemeForge.Proofs.Files.Leading
import Mathlib.Data.Finset.Card

/-!
# How deep directories go

The content of a directory is listed as deep as it goes. On the way down every link leads to a
directory that was not entered before, and between two links each directory is longer than the one
before, so the number of levels is bounded by the entries of the file system.
-/

namespace ThemeForge.FileSystem

variable {fs : FileSystem} {trail : List (Location × List FileName)} {location there : Location}
  {name : FileName}

def contentAt (fs : FileSystem) (inside : Location → List (FileName × Content))
    (trail : List (Location × List FileName)) (location : Location) (name : FileName) : Content :=
  match fs.node? (location ++ [name]) with
  | some .directory => .directory (inside (location ++ [name]))
  | some (.link target) =>
    match fs.follow location target with
    | .error error => .unreadable (.os error)
    | .ok there =>
      if fs.isDirectory there then
        match trail.find? fun ancestor => ancestor.1 = there with
        | some (_,ancestor) => .unreadable (.loop ancestor)
        | none => .directory (inside there)
      else .file
  | _ => .file

theorem contentTo_succ (depth : Nat) (trail : List (Location × List FileName))
    (location : Location) (place : List FileName) :
    fs.contentTo (depth + 1) trail location place = (fs.names location).map fun name =>
      (name,fs.contentAt (fun there => fs.contentTo depth ((there,place ++ [name]) :: trail) there
        (place ++ [name])) trail location name) := by
  rw [contentTo]
  refine List.map_congr_left fun name _ => ?_
  unfold contentAt
  dsimp only
  cases fs.node? (location ++ [name]) with
  | none => rfl
  | some node =>
    cases node with
    | file | directory => rfl
    | link target =>
      dsimp only
      cases fs.follow location target with
      | error error => rfl
      | ok there =>
        dsimp only
        split
        · cases trail.find? fun ancestor => ancestor.1 = there <;> rfl
        · rfl

/-- A directory in which there are only files. -/
theorem content_files (files : ∀ name ∈ fs.names location,
      ∃ content, fs.node? (location ++ [name]) = some (.file content)) :
    fs.content location = (fs.names location).map fun name => (name,.file) := by
  obtain ⟨depth,deep⟩ : ∃ depth, (fs.entries.length + 2) * (fs.entries.length + 2) = depth + 1 :=
    Nat.exists_eq_succ_of_ne_zero (by simp)
  rw [content, deep, contentTo_succ]
  refine List.map_congr_left fun name listed => ?_
  obtain ⟨content,file⟩ := files name listed
  rw [contentAt, file]

/-- A directory is entered from another one by a name in it. -/
inductive Enters (fs : FileSystem) (trail : List (Location × List FileName)) (location : Location)
    (name : FileName) : Location → Prop
  | directory (inside : fs.node? (location ++ [name]) = some .directory) :
      Enters fs trail location name (location ++ [name])
  | link (isLink : fs.node? (location ++ [name]) = some (.link target))
      (followed : fs.follow location target = .ok other) (inside : fs.isDirectory other = true)
      (new : ∀ ancestor ∈ trail, ancestor.1 ≠ other) : Enters fs trail location name other

theorem contentAt_congr {inside inside' : Location → List (FileName × Content)}
    (same : ∀ there, fs.Enters trail location name there → inside there = inside' there) :
    fs.contentAt inside trail location name = fs.contentAt inside' trail location name := by
  unfold contentAt
  cases node : fs.node? (location ++ [name]) with
  | none => rfl
  | some found =>
    cases found with
    | file content => rfl
    | directory =>
      dsimp only
      rw [same _ (.directory node)]
    | link target =>
      dsimp only
      cases followed : fs.follow location target with
      | error error => rfl
      | ok there =>
        dsimp only
        split
        · rename_i directory
          cases ancestor : trail.find? fun ancestor => ancestor.1 = there with
          | some entered => rfl
          | none =>
            have new : ∀ ancestor ∈ trail, ancestor.1 ≠ there := by
              simpa using List.find?_eq_none.mp ancestor
            dsimp only
            rw [same _ (.link node followed directory new)]
        · rfl

def places (fs : FileSystem) : Finset Location := insert [] (fs.entries.map Prod.fst).toFinset

theorem mem_places (inside : fs.isDirectory location = true) : location ∈ fs.places := by
  rw [places, Finset.mem_insert, List.mem_toFinset]
  by_cases root : location = []
  · exact .inl root
  · exact .inr (List.mem_map_of_mem (mem_entries root (isDirectory_iff.mp inside)))

theorem card_places (fs : FileSystem) : fs.places.card ≤ fs.entries.length + 1 := by
  refine (Finset.card_insert_le _ _).trans (Nat.succ_le_succ ?_)
  exact (List.toFinset_card_le _).trans (List.length_map _).le

/-- The places that were not entered yet. -/
def unentered (fs : FileSystem) (trail : List (Location × List FileName)) : Finset Location :=
  fs.places.filter fun place => place ∉ trail.map Prod.fst

def below (fs : FileSystem) (location : Location) : Finset Location :=
  fs.places.filter fun place => location <+: place ∧ place ≠ location

def levels (fs : FileSystem) (trail : List (Location × List FileName)) (location : Location) :
    Nat :=
  (fs.unentered trail).card * (fs.places.card + 1) + (fs.below location).card

theorem Enters.levels_lt (enters : fs.Enters trail location name there) (place : List FileName) :
    fs.levels ((there,place) :: trail) there < fs.levels trail location := by
  have fewer : fs.unentered ((there,place) :: trail) ⊆ fs.unentered trail := by
    intro other found
    simp only [unentered, Finset.mem_filter, List.map_cons, List.mem_cons, not_or] at found ⊢
    exact ⟨found.1,found.2.2⟩
  have few : (fs.below there).card ≤ fs.places.card := Finset.card_filter_le _ _
  unfold levels
  cases enters with
  | directory inside =>
    -- A real directory may have been entered before, through a link to one above it.
    have lower : fs.below (location ++ [name]) ⊂ fs.below location := by
      refine Finset.ssubset_iff_of_subset ?_ |>.mpr ⟨location ++ [name],?_,?_⟩
      · intro other found
        simp only [below, Finset.mem_filter] at found ⊢
        obtain ⟨place,⟨further,rfl⟩,apart⟩ := found
        refine ⟨place,⟨name :: further,by simp⟩,?_⟩
        simp
      · simp [below, mem_places (isDirectory_iff.mpr inside)]
      · simp [below]
    have first := Nat.mul_le_mul_right (fs.places.card + 1) (Finset.card_le_card fewer)
    exact Nat.add_lt_add_of_le_of_lt first (Finset.card_lt_card lower)
  | link isLink followed inside new =>
    have unseen : there ∈ fs.unentered trail := by
      simp only [unentered, Finset.mem_filter, List.mem_map, not_exists, not_and]
      exact ⟨mem_places inside,new⟩
    have proper : fs.unentered ((there,place) :: trail) ⊂ fs.unentered trail := by
      refine (Finset.ssubset_iff_of_subset fewer).mpr ⟨there,unseen,?_⟩
      simp [unentered]
    have first := Nat.mul_le_mul_right (fs.places.card + 1) (Finset.card_lt_card proper)
    rw [Nat.succ_mul] at first
    omega

/-- A listing that is deep enough does not depend on how deep it may be. -/
theorem contentTo_deep {depth deeper : Nat} {place : List FileName}
    (deep : fs.levels trail location < depth) (deep' : fs.levels trail location < deeper) :
    fs.contentTo depth trail location place = fs.contentTo deeper trail location place := by
  induction depth generalizing deeper trail location place with
  | zero => cases deep
  | succ depth ih =>
    cases deeper with
    | zero => cases deep'
    | succ deeper =>
      rw [contentTo_succ, contentTo_succ]
      refine List.map_congr_left fun name _ => ?_
      refine congrArg _ (contentAt_congr fun there enters => ?_)
      have fewer := enters.levels_lt (place ++ [name])
      exact ih (by omega) (by omega)

/-- The levels of a directory stay below what its listing allows for. -/
theorem levels_content (fs : FileSystem) (location : Location) :
    fs.levels [(location,[])] location < (fs.entries.length + 2) * (fs.entries.length + 2) := by
  have few : (fs.below location).card ≤ fs.places.card := Finset.card_filter_le _ _
  have fewer : (fs.unentered [(location,[])]).card ≤ fs.places.card := Finset.card_filter_le _ _
  have bound := Nat.succ_le_succ fs.card_places
  calc fs.levels [(location,[])] location
      ≤ fs.places.card * (fs.places.card + 1) + fs.places.card :=
        Nat.add_le_add (Nat.mul_le_mul_right _ fewer) few
    _ < (fs.places.card + 1) * (fs.places.card + 1) := by
        rw [Nat.succ_mul]
        omega
    _ ≤ (fs.entries.length + 2) * (fs.entries.length + 2) := Nat.mul_le_mul bound bound

end ThemeForge.FileSystem
