import ThemeForge.Archive.Writing
import ThemeForge.Proofs.Files.Written

/-!
# Writing files

A write changes one file under all of its names, and one that fails can leave it cut. Texts are
written one after another, up to the first that fails.
-/

namespace ThemeForge.FileSystem

variable {fs between after : FileSystem} {location place : Location}
  {places : List Location} {create : Bool} {path : FilePath}
  {name : String} {content : ByteArray} {trouble : Option Trouble} {disk : Disk}

theorem resolveWith_unlinked (resolved : fs.resolveWith true create name = .ok place)
    (rooted : fs.Rooted) : ∀ target, fs.node? place ≠ some (.link target) := by
  obtain ⟨_,reaches⟩ := resolveWith_eq_ok_iff.mp resolved
  refine reaches.leads.unlinked rooted ?_
  intro target isLink
  cases (isDirectory_iff.mp rooted.here).symm.trans isLink

/-- A new file takes a path's place, unless a directory is there or there is trouble. -/
theorem replace_eq_ok_iff : fs.replace trouble path content = .ok after ↔
    ∃ place, fs.resolveWith false true path = .ok place ∧ fs.isDirectory place = false ∧
      trouble = none ∧ fs.put place (.file content) = after := by
  rw [replace, bind_ok_iff]
  refine exists_congr fun place => and_congr_right fun _ => ?_
  cases vacant : fs.isDirectory place with
  | true => exact ⟨nofun,nofun⟩
  | false =>
    cases trouble with
    | some trouble => exact ⟨nofun,nofun⟩
    | none => exact ⟨fun done => ⟨rfl,rfl,Except.ok.inj done⟩,fun ⟨_,_,done⟩ => congrArg _ done⟩

/-- A file is written where its path leads, unless a directory is there or there is trouble. -/
theorem write_eq_done_iff : fs.write trouble path content = (after,none) ↔
    ∃ place, fs.resolveWith true true path = .ok place ∧ fs.isDirectory place = false ∧
      trouble = none ∧ fs.fill place content = after := by
  unfold write
  cases fs.resolveWith true true path with
  | error error => simp
  | ok place =>
    cases vacant : fs.isDirectory place with
    | true => simp [vacant]
    | false =>
      rcases trouble with _ | error | ⟨count,error⟩ <;> simp [vacant]

/-- What a write that failed can leave: all as it was, or a file that was opened and has the
beginning of what was to be in it, if anything. -/
inductive Spoils (fs : FileSystem) (path : FilePath) (content : ByteArray) : FileSystem → Prop
  | nothing : Spoils fs path content fs
  | opened (resolved : fs.resolveWith true true path = .ok target)
      (vacant : fs.isDirectory target = false) (count : Nat) :
      Spoils fs path content (fs.fill target (content.extract 0 count))

theorem write_spoils {error : OsError}
    (failed : fs.write trouble path content = (after,some error)) :
    fs.Spoils path content after := by
  unfold write at failed
  split at failed
  · cases failed
    exact .nothing
  · rename_i place resolved
    split at failed
    · cases failed
      exact .nothing
    · rename_i vacant
      split at failed
      · cases failed
      · cases failed
        exact .nothing
      · cases failed
        exact .opened resolved (by simpa using vacant) _

/-- A write, complete or not, changes one file under all of its names. -/
theorem write_written {result : Option OsError}
    (done : fs.write trouble path content = (after,result)) :
    ∃ places, Written fs after places ∧
      (∀ l ∈ places, ∃ place, fs.resolveWith true true path = .ok place ∧ fs.SameFile place l) ∧
      (result = none → ∃ place ∈ places, fs.resolveWith true true path = .ok place ∧
        ∀ l, fs.SameFile place l → l ∈ places) := by
  cases result with
  | none =>
    obtain ⟨place,resolved,vacant,_,rfl⟩ := write_eq_done_iff.mp done
    refine ⟨_,.fill vacant content,fun l among => ⟨place,resolved,mem_namesOf.mp among⟩,?_⟩
    intro _
    exact ⟨place,mem_namesOf.mpr (.inl rfl),resolved,fun l same => mem_namesOf.mpr same⟩
  | some error =>
    cases write_spoils done with
    | nothing => exact ⟨[],.refl fs,by simp,nofun⟩
    | opened resolved vacant count =>
      exact ⟨_,.fill vacant _,fun l among => ⟨_,resolved,mem_namesOf.mp among⟩,nofun⟩

/-- A file in the working directory is put there, be it new or in place of an old one. -/
theorem write_here
    (stepped : FileSystem.steps name = [.name name]) (short : name.utf8ByteSize ≤ maxName)
    (noZero : '\x00' ∉ name.toList) (inside : fs.isDirectory fs.workingDirectory = true)
    (plain : ∀ node, fs.node? (fs.workingDirectory ++ [.text name]) = some node →
      ∃ old, node = .file old) :
    fs.write none name content =
      (fs.put (fs.workingDirectory ++ [.text name]) (.file content),none) := by
  have unnumbered : fs.number? (fs.workingDirectory ++ [.text name]) = none := by
    unfold number?
    split
    · rename_i file
      obtain ⟨_,same⟩ := plain _ file
      cases same
      rfl
    · rfl
  have put : fs.fill (fs.workingDirectory ++ [.text name]) content =
      fs.put (fs.workingDirectory ++ [.text name]) (.file content) := by
    rw [fill, unnumbered]
  cases there : fs.node? (fs.workingDirectory ++ [.text name]) with
  | none =>
    refine write_eq_done_iff.mpr ⟨_,resolveWith_new stepped short noZero inside true there,?_,rfl,put⟩
    rw [isDirectory, there]
    rfl
  | some node =>
    obtain ⟨old,rfl⟩ := plain node there
    have place := resolveWith_old stepped short noZero inside true true there (by simp)
    refine write_eq_done_iff.mpr ⟨_,place,?_,rfl,put⟩
    rw [isDirectory, there]
    rfl

/-- Texts are written to the files that their paths led to at first, under all of their names. -/
theorem writeTexts_written {texts : List (String × String)} {result : Option Failure}
    (rooted : fs.Rooted) (copied : fs.writeTexts disk texts = (after,result)) :
    ∃ places, Written fs after places ∧
      (∀ l ∈ places, ∃ copy ∈ texts, ∃ place,
        fs.resolveWith true true copy.1 = .ok place ∧ fs.SameFile place l) ∧
      (result = none → ∀ copy ∈ texts, ∃ place ∈ places,
        fs.resolveWith true true copy.1 = .ok place ∧ ∀ l, after.SameFile place l → l ∈ places) := by
  induction texts generalizing fs with
  | nil =>
    cases copied
    exact ⟨[],.refl _,by simp,by simp⟩
  | cons copy rest ih =>
    obtain ⟨path,text⟩ := copy
    unfold writeTexts at copied
    split at copied
    · rename_i failed
      cases copied
      obtain ⟨places,written,sources,_⟩ := write_written failed
      refine ⟨places,written,fun l among => ?_,nofun⟩
      obtain ⟨place,resolved,same⟩ := sources l among
      exact ⟨(path,text),List.mem_cons_self,place,resolved,same⟩
    · rename_i between done
      obtain ⟨first,wrote,own,target⟩ := write_written done
      obtain ⟨places,written,sources,targets⟩ := ih (rooted.written wrote) copied
      -- The first copy replaced no link, so the later ones go where they would have gone before it.
      have before : ∀ (path : String) (l : Location),
          between.resolveWith true true path = .ok l → fs.resolveWith true true path = .ok l := by
        intro path l resolvedLater
        refine wrote.resolveWith_before ?_ resolvedLater
        intro other among
        obtain ⟨place,resolved,same⟩ := own other among
        exact same.unlinked (resolveWith_unlinked resolved rooted)
      refine ⟨first ++ places,wrote.trans written,?_,?_⟩
      · intro l found
        rcases List.mem_append.mp found with early | later
        · obtain ⟨place,resolved,same⟩ := own l early
          exact ⟨(path,text),List.mem_cons_self,place,resolved,same⟩
        · obtain ⟨copy,among,place,resolved,same⟩ := sources l later
          exact ⟨copy,List.mem_cons_of_mem _ among,place,before _ _ resolved,wrote.sameFile same⟩
      · intro all copy found
        rcases List.mem_cons.mp found with rfl | later
        · obtain ⟨place,among,resolved,names⟩ := target rfl
          refine ⟨place,List.mem_append_left _ among,resolved,fun l same => ?_⟩
          exact List.mem_append_left _ (names l ((wrote.trans written).sameFile same))
        · obtain ⟨place,among,resolved,names⟩ := targets all copy later
          exact ⟨place,List.mem_append_right _ among,before _ _ resolved,
            fun l same => List.mem_append_right _ (names l same)⟩

/-- Texts that are not all written are so up to the first one that fails. -/
theorem writeTexts_stopped {texts : List (String × String)} {failure : Failure}
    (copied : fs.writeTexts disk texts = (after,some failure)) :
    ∃ done path text rest between error, texts = done ++ (path,text) :: rest ∧
      fs.writeTexts disk done = (between,none) ∧
      between.write (disk path) path text.toUTF8 = (after,some error) ∧
      failure = .fileWrite path error := by
  induction texts generalizing fs with
  | nil => cases copied
  | cons copy rest ih =>
    obtain ⟨path,text⟩ := copy
    unfold writeTexts at copied
    split at copied
    · rename_i failed
      cases copied
      exact ⟨[],path,text,rest,fs,_,rfl,rfl,failed,rfl⟩
    · rename_i wrote
      obtain ⟨done,path',text',rest',between,error,rfl,before,failed,reason⟩ := ih copied
      refine ⟨(path,text) :: done,path',text',rest',between,error,rfl,?_,failed,reason⟩
      simp only [writeTexts, wrote, before]

theorem Written.congr (written : Written fs after places) (same : ∀ l, l ∈ places ↔ l ∈ later) :
    Written fs after later where
  here := written.here
  listed := by
    obtain ⟨new,keys,free⟩ := written.listed
    exact ⟨new,keys,fun l found => ⟨(same l).mp (free l found).1,(free l found).2⟩⟩
  kept := fun l apart => written.kept l (mt (same l).mp apart)
  filed := fun l place => written.filed l ((same l).mpr place)
  numbered := written.numbered

theorem Written.writeTexts {texts : List (String × String)} (written : Written fs between places)
    (able : ∀ path, disk path = none)
    (each : ∀ copy ∈ texts, ∃ place ∈ places, (∀ l, between.SameFile place l → l ∈ places) ∧
      ∃ followed, fs.Reaches true true copy.1 place followed ∧ ∀ link ∈ followed, link ∉ places) :
    ∃ after, between.writeTexts disk texts = (after,none) ∧ Written fs after places := by
  induction texts generalizing between with
  | nil => exact ⟨between,rfl,written⟩
  | cons copy rest ih =>
    obtain ⟨path,text⟩ := copy
    obtain ⟨place,among,names,followed,reaches,unreplaced⟩ := each (path,text) List.mem_cons_self
    have resolved := resolveWith_eq_ok_iff.mpr ⟨followed,reaches.written written unreplaced⟩
    have vacant : between.isDirectory place = false := by
      rw [written.isDirectory]
      exact (written.filed place among).1
    have done : between.write (disk path) path text.toUTF8 = (between.fill place text.toUTF8,none) :=
      write_eq_done_iff.mpr ⟨place,resolved,vacant,able path,rfl⟩
    have wrote := Written.fill vacant text.toUTF8
    -- Writing to the same places again adds none to them.
    have again : Written fs (between.fill place text.toUTF8) places := by
      refine (written.trans wrote).congr ?_
      intro l
      rw [List.mem_append]
      exact ⟨fun found => found.elim id fun own => names l (mem_namesOf.mp own),.inl⟩
    obtain ⟨after,later,written⟩ := ih again fun copy found => by
      obtain ⟨place,among,names,rest⟩ := each copy (List.mem_cons_of_mem _ found)
      exact ⟨place,among,fun l same => names l (wrote.sameFile same),rest⟩
    refine ⟨after,?_,written⟩
    simp only [FileSystem.writeTexts, done, later]

end ThemeForge.FileSystem
