import ThemeForge.Command.Build
import ThemeForge.Proofs.Compiling

/-!
# What a build does

A build that compiles no theme fails and has written nothing. One that does writes the loose copies
that are asked for, and if all of them were written the archive.
-/

namespace ThemeForge

/-- How the writing of a theme ends: a copy cannot be written, or the archive cannot be put in its
place, or both is done. -/
inductive BuildJob.Ends (job : BuildJob) (theme : Theme) (fs : FileSystem) (disk : Disk) :
    Outcome → Prop
  | stopped (copied : fs.writeTexts disk (job.copies theme) = (after,some reason)) :
      Ends job theme fs disk (.failed after printed skipped reason)
  | refused (copied : fs.writeTexts disk (job.copies theme) = (after,none))
      (refused : job.target.write after disk theme = .error reason) :
      Ends job theme fs disk (.failed after printed skipped reason)
  | done (copied : fs.writeTexts disk (job.copies theme) = (between,none))
      (written : job.target.write between disk theme = .ok (after,members)) :
      Ends job theme fs disk ⟨after,printed,skipped,some members,none⟩

theorem BuildJob.write_ends (job : BuildJob) (theme : Theme) (printed skipped : List String)
    (fs : FileSystem) (disk : Disk) :
    job.Ends theme fs disk (job.write theme printed skipped fs disk) := by
  unfold write
  split
  · rename_i copied
    exact .stopped copied
  · rename_i copied
    dsimp only
    split
    · rename_i refused
      exact .refused copied refused
    · rename_i written
      exact .done copied written

/-- A request is sound, and the folder that it names compiles to a theme. -/
structure BuildRequest.Compiles (r : BuildRequest) (fs : FileSystem) (glob : GlobReader)
    (job : BuildJob) (t : SourceTree) (theme : Theme) : Prop where
  prepared : r.prepare fs glob = .ok job
  discovered : SourceTree.discover fs job.input job.options.filter.includes = .ok t
  made : Theme.ofTree fs job.target.name job.options t = .ok theme

/-- How a build ends: it fails before anything is written, or its theme is written. -/
inductive BuildRequest.Ends (r : BuildRequest) (fs : FileSystem) (host : Host) : Outcome → Prop
  | failed : Ends r fs host (.failed fs printed skipped reason)
  | written (compiled : r.Compiles fs host.glob job t theme)
      (ends : job.Ends theme fs host.disk outcome) : Ends r fs host outcome

namespace BuildRequest

variable {r : BuildRequest} {fs : FileSystem} {host : Host} {glob : GlobReader} {job : BuildJob}
  {t : SourceTree} {theme : Theme}

theorem prepare_eq_ok_iff : r.prepare fs glob = .ok job ↔
    Target.ofOutput r.output = .ok job.target ∧
    parseOverrides r.overrides = .ok job.options.overrides ∧
    ResourceFilter.ofPatterns r.patterns glob = .ok job.options.filter ∧
    Tables.load fs r.constants r.presets = .ok job.options.tables ∧
    SourceTree.locate fs r.input = .ok job.input ∧
    job.options.minify = r.minify ∧ job.debug = r.debug := by
  constructor
  · intro prepared
    obtain ⟨target,accepted,prepared⟩ := bind_ok_iff.mp prepared
    obtain ⟨overrides,parsed,prepared⟩ := bind_ok_iff.mp prepared
    obtain ⟨filter,chosen,prepared⟩ := bind_ok_iff.mp prepared
    obtain ⟨tables,loaded,prepared⟩ := bind_ok_iff.mp prepared
    obtain ⟨input,located,made⟩ := bind_ok_iff.mp prepared
    cases made
    exact ⟨accepted,parsed,chosen,loaded,located,rfl,rfl⟩
  · obtain ⟨target,⟨minify,overrides,filter,tables⟩,input,debug⟩ := job
    rintro ⟨accepted,parsed,chosen,loaded,located,rfl,rfl⟩
    refine bind_ok_iff.mpr ⟨_,accepted,bind_ok_iff.mpr ⟨_,parsed,bind_ok_iff.mpr ⟨_,chosen,?_⟩⟩⟩
    exact bind_ok_iff.mpr ⟨_,loaded,bind_ok_iff.mpr ⟨_,located,rfl⟩⟩

theorem Compiles.run_eq (compiled : r.Compiles fs host.glob job t theme) :
    r.run fs host = job.write theme [job.announcement] t.orphans fs host.disk := by
  obtain ⟨prepared,discovered,made⟩ := compiled
  simp only [run, prepared, BuildJob.run, discovered, made]

/-- If everything can be written, that is what is left. -/
theorem Compiles.run_written (compiled : r.Compiles fs host.glob job t theme)
    (copied : fs.writeTexts host.disk (job.copies theme) = (between,none))
    (written : job.target.write between host.disk theme = .ok (after,members)) :
    ∃ printed, r.run fs host = ⟨after,printed,t.orphans,some members,none⟩ := by
  rw [compiled.run_eq]
  simp only [BuildJob.write, copied, written]
  exact ⟨_,rfl⟩

theorem run_ends (r : BuildRequest) (fs : FileSystem) (host : Host) :
    r.Ends fs host (r.run fs host) := by
  cases prepared : r.prepare fs host.glob with
  | error failure =>
    simp only [run, prepared]
    exact .failed
  | ok job =>
    cases discovered : SourceTree.discover fs job.input job.options.filter.includes with
    | error failure =>
      simp only [run, prepared, BuildJob.run, discovered]
      exact .failed
    | ok t =>
      cases made : Theme.ofTree fs job.target.name job.options t with
      | error failure =>
        simp only [run, prepared, BuildJob.run, discovered, made]
        exact .failed
      | ok theme =>
        have compiled : r.Compiles fs host.glob job t theme := ⟨prepared,discovered,made⟩
        rw [compiled.run_eq]
        exact .written compiled (job.write_ends theme _ _ fs host.disk)

end BuildRequest

end ThemeForge
