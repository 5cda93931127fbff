import LayoutRebuild.Build.Resolution
import LayoutRebuild.Proofs.Artifact.Merged

/-!
# The two outcomes of a resolution

A resolution fails only if the descriptor folder cannot be listed.  Otherwise it goes on from the
previous log, if the build is incremental and there is a log that can be read, and starts anew if not
(`resolve_cases`).  In both cases it has seen the descriptors of the moment and the merged classes of
other modules.
-/

namespace LayoutRebuild

variable {fs : FileSystem} {args : Arguments} {r : Resolution} {diagnostics : List Diagnostic}

/-- The classes of other modules, merged from the dependency folders. -/
def upstreamClasses (fs : FileSystem) (args : Arguments) : ClassTable :=
  (MergedArtifacts.ofFolders fs args.dependencyFolders args.package).classes

/-- The classes of other modules are the same where the same artifacts of other modules can be read. -/
theorem upstreamClasses_congr {fs' : FileSystem} (hnamed : fs.WellNamed) (hnamed' : fs'.WellNamed)
    (h : ∀ folder ∈ args.dependencyFolders,
      FileSystem.SameFiles (MergedArtifacts.IsForeign args.package) fs fs' folder) :
    upstreamClasses fs' args = upstreamClasses fs args :=
  MergedArtifacts.classes_ofFolders_congr hnamed hnamed' h

/-- What an incremental build decides on, if there is a log to go on from. -/
def situation (fs : FileSystem) (args : Arguments) (log : BuildLog) (present : PathSet) :
    Situation :=
  ⟨log, present, upstreamClasses fs args, args.outOfDate, args.removed⟩

/-- The resolution starts anew or goes on from a log. -/
inductive Resolution.Outcome (fs : FileSystem) (args : Arguments) (present : PathSet) :
    Resolution → Prop
  | anew (reason : FullBuildReason) (old : Option BuildLog)
      (unused : args.incremental = false ∨ args.readableLog? fs = none) :
      Outcome fs args present (.startOver reason old present (upstreamClasses fs args))
  | onward (log : BuildLog) (incremental : args.incremental = true)
      (readable : args.readableLog? fs = some log) :
      Outcome fs args present (.ofSituation (situation fs args log present))

theorem readableLog?_eq_some {log : BuildLog} :
    args.readableLog? fs = some log ↔ BuildLog.read fs args.logPath = .ok (some log) := by
  unfold Arguments.readableLog?
  cases BuildLog.read fs args.logPath with
  | error fault => simp only [reduceCtorEq]
  | ok log? => simp only [Except.ok.injEq]

/-- A log that is not there, or cannot be read, is no log to go on from. -/
theorem readableLog?_eq_none (h : ∀ log, BuildLog.read fs args.logPath ≠ .ok (some log)) :
    args.readableLog? fs = none := by
  cases hlog : args.readableLog? fs with
  | none => rfl
  | some log => exact absurd (readableLog?_eq_some.mp hlog) (h log)

theorem recordedFingerprints_eq {log : BuildLog} (h : args.readableLog? fs = some log) :
    args.recordedFingerprints fs = log.fingerprints := by
  unfold Arguments.recordedFingerprints
  rw [h]

/-- A resolution that succeeds has one of the two outcomes. -/
theorem resolve_cases (h : resolve fs args = .ok (r, diagnostics)) :
    ∃ present, descriptorFiles fs args.descriptorFolder = .ok present ∧
      Resolution.Outcome fs args present r := by
  unfold resolve at h
  split at h
  · cases h
  next present hpresent =>
    refine ⟨present, hpresent, ?_⟩
    rw [Except.ok.injEq] at h
    unfold Resolution.previous at h
    split at h
    next hincremental =>
      cases hlog : BuildLog.read fs args.logPath with
      | error fault =>
        have hnone : args.readableLog? fs = none :=
          readableLog?_eq_none fun log heq => nomatch hlog.symm.trans heq
        rw [hlog] at h
        cases h
        exact .anew _ _ (.inr hnone)
      | ok log =>
        cases log with
        | none =>
          have hnone : args.readableLog? fs = none :=
            readableLog?_eq_none fun log heq => nomatch hlog.symm.trans heq
          rw [hlog] at h
          cases h
          exact .anew _ _ (.inr hnone)
        | some log =>
          rw [hlog] at h
          cases h
          exact .onward log hincremental (readableLog?_eq_some.mpr hlog)
    next hincremental =>
      cases h
      exact .anew _ _ (.inl (eq_false_of_ne_true hincremental))

/-- With a folder that can be listed, a resolution succeeds. -/
theorem exists_resolve {present : PathSet}
    (h : descriptorFiles fs args.descriptorFolder = .ok present) :
    ∃ r diagnostics, resolve fs args = .ok (r, diagnostics) := by
  rw [resolve, h]
  exact ⟨_, _, rfl⟩

/-- With a readable log and a descriptor folder that can be listed, an incremental build goes on from
the log. -/
theorem resolve_of_log {log : BuildLog} {present : PathSet} (hincremental : args.incremental = true)
    (hlog : BuildLog.read fs args.logPath = .ok (some log))
    (hpresent : descriptorFiles fs args.descriptorFolder = .ok present) :
    ∃ diagnostics, resolve fs args =
      .ok (.ofSituation (situation fs args log present), diagnostics) := by
  have hprevious : Resolution.previous fs args = .usable log := by
    rw [Resolution.previous, if_pos hincremental, hlog]
  simp only [resolve, hpresent, Resolution.plan, hprevious]
  exact ⟨_, rfl⟩

/-- An incremental build with a readable log and a descriptor folder that can be listed. -/
structure Resumes (fs : FileSystem) (args : Arguments) (log : BuildLog) (present : PathSet) :
    Prop where
  incremental : args.incremental = true
  readable : BuildLog.read fs args.logPath = .ok (some log)
  listed : descriptorFiles fs args.descriptorFolder = .ok present

theorem Resumes.resolve {log : BuildLog} {present : PathSet} (h : Resumes fs args log present) :
    ∃ diagnostics, LayoutRebuild.resolve fs args =
      .ok (.ofSituation (situation fs args log present), diagnostics) :=
  resolve_of_log h.incremental h.readable h.listed

/-- A log that cannot be read costs a full build. -/
theorem resolve_of_fault {fault : StoreFault} {present : PathSet}
    (hincremental : args.incremental = true)
    (hlog : BuildLog.read fs args.logPath = .error fault)
    (hpresent : descriptorFiles fs args.descriptorFolder = .ok present) :
    ∃ diagnostics, resolve fs args =
      .ok (.startOver (.corruptLog fault) none present (upstreamClasses fs args), diagnostics) := by
  have hprevious : Resolution.previous fs args = .unusable (.corruptLog fault) none := by
    rw [Resolution.previous, if_pos hincremental, hlog]
  simp only [resolve, hpresent, Resolution.plan, hprevious]
  exact ⟨_, rfl⟩

namespace Resolution.Outcome

variable {present : PathSet}

theorem presentFiles_eq (h : Outcome fs args present r) : r.presentFiles = present := by
  cases h <;> rfl

theorem dependencyClasses_eq (h : Outcome fs args present r) :
    r.dependencyClasses = upstreamClasses fs args := by
  cases h <;> rfl

/-- An incremental build with a readable log goes on from it. -/
theorem eq_ofSituation (h : Outcome fs args present r) {log : BuildLog}
    (hincremental : args.incremental = true) (hlog : args.readableLog? fs = some log) :
    r = .ofSituation (situation fs args log present) := by
  cases h with
  | anew reason old unused =>
    rcases unused with hfull | hnone
    · rw [hincremental] at hfull
      cases hfull
    · rw [hlog] at hnone
      cases hnone
  | onward log' incremental readable =>
    rw [hlog, Option.some.injEq] at readable
    rw [readable]

/-- Without a readable log, nothing stays. -/
theorem unchangedLog_eq_empty (h : Outcome fs args present r) (hnone : args.readableLog? fs = none) :
    r.unchangedLog = .empty := by
  cases h with
  | anew => rfl
  | onward log incremental readable =>
    rw [hnone] at readable
    cases readable

/-- What is to be considered at a place belongs to a family that is asked for. -/
theorem mem_families_of_holds (h : Outcome fs args present r) {folder p : Path} {family : String}
    (hpresent : descriptorFiles fs folder = .ok present)
    (hholds : r.filesToConsider.holds p = true) (hfamily : p.family? = some family) :
    family ∈ r.filesToConsider.families := by
  obtain ⟨paths, hpaths⟩ : ∃ paths, r.filesToConsider = PathSet.ofPaths paths := by
    cases h with
    | anew => exact present_eq_ofPaths hpresent
    | onward => exact ⟨_, rfl⟩
  rw [hpaths] at hholds ⊢
  exact PathSet.mem_families_of_holds hholds hfamily

end Resolution.Outcome

end LayoutRebuild
