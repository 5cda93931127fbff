import LayoutRebuild.Proofs.Build.Detection
import LayoutRebuild.Proofs.Build.Invalidation
import LayoutRebuild.Proofs.Build.OutputNames

/-!
# What an unusable log costs

A log that is missing, damaged or not asked for costs a full build and nothing else
(`unusable_log_costs_full_build`).  A resolution fails only for a descriptor folder that is there and
cannot be listed.  If there is no log to go on from, every descriptor is read, nothing is kept, and what
is known of other modules is the same as if there were no log at all.
-/

namespace LayoutRebuild

variable {fs fs' : FileSystem} {args : Arguments} {r : Resolution} {diagnostics : List Diagnostic}

theorem descriptorFiles_eq_error_iff {folder : Path} :
    (∃ fault, descriptorFiles fs folder = .error fault) ↔
      fs.exists? folder = true ∧ ∃ fault, fs.listFiles folder = .error fault := by
  unfold descriptorFiles
  cases fs.exists? folder with
  | false => simp
  | true => cases fs.listFiles folder <;> simp

/-- A resolution fails only for its descriptor folder. -/
theorem resolve_eq_error_iff : (∃ fault, resolve fs args = .error fault) ↔
    fs.exists? args.descriptorFolder = true ∧
      ∃ fault, fs.listFiles args.descriptorFolder = .error fault := by
  rw [← descriptorFiles_eq_error_iff]
  unfold resolve
  cases descriptorFiles fs args.descriptorFolder <;> simp

/-! ## Nothing to go on from -/

/-- A build that starts anew throws away every class of the log that it does not use. -/
theorem Resolution.mem_invalidatedClasses_startOver {reason : FullBuildReason}
    {old : Option BuildLog} {present : PathSet} {dependencyClasses : ClassTable} {name : String} :
    name ∈ (startOver reason old present dependencyClasses).invalidatedClasses ↔
      ∃ log, old = some log ∧
        ∃ layout c, log.classes.get? layout = some c ∧ c.qualifiedName = name := by
  cases old with
  | none =>
    constructor
    · intro hname
      exact absurd hname (Table.not_mem_empty name)
    · rintro ⟨log, hlog, -⟩
      cases hlog
  | some log =>
    have hnames : name ∈ ClassTable.classNames log.classes log.classes.keys ↔
        ∃ layout c, log.classes.get? layout = some c ∧ c.qualifiedName = name := by
      rw [ClassTable.mem_classNames]
      constructor
      · rintro ⟨layout, -, c, hc, hname⟩
        exact ⟨layout, c, hc, hname⟩
      · rintro ⟨layout, c, hc, hname⟩
        exact ⟨layout, Table.mem_keys_iff.mpr (Table.mem_of_get? hc), c, hc, hname⟩
    constructor
    · intro hname
      exact ⟨log, rfl, hnames.mp hname⟩
    · rintro ⟨log', hlog, hname⟩
      cases hlog
      exact hnames.mpr hname

/-- The build starts anew: it was not asked to go on from its log, or there is none that can be read. -/
def Arguments.StartsAnew (fs : FileSystem) (args : Arguments) : Prop :=
  args.incremental = false ∨ ∀ log, BuildLog.read fs args.logPath ≠ .ok (some log)

/-- The classes that are thrown away are those of a log that could have been used. -/
theorem Arguments.StartsAnew.resolve (h : args.StartsAnew fs) {present : PathSet}
    (hpresent : descriptorFiles fs args.descriptorFolder = .ok present) :
    ∃ reason old diagnostics,
      LayoutRebuild.resolve fs args =
        .ok (.startOver reason old present (upstreamClasses fs args), diagnostics) ∧
      ∀ log, old = some log ↔
        args.incremental = false ∧ BuildLog.read fs args.logPath = .ok (some log) := by
  unfold LayoutRebuild.resolve
  rw [hpresent]
  simp only
  unfold Resolution.previous
  by_cases hincremental : args.incremental = true
  · have hnone := h.resolve_left (by simp [hincremental])
    rw [if_pos hincremental]
    cases hread : BuildLog.read fs args.logPath with
    | error fault => exact ⟨.corruptLog fault, none, _, rfl, by simp [hincremental]⟩
    | ok log? =>
      cases log? with
      | none => exact ⟨.missingLog, none, _, rfl, by simp [hincremental]⟩
      | some log => exact absurd hread (hnone log)
  · rw [if_neg hincremental]
    refine ⟨.notIncremental, args.readableLog? fs, _, rfl, fun log => ?_⟩
    rw [readableLog?_eq_some, eq_false_of_ne_true hincremental]
    simp

/-! ## Without a log -/

/-- A build of the same module without a log: it looks for its log where none is, or its log file has
been removed. -/
inductive Arguments.WithoutLog (fs : FileSystem) (args : Arguments) : FileSystem → Arguments → Prop
  | elsewhere (logFolder : Path) (incremental : Bool)
      (missing : BuildLog.read fs (BuildLog.pathIn logFolder) = .ok none) :
      WithoutLog fs args fs { args with logFolder := logFolder, incremental := incremental }
  | removed {fs' : FileSystem} (incremental : Bool) (named : fs.WellNamed)
      (gone : fs.removeFile args.logPath = .ok fs') :
      WithoutLog fs args fs' { args with incremental := incremental }

/-- A log file that is removed is missed under its own name only. -/
theorem sameFiles_of_removed {folder : Path} (gone : fs.removeFile args.logPath = .ok fs') :
    FileSystem.SameFiles (· ≠ BuildLog.fileName) fs fs' folder := by
  refine .of_keeps (FileSystem.removeFile_keeps gone) (FileSystem.removeFile_keeps_back gone) ?_
  intro name loc hname hother hloc hnames
  obtain ⟨before, hsegments⟩ := Path.segments_join folder hname.no_slash
  have hlog := BuildLog.getLast?_of_names hnames
  rw [FileSystem.getLast?_of_locate hsegments hname hloc, Option.some.injEq] at hlog
  exact hother hlog

namespace Arguments.WithoutLog

variable {fs₀ : FileSystem} {args₀ : Arguments}

theorem startsAnew (h : args.WithoutLog fs fs₀ args₀) : args₀.StartsAnew fs₀ := by
  right
  intro log hread
  cases h with
  | elsewhere logFolder incremental missing =>
    have hsame := missing.symm.trans hread
    cases hsame
  | removed incremental named gone =>
    have hnone : BuildLog.read fs₀ args.logPath = .ok none := by
      unfold BuildLog.read LogFile.read FileSystem.readText FileSystem.read
      rw [FileSystem.content_removeFile gone]
      rfl
    have hsame := hnone.symm.trans hread
    cases hsame

/-- The log file is none of the files that the descriptors and the classes of other modules come from. -/
theorem same_outside (h : args.WithoutLog fs fs₀ args₀) {present : PathSet}
    (hpresent : descriptorFiles fs args.descriptorFolder = .ok present) :
    descriptorFiles fs₀ args₀.descriptorFolder = .ok present ∧
      upstreamClasses fs₀ args₀ = upstreamClasses fs args := by
  cases h with
  | elsewhere => exact ⟨hpresent, rfl⟩
  | removed incremental named gone =>
    have hnamed := named.removeFile gone
    have hlisted : ∃ present', descriptorFiles fs₀ args.descriptorFolder = .ok present' := by
      rw [exists_descriptorFiles_iff]
      intro content hread
      have hbefore := (FileSystem.removeFile_keeps_back gone).content hread fun _ _ => not_false
      exact exists_descriptorFiles_iff.mp ⟨present, hpresent⟩ content hbefore
    obtain ⟨present', hpresent'⟩ := hlisted
    have hother {folder : Path} : FileSystem.SameFiles (fun name => ¬ IsOutputName args.package name)
        fs fs₀ folder := by
      apply (sameFiles_of_removed gone).mono
      intro name houtput hlog
      exact houtput (.inl hlog)
    have hsame := present_congr named hnamed hpresent hpresent'
      (hother.mono fun _ => not_outputName_of_descriptor)
    have hupstream : upstreamClasses fs₀ args = upstreamClasses fs args := by
      apply upstreamClasses_congr named hnamed
      intro folder _
      exact hother.mono fun _ => not_outputName_of_foreign
    rw [hsame] at hpresent'
    exact ⟨hpresent', hupstream⟩

end Arguments.WithoutLog

/-- A resolution fails only for a descriptor folder that is there and cannot be listed, whatever is in
the place of the log and of the artifacts.  If the build starts anew, it reads every file in the folder
that has the name of a descriptor and keeps nothing of the log, and what it knows of other modules is
what it would know without a log.  The classes that are announced as stale are those of a log that can
be read and was not asked for. -/
theorem unusable_log_costs_full_build (fs : FileSystem) (args : Arguments) :
    ((∃ fault, resolve fs args = .error fault) ↔ fs.exists? args.descriptorFolder = true ∧
      ∃ fault, fs.listFiles args.descriptorFolder = .error fault) ∧
    ∀ r diagnostics, resolve fs args = .ok (r, diagnostics) → args.StartsAnew fs →
      r.mode.isFull = true ∧ descriptorFiles fs args.descriptorFolder = .ok r.filesToConsider ∧
      (fs.WellNamed → ∀ p, p ∈ r.filesToConsider.paths ↔
        args.descriptorFolder.text ≠ "" ∧ ∃ name, Path.IsName name ∧
          (DescriptorName.family? name).isSome ∧
          fs.isFile (args.descriptorFolder.join name) = true ∧
          p = args.descriptorFolder.join name) ∧
      r.unchangedLog = .empty ∧
      (∀ name, name ∈ r.invalidatedClasses ↔ args.incremental = false ∧ ∃ log,
        BuildLog.read fs args.logPath = .ok (some log) ∧
        ∃ layout c, log.classes.get? layout = some c ∧ c.qualifiedName = name) ∧
      ∀ fs₀ args₀, args.WithoutLog fs fs₀ args₀ → ∃ r₀ diagnostics₀,
        resolve fs₀ args₀ = .ok (r₀, diagnostics₀) ∧ r.existingClasses = r₀.existingClasses ∧
          r.dependencyClasses = r₀.dependencyClasses ∧ r.presentFiles = r₀.presentFiles := by
  refine ⟨resolve_eq_error_iff, ?_⟩
  intro r diagnostics hresolve hanew
  obtain ⟨present, hpresent, -⟩ := resolve_cases hresolve
  obtain ⟨reason, old, diagnostics', hstart, hold⟩ := hanew.resolve hpresent
  rw [hresolve, Except.ok.injEq, Prod.mk.injEq] at hstart
  obtain ⟨rfl, -⟩ := hstart
  refine ⟨rfl, hpresent, fun hnamed p => mem_present_iff_isFile hnamed hpresent, rfl, ?_, ?_⟩
  · intro name
    rw [Resolution.mem_invalidatedClasses_startOver]
    simp only [hold, and_assoc, exists_and_left]
  · intro fs₀ args₀ hwithout
    obtain ⟨hpresent₀, hupstream⟩ := hwithout.same_outside hpresent
    obtain ⟨reason₀, old₀, diagnostics₀, hresolve₀, -⟩ := hwithout.startsAnew.resolve hpresent₀
    refine ⟨_, diagnostics₀, hresolve₀, ?_⟩
    rw [hupstream]
    exact ⟨rfl, rfl, rfl⟩

/-- A log that breaks off after its first character. -/
def brokenLog : ByteArray := "\x7b".toUTF8

/-- A module with a broken log builds as it does once the log has been removed. -/
theorem broken_log_costs_full_build : ∃ fault r diagnostics r₀ diagnostics₀,
    BuildLog.read (.ofDescriptor "one".toUTF8 (some brokenLog)) Arguments.ofDescriptor.logPath =
      .error fault ∧
    resolve (.ofDescriptor "one".toUTF8 (some brokenLog)) .ofDescriptor = .ok (r, diagnostics) ∧
    resolve (.ofDescriptor "one".toUTF8 none) .ofDescriptor = .ok (r₀, diagnostics₀) ∧
    r.mode.isFull = true ∧ (Path.mk "info").join "a-layout.xml" ∈ r.filesToConsider.paths ∧
    r.unchangedLog = .empty ∧ r.existingClasses = r₀.existingClasses ∧
    r.dependencyClasses = r₀.dependencyClasses ∧ r.presentFiles = r₀.presentFiles := by
  obtain ⟨fault, hfault⟩ : ∃ fault, BuildLog.read (.ofDescriptor "one".toUTF8 (some brokenLog))
      Arguments.ofDescriptor.logPath = .error fault := ⟨_, rfl⟩
  have hanew : Arguments.ofDescriptor.StartsAnew
      (.ofDescriptor "one".toUTF8 (some brokenLog)) := by
    right
    intro log hread
    rw [hfault] at hread
    cases hread
  have hgone : (FileSystem.ofDescriptor "one".toUTF8 (some brokenLog)).removeFile
      Arguments.ofDescriptor.logPath = .ok (.ofDescriptor "one".toUTF8 none) := rfl
  obtain ⟨present, hpresent⟩ := listed_ofDescriptor "one".toUTF8 (some brokenLog)
  have hresolved : ∃ r diagnostics, resolve (.ofDescriptor "one".toUTF8 (some brokenLog))
      .ofDescriptor = .ok (r, diagnostics) := exists_resolve hpresent
  obtain ⟨r, diagnostics, hresolve⟩ := hresolved
  obtain ⟨hfull, -, hread, hunchanged, -, hsame⟩ :=
    (unusable_log_costs_full_build _ _).2 r diagnostics hresolve hanew
  have hdescriptor := (hread (wellNamed_ofDescriptor _ _) _).mpr
    ⟨by decide, "a-layout.xml", isName_descriptor, by decide, rfl, rfl⟩
  obtain ⟨r₀, diagnostics₀, hresolve₀, hsame₀⟩ :=
    hsame _ _ (.removed true (wellNamed_ofDescriptor _ _) hgone)
  exact ⟨fault, r, diagnostics, r₀, diagnostics₀, hfault, hresolve, hresolve₀, hfull, hdescriptor,
    hunchanged, hsame₀⟩

end LayoutRebuild
