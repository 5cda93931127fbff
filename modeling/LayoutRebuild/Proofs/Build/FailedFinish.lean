import LayoutRebuild.Proofs.Build.LateEdits
import LayoutRebuild.Proofs.Build.Quiescent
import LayoutRebuild.Proofs.FileSystem.Alike

/-!
# A build that cannot be finished

A build writes its log first and publishes its classes after it.  If the log cannot be written, no file
is changed.  If the classes cannot be published, the log is the only file that is: it is up to date, and
it has the classes.  So once nothing is in the way any more, the next build has nothing to do but to
publish what the failed one would have published (`failed_finish_recovers`).

A file that is written takes the place of one that has been removed before.  So if the device gives up in
between, the old file is lost; and there are modules that the next build does not get over
(`failed_finish_loses_work`).
-/

namespace LayoutRebuild

variable {fs after before later : FileSystem} {given args : Arguments} {r : Resolution}
  {diagnostics : List Diagnostic} {fresh next log : BuildLog} {fault : StoreFault} {folder : Path}

/-! ## The two ways to fail -/

theorem Artifact.publish_eq_error {package : String} {classes : ClassTable}
    (h : Artifact.publish fs folder package classes = (after, .error fault)) :
    LogFile.write fs (Artifact.pathIn folder package) (.ofClasses classes) = (after, .error fault) := by
  unfold Artifact.publish at h
  simp only at h
  split at h
  · cases h
  next refused fault' hwrite =>
    cases h
    exact hwrite

namespace Resolution

theorem persist_eq_error {logFolder : Path}
    (h : r.persist fs logFolder fresh = (after, .error fault)) :
    BuildLog.save fs (BuildLog.pathIn logFolder) (r.nextLog fs fresh) = (after, .error fault) := by
  unfold persist at h
  simp only at h
  split at h
  · cases h
  next refused fault' hsave =>
    cases h
    exact hsave

/-- A build fails to finish because its log cannot be written, or because its classes cannot be
published. -/
theorem finish_eq_error (h : r.finish fs args fresh = (after, .error fault)) :
    r.persist fs args.logFolder fresh = (after, .error fault) ∨
      ∃ written next folder, r.persist fs args.logFolder fresh = (written, .ok next) ∧
        args.artifactFolder = some folder ∧
        Artifact.publish written folder args.package next.classes = (after, .error fault) := by
  unfold finish at h
  split at h
  next refused fault' hpersist =>
    cases h
    exact .inl hpersist
  next written next hpersist =>
    split at h
    · cases h
    next folder hfolder =>
      split at h
      · cases h
      next refused fault' hpublish =>
        cases h
        exact .inr ⟨written, next, folder, hpersist, hfolder, hpublish⟩

/-- A log that cannot be written costs no file, unless the device gives up while it is written. -/
theorem unsaved_cases {logFolder : Path} (h : r.persist fs logFolder fresh = (after, .error fault)) :
    FileSystem.ChangesOnly (fun _ => False) fs after ∨
      LogFile.BrokenOff fs after (BuildLog.pathIn logFolder) (.ofLog (r.nextLog fs fresh)) fault :=
  LogFile.write_of_fault (persist_eq_error h)

/-- The log that is written changes the old one only, and what changes no other file after it changes
no other file altogether. -/
theorem changesOnly_of_saved {saved : FileSystem} {logFolder : Path} {touched : Location → Prop}
    (hsaved : r.persist fs logFolder fresh = (saved, .ok next))
    (hlast : FileSystem.ChangesOnly touched saved after) : FileSystem.ChangesOnly
      (fun loc => after.Names (BuildLog.pathIn logFolder) loc ∨ touched loc) fs after := by
  have hfirst : FileSystem.ChangesOnly
      ((LogFile.write fs (BuildLog.pathIn logFolder) (.ofLog next)).1.Names
        (BuildLog.pathIn logFolder)) fs
      (LogFile.write fs (BuildLog.pathIn logFolder) (.ofLog next)).1 := LogFile.write_changesOnly _
  have hsave := (persist_eq_ok_iff.mp hsaved).2
  rw [BuildLog.save] at hsave
  rw [hsave] at hfirst
  exact (hfirst.mono fun _ hnames => .inl (hlast.names hnames)).trans (hlast.mono fun _ => .inr)

/-- Classes that cannot be published cost no file but the old log, unless the device gives up while they
are written. -/
theorem unpublished_cases {saved : FileSystem} (hsaved : r.persist fs args.logFolder fresh =
      (saved, .ok next)) (hfolder : args.artifactFolder = some folder)
    (hrefused : Artifact.publish saved folder args.package next.classes = (after, .error fault)) :
    FileSystem.ChangesOnly (after.Names args.logPath) fs after ∨
      (FileSystem.ChangesOnly (args.Writes after) fs after ∧ LogFile.BrokenOff saved after
        (Artifact.pathIn folder args.package) (.ofClasses next.classes) fault) := by
  rcases LogFile.write_of_fault (Artifact.publish_eq_error hrefused) with hnothing | hbroken
  · left
    exact (changesOnly_of_saved hsaved hnothing).mono fun _ hloc => hloc.resolve_right id
  · refine .inr ⟨(changesOnly_of_saved hsaved hbroken.changesOnly).mono fun loc hloc => ?_, hbroken⟩
    rcases hloc with hlog | hartifact
    · exact ⟨args.logPath, List.mem_cons_self, hlog⟩
    · refine ⟨Artifact.pathIn folder args.package, ?_, hartifact⟩
      rw [Arguments.outputPaths, hfolder]
      exact List.mem_cons_of_mem _ List.mem_cons_self

end Resolution

/-! ## The build after it -/

/-- What the next build finds at `later`, when a build that was resolved at `before` with the arguments
`given` has failed: it had begun to finish at `fs`, and it had left `after`.  The log is what it left, and
the descriptors and the classes of other modules have not changed since it was resolved. -/
structure Unchanged (before fs after later : FileSystem) (given args : Arguments) : Prop where
  named : later.WellNamed
  log_eq : later.read args.logPath = after.read args.logPath
  listed : ∃ present, descriptorFiles later args.descriptorFolder = .ok present
  descriptorFolder_eq : given.descriptorFolder = args.descriptorFolder
  descriptors_fs : descriptorContents fs args.descriptorFolder =
    descriptorContents before args.descriptorFolder
  descriptors_later : descriptorContents later args.descriptorFolder =
    descriptorContents before args.descriptorFolder
  upstream_eq : upstreamClasses later args = upstreamClasses before given

/-- Nothing is in the way of the next build: it can read every descriptor, the device takes the log as
long as it is, and the classes can be published. -/
structure Unblocked (later : FileSystem) (args : Arguments) (folder : Path) (log : BuildLog) :
    Prop where
  readable : ∀ name, name ∉ unreadDescriptors later args.descriptorFolder
  takesLog : later.Takes args.logPath (LogFile.ofLog log).toText.toUTF8.size
  publishes : ∃ path, (Artifact.publish later folder args.package log.classes).2 = .ok path

/-- The log that a build leaves is up to date as long as the descriptors and the classes of other modules
are what they were when it was resolved. -/
theorem upToDate_nextLog (hbefore : before.WellNamed) (hfs : fs.WellNamed)
    (hresolve : resolve before given = .ok (r, diagnostics))
    (h : Unchanged before fs after later given args)
    (hread : BuildLog.read later args.logPath = .ok (some (r.nextLog fs fresh))) :
    UpToDate later args (r.nextLog fs fresh) := by
  refine ⟨hread, h.listed, ?_, ?_⟩
  · have hcontents := h.descriptors_later.trans h.descriptors_fs.symm
    rw [readableContents_congr hfs h.named hcontents]
    apply Table.ext_get?
    intro name
    rw [get?_fingerprints_nextLog hbefore hfs hresolve, h.descriptorFolder_eq, ← h.descriptors_fs,
      Table.get?_map]
    split
    · rfl
    next hnone =>
      rw [mem_descriptorContents_iff, not_or] at hnone
      rw [Table.get?_eq_none_iff.mpr hnone.1]
      rfl
  · obtain ⟨present, -, houtcome⟩ := resolve_cases hresolve
    rw [h.upstream_eq, Resolution.dependencyClasses_nextLog, houtcome.dependencyClasses_eq]

/-- With a log that is up to date, and if nothing is in the way, the next build publishes the classes of
the log. -/
theorem Rebuilds.exists_published {present : PathSet} (h : Rebuilds later args args.idle log present)
    (hread : later.read args.logPath = .ok (LogFile.ofLog log).toText.toUTF8)
    (hfolder : args.artifactFolder = some folder) (hfree : Unblocked later args folder log)
    (hnext : next = (Resolution.ofSituation (situation later args.idle log present)).nextLog later
      .empty) : next.classes = log.classes ∧ ∃ rest,
      (Resolution.ofSituation (situation later args.idle log present)).finish later args.idle .empty =
        (rest, .ok next) ∧
      rest.read (Artifact.pathIn folder args.package) =
        .ok (LogFile.ofClasses log.classes).toText.toUTF8 := by
  have hclasses : next.classes = log.classes := by
    rw [hnext, h.nextLog_eq]
    exact h.upToDate.idle.keptClasses_eq
  refine ⟨hclasses, ?_⟩
  -- To replace the content of the log is in nobody's way.
  have hstands := LogFile.stands_of_read BuildLog.isName_fileName hread
  obtain ⟨loc, hplace, hsave⟩ := hstands.write_eq (hnext ▸ h.takes_log hfree.takesLog)
  have halike := FileSystem.Alike.of_file (hstands.file_of_names ⟨false, hplace⟩)
    (.bytes (LogFile.ofLog next).toText.toUTF8)
  generalize later.setNode loc _ = saved at hsave halike
  obtain ⟨path, hpath⟩ := hfree.publishes
  obtain ⟨rest, hpublish⟩ : ∃ rest, LogFile.write saved (Artifact.pathIn folder args.package)
      (.ofClasses log.classes) = (rest, .ok ()) := by
    have hwrite := (Artifact.publish_eq_ok_iff.mp (Prod.ext rfl hpath)).2
    have hdone := (halike.write (Artifact.pathIn folder args.package) (.ofClasses log.classes)).2
    rw [hwrite] at hdone
    exact ⟨_, Prod.ext rfl hdone⟩
  have houtputs : args.idle.outputs next = [(args.logPath, .ofLog next),
      (Artifact.pathIn folder args.package, .ofClasses log.classes)] := by
    have hfolder' : args.idle.artifactFolder = some folder := hfolder
    rw [Arguments.outputs, hfolder', hclasses]
    rfl
  refine ⟨rest, Resolution.finish_eq_ok_iff.mpr ⟨hnext, ?_⟩, LogFile.read_write hpublish⟩
  rw [houtputs]
  exact .cons hsave (.cons hpublish (.nil rest))

/-- What a build that fails to finish costs.  If its log could not be written, no file is gone or changed,
unless the device has given up after the old log was removed: then there is no log, or a part of the new
one.  If its classes could not be published, the log is the next one, and every other file is what it
was, but for the artifact if the device has given up while it was written.  When nothing is in the way
any more, with everything else as it was when the build was resolved, the next build finds no change,
reads no descriptor and publishes the classes that the failed one would have published. -/
theorem failed_finish_recovers (hfinish : r.finish fs args fresh = (after, .error fault)) :
    (∀ cause, (r.persist fs args.logFolder fresh).2 = .error cause →
      FileSystem.ChangesOnly (fun _ => False) fs after ∨
        LogFile.BrokenOff fs after args.logPath (.ofLog (r.nextLog fs fresh)) fault) ∧
    ∀ next, (r.persist fs args.logFolder fresh).2 = .ok next →
      next = r.nextLog fs fresh ∧ BuildLog.read after args.logPath = .ok (some next) ∧
      ∃ folder, args.artifactFolder = some folder ∧
        (FileSystem.ChangesOnly (after.Names args.logPath) fs after ∨
          (FileSystem.ChangesOnly (args.Writes after) fs after ∧
            LogFile.BrokenOff (r.persist fs args.logFolder fresh).1 after
              (Artifact.pathIn folder args.package) (.ofClasses next.classes) fault)) ∧
        ∀ before given diagnostics later, before.WellNamed → fs.WellNamed →
          resolve before given = .ok (r, diagnostics) →
          Unchanged before fs after later given args → Unblocked later args folder next →
          { args with incremental := true }.withDetectedChanges later = .ok args.idle ∧
          ∃ r' diagnostics' rest, resolve later args.idle = .ok (r', diagnostics') ∧
            r'.mode = .incremental ∧ r'.invalidatedClasses = ∅ ∧ r'.filesToConsider = ∅ ∧
            r'.finish later args.idle .empty = (rest, .ok (r'.nextLog later .empty)) ∧
            (r'.nextLog later .empty).classes = next.classes ∧
            rest.read (Artifact.pathIn folder args.package) =
              .ok (LogFile.ofClasses next.classes).toText.toUTF8 := by
  rcases Resolution.finish_eq_error hfinish with hunsaved | ⟨saved, next, folder, hsaved, hfolder,
    hrefused⟩
  · refine ⟨fun cause _ => Resolution.unsaved_cases hunsaved, fun next hnext => ?_⟩
    rw [hunsaved] at hnext
    cases hnext
  · refine ⟨fun cause hcause => ?_, fun next' hnext' => ?_⟩
    · rw [hsaved] at hcause
      cases hcause
    have hsnd := hnext'
    rw [hsaved, Except.ok.injEq] at hsnd
    subst hsnd
    have htext : (r.finish fs args fresh).1.read args.logPath = _ := Resolution.text_finish hsaved
    rw [hfinish] at htext
    obtain ⟨rfl, -⟩ := Resolution.read_persist hsaved
    have hcases := Resolution.unpublished_cases hsaved hfolder hrefused
    have hfst : saved = (r.persist fs args.logFolder fresh).1 := (congrArg Prod.fst hsaved).symm
    rw [hfst] at hcases
    refine ⟨rfl, BuildLog.read_of_text htext, folder, hfolder, hcases, ?_⟩
    intro before given diagnostics later hbefore hfs hresolve hsame hfree
    have hread := hsame.log_eq.trans htext
    have hupToDate := upToDate_nextLog hbefore hfs hresolve hsame (BuildLog.read_of_text hread)
    have hfound := hupToDate.withDetectedChanges_eq hfree.readable
    obtain ⟨present, hresumes⟩ := hupToDate.resumes hfound
    obtain ⟨diagnostics', hresolve'⟩ := hresumes.resolve
    obtain ⟨hclasses, rest, hrest, hpublished⟩ :=
      Rebuilds.exists_published ⟨hupToDate, hfound, hresumes⟩ hread hfolder hfree rfl
    exact ⟨hfound, _, diagnostics', rest, hresolve', rfl, hupToDate.idle.invalidatedClasses_eq,
      hupToDate.idle.filesToConsider_eq, hrest, hclasses, hpublished⟩

/-! ## A folder that cannot be made -/

/-- The file system with a file in the place of the folder for classes. -/
def FileSystem.blocked (fs : FileSystem) : FileSystem :=
  fs.setNode ["out"] (.file (.bytes "in the way".toUTF8))

/-- A module with one descriptor, and a file in the place of the folder for its classes. -/
def FileSystem.blockedModule : FileSystem := (FileSystem.ofDescriptor "one".toUTF8 none).blocked

/-- What a build is given that is to publish its classes there. -/
def blockedArguments : Arguments := { Arguments.ofDescriptor with artifactFolder := some ⟨"out"⟩ }

theorem FileSystem.WellNamed.blocked (h : fs.WellNamed) : fs.blocked.WellNamed := by
  have hout : Path.IsName "out" := by decide
  exact h.setNode (by simpa using hout) _

theorem wellNamed_blockedModule : FileSystem.blockedModule.WellNamed :=
  (wellNamed_ofDescriptor _ _).blocked

theorem listed_blockedModule : ∃ present, descriptorFiles .blockedModule ⟨"info"⟩ = .ok present :=
  have hloc : FileSystem.blockedModule.locate ⟨"info"⟩ = .ok ["info"] := rfl
  exists_descriptorFiles hloc rfl

/-- The descriptors do not depend on what is in the way. -/
theorem descriptorContents_blockedModule (text : Option ByteArray) :
    descriptorContents .blockedModule ⟨"info"⟩ =
      descriptorContents (.ofDescriptor "one".toUTF8 text) ⟨"info"⟩ := by
  have hremoved : FileSystem.blockedModule.removeFile ⟨"out"⟩ =
      .ok (.ofDescriptor "one".toUTF8 none) := rfl
  have hsame : FileSystem.SameFiles (fun name => (DescriptorName.family? name).isSome) .blockedModule
      (.ofDescriptor "one".toUTF8 none) ⟨"info"⟩ := by
    apply FileSystem.SameFiles.of_keeps (FileSystem.removeFile_keeps hremoved)
      (FileSystem.removeFile_keeps_back hremoved)
    intro name loc hname hfamily hloc hnames
    obtain ⟨before, hsegments⟩ := Path.segments_join ⟨"info"⟩ hname.no_slash
    have hpath : (Path.mk "out").segments = [] ++ ["out"] := rfl
    have hout := hnames.getLast? hpath (by decide)
    rw [FileSystem.getLast?_of_locate hsegments hname hloc, Option.some.injEq] at hout
    rw [hout] at hfamily
    revert hfamily
    decide
  rw [← descriptorContents_congr wellNamed_blockedModule (wellNamed_ofDescriptor _ _) hsame]
  apply Table.ext_get?
  intro name
  rw [get?_ofDescriptor, get?_ofDescriptor]

/-- When the file has been removed that is in the way, the log is what it was, and nothing else has
changed. -/
theorem unchanged_blockedModule {text : ByteArray} (h : after.read blockedArguments.logPath = .ok text) :
    Unchanged .blockedModule .blockedModule after (.ofDescriptor "one".toUTF8 (some text))
      blockedArguments blockedArguments where
  named := wellNamed_ofDescriptor _ _
  log_eq := h.symm
  listed := listed_ofDescriptor _ _
  descriptorFolder_eq := rfl
  descriptors_fs := rfl
  descriptors_later := (descriptorContents_blockedModule _).symm
  upstream_eq := rfl

theorem unblocked_ofDescriptor (text : ByteArray) (log : BuildLog) :
    Unblocked (.ofDescriptor "one".toUTF8 (some text)) blockedArguments ⟨"out"⟩ log where
  readable := unread_ofDescriptor _ _
  takesLog _ _ := rfl
  publishes := ⟨Artifact.pathIn ⟨"out"⟩ "com", rfl⟩

/-- A build whose classes cannot be published, because a file is in the place of the folder for them,
and the build after the file has been removed. -/
theorem blocked_finish_recovers : ∃ r diagnostics after fault next later r' diagnostics' rest,
    resolve .blockedModule blockedArguments = .ok (r, diagnostics) ∧
    r.finish .blockedModule blockedArguments danglingLog = (after, .error fault) ∧
    (r.persist .blockedModule blockedArguments.logFolder danglingLog).2 = .ok next ∧
    Unchanged .blockedModule .blockedModule after later blockedArguments blockedArguments ∧
    Unblocked later blockedArguments ⟨"out"⟩ next ∧
    blockedArguments.withDetectedChanges later = .ok blockedArguments.idle ∧
    resolve later blockedArguments.idle = .ok (r', diagnostics') ∧ r'.filesToConsider = ∅ ∧
    r'.finish later blockedArguments.idle .empty = (rest, .ok (r'.nextLog later .empty)) ∧
    rest.read (Artifact.pathIn ⟨"out"⟩ "com") = .ok (LogFile.ofClasses next.classes).toText.toUTF8 := by
  obtain ⟨present, hpresent⟩ := listed_blockedModule
  have hresolved : ∃ r diagnostics, resolve .blockedModule blockedArguments = .ok (r, diagnostics) :=
    exists_resolve hpresent
  obtain ⟨r, diagnostics, hresolve⟩ := hresolved
  obtain ⟨after, fault, hfinish⟩ : ∃ after fault, r.finish .blockedModule blockedArguments danglingLog =
      (after, .error fault) := ⟨_, _, rfl⟩
  obtain ⟨saved, next, hpersist⟩ : ∃ saved next,
      r.persist .blockedModule blockedArguments.logFolder danglingLog = (saved, .ok next) :=
    ⟨_, _, rfl⟩
  have hsaved := congrArg Prod.snd hpersist
  have htext : (r.finish .blockedModule blockedArguments danglingLog).1.read
      blockedArguments.logPath = _ := Resolution.text_finish hpersist
  rw [hfinish] at htext
  have hunchanged := unchanged_blockedModule htext
  have hunblocked := unblocked_ofDescriptor (LogFile.ofLog next).toText.toUTF8 next
  obtain ⟨-, hpublishing⟩ := failed_finish_recovers hfinish
  obtain ⟨-, -, folder, hfolder, -, hnext⟩ := hpublishing next hsaved
  obtain rfl : (⟨"out"⟩ : Path) = folder := Option.some.inj hfolder
  obtain ⟨hidle, r', diagnostics', rest, hresolve', -, -, hfiles, hrest, -, hpublished⟩ :=
    hnext _ _ diagnostics _ wellNamed_blockedModule wellNamed_blockedModule hresolve hunchanged
      hunblocked
  exact ⟨r, diagnostics, after, fault, next, _, r', diagnostics', rest, hresolve, hfinish, hsaved,
    hunchanged, hunblocked, hidle, hresolve', hfiles, hrest, hpublished⟩

/-! ## Work that is lost -/

/-- A descriptor that cannot be read is read again by the next build. -/
theorem exists_resolve_of_unread {present : PathSet} {p : Path} (hincremental : args.incremental = true)
    (hread : BuildLog.read fs args.logPath = .ok (some log))
    (hnames : ∀ name ∈ log.fingerprints, Path.IsName name)
    (hpresent : descriptorFiles fs args.descriptorFolder = .ok present) (hp : p ∈ present.paths)
    (hunread : ∀ bytes, fs.read p ≠ .ok bytes) : ∃ found r diagnostics,
      args.withDetectedChanges fs = .ok found ∧ resolve fs found = .ok (r, diagnostics) ∧
      r.filesToConsider.holds p = true := by
  obtain ⟨found, hfound⟩ := exists_withDetectedChanges hpresent
  have hdetects := Arguments.detects hfound
  have hdetected : Detected fs args found log present :=
    ⟨hdetects, readableLog?_eq_some.mpr hread, hnames, hpresent⟩
  have hresumes : Resumes fs found log present := by
    rw [hdetects.same]
    exact ⟨hincremental, hread, hpresent⟩
  obtain ⟨diagnostics, hresolve⟩ := hresumes.resolve
  exact ⟨found, _, diagnostics, hfound, hresolve, hdetected.holds_of_unread hp hunread⟩

/-- A module with a log, and with a descriptor that cannot be read. -/
def FileSystem.unreadWithLog (log : BuildLog) : FileSystem :=
  FileSystem.unreadDescriptor.setNode ["log", "binder_log.json"]
    (.file (.bytes (LogFile.ofLog log).toText.toUTF8))

/-- Whatever the log of that module says, its descriptor is read again. -/
theorem resolve_unreadWithLog (hnames : ∀ name ∈ log.fingerprints, Path.IsName name) :
    ∃ found r diagnostics, blockedArguments.withDetectedChanges (.unreadWithLog log) = .ok found ∧
      resolve (.unreadWithLog log) found = .ok (r, diagnostics) ∧
      r.filesToConsider.holds ((Path.mk "info").join "a-layout.xml") = true := by
  have hlog : Path.IsName "log" := by decide
  have hnamed : (FileSystem.unreadWithLog log).WellNamed :=
    wellNamed_unreadDescriptor.setNode (by simpa using ⟨hlog, BuildLog.isName_fileName⟩) _
  have hinfo : (FileSystem.unreadWithLog log).locate ⟨"info"⟩ = .ok ["info"] := rfl
  obtain ⟨present, hpresent⟩ := exists_descriptorFiles hinfo rfl
  have hcontent : (FileSystem.unreadWithLog log).content ((Path.mk "info").join "a-layout.xml") =
      .ok (.unreadable .inputOutput) := rfl
  have hp := (mem_present_iff_isFile hnamed hpresent).mpr ⟨by decide, "a-layout.xml",
    isName_descriptor, by decide, FileSystem.isFile_iff.mpr ⟨_, hcontent⟩, rfl⟩
  have hunread : (FileSystem.unreadWithLog log).read ((Path.mk "info").join "a-layout.xml") =
      .error (.device .inputOutput) := rfl
  apply exists_resolve_of_unread rfl (BuildLog.read_of_text rfl) hnames hpresent hp
  intro bytes hbytes
  rw [hunread] at hbytes
  cases hbytes

/-- A build of that module that cannot publish its classes, and what is left when the file is removed
that is in the way. -/
theorem finish_unreadDescriptor
    (hresolve : resolve FileSystem.unreadDescriptor.blocked blockedArguments = .ok (r, diagnostics)) :
    ∃ after fault next,
      r.finish FileSystem.unreadDescriptor.blocked blockedArguments .empty = (after, .error fault) ∧
      (r.persist FileSystem.unreadDescriptor.blocked ⟨"log"⟩ .empty).2 = .ok next ∧
      after.removeFile ⟨"out"⟩ = .ok (.unreadWithLog next) ∧
      ∀ name ∈ next.fingerprints, Path.IsName name := by
  have hnamed := wellNamed_unreadDescriptor.blocked
  refine ⟨_, _, r.nextLog FileSystem.unreadDescriptor.blocked .empty, rfl, rfl, rfl, ?_⟩
  exact fun name hname => isName_of_mem_fingerprints_nextLog hnamed hnamed hresolve hname

/-- A module with a log and an artifact, on a device that makes no entry at one location. -/
def FileSystem.fullDevice (full : Location) : FileSystem :=
  { ((FileSystem.ofDescriptor "one".toUTF8 (some (LogFile.ofLog danglingLog).toText.toUTF8)).setNode
      ["out"] .folder).setNode ["out", "com-binding_classes.json"]
        (.file (.bytes (LogFile.ofClasses danglingLog.classes).toText.toUTF8)) with
    stops := fun loc => if loc = full then some (.making .noSpace) else none }

theorem exists_resolve_fullDevice (full : Location) : ∃ r diagnostics,
    resolve (.fullDevice full) blockedArguments = .ok (r, diagnostics) := by
  have hloc : (FileSystem.fullDevice full).locate ⟨"info"⟩ = .ok ["info"] := rfl
  obtain ⟨present, hpresent⟩ := exists_descriptorFiles hloc rfl
  exact exists_resolve hpresent

/-- A build to which the file that is to be its log is the descriptor folder. -/
def logFolderArguments : Arguments :=
  { blockedArguments with descriptorFolder := ⟨"log/binder_log.json"⟩ }

/-- A failed build costs the old log or the old artifact where the device gives up between the old file
and the new one.  And the next build has more to do than to publish, or cannot be done at all, where a
descriptor cannot be read, and where the log has the place of the descriptor folder. -/
theorem failed_finish_loses_work :
    (∃ fs r diagnostics after fault,
      resolve fs blockedArguments = .ok (r, diagnostics) ∧
      r.finish fs blockedArguments .empty = (after, .error fault) ∧
      (r.persist fs blockedArguments.logFolder .empty).2 = .error fault ∧
      ¬ FileSystem.ChangesOnly (fun _ => False) fs after) ∧
    (∃ fs r diagnostics after fault next,
      resolve fs blockedArguments = .ok (r, diagnostics) ∧
      r.finish fs blockedArguments .empty = (after, .error fault) ∧
      (r.persist fs blockedArguments.logFolder .empty).2 = .ok next ∧
      ¬ FileSystem.ChangesOnly (after.Names blockedArguments.logPath) fs after) ∧
    (∃ r diagnostics after fault next later found r' diagnostics' p,
      resolve FileSystem.unreadDescriptor.blocked blockedArguments = .ok (r, diagnostics) ∧
      r.finish FileSystem.unreadDescriptor.blocked blockedArguments .empty = (after, .error fault) ∧
      (r.persist FileSystem.unreadDescriptor.blocked ⟨"log"⟩ .empty).2 = .ok next ∧
      after.removeFile ⟨"out"⟩ = .ok later ∧
      blockedArguments.withDetectedChanges later = .ok found ∧
      resolve later found = .ok (r', diagnostics') ∧ r'.filesToConsider.holds p = true) ∧
    (∃ r diagnostics after fault next later fault',
      resolve .blockedModule logFolderArguments = .ok (r, diagnostics) ∧
      r.finish .blockedModule logFolderArguments .empty = (after, .error fault) ∧
      (r.persist .blockedModule ⟨"log"⟩ .empty).2 = .ok next ∧
      after.removeFile ⟨"out"⟩ = .ok later ∧
      logFolderArguments.withDetectedChanges later = .error fault') := by
  refine ⟨?_, ?_, ?_, ?_⟩
  · obtain ⟨r, diagnostics, hresolve⟩ := exists_resolve_fullDevice ["log", "binder_log.json"]
    refine ⟨_, r, diagnostics, _, _, hresolve, rfl, rfl, fun hchanges => ?_⟩
    have hlost := hchanges.file ["log", "binder_log.json"] _ id rfl
    cases hlost
  · obtain ⟨r, diagnostics, hresolve⟩ := exists_resolve_fullDevice ["out", "com-binding_classes.json"]
    refine ⟨_, r, diagnostics, _, _, _, hresolve, rfl, rfl, fun hchanges => ?_⟩
    have hlost := hchanges.file ["out", "com-binding_classes.json"] _ ?_ rfl
    · cases hlost
    · intro hnames
      exact absurd (BuildLog.getLast?_of_names hnames) (by decide)
  · have hloc : FileSystem.unreadDescriptor.blocked.locate ⟨"info"⟩ = .ok ["info"] := rfl
    obtain ⟨present, hpresent⟩ := exists_descriptorFiles hloc rfl
    have hresolved : ∃ r diagnostics,
        resolve FileSystem.unreadDescriptor.blocked blockedArguments = .ok (r, diagnostics) :=
      exists_resolve hpresent
    obtain ⟨r, diagnostics, hresolve⟩ := hresolved
    obtain ⟨after, fault, next, hfinish, hsaved, hremoved, hnames⟩ := finish_unreadDescriptor hresolve
    obtain ⟨found, r', diagnostics', hfound, hresolve', hholds⟩ := resolve_unreadWithLog hnames
    exact ⟨r, diagnostics, after, fault, next, _, found, r', diagnostics', _, hresolve, hfinish, hsaved,
      hremoved, hfound, hresolve', hholds⟩
  · obtain ⟨present, hpresent⟩ : ∃ present,
        descriptorFiles .blockedModule logFolderArguments.descriptorFolder = .ok present := ⟨_, rfl⟩
    have hresolved : ∃ r diagnostics,
        resolve .blockedModule logFolderArguments = .ok (r, diagnostics) := exists_resolve hpresent
    obtain ⟨r, diagnostics, hresolve⟩ := hresolved
    exact ⟨r, diagnostics, _, _, _, _, _, hresolve, rfl, rfl, rfl, rfl⟩

end LayoutRebuild
