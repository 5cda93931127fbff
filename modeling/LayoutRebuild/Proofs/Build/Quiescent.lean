import LayoutRebuild.Proofs.Build.IdleBuild
import LayoutRebuild.Proofs.Build.OutputNames
import LayoutRebuild.Proofs.Log.Shorter
import Mathlib.Logic.Function.Iterate

/-!
# Builds come to rest

A log that records the descriptors and the classes of other modules as they are is up to date
(`UpToDate`): the next build finds no change but for the descriptors that cannot be read, and if all can
be, it has nothing to do.  What a build writes is nothing that it reads but its own log
(`sameFiles_of_written`), so the state that it leaves is settled (`Settled`): its log is up to date, and
its files can be written again.  From a settled state the next build leaves a settled state again.  It may
still leave out references that are not live, which makes the log no longer; after that there is nothing
left to write, and every further build leaves everything as it is (`builds_come_to_rest`).

A descriptor that is there and cannot be read has no fingerprint, so it never comes to rest
(`unread_reported_again`).
-/

namespace LayoutRebuild

variable {fs fs' : FileSystem} {args : Arguments} {r : Resolution} {log next : BuildLog}
  {folder : Path}

namespace Arguments

/-- The package is a dotted identifier, and the folders that are read are reached without a step up. -/
structure Plain (args : Arguments) : Prop where
  package : ModuleConfig.isDottedIdentifier args.package = true
  descriptorFolder : .up ∉ args.descriptorFolder.components
  dependencyFolders : ∀ folder ∈ args.dependencyFolders, .up ∉ folder.components

/-- What a build is given that goes on from its log and to which nothing is reported. -/
def idle (args : Arguments) : Arguments :=
  { args with incremental := true, outOfDate := [], removed := [] }

/-- An incremental build that finds out the changes by itself and whose generator has nothing to say. -/
def rebuild (args : Arguments) (fs : FileSystem) : FileSystem × Except StoreFault BuildLog :=
  match { args with incremental := true }.withDetectedChanges fs with
  | .error fault => (fs, .error fault)
  | .ok found =>
    match resolve fs found with
    | .error fault => (fs, .error fault)
    | .ok (r, _) => r.finish fs found .empty

end Arguments

/-! ## Logs that are up to date -/

/-- The log of a build can be read, and it records the descriptors, as far as they can be read, and the
classes of other modules as they are. -/
structure UpToDate (fs : FileSystem) (args : Arguments) (log : BuildLog) : Prop where
  readable : BuildLog.read fs args.logPath = .ok (some log)
  listed : ∃ present, descriptorFiles fs args.descriptorFolder = .ok present
  fingerprints : log.fingerprints = (readableContents fs args.descriptorFolder).map
    fun _ bytes => ContentHash.ofContent bytes
  upstream : upstreamClasses fs args = log.dependencyClasses

namespace UpToDate

theorem idle (h : UpToDate fs args log) : Idle fs args.idle log :=
  ⟨rfl, rfl, rfl, h.readable, h.upstream⟩

/-- With a log that is up to date, nothing is found to be removed, and nothing to be changed but the
descriptors that cannot be read. -/
theorem changes {found : Arguments} (h : UpToDate fs args log)
    (hfound : { args with incremental := true }.withDetectedChanges fs = .ok found) :
    found.removed = [] ∧ ∀ p, p ∈ found.outOfDate ↔
      ∃ name ∈ unreadDescriptors fs args.descriptorFolder, p = args.descriptorFolder.join name := by
  have hdetects := Arguments.detects hfound
  have hrecorded : { args with incremental := true }.recordedFingerprints fs =
      (readableContents fs args.descriptorFolder).map fun _ bytes => ContentHash.ofContent bytes :=
    (recordedFingerprints_eq (readableLog?_eq_some.mpr h.readable)).trans h.fingerprints
  constructor
  · rw [List.eq_nil_iff_forall_not_mem]
    intro p hp
    obtain ⟨name, -, hknown, hgone⟩ := (hdetects.removed p).mp hp
    rw [hrecorded, Table.mem_iff, Table.get?_map, Option.isSome_map] at hknown
    exact hgone (mem_descriptorContents_iff.mpr (.inl hknown))
  · intro p
    rw [hdetects.outOfDate]
    constructor
    · rintro ⟨name, rfl, hunread | ⟨bytes, hbytes, hdiffers⟩⟩
      · exact ⟨name, hunread, rfl⟩
      · rw [hrecorded, Table.get?_map, hbytes] at hdiffers
        exact absurd rfl hdiffers
    · rintro ⟨name, hunread, rfl⟩
      exact ⟨name, rfl, .inl hunread⟩

theorem exists_found (h : UpToDate fs args log) :
    ∃ found, { args with incremental := true }.withDetectedChanges fs = .ok found := by
  obtain ⟨present, hpresent⟩ := h.listed
  exact exists_withDetectedChanges hpresent

/-- With a log that is up to date, and with descriptors that can be read, no change is found. -/
theorem withDetectedChanges_eq (h : UpToDate fs args log)
    (hread : ∀ name, name ∉ unreadDescriptors fs args.descriptorFolder) :
    { args with incremental := true }.withDetectedChanges fs = .ok args.idle := by
  obtain ⟨found, hfound⟩ := h.exists_found
  obtain ⟨hremoved, hchanged⟩ := h.changes hfound
  have hnone : found.outOfDate = [] := by
    rw [List.eq_nil_iff_forall_not_mem]
    intro p hp
    obtain ⟨name, hname, -⟩ := (hchanged p).mp hp
    exact hread name hname
  rw [hfound, (Arguments.detects hfound).same, hnone, hremoved]
  rfl

theorem resumes {found : Arguments} (h : UpToDate fs args log)
    (hfound : { args with incremental := true }.withDetectedChanges fs = .ok found) :
    ∃ present, Resumes fs found log present := by
  obtain ⟨present, hpresent⟩ := h.listed
  rw [(Arguments.detects hfound).same]
  exact ⟨present, rfl, h.readable, hpresent⟩

end UpToDate

/-! ## Builds that get nothing new -/

/-- A build that goes on from a log that is up to date, and that gets nothing new. -/
structure Rebuilds (fs : FileSystem) (args found : Arguments) (log : BuildLog) (present : PathSet) :
    Prop where
  upToDate : UpToDate fs args log
  detects : { args with incremental := true }.withDetectedChanges fs = .ok found
  resumes : Resumes fs found log present

theorem UpToDate.exists_rebuilds (h : UpToDate fs args log) :
    ∃ found present, Rebuilds fs args found log present := by
  obtain ⟨found, hfound⟩ := h.exists_found
  obtain ⟨present, hresumes⟩ := h.resumes hfound
  exact ⟨found, present, h, hfound, hresumes⟩

namespace Rebuilds

variable {found : Arguments} {present : PathSet}

theorem listed (h : Rebuilds fs args found log present) :
    descriptorFiles fs args.descriptorFolder = .ok present := by
  rw [← (Arguments.detects h.detects).descriptorFolder_eq]
  exact h.resumes.listed

theorem outputs_eq (h : Rebuilds fs args found log present) (next : BuildLog) :
    found.outputs next = args.outputs next := by
  rw [(Arguments.detects h.detects).same]
  rfl

/-- The build leaves the log that is there, without what is stale. -/
theorem nextLog_eq (h : Rebuilds fs args found log present) :
    (Resolution.ofSituation (situation fs found log present)).nextLog fs .empty = { log with
      classes := (situation fs found log present).keptClasses
      references := (situation fs found log present).keptReferences } := by
  have hupstream : upstreamClasses fs found = log.dependencyClasses :=
    (Arguments.detects h.detects).upstreamClasses_eq.trans h.upToDate.upstream
  have hfingerprints := (hashes_present h.listed).trans h.upToDate.fingerprints.symm
  unfold Resolution.nextLog
  rw [BuildLog.absorb_empty]
  change (⟨_, _, upstreamClasses fs found, (Fingerprints.ofPaths fs present.paths).hashes⟩ :
    BuildLog) = _
  rw [hupstream, hfingerprints]
  rfl

/-- The log that the build leaves is no longer than the one that is there, so the device takes it. -/
theorem takes_log (h : Rebuilds fs args found log present) {path : Path}
    (htakes : fs.Takes path (LogFile.ofLog log).toText.toUTF8.size) :
    fs.Takes path (LogFile.ofLog ((Resolution.ofSituation
      (situation fs found log present)).nextLog fs .empty)).toText.toUTF8.size := by
  rw [h.nextLog_eq]
  exact htakes.mono (LogFile.size_ofLog_le log _ _)

end Rebuilds

/-! ## What writing leaves alone -/

/-- A folder that is reached without a step up has the same files before and after a build has written
its own, but for those that are called like them. -/
theorem sameFiles_of_written (hplain : args.Plain) (hrooted : fs.Rooted)
    (hwritten : LogFile.Written fs (args.outputs log) fs') (hup : .up ∉ folder.components) :
    FileSystem.SameFiles (fun name => ¬ IsOutputName args.package name) fs fs' folder := by
  apply FileSystem.SameFiles.of_changesOnly hwritten.changesOnly hrooted
    (Path.up_not_mem_segments hup)
  intro name loc hname hother hloc hnames
  have hwrites : args.Writes fs' loc := Arguments.writes_iff.mpr hnames
  obtain ⟨name', hlast, houtput⟩ :=
    hwrites.outputName (ModuleConfig.no_slash_of_dotted hplain.package)
  obtain ⟨before, hsegments⟩ := Path.segments_join folder hname.no_slash
  rw [FileSystem.getLast?_of_locate hsegments hname hloc, Option.some.injEq] at hlast
  rw [← hlast] at houtput
  exact hother houtput

/-- The descriptor folder can be listed as before, if none of the written files has its place. -/
theorem listed_of_written (hplain : args.Plain) (hrooted : fs.Rooted)
    (hlisted : ∃ present, descriptorFiles fs args.descriptorFolder = .ok present)
    (hwritten : LogFile.Written fs (args.outputs log) fs')
    (hfolder : ∀ loc, fs'.locate args.descriptorFolder = .ok loc → ¬ args.Writes fs' loc) :
    ∃ present, descriptorFiles fs' args.descriptorFolder = .ok present := by
  rw [exists_descriptorFiles_iff] at hlisted ⊢
  intro content hread
  apply hlisted content
  apply hwritten.changesOnly.content_back hrooted
    (Path.up_not_mem_segments hplain.descriptorFolder) hread
  intro loc hloc hnames
  exact hfolder loc hloc (Arguments.writes_iff.mpr hnames)

/-! ## Settled states -/

/-- The log and the artifact of a build are there, the device has taken them, and the log records the
descriptors, as far as they can be read, and the classes of other modules as they are. -/
structure Settled (fs : FileSystem) (args : Arguments) (log : BuildLog) : Prop where
  named : fs.WellNamed
  rooted : fs.Rooted
  listed : ∃ present, descriptorFiles fs args.descriptorFolder = .ok present
  stands : ∀ f ∈ args.outputs log, LogFile.Stands fs f.1 f.2.toText.toUTF8
  takes : ∀ f ∈ args.outputs log, fs.Takes f.1 f.2.toText.toUTF8.size
  fingerprints : log.fingerprints = (readableContents fs args.descriptorFolder).map
    fun _ bytes => ContentHash.ofContent bytes
  upstream : upstreamClasses fs args = log.dependencyClasses

theorem descriptorContents_of_written (hplain : args.Plain) (hnamed : fs.WellNamed)
    (hrooted : fs.Rooted) (hwritten : LogFile.Written fs (args.outputs log) fs') :
    descriptorContents fs' args.descriptorFolder = descriptorContents fs args.descriptorFolder := by
  have hsame := sameFiles_of_written hplain hrooted hwritten hplain.descriptorFolder
  exact descriptorContents_congr hnamed (hwritten.wellNamed hnamed)
    (hsame.mono fun _ => not_outputName_of_descriptor)

/-- A build that writes a log of what it has seen leaves a settled state. -/
theorem settled_of_written (hplain : args.Plain) (hnamed : fs.WellNamed) (hrooted : fs.Rooted)
    (hlisted : ∃ present, descriptorFiles fs args.descriptorFolder = .ok present)
    (hfingerprints : log.fingerprints = (readableContents fs args.descriptorFolder).map
      fun _ bytes => ContentHash.ofContent bytes)
    (hupstream : upstreamClasses fs args = log.dependencyClasses)
    (hwritten : LogFile.Written fs (args.outputs log) fs')
    (hfolder : ∀ loc, fs'.locate args.descriptorFolder = .ok loc → ¬ args.Writes fs' loc) :
    Settled fs' args log := by
  have hnamed' := hwritten.wellNamed hnamed
  refine ⟨hnamed', hwritten.rooted hrooted, ?_, ?_, hwritten.takes, ?_, ?_⟩
  · exact listed_of_written hplain hrooted hlisted hwritten hfolder
  · exact hwritten.stands (Arguments.apart_outputs args log)
  · rw [hfingerprints, readableContents_congr hnamed hnamed'
      (descriptorContents_of_written hplain hnamed hrooted hwritten)]
  · rw [← hupstream]
    apply upstreamClasses_congr hnamed hnamed'
    intro folder hmem
    have hsame := sameFiles_of_written hplain hrooted hwritten (hplain.dependencyFolders folder hmem)
    exact hsame.mono fun _ => not_outputName_of_foreign

/-- A build that succeeds leaves a settled state. -/
theorem settled_of_finish {diagnostics : List Diagnostic} {fresh : BuildLog} (hplain : args.Plain)
    (hnamed : fs.WellNamed) (hrooted : fs.Rooted) (hresolve : resolve fs args = .ok (r, diagnostics))
    (hfinish : r.finish fs args fresh = (fs', .ok log))
    (hfolder : ∀ loc, fs'.locate args.descriptorFolder = .ok loc → ¬ args.Writes fs' loc) :
    Settled fs' args log := by
  obtain ⟨present, hpresent, houtcome⟩ := resolve_cases hresolve
  obtain ⟨rfl, hwritten⟩ := Resolution.finish_eq_ok_iff.mp hfinish
  exact settled_of_written hplain hnamed hrooted ⟨present, hpresent⟩
    (houtcome.fingerprints_nextLog hpresent) houtcome.dependencyClasses_eq.symm hwritten hfolder

/-! ## Nothing more to leave out -/

/-- A build that goes on from what another one has kept, without a change outside, and to which nothing is
reported that was not reported to that one, keeps all of it: from what was kept no reported layout is
reached. -/
theorem Situation.keeps_all {s s' : Situation} (hclasses : s'.previous.classes = s.keptClasses)
    (hreferences : s'.previous.references = s.keptReferences)
    (houtside : s'.previous.dependencyClasses = s'.dependencyClasses)
    (hdependencies : s'.dependencyClasses = s.dependencyClasses)
    (hreported : ∀ layout, s'.Reported layout → s.Reported layout) :
    s'.keptClasses = s'.previous.classes ∧ s'.keptReferences = s'.previous.references := by
  -- What was kept is closed under the references that are left, and nothing in it is reported.
  have hfresh {layout : String} (h : ¬ s.Stale layout) : ¬ s'.Stale layout := by
    refine not_stale_of_closed (P := fun layout => ¬ s.Stale layout) ?_ ?_ h
    · rintro a b ha ⟨hrefers, -⟩ ⟨origin, hpath, horigin⟩
      rw [hreferences] at hrefers
      exact ha ⟨origin, hpath.head (refers_keptReferences.mp hrefers).1, horigin⟩
    · intro a ha
      constructor
      · exact fun hreport => ha ⟨a, .refl, .inl (hreported a hreport)⟩
      · rintro ⟨-, hchanged⟩
        rw [houtside] at hchanged
        exact hchanged rfl
  have hkept {layout : String} (hclass : layout ∈ s'.previous.classes) : layout ∈ s'.keptClasses := by
    refine mem_keptClasses_iff.mpr ⟨hclass, hfresh ?_⟩
    rw [hclasses] at hclass
    exact (mem_keptClasses_iff.mp hclass).2
  constructor
  · apply Table.ext_get?
    intro layout
    apply Option.ext
    intro c
    refine ⟨get?_previous_of_kept, fun hc => ?_⟩
    have hstays := (mem_keptClasses_iff_not_invalidated.mp (hkept (Table.mem_of_get? hc))).2
    exact get?_keptClasses_eq_some_iff.mpr ⟨hc, hstays⟩
  · have hrows : s'.previous.references.NoEmptyRow := by
      rw [hreferences]
      exact References.noEmptyRow_restrict _
    apply References.ext_refers (References.noEmptyRow_restrict _) hrows
    intro a b
    change s'.keptReferences.Refers a b ↔ _
    rw [refers_keptReferences_iff_live]
    refine ⟨fun h => h.1, fun hrefers => ?_⟩
    have hbefore := hrefers
    rw [hreferences] at hbefore
    obtain ⟨-, ha, hb⟩ := refers_keptReferences.mp hbefore
    refine ⟨hrefers, hkept (hclasses ▸ ha), ?_⟩
    rw [hclasses, hdependencies]
    exact hb.imp_right .inl

namespace Settled

theorem readable (h : Settled fs args log) : BuildLog.read fs args.logPath = .ok (some log) :=
  BuildLog.read_of_text (h.stands (args.logPath, .ofLog log) List.mem_cons_self).read_eq

theorem upToDate (h : Settled fs args log) : UpToDate fs args log :=
  ⟨h.readable, h.listed, h.fingerprints, h.upstream⟩

theorem exists_stands (h : Settled fs args log) {path : Path} (hpath : path ∈ args.outputPaths) :
    ∃ content, LogFile.Stands fs path content := by
  rw [← Arguments.map_outputs args log] at hpath
  obtain ⟨f, hf, rfl⟩ := List.mem_map.mp hpath
  exact ⟨_, h.stands f hf⟩

/-- What a build writes in a settled state never takes the place of the descriptor folder. -/
theorem not_writes_descriptorFolder (h : Settled fs args log) (hplain : args.Plain)
    (hwritten : LogFile.Written fs (args.outputs next) fs') {loc : Location}
    (hloc : fs'.locate args.descriptorFolder = .ok loc) : ¬ args.Writes fs' loc := by
  intro hwrites
  obtain ⟨f, hf, hnames⟩ := Arguments.writes_iff.mp hwrites
  have hfile := (hwritten.stands (Arguments.apart_outputs args next) f hf).file_of_names hnames
  have hpath : f.1 ∈ args.outputPaths := by
    rw [← Arguments.map_outputs args next]
    exact List.mem_map_of_mem hf
  obtain ⟨content, hstands⟩ := h.exists_stands hpath
  -- A place that is written to was that of a file before, and a file cannot be listed.
  obtain ⟨loc', hplace, hbefore⟩ := hstands.entry
  obtain rfl := hnames.unique (hwritten.changesOnly.names ⟨false, hplace⟩)
  have hloc' := h.rooted.locate hwritten.changesOnly.workingFolder_eq
    (Path.up_not_mem_segments hplain.descriptorFolder) hbefore hfile hloc
  have hcontent := FileSystem.content_eq_ok.mpr ⟨loc, hloc', hbefore⟩
  exact exists_descriptorFiles_iff.mp h.listed _ hcontent

section Rebuilds

variable {found : Arguments} {present : PathSet}

theorem takes_again (hsettled : Settled fs args log) (h : Rebuilds fs args found log present) :
    ∀ f ∈ args.outputs
      ((Resolution.ofSituation (situation fs found log present)).nextLog fs .empty),
        fs.Takes f.1 f.2.toText.toUTF8.size := by
  intro f hf
  rcases List.mem_cons.mp hf with rfl | hartifact
  · have hlog : fs.Takes args.logPath (LogFile.ofLog log).toText.toUTF8.size :=
      hsettled.takes (args.logPath, .ofLog log) List.mem_cons_self
    exact h.takes_log hlog
  · obtain ⟨folder, hfolder, rfl⟩ := List.mem_map.mp hartifact
    rw [h.nextLog_eq]
    refine (hsettled.takes _ (List.mem_cons_of_mem _ (List.mem_map_of_mem hfolder))).mono ?_
    exact LogFile.size_ofClasses_le log.classes _

/-- From a settled state a build comes to a settled state again. -/
theorem exists_finish (hsettled : Settled fs args log) (h : Rebuilds fs args found log present)
    (hplain : args.Plain) : ∃ rest next,
    (Resolution.ofSituation (situation fs found log present)).finish fs found .empty =
      (rest, .ok next) ∧
    next = { log with
      classes := (situation fs found log present).keptClasses
      references := (situation fs found log present).keptReferences } ∧
    Settled rest args next ∧
    descriptorContents rest args.descriptorFolder = descriptorContents fs args.descriptorFolder := by
  obtain ⟨next, hnext⟩ : ∃ next, next =
    (Resolution.ofSituation (situation fs found log present)).nextLog fs .empty := ⟨_, rfl⟩
  have hsame := hnext.trans h.nextLog_eq
  have hstands : ∀ f ∈ args.outputs next, ∃ content, LogFile.Stands fs f.1 content := by
    intro f hf
    apply hsettled.exists_stands
    rw [← Arguments.map_outputs args next]
    exact List.mem_map_of_mem hf
  obtain ⟨rest, hwritten⟩ :=
    LogFile.exists_written hstands (hnext ▸ hsettled.takes_again h) (Arguments.apart_outputs args next)
  refine ⟨rest, next, Resolution.finish_eq_ok_iff.mpr ⟨hnext, ?_⟩, hsame, ?_,
    descriptorContents_of_written hplain hsettled.named hsettled.rooted hwritten⟩
  · rw [h.outputs_eq]
    exact hwritten
  · apply settled_of_written hplain hsettled.named hsettled.rooted hsettled.listed ?_ ?_ hwritten
    · intro loc hloc
      exact hsettled.not_writes_descriptorFolder hplain hwritten hloc
    · rw [hsame]
      exact hsettled.fingerprints
    · rw [hsame]
      exact hsettled.upstream

/-- What is reported to the build after it are the descriptors that cannot be read, and these are the same
every time. -/
theorem reported_again {rest : FileSystem} {found' : Arguments} {present' : PathSet}
    (hsettled : Settled fs args log) (h : Rebuilds fs args found log present)
    (hsettled' : Settled rest args next) (h' : Rebuilds rest args found' next present')
    (hcontents : descriptorContents rest args.descriptorFolder =
      descriptorContents fs args.descriptorFolder) {layout : String}
    (hreport : (situation rest found' next present').Reported layout) :
    (situation fs found log present).Reported layout := by
  obtain ⟨-, hchanged⟩ := hsettled.upToDate.changes h.detects
  obtain ⟨hremoved', hchanged'⟩ := hsettled'.upToDate.changes h'.detects
  obtain ⟨p, hp | hp, hfamily⟩ := hreport
  · obtain ⟨name, hname, rfl⟩ := (hchanged' p).mp hp
    have hbefore := (unreadDescriptors_congr hsettled.named hsettled'.named hcontents).mp hname
    exact ⟨_, .inl ((hchanged _).mpr ⟨name, hbefore, rfl⟩), hfamily⟩
  · change p ∈ found'.removed at hp
    rw [hremoved'] at hp
    cases hp

/-- After such a build, another one leaves everything as it is. -/
theorem rebuild_eq_self {rest : FileSystem} (hsettled : Settled fs args log)
    (h : Rebuilds fs args found log present) (hsettled' : Settled rest args next)
    (hnext : next = { log with
      classes := (situation fs found log present).keptClasses
      references := (situation fs found log present).keptReferences })
    (hcontents : descriptorContents rest args.descriptorFolder =
      descriptorContents fs args.descriptorFolder) : args.rebuild rest = (rest, .ok next) := by
  obtain ⟨found', present', h'⟩ := hsettled'.upToDate.exists_rebuilds
  have hdependencies : upstreamClasses rest found' = upstreamClasses fs found := by
    rw [(Arguments.detects h'.detects).upstreamClasses_eq,
      (Arguments.detects h.detects).upstreamClasses_eq]
    exact hsettled'.upstream.trans ((congrArg _ hnext).trans hsettled.upstream.symm)
  have houtside : next.dependencyClasses = upstreamClasses rest found' := by
    rw [(Arguments.detects h'.detects).upstreamClasses_eq]
    exact hsettled'.upstream.symm
  have hkept : next.classes = (situation fs found log present).keptClasses :=
    congrArg BuildLog.classes hnext
  have hlive : next.references = (situation fs found log present).keptReferences :=
    congrArg BuildLog.references hnext
  obtain ⟨hclasses, hreferences⟩ :
      (situation rest found' next present').keptClasses = next.classes ∧
        (situation rest found' next present').keptReferences = next.references :=
    Situation.keeps_all hkept hlive houtside hdependencies fun _ =>
      reported_again hsettled h hsettled' h' hcontents
  obtain ⟨diagnostics, hresolve⟩ := h'.resumes.resolve
  unfold Arguments.rebuild
  simp only [h'.detects, hresolve]
  refine Resolution.finish_eq_ok_iff.mpr ⟨?_, ?_⟩
  · rw [h'.nextLog_eq, hclasses, hreferences]
  · rw [h'.outputs_eq]
    exact LogFile.Written.again hsettled'.stands hsettled'.takes

end Rebuilds

end Settled

/-- After a build, whatever kind it was and whatever its generator has said, the next one goes on from
its log and finds no change but for the descriptors that cannot be read, which it finds every time.  If
all can be read, it invalidates nothing, reads nothing and keeps every class.  With nothing new it writes
a log, and every further build of this kind leaves this log and everything else as it is.  The package is
to be a dotted identifier, the folders that are read are to be reached without a step up, and the
descriptor folder must not be the place of a file that the build writes. -/
theorem builds_come_to_rest {fs after : FileSystem} {args : Arguments} {r : Resolution}
    {diagnostics : List Diagnostic} {fresh log : BuildLog} (hplain : args.Plain)
    (hnamed : fs.WellNamed) (hrooted : fs.Rooted)
    (hresolve : resolve fs args = .ok (r, diagnostics))
    (hfinish : r.finish fs args fresh = (after, .ok log))
    (hfolder : ∀ loc, after.locate args.descriptorFolder = .ok loc → ¬ args.Writes after loc) :
    ∃ idle, { args with incremental := true }.withDetectedChanges after = .ok idle ∧
      idle.removed = [] ∧
      (∀ p, p ∈ idle.outOfDate ↔ p ∈ r.presentFiles.paths ∧ ∀ bytes, fs.read p ≠ .ok bytes) ∧
      ∃ r' diagnostics', resolve after idle = .ok (r', diagnostics') ∧ r'.mode = .incremental ∧
        ((∀ p ∈ r.presentFiles.paths, ∃ bytes, fs.read p = .ok bytes) →
          idle.outOfDate = [] ∧ r'.invalidatedClasses = ∅ ∧ r'.filesToConsider = ∅ ∧
          r'.unchangedLog.classes = log.classes) ∧
        ∃ rest next, r'.finish after idle .empty = (rest, .ok next) ∧
          BuildLog.read rest args.logPath = .ok (some next) ∧
          ∀ n, args.rebuild ((fun fs => (args.rebuild fs).1)^[n] rest) = (rest, .ok next) := by
  have hsettled := settled_of_finish hplain hnamed hrooted hresolve hfinish hfolder
  obtain ⟨present, hpresent, houtcome⟩ := resolve_cases hresolve
  obtain ⟨-, hwritten⟩ := Resolution.finish_eq_ok_iff.mp hfinish
  have hunread (name : String) : name ∈ unreadDescriptors after args.descriptorFolder ↔
      name ∈ unreadDescriptors fs args.descriptorFolder :=
    unreadDescriptors_congr hnamed hsettled.named
      (descriptorContents_of_written hplain hnamed hrooted hwritten)
  obtain ⟨idle, present', h⟩ := hsettled.upToDate.exists_rebuilds
  obtain ⟨hremoved, hchanged⟩ := hsettled.upToDate.changes h.detects
  obtain ⟨diagnostics', hresolve'⟩ := h.resumes.resolve
  obtain ⟨rest, next, hrest, hnext, hsettled', hcontents⟩ := hsettled.exists_finish h hplain
  have hfixed := hsettled.rebuild_eq_self h hsettled' hnext hcontents
  refine ⟨idle, h.detects, hremoved, fun p => ?_, _, diagnostics', hresolve', rfl, fun hread => ?_,
    rest, next, hrest, hsettled'.readable, fun n => ?_⟩
  · rw [hchanged, houtcome.presentFiles_eq, ← exists_unread_iff hnamed hpresent]
    simp only [hunread]
  · have hread' : ∀ name, name ∉ unreadDescriptors after args.descriptorFolder := by
      intro name hname
      obtain ⟨p, hp, -, hfails⟩ := (mem_unreadDescriptors hpresent).mp ((hunread name).mp hname)
      obtain ⟨bytes, hbytes⟩ := hread p (houtcome.presentFiles_eq ▸ hp)
      exact hfails bytes hbytes
    obtain rfl : idle = args.idle :=
      Except.ok.inj (h.detects.symm.trans (hsettled.upToDate.withDetectedChanges_eq hread'))
    exact ⟨rfl, hsettled.upToDate.idle.invalidatedClasses_eq,
      hsettled.upToDate.idle.filesToConsider_eq, hsettled.upToDate.idle.keptClasses_eq⟩
  · have hsame : (fun fs => (args.rebuild fs).1)^[n] rest = rest :=
      Function.iterate_fixed (by rw [hfixed]) n
    rw [hsame, hfixed]

/-- A module that publishes its classes into one of its own dependency folders. -/
def publishingArguments : Arguments :=
  { Arguments.ofDescriptor with dependencyFolders := [⟨"out"⟩], artifactFolder := some ⟨"out"⟩ }

/-- What a generator says that makes the class of the descriptor refer to a layout that nobody knows. -/
def danglingLog : BuildLog where
  classes := Table.ofList [("a", ⟨"com.A", "com", ∅, ∅⟩)]
  references := References.addAll ∅ [("a", "ghost")]
  dependencyClasses := ∅
  fingerprints := ∅

theorem rooted_ofDescriptor (content : ByteArray) (text : Option ByteArray) :
    (FileSystem.ofDescriptor content text).Rooted := by
  intro loc node hnode
  rcases mem_ofDescriptor content text hnode with rfl | rfl | rfl | rfl
  · rfl
  · cases text <;> rfl
  · rfl
  · cases text <;> rfl

/-- A folder called `info` is not the place of a file that the build of a module `com` writes. -/
theorem not_writes_info (hpackage : args.package = "com")
    (hinfo : fs.locate ⟨"info"⟩ = .ok ["info"])
    (hwritten : LogFile.Written fs (args.outputs log) fs') :
    ∀ loc, fs'.locate ⟨"info"⟩ = .ok loc → ¬ args.Writes fs' loc := by
  intro loc hloc hwrites
  have hbefore := hwritten.changesOnly.locate hinfo
  obtain rfl : ["info"] = loc := Except.ok.inj (hbefore.symm.trans hloc)
  have hslash : '/' ∉ args.package.toList := by
    rw [hpackage]
    decide
  obtain ⟨name, hlast, houtput⟩ := hwrites.outputName hslash
  obtain rfl : "info" = name := Option.some.inj hlast
  revert houtput
  rw [hpackage]
  unfold IsOutputName
  decide

/-- The first build of such a module, and the builds after it. -/
theorem publishing_comes_to_rest : ∃ r diagnostics after log idle r' diagnostics' rest next,
    resolve (.ofDescriptor "one".toUTF8 none) publishingArguments = .ok (r, diagnostics) ∧
    r.finish (.ofDescriptor "one".toUTF8 none) publishingArguments danglingLog = (after, .ok log) ∧
    publishingArguments.withDetectedChanges after = .ok idle ∧ idle.outOfDate = [] ∧
    resolve after idle = .ok (r', diagnostics') ∧ r'.filesToConsider = ∅ ∧
    r'.finish after idle .empty = (rest, .ok next) ∧
    publishingArguments.rebuild rest = (rest, .ok next) := by
  obtain ⟨present, hpresent⟩ := listed_ofDescriptor "one".toUTF8 none
  have hresolved : ∃ r diagnostics, resolve (.ofDescriptor "one".toUTF8 none)
      publishingArguments = .ok (r, diagnostics) := exists_resolve hpresent
  obtain ⟨r, diagnostics, hresolve⟩ := hresolved
  obtain ⟨after, log, hfinish⟩ : ∃ after log, r.finish (.ofDescriptor "one".toUTF8 none)
      publishingArguments danglingLog = (after, .ok log) := ⟨_, _, rfl⟩
  have hplain : publishingArguments.Plain := by
    refine ⟨by decide +kernel, by decide, ?_⟩
    intro folder hfolder
    obtain rfl := List.mem_singleton.mp hfolder
    decide
  have hfolder := not_writes_info rfl (locate_ofDescriptor "one".toUTF8 none)
    (Resolution.finish_eq_ok_iff.mp hfinish).2
  have hread : ∀ p ∈ r.presentFiles.paths, ∃ bytes,
      (FileSystem.ofDescriptor "one".toUTF8 none).read p = .ok bytes := by
    intro p hp
    obtain ⟨present, hpresent, houtcome⟩ := resolve_cases hresolve
    rw [houtcome.presentFiles_eq] at hp
    exact exists_read_of_mem hpresent (unread_ofDescriptor _ _) hp
  obtain ⟨idle, hidle, -, -, r', diagnostics', hresolve', -, hquiet, rest, next, hrest, -, hsame⟩ :=
    builds_come_to_rest hplain (wellNamed_ofDescriptor _ _) (rooted_ofDescriptor _ _) hresolve
      hfinish hfolder
  obtain ⟨hnone, -, hfiles, -⟩ := hquiet hread
  exact ⟨r, diagnostics, after, log, idle, r', diagnostics', rest, next, hresolve, hfinish, hidle,
    hnone, hresolve', hfiles, hrest, hsame 0⟩

/-- A module whose only descriptor cannot be read. -/
def FileSystem.unreadDescriptor : FileSystem :=
  (FileSystem.ofDescriptor "one".toUTF8 none).setNode ["info", "a-layout.xml"]
    (.file (.unreadable .inputOutput))

theorem wellNamed_unreadDescriptor : FileSystem.unreadDescriptor.WellNamed := by
  have hinfo : Path.IsName "info" := by decide
  exact (wellNamed_ofDescriptor _ _).setNode (by simpa using ⟨hinfo, isName_descriptor⟩) _

/-- A descriptor that cannot be read is reported again after every build. -/
theorem unread_reported_again : ∃ fs args r diagnostics after log found,
    args.Plain ∧ fs.WellNamed ∧ fs.Rooted ∧ resolve fs args = .ok (r, diagnostics) ∧
    r.finish fs args .empty = (after, .ok log) ∧
    (∀ loc, after.locate args.descriptorFolder = .ok loc → ¬ args.Writes after loc) ∧
    { args with incremental := true }.withDetectedChanges after = .ok found ∧
    args.descriptorFolder.join "a-layout.xml" ∈ found.outOfDate := by
  have hnamed := wellNamed_unreadDescriptor
  have hfile : (FileSystem.ofDescriptor "one".toUTF8 none).node? ["info", "a-layout.xml"] =
      some (.file (.bytes "one".toUTF8)) := rfl
  have hrooted : FileSystem.unreadDescriptor.Rooted :=
    (rooted_ofDescriptor _ _).setNode rfl (by rw [hfile]; nofun) _
  have hloc : FileSystem.unreadDescriptor.locate ⟨"info"⟩ = .ok ["info"] := rfl
  obtain ⟨present, hpresent⟩ := exists_descriptorFiles hloc rfl
  have hresolved : ∃ r diagnostics, resolve .unreadDescriptor .ofDescriptor = .ok (r, diagnostics) :=
    exists_resolve hpresent
  obtain ⟨r, diagnostics, hresolve⟩ := hresolved
  obtain ⟨after, log, hfinish⟩ : ∃ after log,
    r.finish .unreadDescriptor .ofDescriptor .empty = (after, .ok log) := ⟨_, _, rfl⟩
  have hplain : Arguments.ofDescriptor.Plain :=
    ⟨by decide +kernel, by decide, fun _ hmem => absurd hmem List.not_mem_nil⟩
  have hwritten := (Resolution.finish_eq_ok_iff.mp hfinish).2
  have hfolder := not_writes_info rfl hloc hwritten
  have hsettled := settled_of_finish hplain hnamed hrooted hresolve hfinish hfolder
  obtain ⟨found, hfound⟩ := hsettled.upToDate.exists_found
  refine ⟨_, _, r, diagnostics, after, log, found, hplain, hnamed, hrooted, hresolve, hfinish, hfolder,
    hfound, ((hsettled.upToDate.changes hfound).2 _).mpr ⟨"a-layout.xml", ?_, rfl⟩⟩
  apply (unreadDescriptors_congr hnamed hsettled.named
    (descriptorContents_of_written hplain hnamed hrooted hwritten)).mpr
  apply (mem_unreadDescriptors_iff hnamed).mpr
  exact ⟨.inputOutput, get?_descriptorContents hnamed (by decide) isName_descriptor (by decide)⟩

end LayoutRebuild
