import LayoutRebuild.Proofs.Artifact.Reports
import LayoutRebuild.Proofs.Build.Visible

/-!
# What a resolution reports

A resolution reports what merging reports, then why the previous log is not used, if it is not, and then
the classes of other modules that are hidden (`Resolution.reported_eq`).  These groups can be told apart
by their codes, so each of them is what has been emitted under its codes (`Reports`).  Nothing is emitted
when the resolution fails, and nothing that is emitted is an error.
-/

namespace LayoutRebuild

variable {fs : FileSystem} {args : Arguments} {r : Resolution} {reported : List Diagnostic}

/-! ## The kind of build -/

/-- The code that a reason is reported under. -/
def FullBuildReason.code : FullBuildReason → DiagnosticCode
  | notIncremental => .fullBuildRequested
  | missingLog => .missingLog
  | corruptLog _ => .corruptLog

/-- The codes that the kind of a build is reported under. -/
def BuildMode.codes : BuildMode → List DiagnosticCode
  | incremental => []
  | full reason => [reason.code]

example : ([.notIncremental, .missingLog, .corruptLog default].map fun reason : FullBuildReason =>
    reason.code.display) = ["I203", "I201", "I202"] := by decide

namespace Resolution

/-- What there is to report about the kind of the build. -/
def modeReports (path : Path) : BuildMode → List Diagnostic
  | .incremental => []
  | .full reason => [reasonDiagnostic path reason]

theorem map_code_modeReports (path : Path) (mode : BuildMode) :
    (modeReports path mode).map (·.code) = mode.codes := by
  cases mode with
  | incremental => rfl
  | full reason => cases reason <;> rfl

theorem of_mem_modeReports {path : Path} {mode : BuildMode} {d : Diagnostic}
    (h : d ∈ modeReports path mode) :
    (∃ reason, d.code = FullBuildReason.code reason) ∧ d.severity ≠ .error := by
  cases mode with
  | incremental => cases h
  | full reason =>
    rw [List.mem_singleton.mp h]
    refine ⟨⟨reason, ?_⟩, ?_⟩
    · cases reason <;> rfl
    · cases reason <;> exact nofun

/-! ## Hidden classes -/

/-- Whether the module has the layout itself: with a descriptor, or with a class that stays. -/
def hasLayout (r : Resolution) (layout : String) : Bool :=
  r.presentFiles.families.contains layout || r.unchangedLog.classes.contains layout

/-- What there is to report about the classes of other modules: that they are hidden, if the module has
the layout itself. -/
def hiddenReports (r : Resolution) (dependencyClasses : ClassTable) : List Diagnostic :=
  (dependencyClasses.entries.filter fun e => r.hasLayout e.1).map fun e =>
    shadowed e.1 e.2.qualifiedName

theorem shadowDiagnostics_eq {dependencyClasses : ClassTable} {localLayouts : SortedSet String}
    (h : ∀ layout, layout ∈ localLayouts ↔
      layout ∈ r.presentFiles.families ∨ layout ∈ r.unchangedLog.classes) :
    shadowDiagnostics dependencyClasses localLayouts = r.hiddenReports dependencyClasses := by
  have hlocal (layout : String) : localLayouts.contains layout = r.hasLayout layout := by
    rw [Bool.eq_iff_iff, hasLayout, Bool.or_eq_true]
    exact h layout
  rw [shadowDiagnostics, hiddenReports]
  simp only [hlocal]

theorem of_mem_hiddenReports {dependencyClasses : ClassTable} {d : Diagnostic}
    (h : d ∈ r.hiddenReports dependencyClasses) :
    d.code = .shadowedLayout ∧ d.severity = .note := by
  obtain ⟨e, -, rfl⟩ := List.mem_map.mp h
  exact ⟨rfl, rfl⟩

/-! ## All that is reported -/

/-- All that there is to report, in order. -/
def reports (fs : FileSystem) (args : Arguments) (r : Resolution) : List Diagnostic :=
  (MergedArtifacts.ofFolders fs args.dependencyFolders args.package).diagnostics ++
    (modeReports args.logPath r.mode ++ r.hiddenReports (upstreamClasses fs args))

/-- It is what a resolution reports. -/
theorem reported_eq (h : resolve fs args = .ok (r, reported)) : reported = r.reports fs args := by
  unfold resolve at h
  split at h
  · cases h
  next present hpresent =>
    rw [Except.ok.injEq] at h
    cases hprevious : previous fs args with
    | usable log =>
      rw [hprevious] at h
      cases h
      exact congrArg _ (shadowDiagnostics_eq fun layout => Situation.mem_localLayouts)
    | unusable reason old =>
      rw [hprevious] at h
      cases h
      refine congrArg _ (congrArg _ (shadowDiagnostics_eq fun layout => ?_))
      exact (or_iff_left (Table.not_mem_empty layout)).symm

end Resolution

/-- The diagnostics agree with what has been merged and decided, and there are no others. -/
structure Reports (fs : FileSystem) (args : Arguments) (r : Resolution)
    (reported : List Diagnostic) : Prop where
  /-- There is one warning for each visit to a folder that is there and cannot be listed, and one for each
  artifact that is skipped. -/
  damage : ∃ damaged,
    List.Forall₂ (MergedArtifacts.ReportsDamage fs)
      (MergedArtifacts.ofFolders fs args.dependencyFolders args.package).skipped damaged ∧
    (reported.filter (·.code = .invalidArtifact)).Perm
      (args.dependencyFolders.filterMap (MergedArtifacts.folderReport? fs) ++ damaged)
  /-- There is one note for each file that is no artifact, each time its folder is visited. -/
  strays : reported.filter (·.code = .unrecognizedFile) =
    (args.dependencyFolders.flatMap (MergedArtifacts.strayFiles fs)).map MergedArtifacts.strayFile
  /-- The reason for a full build is given, and for no other build. -/
  mode : reported.filter (·.code.category = .incremental) =
    Resolution.modeReports args.logPath r.mode
  mode_code : (reported.filter (·.code.category = .incremental)).map (·.code) = r.mode.codes
  /-- There is one note for each class of another module whose layout the module has itself. -/
  hidden : reported.filter (·.code = .shadowedLayout) = r.hiddenReports (upstreamClasses fs args)
  nothing_else : ∀ d ∈ reported, d.code = .invalidArtifact ∨ d.code = .unrecognizedFile ∨
    d.code.category = .incremental ∨ d.code = .shadowedLayout
  no_error : ∀ d ∈ reported, d.severity ≠ .error

/-! ## The groups by their codes -/

namespace Resolution

section Groups

variable (q : DiagnosticCode → Bool)

theorem filter_reports (fs : FileSystem) (args : Arguments) (r : Resolution) :
    (r.reports fs args).filter (q ·.code) =
      (MergedArtifacts.ofFolders fs args.dependencyFolders args.package).diagnostics.filter (q ·.code) ++
        ((modeReports args.logPath r.mode).filter (q ·.code) ++
          (r.hiddenReports (upstreamClasses fs args)).filter (q ·.code)) := by
  rw [reports, List.filter_append, List.filter_append]

theorem filter_merged_eq_nil (hartifact : q .invalidArtifact = false)
    (hfile : q .unrecognizedFile = false) (folders : List Path) (ownPackage : String) :
    (MergedArtifacts.ofFolders fs folders ownPackage).diagnostics.filter (q ·.code) = [] := by
  rw [List.filter_eq_nil_iff]
  intro d hd
  rcases MergedArtifacts.code_of_reported hd with ⟨hcode, -⟩ | ⟨hcode, -⟩
  · rw [hcode, hartifact]
    exact Bool.false_ne_true
  · rw [hcode, hfile]
    exact Bool.false_ne_true

theorem filter_modeReports_eq_nil (hreason : ∀ reason, q (FullBuildReason.code reason) = false)
    (path : Path) (mode : BuildMode) : (modeReports path mode).filter (q ·.code) = [] := by
  rw [List.filter_eq_nil_iff]
  intro d hd
  obtain ⟨⟨reason, hcode⟩, -⟩ := of_mem_modeReports hd
  rw [hcode, hreason]
  exact Bool.false_ne_true

theorem filter_modeReports_eq_self (hreason : ∀ reason, q (FullBuildReason.code reason) = true)
    (path : Path) (mode : BuildMode) :
    (modeReports path mode).filter (q ·.code) = modeReports path mode := by
  rw [List.filter_eq_self]
  intro d hd
  obtain ⟨⟨reason, hcode⟩, -⟩ := of_mem_modeReports hd
  rw [hcode, hreason]

theorem filter_hiddenReports_eq_nil (hshadowed : q .shadowedLayout = false)
    (dependencyClasses : ClassTable) :
    (r.hiddenReports dependencyClasses).filter (q ·.code) = [] := by
  rw [List.filter_eq_nil_iff]
  intro d hd
  rw [(of_mem_hiddenReports hd).1, hshadowed]
  exact Bool.false_ne_true

theorem filter_hiddenReports_eq_self (hshadowed : q .shadowedLayout = true)
    (dependencyClasses : ClassTable) :
    (r.hiddenReports dependencyClasses).filter (q ·.code) = r.hiddenReports dependencyClasses := by
  rw [List.filter_eq_self]
  intro d hd
  rw [(of_mem_hiddenReports hd).1, hshadowed]

end Groups

theorem of_mem_reports {d : Diagnostic} (h : d ∈ r.reports fs args) :
    (d.code = .invalidArtifact ∨ d.code = .unrecognizedFile ∨ d.code.category = .incremental ∨
      d.code = .shadowedLayout) ∧ d.severity ≠ .error := by
  rcases List.mem_append.mp h with hmerged | h
  · rcases MergedArtifacts.code_of_reported hmerged with ⟨hcode, hseverity⟩ | ⟨hcode, hseverity⟩
    · exact ⟨.inl hcode, by rw [hseverity]; nofun⟩
    · exact ⟨.inr (.inl hcode), by rw [hseverity]; nofun⟩
  · rcases List.mem_append.mp h with hmode | hhidden
    · obtain ⟨⟨reason, hcode⟩, hseverity⟩ := of_mem_modeReports hmode
      refine ⟨.inr (.inr (.inl ?_)), hseverity⟩
      rw [hcode]
      cases reason <;> rfl
    · obtain ⟨hcode, hseverity⟩ := of_mem_hiddenReports hhidden
      exact ⟨.inr (.inr (.inr hcode)), by rw [hseverity]; nofun⟩

end Resolution

/-- What a resolution reports agrees with what it has merged and decided. -/
theorem reports_of_resolve (h : resolve fs args = .ok (r, reported)) :
    Reports fs args r reported := by
  obtain rfl := Resolution.reported_eq h
  have hreason {code : DiagnosticCode} (hcode : code.category = .warning) (reason : FullBuildReason) :
      decide (reason.code = code) = false := by
    refine decide_eq_false fun heq => ?_
    rw [← heq] at hcode
    cases reason <;> cases hcode
  have hmode : (r.reports fs args).filter (·.code.category = .incremental) =
      Resolution.modeReports args.logPath r.mode := by
    rw [Resolution.filter_reports (·.category = .incremental),
      Resolution.filter_merged_eq_nil (·.category = .incremental) rfl rfl,
      Resolution.filter_modeReports_eq_self (·.category = .incremental)
        (fun reason => by cases reason <;> rfl),
      Resolution.filter_hiddenReports_eq_nil (·.category = .incremental) rfl,
      List.nil_append, List.append_nil]
  refine ⟨?_, ?_, hmode, ?_, ?_, fun d hd => (Resolution.of_mem_reports hd).1,
    fun d hd => (Resolution.of_mem_reports hd).2⟩
  · obtain ⟨damaged, hdamaged, hperm⟩ :=
      MergedArtifacts.damage_reported fs args.dependencyFolders args.package
    refine ⟨damaged, hdamaged, ?_⟩
    rwa [Resolution.filter_reports (· = .invalidArtifact),
      Resolution.filter_modeReports_eq_nil (· = .invalidArtifact) (hreason rfl),
      Resolution.filter_hiddenReports_eq_nil (· = .invalidArtifact) rfl,
      List.append_nil, List.append_nil]
  · rw [Resolution.filter_reports (· = .unrecognizedFile),
      Resolution.filter_modeReports_eq_nil (· = .unrecognizedFile) (hreason rfl),
      Resolution.filter_hiddenReports_eq_nil (· = .unrecognizedFile) rfl,
      List.append_nil, List.append_nil]
    exact MergedArtifacts.strays_reported fs args.dependencyFolders args.package
  · rw [hmode]
    exact Resolution.map_code_modeReports args.logPath r.mode
  · rw [Resolution.filter_reports (· = .shadowedLayout),
      Resolution.filter_merged_eq_nil (· = .shadowedLayout) rfl rfl,
      Resolution.filter_modeReports_eq_nil (· = .shadowedLayout) (hreason rfl),
      Resolution.filter_hiddenReports_eq_self (· = .shadowedLayout) rfl,
      List.nil_append, List.nil_append]

/-- A resolution that fails emits nothing.  One that succeeds emits its reports, which agree with what it
has merged and decided, and it does not add to the errors.  The files that are no artifacts are told from
the others by their names. -/
theorem reports_match_decision (fs : FileSystem) (args : Arguments) (sink : DiagnosticSink) :
    (∀ fault, (resolveInto fs args sink).2 = .error fault → (resolveInto fs args sink).1 = sink) ∧
    (∀ r, (resolveInto fs args sink).2 = .ok r → ∃ reported,
      (resolveInto fs args sink).1 = ⟨sink.held ++ reported, sink.errorCount⟩ ∧
        Reports fs args r reported) ∧
    (fs.WellNamed → ∀ folder, (MergedArtifacts.strayFiles fs folder).Nodup ∧
      ∀ p, p ∈ MergedArtifacts.strayFiles fs folder ↔ folder.text ≠ "" ∧
        ∃ name, Path.IsName name ∧ ArtifactName.parse name = none ∧
          fs.isFile (folder.join name) = true ∧ p = folder.join name) := by
  refine ⟨fun fault hfault => ?_, fun r hr => ?_, fun hnamed folder =>
    ⟨MergedArtifacts.nodup_strayFiles hnamed, fun p => MergedArtifacts.mem_strayFiles hnamed⟩⟩
  · unfold resolveInto at hfault ⊢
    split at hfault
    · rfl
    · cases hfault
  · unfold resolveInto at hr ⊢
    split at hr
    · cases hr
    next r' reported hresolve =>
      cases hr
      have hreports := reports_of_resolve hresolve
      refine ⟨reported, ?_, hreports⟩
      have hnone : reported.countP (·.severity = .error) = 0 := by
        rw [List.countP_eq_zero]
        intro d hd
        simpa using hreports.no_error d hd
      have hheld := sink.held_emitAll reported
      have herrors := sink.errorCount_emitAll reported
      rw [hnone, Nat.add_zero] at herrors
      rw [← hheld, ← herrors]

/-! ## Something of every kind -/

/-- A file system with a descriptor, two artifacts of other modules and a file that is no artifact. -/
def FileSystem.ofFindings (a b : ByteArray) : FileSystem where
  nodes := Table.ofList
    [(["info"], .folder), (["info", "m-layout.xml"], .file (.bytes b)), (["x"], .folder),
      (["x", (ArtifactName.mk "a").fileName], .file (.bytes a)),
      (["x", (ArtifactName.mk "b").fileName], .file (.bytes b)),
      (["x", "notes.txt"], .file (.bytes b))]
  workingFolder := []

/-- What a build in that file system is given.  One of the dependency folders is a file. -/
def Arguments.ofFindings : Arguments :=
  ⟨"com", ⟨"info"⟩, [⟨"x"⟩, ⟨"x/notes.txt"⟩], ⟨"log"⟩, none, true, [], []⟩

section OfFindings

variable (a b : ByteArray)

theorem read_ofFindings :
    (FileSystem.ofFindings a b).read (Artifact.pathIn ⟨"x"⟩ "a") = .ok a ∧
    (FileSystem.ofFindings a b).read (Artifact.pathIn ⟨"x"⟩ "b") = .ok b ∧
    (FileSystem.ofFindings a b).read ((Path.mk "x").join "notes.txt") = .ok b := ⟨rfl, rfl, rfl⟩

theorem listFiles_ofFindings : (FileSystem.ofFindings a b).listFiles ⟨"x"⟩ =
    .ok [Artifact.pathIn ⟨"x"⟩ "a", Artifact.pathIn ⟨"x"⟩ "b", (Path.mk "x").join "notes.txt"] := by
  obtain ⟨ha, hb, hnotes⟩ := read_ofFindings a b
  have hlist : (FileSystem.ofFindings a b).list ⟨"x"⟩ =
      .ok [((ArtifactName.mk "a").fileName, .file (.bytes a)),
        ((ArtifactName.mk "b").fileName, .file (.bytes b)), ("notes.txt", .file (.bytes b))] := rfl
  refine FileSystem.listFiles_of_sorted hlist ?_ (by decide)
  refine (List.filter_cons_of_pos (FileSystem.isFile_of_read ha)).trans (congrArg _ ?_)
  refine (List.filter_cons_of_pos (FileSystem.isFile_of_read hb)).trans (congrArg _ ?_)
  exact List.filter_cons_of_pos (FileSystem.isFile_of_read hnotes)

theorem filesIn_ofFindings : Arguments.ofFindings.dependencyFolders.flatMap
      (MergedArtifacts.filesIn (.ofFindings a b)) =
    [Artifact.pathIn ⟨"x"⟩ "a", Artifact.pathIn ⟨"x"⟩ "b", (Path.mk "x").join "notes.txt"] := by
  have hfile : MergedArtifacts.filesIn (.ofFindings a b) ⟨"x/notes.txt"⟩ = [] := rfl
  rw [Arguments.ofFindings, List.flatMap_cons, List.flatMap_singleton, hfile, List.append_nil]
  exact MergedArtifacts.filesIn_of_listFiles (listFiles_ofFindings a b)

theorem folderReports_ofFindings : (Arguments.ofFindings.dependencyFolders.filterMap
    (MergedArtifacts.folderReport? (.ofFindings a b))).length = 1 := by
  have hfolder : MergedArtifacts.folderReport? (.ofFindings a b) ⟨"x"⟩ = none := by
    rw [MergedArtifacts.folderReport?, listFiles_ofFindings]
    exact ite_self none
  rw [Arguments.ofFindings, List.filterMap_cons_none hfolder]
  rfl

theorem strayFiles_ofFindings : Arguments.ofFindings.dependencyFolders.flatMap
      (MergedArtifacts.strayFiles (.ofFindings a b)) = [(Path.mk "x").join "notes.txt"] := by
  have hstrays := List.filter_flatMap (l := Arguments.ofFindings.dependencyFolders)
    (g := MergedArtifacts.filesIn (.ofFindings a b)) (f := MergedArtifacts.isStray)
  rw [filesIn_ofFindings] at hstrays
  exact hstrays.symm.trans (by decide)

theorem listed_ofFindings : ∃ present,
    descriptorFiles (.ofFindings a b) ⟨"info"⟩ = .ok present ∧ "m" ∈ present.families := by
  have hnamed : (FileSystem.ofFindings a b).WellNamed := .ofList (by simp; decide)
  have hloc : (FileSystem.ofFindings a b).locate ⟨"info"⟩ = .ok ["info"] := rfl
  obtain ⟨present, hpresent⟩ := exists_descriptorFiles hloc rfl
  have hread : (FileSystem.ofFindings a b).read ((Path.mk "info").join "m-layout.xml") = .ok b := rfl
  refine ⟨present, hpresent, (mem_present_families hpresent).mpr ⟨"m-layout.xml", ?_, rfl⟩⟩
  exact mem_descriptorContents_of_read hnamed (by decide) (by decide) (by decide) hread

end OfFindings

/-- Of two artifacts one has a layout without a name, the file beside them is no artifact, and it is given
as a folder as well.  There is no log, and the layout of the other artifact has a descriptor.  All of this
is reported, and nothing is if the descriptor folder is a file. -/
theorem all_findings_reported : ∃ fs r reported, fs.WellNamed ∧
    (Path.mk "x").join "notes.txt" ∈ MergedArtifacts.strayFiles fs ⟨"x"⟩ ∧
    resolveInto fs .ofFindings .empty = (⟨reported, 0⟩, .ok r) ∧
    (reported.filter (·.code = .invalidArtifact)).length = 2 ∧
    reported.filter (·.code = .unrecognizedFile) =
      [MergedArtifacts.strayFile ((Path.mk "x").join "notes.txt")] ∧
    r.mode = .full .missingLog ∧
    (reported.filter (·.code.category = .incremental)).map (·.code) = [.missingLog] ∧
    reported.filter (·.code = .shadowedLayout) = [Resolution.shadowed "m" "A"] ∧
    ∃ fault, resolveInto fs { Arguments.ofFindings with descriptorFolder := ⟨"x/notes.txt"⟩ } .empty =
      (.empty, .error fault) := by
  obtain ⟨a, htexta⟩ : ∃ a, a = (LogFile.ofClasses (.single "m" "A")).toText.toUTF8 := ⟨_, rfl⟩
  obtain ⟨b, htextb⟩ : ∃ b, b = (LogFile.ofClasses (.single "" "B")).toText.toUTF8 := ⟨_, rfl⟩
  have hnamed : (FileSystem.ofFindings a b).WellNamed := .ofList (by simp; decide)
  obtain ⟨hreada, hreadb, hnotes⟩ := read_ofFindings a b
  have ha : MergedArtifacts.classesIn? (.ofFindings a b) (Artifact.pathIn ⟨"x"⟩ "a") =
      some (.single "m" "A") :=
    MergedArtifacts.classesIn?_eq_some_iff.mpr ((Artifact.load_of_text rfl
      (hreada.trans (congrArg _ htexta))).mpr ⟨rfl, ClassTable.named_ofList (by decide)⟩)
  have hb : MergedArtifacts.classesIn? (.ofFindings a b) (Artifact.pathIn ⟨"x"⟩ "b") = none := by
    rw [Option.eq_none_iff_forall_ne_some]
    intro classes hclasses
    have hnames := ((Artifact.load_of_text rfl (hreadb.trans (congrArg _ htextb))).mp
      (MergedArtifacts.classesIn?_eq_some_iff.mp hclasses)).2
    exact (hnames "" ⟨"B", "com", ∅, ∅⟩ rfl).1 rfl
  have hskipped : (MergedArtifacts.ofFolders (.ofFindings a b)
      Arguments.ofFindings.dependencyFolders "com").skipped = [Artifact.pathIn ⟨"x"⟩ "b"] := by
    have hwhole : MergedArtifacts.isDamaged (.ofFindings a b) "com" (Artifact.pathIn ⟨"x"⟩ "a") =
        false := by simp [MergedArtifacts.isDamaged, MergedArtifacts.loads, ha]
    have hdamaged : MergedArtifacts.isDamaged (.ofFindings a b) "com"
        (Artifact.pathIn ⟨"x"⟩ "b") = true := by
      rw [MergedArtifacts.isDamaged, MergedArtifacts.loads, hb]
      rfl
    rw [MergedArtifacts.skipped_ofFolders, filesIn_ofFindings,
      List.filter_cons_of_neg (ne_true_of_eq_false hwhole), List.filter_cons_of_pos hdamaged]
    rfl
  have hupstream : upstreamClasses (.ofFindings a b) .ofFindings = .single "m" "A" := by
    rw [upstreamClasses, MergedArtifacts.classes_ofFolders, MergedArtifacts.flatMap_foreignArtifacts,
      filesIn_ofFindings, MergedArtifacts.overlay]
    have hforeign : [Artifact.pathIn ⟨"x"⟩ "a", Artifact.pathIn ⟨"x"⟩ "b",
        (Path.mk "x").join "notes.txt"].filter (MergedArtifacts.isForeign "com") =
        [Artifact.pathIn ⟨"x"⟩ "a", Artifact.pathIn ⟨"x"⟩ "b"] := rfl
    refine (congrArg _ (congrArg _ hforeign)).trans ?_
    rw [List.filterMap_cons_some ha, List.filterMap_cons_none hb]
    rfl
  obtain ⟨present, hlisted, hm⟩ := listed_ofFindings a b
  obtain ⟨diagnostics, hresolve⟩ : ∃ diagnostics, resolve (.ofFindings a b) .ofFindings =
      .ok (.startOver .missingLog none present (.single "m" "A"), diagnostics) := by
    have hprevious : Resolution.previous (.ofFindings a b) .ofFindings = .unusable .missingLog none :=
      rfl
    have hpresent : descriptorFiles (.ofFindings a b) Arguments.ofFindings.descriptorFolder =
        .ok present := hlisted
    simp only [resolve, hpresent, Resolution.plan, hprevious, ← hupstream]
    exact ⟨_, rfl⟩
  have hinto : (resolveInto (.ofFindings a b) .ofFindings .empty).2 =
      .ok (.startOver .missingLog none present (.single "m" "A")) := by
    rw [resolveInto, hresolve]
  obtain ⟨-, hemits, hstrays⟩ := reports_match_decision (.ofFindings a b) .ofFindings .empty
  obtain ⟨reported, hsink, hreports⟩ := hemits _ hinto
  refine ⟨.ofFindings a b, _, reported, hnamed, ?_, Prod.ext hsink hinto, ?_, ?_, rfl,
    hreports.mode_code, ?_, ?_⟩
  · refine ((hstrays hnamed ⟨"x"⟩).2 _).mpr ⟨by decide, "notes.txt", by decide, by decide, ?_, rfl⟩
    exact FileSystem.isFile_of_read hnotes
  · obtain ⟨damaged, hdamaged, hperm⟩ := hreports.damage
    rw [hperm.length_eq, List.length_append, folderReports_ofFindings, ← hdamaged.length_eq]
    exact congrArg (fun skipped => 1 + skipped.length) hskipped
  · rw [hreports.strays, strayFiles_ofFindings]
    rfl
  · have hhas : (Resolution.startOver .missingLog none present (.single "m" "A")).hasLayout "m" =
        true := Bool.or_eq_true_iff.mpr (.inl hm)
    have hentries : (ClassTable.single "m" "A").entries.filter (fun e =>
        (Resolution.startOver .missingLog none present (.single "m" "A")).hasLayout e.1) =
        [("m", ⟨"A", "com", ∅, ∅⟩)] := List.filter_cons_of_pos hhas
    rw [hreports.hidden, hupstream, Resolution.hiddenReports, hentries]
    rfl
  · obtain ⟨fault, hfault⟩ : ∃ fault, (resolveInto (.ofFindings a b)
        { Arguments.ofFindings with descriptorFolder := ⟨"x/notes.txt"⟩ } .empty).2 =
          .error fault := ⟨_, rfl⟩
    have hsame := (reports_match_decision _ _ _).1 fault hfault
    exact ⟨fault, Prod.ext hsame hfault⟩

end LayoutRebuild
