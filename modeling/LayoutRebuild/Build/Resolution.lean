import LayoutRebuild.Artifact.Merge
import LayoutRebuild.Build.Arguments
import LayoutRebuild.Build.Situation
import LayoutRebuild.Diagnostic.Sink

/-!
# Deciding what a build has to do

The only thing that stops a build is a descriptor folder that is there and cannot be listed.  A
missing or damaged log costs a full build and a damaged artifact costs its classes; both are
reported and nothing more.
-/

namespace LayoutRebuild

/-- Why the previous log is not used. -/
inductive FullBuildReason where
  | notIncremental
  | missingLog
  | corruptLog (fault : StoreFault)
deriving DecidableEq, Inhabited

/-- The text of a reason. -/
def FullBuildReason.message : FullBuildReason → String
  | notIncremental => "non-incremental build requested"
  | missingLog => "no previous dependency log"
  | corruptLog fault => "previous dependency log unusable: " ++ fault.message

/-- The kind of a build. -/
inductive BuildMode where
  | incremental
  | full (reason : FullBuildReason)
deriving DecidableEq, Inhabited

/-- Whether everything is generated anew. -/
def BuildMode.isFull : BuildMode → Bool
  | incremental => false
  | full _ => true

/-- What a build has to do. -/
structure Resolution where
  mode : BuildMode
  /-- The names of the classes of the previous build that are stale. -/
  invalidatedClasses : SortedSet String
  /-- The descriptor files that must be read again. -/
  filesToConsider : PathSet
  /-- The classes that can be used without reading a descriptor. -/
  existingClasses : ClassTable
  /-- What stays of the previous log. -/
  unchangedLog : BuildLog
  /-- The classes of other modules. -/
  dependencyClasses : ClassTable
  /-- The descriptor files that are there. -/
  presentFiles : PathSet
deriving DecidableEq, Inhabited

namespace Resolution

/-! ## Classes of other modules -/

/-- The classes of the module together with those of other modules whose layout is not one of the
module. -/
def visibleClasses (own dependencyClasses : ClassTable) (localLayouts : SortedSet String) :
    ClassTable :=
  (dependencyClasses.filter fun name _ => !localLayouts.contains name).override own

/-- A layout of the module hides one of another module. -/
def shadowed (layout qualifiedName : String) : Diagnostic :=
  (Diagnostic.ofMessage .note .shadowedLayout
    s!"local layout '{layout}' shadows '{qualifiedName}' from an upstream module").withHelp
      "rename one of the layouts to use both classes"

/-- The diagnostics for all hidden layouts, in the order of their names. -/
def shadowDiagnostics (dependencyClasses : ClassTable) (localLayouts : SortedSet String) :
    List Diagnostic :=
  (dependencyClasses.entries.filter fun e => localLayouts.contains e.1).map fun e =>
    shadowed e.1 e.2.qualifiedName

/-! ## The previous log -/

/-- What the previous build left: a log to go on from, or a reason to start anew with the classes
that are to be thrown away. -/
inductive Previous where
  | usable (log : BuildLog)
  | unusable (reason : FullBuildReason) (old : Option BuildLog)
deriving DecidableEq, Inhabited

/-- The log that the build may go on from. -/
def previous (fs : FileSystem) (args : Arguments) : Previous :=
  if args.incremental then
    match BuildLog.read fs args.logPath with
    | .ok (some log) => .usable log
    | .ok none => .unusable .missingLog none
    | .error fault => .unusable (.corruptLog fault) none
  else .unusable .notIncremental (args.readableLog? fs)

/-- What the build log says about a reason. -/
def reasonDiagnostic (path : Path) : FullBuildReason → Diagnostic
  | .notIncremental =>
    (Diagnostic.ofMessage .help .fullBuildRequested
      "non-incremental build, regenerating every class").withPath path
  | .missingLog =>
    (Diagnostic.ofMessage .note .missingLog
      "no dependency log from a previous build, regenerating every class").withPath path
  | .corruptLog fault =>
    ((Diagnostic.ofMessage .warning .corruptLog
      "dependency log from the previous build is unusable, regenerating every class").withPath
        path).withNote fault.message

/-! ## The two kinds of build -/

/-- Goes on from the previous log. -/
def ofSituation (s : Situation) : Resolution where
  mode := .incremental
  invalidatedClasses := s.invalidatedClasses
  filesToConsider := s.filesToConsider
  existingClasses := visibleClasses s.keptClasses s.dependencyClasses s.localLayouts
  unchangedLog := s.unchangedLog
  dependencyClasses := s.dependencyClasses
  presentFiles := s.present

/-- Starts anew. -/
def startOver (reason : FullBuildReason) (old : Option BuildLog) (present : PathSet)
    (dependencyClasses : ClassTable) : Resolution where
  mode := .full reason
  invalidatedClasses :=
    match old with
    | some log => ClassTable.classNames log.classes log.classes.keys
    | none => ∅
  filesToConsider := present
  existingClasses := visibleClasses ∅ dependencyClasses present.families
  unchangedLog := .empty
  dependencyClasses := dependencyClasses
  presentFiles := present

/-- Decides what to do, given the descriptors and the merged dependencies. -/
def plan (args : Arguments) (present : PathSet) (merged : MergedArtifacts) (previous : Previous) :
    Resolution × List Diagnostic :=
  match previous with
  | .usable log =>
    let s : Situation := ⟨log, present, merged.classes, args.outOfDate, args.removed⟩
    (ofSituation s, merged.diagnostics ++ shadowDiagnostics merged.classes s.localLayouts)
  | .unusable reason old =>
    (startOver reason old present merged.classes,
      merged.diagnostics ++ reasonDiagnostic args.logPath reason ::
        shadowDiagnostics merged.classes present.families)

end Resolution

/-- What the build has to do, and what is to be said about it. -/
def resolve (fs : FileSystem) (args : Arguments) :
    Except StoreFault (Resolution × List Diagnostic) :=
  match descriptorFiles fs args.descriptorFolder with
  | .error fault => .error fault
  | .ok present =>
    .ok <| Resolution.plan args present
      (MergedArtifacts.ofFolders fs args.dependencyFolders args.package)
      (Resolution.previous fs args)

/-- Decides what the build has to do and emits what is to be said about it. -/
def resolveInto (fs : FileSystem) (args : Arguments) (sink : DiagnosticSink) :
    DiagnosticSink × Except StoreFault Resolution :=
  match resolve fs args with
  | .error fault => (sink, .error fault)
  | .ok (r, diagnostics) => (sink.emitAll diagnostics, .ok r)

end LayoutRebuild
