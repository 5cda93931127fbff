import LayoutRebuild.Descriptor.Fingerprints
import LayoutRebuild.Descriptor.Folder
import LayoutRebuild.Log.File

/-!
# What a build is given

The folders of a module, and the descriptor files that have changed or gone since the last build.
Whoever does not keep track of these files can have them found out from the recorded fingerprints.
-/

namespace LayoutRebuild

/-- What a build is given. -/
structure Arguments where
  package : String
  descriptorFolder : Path
  dependencyFolders : List Path
  logFolder : Path
  /-- Where the classes of the module are published, if at all. -/
  artifactFolder : Option Path
  /-- Whether the previous log may be used. -/
  incremental : Bool
  /-- The descriptor files that were added or modified. -/
  outOfDate : List Path
  /-- The descriptor files that were deleted. -/
  removed : List Path
deriving DecidableEq, Inhabited

namespace Arguments

/-- The log file of the module. -/
def logPath (args : Arguments) : Path := BuildLog.pathIn args.logFolder

/-- The log of the previous build, if there is one that can be read. -/
def readableLog? (fs : FileSystem) (args : Arguments) : Option BuildLog :=
  match BuildLog.read fs args.logPath with
  | .ok log => log
  | .error _ => none

/-- The fingerprints that the previous build recorded.  Without a readable log there are none. -/
def recordedFingerprints (fs : FileSystem) (args : Arguments) : Table String ContentHash :=
  match readableLog? fs args with
  | some log => log.fingerprints
  | none => ∅

/-- The arguments with the changed and the deleted files found out from the fingerprints. -/
def withDetectedChanges (fs : FileSystem) (args : Arguments) : Except StoreFault Arguments :=
  match descriptorFiles fs args.descriptorFolder with
  | .error fault => .error fault
  | .ok present =>
    let changes := Changes.since (recordedFingerprints fs args) args.descriptorFolder
      (Fingerprints.ofPaths fs present.paths)
    .ok { args with outOfDate := changes.outOfDate, removed := changes.removed }

end Arguments

end LayoutRebuild
