import LayoutRebuild.Build.Resolution

/-!
# Finishing a build

Once the stale classes have been generated anew, the next log is put together from what stayed, what
is fresh, and what the build saw.  The log is written before the classes are published, so that a
build whose publishing fails can go on from its log.
-/

namespace LayoutRebuild.Resolution

/-- The log that the next build starts from.  The fingerprints are those of the moment. -/
def nextLog (fs : FileSystem) (r : Resolution) (fresh : BuildLog) : BuildLog :=
  { r.unchangedLog.absorb fresh with
    dependencyClasses := r.dependencyClasses
    fingerprints := (Fingerprints.ofPaths fs r.presentFiles.paths).hashes }

/-- Writes the next log into a folder. -/
def persist (fs : FileSystem) (r : Resolution) (logFolder : Path) (fresh : BuildLog) :
    FileSystem × Except StoreFault BuildLog :=
  let next := r.nextLog fs fresh
  match BuildLog.save fs (BuildLog.pathIn logFolder) next with
  | (fs, .ok ()) => (fs, .ok next)
  | (fs, .error fault) => (fs, .error fault)

/-- Writes the next log and publishes the classes of the module if there is a folder for them. -/
def finish (fs : FileSystem) (r : Resolution) (args : Arguments) (fresh : BuildLog) :
    FileSystem × Except StoreFault BuildLog :=
  match r.persist fs args.logFolder fresh with
  | (fs, .error fault) => (fs, .error fault)
  | (fs, .ok next) =>
    match args.artifactFolder with
    | none => (fs, .ok next)
    | some folder =>
      match Artifact.publish fs folder args.package next.classes with
      | (fs, .ok _) => (fs, .ok next)
      | (fs, .error fault) => (fs, .error fault)

end LayoutRebuild.Resolution
