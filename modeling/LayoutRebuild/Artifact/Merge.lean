import LayoutRebuild.Artifact.File
import LayoutRebuild.Diagnostic.Basic

/-!
# The classes of all dependencies

The artifacts in the dependency folders are merged in the order of the folders, and within a folder
in the order of their names, so that the last one wins.  A damaged artifact is skipped with a
warning and costs nothing but its own classes.
-/

namespace LayoutRebuild

/-- What has been merged. -/
structure MergedArtifacts where
  classes : ClassTable
  /-- The artifact that each class was taken from. -/
  origins : Table String Path
  /-- The artifacts that were merged, in order. -/
  loaded : List Path
  /-- The artifacts that could not be read, in order. -/
  skipped : List Path
  diagnostics : List Diagnostic
deriving DecidableEq, Inhabited

namespace MergedArtifacts

/-- Nothing merged. -/
def empty : MergedArtifacts := ⟨∅, ∅, [], [], []⟩

/-- A dependency folder that cannot be listed. -/
def unlistableFolder (folder : Path) (fault : FileFault) : Diagnostic :=
  ((Diagnostic.ofMessage .warning .invalidArtifact "cannot list dependency folder").withPath
    folder).withNote fault.message

/-- A file that is no artifact. -/
def strayFile (path : Path) : Diagnostic :=
  ((Diagnostic.ofMessage .note .unrecognizedFile
    "ignoring file that is not a binding class artifact").withPath path).withHelp
      ("artifact files are named <package>" ++ ArtifactName.ending)

/-- An artifact that cannot be read. -/
def damagedArtifact (path : Path) (package : String) (fault : StoreFault) : Diagnostic :=
  ((Diagnostic.ofMessage .warning .invalidArtifact
    s!"skipped invalid dependency artifact of '{package}'").withPath path).withNote fault.message

/-- Adds one file of a dependency folder.  The artifact of the module itself is left out. -/
def addFile (fs : FileSystem) (ownPackage : String) (merged : MergedArtifacts) (path : Path) :
    MergedArtifacts :=
  match ArtifactName.ofPath? path with
  | none => { merged with diagnostics := merged.diagnostics ++ [strayFile path] }
  | some name =>
    if name.package = ownPackage then merged
    else
      match Artifact.load fs path with
      | .ok classes =>
        { merged with
          classes := merged.classes.override classes
          origins := merged.origins.override (classes.map fun _ _ => path)
          loaded := merged.loaded ++ [path] }
      | .error fault =>
        { merged with
          skipped := merged.skipped ++ [path]
          diagnostics := merged.diagnostics ++ [damagedArtifact path name.package fault] }

/-- Adds a dependency folder.  A folder that is not there adds nothing. -/
def addFolder (fs : FileSystem) (ownPackage : String) (merged : MergedArtifacts) (folder : Path) :
    MergedArtifacts :=
  if fs.exists? folder then
    match fs.listFiles folder with
    | .ok paths => paths.foldl (addFile fs ownPackage) merged
    | .error fault =>
      { merged with diagnostics := merged.diagnostics ++ [unlistableFolder folder fault] }
  else merged

/-- Merges all artifacts in some folders. -/
def ofFolders (fs : FileSystem) (folders : List Path) (ownPackage : String) : MergedArtifacts :=
  folders.foldl (addFolder fs ownPackage) empty

end MergedArtifacts

end LayoutRebuild
