import LayoutRebuild.Artifact.Name
import LayoutRebuild.Log.File

/-!
# Published classes

An artifact holds the class table of a module.  What is read from one is trusted by other modules,
so a table with an unnamed layout or an unnamed class is refused.
-/

namespace LayoutRebuild.Artifact

/-- The first fault of a list of entries: a layout without a name, or a class without one. -/
def firstFault? (path : Path) : List (String × BindingClass) → Option StoreFault
  | [] => none
  | (layout, c) :: rest =>
    if layout = "" then some (.unnamedLayout path)
    else if c.qualifiedName = "" then some (.unnamedClass path layout)
    else firstFault? path rest

/-- The classes in an artifact. -/
def load (fs : FileSystem) (path : Path) : Except StoreFault ClassTable :=
  match ArtifactName.ofPath? path with
  | none => .error (.notArtifact path)
  | some _ =>
    match LogFile.read fs path with
    | .error fault => .error fault
    | .ok none => .error (.artifactGone path)
    | .ok (some file) =>
      match firstFault? path file.classes.entries with
      | some fault => .error fault
      | none => .ok file.classes

/-- The artifact of a package in a folder. -/
def pathIn (folder : Path) (package : String) : Path :=
  folder.join (ArtifactName.mk package).fileName

/-- Writes the artifact of a package into a folder. -/
def publish (fs : FileSystem) (folder : Path) (package : String) (classes : ClassTable) :
    FileSystem × Except StoreFault Path :=
  let path := pathIn folder package
  match LogFile.write fs path (.ofClasses classes) with
  | (fs, .ok ()) => (fs, .ok path)
  | (fs, .error fault) => (fs, .error fault)

end LayoutRebuild.Artifact
