import LayoutRebuild.Build.Finish
import LayoutRebuild.Text.Uppercase

/-!
# Sample modules

A small module in a folder of its own, for trying out builds: descriptors in `info`, artifacts of
other modules in `deps`, the log in `log`.  The class of a sample layout follows from its name.
-/

namespace LayoutRebuild

/-- The class of a sample layout: `foo` has the class `com.Foo` with one implementation. -/
def BindingClass.ofFamily (family : String) : BindingClass :=
  let name := "com." ++ Text.capitalize family
  ⟨name, "android.x", ∅, SortedSet.ofList [⟨family, false, name ++ "Impl"⟩]⟩

/-- The classes of some sample layouts. -/
def ClassTable.ofFamilies (families : List String) : ClassTable :=
  Table.ofList (families.map fun family => (family, BindingClass.ofFamily family))

/-- The log of a build of some sample layouts. -/
def BuildLog.ofFamilies (families : List String) (edges : List (String × String))
    (dependencies : List String) : BuildLog where
  classes := ClassTable.ofFamilies families
  references := References.addAll ∅ edges
  dependencyClasses := ClassTable.ofFamilies dependencies
  fingerprints := ∅

/-- A module in a folder. -/
structure SampleModule where
  root : Path
deriving DecidableEq, Inhabited

namespace SampleModule

/-- The package of a sample module. -/
def package : String := "foo.bar.baz"

/-- The folder of the descriptors. -/
def descriptorFolder (m : SampleModule) : Path := m.root.join "info"

/-- The folder of the artifacts of other modules. -/
def dependencyFolder (m : SampleModule) : Path := m.root.join "deps"

/-- The folder of the log. -/
def logFolder (m : SampleModule) : Path := m.root.join "log"

/-- The log file. -/
def logPath (m : SampleModule) : Path := BuildLog.pathIn m.logFolder

/-- The path of a descriptor, be it there or not. -/
def descriptorPath (m : SampleModule) (name : DescriptorName) : Path :=
  m.descriptorFolder.join name.fileName

/-- Makes the folders that a module starts with. -/
def create (m : SampleModule) (fs : FileSystem) : FileSystem × Except FileFault Unit :=
  match fs.makeFolders m.descriptorFolder with
  | (fs, .ok ()) => fs.makeFolders m.dependencyFolder
  | failed => failed

/-- Writes a descriptor. -/
def createDescriptor (m : SampleModule) (fs : FileSystem) (name : DescriptorName) :
    Except FileFault FileSystem :=
  fs.writeFile (m.descriptorPath name) ("<layout name=\"" ++ name.family ++ "\"/>").toUTF8

/-- Changes the content of a descriptor. -/
def editDescriptor (m : SampleModule) (fs : FileSystem) (name : DescriptorName) :
    Except FileFault FileSystem :=
  let path := m.descriptorPath name
  let before :=
    match fs.readText path with
    | .ok text => text
    | .error _ => ""
  fs.writeFile path (before ++ "<!-- edited -->").toUTF8

/-- Deletes a descriptor. -/
def deleteDescriptor (m : SampleModule) (fs : FileSystem) (name : DescriptorName) :
    Except FileFault FileSystem :=
  fs.removeFile (m.descriptorPath name)

/-- What a build of the module is given. -/
def arguments (m : SampleModule) : Arguments where
  package := package
  descriptorFolder := m.descriptorFolder
  dependencyFolders := [m.dependencyFolder]
  logFolder := m.logFolder
  artifactFolder := none
  incremental := true
  outOfDate := []
  removed := []

end SampleModule

/-- The outcome of a resolution by names only. -/
structure Snapshot where
  invalidated : SortedSet String
  files : SortedSet String
  existing : SortedSet String
  unchanged : SortedSet String
deriving DecidableEq, Inhabited

/-- The names in a resolution: those of the stale classes, of the files to read again, and of the
layouts whose classes can be used and of those that stay. -/
def Resolution.snapshot (r : Resolution) : Snapshot where
  invalidated := r.invalidatedClasses
  files := SortedSet.ofList (r.filesToConsider.paths.filterMap Path.fileName?)
  existing := SortedSet.ofList r.existingClasses.keys
  unchanged := SortedSet.ofList r.unchangedLog.classes.keys

end LayoutRebuild
