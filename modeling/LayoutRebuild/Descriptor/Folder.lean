import LayoutRebuild.FileSystem.Basic
import LayoutRebuild.Log.File

/-!
# The descriptor folder

The descriptor files of a module stand directly in one folder.  Files are told apart by the
components of their paths, so a set of paths keeps one text for each place.
-/

namespace LayoutRebuild

/-- A set of places, each with the text of a path to it. -/
abbrev PathSet : Type := Table (List Component) Path

namespace PathSet

/-- The set of the paths of a list.  Of paths to the same place the last one is kept. -/
def ofPaths (paths : List Path) : PathSet := Table.ofList (paths.map fun p => (p.components, p))

/-- The paths in order. -/
def paths (s : PathSet) : List Path := s.values

/-- Whether there is a path to the same place. -/
def holds (s : PathSet) (p : Path) : Bool := s.contains p.components

/-- The families of the descriptors in the set. -/
def families (s : PathSet) : SortedSet String := SortedSet.ofList (s.paths.filterMap Path.family?)

end PathSet

/-- The descriptor files in a folder.  A folder that is not there has none. -/
def descriptorFiles (fs : FileSystem) (folder : Path) : Except StoreFault PathSet :=
  if fs.exists? folder then
    match fs.listFiles folder with
    | .ok paths => .ok (PathSet.ofPaths (paths.filter (·.descriptorName?.isSome)))
    | .error fault => .error (.io folder fault)
  else .ok ∅

end LayoutRebuild
