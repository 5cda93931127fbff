import LayoutRebuild.Descriptor.Folder
import LayoutRebuild.Diagnostic.Basic
import LayoutRebuild.Graph

/-!
# What a change invalidates

A situation is all that an incremental build decides on: the previous log, the descriptors and the
dependency classes of now, and the reported changes.  The decision starts from the families of the
reported files and from the layouts that refer to a changed class of another module; what it
invalidates is everything that refers to one of these, directly or through others.
-/

namespace LayoutRebuild

/-- What an incremental build decides on. -/
structure Situation where
  previous : BuildLog
  present : PathSet
  dependencyClasses : ClassTable
  outOfDate : List Path
  removed : List Path
deriving DecidableEq, Inhabited

namespace Situation

/-- Whether a layout is known, as one of the module or of another one, now or before.  `families`
are those of the descriptors. -/
def known (s : Situation) (families : SortedSet String) (name : String) : Bool :=
  s.previous.classes.contains name || families.contains name ||
    s.dependencyClasses.contains name || s.previous.dependencyClasses.contains name

/-- The references of the previous build to layouts that are still known. -/
def graph (s : Situation) : DependencyGraph :=
  let families := s.present.families
  DependencyGraph.ofReferences s.previous.references (s.known families)

/-- The layouts of other modules whose class has changed, appeared or vanished.  A layout that the
module has a class for is not one of another module. -/
def changedDependencies (s : Situation) : List String :=
  (ClassTable.differences s.previous.dependencyClasses s.dependencyClasses).toList.filter
    fun name => !s.previous.classes.contains name

/-- Where invalidation starts. -/
def seeds (s : Situation) : List String :=
  let graph := s.graph
  (s.removed ++ s.outOfDate).filterMap Path.family? ++
    s.changedDependencies.flatMap graph.dependentsOf

/-- The layouts whose classes are stale. -/
def invalidated (s : Situation) : SortedSet String := s.graph.affectedBy s.seeds

/-- The names of the stale classes. -/
def invalidatedClasses (s : Situation) : SortedSet String :=
  ClassTable.classNames s.previous.classes s.invalidated.toList

/-- The descriptor files that must be read again: those reported, and all of a stale family, but
none that has been removed. -/
def filesToConsider (s : Situation) : PathSet :=
  let invalidated := s.invalidated
  let gone := PathSet.ofPaths s.removed
  let reported := s.outOfDate.filter fun p => p.family?.isSome
  let stale := s.present.paths.filter fun p => p.family?.any invalidated.contains
  PathSet.ofPaths ((reported ++ stale).filter fun p => !gone.holds p)

/-- The classes that stay. -/
def keptClasses (s : Situation) : ClassTable :=
  let invalidated := s.invalidated
  s.previous.classes.filter fun name _ => !invalidated.contains name

/-- The references that stay: those that belong to a class that stays and lead to one that stays or
to a class of another module. -/
def keptReferences (s : Situation) : References :=
  let kept := s.keptClasses
  let graph := s.graph
  References.restrict
    (fun source target =>
      kept.contains source && !graph.isDangling source target &&
        (kept.contains target || s.dependencyClasses.contains target))
    s.previous.references

/-- The previous log without anything stale.  What it saw of the outside is left out, since the next
log records it anew. -/
def unchangedLog (s : Situation) : BuildLog := ⟨s.keptClasses, s.keptReferences, ∅, ∅⟩

/-- The layouts of the module: those with a descriptor and those with a class that stays. -/
def localLayouts (s : Situation) : SortedSet String :=
  SortedSet.union s.present.families (SortedSet.ofList s.keptClasses.keys)

end Situation

end LayoutRebuild
