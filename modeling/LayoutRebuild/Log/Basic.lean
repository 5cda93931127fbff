import LayoutRebuild.Class.Basic
import LayoutRebuild.Hash.ContentHash

/-!
# The log of a build

What one build leaves behind for the next: the classes of the module, which layouts refer to which
others, the classes of other modules as they were seen, and the fingerprints of the descriptors.
-/

namespace LayoutRebuild

/-- For every layout, the layouts that it refers to. -/
abbrev References : Type := Table String (SortedSet String)

namespace References

/-- The pairs of a layout and one that it refers to. -/
def edges (r : References) : List (String × String) :=
  r.entries.flatMap fun e => e.2.toList.map fun target => (e.1, target)

/-- The references with one more. -/
def add (r : References) (source target : String) : References :=
  r.insert source (((r.get? source).getD ∅).add target)

/-- Adds several references in turn. -/
def addAll (r : References) (edges : List (String × String)) : References :=
  edges.foldl (fun r e => r.add e.1 e.2) r

/-- The references for which `keep` holds.  A layout without any is dropped. -/
def restrict (keep : String → String → Bool) (r : References) : References :=
  (r.map fun source targets => targets.retain (keep source)).filter fun _ targets =>
    !targets.isEmpty

end References

/-- The log of a build. -/
structure BuildLog where
  classes : ClassTable
  references : References
  /-- The classes of other modules that were visible to the build. -/
  dependencyClasses : ClassTable
  /-- The content hashes of the descriptor files, by file name. -/
  fingerprints : Table String ContentHash
deriving DecidableEq, Inhabited

namespace BuildLog

/-- The log of a build that saw nothing. -/
def empty : BuildLog := ⟨∅, ∅, ∅, ∅⟩

/-- Takes over the classes of another log.  A layout that the other log describes refers to what the
other log says and to nothing else. -/
def absorb (log fresh : BuildLog) : BuildLog :=
  { log with
    classes := log.classes.override fresh.classes
    references := References.addAll
      (log.references.filter fun source _ => !fresh.classes.contains source)
      (References.edges fresh.references) }

end BuildLog

end LayoutRebuild
