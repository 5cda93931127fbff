import LayoutRebuild.FileSystem.Basic
import LayoutRebuild.Hash.ContentHash
import LayoutRebuild.Log.File

/-!
# Fingerprints of descriptors

The contents of the descriptor files now, and what has changed since fingerprints were recorded.  A
file that cannot be read is never taken for unchanged or for deleted.
-/

namespace LayoutRebuild

/-- The content hash of a file. -/
def hashFile (fs : FileSystem) (path : Path) : Except StoreFault ContentHash :=
  match fs.read path with
  | .ok content => .ok (ContentHash.ofContent content)
  | .error fault => .error (.io path fault)

/-- The state of some files, by file name. -/
structure Fingerprints where
  hashes : Table String ContentHash
  /-- The files that are there but cannot be read. -/
  unreadable : SortedSet String
deriving DecidableEq, Inhabited

namespace Fingerprints

/-- The fingerprints of no file. -/
def empty : Fingerprints := ⟨∅, ∅⟩

/-- Adds the state of a file.  A file that is gone is left out. -/
def addFile (fs : FileSystem) (f : Fingerprints) (path : Path) : Fingerprints :=
  match path.fileName? with
  | none => f
  | some name =>
    match fs.read path with
    | .ok content => { f with hashes := f.hashes.insert name (ContentHash.ofContent content) }
    | .error .notFound => f
    | .error _ => { f with unreadable := f.unreadable.add name }

/-- The state of some files. -/
def ofPaths (fs : FileSystem) (paths : List Path) : Fingerprints := paths.foldl (addFile fs) empty

/-- Whether a file is there, readable or not. -/
def contains (f : Fingerprints) (name : String) : Bool :=
  f.hashes.contains name || f.unreadable.contains name

end Fingerprints

/-- The files of a folder by what has become of them. -/
structure Changes where
  new : List Path
  modified : List Path
  deleted : List Path
  unchanged : List Path
deriving DecidableEq, Inhabited

namespace Changes

/-- What has become of each file since the fingerprints were recorded. -/
def since (recorded : Table String ContentHash) (folder : Path) (current : Fingerprints) :
    Changes :=
  let readable (keep : Option ContentHash → ContentHash → Bool) : List Path :=
    (current.hashes.entries.filter fun e => keep (recorded.get? e.1) e.2).map fun e =>
      folder.join e.1
  let unreadable (keep : Bool → Bool) : List Path :=
    (current.unreadable.toList.filter fun name => keep (recorded.contains name)).map folder.join
  { new := sortPaths <|
      readable (fun before _ => before.isNone) ++ unreadable (fun known => !known)
    modified := sortPaths <|
      readable (fun before now => before.any (· != now)) ++ unreadable (fun known => known)
    deleted := (recorded.keys.filter fun name => !current.contains name).map folder.join
    unchanged := readable fun before now => before.any (· == now) }

/-- Whether there is nothing to do. -/
def isEmpty (c : Changes) : Bool := c.new.isEmpty && c.modified.isEmpty && c.deleted.isEmpty

/-- The files that must be read again. -/
def outOfDate (c : Changes) : List Path := sortPaths (c.new ++ c.modified)

/-- The files that are gone. -/
def removed (c : Changes) : List Path := c.deleted

end Changes

end LayoutRebuild
