import LayoutRebuild.FileSystem.Basic

/-!
# Changing the file system

Each operation answers the changed file system, or a fault and the file system untouched.  There are
two exceptions.  To make a folder with everything above it is a sequence of steps that may stop half way,
so it always answers a file system.  And a write that the device stops may have begun: what it leaves is
answered by an operation of its own.
-/

namespace LayoutRebuild

/-- Where an operation that names an entry by its path acts. -/
inductive EntryPlace where
  /-- The path ends in the root or in a dot step, so it names a folder that is there. -/
  | standing
  /-- The path ends in the name of an entry.  `slash` tells whether a slash follows it. -/
  | entry (loc : Location) (slash : Bool)
deriving DecidableEq, Inhabited

namespace FileSystem

/-- The entry that a path names, once the folder that holds it has been reached. -/
def place (fs : FileSystem) (p : Path) : Except FileFault EntryPlace :=
  match checkText p with
  | .error e => .error e
  | .ok () =>
    let named := (p.segments.reverse.dropWhile (· == "")).reverse
    match named.getLast? with
    | none => .ok .standing
    | some last =>
      match fs.walk (fs.start p) named.dropLast with
      | .error e => .error e
      | .ok folder =>
        match fs.requireFolder folder with
        | .error e => .error e
        | .ok () =>
          if last = "." ∨ last = ".." then .ok .standing
          else if maxNameBytes < last.utf8ByteSize then .error .nameTooLong
          else .ok (.entry (folder ++ [last]) (named.length < p.segments.length))

/-- Why no entry can be made at a location. -/
def makingFault? (fs : FileSystem) (loc : Location) : Option DeviceFault :=
  match fs.stops loc with
  | some (.making fault) => some fault
  | _ => none

/-- Why the file at a location cannot be given so many bytes. -/
def writingFault? (fs : FileSystem) (loc : Location) (size : Nat) : Option DeviceFault :=
  match fs.stops loc with
  | some (.making fault) => some fault
  | some (.writing count fault) => if count < size then some fault else none
  | none => none

/-- Makes one folder. -/
def makeFolder (fs : FileSystem) (p : Path) : Except FileFault FileSystem :=
  match fs.place p with
  | .error e => .error e
  | .ok .standing => .error .alreadyExists
  | .ok (.entry loc _) =>
    match fs.node? loc with
    | some _ => .error .alreadyExists
    | none =>
      match fs.makingFault? loc with
      | some fault => .error (.device fault)
      | none => .ok (fs.setNode loc .folder)

/-- Removes one file. -/
def removeFile (fs : FileSystem) (p : Path) : Except FileFault FileSystem :=
  match fs.place p with
  | .error e => .error e
  | .ok .standing => .error .isFolder
  | .ok (.entry loc slash) =>
    match fs.node? loc with
    | none => .error .notFound
    | some .folder => .error .isFolder
    | some (.file _) => if slash then .error .notFolder else .ok (fs.dropNode loc)

/-- Where the file is, or would be, that a path names. -/
def fileEntry (fs : FileSystem) (p : Path) : Except FileFault Location :=
  match fs.place p with
  | .error e => .error e
  | .ok .standing => .error .isFolder
  | .ok (.entry loc slash) =>
    if slash then .error .isFolder
    else
      match fs.node? loc with
      | some .folder => .error .isFolder
      | _ => .ok loc

/-- Gives a file a content, making the file if it is not there.  A fault of the device may come after
the file has been opened: `breakOff` is what is left then. -/
def writeFile (fs : FileSystem) (p : Path) (content : ByteArray) : Except FileFault FileSystem :=
  match fs.fileEntry p with
  | .error e => .error e
  | .ok loc =>
    match fs.writingFault? loc content.size with
    | some fault => .error (.device fault)
    | none => .ok (fs.setNode loc (.file (.bytes content)))

/-- What a write leaves that has failed: once the file is open, as many bytes as the device takes. -/
def breakOff (fs : FileSystem) (p : Path) (content : ByteArray) : FileSystem :=
  match fs.fileEntry p with
  | .error _ => fs
  | .ok loc =>
    match fs.stops loc with
    | some (.writing count _) => fs.setNode loc (.file (.bytes (content.extract 0 count)))
    | _ => fs

/-- A path, what is above it, what is above that, and so on. -/
def ancestry (p : Path) : Nat → List Path
  | 0 => []
  | n + 1 =>
    match p.parent? with
    | some above => p :: ancestry above n
    | none => [p]

/-- Makes the first folder of a list, each of the others being the one above its predecessor.  A
folder that is there already is as good as a new one. -/
def makeFolderBelow (fs : FileSystem) : List Path → FileSystem × Except FileFault Unit
  | [] => (fs, .error .noFolderToStart)
  | p :: above =>
    if p.components.isEmpty then (fs, .ok ())
    else
      match fs.makeFolder p with
      | .ok made => (made, .ok ())
      | .error .notFound =>
        match makeFolderBelow fs above with
        | (half, .error e) => (half, .error e)
        | (half, .ok ()) =>
          match half.makeFolder p with
          | .ok made => (made, .ok ())
          | .error e => (half, if half.isFolder p then .ok () else .error e)
      | .error e => (fs, if fs.isFolder p then .ok () else .error e)

/-- Makes a folder and every missing folder above it. -/
def makeFolders (fs : FileSystem) (p : Path) : FileSystem × Except FileFault Unit :=
  fs.makeFolderBelow (ancestry p (p.components.length + 1))

/-- Removes an entry with everything below it, and tells whether it was there. -/
def removeTree (fs : FileSystem) (p : Path) : FileSystem × Bool :=
  match fs.locate p with
  | .error _ => (fs, false)
  | .ok loc =>
    match fs.node? loc with
    | none => (fs, false)
    | some _ => ({ fs with nodes := fs.nodes.filter fun l _ => !loc.isPrefixOf l }, true)

/-- The paths of all entries below the working folder, folders with a slash at the end, in the order
of their text. -/
def tree (fs : FileSystem) (below : Location) : List String :=
  let paths := fs.nodes.entries.filterMap fun (loc, node) =>
    if below.isPrefixOf loc && below.length < loc.length then
      let path := "/".intercalate (loc.drop below.length)
      match node with
      | .folder => some (path ++ "/")
      | .file _ => some path
    else none
  paths.mergeSort fun a b => (compare a b).isLE

end FileSystem

end LayoutRebuild
