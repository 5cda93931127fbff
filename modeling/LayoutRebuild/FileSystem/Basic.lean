import LayoutRebuild.Path
import LayoutRebuild.Table.Basic

/-!
# An in-memory file system

Folders and files, stored under their absolute location.  A path is followed segment by segment from
the root or from the working folder, the way the kernel follows it: every step but the last needs a
folder to stand in, so a path through a file fails differently from a path through nothing.

The device may give up where the path is right: a file that is there need not be readable, and an entry
need not be made or filled when this is asked for.
-/

namespace LayoutRebuild

/-- Why the device does not do what it is asked for. -/
inductive DeviceFault where
  | inputOutput
  | denied
  | tooManyOpen
  | noSpace
  | overQuota
deriving DecidableEq, Inhabited

/-- The text of a fault of the device. -/
def DeviceFault.message : DeviceFault → String
  | inputOutput => "Input/output error (os error 5)"
  | denied => "Permission denied (os error 13)"
  | tooManyOpen => "Too many open files (os error 24)"
  | noSpace => "No space left on device (os error 28)"
  | overQuota => "Disk quota exceeded (os error 122)"

/-- Why an operation on the file system failed. -/
inductive FileFault where
  | notFound
  | notFolder
  | isFolder
  | alreadyExists
  | nameTooLong
  | zeroByte
  | notUtf8
  | noFolderToStart
  | device (fault : DeviceFault)
deriving DecidableEq, Inhabited

/-- The text of a fault. -/
def FileFault.message : FileFault → String
  | notFound => "No such file or directory (os error 2)"
  | notFolder => "Not a directory (os error 20)"
  | isFolder => "Is a directory (os error 21)"
  | alreadyExists => "File exists (os error 17)"
  | nameTooLong => "File name too long (os error 36)"
  | zeroByte => "file name contained an unexpected NUL byte"
  | notUtf8 => "stream did not contain valid UTF-8"
  | noFolderToStart => "failed to create whole tree"
  | device fault => fault.message

/-- The names that lead from the root to an entry. -/
abbrev Location : Type := List String

/-- What a file holds. -/
inductive FileContent where
  | bytes (content : ByteArray)
  /-- The file is there, but whoever opens it gets a fault. -/
  | unreadable (fault : DeviceFault)
deriving Inhabited

/-- The bytes of a file, as far as they can be read. -/
def FileContent.read : FileContent → Except FileFault ByteArray
  | bytes content => .ok content
  | unreadable fault => .error (.device fault)

/-- What is at a location. -/
inductive Node where
  | folder
  | file (content : FileContent)
deriving Inhabited

/-- How the device gives up at a location. -/
inductive DeviceStop where
  /-- No entry is made, and none is opened to be written. -/
  | making (fault : DeviceFault)
  /-- Only so many bytes are written. -/
  | writing (count : Nat) (fault : DeviceFault)
deriving DecidableEq, Inhabited

/-- Everything below the root, and the folder that relative paths start from. -/
structure FileSystem where
  nodes : Table Location Node
  workingFolder : Location
  /-- Where the device gives up. -/
  stops : Location → Option DeviceStop := fun _ => none
deriving Inhabited

namespace FileSystem

/-- The file system with an empty working folder. -/
def blank (workingFolder : Location) : FileSystem where
  nodes := Table.ofList <|
    (List.range workingFolder.length).map fun n => (workingFolder.take (n + 1), .folder)
  workingFolder := workingFolder

/-- What is at a location.  The root is always a folder. -/
def node? (fs : FileSystem) : Location → Option Node
  | [] => some .folder
  | loc => fs.nodes.get? loc

/-- The file system with a node put at a location. -/
def setNode (fs : FileSystem) (loc : Location) (node : Node) : FileSystem :=
  { fs with nodes := fs.nodes.insert loc node }

/-- The file system with nothing at a location. -/
def dropNode (fs : FileSystem) (loc : Location) : FileSystem :=
  { fs with nodes := fs.nodes.erase loc }

/-! ## Following a path -/

/-- The longest name of an entry, in bytes. -/
def maxNameBytes : Nat := 255

/-- The length in bytes that the text of a path must stay below. -/
def pathByteLimit : Nat := 4096

/-- Fails unless a location is that of a folder. -/
def requireFolder (fs : FileSystem) (loc : Location) : Except FileFault Unit :=
  match fs.node? loc with
  | some .folder => .ok ()
  | some (.file _) => .error .notFolder
  | none => .error .notFound

/-- The location that the segments lead to.  Nothing need be there. -/
def walk (fs : FileSystem) (loc : Location) : List String → Except FileFault Location
  | [] => .ok loc
  | segment :: rest =>
    match fs.requireFolder loc with
    | .error e => .error e
    | .ok () =>
      if Path.isBlank segment then fs.walk loc rest
      else if segment = ".." then fs.walk loc.dropLast rest
      else if maxNameBytes < segment.utf8ByteSize then .error .nameTooLong
      else fs.walk (loc ++ [segment]) rest

/-- Refuses the texts that are no paths at all. -/
def checkText (p : Path) : Except FileFault Unit :=
  if p.text.toList.contains '\x00' then .error .zeroByte
  else if p.text.isEmpty then .error .notFound
  else if pathByteLimit ≤ p.text.utf8ByteSize then .error .nameTooLong
  else .ok ()

/-- Where the first segment of a path starts. -/
def start (fs : FileSystem) (p : Path) : Location := if p.isAbsolute then [] else fs.workingFolder

/-- The location that a path leads to. -/
def locate (fs : FileSystem) (p : Path) : Except FileFault Location :=
  match checkText p with
  | .error e => .error e
  | .ok () => fs.walk (fs.start p) p.segments

/-- What a path leads to. -/
def lookup (fs : FileSystem) (p : Path) : Except FileFault Node :=
  match fs.locate p with
  | .error e => .error e
  | .ok loc =>
    match fs.node? loc with
    | some node => .ok node
    | none => .error .notFound

/-! ## Queries -/

/-- Whether there is anything at a path. -/
def exists? (fs : FileSystem) (p : Path) : Bool :=
  match fs.lookup p with
  | .ok _ => true
  | .error _ => false

/-- Whether there is a folder at a path. -/
def isFolder (fs : FileSystem) (p : Path) : Bool :=
  match fs.lookup p with
  | .ok .folder => true
  | _ => false

/-- Whether there is a regular file at a path. -/
def isFile (fs : FileSystem) (p : Path) : Bool :=
  match fs.lookup p with
  | .ok (.file _) => true
  | _ => false

/-- What the file at a path holds. -/
def content (fs : FileSystem) (p : Path) : Except FileFault FileContent :=
  match fs.lookup p with
  | .ok (.file content) => .ok content
  | .ok .folder => .error .isFolder
  | .error e => .error e

/-- The bytes of a file. -/
def read (fs : FileSystem) (p : Path) : Except FileFault ByteArray :=
  match fs.content p with
  | .ok content => content.read
  | .error e => .error e

/-- The text of a file. -/
def readText (fs : FileSystem) (p : Path) : Except FileFault String :=
  match fs.read p with
  | .error e => .error e
  | .ok content =>
    match String.fromUTF8? content with
    | some text => .ok text
    | none => .error .notUtf8

/-- The names of the entries of a folder and what they are, in the order of the names. -/
def children (fs : FileSystem) (loc : Location) : List (String × Node) :=
  fs.nodes.entries.filterMap fun (l, node) =>
    match l.getLast? with
    | some name => if l.dropLast = loc then some (name, node) else none
    | none => none

/-- The entries of the folder at a path. -/
def list (fs : FileSystem) (p : Path) : Except FileFault (List (String × Node)) :=
  match fs.locate p with
  | .error e => .error e
  | .ok loc =>
    match fs.requireFolder loc with
    | .error e => .error e
    | .ok () => .ok (fs.children loc)

/-- The regular files directly in a folder, as paths below it and in the order of paths.  A file
that cannot be reached by its path, because the path is too long, does not count. -/
def listFiles (fs : FileSystem) (p : Path) : Except FileFault (List Path) :=
  match fs.list p with
  | .error e => .error e
  | .ok entries =>
    .ok (sortPaths ((entries.map fun entry => p.join entry.1).filter fs.isFile))

end FileSystem

end LayoutRebuild
