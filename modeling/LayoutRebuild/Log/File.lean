import LayoutRebuild.Class.Json
import LayoutRebuild.FileSystem.Edit
import LayoutRebuild.Log.Basic

/-!
# Log files

One format holds the log of a build and the published classes of a module: a record with a format
number, the classes, and three tables that only a build log has.  A file of a newer format is
refused, but only after it has been read with the fields known here.

A file is replaced by removing it first.  At no moment is there a mixture of the old text and the
new one on disk.  But a write that the device stops has lost the old file by then, and it may leave a
part of the new one.
-/

namespace LayoutRebuild

open Json

/-- Why a file could not be read or written. -/
inductive StoreFault where
  | io (path : Path) (fault : FileFault)
  | malformed (path : Path) (fault : Fault)
  /-- A class is recorded for a layout without a name. -/
  | unnamedLayout (path : Path)
  /-- The class of a layout has no name. -/
  | unnamedClass (path : Path) (layout : String)
  | newerFormat (path : Path) (expected actual : Nat)
  | notArtifact (path : Path)
  /-- An artifact was gone when it was to be read. -/
  | artifactGone (path : Path)
deriving DecidableEq, Inhabited

namespace StoreFault

/-- How a file that does not parse is announced. -/
def parseMessage (path reason : String) : String := s!"failed to parse {path}: {reason}"

/-- How a failed operation on a file is announced. -/
def ioMessage (path reason : String) : String := s!"I/O error at {path}: {reason}"

/-- How a file of a newer format is announced. -/
def formatMessage (path : String) (expected actual : Nat) : String :=
  s!"unsupported schema version in {path}: expected at most {expected}, got {actual}"

/-- How a file that is no artifact is announced. -/
def nameMessage (path : String) : String := s!"not a binding class artifact: {path}"

/-- The text of a fault. -/
def message : StoreFault → String
  | io path fault => ioMessage path.text fault.message
  | malformed path fault => parseMessage path.text fault.message
  | unnamedLayout path => parseMessage path.text "mapping with an empty layout name"
  | unnamedClass path layout => parseMessage path.text s!"class for '{layout}' has no name"
  | newerFormat path expected actual => formatMessage path.text expected actual
  | notArtifact path => nameMessage path.text
  | artifactGone path => ioMessage path.text "artifact disappeared"

end StoreFault

/-- What a log file holds.  The last three tables are there in build logs only. -/
structure LogFile where
  formatVersion : Nat
  classes : ClassTable
  references : Option References
  dependencyClasses : Option ClassTable
  fingerprints : Option (Table String ContentHash)
deriving DecidableEq, Inhabited

namespace LogFile

/-- The newest format that can be read, and the one that is written. -/
def currentFormat : Nat := 1

/-- A file with classes only. -/
def ofClasses (classes : ClassTable) : LogFile := ⟨currentFormat, classes, none, none, none⟩

/-- A file with a whole build log. -/
def ofLog (log : BuildLog) : LogFile :=
  ⟨currentFormat, log.classes, some log.references, some log.dependencyClasses,
    some log.fingerprints⟩

/-- The build log in a file.  Tables that are left out are empty. -/
def toLog (file : LogFile) : BuildLog :=
  ⟨file.classes, file.references.getD ∅, file.dependencyClasses.getD ∅, file.fingerprints.getD ∅⟩

/-! ## The written form -/

/-- The file as a record.  Tables that are not there are left out. -/
def toJson (file : LogFile) : Value :=
  .object <|
    [("format_version", .number file.formatVersion),
      ("mappings", file.classes.toJson BindingClass.toJson)] ++
    (file.references.toList.map fun t => ("dependencies", t.toJson (SortedSet.toJson .text))) ++
    (file.dependencyClasses.toList.map fun t =>
      ("dependency_mappings", t.toJson BindingClass.toJson)) ++
    (file.fingerprints.toList.map fun t =>
      ("input_fingerprints", t.toJson fun h => .text h.toText))

/-- The text of a file. -/
def toText (file : LogFile) : String := file.toJson.indented

/-- The fields of a file that have been read. -/
structure Draft where
  formatVersion : Option Nat
  classes : Option ClassTable
  references : Option (Option References)
  dependencyClasses : Option (Option ClassTable)
  fingerprints : Option (Option (Table String ContentHash))

/-- The fields of a file. -/
def fields : List (Reader.Field Draft) :=
  [⟨"format_version", (·.formatVersion.isSome),
      fun d => (Reader.natural UInt32.size).map fun n => { d with formatVersion := some n }⟩,
    ⟨"mappings", (·.classes.isSome),
      fun d => (Table.reader BindingClass.reader).map fun t => { d with classes := some t }⟩,
    ⟨"dependencies", (·.references.isSome),
      fun d => (Reader.optional (Table.reader (SortedSet.reader Reader.text))).map fun t =>
        { d with references := some t }⟩,
    ⟨"dependency_mappings", (·.dependencyClasses.isSome),
      fun d => (Reader.optional (Table.reader BindingClass.reader)).map fun t =>
        { d with dependencyClasses := some t }⟩,
    ⟨"input_fingerprints", (·.fingerprints.isSome),
      fun d => (Reader.optional (Table.reader Reader.hash)).map fun t =>
        { d with fingerprints := some t }⟩]

/-- Reads a file.  Every field may be left out; a file without a format number is of the first
format. -/
def reader : Reader LogFile :=
  Reader.record fields ⟨none, none, none, none, none⟩ fun d =>
    .ok ⟨d.formatVersion.getD 1, d.classes.getD ∅, d.references.getD none,
      d.dependencyClasses.getD none, d.fingerprints.getD none⟩

/-! ## On disk -/

/-- The file at a path, or nothing if there is none. -/
def read (fs : FileSystem) (path : Path) : Except StoreFault (Option LogFile) :=
  match fs.readText path with
  | .error .notFound => .ok none
  | .error fault => .error (.io path fault)
  | .ok text =>
    match Reader.document reader text with
    | .error fault => .error (.malformed path fault)
    | .ok file =>
      if currentFormat < file.formatVersion then
        .error (.newerFormat path currentFormat file.formatVersion)
      else .ok (some file)

/-- Makes the folder that a file belongs into. -/
def prepareFolder (fs : FileSystem) (path : Path) : FileSystem × Except StoreFault Unit :=
  match path.parent? with
  | none => (fs, .ok ())
  | some folder =>
    if folder.isEmpty then (fs, .ok ())
    else
      match fs.makeFolders folder with
      | (fs, .ok ()) => (fs, .ok ())
      | (fs, .error fault) => (fs, .error (.io folder fault))

/-- Removes what a file is to replace. -/
def clear (fs : FileSystem) (path : Path) : FileSystem × Except StoreFault Unit :=
  match fs.removeFile path with
  | .ok fs => (fs, .ok ())
  | .error .notFound => (fs, .ok ())
  | .error fault => (fs, .error (.io path fault))

/-- Replaces the file at a path: its folder is made, the old file is removed and the new one is
written. -/
def write (fs : FileSystem) (path : Path) (file : LogFile) :
    FileSystem × Except StoreFault Unit :=
  match prepareFolder fs path with
  | (fs, .error fault) => (fs, .error fault)
  | (fs, .ok ()) =>
    match clear fs path with
    | (fs, .error fault) => (fs, .error fault)
    | (fs, .ok ()) =>
      match fs.writeFile path file.toText.toUTF8 with
      | .ok fs => (fs, .ok ())
      | .error fault => (fs.breakOff path file.toText.toUTF8, .error (.io path fault))

end LogFile

namespace ClassTable

/-- The classes in a file.  There are none if there is no file. -/
def load (fs : FileSystem) (path : Path) : Except StoreFault ClassTable :=
  match LogFile.read fs path with
  | .error fault => .error fault
  | .ok none => .ok ∅
  | .ok (some file) => .ok file.classes

/-- Writes a file with classes only. -/
def save (fs : FileSystem) (path : Path) (classes : ClassTable) :
    FileSystem × Except StoreFault Unit :=
  LogFile.write fs path (.ofClasses classes)

end ClassTable

namespace BuildLog

/-- The name of the log file in its folder. -/
def fileName : String := "binder_log.json"

/-- The log file in a folder. -/
def pathIn (folder : Path) : Path := folder.join fileName

/-- The log at a path, or nothing if there is no file. -/
def read (fs : FileSystem) (path : Path) : Except StoreFault (Option BuildLog) :=
  match LogFile.read fs path with
  | .error fault => .error fault
  | .ok file => .ok (file.map LogFile.toLog)

/-- The log at a path.  It is empty if there is no file. -/
def load (fs : FileSystem) (path : Path) : Except StoreFault BuildLog :=
  match read fs path with
  | .error fault => .error fault
  | .ok log => .ok (log.getD .empty)

/-- Writes a log. -/
def save (fs : FileSystem) (path : Path) (log : BuildLog) : FileSystem × Except StoreFault Unit :=
  LogFile.write fs path (.ofLog log)

end BuildLog

end LayoutRebuild
