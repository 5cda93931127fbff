import LayoutRebuild.Path

/-!
# Diagnostics

What went other than planned during a build, for the build log.  A diagnostic has a severity, a code
that names its kind, a message, perhaps the file that it is about, and notes and suggestions.
-/

namespace LayoutRebuild

/-- How serious a diagnostic is. -/
inductive Severity where
  /-- Background on a choice that the caller made. -/
  | help
  /-- Worth knowing, but without influence on any output. -/
  | note
  /-- Damaged input was skipped or replaced. -/
  | warning
  /-- The step could not be completed. -/
  | error
deriving DecidableEq, Inhabited

namespace Severity

/-- The severities, the mildest first. -/
def all : List Severity := [help, note, warning, error]

/-- The place of a severity among all of them. -/
def rank : Severity → Nat
  | help => 0
  | note => 1
  | warning => 2
  | error => 3

instance : LE Severity := ⟨fun a b => a.rank ≤ b.rank⟩

instance (a b : Severity) : Decidable (a ≤ b) := inferInstanceAs (Decidable (a.rank ≤ b.rank))

/-- The more serious of two severities. -/
instance : Max Severity := ⟨fun a b => if a ≤ b then b else a⟩

/-- The name of a severity. -/
def label : Severity → String
  | help => "help"
  | note => "note"
  | warning => "warning"
  | error => "error"

/-- The number of the terminal colour of a severity. -/
def color : Severity → Nat
  | help => 32
  | note => 36
  | warning => 33
  | error => 31

end Severity

/-- The group that a code belongs to. -/
inductive Category where
  | error
  /-- A fault of the input that was recovered from. -/
  | warning
  /-- A decision about the kind of build. -/
  | incremental
deriving DecidableEq, Inhabited

namespace Category

/-- The letter that codes of the group begin with. -/
def letter : Category → Char
  | error => 'E'
  | warning => 'W'
  | incremental => 'I'

/-- The name of the group. -/
def label : Category → String
  | error => "Error"
  | warning => "Warning"
  | incremental => "Incremental"

/-- All groups. -/
def all : List Category := [error, warning, incremental]

end Category

/-- The kind of a diagnostic. -/
structure DiagnosticCode where
  category : Category
  number : UInt16
deriving DecidableEq, Inhabited

namespace DiagnosticCode

/-- A number with zeros in front, up to three digits. -/
def threeDigits (n : Nat) : List Char :=
  let digits := Nat.toDigits 10 n
  List.replicate (3 - digits.length) '0' ++ digits

/-- The letter of the group and the number in at least three digits. -/
def display (code : DiagnosticCode) : String :=
  String.ofList (code.category.letter :: threeDigits code.number.toNat)

/-- A dependency artifact, or a whole dependency folder, could not be read. -/
def invalidArtifact : DiagnosticCode := ⟨.warning, 101⟩

/-- A file in a dependency folder is not an artifact. -/
def unrecognizedFile : DiagnosticCode := ⟨.warning, 102⟩

/-- A local layout hides one of the same name from another module. -/
def shadowedLayout : DiagnosticCode := ⟨.warning, 103⟩

/-- There is no log of a previous build. -/
def missingLog : DiagnosticCode := ⟨.incremental, 201⟩

/-- The log of the previous build is unusable. -/
def corruptLog : DiagnosticCode := ⟨.incremental, 202⟩

/-- A full build was asked for. -/
def fullBuildRequested : DiagnosticCode := ⟨.incremental, 203⟩

end DiagnosticCode

/-- One finding. -/
structure Diagnostic where
  severity : Severity
  code : DiagnosticCode
  message : String
  path : Option Path
  notes : List String
  help : List String
deriving DecidableEq, Inhabited

namespace Diagnostic

/-- A finding with a message only. -/
def ofMessage (severity : Severity) (code : DiagnosticCode) (message : String) : Diagnostic :=
  ⟨severity, code, message, none, [], []⟩

/-- The finding, about a file. -/
def withPath (d : Diagnostic) (path : Path) : Diagnostic := { d with path := some path }

/-- The finding with one more note. -/
def withNote (d : Diagnostic) (note : String) : Diagnostic := { d with notes := d.notes ++ [note] }

/-- The finding with one more suggestion. -/
def withHelp (d : Diagnostic) (help : String) : Diagnostic := { d with help := d.help ++ [help] }

end Diagnostic

end LayoutRebuild
