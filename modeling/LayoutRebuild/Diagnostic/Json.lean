import LayoutRebuild.Diagnostic.Basic
import LayoutRebuild.Json.Reader
import LayoutRebuild.Json.Value

/-!
# Diagnostics as JSON

Severities and groups are written by name, codes and diagnostics as records.
-/

namespace LayoutRebuild

open Json

/-- A severity as its name. -/
def Severity.toJson (s : Severity) : Value := .text s.label

/-- Reads the name of a severity. -/
def Severity.reader : Reader Severity := Reader.oneOf (Severity.all.map fun s => (s.label, s))

/-- A group as its name. -/
def Category.toJson (c : Category) : Value := .text c.label

/-- Reads the name of a group. -/
def Category.reader : Reader Category := Reader.oneOf (Category.all.map fun c => (c.label, c))

namespace DiagnosticCode

/-- A code as a record. -/
def toJson (code : DiagnosticCode) : Value :=
  .object [("category", code.category.toJson), ("number", .number code.number.toNat)]

/-- The fields of a code that have been read. -/
structure Draft where
  category : Option Category
  number : Option UInt16

/-- The fields of a code. -/
def fields : List (Reader.Field Draft) :=
  [⟨"category", (·.category.isSome),
      fun d => Category.reader.map fun c => { d with category := some c }⟩,
    ⟨"number", (·.number.isSome),
      fun d => (Reader.natural UInt16.size).map fun n => { d with number := some n.toUInt16 }⟩]

/-- Reads a code. -/
def reader : Reader DiagnosticCode :=
  Reader.record fields ⟨none, none⟩ fun d => do
    let category ← Reader.required "category" d.category
    let number ← Reader.required "number" d.number
    .ok ⟨category, number⟩

end DiagnosticCode

namespace Diagnostic

/-- A diagnostic as a record. -/
def toJson (d : Diagnostic) : Value :=
  .object
    [("severity", d.severity.toJson),
      ("code", d.code.toJson),
      ("message", .text d.message),
      ("path", match d.path with | some p => .text p.text | none => .null),
      ("notes", .array (d.notes.map .text)),
      ("help", .array (d.help.map .text))]

/-- The fields of a diagnostic that have been read. -/
structure Draft where
  severity : Option Severity
  code : Option DiagnosticCode
  message : Option String
  path : Option (Option Path)
  notes : Option (List String)
  help : Option (List String)

/-- The fields of a diagnostic. -/
def fields : List (Reader.Field Draft) :=
  [⟨"severity", (·.severity.isSome),
      fun d => Severity.reader.map fun s => { d with severity := some s }⟩,
    ⟨"code", (·.code.isSome),
      fun d => DiagnosticCode.reader.map fun c => { d with code := some c }⟩,
    ⟨"message", (·.message.isSome),
      fun d => Reader.text.map fun s => { d with message := some s }⟩,
    ⟨"path", (·.path.isSome),
      fun d => (Reader.optional (Reader.text.map Path.mk)).map fun p => { d with path := some p }⟩,
    ⟨"notes", (·.notes.isSome),
      fun d => (Reader.array Reader.text).map fun l => { d with notes := some l }⟩,
    ⟨"help", (·.help.isSome),
      fun d => (Reader.array Reader.text).map fun l => { d with help := some l }⟩]

/-- Reads a diagnostic.  A diagnostic that names no path is about no file. -/
def reader : Reader Diagnostic :=
  Reader.record fields ⟨none, none, none, none, none, none⟩ fun d => do
    let severity ← Reader.required "severity" d.severity
    let code ← Reader.required "code" d.code
    let message ← Reader.required "message" d.message
    let notes ← Reader.required "notes" d.notes
    let help ← Reader.required "help" d.help
    .ok ⟨severity, code, message, d.path.getD none, notes, help⟩

end Diagnostic

end LayoutRebuild
