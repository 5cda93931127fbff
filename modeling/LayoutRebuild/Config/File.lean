import LayoutRebuild.Config.Basic
import LayoutRebuild.Toml.Document

/-!
# The configuration file

The configuration is read from one TOML file.  Unknown keys are ignored.  A section may also be
written as an array of its values in order, and all but the package has a default.
-/

namespace LayoutRebuild.ModuleConfig

open Toml (Value)

/-- The value of a field of a section, given its name and its place among the fields: nothing if
the value is no section, and nothing inside if the field is left out. -/
def field? (place : Nat) (name : String) : Value → Option (Option Value)
  | .table _ entries => some (Toml.find? name entries)
  | .array items => some items[place]?
  | .tables items => some items.reverse[place]?
  | .moment _ => some none
  | _ => none

/-- A string. -/
def text? : Value → Option String
  | .text s => some s
  | _ => none

/-- A truth value. -/
def flag? : Value → Option Bool
  | .boolean b => some b
  | _ => none

/-- A string, or several. -/
def texts? : Value → Option (List String)
  | .text s => some [s]
  | .array items => items.mapM text?
  | _ => none

/-- A field with a default. -/
def fieldOr {α : Type} (place : Nat) (name : String) (read : Value → Option α) (default : α)
    (v : Value) : Option α :=
  match field? place name v with
  | none => none
  | some none => some default
  | some (some v) => read v

/-- A section that may be left out, in which case all its fields have their defaults. -/
def sectionOf (name : String) (root : List (String × Value)) : Value :=
  (Toml.find? name root).getD (.table .stated [])

/-- The configuration that a TOML document states. -/
def ofDocument? : Value → Option ModuleConfig
  | .table _ root => do
    let own ← Toml.find? "module" root
    let package ← (← field? 0 "package" own).bind text?
    let paths := sectionOf "paths" root
    let descriptorFolder ← fieldOr 0 "info_dir" text? "build/layout-info" paths
    let dependencyFolders ←
      fieldOr 1 "dependency_dirs" texts? ["build/dependency-classes"] paths
    let logFolder ← fieldOr 2 "log_dir" text? "build/binder-log" paths
    let artifactFolder ← fieldOr 3 "artifact_dir" text? "build/published-classes" paths
    let incremental ← fieldOr 0 "incremental" flag? true (sectionOf "build" root)
    some ⟨package, descriptorFolder, dependencyFolders, logFolder, artifactFolder, incremental⟩
  | _ => none

/-- The configuration in a text. -/
def parse (text : String) : Except ConfigFault ModuleConfig :=
  match (Toml.document text).bind ofDocument? with
  | none => .error .malformed
  | some config =>
    match config.validate with
    | .ok () => .ok config
    | .error fault => .error fault

/-- The name of the configuration file. -/
def fileName : String := "layoutbind.toml"

/-- The configuration of the project in a folder. -/
def load (fs : FileSystem) (projectFolder : Path) : Except ConfigFault ModuleConfig :=
  match fs.readText (projectFolder.join fileName) with
  | .ok text => parse text
  | .error fault => .error (.unreadable fault)

end LayoutRebuild.ModuleConfig
