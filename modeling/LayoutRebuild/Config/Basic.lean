import LayoutRebuild.Build.Arguments
import LayoutRebuild.Path
import LayoutRebuild.Text.Alphabetic

/-!
# The configuration of a module

The package of the module and the folders it works with, as they are configured, and the rule that a
package is a dotted identifier.
-/

namespace LayoutRebuild

/-- The configuration of a module.  Folders are as written, relative to the project folder. -/
structure ModuleConfig where
  package : String
  descriptorFolder : String
  dependencyFolders : List String
  logFolder : String
  artifactFolder : String
  incremental : Bool
deriving DecidableEq, Inhabited

/-- Why there is no usable configuration. -/
inductive ConfigFault where
  | unreadable (fault : FileFault)
  /-- The text is no TOML, or a value has the wrong type. -/
  | malformed
  | missingField (name : String)
  | notDotted (package : String)
deriving DecidableEq, Inhabited

/-- The text of a fault.  For a malformed file there is none. -/
def ConfigFault.message? : ConfigFault → Option String
  | unreadable fault => some ("failed to read configuration: " ++ fault.message)
  | malformed => none
  | missingField name => some ("missing required field: " ++ name)
  | notDotted package =>
    some s!"validation error: module.package '{package}' is not a dotted identifier"

namespace ModuleConfig

/-- A letter or an underscore, then letters, numbers and underscores. -/
def isIdentifier : List Char → Bool
  | [] => false
  | c :: rest =>
    (Text.isAlphabetic c || c = '_') && rest.all fun c => Text.isAlphanumeric c || c = '_'

/-- Identifiers with single dots between them. -/
def isDottedIdentifier (s : String) : Bool := (splitAt '.' s.toList).all isIdentifier

/-- Refuses a configuration that cannot be worked with. -/
def validate (c : ModuleConfig) : Except ConfigFault Unit :=
  if c.package = "" then .error (.missingField "module.package")
  else if !isDottedIdentifier c.package then .error (.notDotted c.package)
  else if c.descriptorFolder = "" then .error (.missingField "paths.info_dir")
  else if c.logFolder = "" then .error (.missingField "paths.log_dir")
  else .ok ()

/-- The configuration with its folders below the project folder, unless they are absolute. -/
def arguments (c : ModuleConfig) (projectFolder : Path) : Arguments where
  package := c.package
  descriptorFolder := projectFolder.join c.descriptorFolder
  dependencyFolders := c.dependencyFolders.map projectFolder.join
  logFolder := projectFolder.join c.logFolder
  artifactFolder := some (projectFolder.join c.artifactFolder)
  incremental := c.incremental
  outOfDate := []
  removed := []

end ModuleConfig

end LayoutRebuild
