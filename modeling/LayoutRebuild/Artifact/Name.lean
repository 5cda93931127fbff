import LayoutRebuild.Path

/-!
# Names of artifacts

A module publishes its classes as one file that carries the package of the module in its name.
-/

namespace LayoutRebuild

/-- The artifact of the module with the given package. -/
structure ArtifactName where
  package : String
deriving DecidableEq, Inhabited

namespace ArtifactName

/-- What follows the package in the name of an artifact. -/
def ending : String := "-binding_classes.json"

/-- The name of the file. -/
def fileName (name : ArtifactName) : String := name.package ++ ending

/-- The artifact that a file name stands for: any non-empty package before the ending. -/
def parse (fileName : String) : Option ArtifactName :=
  let text := fileName.toList
  if ending.toList.isSuffixOf text then
    match text.take (text.length - ending.toList.length) with
    | [] => none
    | package => some ⟨String.ofList package⟩
  else none

/-- The artifact that a path leads to. -/
def ofPath? (p : Path) : Option ArtifactName := p.fileName?.bind parse

end ArtifactName

end LayoutRebuild
