/-!
# Names of descriptor files

A layout is described by one file per configuration.  `main-layout.xml` is the plain variant of the
family `main` and `main-layout-land.xml` its variant for the configuration `land`.  A name that does
not follow the scheme still names a family: its whole stem.
-/

namespace LayoutRebuild

/-- The family of a layout and, for a variant, the configuration that it is for. -/
structure DescriptorName where
  family : String
  config : Option String
deriving DecidableEq, Inhabited

namespace DescriptorName

/-- The text between a family and its configuration. -/
def marker : List Char := "-layout".toList

/-- The ending of a descriptor file. -/
def ending : List Char := ".xml".toList

/-- The text before the first occurrence of `pattern` and the text after it. -/
def splitFirst? (pattern : List Char) : List Char → Option (List Char × List Char)
  | [] => if pattern.isEmpty then some ([], []) else none
  | c :: rest =>
    if pattern.isPrefixOf (c :: rest) then some ([], (c :: rest).drop pattern.length)
    else (splitFirst? pattern rest).map fun halves => (c :: halves.1, halves.2)

/-- The text before a given ending. -/
def stem? (text : List Char) : Option (List Char) :=
  if ending.isSuffixOf text then some (text.take (text.length - ending.length)) else none

/-- The name that a stem spells: a family, the marker and perhaps a configuration, or a family
alone. -/
def ofStem (stem : List Char) : DescriptorName :=
  match splitFirst? marker stem with
  | some (f :: family, []) => ⟨String.ofList (f :: family), none⟩
  | some (f :: family, '-' :: c :: config) =>
    ⟨String.ofList (f :: family), some (String.ofList (c :: config))⟩
  | _ => ⟨String.ofList stem, none⟩

/-- The name of a file, if it is that of a descriptor: any name with a stem before the ending. -/
def parse (fileName : String) : Option DescriptorName :=
  match stem? fileName.toList with
  | some (c :: stem) => some (ofStem (c :: stem))
  | _ => none

/-- The file that holds the variant. -/
def fileName (d : DescriptorName) : String :=
  match d.config with
  | some config => s!"{d.family}-layout-{config}.xml"
  | none => s!"{d.family}-layout.xml"

/-- The name as it is shown. -/
def display (d : DescriptorName) : String :=
  match d.config with
  | some config => s!"{d.family} ({config})"
  | none => d.family

/-- By family; within a family the plain variant comes first. -/
instance : Ord DescriptorName where
  compare a b :=
    (compare a.family b.family).then <|
      match a.config, b.config with
      | none, none => .eq
      | none, some _ => .lt
      | some _, none => .gt
      | some x, some y => compare x y

end DescriptorName

end LayoutRebuild
