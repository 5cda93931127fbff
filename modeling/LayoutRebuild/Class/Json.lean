import LayoutRebuild.Class.Basic
import LayoutRebuild.Json.Reader
import LayoutRebuild.Json.Value

/-!
# Binding classes as JSON

Classes and implementations are records, tables are objects and sets are arrays in their order.
-/

namespace LayoutRebuild

open Json

/-- A table as an object. -/
def Table.toJson {α : Type} (f : α → Value) (t : Table String α) : Value :=
  .object (t.entries.map fun e => (e.1, f e.2))

/-- Reads a table.  Of equal keys the last one counts. -/
def Table.reader {α : Type} (r : Reader α) : Reader (Table String α) :=
  (Reader.pairs r).map Table.ofList

/-- A set as an array. -/
def SortedSet.toJson {κ : Type} [Ord κ] (f : κ → Value) (s : SortedSet κ) : Value :=
  .array (s.toList.map f)

/-- Reads a set.  Repeated members count once. -/
def SortedSet.reader {κ : Type} [Ord κ] [Std.TransOrd κ] [Std.LawfulEqOrd κ] (r : Reader κ) :
    Reader (SortedSet κ) :=
  (Reader.array r).map SortedSet.ofList

namespace Implementation

/-- An implementation as a record. -/
def toJson (i : Implementation) : Value :=
  .object
    [("tag", .text i.tag),
      ("merge", .boolean i.merge),
      ("qualified_name", .text i.qualifiedName)]

/-- The fields of an implementation that have been read. -/
structure Draft where
  tag : Option String
  merge : Option Bool
  qualifiedName : Option String

/-- The fields of an implementation. -/
def fields : List (Reader.Field Draft) :=
  [⟨"tag", (·.tag.isSome),
      fun d => Reader.text.map fun s => { d with tag := some s }⟩,
    ⟨"merge", (·.merge.isSome),
      fun d => Reader.boolean.map fun b => { d with merge := some b }⟩,
    ⟨"qualified_name", (·.qualifiedName.isSome),
      fun d => Reader.text.map fun s => { d with qualifiedName := some s }⟩]

/-- Reads an implementation. -/
def reader : Reader Implementation :=
  Reader.record fields ⟨none, none, none⟩ fun d => do
    let tag ← Reader.required "tag" d.tag
    let merge ← Reader.required "merge" d.merge
    let qualifiedName ← Reader.required "qualified_name" d.qualifiedName
    .ok ⟨tag, merge, qualifiedName⟩

end Implementation

namespace BindingClass

/-- A class as a record. -/
def toJson (c : BindingClass) : Value :=
  .object
    [("name", .text c.qualifiedName),
      ("module_package", .text c.modulePackage),
      ("variables", c.variableTypes.toJson .text),
      ("implementations", c.implementations.toJson Implementation.toJson)]

/-- The fields of a class that have been read. -/
structure Draft where
  qualifiedName : Option String
  modulePackage : Option String
  variableTypes : Option (Table String String)
  implementations : Option (SortedSet Implementation)

/-- The fields of a class. -/
def fields : List (Reader.Field Draft) :=
  [⟨"name", (·.qualifiedName.isSome),
      fun d => Reader.text.map fun s => { d with qualifiedName := some s }⟩,
    ⟨"module_package", (·.modulePackage.isSome),
      fun d => Reader.text.map fun s => { d with modulePackage := some s }⟩,
    ⟨"variables", (·.variableTypes.isSome),
      fun d => (Table.reader Reader.text).map fun t => { d with variableTypes := some t }⟩,
    ⟨"implementations", (·.implementations.isSome),
      fun d => (SortedSet.reader Implementation.reader).map fun s =>
        { d with implementations := some s }⟩]

/-- Reads a class.  Variables and implementations may be left out. -/
def reader : Reader BindingClass :=
  Reader.record fields ⟨none, none, none, none⟩ fun d => do
    let qualifiedName ← Reader.required "name" d.qualifiedName
    let modulePackage ← Reader.required "module_package" d.modulePackage
    .ok ⟨qualifiedName, modulePackage, d.variableTypes.getD ∅, d.implementations.getD ∅⟩

end BindingClass

end LayoutRebuild
