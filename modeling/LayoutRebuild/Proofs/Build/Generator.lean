import LayoutRebuild.Proofs.Build.Considered
import LayoutRebuild.Proofs.Build.NextLog

/-!
# Generators

A generator makes the class of a family and names the layouts that the class refers to.  What it may
look at is the family's own files and what it refers to, directly or through others
(`Generator.Lawful`).  A clean log holds what the generator says about every family that is there and
nothing else, and there is one such log for each state of the module (`CleanLog.unique`).
-/

namespace LayoutRebuild

open Relation

/-! ## States of a module -/

/-- What the classes of a module are made from. -/
structure ModuleState where
  /-- The contents of the descriptor files, by file name. -/
  files : Table String ByteArray
  /-- The classes of other modules. -/
  upstream : ClassTable

namespace ModuleState

/-- The state of the module with the given folders. -/
def ofFileSystem (fs : FileSystem) (args : Arguments) : ModuleState where
  files := readableContents fs args.descriptorFolder
  upstream := upstreamClasses fs args

/-- The families that have a file. -/
def families (s : ModuleState) : SortedSet String :=
  SortedSet.ofList (s.files.keys.filterMap DescriptorName.family?)

/-- The files of one family. -/
def variants (s : ModuleState) (family : String) : Table String ByteArray :=
  s.files.filter fun name _ => DescriptorName.family? name == some family

/-- Two states look the same at a name: it has the same files in both and, if it has none, the same
class of another module. -/
def SameAt (s s' : ModuleState) (name : String) : Prop :=
  s.variants name = s'.variants name ∧
    (name ∉ s.families → s.upstream.get? name = s'.upstream.get? name)

variable {s s' : ModuleState} {family name : String}

theorem mem_families : family ∈ s.families ↔
    ∃ name ∈ s.files, DescriptorName.family? name = some family := by
  rw [families, SortedSet.mem_ofList, List.mem_filterMap]
  simp only [Table.mem_keys_iff]

theorem get?_variants : (s.variants family).get? name =
    if DescriptorName.family? name = some family then s.files.get? name else none := by
  rw [variants, Table.get?_filter]
  cases s.files.get? name <;> simp [Option.filter]

/-- Two states have the same files of a family if they agree on every name of it. -/
theorem variants_eq_iff : s.variants family = s'.variants family ↔
    ∀ name, DescriptorName.family? name = some family → s.files.get? name = s'.files.get? name := by
  constructor
  · intro heq name hname
    have hget := congrArg (fun t => t.get? name) heq
    simpa only [get?_variants, if_pos hname] using hget
  · intro hsame
    apply Table.ext_get?
    intro name
    rw [get?_variants, get?_variants]
    split
    next hname => exact hsame name hname
    · rfl

/-- States with the same files of a family both have the family or both do not. -/
theorem mem_families_congr (h : s.variants family = s'.variants family) :
    family ∈ s.families ↔ family ∈ s'.families := by
  rw [mem_families, mem_families]
  refine exists_congr fun name => and_congr_left fun hname => ?_
  rw [Table.mem_iff, Table.mem_iff, variants_eq_iff.mp h name hname]

/-- The families of a module are those of the files that are listed, if these can be read. -/
theorem mem_families_ofFileSystem {fs : FileSystem} {args : Arguments} {present : PathSet}
    (h : descriptorFiles fs args.descriptorFolder = .ok present)
    (hread : ∀ name, name ∉ unreadDescriptors fs args.descriptorFolder) :
    family ∈ (ofFileSystem fs args).families ↔ family ∈ present.families := by
  rw [mem_families, mem_present_families h]
  refine exists_congr fun name => and_congr_left fun _ => ?_
  rw [mem_descriptorContents_iff, or_iff_left (hread name)]
  rfl

end ModuleState

/-! ## Generators -/

/-- The class of a family and the layouts that it refers to, for every state of the module. -/
abbrev Generator : Type := ModuleState → String → BindingClass × SortedSet String

namespace Generator

variable {gen : Generator} {s : ModuleState} {family : String}

/-- A family that is there needs the layouts that its class refers to. -/
def Needs (gen : Generator) (s : ModuleState) (family name : String) : Prop :=
  family ∈ s.families ∧ name ∈ (gen s family).2

/-- What a generator says about a family follows from what is found at the names that the family
reaches, and it refers to nothing that is not there.  This is asked for in some states only: a generator
that is lawful in all states can refer to nothing but the family itself, since any other layout could
be missing. -/
structure Lawful (gen : Generator) (seen : ModuleState → Prop) : Prop where
  locality : ∀ s s' family, seen s → seen s' → family ∈ s.families →
    (∀ name, ReflTransGen (gen.Needs s) family name → s.SameAt s' name) →
    gen s family = gen s' family
  closedness : ∀ s family, seen s → family ∈ s.families → ∀ name ∈ (gen s family).2,
    name ∈ s.families ∨ name ∈ s.upstream

/-- What the generator says about some families, as the log of a fresh build. -/
def answer (gen : Generator) (s : ModuleState) (families : SortedSet String) : BuildLog where
  classes := Table.ofList (families.toList.map fun family => (family, (gen s family).1))
  references := Table.ofList (families.toList.map fun family => (family, (gen s family).2))
  dependencyClasses := ∅
  fingerprints := ∅

theorem get?_classes_answer {families : SortedSet String} :
    (gen.answer s families).classes.get? family =
      if family ∈ families then some (gen s family).1 else none := by
  rw [answer, Table.get?_ofList_map]
  simp only [SortedSet.mem_toList]

theorem mem_classes_answer {families : SortedSet String} :
    family ∈ (gen.answer s families).classes ↔ family ∈ families := by
  rw [Table.mem_iff, get?_classes_answer]
  split <;> simp_all

theorem refers_answer {families : SortedSet String} {name : String} :
    (gen.answer s families).references.Refers family name ↔
      family ∈ families ∧ name ∈ (gen s family).2 := by
  rw [References.Refers, answer, Table.get?_ofList_map]
  simp only [SortedSet.mem_toList]
  split <;> simp_all

/-- The log of a clean build: the generator's word on every family that is there, the classes of other
modules, and the fingerprints of all files. -/
structure CleanLog (gen : Generator) (s : ModuleState) (log : BuildLog) : Prop where
  classes : ∀ family, log.classes.get? family =
    if family ∈ s.families then some (gen s family).1 else none
  references : ∀ family name, log.references.Refers family name ↔ gen.Needs s family name
  rows : log.references.NoEmptyRow
  dependencyClasses : log.dependencyClasses = s.upstream
  fingerprints : log.fingerprints = s.files.map fun _ content => ContentHash.ofContent content

namespace CleanLog

variable {log log' : BuildLog}

/-- A state has one clean log. -/
theorem unique (h : CleanLog gen s log) (h' : CleanLog gen s log') : log = log' := by
  have hclasses : log.classes = log'.classes := Table.ext_get? fun family => by
    rw [h.classes, h'.classes]
  have hreferences : log.references = log'.references :=
    References.ext_refers h.rows h'.rows fun family name => by
      rw [h.references, h'.references]
  have hdependencies := h.dependencyClasses.trans h'.dependencyClasses.symm
  have hfingerprints := h.fingerprints.trans h'.fingerprints.symm
  cases log
  cases log'
  simp_all

theorem mem_classes (h : CleanLog gen s log) : family ∈ log.classes ↔ family ∈ s.families := by
  rw [Table.mem_iff, h.classes]
  split <;> simp_all

end CleanLog

end Generator

end LayoutRebuild
