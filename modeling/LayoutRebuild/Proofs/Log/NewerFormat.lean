import LayoutRebuild.Proofs.Json.Shape
import LayoutRebuild.Proofs.Log.Saved

/-!
# Files of a newer format

The format number of a file is looked at only after the whole file has been read with the fields that
are known here.  A file of a newer format is therefore recognised as one exactly if every table that is
known here still has a value of the type that it has here (`Familiar`), and is taken for a malformed
file otherwise (`newer_format_recognised_iff`).  A newer format may add fields, but it cannot give a
new type to an old one.
-/

namespace LayoutRebuild

open Json Reader

/-! ## The readers of a log file -/

theorem Implementation.exact_reader : Exact Implementation.reader := by
  have hfields : ExactFields Implementation.fields := by
    refine .cons (fun _ => exact_text.map _) ?_
    refine .cons (fun _ => exact_boolean.map _) ?_
    exact .cons (fun _ => exact_text.map _) .nil
  exact hfields.record _ _

theorem BindingClass.exact_reader : Exact BindingClass.reader := by
  have hfields : ExactFields BindingClass.fields := by
    refine .cons (fun _ => exact_text.map _) ?_
    refine .cons (fun _ => exact_text.map _) ?_
    refine .cons (fun _ => exact_text.table.map _) ?_
    exact .cons (fun _ => Implementation.exact_reader.set.map _) .nil
  exact hfields.record _ _

namespace LogFile

theorem exactFields : ExactFields LogFile.fields := by
  refine .cons (fun _ => (exact_natural _).map _) ?_
  refine .cons (fun _ => BindingClass.exact_reader.table.map _) ?_
  refine .cons (fun _ => exact_text.set.table.optional.map _) ?_
  refine .cons (fun _ => BindingClass.exact_reader.table.optional.map _) ?_
  exact .cons (fun _ => exact_hash.table.optional.map _) .nil

theorem apart : Apart LogFile.fields := by
  refine ⟨exactFields, ?_, ?_, ?_⟩
  · simp [fields]
  · simp only [fields, List.forall_mem_cons, accepts_map]
    simp
  · intro field hfield other hother acc next tree hread
    simp only [fields, List.mem_cons, List.not_mem_nil, or_false] at hfield hother
    rcases hfield with rfl | rfl | rfl | rfl | rfl <;> obtain ⟨_, rfl⟩ := hread.exists_of_map <;>
      rcases hother with rfl | rfl | rfl | rfl | rfl <;> rfl

/-! ## The format number -/

variable {acc next last : Draft} {name : String} {value : Tree}
  {members : List (Option String × Tree)} {literal : List Char}

/-- Only the member with the format number changes the format number, and it is read once. -/
theorem formatVersion_cases (h : Takes (underColon (fieldMember fields acc name)) value next) :
    (name ≠ "format_version" ∧ next.formatVersion = acc.formatVersion) ∨
      (acc.formatVersion = none ∧ ∃ n, natural UInt32.size (value.tokens ++ []) = .ok (n, []) ∧
        next.formatVersion = some n) := by
  have hread := h.eq []
  cases hfield : fields.find? (·.name == name) with
  | none =>
    rw [fieldMember_unknown hfield] at hread
    cases hread
    refine .inl ⟨?_, rfl⟩
    rintro rfl
    cases hfield
  | some field =>
    rw [fieldMember_known hfield] at hread
    split at hread
    · cases hread
    next hset =>
      have hname : field.name = name := by simpa using List.find?_some hfield
      have hmem := List.mem_of_find?_eq_some hfield
      simp only [fields, List.mem_cons, List.not_mem_nil, or_false] at hmem
      rcases hmem with rfl | rfl | rfl | rfl | rfl <;> obtain ⟨a, ha, rfl⟩ := map_eq_ok.mp hread
      · refine .inr ⟨?_, a, ha, rfl⟩
        simpa using hset
      all_goals
        refine .inl ⟨?_, rfl⟩
        rintro rfl
        simp at hname

/-- A format number that has been read stays. -/
theorem formatVersion_kept (h : FoldsTo (fieldMember fields) acc members last) {n : Nat}
    (hread : acc.formatVersion = some n) : last.formatVersion = some n := by
  induction h with
  | nil => exact hread
  | cons head _ ih =>
    rcases formatVersion_cases head with ⟨-, hsame⟩ | ⟨hnone, -⟩
    · exact ih (hsame.trans hread)
    · rw [hnone] at hread
      cases hread

theorem formatVersion_of_foldsTo (h : FoldsTo (fieldMember fields) acc members last)
    (hmem : (some "format_version", .number literal) ∈ members) :
    last.formatVersion = some (digitsValue literal) := by
  induction h with
  | nil => cases hmem
  | cons head tail ih =>
    rcases List.mem_cons.mp hmem with heq | hmem
    · cases heq
      rcases formatVersion_cases head with ⟨hother, -⟩ | ⟨-, n, hvalue, hset⟩
      · exact absurd rfl hother
      · obtain ⟨-, -, -, rfl⟩ := natural_number.mp hvalue
        exact formatVersion_kept tail hset
    · exact ih hmem

/-! ## The types known here -/

/-- An object whose one format number is `v`. -/
def Versioned (members : List (Option String × Tree)) (v : Nat) : Prop :=
  ∃ literal, members.filter (·.1 == some "format_version") =
      [(some "format_version", .number literal)] ∧
    literal.all isDigit = true ∧ digitsValue literal = v

/-- The members of an object but for the format number are of the types known here: every key is a
string, no table is repeated, and the value of each is one that its reader accepts. -/
structure Familiar (members : List (Option String × Tree)) : Prop where
  keys : ∀ m ∈ members, m.1.isSome = true
  once : ∀ name ∈ ["mappings", "dependencies", "dependency_mappings", "input_fingerprints"],
    members.countP (·.1 == some name) ≤ 1
  classes : ∀ value, (some "mappings", value) ∈ members →
    Accepts (Table.reader BindingClass.reader) value
  references : ∀ value, (some "dependencies", value) ∈ members →
    Accepts (optional (Table.reader (SortedSet.reader text))) value
  dependencyClasses : ∀ value, (some "dependency_mappings", value) ∈ members →
    Accepts (optional (Table.reader BindingClass.reader)) value
  fingerprints : ∀ value, (some "input_fingerprints", value) ∈ members →
    Accepts (optional (Table.reader Reader.hash)) value

theorem Versioned.fits_iff {v : Nat} (h : Versioned members v) (hlimit : v < UInt32.size) :
    Fits fields ⟨none, none, none, none, none⟩ members ↔ Familiar members := by
  obtain ⟨literal, hone, hdigits, rfl⟩ := h
  have hcount : members.countP (·.1 == some "format_version") ≤ 1 := by
    rw [List.countP_eq_length_filter, hone]
    exact Nat.le_refl 1
  have haccepts (value : Tree) (hmem : (some "format_version", value) ∈ members) :
      Accepts (natural UInt32.size) value := by
    have hfilter : (some "format_version", value) ∈
        members.filter (·.1 == some "format_version") :=
      List.mem_filter.mpr ⟨hmem, beq_self_eq_true _⟩
    rw [hone, List.mem_singleton] at hfilter
    cases hfilter
    exact ((exact_natural _).accepts_iff).mpr
      ⟨_, fun rest => natural_number.mpr ⟨rfl, hdigits, hlimit, rfl⟩⟩
  constructor
  · rintro ⟨hkeys, honce, haccepted⟩
    simp only [fields, List.forall_mem_cons, accepts_map] at honce haccepted
    obtain ⟨-, hclasses, hreferences, hdependencies, hfingerprints, -⟩ := haccepted
    refine ⟨hkeys, ?_, hclasses, hreferences, hdependencies, hfingerprints⟩
    simpa [List.forall_mem_cons] using honce.2
  · intro hfamiliar
    refine ⟨hfamiliar.keys, ?_, ?_⟩
    · have honce := And.intro hcount hfamiliar.once
      simpa [fields, List.forall_mem_cons] using honce
    · simp only [fields, List.forall_mem_cons, accepts_map]
      exact ⟨haccepts, hfamiliar.classes, hfamiliar.references, hfamiliar.dependencyClasses,
        hfamiliar.fingerprints, by simp⟩

/-- A file with a newer format number is read as far as its tables are of the types known here. -/
theorem document_of_versioned {v : Nat} {document : String} (h : Versioned members v)
    (hlimit : v < UInt32.size) (htokens : Json.tokens document = (Tree.object members).tokens) :
    (Familiar members → ∃ file, Reader.document reader document = .ok file ∧ file.formatVersion = v) ∧
      (¬ Familiar members → ∃ fault, Reader.document reader document = .error fault) := by
  rw [← h.fits_iff hlimit, ← apart.exists_foldsTo_iff]
  obtain ⟨literal, hone, -, rfl⟩ := h
  have hmem : (some "format_version", Tree.number literal) ∈ members :=
    List.mem_of_mem_filter (hone ▸ List.mem_singleton_self _)
  constructor
  · rintro ⟨last, hfolds⟩
    have hread : ∃ file, reader ((Tree.object members).tokens ++ []) = .ok (file, []) ∧
        file.formatVersion = last.formatVersion.getD 1 := by
      unfold reader
      exact ⟨_, (record_object exactFields).mpr ⟨rfl, last, hfolds, rfl⟩, rfl⟩
    obtain ⟨file, hfile, hformat⟩ := hread
    rw [List.append_nil, ← htokens] at hfile
    rw [formatVersion_of_foldsTo hfolds hmem] at hformat
    exact ⟨file, by simp only [Reader.document, hfile], hformat⟩
  · intro hnone
    unfold Reader.document
    split
    next fault _ => exact ⟨fault, rfl⟩
    next file hread =>
      rw [htokens, ← List.append_nil (Tree.tokens _)] at hread
      obtain ⟨-, last, hfolds, -⟩ := (record_object exactFields).mp hread
      exact absurd ⟨last, hfolds⟩ hnone
    · exact ⟨_, rfl⟩

end LogFile

open LogFile in
/-- A well-formed file with a newer format number is recognised as one exactly if its tables are of the
types known here, whatever else is in it.  Otherwise it is taken for a malformed file. -/
theorem newer_format_recognised_iff {fs : FileSystem} {path : Path} {document : String}
    {members : List (Option String × Tree)} {v : Nat} (hread : fs.readText path = .ok document)
    (htokens : Json.tokens document = (Tree.object members).tokens) (hversion : Versioned members v)
    (hnewer : currentFormat < v) (hlimit : v < UInt32.size) :
    (BuildLog.read fs path = .error (.newerFormat path currentFormat v) ↔ Familiar members) ∧
      (ClassTable.load fs path = .error (.newerFormat path currentFormat v) ↔ Familiar members) ∧
      (¬ Familiar members → ∃ fault, BuildLog.read fs path = .error (.malformed path fault) ∧
        ClassTable.load fs path = .error (.malformed path fault)) := by
  obtain ⟨hfamiliar, hforeign⟩ := document_of_versioned hversion hlimit htokens
  by_cases h : Familiar members
  · obtain ⟨file, hfile, hformat⟩ := hfamiliar h
    have hfault : LogFile.read fs path = .error (.newerFormat path currentFormat v) := by
      simp only [LogFile.read, hread, hfile, hformat, if_pos hnewer]
    simp only [BuildLog.read, ClassTable.load, hfault, h, not_true_eq_false, false_imp_iff, and_self]
  · obtain ⟨fault, hfault⟩ := hforeign h
    have hfault' : LogFile.read fs path = .error (.malformed path fault) := by
      simp only [LogFile.read, hread, hfault]
    simp [BuildLog.read, ClassTable.load, hfault', h]

/-- A file system with a text in the place of the log file. -/
def FileSystem.ofLogText (document : String) : FileSystem where
  nodes := Table.ofList
    [(["log"], .folder), (["log", "binder_log.json"], .file (.bytes document.toUTF8))]
  workingFolder := []

theorem FileSystem.readText_ofLogText (document : String) :
    (FileSystem.ofLogText document).readText ⟨"log/binder_log.json"⟩ = .ok document :=
  FileSystem.readText_of_read rfl

/-- A file of the second format that adds a table of numbers. -/
def addingText : String :=
  "\x7b\"format_version\": 2, \"mappings\": \x7b\x7d, \"checksums\": [1.5]\x7d"

def addingMembers : List (Option String × Tree) :=
  [(some "format_version", .number ['2']), (some "mappings", .object []),
    (some "checksums", .array [.number "1.5".toList])]

/-- A file of the second format in which the classes are a list. -/
def retypingText : String := "\x7b\"format_version\": 2, \"mappings\": []\x7d"

def retypingMembers : List (Option String × Tree) :=
  [(some "format_version", .number ['2']), (some "mappings", .array [])]

open LogFile in
/-- A table that is added does no harm, but a table that has another type hides the newer format. -/
theorem retyped_table_malformed :
    BuildLog.read (.ofLogText addingText) ⟨"log/binder_log.json"⟩ =
        .error (.newerFormat ⟨"log/binder_log.json"⟩ currentFormat 2) ∧
      ∃ fault, BuildLog.read (.ofLogText retypingText) ⟨"log/binder_log.json"⟩ =
          .error (.malformed ⟨"log/binder_log.json"⟩ fault) ∧
        ClassTable.load (.ofLogText retypingText) ⟨"log/binder_log.json"⟩ =
          .error (.malformed ⟨"log/binder_log.json"⟩ fault) := by
  have hfamiliar : Familiar addingMembers := by
    have hclasses : Accepts (Table.reader BindingClass.reader) (.object []) := ⟨_, rfl⟩
    refine ⟨by decide, by decide, ?_, ?_, ?_, ?_⟩ <;> intro value hvalue <;>
      simp [addingMembers] at hvalue
    rw [hvalue]
    exact hclasses
  have hforeign : ¬ Familiar retypingMembers := by
    intro h
    obtain ⟨classes, hread⟩ := h.classes (.array []) (by simp [retypingMembers])
    cases hread
  have hadded : tokens addingText = (Tree.object addingMembers).tokens := by decide +kernel
  have hretyped : tokens retypingText = (Tree.object retypingMembers).tokens := by decide +kernel
  have hrecognised := newer_format_recognised_iff (FileSystem.readText_ofLogText _) hadded
    ⟨['2'], rfl, rfl, rfl⟩ (by decide) (by decide)
  have hmistaken := newer_format_recognised_iff (FileSystem.readText_ofLogText _) hretyped
    ⟨['2'], rfl, rfl, rfl⟩ (by decide) (by decide)
  exact ⟨hrecognised.1.mpr hfamiliar, hmistaken.2.2 hforeign⟩

end LayoutRebuild
