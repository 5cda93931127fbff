import LayoutRebuild.Log.File
import LayoutRebuild.Proofs.Json.Reading
import LayoutRebuild.Table.Lemmas

/-!
# Log files come back as they were written

Tables and sets are listed in order, so the entries of a written table build the same table again;
hashes, classes and the fields of a file are read back one inside the other.  The text of a file
therefore stands for the file and for no other one (`document_toText`).
-/

namespace LayoutRebuild

open Json

/-! ## Hashes -/

namespace ContentHash

theorem hexValue?_hexDigit : ∀ n < 16, hexValue? (hexDigit n) = some n.toUInt8 := by decide

theorem hexDigit_ne_plus : ∀ n < 16, hexDigit n ≠ '+' := by decide

/-- The two digits of a byte spell the byte. -/
theorem byte?_byteDigits (b : UInt8) :
    byte? (hexDigit (b.toNat / 16)) (hexDigit (b.toNat % 16)) = some b := by
  have hb : b.toNat < 256 := b.toNat_lt
  have hhigh : b.toNat / 16 < 16 := by omega
  have hlow : b.toNat % 16 < 16 := by omega
  have hsum : 16 * (b.toNat / 16).toUInt8 + (b.toNat % 16).toUInt8 = b := by
    apply UInt8.toNat_inj.mp
    simp only [UInt8.toNat_add, UInt8.toNat_mul, UInt8.reduceToNat, Nat.toUInt8_eq,
      UInt8.toNat_ofNat']
    omega
  simp only [byte?, if_neg (hexDigit_ne_plus _ hhigh), hexValue?_hexDigit _ hhigh,
    hexValue?_hexDigit _ hlow, hsum]

theorem bytes?_flatMap_byteDigits (l : List UInt8) : bytes? (l.flatMap byteDigits) = some l := by
  induction l with
  | nil => rfl
  | cons b l ih =>
    simp only [List.flatMap_cons, byteDigits, List.cons_append, List.nil_append, bytes?,
      byte?_byteDigits, ih]

/-- The text of a hash spells the hash. -/
theorem parse_toText (h : ContentHash) : parse h.toText = .ok h := by
  have hbytes : bytes? h.toText.toList = some h.bytes := by
    rw [toText, String.toList_ofList]
    exact bytes?_flatMap_byteDigits h.bytes
  simp only [parse, hbytes, h.length_eq, dif_pos]

end ContentHash

namespace Json

theorem reads_hash (h : ContentHash) : Reads Reader.hash (.text h.toText) h := by
  intro rest
  have htext : Reader.text ((Value.text h.toText).tokens ++ rest) = .ok (h.toText, rest) := rfl
  simp only [Reader.hash, htext, ContentHash.parse_toText]

end Json

/-! ## Tables and sets -/

/-- The entries of a table build the table. -/
theorem Table.ofList_entries {κ α : Type} [Ord κ] [Std.TransOrd κ] [Std.LawfulEqOrd κ]
    [DecidableEq κ] (t : Table κ α) : Table.ofList t.entries = t := by
  apply Table.ext_get?
  intro k
  rw [Table.get?_ofList, Table.find?_reverse_entries]

/-- The members of a set build the set. -/
theorem SortedSet.ofList_toList {κ : Type} [Ord κ] [Std.TransOrd κ] [Std.LawfulEqOrd κ]
    [DecidableEq κ] (s : SortedSet κ) : SortedSet.ofList s.toList = s := by
  apply SortedSet.ext_mem
  intro k
  rw [SortedSet.mem_ofList, SortedSet.mem_toList]

namespace Json

theorem reads_table {α : Type} {r : Reader α} {f : α → Value} (h : ∀ a, Reads r (f a) a)
    (t : Table String α) : Reads (Table.reader r) (t.toJson f) t := by
  have hpairs := (reads_pairs h t.entries).map Table.ofList
  rwa [Table.ofList_entries] at hpairs

theorem reads_sortedSet {κ : Type} [Ord κ] [Std.TransOrd κ] [Std.LawfulEqOrd κ] [DecidableEq κ]
    {r : Reader κ} {f : κ → Value} (h : ∀ k, Reads r (f k) k) (s : SortedSet κ) :
    Reads (SortedSet.reader r) (s.toJson f) s := by
  have harray := (reads_array h s.toList).map SortedSet.ofList
  rwa [SortedSet.ofList_toList] at harray

/-! ## Classes -/

theorem reads_implementation (i : Implementation) : Reads Implementation.reader i.toJson i := by
  have hfolds : Folds (Reader.fieldMember Implementation.fields) ⟨none, none, none⟩
      [("tag", .text i.tag), ("merge", .boolean i.merge), ("qualified_name", .text i.qualifiedName)]
      ⟨some i.tag, some i.merge, some i.qualifiedName⟩ := by
    refine .cons (fieldMember_colon rfl rfl ((reads_text i.tag).map _)) ?_
    refine .cons (fieldMember_colon rfl rfl ((reads_boolean i.merge).map _)) ?_
    exact .cons (fieldMember_colon rfl rfl ((reads_text i.qualifiedName).map _)) .nil
  exact hfolds.reads_record rfl

theorem reads_bindingClass (c : BindingClass) : Reads BindingClass.reader c.toJson c := by
  have hfolds : Folds (Reader.fieldMember BindingClass.fields) ⟨none, none, none, none⟩
      [("name", .text c.qualifiedName), ("module_package", .text c.modulePackage),
        ("variables", c.variableTypes.toJson .text),
        ("implementations", c.implementations.toJson Implementation.toJson)]
      ⟨some c.qualifiedName, some c.modulePackage, some c.variableTypes,
        some c.implementations⟩ := by
    refine .cons (fieldMember_colon rfl rfl ((reads_text c.qualifiedName).map _)) ?_
    refine .cons (fieldMember_colon rfl rfl ((reads_text c.modulePackage).map _)) ?_
    refine .cons (fieldMember_colon rfl rfl ((reads_table reads_text c.variableTypes).map _)) ?_
    exact .cons (fieldMember_colon rfl rfl
      ((reads_sortedSet reads_implementation c.implementations).map _)) .nil
  exact hfolds.reads_record rfl

end Json

/-! ## Files -/

namespace LogFile

open Json

/-- A table that may be left out: one more member if it is there, and nothing otherwise.  `last` is
the draft with or without the table. -/
theorem folds_table {α : Type} {r : Reader α} {f : α → Value} (h : ∀ a, Reads r (f a) a)
    (key : String) {field : Reader.Field Draft} (last : Option (Option (Table String α)) → Draft)
    (hfield : fields.find? (·.name == key) = some field) (hset : field.isSet (last none) = false)
    (hread : field.read (last none) =
      (Reader.optional (Table.reader r)).map fun t => last (some t))
    (t : Option (Table String α)) :
    Folds (Reader.fieldMember fields) (last none) (t.toList.map fun t => (key, t.toJson f))
      (last (t.map some)) := by
  cases t with
  | none => exact .nil
  | some t =>
    have hvalue : Reads (Reader.optional (Table.reader r)) (t.toJson f) (some t) :=
      Reads.optional (reads_table h t)
    refine .cons (fieldMember_colon hfield hset ?_) .nil
    rw [hread]
    exact hvalue.map fun t => last (some t)

/-- Every field of a file is read back. -/
theorem reads_file (file : LogFile) (h : file.formatVersion < UInt32.size) :
    Reads LogFile.reader file.toJson file := by
  obtain ⟨version, classes, references, dependencies, fingerprints⟩ := file
  have hstart : Folds (Reader.fieldMember fields) ⟨none, none, none, none, none⟩
      [("format_version", .number version), ("mappings", classes.toJson BindingClass.toJson)]
      ⟨some version, some classes, none, none, none⟩ := by
    refine .cons (fieldMember_colon rfl rfl ((reads_natural h).map _)) ?_
    exact .cons (fieldMember_colon rfl rfl ((reads_table reads_bindingClass classes).map _)) .nil
  have hreferences := folds_table (reads_sortedSet reads_text) "dependencies"
    (fun t => ⟨some version, some classes, t, none, none⟩) rfl rfl rfl references
  have hdependencies := folds_table reads_bindingClass "dependency_mappings"
    (fun t => ⟨some version, some classes, references.map some, t, none⟩) rfl rfl rfl dependencies
  have hfingerprints := folds_table reads_hash "input_fingerprints"
    (fun t => ⟨some version, some classes, references.map some, dependencies.map some, t⟩)
    rfl rfl rfl fingerprints
  refine (((hstart.append hreferences).append hdependencies).append hfingerprints).reads_record ?_
  cases references <;> cases dependencies <;> cases fingerprints <;> rfl

/-- The text of a file is read as the file. -/
theorem document_toText (file : LogFile) (h : file.formatVersion < UInt32.size) :
    Reader.document LogFile.reader file.toText = .ok file :=
  (reads_file file h).document

end LogFile

end LayoutRebuild
