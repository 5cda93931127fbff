import LayoutRebuild.Proofs.Log.Saved
import Mathlib.Tactic.SplitIfs

/-!
# Artifacts that can be loaded

An artifact can be loaded if it is called like one, if its file can be read, and if every layout and
every class in it has a name (`Artifact.load_eq_ok_iff`).  So it matters what the file is called and
what is in it, and not on which way it is reached (`Artifact.load_eq_ok_congr`).
-/

namespace LayoutRebuild

variable {fs fs' : FileSystem} {p p' : Path}

/-- Every layout has a name, and so has every class. -/
def ClassTable.Named (classes : ClassTable) : Prop :=
  ∀ layout c, classes.get? layout = some c → layout ≠ "" ∧ c.qualifiedName ≠ ""

theorem ClassTable.named_ofList {entries : List (String × BindingClass)}
    (h : ∀ e ∈ entries, e.1 ≠ "" ∧ e.2.qualifiedName ≠ "") :
    ClassTable.Named (Table.ofList entries) :=
  fun _ _ hget => h _ (Table.mem_of_get?_ofList hget)

theorem LogFile.read_eq_some_iff {file : LogFile} : read fs p = .ok (some file) ↔
    ∃ content text, fs.read p = .ok content ∧ String.fromUTF8? content = some text ∧
      Json.Reader.document reader text = .ok file ∧ file.formatVersion ≤ currentFormat := by
  unfold read FileSystem.readText
  cases hread : fs.read p with
  | error fault => cases fault <;> simp
  | ok content =>
    cases htext : String.fromUTF8? content with
    | none => simp [htext]
    | some text =>
      cases hdocument : Json.Reader.document reader text with
      | error fault => simp [htext, hdocument]
      | ok file' =>
        simp only [htext, hdocument, Except.ok.injEq, Option.some.injEq, exists_and_left,
          exists_eq_left']
        split
        next hnewer =>
          simp only [reduceCtorEq, false_iff, not_and, Nat.not_le]
          rintro rfl
          exact hnewer
        next hknown =>
          simp only [Except.ok.injEq, Option.some.injEq, iff_self_and]
          rintro rfl
          exact Nat.not_lt.mp hknown

namespace Artifact

theorem firstFault?_eq_none_iff {entries : List (String × BindingClass)} :
    firstFault? p entries = none ↔ ∀ e ∈ entries, e.1 ≠ "" ∧ e.2.qualifiedName ≠ "" := by
  induction entries with
  | nil => simp [firstFault?]
  | cons entry rest ih =>
    obtain ⟨layout, c⟩ := entry
    rw [firstFault?, List.forall_mem_cons, ← ih]
    split_ifs with hlayout hclass
    · simp [hlayout]
    · simp [hclass]
    · simp [hlayout, hclass]

theorem firstFault?_entries {classes : ClassTable} :
    firstFault? p classes.entries = none ↔ classes.Named := by
  rw [firstFault?_eq_none_iff]
  constructor
  · intro h layout c hget
    exact h (layout, c) (Table.mem_entries_iff.mpr hget)
  · rintro h ⟨layout, c⟩ hentry
    exact h layout c (Table.mem_entries_iff.mp hentry)

/-- What it takes for an artifact to be loaded. -/
theorem load_eq_ok_iff {classes : ClassTable} : load fs p = .ok classes ↔
    (ArtifactName.ofPath? p).isSome ∧ classes.Named ∧
      ∃ file, LogFile.read fs p = .ok (some file) ∧ file.classes = classes := by
  unfold load
  cases ArtifactName.ofPath? p with
  | none => simp
  | some artifact =>
    cases hread : LogFile.read fs p with
    | error fault => simp
    | ok file? =>
      cases file? with
      | none => simp
      | some file =>
        cases hfault : firstFault? p file.classes.entries with
        | some fault =>
          have hunnamed : ¬ file.classes.Named := by
            rw [← firstFault?_entries (p := p), hfault]
            simp
          simp only [hfault, reduceCtorEq, Option.isSome_some, Except.ok.injEq, Option.some.injEq,
            exists_eq_left', true_and, false_iff, not_and]
          rintro hnamed rfl
          exact hunnamed hnamed
        | none =>
          have hnamed := firstFault?_entries.mp hfault
          simp only [hfault, Except.ok.injEq, Option.isSome_some, Option.some.injEq,
            exists_eq_left', true_and, iff_and_self]
          rintro rfl
          exact hnamed

/-- What an artifact holds is decided by what it is called and by what is read there. -/
theorem load_eq_ok_congr {classes : ClassTable} (h : fs'.read p' = fs.read p)
    (hname : p'.fileName? = p.fileName?) :
    load fs' p' = .ok classes ↔ load fs p = .ok classes := by
  simp only [load_eq_ok_iff, ArtifactName.ofPath?, hname, LogFile.read_eq_some_iff, h]

/-- The text of some classes is loaded as these classes, if they can be loaded at all. -/
theorem load_of_text {classes classes' : ClassTable} (hname : (ArtifactName.ofPath? p).isSome)
    (hread : fs.read p = .ok (LogFile.ofClasses classes).toText.toUTF8) :
    load fs p = .ok classes' ↔ classes' = classes ∧ classes.Named := by
  simp only [load_eq_ok_iff, hname, LogFile.read_eq_some hread rfl, Except.ok.injEq,
    Option.some.injEq, exists_eq_left', true_and]
  constructor
  · rintro ⟨hnamed, rfl⟩
    exact ⟨rfl, hnamed⟩
  · rintro ⟨rfl, hnamed⟩
    exact ⟨hnamed, rfl⟩

end Artifact

end LayoutRebuild
