import LayoutRebuild.Config.Basic
import LayoutRebuild.Proofs.Path.Segments
import Mathlib.Tactic.SplitIfs

/-!
# Which packages are accepted

A configuration is accepted if its package is made of segments with single dots between them, and if the
folders are given without which nothing can be built (`validate_eq_ok_iff`).  No segment has a dot or a
slash in it, so the segments can be told apart, and the package is one segment of a path.
-/

namespace LayoutRebuild.ModuleConfig

variable {package segment : String} {text : List Char} {c : Char}

/-! ## Segments -/

/-- The character can stand behind the first one of a segment. -/
def IsInner (c : Char) : Prop := Text.isAlphanumeric c = true ∨ c = '_'

/-- A letter or an underscore, and behind it letters, numbers and underscores. -/
def IsSegment (segment : String) : Prop :=
  ∃ first rest, segment.toList = first :: rest ∧
    (Text.isAlphabetic first = true ∨ first = '_') ∧ ∀ c ∈ rest, IsInner c

theorem isIdentifier_toList : isIdentifier segment.toList = true ↔ IsSegment segment := by
  unfold IsSegment IsInner
  cases segment.toList with
  | nil => simp [isIdentifier]
  | cons first rest =>
    simp only [isIdentifier, Bool.and_eq_true, Bool.or_eq_true, decide_eq_true_eq,
      List.all_eq_true, List.cons.injEq, and_assoc, exists_and_left, exists_eq_left']

theorem IsSegment.isInner_of_mem (h : IsSegment segment) (hc : c ∈ segment.toList) : IsInner c := by
  obtain ⟨first, rest, hsegment, hfirst, hrest⟩ := h
  rw [hsegment, List.mem_cons] at hc
  rcases hc with rfl | hc
  · exact hfirst.imp_left fun hletter => by simp [Text.isAlphanumeric, hletter]
  · exact hrest c hc

theorem not_isInner_dot : ¬ IsInner '.' := by
  unfold IsInner
  decide +kernel

theorem not_isInner_slash : ¬ IsInner '/' := by
  unfold IsInner
  decide +kernel

/-! ## Packages -/

/-- Segments, at least one, with single dots between them. -/
def IsPackage (package : String) : Prop :=
  ∃ segments : List String, segments ≠ [] ∧ (∀ segment ∈ segments, IsSegment segment) ∧
    package = ".".intercalate segments

theorem isDottedIdentifier_iff : isDottedIdentifier package = true ↔ IsPackage package := by
  constructor
  · intro h
    refine ⟨(splitAt '.' package.toList).map String.ofList, by simp [splitAt_ne_nil], ?_, ?_⟩
    · intro segment hsegment
      obtain ⟨piece, hpiece, rfl⟩ := List.mem_map.mp hsegment
      rw [← isIdentifier_toList, String.toList_ofList]
      exact List.all_eq_true.mp h piece hpiece
    · have hpieces : ((splitAt '.' package.toList).map String.ofList).map String.toList =
          splitAt '.' package.toList := by simp
      rw [← String.toList_inj, String.toList_intercalate, hpieces]
      exact (intercalate_splitAt _).symm
  · rintro ⟨segments, hne, hsegments, rfl⟩
    have hdot : ∀ piece ∈ segments.map String.toList, '.' ∉ piece := by
      intro piece hpiece hmem
      obtain ⟨segment, hsegment, rfl⟩ := List.mem_map.mp hpiece
      exact not_isInner_dot ((hsegments segment hsegment).isInner_of_mem hmem)
    have hpieces : splitAt '.' (".".intercalate segments).toList = segments.map String.toList := by
      rw [String.toList_intercalate]
      exact splitAt_intercalate (by simpa using hne) hdot
    rw [isDottedIdentifier, hpieces, List.all_map, List.all_eq_true]
    exact fun segment hsegment => isIdentifier_toList.mpr (hsegments segment hsegment)

theorem IsPackage.ne_empty (h : IsPackage package) : package ≠ "" := by
  rintro rfl
  have hblank : isDottedIdentifier "" = false := by decide
  rw [← isDottedIdentifier_iff, hblank] at h
  cases h

/-- A package is one segment of a path. -/
theorem IsPackage.no_slash (h : IsPackage package) : '/' ∉ package.toList := by
  intro hslash
  obtain ⟨segments, -, hsegments, rfl⟩ := h
  rw [String.toList_intercalate] at hslash
  rcases eq_or_mem_of_mem_intercalate hslash with hdot | ⟨piece, hpiece, hmem⟩
  · exact absurd hdot (by decide)
  · obtain ⟨segment, hsegment, rfl⟩ := List.mem_map.mp hpiece
    exact not_isInner_slash ((hsegments segment hsegment).isInner_of_mem hmem)

theorem no_slash_of_dotted (h : isDottedIdentifier package = true) : '/' ∉ package.toList :=
  (isDottedIdentifier_iff.mp h).no_slash

/-! ## Accepted configurations -/

theorem validate_eq_ok_iff {config : ModuleConfig} : config.validate = .ok () ↔
    IsPackage config.package ∧ config.descriptorFolder ≠ "" ∧ config.logFolder ≠ "" := by
  rw [← isDottedIdentifier_iff]
  unfold validate
  constructor
  · intro h
    split_ifs at h with hempty hdotted hdescriptors hlog
    exact ⟨by simpa using hdotted, hdescriptors, hlog⟩
  · rintro ⟨hdotted, hdescriptors, hlog⟩
    have hempty := (isDottedIdentifier_iff.mp hdotted).ne_empty
    simp [hempty, hdotted, hdescriptors, hlog]

theorem dotted_of_validate {config : ModuleConfig} (h : config.validate = .ok ()) :
    config.package ≠ "" ∧ isDottedIdentifier config.package = true := by
  obtain ⟨hpackage, -, -⟩ := validate_eq_ok_iff.mp h
  exact ⟨hpackage.ne_empty, isDottedIdentifier_iff.mpr hpackage⟩

end LayoutRebuild.ModuleConfig
