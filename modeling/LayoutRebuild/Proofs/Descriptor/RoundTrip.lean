import LayoutRebuild.Proofs.Descriptor.Naming
import Mathlib.Logic.Basic

/-!
# Names that are read back

The file name of a variant is read back as the variant exactly if its family has a text without a marker
and its configuration, if it has one, has a text too (`WellFormed`).  Every name that is read is either the
file name of such a variant or a stem that stands for a family as a whole (`ofStem_cases`), never both: a
stem is never as long as the name that is written for it (`names_read_back`).
-/

namespace LayoutRebuild.DescriptorName

variable {d : DescriptorName} {s : String} {stem : List Char}

/-- A variant whose file name can be told apart into its parts. -/
structure WellFormed (d : DescriptorName) : Prop where
  family_ne : d.family ≠ ""
  no_marker : ¬ marker <:+: d.family.toList
  config_ne : d.config ≠ some ""

/-! ## Stems -/

theorem stem?_eq_some_iff {text : List Char} : stem? text = some stem ↔ text = stem ++ ending := by
  unfold stem?
  constructor
  · intro h
    split_ifs at h with hending
    obtain ⟨before, rfl⟩ := List.isSuffixOf_iff_suffix.mp hending
    rw [Option.some.injEq, List.length_append, Nat.add_sub_cancel, List.take_left] at h
    rw [h]
  · rintro rfl
    have hending : ending.isSuffixOf (stem ++ ending) = true :=
      List.isSuffixOf_iff_suffix.mpr (List.suffix_append _ _)
    rw [if_pos hending, List.length_append, Nat.add_sub_cancel, List.take_left]

theorem parse_eq_some_iff :
    parse s = some d ↔ ∃ stem, stem ≠ [] ∧ s.toList = stem ++ ending ∧ ofStem stem = d := by
  unfold parse
  constructor
  · intro h
    split at h
    next c stem hstem =>
      exact ⟨c :: stem, List.cons_ne_nil c stem, stem?_eq_some_iff.mp hstem, Option.some.inj h⟩
    · cases h
  · rintro ⟨stem, hne, hstem, rfl⟩
    obtain ⟨c, rest, rfl⟩ := List.exists_cons_of_ne_nil hne
    rw [stem?_eq_some_iff.mpr hstem]

/-- A name is read unless nothing stands before the ending. -/
theorem parse_eq_none_iff : parse s = none ↔ ¬ ending <:+ s.toList ∨ s = ".xml" := by
  have hbare : s = ".xml" ↔ s.toList = ending := String.toList_inj.symm
  rw [hbare, Option.eq_none_iff_forall_ne_some]
  constructor
  · intro hnone
    by_cases hending : ending <:+ s.toList
    · right
      obtain ⟨stem, hstem⟩ := hending
      by_cases hempty : stem = []
      · rw [← hstem, hempty, List.nil_append]
      · exact absurd (parse_eq_some_iff.mpr ⟨stem, hempty, hstem.symm, rfl⟩) (hnone _)
    · exact .inl hending
  · intro h d hd
    obtain ⟨stem, hne, hstem, -⟩ := parse_eq_some_iff.mp hd
    rcases h with hending | hbare
    · exact hending ⟨stem, hstem.symm⟩
    · rw [hbare] at hstem
      exact hne (List.append_left_eq_self.mp hstem.symm)

/-! ## Written and whole stems -/

/-- A stem with a marker is longer than its family. -/
theorem append_marker_ne (text after : List Char) : text ++ (marker ++ after) ≠ text := by
  intro h
  have hnil := List.append_right_eq_self.mp h
  simp [marker_eq] at hnil

theorem ofStem_of_wellFormed (h : d.WellFormed) :
    ofStem (d.family.toList ++ (marker ++ qualifier d.config)) = d := by
  obtain ⟨family, config⟩ := d
  have hsplit : splitFirst? marker (family.toList ++ (marker ++ qualifier config)) =
      some (family.toList, qualifier config) := splitFirst?_append h.no_marker
  obtain ⟨c, rest, hfamily⟩ : ∃ c rest, family.toList = c :: rest :=
    List.exists_cons_of_ne_nil (by simpa using h.family_ne)
  have hread : String.ofList (c :: rest) = family := by rw [← hfamily, String.ofList_toList]
  unfold ofStem
  rw [hsplit, hfamily]
  cases config with
  | none => simp only [qualifier, hread]
  | some config =>
    obtain ⟨c', rest', hconfig⟩ : ∃ c rest, config.toList = c :: rest :=
      List.exists_cons_of_ne_nil (by simpa using h.config_ne)
    have hread' : String.ofList (c' :: rest') = config := by
      rw [← hconfig, String.ofList_toList]
    simp only [qualifier, hconfig, hread, hread']

/-- A stem is that of a variant which it is read as, or it is read as a family. -/
theorem ofStem_cases (stem : List Char) :
    (stem = (ofStem stem).family.toList ++ (marker ++ qualifier (ofStem stem).config) ∧
      (ofStem stem).WellFormed) ∨ ofStem stem = ⟨String.ofList stem, none⟩ := by
  have hmarker : marker ≠ [] := by decide
  have hfirst {c : Char} {family after : List Char}
      (hsplit : splitFirst? marker stem = some (c :: family, after)) :
      stem = (String.ofList (c :: family)).toList ++ (marker ++ after) ∧
        String.ofList (c :: family) ≠ "" ∧
        ¬ marker <:+: (String.ofList (c :: family)).toList := by
    obtain ⟨hstem, hbefore⟩ := splitFirst?_eq_some hsplit
    rw [String.toList_ofList]
    exact ⟨hstem, by simp, hbefore hmarker⟩
  unfold ofStem
  split
  next c family hsplit =>
    obtain ⟨hstem, hne, hno⟩ := hfirst hsplit
    exact .inl ⟨hstem, hne, hno, by simp⟩
  next c family c' config hsplit =>
    obtain ⟨hstem, hne, hno⟩ := hfirst hsplit
    refine .inl ⟨?_, hne, hno, by simp⟩
    simpa only [qualifier, String.toList_ofList] using hstem
  · exact .inr rfl

/-- The file name of a variant is read as the variant exactly if the variant is well-formed. -/
theorem parse_fileName_eq_some_iff : parse d.fileName = some d ↔ d.WellFormed := by
  rw [parse_fileName, Option.some.injEq]
  constructor
  · intro h
    rcases ofStem_cases (d.family.toList ++ (marker ++ qualifier d.config)) with
      ⟨-, hformed⟩ | hwhole
    · rwa [h] at hformed
    · rw [h] at hwhole
      have hfamily := congrArg (·.family.toList) hwhole
      simp only [String.toList_ofList] at hfamily
      exact absurd hfamily.symm (append_marker_ne _ _)
  · exact ofStem_of_wellFormed

/-! ## Names that are read -/

/-- The whole stem of a file name stands for the family. -/
def IsWholeStem (d : DescriptorName) (fileName : String) : Prop :=
  d.config = none ∧ d.family ++ ".xml" = fileName

theorem isWholeStem_iff (h : s.toList = stem ++ ending) :
    d.IsWholeStem s ↔ d = ⟨String.ofList stem, none⟩ := by
  obtain ⟨family, config⟩ := d
  have htext : family ++ ".xml" = s ↔ family = String.ofList stem := by
    have hending : ".xml".toList = ending := rfl
    rw [← String.toList_inj, String.toList_append, h, hending, List.append_cancel_right_eq,
      ← String.toList_inj, String.toList_ofList]
  rw [IsWholeStem, htext, DescriptorName.mk.injEq, and_comm]

/-- What is read from a name has a family and no empty configuration, and it is either the variant that is
written under the name or the whole stem. -/
theorem fileName_of_parse (h : parse s = some d) : d.family ≠ "" ∧ d.config ≠ some "" ∧
    Xor (d.fileName = s) (d.IsWholeStem s) := by
  obtain ⟨stem, hne, hs, rfl⟩ := parse_eq_some_iff.mp h
  have hwritten : (ofStem stem).fileName = s ↔
      (ofStem stem).family.toList ++ (marker ++ qualifier (ofStem stem).config) = stem := by
    rw [← String.toList_inj, toList_fileName, hs, List.append_cancel_right_eq]
  rw [hwritten, isWholeStem_iff hs]
  rcases ofStem_cases stem with ⟨hstem, hformed⟩ | hwhole
  · refine ⟨hformed.family_ne, hformed.config_ne, .inl ⟨hstem.symm, fun hwhole => ?_⟩⟩
    rw [hwhole, String.toList_ofList] at hstem
    exact append_marker_ne _ _ hstem.symm
  · rw [hwhole, String.toList_ofList]
    refine ⟨by simpa using hne, by simp, .inr ⟨rfl, append_marker_ne _ _⟩⟩

/-- The file name of a variant is read back as the variant exactly if the variant is well-formed.  A name is
read unless it does not end like the name of a descriptor or is nothing but the ending.  What is read has a
family and no empty configuration, and it is either the variant that is written under the name or the whole
stem, but not both. -/
theorem names_read_back :
    (∀ d : DescriptorName, parse d.fileName = some d ↔
      d.family ≠ "" ∧ ¬ marker <:+: d.family.toList ∧ d.config ≠ some "") ∧
    (∀ s : String, parse s = none ↔ ¬ ending <:+ s.toList ∨ s = ".xml") ∧
    ∀ s d, parse s = some d → d.family ≠ "" ∧ d.config ≠ some "" ∧
      Xor (d.fileName = s) (d.IsWholeStem s) := by
  refine ⟨fun d => ?_, fun s => parse_eq_none_iff, fun s d h => fileName_of_parse h⟩
  rw [parse_fileName_eq_some_iff]
  constructor
  · intro h
    exact ⟨h.family_ne, h.no_marker, h.config_ne⟩
  · rintro ⟨hfamily, hmarker, hconfig⟩
    exact ⟨hfamily, hmarker, hconfig⟩

/-- A name with two markers is read as the variant that the first one separates.  If the first one does not
separate anything, the stem is read as a whole. -/
theorem first_marker_read_back :
    parse "a-layout-layout.xml" = some ⟨"a", some "layout"⟩ ∧
    fileName ⟨"a", some "layout"⟩ = "a-layout-layout.xml" ∧
    parse "a-layoutx-layout.xml" = some ⟨"a-layoutx-layout", none⟩ ∧
    fileName ⟨"a-layoutx-layout", none⟩ ≠ "a-layoutx-layout.xml" := by
  have hvariant : parse "a-layout-layout.xml" = some ⟨"a", some "layout"⟩ := by decide
  have hwhole : parse "a-layoutx-layout.xml" = some ⟨"a-layoutx-layout", none⟩ := by decide
  refine ⟨hvariant, ?_, hwhole, ?_⟩
  · rcases (names_read_back.2.2 _ _ hvariant).2.2 with ⟨hwritten, -⟩ | ⟨⟨hnone, -⟩, -⟩
    · exact hwritten
    · cases hnone
  · rcases (names_read_back.2.2 _ _ hwhole).2.2 with ⟨-, hstem⟩ | ⟨-, hwritten⟩
    · exact absurd ⟨rfl, rfl⟩ hstem
    · exact hwritten

end LayoutRebuild.DescriptorName
