import LayoutRebuild.Proofs.Descriptor.Contents

/-!
# Families that are found again

The family of a descriptor is what stands before the first marker in its name.  The marker does not
overlap itself, so the first one in the name of a variant is the one after the family unless the family
has a marker of its own (`splitFirst?_append`).  In that case the variants still belong together if the
marker in the family looks like one that a configuration follows (`HoldsTogether`).  Otherwise no marker
counts, and each variant is a family of its own (`family?_fileName_eq_iff`).
-/

namespace LayoutRebuild.DescriptorName

variable {pattern before after text : List Char}

/-! ## The first occurrence -/

/-- Without an occurrence there is no split, and a split is at the first occurrence. -/
theorem splitFirst?_eq_none_iff (hpattern : pattern ≠ []) :
    splitFirst? pattern text = none ↔ ¬ pattern <:+: text := by
  induction text with
  | nil =>
    rw [splitFirst?, if_neg (by simpa using hpattern)]
    simp [List.infix_nil, hpattern]
  | cons c rest ih =>
    rw [splitFirst?, List.infix_cons_iff, ← List.isPrefixOf_iff_prefix]
    split
    next hstart => simp [hstart]
    next hstart => rw [Option.map_eq_none_iff, ih, not_or, and_iff_right hstart]

theorem splitFirst?_eq_some (h : splitFirst? pattern text = some (before, after)) :
    text = before ++ (pattern ++ after) ∧ (pattern ≠ [] → ¬ pattern <:+: before) := by
  induction text generalizing before with
  | nil =>
    rw [splitFirst?] at h
    split_ifs at h with hempty
    cases h
    simp [List.isEmpty_iff.mp hempty]
  | cons c rest ih =>
    rw [splitFirst?] at h
    split_ifs at h with hstart
    · cases h
      refine ⟨?_, fun hpattern hinfix => hpattern (List.infix_nil.mp hinfix)⟩
      obtain ⟨tail, htail⟩ := List.isPrefixOf_iff_prefix.mp hstart
      rw [← htail, List.drop_left, List.nil_append]
    · obtain ⟨⟨first, second⟩, hsplit, heq⟩ := Option.map_eq_some_iff.mp h
      obtain ⟨rfl, rfl⟩ := Prod.mk.inj heq
      obtain ⟨hrest, hfirst⟩ := ih hsplit
      refine ⟨by rw [hrest, List.cons_append], fun hpattern hinfix => ?_⟩
      rcases List.infix_cons_iff.mp hinfix with hbegins | hinner
      · apply hstart
        rw [List.isPrefixOf_iff_prefix, hrest, ← List.cons_append]
        exact hbegins.trans (List.prefix_append _ _)
      · exact hfirst hpattern hinner

theorem marker_eq : marker = '-' :: "layout".toList := rfl

/-- The marker does not overlap itself: what starts with a marker and goes on to another one starts with
the whole of the first. -/
theorem prefix_of_prefix_marker (hbefore : before ≠ [])
    (h : marker <+: before ++ (marker ++ after)) : marker <+: before := by
  rcases List.prefix_or_prefix_of_prefix h (List.prefix_append before (marker ++ after)) with
    hwhole | ⟨overlap, hoverlap⟩
  · exact hwhole
  · cases overlap with
    | nil =>
      rw [List.append_nil] at hoverlap
      exact hoverlap ▸ List.prefix_rfl
    | cons c rest =>
      -- The second marker starts with a dash, and there is only one in the first.
      have hstart : c :: rest <+: marker ++ after :=
        (List.prefix_append_right_inj before).mp (by rwa [hoverlap])
      rw [marker_eq, List.cons_append] at hstart
      obtain ⟨rfl, -⟩ := List.cons_prefix_cons.mp hstart
      obtain ⟨d, head, rfl⟩ := List.exists_cons_of_ne_nil hbefore
      have hinner : '-' ∈ marker.tail := by
        rw [← hoverlap, List.cons_append, List.tail_cons]
        simp
      exact absurd hinner (by decide)

/-- A marker after a text without one is the first. -/
theorem splitFirst?_append (h : ¬ marker <:+: before) :
    splitFirst? marker (before ++ (marker ++ after)) = some (before, after) := by
  induction before with
  | nil =>
    have hstart : marker.isPrefixOf (marker ++ after) = true :=
      List.isPrefixOf_iff_prefix.mpr (List.prefix_append _ _)
    rw [marker_eq, List.cons_append] at hstart
    rw [List.nil_append, marker_eq, List.cons_append, splitFirst?, if_pos hstart,
      ← List.cons_append, List.drop_left]
  | cons c rest ih =>
    have hrest : ¬ marker <:+: rest := fun hinner => h (List.infix_cons hinner)
    have hstart : ¬ marker.isPrefixOf (c :: (rest ++ (marker ++ after))) = true := by
      rw [List.isPrefixOf_iff_prefix, ← List.cons_append]
      intro hbegins
      exact h (prefix_of_prefix_marker (List.cons_ne_nil c rest) hbegins).isInfix
    rw [List.cons_append, splitFirst?, if_neg hstart, ih hrest]
    rfl

/-! ## The name of a variant -/

/-- A text that can be part of the name of a file. -/
structure IsPart (text : String) : Prop where
  ne_empty : text ≠ ""
  no_slash : '/' ∉ text.toList

/-- What follows the marker in the name of a variant, up to the ending. -/
def qualifier : Option String → List Char
  | none => []
  | some config => '-' :: config.toList

theorem toList_fileName (d : DescriptorName) :
    d.fileName.toList = d.family.toList ++ (marker ++ qualifier d.config) ++ ending := by
  have hdash : "-layout-".toList = marker ++ ['-'] := rfl
  have hending : "-layout.xml".toList = marker ++ ending := rfl
  obtain ⟨family, config⟩ := d
  cases config with
  | none =>
    simp only [fileName, qualifier, toString, String.toList_append, hending, List.append_nil,
      List.append_assoc]
  | some config =>
    simp only [fileName, qualifier, toString, String.toList_append, hdash, List.append_assoc]
    rfl

/-- The name of a variant is read as its stem. -/
theorem parse_fileName (d : DescriptorName) :
    parse d.fileName = some (ofStem (d.family.toList ++ (marker ++ qualifier d.config))) := by
  have hstem : stem? d.fileName.toList =
      some (d.family.toList ++ (marker ++ qualifier d.config)) := by
    have hsuffix : ending.isSuffixOf
        (d.family.toList ++ (marker ++ qualifier d.config) ++ ending) = true :=
      List.isSuffixOf_iff_suffix.mpr (List.suffix_append _ _)
    rw [stem?, toList_fileName, if_pos hsuffix, List.length_append, Nat.add_sub_cancel,
      List.take_left]
  obtain ⟨c, stem, hcons⟩ : ∃ c stem,
      d.family.toList ++ (marker ++ qualifier d.config) = c :: stem :=
    List.exists_cons_of_ne_nil (by simp [marker_eq])
  rw [parse, hstem, hcons]

theorem family?_fileName (d : DescriptorName) : family? d.fileName =
    some (ofStem (d.family.toList ++ (marker ++ qualifier d.config))).family := by
  rw [family?, parse_fileName]
  rfl

theorem isName_fileName {d : DescriptorName} (hfamily : IsPart d.family)
    (hconfig : ∀ config ∈ d.config, IsPart config) : Path.IsName d.fileName := by
  have hlast : d.fileName.toList.getLast? = some 'l' := by
    rw [toList_fileName, List.getLast?_append]
    rfl
  have hother {text : String} (htext : text.toList.getLast? ≠ some 'l') : d.fileName ≠ text := by
    rintro rfl
    exact htext hlast
  refine ⟨hother (by decide), hother (by decide), hother (by decide), ?_⟩
  have hmarker : '/' ∉ marker := by decide
  have hending : '/' ∉ ending := by decide
  have hqualifier : '/' ∉ qualifier d.config := by
    cases hd : d.config with
    | none => simp [qualifier]
    | some config => simp [qualifier, (hconfig config hd).no_slash]
  simp [toList_fileName, hfamily.no_slash, hmarker, hending, hqualifier]

/-! ## Variants that belong together -/

/-- The variants of the family belong together: if there is a marker in the family itself, then the first
one has a text before it, and after it the family ends or goes on with a dash. -/
def HoldsTogether (family : String) : Prop :=
  family ≠ "" ∧ ∀ before after, family.toList = before ++ (marker ++ after) →
    ¬ marker <:+: before → before ≠ [] ∧ ∀ c rest, after = c :: rest → c = '-'

variable {family : String} {config config' : Option String}

/-- A stem whose first marker ends it, or has a dash and some text after it, gives the text before the
marker. -/
theorem family_ofStem {stem : List Char} (hsplit : splitFirst? marker stem = some (before, after))
    (hbefore : before ≠ []) (hafter : after = [] ∨ ∃ c rest, after = '-' :: c :: rest) :
    (ofStem stem).family = String.ofList before := by
  obtain ⟨c, rest, rfl⟩ := List.exists_cons_of_ne_nil hbefore
  rcases hafter with rfl | ⟨c', rest', rfl⟩
  · simp only [ofStem, hsplit]
  · simp only [ofStem, hsplit]

/-- Any other stem is a family as a whole. -/
theorem family_ofStem_whole {stem : List Char}
    (hsplit : splitFirst? marker stem = some (before, after))
    (h : before = [] ∨ ∃ c rest, after = c :: rest ∧ c ≠ '-') :
    (ofStem stem).family = String.ofList stem := by
  unfold ofStem
  rw [hsplit]
  split
  next heq =>
    cases heq
    simp at h
  next heq =>
    cases heq
    simp at h
  · rfl

/-- What a family that holds together is found as is the same for all variants. -/
theorem HoldsTogether.family?_eq (h : HoldsTogether family) : ∃ shared, ∀ config : Option String,
    (∀ q ∈ config, IsPart q) → family? (fileName ⟨family, config⟩) = some shared := by
  obtain ⟨hne, hfirst⟩ := h
  have hmarker : marker ≠ [] := by decide
  have hqualifier {config : Option String} (hconfig : ∀ q ∈ config, IsPart q) :
      qualifier config = [] ∨ ∃ c rest, qualifier config = '-' :: c :: rest := by
    cases config with
    | none => exact .inl rfl
    | some q =>
      obtain ⟨c, rest, hq⟩ : ∃ c rest, q.toList = c :: rest :=
        List.exists_cons_of_ne_nil (by simpa using (hconfig q rfl).ne_empty)
      exact .inr ⟨c, rest, by rw [qualifier, hq]⟩
  cases hsplit : splitFirst? marker family.toList with
  | none =>
    refine ⟨family, fun config hconfig => ?_⟩
    have hsplit' : splitFirst? marker (family.toList ++ (marker ++ qualifier config)) =
        some (family.toList, qualifier config) :=
      splitFirst?_append ((splitFirst?_eq_none_iff hmarker).mp hsplit)
    rw [family?_fileName, family_ofStem hsplit' (by simpa using hne) (hqualifier hconfig),
      String.ofList_toList]
  | some halves =>
    obtain ⟨before, after⟩ := halves
    obtain ⟨hfamily, hbefore⟩ := splitFirst?_eq_some hsplit
    obtain ⟨hsome, hdash⟩ := hfirst before after hfamily (hbefore hmarker)
    refine ⟨String.ofList before, fun config _ => ?_⟩
    have hsplit' : splitFirst? marker
        (before ++ (marker ++ (after ++ (marker ++ qualifier config)))) =
          some (before, after ++ (marker ++ qualifier config)) :=
      splitFirst?_append (hbefore hmarker)
    have hstem : family.toList ++ (marker ++ qualifier config) =
        before ++ (marker ++ (after ++ (marker ++ qualifier config))) := by
      rw [hfamily]
      simp only [List.append_assoc]
    -- Behind the marker in the family comes the rest of the family, or the marker of the variant.
    have hafter : ∃ c rest, after ++ (marker ++ qualifier config) = '-' :: c :: rest := by
      cases after with
      | nil => exact ⟨_, _, rfl⟩
      | cons d rest =>
        obtain rfl := hdash d rest rfl
        obtain ⟨c, rest', hrest⟩ : ∃ c rest', rest ++ (marker ++ qualifier config) = c :: rest' :=
          List.exists_cons_of_ne_nil (by simp [marker_eq])
        exact ⟨c, rest', by rw [List.cons_append, hrest]⟩
    rw [family?_fileName, hstem, family_ofStem hsplit' hsome (.inr hafter)]

/-- In a family that does not hold together, every variant is a family of its own. -/
theorem family?_of_not_holdsTogether (h : ¬ HoldsTogether family) (config : Option String) :
    family? (fileName ⟨family, config⟩) =
      some (String.ofList (family.toList ++ (marker ++ qualifier config))) := by
  have hwhole : ∃ before after, splitFirst? marker
      (family.toList ++ (marker ++ qualifier config)) = some (before, after) ∧
        (before = [] ∨ ∃ c rest, after = c :: rest ∧ c ≠ '-') := by
    by_cases hne : family = ""
    · refine ⟨[], qualifier config, ?_, .inl rfl⟩
      rw [hne]
      exact splitFirst?_append (by decide)
    · simp only [HoldsTogether, ne_eq, hne, not_false_eq_true, true_and, not_forall] at h
      obtain ⟨before, after, hfamily, hbefore, hstands⟩ := h
      refine ⟨before, after ++ (marker ++ qualifier config), ?_, ?_⟩
      · rw [hfamily, List.append_assoc, List.append_assoc]
        exact splitFirst?_append hbefore
      · by_cases hempty : before = []
        · exact .inl hempty
        · simp only [hempty, not_false_eq_true, true_and, not_forall] at hstands
          obtain ⟨c, rest, rfl, hc⟩ := hstands
          exact .inr ⟨c, _, List.cons_append, hc⟩
  obtain ⟨before, after, hsplit, hstands⟩ := hwhole
  rw [family?_fileName, family_ofStem_whole hsplit hstands]

theorem qualifier_inj (h : qualifier config = qualifier config') : config = config' := by
  cases config <;> cases config' <;> simp_all [qualifier, String.toList_inj]

/-- Two variants share a family exactly if they are the same or their family holds together. -/
theorem family?_fileName_eq_iff (hconfig : ∀ q ∈ config, IsPart q)
    (hconfig' : ∀ q ∈ config', IsPart q) :
    family? (fileName ⟨family, config⟩) = family? (fileName ⟨family, config'⟩) ↔
      config = config' ∨ HoldsTogether family := by
  constructor
  · intro hsame
    by_cases htogether : HoldsTogether family
    · exact .inr htogether
    · left
      rw [family?_of_not_holdsTogether htogether, family?_of_not_holdsTogether htogether,
        Option.some.injEq, String.ofList_inj] at hsame
      exact qualifier_inj (List.append_cancel_left (List.append_cancel_left hsame))
  · rintro (rfl | htogether)
    · rfl
    · obtain ⟨shared, hshared⟩ := htogether.family?_eq
      rw [hshared config hconfig, hshared config' hconfig']

end LayoutRebuild.DescriptorName
