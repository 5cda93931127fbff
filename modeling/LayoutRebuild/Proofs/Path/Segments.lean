import LayoutRebuild.Path

/-!
# The last segment of a path

A text is cut at its separators, and the pieces can be put together again (`intercalate_splitAt`,
`splitAt_intercalate`).  What is joined to a folder as one name is the last segment of the path
(`segments_join`) and therefore one more component (`components_join`), whatever the folder is.  A text
that is joined with slashes in it still ends the last segment (`segments_join_append`).
-/

namespace LayoutRebuild

/-! ## Pieces between separators -/

variable {separator : Char}

theorem splitAt_ne_nil (text : List Char) : splitAt separator text ≠ [] := by
  cases text with
  | nil => simp [splitAt]
  | cons c rest =>
    rw [splitAt]
    split
    · simp
    · split <;> simp

theorem splitAt_cons_of_ne {c : Char} {rest piece : List Char} {pieces : List (List Char)}
    (hc : c ≠ separator) (h : splitAt separator rest = piece :: pieces) :
    splitAt separator (c :: rest) = (c :: piece) :: pieces := by
  rw [splitAt, if_neg hc, h]

theorem splitAt_of_not_mem {text : List Char} (h : separator ∉ text) :
    splitAt separator text = [text] := by
  induction text with
  | nil => rfl
  | cons c rest ih =>
    rw [List.mem_cons, not_or] at h
    obtain ⟨hc, hrest⟩ := h
    exact splitAt_cons_of_ne (Ne.symm hc) (ih hrest)

/-- A separator ends one piece and starts the next. -/
theorem splitAt_append (first second : List Char) :
    splitAt separator (first ++ separator :: second) =
      splitAt separator first ++ splitAt separator second := by
  induction first with
  | nil => simp [splitAt]
  | cons c rest ih =>
    rw [List.cons_append]
    by_cases hc : c = separator
    · rw [splitAt, splitAt, if_pos hc, if_pos hc, ih, List.cons_append]
    · obtain ⟨piece, pieces, hrest⟩ := List.exists_cons_of_ne_nil (splitAt_ne_nil rest)
      rw [splitAt_cons_of_ne hc hrest]
      rw [hrest, List.cons_append] at ih
      exact splitAt_cons_of_ne hc ih

/-- No piece has a separator in it. -/
theorem not_mem_of_mem_splitAt {text piece : List Char} (h : piece ∈ splitAt separator text) :
    separator ∉ piece := by
  induction text generalizing piece with
  | nil =>
    rw [splitAt, List.mem_singleton] at h
    simp [h]
  | cons c rest ih =>
    obtain ⟨first, pieces, hrest⟩ := List.exists_cons_of_ne_nil (splitAt_ne_nil rest)
    by_cases hc : c = separator
    · rw [splitAt, if_pos hc] at h
      rcases List.mem_cons.mp h with rfl | h
      · simp
      · exact ih h
    · rw [splitAt_cons_of_ne hc hrest] at h
      rcases List.mem_cons.mp h with rfl | h
      · have hfirst : separator ∉ first := ih (by simp [hrest])
        simp [Ne.symm hc, hfirst]
      · exact ih (by simp [hrest, h])

/-- A text without separators is the end of the last piece of every text that it ends. -/
theorem splitAt_append_of_not_mem {tail : List Char} (h : separator ∉ tail) (text : List Char) :
    ∃ pieces last, splitAt separator (text ++ tail) = pieces ++ [last ++ tail] := by
  induction text with
  | nil => exact ⟨[], [], splitAt_of_not_mem h⟩
  | cons c rest ih =>
    obtain ⟨pieces, last, hrest⟩ := ih
    rw [List.cons_append]
    by_cases hc : c = separator
    · refine ⟨[] :: pieces, last, ?_⟩
      rw [splitAt, if_pos hc, hrest, List.cons_append]
    · cases pieces with
      | nil => exact ⟨[], c :: last, splitAt_cons_of_ne hc hrest⟩
      | cons piece pieces => exact ⟨(c :: piece) :: pieces, last, splitAt_cons_of_ne hc hrest⟩

/-- A text is its pieces with separators between them. -/
theorem intercalate_splitAt (text : List Char) :
    [separator].intercalate (splitAt separator text) = text := by
  induction text with
  | nil => rfl
  | cons c rest ih =>
    obtain ⟨piece, pieces, hrest⟩ : ∃ piece pieces, splitAt separator rest = piece :: pieces :=
      List.exists_cons_of_ne_nil (splitAt_ne_nil rest)
    by_cases hc : c = separator
    · rw [splitAt, if_pos hc, hc, hrest, List.intercalate_cons_cons, ← hrest, ih]
      rfl
    · rw [splitAt_cons_of_ne hc hrest]
      rw [hrest] at ih
      cases pieces with
      | nil => simpa using ih
      | cons next pieces =>
        rw [List.intercalate_cons_cons] at ih ⊢
        rw [← ih]
        rfl

/-- Texts without separators are the pieces of the text that has separators between them. -/
theorem splitAt_intercalate {pieces : List (List Char)} (hne : pieces ≠ [])
    (h : ∀ piece ∈ pieces, separator ∉ piece) :
    splitAt separator ([separator].intercalate pieces) = pieces := by
  induction pieces with
  | nil => exact absurd rfl hne
  | cons piece rest ih =>
    have hpiece := splitAt_of_not_mem (h piece List.mem_cons_self)
    cases rest with
    | nil => simpa using hpiece
    | cons next rest =>
      have hrest := ih (by simp) fun other hother => h other (List.mem_cons_of_mem _ hother)
      rw [List.intercalate_cons_cons, List.append_assoc, List.singleton_append, splitAt_append,
        hpiece, hrest]
      rfl

theorem eq_or_mem_of_mem_intercalate {c : Char} {pieces : List (List Char)}
    (h : c ∈ [separator].intercalate pieces) : c = separator ∨ ∃ piece ∈ pieces, c ∈ piece := by
  induction pieces with
  | nil => cases h
  | cons piece rest ih =>
    cases rest with
    | nil => exact .inr ⟨piece, List.mem_cons_self, by simpa using h⟩
    | cons next rest =>
      rw [List.intercalate_cons_cons, List.append_assoc, List.singleton_append, List.mem_append,
        List.mem_cons] at h
      rcases h with h | rfl | h
      · exact .inr ⟨piece, List.mem_cons_self, h⟩
      · exact .inl rfl
      · exact (ih h).imp_right fun ⟨other, hother, hc⟩ => ⟨other, List.mem_cons_of_mem _ hother, hc⟩

namespace Path

/-! ## Names -/

/-- A text that can be the name of an entry: one segment of a path, and no step that leads
elsewhere. -/
structure IsName (name : String) : Prop where
  ne_empty : name ≠ ""
  ne_here : name ≠ "."
  ne_up : name ≠ ".."
  no_slash : '/' ∉ name.toList

instance (name : String) : Decidable (IsName name) :=
  decidable_of_iff (name ≠ "" ∧ name ≠ "." ∧ name ≠ ".." ∧ '/' ∉ name.toList)
    ⟨fun h => ⟨h.1, h.2.1, h.2.2.1, h.2.2.2⟩, fun h => ⟨h.1, h.2, h.3, h.4⟩⟩

theorem IsName.isBlank_eq {name : String} (h : IsName name) : isBlank name = false := by
  simp [isBlank, h.ne_empty, h.ne_here]

theorem IsName.component?_eq {name : String} (h : IsName name) :
    component? name = some (.name name) := by
  simp [component?, h.isBlank_eq, h.ne_up]

theorem isName_of_component? {segment name : String} (hslash : '/' ∉ segment.toList)
    (h : component? segment = some (.name name)) : IsName name := by
  unfold component? at h
  split at h
  · cases h
  next hblank =>
    split at h
    · cases h
    next hup =>
      cases h
      simp only [isBlank, Bool.or_eq_true, beq_iff_eq, not_or] at hblank
      exact ⟨hblank.1, hblank.2, hup, hslash⟩

theorem no_slash_of_mem_segments {p : Path} {segment : String} (h : segment ∈ p.segments) :
    '/' ∉ segment.toList := by
  obtain ⟨piece, hpiece, rfl⟩ := List.mem_map.mp h
  rw [String.toList_ofList]
  exact not_mem_of_mem_splitAt hpiece

/-- A step to the root, or a dot at the start, comes before the components of the segments. -/
theorem components_eq (p : Path) :
    p.components = (if p.isAbsolute then [.root]
        else if p.segments.head? = some "." then [.here] else []) ++
      p.segments.filterMap component? := by
  unfold components
  split
  · rfl
  · split
    next heq => simp [heq, component?, isBlank]
    next hother =>
      rw [if_neg, List.nil_append]
      intro hhead
      obtain ⟨rest, heq⟩ := List.head?_eq_some_iff.mp hhead
      exact hother rest heq

/-- Every component but the special ones at the start comes from a segment. -/
theorem mem_components {p : Path} {name : String} (h : .name name ∈ p.components) :
    ∃ segment ∈ p.segments, component? segment = some (.name name) := by
  rw [components_eq, List.mem_append] at h
  rcases h with h | h
  · split at h
    · simp at h
    · split at h <;> simp at h
  · exact List.mem_filterMap.mp h

theorem isName_of_fileName? {p : Path} {name : String} (h : p.fileName? = some name) :
    IsName name := by
  have hmem : .name name ∈ p.components := by
    unfold fileName? at h
    split at h
    next text hlast =>
      cases h
      exact List.mem_of_getLast? hlast
    · cases h
  obtain ⟨segment, hsegment, hname⟩ := mem_components hmem
  exact isName_of_component? (no_slash_of_mem_segments hsegment) hname

/-! ## Joining -/

/-- What is joined to a folder ends the path. -/
theorem text_join (folder : Path) (text : String) :
    ∃ before, (folder.join text).text.toList = before ++ text.toList := by
  unfold join
  split
  · exact ⟨[], rfl⟩
  · split
    · exact ⟨folder.text.toList, by simp⟩
    · exact ⟨folder.text.toList ++ ['/'], by simp⟩

theorem isAbsolute_of_no_slash {name : String} (h : '/' ∉ name.toList) :
    (Path.mk name).isAbsolute = false := by
  rw [isAbsolute, beq_eq_false_iff_ne]
  intro hhead
  exact h (List.mem_of_mem_head? hhead)

/-- One name that is joined to a folder stands alone or after one slash. -/
theorem text_join_name (folder : Path) {name : String} (h : '/' ∉ name.toList) :
    (folder.text = "" ∧ (folder.join name).text.toList = name.toList) ∨
      (∃ before, folder.text.toList = before ++ ['/'] ∧
        (folder.join name).text.toList = before ++ '/' :: name.toList) ∨
      (folder.text ≠ "" ∧ (folder.join name).text.toList =
        folder.text.toList ++ '/' :: name.toList) := by
  unfold join
  rw [isAbsolute_of_no_slash h, if_neg (by simp)]
  split
  next hend =>
    rcases Bool.or_eq_true_iff.mp hend with hempty | hslash
    · left
      have htext : folder.text = "" := String.isEmpty_iff.mp hempty
      exact ⟨htext, by simp [htext]⟩
    · right
      left
      obtain ⟨before, hbefore⟩ := List.getLast?_eq_some_iff.mp (beq_iff_eq.mp hslash)
      exact ⟨before, hbefore, by simp [hbefore]⟩
  next hend =>
    right
    right
    rw [Bool.or_eq_true, not_or, String.isEmpty_iff] at hend
    exact ⟨hend.1, by simp⟩

/-- The text of a folder starts the text of every path to a name in it. -/
theorem text_join_eq (folder : Path) {name : String} (h : '/' ∉ name.toList) :
    ∃ rest, (folder.join name).text = folder.text ++ rest := by
  unfold join
  rw [isAbsolute_of_no_slash h, if_neg (by simp)]
  split
  · exact ⟨name, rfl⟩
  · exact ⟨"/" ++ name, String.append_assoc⟩

/-- A name that is joined to a folder is the last segment. -/
theorem segments_join (folder : Path) {name : String} (h : '/' ∉ name.toList) :
    ∃ before, (folder.join name).segments = before ++ [name] := by
  have hslash (before : List Char) (htext : (folder.join name).text.toList =
      before ++ '/' :: name.toList) : ∃ before, (folder.join name).segments = before ++ [name] := by
    refine ⟨(splitAt '/' before).map String.ofList, ?_⟩
    rw [segments, htext, splitAt_append, splitAt_of_not_mem h]
    simp
  rcases text_join_name folder h with ⟨-, htext⟩ | ⟨before, -, htext⟩ | ⟨-, htext⟩
  · refine ⟨[], ?_⟩
    rw [segments, htext, splitAt_of_not_mem h]
    simp
  · exact hslash before htext
  · exact hslash _ htext

/-- The segments before a joined name are those of the folder, but for a slash at its end. -/
theorem segments_folder_of_join {folder : Path} {name : String} {before : List String}
    (hfolder : folder.text ≠ "") (h : '/' ∉ name.toList)
    (hsegments : (folder.join name).segments = before ++ [name]) :
    (folder.segments = before ∨ folder.segments = before ++ [""]) ∧
      (folder.join name).isAbsolute = folder.isAbsolute := by
  rcases text_join_name folder h with ⟨hempty, -⟩ | ⟨text, hend, htext⟩ | ⟨-, htext⟩
  · exact absurd hempty hfolder
  · have hbefore : before = (splitAt '/' text).map String.ofList := by
      rw [segments, htext, splitAt_append, splitAt_of_not_mem h, List.map_append] at hsegments
      exact (List.append_inj_left' hsegments rfl).symm
    refine ⟨.inr ?_, ?_⟩
    · rw [segments, hend, splitAt_append, List.map_append, ← hbefore]
      rfl
    · rw [isAbsolute, isAbsolute, htext, hend]
      simp
  · have hbefore : before = folder.segments := by
      rw [segments, htext, splitAt_append, splitAt_of_not_mem h, List.map_append] at hsegments
      exact (List.append_inj_left' hsegments rfl).symm
    refine ⟨.inl hbefore.symm, ?_⟩
    obtain ⟨c, rest, hcons⟩ : ∃ c rest, folder.text.toList = c :: rest :=
      List.exists_cons_of_ne_nil (by simpa using hfolder)
    rw [isAbsolute, isAbsolute, htext, hcons]
    rfl

/-- The end of what is joined to a folder, up to its last slash, ends the last segment. -/
theorem segments_join_append (folder : Path) (text : String) {tail : String}
    (h : '/' ∉ tail.toList) :
    ∃ before last, (folder.join (text ++ tail)).segments = before ++ [last] ∧
      tail.toList <:+ last.toList := by
  obtain ⟨before, htext⟩ := text_join folder (text ++ tail)
  rw [String.toList_append, ← List.append_assoc] at htext
  obtain ⟨pieces, last, hpieces⟩ := splitAt_append_of_not_mem h (before ++ text.toList)
  refine ⟨pieces.map String.ofList, String.ofList (last ++ tail.toList), ?_, ?_⟩
  · rw [segments, htext, hpieces]
    simp
  · rw [String.toList_ofList]
    exact List.suffix_append last tail.toList

/-- A name that is joined to a folder adds no segment but itself. -/
theorem mem_segments_join {folder : Path} {name segment : String} (h : '/' ∉ name.toList)
    (hmem : segment ∈ (folder.join name).segments) : segment ∈ folder.segments ∨ segment = name := by
  obtain ⟨before, hsegments⟩ := segments_join folder h
  rw [hsegments, List.mem_append, List.mem_singleton] at hmem
  refine hmem.imp_left fun hbefore => ?_
  by_cases hfolder : folder.text = ""
  · rcases text_join_name folder h with ⟨-, htext⟩ | ⟨text, hend, -⟩ | ⟨hne, -⟩
    · rw [segments, htext, splitAt_of_not_mem h] at hsegments
      have hlength := congrArg List.length hsegments
      simp only [List.map_cons, List.map_nil, List.length_cons, List.length_nil,
        List.length_append] at hlength
      have hempty : before = [] := List.eq_nil_of_length_eq_zero (by omega)
      rw [hempty] at hbefore
      cases hbefore
    · simp [hfolder] at hend
    · exact absurd hfolder hne
  · rcases (segments_folder_of_join hfolder h hsegments).1 with heq | heq
    · rwa [heq]
    · simp [heq, hbefore]

/-- Every step up of a path is one of its components. -/
theorem up_not_mem_segments {p : Path} (h : .up ∉ p.components) : ".." ∉ p.segments := by
  intro hup
  apply h
  rw [components_eq]
  exact List.mem_append_right _ (List.mem_filterMap.mpr ⟨"..", hup, by decide⟩)

/-- A name that is joined to a folder makes no step up. -/
theorem up_not_mem_segments_join {folder : Path} {name : String} (h : IsName name)
    (hfolder : ".." ∉ folder.segments) : ".." ∉ (folder.join name).segments := by
  intro hup
  rcases mem_segments_join h.no_slash hup with hmem | heq
  · exact hfolder hmem
  · exact h.ne_up heq.symm

/-- Only a path without text is one segment without text. -/
theorem segments_ne_blank {p : Path} (h : p.text ≠ "") : p.segments ≠ [""] := by
  intro hsegments
  obtain ⟨c, rest, hcons⟩ : ∃ c rest, p.text.toList = c :: rest :=
    List.exists_cons_of_ne_nil (by simpa using h)
  obtain ⟨piece, pieces, hrest⟩ : ∃ piece pieces, splitAt '/' rest = piece :: pieces :=
    List.exists_cons_of_ne_nil (splitAt_ne_nil rest)
  by_cases hc : c = '/'
  · have hlength := congrArg List.length hsegments
    rw [segments, hcons, splitAt, if_pos hc, hrest] at hlength
    simp at hlength
  · rw [segments, hcons, splitAt_cons_of_ne hc hrest] at hsegments
    simp at hsegments

/-- A name that is joined to a folder is one more component. -/
theorem components_join (folder : Path) {name : String} (h : IsName name) :
    (folder.join name).components = folder.components ++ [.name name] := by
  obtain ⟨before, hsegments⟩ := segments_join folder h.no_slash
  by_cases hfolder : folder.text = ""
  · obtain ⟨text⟩ := folder
    obtain rfl : text = "" := hfolder
    have hjoin : (Path.mk "").join name = ⟨name⟩ := by
      simp [join, isAbsolute_of_no_slash h.no_slash]
    have hname : (Path.mk name).segments = [name] := by
      simp [segments, splitAt_of_not_mem h.no_slash]
    have hempty : (Path.mk "").components = [] := by decide
    rw [hjoin, hempty, components_eq, hname, isAbsolute_of_no_slash h.no_slash]
    simp [h.ne_here, h.component?_eq]
  · obtain ⟨hbefore, habsolute⟩ := segments_folder_of_join hfolder h.no_slash hsegments
    have hhead : (before ++ [name]).head? = before.head? := by
      cases before with
      | nil =>
        rcases hbefore with heq | heq
        · simp [segments, splitAt_ne_nil] at heq
        · exact absurd heq (segments_ne_blank hfolder)
      | cons first rest => rfl
    have hfolderHead : folder.segments.head? = before.head? := by
      rcases hbefore with heq | heq
      · rw [heq]
      · cases before with
        | nil => exact absurd heq (segments_ne_blank hfolder)
        | cons first rest => rw [heq]; rfl
    have hnames : folder.segments.filterMap component? = before.filterMap component? := by
      rcases hbefore with heq | heq
      · rw [heq]
      · simp [heq, component?, isBlank]
    rw [components_eq, components_eq, habsolute, hsegments, hhead, hfolderHead, hnames,
      List.filterMap_append, ← List.append_assoc]
    simp [h.component?_eq]

/-- A name that is joined to a folder is the file name. -/
theorem fileName?_join (folder : Path) {name : String} (h : IsName name) :
    (folder.join name).fileName? = some name := by
  rw [fileName?, components_join folder h, List.getLast?_concat]

theorem fileName?_congr {p q : Path} (h : p.components = q.components) :
    p.fileName? = q.fileName? := by
  rw [fileName?, fileName?, h]

/-- Names in one folder that lead to one place are one name. -/
theorem join_inj_of_components {folder : Path} {name name' : String} (h : IsName name)
    (h' : IsName name')
    (heq : (folder.join name).components = (folder.join name').components) : name = name' := by
  have hname := fileName?_congr heq
  rwa [fileName?_join folder h, fileName?_join folder h', Option.some.injEq] at hname

theorem join_inj {folder : Path} {name name' : String} (h : IsName name) (h' : IsName name')
    (heq : folder.join name = folder.join name') : name = name' :=
  join_inj_of_components h h' (by rw [heq])

end Path

end LayoutRebuild
