import LayoutRebuild.Proofs.Path.Segments
import Mathlib.Data.List.DropRight

/-!
# The path above a name

What is above a path that ends in a name makes the steps that come before the name, and its text starts
the text of the path (`parent?_of_name`).  Only blank segments may be missing: they are cut off where
they would end the text.  So a name that is joined to a folder is an entry of the folder
(`isEntryOf_join`), however the folder is written.
-/

namespace LayoutRebuild.Path

variable {p q : Path} {name : String} {before : List String}

/-! ## Segments as text -/

theorem intercalate_segments (p : Path) : "/".intercalate p.segments = p.text := by
  have hpieces : p.segments.map String.toList = splitAt '/' p.text.toList := by
    simp [segments]
  rw [← String.toList_inj, String.toList_intercalate, hpieces]
  exact intercalate_splitAt _

/-- Texts without a slash are the segments of what they are joined to. -/
theorem segments_intercalate {segments : List String} (hne : segments ≠ [])
    (hslash : ∀ s ∈ segments, '/' ∉ s.toList) :
    (Path.mk ("/".intercalate segments)).segments = segments := by
  have hpieces : splitAt '/' ("/".intercalate segments).toList = segments.map String.toList := by
    rw [String.toList_intercalate]
    exact splitAt_intercalate (by simpa using hne) (by simpa using hslash)
  rw [Path.segments, hpieces]
  simp

theorem intercalate_initial {first second : List String} (h : first <+: second) :
    ("/".intercalate first).toList <+: ("/".intercalate second).toList := by
  obtain ⟨rest, rfl⟩ := h
  by_cases hfirst : first = []
  · rw [hfirst]
    exact List.nil_prefix
  · by_cases hrest : rest = []
    · simp only [hrest, List.append_nil, List.prefix_rfl]
    · rw [String.intercalate_append_of_ne_nil hfirst hrest, String.append_assoc, String.toList_append]
      exact List.prefix_append _ _

/-! ## Steps -/

/-- The segments that lead somewhere else. -/
def steps (segments : List String) : List String := segments.filter fun s => !isBlank s

theorem trimBlank_initial (segments : List String) : trimBlank segments <+: segments :=
  List.rdropWhile_prefix isBlank segments

theorem trimBlank_concat (h : isBlank name = false) :
    trimBlank (before ++ [name]) = before ++ [name] :=
  List.rdropWhile_concat_neg isBlank before name (by simp [h])

@[simp]
theorem steps_trimBlank (segments : List String) : steps (trimBlank segments) = steps segments := by
  induction segments using List.reverseRecOn with
  | nil => rfl
  | append_singleton init last ih =>
    cases hlast : isBlank last with
    | false => rw [trimBlank_concat hlast]
    | true =>
      have htrim : trimBlank (init ++ [last]) = trimBlank init :=
        List.rdropWhile_concat_pos isBlank init last hlast
      rw [htrim, ih]
      simp [steps, hlast]

/-- Without the blank ones at their end, the segments behind a slash begin those that were there, and
make the same steps. -/
theorem tail_trimBlank (l : List String) : (trimBlank ("" :: l)).tail <+: l ∧
    steps (trimBlank ("" :: l)).tail = steps ("" :: l) := by
  have hall := trimBlank_initial ("" :: l)
  rw [← steps_trimBlank ("" :: l)]
  cases htrim : trimBlank ("" :: l) with
  | nil => exact ⟨List.nil_prefix, rfl⟩
  | cons first rest =>
    rw [htrim, List.cons_prefix_cons] at hall
    obtain ⟨rfl, hrest⟩ := hall
    exact ⟨hrest, rfl⟩

theorem steps_segments_intercalate {segments : List String}
    (hslash : ∀ s ∈ segments, '/' ∉ s.toList) :
    steps (Path.mk ("/".intercalate segments)).segments = steps segments := by
  by_cases hne : segments = []
  · rw [hne]
    rfl
  · rw [segments_intercalate hne hslash]

/-! ## The path above -/

/-- A path that starts at the root is a slash and the text of another path. -/
theorem eq_slash_append (h : p.isAbsolute = true) :
    ∃ rest : Path, p.text = "/" ++ rest.text ∧ p.segments = "" :: rest.segments := by
  obtain ⟨rest, hrest⟩ := List.head?_eq_some_iff.mp (beq_iff_eq.mp h)
  refine ⟨⟨String.ofList rest⟩, ?_, ?_⟩
  · rw [← String.toList_inj, hrest]
    simp
  · rw [segments, hrest, splitAt, if_pos rfl]
    simp [segments]

theorem segments_slash_append (text : String) :
    (Path.mk ("/" ++ text)).segments = "" :: (Path.mk text).segments := by
  simp [segments, splitAt]

/-- The segments of a relative path without the blank ones at the end, but with a dot at the start. -/
def leading : List String → List String
  | "." :: rest => "." :: trimBlank rest
  | all => trimBlank all

theorem leading_initial (segments : List String) : leading segments <+: segments := by
  unfold leading
  split
  · exact List.cons_prefix_cons.mpr ⟨rfl, trimBlank_initial _⟩
  · exact trimBlank_initial segments

@[simp]
theorem steps_leading (segments : List String) : steps (leading segments) = steps segments := by
  unfold leading
  split
  · exact steps_trimBlank _
  · exact steps_trimBlank segments

/-- The path above one that ends in a name. -/
theorem parent?_eq (hname : IsName name) (hsegments : p.segments = before ++ [name]) :
    p.parent? = some ⟨if p.isAbsolute then "/" ++ "/".intercalate (trimBlank before).tail
      else "/".intercalate (leading before)⟩ := by
  have htrim (l : List String) : ∃ first rest, trimBlank (l ++ [name]) = first :: rest ∧
      (first :: rest).dropLast = l := by
    obtain ⟨first, rest, hcons⟩ := List.exists_cons_of_ne_nil (List.concat_ne_nil name l)
    refine ⟨first, rest, (trimBlank_concat hname.isBlank_eq).trans hcons, ?_⟩
    rw [← hcons, List.dropLast_concat]
  unfold parent?
  simp only [hsegments]
  split
  next habsolute =>
    obtain ⟨first, rest, hcons, hdrop⟩ := htrim before
    rw [hcons]
    simp only [hdrop]
  next hrelative =>
    split
    next rest hhere =>
      cases before with
      | nil => exact absurd (List.cons.inj hhere).1 hname.ne_here
      | cons first before' =>
        obtain ⟨rfl, rfl⟩ := List.cons.inj hhere
        obtain ⟨first, rest, hcons, hdrop⟩ := htrim before'
        rw [List.append_eq, hcons]
        simp only [hdrop, leading]
    next hother =>
      have hleading : leading before = trimBlank before := by
        unfold leading
        split
        next rest' => exact absurd rfl (hother (rest' ++ [name]))
        · rfl
      obtain ⟨first, rest, hcons, hdrop⟩ := htrim before
      simp only [hcons, hdrop, hleading]

/-- What is above a path that ends in a name makes the steps before the name, and its text starts the
text of the path. -/
theorem parent?_of_name (hname : IsName name) (hsegments : p.segments = before ++ [name])
    (h : p.parent? = some q) : q.text.toList <+: p.text.toList ∧ steps q.segments = steps before := by
  have hslash : ∀ s ∈ before, '/' ∉ s.toList := fun s hs =>
    no_slash_of_mem_segments (p := p) (hsegments ▸ List.mem_append_left _ hs)
  rw [parent?_eq hname hsegments, Option.some.injEq] at h
  split at h
  next habsolute =>
    obtain ⟨rest, htext, hrest⟩ := eq_slash_append habsolute
    -- The first segment is the empty one before the slash.
    obtain ⟨before', rfl, hrest'⟩ :
        ∃ before', before = "" :: before' ∧ rest.segments = before' ++ [name] := by
      cases before with
      | nil =>
        rw [hsegments] at hrest
        exact absurd (List.cons.inj hrest).1 hname.ne_empty
      | cons first before' =>
        rw [hrest, List.cons_append, List.cons.injEq] at hsegments
        exact ⟨before', by rw [hsegments.1], hsegments.2⟩
    obtain ⟨hinitial, hsteps⟩ := tail_trimBlank before'
    subst h
    constructor
    · have hjoined := intercalate_initial (hinitial.trans (List.prefix_append _ [name]))
      rw [← hrest', intercalate_segments] at hjoined
      rw [htext, String.toList_append, String.toList_append]
      exact (List.prefix_append_right_inj _).mpr hjoined
    · have hnext := steps_segments_intercalate fun s hs =>
        hslash s (List.mem_cons_of_mem _ (hinitial.subset hs))
      rw [segments_slash_append, ← hsteps, ← hnext]
      rfl
  next hrelative =>
    subst h
    have hinitial := leading_initial before
    constructor
    · rw [← intercalate_segments p, hsegments]
      exact intercalate_initial (hinitial.trans (List.prefix_append _ _))
    · rw [steps_segments_intercalate fun s hs => hslash s (hinitial.subset hs), steps_leading]

/-- A path and one whose text starts its text both start at the root, or none of them does. -/
theorem isAbsolute_of_initial (h : q.text.toList <+: p.text.toList) (hne : q.text ≠ "") :
    q.isAbsolute = p.isAbsolute := by
  obtain ⟨c, text, hcons⟩ : ∃ c text, q.text.toList = c :: text :=
    List.exists_cons_of_ne_nil (by simpa using hne)
  obtain ⟨rest, hrest⟩ := h
  rw [isAbsolute, isAbsolute, ← hrest, hcons]
  rfl

theorem filterMap_component?_steps (segments : List String) :
    (steps segments).filterMap component? = segments.filterMap component? := by
  rw [steps, List.filterMap_filter]
  refine List.filterMap_congr fun s _ => ?_
  cases hblank : isBlank s <;> simp [component?, hblank]

/-- What is left of the segments before a name starts with a dot if they do. -/
theorem head?_segments_leading (hslash : ∀ s ∈ before, '/' ∉ s.toList) (hname : name ≠ ".") :
    (Path.mk ("/".intercalate (leading before))).segments.head? = some "." ↔
      (before ++ [name]).head? = some "." := by
  have hinitial := leading_initial before
  cases hleading : leading before with
  | nil =>
    have hbefore : before.head? ≠ some "." := by
      intro hhead
      obtain ⟨rest, rfl⟩ := List.head?_eq_some_iff.mp hhead
      cases hleading
    have hblank : (Path.mk ("/".intercalate [])).segments.head? ≠ some "." := by decide
    refine iff_of_false hblank ?_
    cases before with
    | nil => simpa using hname
    | cons first rest => exact hbefore
  | cons first rest =>
    rw [hleading] at hinitial
    rw [segments_intercalate (by simp) fun s hs => hslash s (hinitial.subset hs)]
    obtain ⟨more, rfl⟩ := hinitial
    rfl

/-- The path above a name has all components but the name. -/
theorem components_of_parent? (hname : IsName name) (hsegments : p.segments = before ++ [name])
    (h : p.parent? = some q) : p.components = q.components ++ [.name name] := by
  obtain ⟨hinitial, hsteps⟩ := parent?_of_name hname hsegments h
  have hslash : ∀ s ∈ before, '/' ∉ s.toList := fun s hs =>
    no_slash_of_mem_segments (p := p) (hsegments ▸ List.mem_append_left _ hs)
  have hnames : q.segments.filterMap component? = before.filterMap component? := by
    rw [← filterMap_component?_steps, hsteps, filterMap_component?_steps]
  rw [parent?_eq hname hsegments, Option.some.injEq] at h
  rw [components_eq, components_eq, hsegments, List.filterMap_append, hnames, ← List.append_assoc]
  -- What is left are the components at the start: the root, or a dot.
  cases habsolute : p.isAbsolute with
  | true =>
    have hq : q.isAbsolute = true := by
      rw [← h, habsolute, isAbsolute]
      simp
    simp [hq, hname.component?_eq]
  | false =>
    rw [habsolute] at h
    have hq : q.isAbsolute = false := by
      by_cases hne : q.text = ""
      · rw [isAbsolute, hne]
        rfl
      · rw [isAbsolute_of_initial hinitial hne, habsolute]
    have hhead := head?_segments_leading hslash hname.ne_here
    rw [if_neg (by simp)] at h
    rw [h] at hhead
    simp [hq, hname.component?_eq, hhead]

/-! ## Entries of a folder -/

/-- The path leads from the folder to the name: it makes one step more, and what is above it makes the
steps of the folder. -/
structure IsEntryOf (p folder : Path) (name : String) : Prop where
  isName : IsName name
  components_eq : p.components = folder.components ++ [.name name]
  above : ∃ q, p.parent? = some q ∧ q.components = folder.components

theorem isEntryOf_join (folder : Path) (h : IsName name) : (folder.join name).IsEntryOf folder name := by
  obtain ⟨before, hsegments⟩ := segments_join folder h.no_slash
  have hcomponents := components_join folder h
  have hparent := parent?_eq h hsegments
  refine ⟨h, hcomponents, _, hparent, ?_⟩
  rw [components_of_parent? h hsegments hparent] at hcomponents
  exact List.append_cancel_right hcomponents

theorem IsEntryOf.ne_folder {folder : Path} (h : p.IsEntryOf folder name) : p ≠ folder := by
  rintro rfl
  simpa using h.components_eq

end LayoutRebuild.Path
