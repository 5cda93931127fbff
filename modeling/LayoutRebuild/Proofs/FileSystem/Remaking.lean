import LayoutRebuild.Proofs.FileSystem.Listing
import LayoutRebuild.Proofs.Path.Parent
import Mathlib.Data.List.TakeWhile

/-!
# Making folders that are there

A folder that has been made along with everything above it is there
(`isFolder_of_makeFolderBelow`), and to make a folder that is there changes nothing
(`makeFolderBelow_of_isFolder`).  So what has been made once can be made again after every change that
leaves folders alone (`makeFolders_again`).  Nor is there anything to make above what a path leads to
(`isFolder_above`).
-/

namespace LayoutRebuild.FileSystem

variable {fs fs' : FileSystem} {p : Path} {loc : Location}

theorem isFolder_iff : fs.isFolder p = true ↔
    ∃ loc, fs.locate p = .ok loc ∧ fs.node? loc = some .folder := by
  unfold isFolder lookup
  cases hloc : fs.locate p with
  | error fault => simp
  | ok loc =>
    cases hnode : fs.node? loc with
    | none => simp [hnode]
    | some node => cases node <;> simp [hnode]

theorem Keeps.isFolder {touched : Location → Prop} (h : Keeps touched fs fs')
    (hp : fs.isFolder p = true) : fs'.isFolder p = true := by
  obtain ⟨loc, hloc, hnode⟩ := isFolder_iff.mp hp
  exact isFolder_iff.mpr ⟨loc, h.locate hloc, h.folder loc hnode⟩

/-! ## Slashes at the end of a path -/

theorem segments_eq_named (p : Path) : ∃ slashes, p.segments = named p ++ slashes ∧
    ∀ segment ∈ slashes, segment = "" := by
  refine ⟨(p.segments.reverse.takeWhile (· == "")).reverse, ?_, ?_⟩
  · rw [named, ← List.reverse_append, List.takeWhile_append_dropWhile, List.reverse_reverse]
  · intro segment hsegment
    have hmem := List.mem_reverse.mp hsegment
    exact beq_iff_eq.mp (List.mem_takeWhile_imp (p := (· == "")) hmem)

/-- Slashes lead nowhere, and they stand behind a folder only. -/
theorem walk_slashes {slashes : List String} {start : Location}
    (hblank : ∀ segment ∈ slashes, segment = "") (hfolder : fs.node? start = some .folder) :
    fs.walk start slashes = .ok start := by
  induction slashes with
  | nil => rfl
  | cons segment rest ih =>
    obtain rfl := hblank segment List.mem_cons_self
    have hrest := ih fun s hs => hblank s (List.mem_cons_of_mem _ hs)
    rw [walk, requireFolder_eq_ok.mpr hfolder]
    exact hrest

theorem eq_of_walk_slashes {slashes : List String} {start : Location}
    (hblank : ∀ segment ∈ slashes, segment = "") (h : fs.walk start slashes = .ok loc) :
    loc = start := by
  induction slashes with
  | nil =>
    cases h
    rfl
  | cons segment rest ih =>
    obtain rfl := hblank segment List.mem_cons_self
    rw [walk] at h
    cases hf : fs.requireFolder start with
    | error e => simp [hf] at h
    | ok u =>
      rw [hf] at h
      exact ih (fun s hs => hblank s (List.mem_cons_of_mem _ hs)) h

/-- A folder is led to by the path that names it, whether or not a slash follows. -/
theorem locate_of_place_folder {slash : Bool} (h : fs.place p = .ok (.entry loc slash))
    (hfolder : fs.node? loc = some .folder) : fs.locate p = .ok loc := by
  obtain ⟨slashes, hsegments, hblank⟩ := segments_eq_named p
  refine locate_eq_ok.mpr ⟨(place_eq_entry_iff.mp h).checkText_eq, ?_⟩
  rw [hsegments]
  exact walk_append_eq_ok.mpr ⟨loc, walk_named h, walk_slashes hblank hfolder⟩

/-- A path that leads somewhere ends in a step that is no name, or names what it leads to. -/
theorem place_of_locate (h : fs.locate p = .ok loc) :
    fs.place p = .ok .standing ∨ ∃ slash, fs.place p = .ok (.entry loc slash) := by
  obtain ⟨hcheck, hwalk⟩ := locate_eq_ok.mp h
  obtain ⟨slashes, hsegments, hblank⟩ := segments_eq_named p
  rw [hsegments] at hwalk
  obtain ⟨mid, hnamed, hslashes⟩ := walk_append_eq_ok.mp hwalk
  obtain rfl := eq_of_walk_slashes hblank hslashes
  cases hlast : (named p).getLast? with
  | none =>
    left
    have hlast' : (p.segments.reverse.dropWhile (· == "")).reverse.getLast? = none := hlast
    unfold place
    simp only [hcheck, hlast']
  | some last =>
    obtain ⟨before, hbefore⟩ := List.getLast?_eq_some_iff.mp hlast
    rw [hbefore] at hnamed
    obtain ⟨folder, hfolder, hstep⟩ := walk_append_eq_ok.mp hnamed
    have hrequire : fs.requireFolder folder = .ok () := by
      rw [walk] at hstep
      cases hf : fs.requireFolder folder with
      | error e => simp [hf] at hstep
      | ok u => rfl
    by_cases hdot : last = "." ∨ last = ".."
    · left
      have hlast' : (p.segments.reverse.dropWhile (· == "")).reverse = before ++ [last] := hbefore
      unfold place
      simp only [hcheck, hlast', List.getLast?_concat, List.dropLast_concat, hfolder, hrequire,
        if_pos hdot]
    · right
      rw [not_or] at hdot
      obtain ⟨-, hlong, rfl⟩ :=
        (walk_name (isBlank_eq_false (named_ne_empty hlast) hdot.1) hdot.2).mp hstep
      refine ⟨_, place_eq_entry_iff.mpr ⟨hcheck, ⟨folder, last, hlast, ?_, hrequire, hdot.1, hdot.2,
        hlong, rfl⟩, rfl⟩⟩
      rwa [hbefore, List.dropLast_concat]

/-! ## Folders that are there -/

theorem makeFolder_of_isFolder (h : fs.isFolder p = true) :
    fs.makeFolder p = .error .alreadyExists := by
  obtain ⟨loc, hloc, hnode⟩ := isFolder_iff.mp h
  unfold makeFolder
  rcases place_of_locate hloc with hstanding | ⟨slash, hplace⟩
  · rw [hstanding]
  · simp only [hplace, hnode]

theorem isFolder_of_makeFolder (h : fs.makeFolder p = .ok fs') : fs'.isFolder p = true := by
  have hkeeps := makeFolder_keeps h
  obtain ⟨loc, slash, hplace, -, rfl⟩ := makeFolder_eq_ok h
  have hfolder : (fs.setNode loc .folder).node? loc = some .folder := by
    rw [node?_setNode (ne_nil_of_place hplace), if_pos rfl]
  exact isFolder_iff.mpr ⟨loc, locate_of_place_folder (hkeeps.place hplace) hfolder, hfolder⟩

/-- A folder that has been made along with those above it is there.  For a path without components none
is made. -/
theorem isFolder_of_makeFolderBelow {above : List Path}
    (h : fs.makeFolderBelow (p :: above) = (fs', .ok ())) :
    p.components.isEmpty = true ∨ fs'.isFolder p = true := by
  unfold makeFolderBelow at h
  split at h
  next hempty => exact .inl hempty
  · right
    split at h
    next made hmade =>
      cases h
      exact isFolder_of_makeFolder hmade
    · split at h
      · cases h
      next half hhalf =>
        split at h
        next made hmade =>
          cases h
          exact isFolder_of_makeFolder hmade
        · split_ifs at h with hthere
          · cases h
            exact hthere
          · cases h
    · split_ifs at h with hthere
      · cases h
        exact hthere
      · cases h

theorem makeFolderBelow_of_isFolder {above : List Path}
    (h : p.components.isEmpty = true ∨ fs.isFolder p = true) :
    fs.makeFolderBelow (p :: above) = (fs, .ok ()) := by
  unfold makeFolderBelow
  split
  · rfl
  next hnonempty =>
    have hthere := h.resolve_left hnonempty
    simp only [makeFolder_of_isFolder hthere, hthere, if_true]

theorem ancestry_eq_cons (p : Path) (n : Nat) : ∃ above, ancestry p (n + 1) = p :: above := by
  rw [ancestry]
  split
  · exact ⟨_, rfl⟩
  · exact ⟨[], rfl⟩

/-- What has been made once can be made again, and nothing is changed by it. -/
theorem makeFolders_again {touched : Location → Prop} {made : FileSystem}
    (h : fs.makeFolders p = (made, .ok ())) (hkeeps : Keeps touched made fs') :
    fs'.makeFolders p = (fs', .ok ()) := by
  obtain ⟨above, habove⟩ := ancestry_eq_cons p p.components.length
  rw [makeFolders, habove] at h ⊢
  apply makeFolderBelow_of_isFolder
  exact (isFolder_of_makeFolderBelow h).imp_right hkeeps.isFolder

/-! ## The folder above -/

/-- A walk to a folder starts from a folder. -/
theorem requireFolder_of_walk {segments : List String} {start : Location}
    (h : fs.walk start segments = .ok loc) (hfolder : fs.node? loc = some .folder) :
    fs.requireFolder start = .ok () := by
  cases segments with
  | nil =>
    cases h
    exact requireFolder_eq_ok.mpr hfolder
  | cons segment rest =>
    rw [walk] at h
    cases hf : fs.requireFolder start with
    | error e => simp [hf] at h
    | ok u => rfl

/-- Blank segments do not matter on the way to a folder. -/
theorem walk_steps {segments : List String} {start : Location}
    (hfolder : fs.node? loc = some .folder) :
    fs.walk start (Path.steps segments) = .ok loc ↔ fs.walk start segments = .ok loc := by
  induction segments generalizing start with
  | nil => rfl
  | cons segment rest ih =>
    cases hblank : Path.isBlank segment with
    | true =>
      have hsteps : Path.steps (segment :: rest) = Path.steps rest := by
        simp [Path.steps, hblank]
      rw [hsteps, ih, walk]
      simp only [hblank, if_true]
      constructor
      · intro h
        rw [requireFolder_of_walk h hfolder]
        exact h
      · intro h
        cases hf : fs.requireFolder start with
        | error e => simp [hf] at h
        | ok u => simpa [hf] using h
    | false =>
      have hsteps : Path.steps (segment :: rest) = segment :: Path.steps rest := by
        simp [Path.steps, hblank]
      rw [hsteps, walk, walk]
      cases fs.requireFolder start with
      | error e => rfl
      | ok u =>
        simp only [hblank, Bool.false_eq_true, if_false]
        split_ifs
        · exact ih
        · rfl
        · exact ih

/-- What is above a name that leads somewhere is a folder. -/
theorem isFolder_above {above : Path} {name : String} {before : List String}
    (hname : Path.IsName name) (hsegments : p.segments = before ++ [name])
    (hloc : fs.locate p = .ok loc) (habove : p.parent? = some above) (hne : above.text ≠ "") :
    fs.isFolder above = true := by
  obtain ⟨hinitial, hsteps⟩ := Path.parent?_of_name hname hsegments habove
  obtain ⟨hcheck, hwalk⟩ := locate_eq_ok.mp hloc
  rw [hsegments] at hwalk
  obtain ⟨folder, hfolder, hstep⟩ := walk_append_eq_ok.mp hwalk
  have hnode := requireFolder_eq_ok.mp ((walk_name hname.isBlank_eq hname.ne_up).mp hstep).1
  have hstart : fs.start above = fs.start p := by
    rw [start, start, Path.isAbsolute_of_initial hinitial hne]
  refine isFolder_iff.mpr
    ⟨folder, locate_eq_ok.mpr ⟨checkText_of_initial hinitial hne hcheck, ?_⟩, hnode⟩
  rw [hstart, ← walk_steps hnode, hsteps, walk_steps hnode]
  exact hfolder

end LayoutRebuild.FileSystem
