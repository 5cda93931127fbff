import LayoutRebuild.FileSystem.Edit
import LayoutRebuild.Table.Lemmas
import Mathlib.Tactic.SplitIfs

/-!
# What a change of the file system leaves alone

Every operation leaves a folder a folder and touches at most the one file that its path names
(`Keeps`).  A path that led somewhere therefore still leads there afterwards, through the same
folders, so a file that was written is read back under the path it was written to
(`read_writeFile`), and a file that was not named is read as before (`Keeps.read`).  What a write leaves
that has failed is no exception: nothing has been written, or the first bytes have been
(`breakOff_cases`).
-/

namespace LayoutRebuild.FileSystem

variable {fs fs' fs'' : FileSystem} {p : Path} {loc : Location}

/-! ## Nodes -/

theorem requireFolder_eq_ok : fs.requireFolder loc = .ok () ↔ fs.node? loc = some .folder := by
  unfold requireFolder
  cases h : fs.node? loc with
  | none => simp
  | some node => cases node <;> simp

theorem node?_of_ne_nil (h : loc ≠ []) : fs.node? loc = fs.nodes.get? loc := by
  cases loc with
  | nil => exact absurd rfl h
  | cons name rest => rfl

theorem node?_setNode (h : loc ≠ []) (node : Node) (l : Location) :
    (fs.setNode loc node).node? l = if l = loc then some node else fs.node? l := by
  cases l with
  | nil => simp [node?, h.symm]
  | cons name rest => simp [node?, setNode, Table.get?_insert]

theorem node?_dropNode (h : loc ≠ []) (l : Location) :
    (fs.dropNode loc).node? l = if l = loc then none else fs.node? l := by
  cases l with
  | nil => simp [node?, h.symm]
  | cons name rest => simp [node?, dropNode, Table.get?_erase]

/-! ## Keeping -/

/-- The change from `fs` to `fs'` leaves every folder a folder, and it leaves every file as it was
except those at `touched`. -/
structure Keeps (touched : Location → Prop) (fs fs' : FileSystem) : Prop where
  workingFolder_eq : fs'.workingFolder = fs.workingFolder
  stops_eq : fs'.stops = fs.stops
  folder : ∀ l, fs.node? l = some .folder → fs'.node? l = some .folder
  file : ∀ l content, ¬ touched l → fs.node? l = some (.file content) →
    fs'.node? l = some (.file content)

namespace Keeps

variable {touched touched' : Location → Prop}

theorem refl (fs : FileSystem) : Keeps touched fs fs :=
  ⟨rfl, rfl, fun _ h => h, fun _ _ _ h => h⟩

theorem trans (h : Keeps touched fs fs') (h' : Keeps touched fs' fs'') : Keeps touched fs fs'' where
  workingFolder_eq := h'.workingFolder_eq.trans h.workingFolder_eq
  stops_eq := h'.stops_eq.trans h.stops_eq
  folder l hl := h'.folder l (h.folder l hl)
  file l content ht hl := h'.file l content ht (h.file l content ht hl)

theorem mono (h : Keeps touched fs fs') (hsub : ∀ l, touched l → touched' l) :
    Keeps touched' fs fs' :=
  ⟨h.workingFolder_eq, h.stops_eq, h.folder,
    fun l content ht => h.file l content fun h => ht (hsub l h)⟩

theorem requireFolder (h : Keeps touched fs fs') (hl : fs.requireFolder loc = .ok ()) :
    fs'.requireFolder loc = .ok () :=
  requireFolder_eq_ok.mpr (h.folder loc (requireFolder_eq_ok.mp hl))

/-- A walk stands in folders only, so it ends where it ended before. -/
theorem walk (h : Keeps touched fs fs') (segments : List String) {start : Location}
    (hw : fs.walk start segments = .ok loc) : fs'.walk start segments = .ok loc := by
  induction segments generalizing start with
  | nil => exact hw
  | cons segment rest ih =>
    rw [FileSystem.walk] at hw ⊢
    cases hf : fs.requireFolder start with
    | error e => simp [hf] at hw
    | ok u =>
      simp only [hf, h.requireFolder hf] at hw ⊢
      split_ifs at hw ⊢ with hblank hup hlong
      · exact ih hw
      · exact ih hw
      · exact ih hw

theorem start_eq (h : Keeps touched fs fs') (p : Path) : fs'.start p = fs.start p := by
  rw [start, start, h.workingFolder_eq]

theorem locate (h : Keeps touched fs fs') (hl : fs.locate p = .ok loc) :
    fs'.locate p = .ok loc := by
  unfold FileSystem.locate at hl ⊢
  cases hc : checkText p with
  | error e => simp [hc] at hl
  | ok u =>
    simp only [hc] at hl ⊢
    rw [h.start_eq]
    exact h.walk _ hl

end Keeps

/-- What a file holds is found through the location that its path leads to. -/
theorem content_eq_ok {content : FileContent} :
    fs.content p = .ok content ↔
      ∃ loc, fs.locate p = .ok loc ∧ fs.node? loc = some (.file content) := by
  unfold FileSystem.content lookup
  cases hl : fs.locate p with
  | error e => simp
  | ok loc =>
    cases hn : fs.node? loc with
    | none => simp [hn]
    | some node => cases node <;> simp [hn]

/-- A file can be read if it holds bytes. -/
theorem read_eq_ok_iff {bytes : ByteArray} :
    fs.read p = .ok bytes ↔ fs.content p = .ok (.bytes bytes) := by
  unfold read
  cases fs.content p with
  | error e => simp
  | ok content => cases content <;> simp [FileContent.read]

theorem read_eq_ok {bytes : ByteArray} : fs.read p = .ok bytes ↔
    ∃ loc, fs.locate p = .ok loc ∧ fs.node? loc = some (.file (.bytes bytes)) :=
  read_eq_ok_iff.trans content_eq_ok

/-- What is read is decided by what a file holds. -/
theorem read_congr {p' : Path} (h : fs'.content p' = fs.content p) : fs'.read p' = fs.read p := by
  rw [read, h, read]

/-- A file that is not touched holds what it held. -/
theorem Keeps.content {touched : Location → Prop} (h : Keeps touched fs fs') {content : FileContent}
    (hcontent : fs.content p = .ok content) (ht : ∀ loc, fs.locate p = .ok loc → ¬ touched loc) :
    fs'.content p = .ok content := by
  obtain ⟨loc, hl, hn⟩ := content_eq_ok.mp hcontent
  exact content_eq_ok.mpr ⟨loc, h.locate hl, h.file loc content (ht loc hl) hn⟩

/-- A file that is not touched is read as before. -/
theorem Keeps.read {touched : Location → Prop} (h : Keeps touched fs fs') {bytes : ByteArray}
    (hread : fs.read p = .ok bytes) (ht : ∀ loc, fs.locate p = .ok loc → ¬ touched loc) :
    fs'.read p = .ok bytes :=
  read_eq_ok_iff.mpr (h.content (read_eq_ok_iff.mp hread) ht)

/-! ## The entry that a path names -/

/-- The path names the entry at a location, be it there or not. -/
def Names (fs : FileSystem) (p : Path) (loc : Location) : Prop :=
  ∃ slash, fs.place p = .ok (.entry loc slash)

/-- The segments of a path without the empty ones at its end. -/
def named (p : Path) : List String := (p.segments.reverse.dropWhile (· == "")).reverse

/-- What it takes for a path to name an entry: its last segment is a name, and the segments before it
lead to a folder. -/
structure Place (fs : FileSystem) (p : Path) (loc : Location) (slash : Bool) : Prop where
  checkText_eq : checkText p = .ok ()
  entry : ∃ folder last, (named p).getLast? = some last ∧
    fs.walk (fs.start p) (named p).dropLast = .ok folder ∧ fs.requireFolder folder = .ok () ∧
    last ≠ "." ∧ last ≠ ".." ∧ last.utf8ByteSize ≤ maxNameBytes ∧ loc = folder ++ [last]
  slash_eq : slash = decide ((named p).length < p.segments.length)

theorem place_eq_entry_iff {slash : Bool} :
    fs.place p = .ok (.entry loc slash) ↔ fs.Place p loc slash := by
  constructor
  · intro h
    unfold place at h
    split at h
    · cases h
    next hc =>
      simp only at h
      split at h
      · cases h
      next last hlast =>
        split at h
        · cases h
        next folder hwalk =>
          split at h
          · cases h
          next hfolder =>
            split at h
            · cases h
            next hdot =>
              obtain ⟨hdot, hup⟩ := not_or.mp hdot
              split at h
              · cases h
              next hlong =>
                simp only [Except.ok.injEq, EntryPlace.entry.injEq] at h
                exact ⟨hc, ⟨folder, last, hlast, hwalk, hfolder, hdot, hup, Nat.not_lt.mp hlong,
                  h.1.symm⟩, h.2.symm⟩
  · rintro ⟨hc, ⟨folder, last, hlast, hwalk, hfolder, hdot, hup, hlong, rfl⟩, rfl⟩
    rw [named] at hlast hwalk
    unfold place
    simp only [hc, hlast, hwalk, hfolder]
    rw [if_neg (by simp [hdot, hup]), if_neg (by omega)]
    rfl

/-- A path goes on naming the entry that it names. -/
theorem Keeps.place {touched : Location → Prop} (h : Keeps touched fs fs') {slash : Bool}
    (hp : fs.place p = .ok (.entry loc slash)) : fs'.place p = .ok (.entry loc slash) := by
  rw [place_eq_entry_iff] at hp ⊢
  obtain ⟨hc, ⟨folder, last, hlast, hwalk, hfolder, hrest⟩, hslash⟩ := hp
  refine ⟨hc, ⟨folder, last, hlast, ?_, h.requireFolder hfolder, hrest⟩, hslash⟩
  rw [h.start_eq]
  exact h.walk _ hwalk

theorem ne_nil_of_place {slash : Bool} (h : fs.place p = .ok (.entry loc slash)) : loc ≠ [] := by
  obtain ⟨folder, last, -, -, -, -, -, -, rfl⟩ := (place_eq_entry_iff.mp h).entry
  simp

/-! ## The operations -/

/-- What a folder is made of: an entry that is not there. -/
theorem makeFolder_eq_ok (h : fs.makeFolder p = .ok fs') :
    ∃ loc slash, fs.place p = .ok (.entry loc slash) ∧ fs.node? loc = none ∧
      fs' = fs.setNode loc .folder := by
  unfold makeFolder at h
  split at h
  · cases h
  · cases h
  next loc slash hplace =>
    split at h
    · cases h
    next hnone =>
      split at h
      · cases h
      · cases h
        exact ⟨loc, slash, hplace, hnone, rfl⟩

theorem makeFolder_keeps (h : fs.makeFolder p = .ok fs') : Keeps (fun _ => False) fs fs' := by
  obtain ⟨loc, slash, hplace, hnone, rfl⟩ := makeFolder_eq_ok h
  have hne := ne_nil_of_place hplace
  refine ⟨rfl, rfl, fun l hl => ?_, fun l content _ hl => ?_⟩
  · rw [node?_setNode hne]
    split_ifs with heq
    · rfl
    · exact hl
  · rw [node?_setNode hne, if_neg]
    · exact hl
    · rintro rfl
      rw [hnone] at hl
      cases hl

/-- What a file is removed from: an entry that is a file, named without a slash after it. -/
theorem removeFile_eq_ok (h : fs.removeFile p = .ok fs') :
    ∃ loc content, fs.place p = .ok (.entry loc false) ∧ fs.node? loc = some (.file content) ∧
      fs' = fs.dropNode loc := by
  unfold removeFile at h
  split at h
  · cases h
  · cases h
  next loc slash hplace =>
    split at h
    · cases h
    · cases h
    next content hfile =>
      cases slash with
      | true => cases h
      | false =>
        cases h
        exact ⟨loc, content, hplace, hfile, rfl⟩

theorem removeFile_keeps (h : fs.removeFile p = .ok fs') : Keeps (fs.Names p) fs fs' := by
  obtain ⟨loc, content, hplace, hfile, rfl⟩ := removeFile_eq_ok h
  have hne := ne_nil_of_place hplace
  refine ⟨rfl, rfl, fun l hl => ?_, fun l content' ht hl => ?_⟩
  · rw [node?_dropNode hne, if_neg]
    · exact hl
    · rintro rfl
      rw [hfile] at hl
      cases hl
  · rw [node?_dropNode hne, if_neg]
    · exact hl
    · rintro rfl
      exact ht ⟨false, hplace⟩

/-- What is there after a file has been removed was there before. -/
theorem removeFile_keeps_back (h : fs.removeFile p = .ok fs') : Keeps (fun _ => False) fs' fs := by
  obtain ⟨loc, content, hplace, -, rfl⟩ := removeFile_eq_ok h
  have hstood {l : Location} {node : Node} (hl : (fs.dropNode loc).node? l = some node) :
      fs.node? l = some node := by
    rw [node?_dropNode (ne_nil_of_place hplace)] at hl
    split_ifs at hl
    exact hl
  exact ⟨rfl, rfl, fun l hl => hstood hl, fun l content' _ hl => hstood hl⟩

/-- What a file is written to: an entry that is no folder, named without a slash after it. -/
theorem fileEntry_eq_ok :
    fs.fileEntry p = .ok loc ↔ fs.place p = .ok (.entry loc false) ∧ fs.node? loc ≠ some .folder := by
  unfold fileEntry
  constructor
  · intro h
    split at h
    · cases h
    · cases h
    next l slash hplace =>
      cases slash with
      | true => cases h
      | false =>
        simp only [Bool.false_eq_true, if_false] at h
        split at h
        · cases h
        next hnode =>
          cases h
          exact ⟨hplace, hnode⟩
  · rintro ⟨hplace, hnode⟩
    simp only [hplace, Bool.false_eq_true, if_false]

theorem writeFile_eq_ok {content : ByteArray} (h : fs.writeFile p content = .ok fs') :
    ∃ loc, fs.place p = .ok (.entry loc false) ∧ fs.node? loc ≠ some .folder ∧
      fs' = fs.setNode loc (.file (.bytes content)) := by
  unfold writeFile at h
  split at h
  · cases h
  next loc hentry =>
    split at h
    · cases h
    · cases h
      exact ⟨loc, (fileEntry_eq_ok.mp hentry).1, (fileEntry_eq_ok.mp hentry).2, rfl⟩

/-- A write that failed has changed nothing, or it has written the first bytes. -/
theorem breakOff_cases (fs : FileSystem) (p : Path) (content : ByteArray) :
    fs.breakOff p content = fs ∨
      ∃ part rest, part ++ rest = content ∧ fs.writeFile p part = .ok (fs.breakOff p content) := by
  unfold breakOff writeFile
  cases hentry : fs.fileEntry p with
  | error e => exact .inl rfl
  | ok loc =>
    simp only
    split
    next count fault hstop =>
      right
      have hsize : (content.extract 0 count).size ≤ count := by
        rw [ByteArray.size_extract]
        omega
      refine ⟨content.extract 0 count, content.extract count content.size, ?_, ?_⟩
      · rw [ByteArray.extract_append_extract, Nat.zero_min, ByteArray.extract_zero_max_size]
      · simp only [writingFault?, hstop, if_neg (Nat.not_lt.mpr hsize)]
    · exact .inl rfl

theorem writeFile_keeps {content : ByteArray} (h : fs.writeFile p content = .ok fs') :
    Keeps (fs.Names p) fs fs' := by
  obtain ⟨loc, hplace, hnode, rfl⟩ := writeFile_eq_ok h
  have hne := ne_nil_of_place hplace
  refine ⟨rfl, rfl, fun l hl => ?_, fun l content' ht hl => ?_⟩
  · rw [node?_setNode hne, if_neg]
    · exact hl
    · rintro rfl
      exact hnode hl
  · rw [node?_setNode hne, if_neg]
    · exact hl
    · rintro rfl
      exact ht ⟨false, hplace⟩

/-- What is true of a file system, and stays true when one folder is made, is true after a folder has
been made along with those above it. -/
theorem makeFolderBelow_preserves {P : FileSystem → Prop}
    (hmake : ∀ fs p fs', P fs → makeFolder fs p = .ok fs' → P fs') (h : P fs) (paths : List Path) :
    P (fs.makeFolderBelow paths).1 := by
  induction paths with
  | nil => exact h
  | cons p above ih =>
    unfold makeFolderBelow
    split
    · exact h
    · split
      next made hmade => exact hmake fs p made h hmade
      next hmissing =>
        split
        next half e hhalf =>
          rw [hhalf] at ih
          exact ih
        next half hhalf =>
          rw [hhalf] at ih
          split
          next made hmade => exact hmake half p made ih hmade
          next e he => exact ih
      next e he => exact h

theorem makeFolderBelow_keeps (paths : List Path) :
    Keeps (fun _ => False) fs (fs.makeFolderBelow paths).1 :=
  makeFolderBelow_preserves (fun _ _ _ h hmade => h.trans (makeFolder_keeps hmade)) (.refl fs) paths

/-! ## Changes that add no file -/

/-- Every file of `fs'` was in `fs` already, and with the same content. -/
def AddsNoFile (fs fs' : FileSystem) : Prop :=
  ∀ l content, fs'.node? l = some (.file content) → fs.node? l = some (.file content)

namespace AddsNoFile

theorem refl (fs : FileSystem) : AddsNoFile fs fs := fun _ _ h => h

theorem trans (h : AddsNoFile fs fs') (h' : AddsNoFile fs' fs'') : AddsNoFile fs fs'' :=
  fun l content hl => h l content (h' l content hl)

theorem makeFolder (h : fs.makeFolder p = .ok fs') : AddsNoFile fs fs' := by
  obtain ⟨loc, slash, hplace, -, rfl⟩ := makeFolder_eq_ok h
  intro l content hl
  rw [node?_setNode (ne_nil_of_place hplace)] at hl
  split_ifs at hl
  · cases hl
  · exact hl

theorem removeFile (h : fs.removeFile p = .ok fs') : AddsNoFile fs fs' :=
  fun l content => (removeFile_keeps_back h).file l content not_false

theorem makeFolderBelow (paths : List Path) : AddsNoFile fs (fs.makeFolderBelow paths).1 :=
  makeFolderBelow_preserves (fun _ _ _ h hmade => h.trans (.makeFolder hmade)) (.refl fs) paths

end AddsNoFile

/-! ## Changes of some files only -/

/-- The change from `fs` to `fs'` keeps everything but the files at `touched`, and adds nothing but
folders and files that are at `touched`. -/
structure ChangesOnly (touched : Location → Prop) (fs fs' : FileSystem) : Prop
    extends Keeps touched fs fs' where
  added : ∀ l content, ¬ touched l → fs'.node? l = some (.file content) →
    fs.node? l = some (.file content)

theorem Keeps.changesOnly {touched : Location → Prop} (h : Keeps touched fs fs')
    (hadds : fs.AddsNoFile fs') : ChangesOnly touched fs fs' :=
  ⟨h, fun l content _ => hadds l content⟩

namespace ChangesOnly

variable {touched touched' : Location → Prop}

theorem refl (fs : FileSystem) : ChangesOnly touched fs fs :=
  (Keeps.refl fs).changesOnly (AddsNoFile.refl fs)

theorem trans (h : ChangesOnly touched fs fs') (h' : ChangesOnly touched fs' fs'') :
    ChangesOnly touched fs fs'' :=
  ⟨h.toKeeps.trans h'.toKeeps, fun l content ht hl =>
    h.added l content ht (h'.added l content ht hl)⟩

theorem mono (h : ChangesOnly touched fs fs') (hsub : ∀ l, touched l → touched' l) :
    ChangesOnly touched' fs fs' :=
  ⟨h.toKeeps.mono hsub, fun l content ht => h.added l content fun h => ht (hsub l h)⟩

theorem makeFolder (h : fs.makeFolder p = .ok fs') : ChangesOnly touched fs fs' :=
  (makeFolder_keeps h).mono (fun _ h => h.elim) |>.changesOnly (.makeFolder h)

theorem removeFile (h : fs.removeFile p = .ok fs') : ChangesOnly (fs.Names p) fs fs' :=
  (removeFile_keeps h).changesOnly (.removeFile h)

theorem writeFile {content : ByteArray} (h : fs.writeFile p content = .ok fs') :
    ChangesOnly (fs.Names p) fs fs' := by
  have hkeeps := writeFile_keeps h
  obtain ⟨loc, hplace, -, rfl⟩ := writeFile_eq_ok h
  refine ⟨hkeeps, fun l content' ht hl => ?_⟩
  rw [node?_setNode (ne_nil_of_place hplace), if_neg] at hl
  · exact hl
  · rintro rfl
    exact ht ⟨false, hplace⟩

end ChangesOnly

/-- A path goes on naming what it names. -/
theorem Keeps.names {touched : Location → Prop} (h : Keeps touched fs fs') (hp : fs.Names p loc) :
    fs'.Names p loc := by
  obtain ⟨slash, hplace⟩ := hp
  exact ⟨slash, h.place hplace⟩

/-! ## Reading what was written -/

theorem walk_append (first second : List String) (start : Location) :
    fs.walk start (first ++ second) =
      match fs.walk start first with
      | .error e => .error e
      | .ok l => fs.walk l second := by
  induction first generalizing start with
  | nil => rfl
  | cons segment rest ih =>
    rw [List.cons_append, walk, walk]
    cases fs.requireFolder start with
    | error e => rfl
    | ok u =>
      simp only
      split_ifs
      · exact ih start
      · exact ih start.dropLast
      · rfl
      · exact ih (start ++ [segment])

/-- A walk goes through the location that its first part ends in. -/
theorem walk_append_eq_ok {first second : List String} {start : Location} :
    fs.walk start (first ++ second) = .ok loc ↔
      ∃ mid, fs.walk start first = .ok mid ∧ fs.walk mid second = .ok loc := by
  rw [walk_append]
  cases fs.walk start first <;> simp

/-- A slash at the end of a path asks for a folder. -/
theorem walk_slash {start : Location} :
    fs.walk start [""] = .ok loc ↔ fs.requireFolder start = .ok () ∧ loc = start := by
  rw [walk]
  cases fs.requireFolder start <;> simp [Path.isBlank, walk, eq_comm]

theorem isBlank_eq_false {segment : String} (h : segment ≠ "") (h' : segment ≠ ".") :
    Path.isBlank segment = false := by
  simp [Path.isBlank, h, h']

/-- The last step of a walk, when it is a name. -/
theorem walk_name {folder : Location} {name : String} (hblank : Path.isBlank name = false)
    (hup : name ≠ "..") : fs.walk folder [name] = .ok loc ↔
      fs.requireFolder folder = .ok () ∧ name.utf8ByteSize ≤ maxNameBytes ∧
        loc = folder ++ [name] := by
  rw [walk]
  cases fs.requireFolder folder with
  | error e => simp
  | ok u =>
    simp only [hblank, Bool.false_eq_true, if_false, if_neg hup, walk, true_and]
    split_ifs with hlong
    · simp [Nat.not_le.mpr hlong]
    · simp [Nat.not_lt.mp hlong, eq_comm]

theorem named_initial (p : Path) : named p <+: p.segments := by
  have hsuffix : p.segments.reverse.dropWhile (· == "") <:+ p.segments.reverse :=
    List.dropWhile_suffix _
  have hprefix := List.reverse_prefix.mpr hsuffix
  rwa [List.reverse_reverse] at hprefix

theorem named_ne_empty {last : String} (h : (named p).getLast? = some last) : last ≠ "" := by
  rw [named, List.getLast?_reverse] at h
  have hhead := List.head?_dropWhile_not (· == "") p.segments.reverse
  rw [h] at hhead
  simpa using hhead

/-- The segments of a path up to its name lead to what the path names. -/
theorem walk_named {slash : Bool} (h : fs.place p = .ok (.entry loc slash)) :
    fs.walk (fs.start p) (named p) = .ok loc := by
  obtain ⟨-, ⟨folder, last, hlast, hwalk, hfolder, hdot, hup, hlong, rfl⟩, -⟩ :=
    place_eq_entry_iff.mp h
  have hname : fs.walk folder [last] = .ok (folder ++ [last]) :=
    (walk_name (isBlank_eq_false (named_ne_empty hlast) hdot) hup).mpr ⟨hfolder, hlong, rfl⟩
  obtain ⟨before, hnamed⟩ := List.getLast?_eq_some_iff.mp hlast
  rw [hnamed, List.dropLast_concat] at hwalk
  rw [hnamed]
  exact walk_append_eq_ok.mpr ⟨folder, hwalk, hname⟩

/-- Without a slash after it, the entry that a path names is what the path leads to. -/
theorem locate_of_place (h : fs.place p = .ok (.entry loc false)) : fs.locate p = .ok loc := by
  obtain ⟨hc, -, hslash⟩ := place_eq_entry_iff.mp h
  have hsegments : named p = p.segments :=
    (named_initial p).eq_of_length_le (by simpa using hslash)
  unfold locate
  rw [hc, ← hsegments]
  exact walk_named h

/-- A file that was removed is not found under its path. -/
theorem content_removeFile (h : fs.removeFile p = .ok fs') : fs'.content p = .error .notFound := by
  have hkeeps := removeFile_keeps h
  obtain ⟨loc, content, hplace, -, rfl⟩ := removeFile_eq_ok h
  have hnone : (fs.dropNode loc).node? loc = none := by
    rw [node?_dropNode (ne_nil_of_place hplace), if_pos rfl]
  unfold FileSystem.content lookup
  rw [hkeeps.locate (locate_of_place hplace)]
  simp only [hnone]

/-- A file is read under the path it was written to. -/
theorem read_writeFile {content : ByteArray} (h : fs.writeFile p content = .ok fs') :
    fs'.read p = .ok content := by
  have hkeeps := writeFile_keeps h
  obtain ⟨loc, hplace, -, rfl⟩ := writeFile_eq_ok h
  refine read_eq_ok.mpr ⟨loc, hkeeps.locate (locate_of_place hplace), ?_⟩
  rw [node?_setNode (ne_nil_of_place hplace), if_pos rfl]

theorem breakOff_keeps {content : ByteArray} :
    Keeps (fs.Names p) fs (fs.breakOff p content) := by
  rcases breakOff_cases fs p content with hsame | ⟨part, rest, -, hpart⟩
  · rw [hsame]
    exact .refl fs
  · exact writeFile_keeps hpart

/-- Where the device has given up there is still no file, or the last bytes are missing. -/
theorem content_breakOff {content : ByteArray} {fault : DeviceFault}
    (hentry : fs.fileEntry p = .ok loc) (hnone : fs.node? loc = none)
    (hfault : fs.writingFault? loc content.size = some fault) :
    (fs.breakOff p content).content p = .error .notFound ∨ ∃ part rest, part ++ rest = content ∧
      rest ≠ .empty ∧ (fs.breakOff p content).content p = .ok (.bytes part) := by
  have hplace := (fileEntry_eq_ok.mp hentry).1
  have hkeeps : Keeps (fs.Names p) fs (fs.breakOff p content) := breakOff_keeps
  have hlocate := hkeeps.locate (locate_of_place hplace)
  unfold breakOff at hlocate ⊢
  simp only [hentry] at hlocate ⊢
  unfold writingFault? at hfault
  split at hfault
  next stop hstop =>
    left
    simp only [hstop] at hlocate ⊢
    unfold FileSystem.content lookup
    simp only [hlocate, hnone]
  next count stop hstop =>
    right
    simp only [hstop] at hlocate ⊢
    split_ifs at hfault with hshort
    refine ⟨content.extract 0 count, content.extract count content.size, ?_, ?_, ?_⟩
    · rw [ByteArray.extract_append_extract, Nat.zero_min, ByteArray.extract_zero_max_size]
    · intro hempty
      have hsize := congrArg ByteArray.size hempty
      rw [ByteArray.size_extract, Nat.min_self, ByteArray.size_empty] at hsize
      omega
    · refine content_eq_ok.mpr ⟨loc, hlocate, ?_⟩
      rw [node?_setNode (ne_nil_of_place hplace), if_pos rfl]
  · cases hfault

end LayoutRebuild.FileSystem
