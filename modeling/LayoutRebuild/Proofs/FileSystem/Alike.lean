import LayoutRebuild.Proofs.FileSystem.Keeping
import LayoutRebuild.Artifact.File

/-!
# File systems that differ in the contents of files

Where a path leads, and whether a folder or a file can be made there, depends on what is a folder and
what is a file, but on no content.  Two file systems that are alike in this (`Alike`) stay alike under
every operation, and they refuse the same operations for the same reason.  In particular it does not
depend on the content of any file whether another one can be written (`Alike.write`).  The device is
taken to give up at the same places in both.
-/

namespace LayoutRebuild

namespace FileSystem

variable {fs fs' : FileSystem} {loc : Location}

/-- Nothing in both places, a folder in both, or a file in both. -/
inductive SameKind : Option Node → Option Node → Prop
  | nothing : SameKind none none
  | folder : SameKind (some .folder) (some .folder)
  | file (content content' : FileContent) : SameKind (some (.file content)) (some (.file content'))

theorem SameKind.refl (node : Option Node) : SameKind node node := by
  cases node with
  | none => exact .nothing
  | some node =>
    cases node with
    | folder => exact .folder
    | file content => exact .file content content

/-- The two have folders at the same locations and files at the same locations. -/
structure Alike (fs fs' : FileSystem) : Prop where
  workingFolder_eq : fs'.workingFolder = fs.workingFolder
  stops_eq : fs'.stops = fs.stops
  node : ∀ l, SameKind (fs.node? l) (fs'.node? l)

/-- The same fault, or file systems that are alike. -/
inductive AlikeResults : Except FileFault FileSystem → Except FileFault FileSystem → Prop
  | ok {fs fs' : FileSystem} (alike : Alike fs fs') : AlikeResults (.ok fs) (.ok fs')
  | error (fault : FileFault) : AlikeResults (.error fault) (.error fault)

namespace Alike

theorem setNode (h : Alike fs fs') (hne : loc ≠ []) {node node' : Node}
    (hkind : SameKind (some node) (some node')) :
    Alike (fs.setNode loc node) (fs'.setNode loc node') := by
  refine ⟨h.workingFolder_eq, h.stops_eq, fun l => ?_⟩
  rw [node?_setNode hne, node?_setNode hne]
  split
  · exact hkind
  · exact h.node l

theorem dropNode (h : Alike fs fs') (hne : loc ≠ []) :
    Alike (fs.dropNode loc) (fs'.dropNode loc) := by
  refine ⟨h.workingFolder_eq, h.stops_eq, fun l => ?_⟩
  rw [node?_dropNode hne, node?_dropNode hne]
  split
  · exact .nothing
  · exact h.node l

/-- To put another content into a file leaves the file system alike. -/
theorem of_file {content : FileContent} (hfile : fs.node? loc = some (.file content))
    (content' : FileContent) : Alike fs (fs.setNode loc (.file content')) := by
  have hne : loc ≠ [] := by
    rintro rfl
    cases hfile
  refine ⟨rfl, rfl, fun l => ?_⟩
  rw [node?_setNode hne]
  split
  next heq =>
    rw [heq, hfile]
    exact .file content content'
  · exact .refl _

/-! ## Following a path -/

theorem requireFolder_eq (h : Alike fs fs') (loc : Location) :
    fs'.requireFolder loc = fs.requireFolder loc := by
  have hkind := h.node loc
  unfold requireFolder
  generalize fs.node? loc = node at hkind
  generalize fs'.node? loc = node' at hkind
  cases hkind <;> rfl

theorem walk_eq (h : Alike fs fs') (segments : List String) (start : Location) :
    fs'.walk start segments = fs.walk start segments := by
  induction segments generalizing start with
  | nil => rfl
  | cons segment rest ih =>
    rw [FileSystem.walk, FileSystem.walk, h.requireFolder_eq]
    simp only [ih]

theorem start_eq (h : Alike fs fs') (p : Path) : fs'.start p = fs.start p := by
  rw [start, start, h.workingFolder_eq]

theorem locate_eq (h : Alike fs fs') (p : Path) : fs'.locate p = fs.locate p := by
  simp only [locate, h.start_eq, h.walk_eq]

theorem place_eq (h : Alike fs fs') (p : Path) : fs'.place p = fs.place p := by
  simp only [place, h.start_eq, h.walk_eq, h.requireFolder_eq]

theorem makingFault?_eq (h : Alike fs fs') (loc : Location) :
    fs'.makingFault? loc = fs.makingFault? loc := by
  rw [makingFault?, makingFault?, h.stops_eq]

theorem writingFault?_eq (h : Alike fs fs') (loc : Location) (size : Nat) :
    fs'.writingFault? loc size = fs.writingFault? loc size := by
  rw [writingFault?, writingFault?, h.stops_eq]

theorem isFolder_eq (h : Alike fs fs') (p : Path) : fs'.isFolder p = fs.isFolder p := by
  unfold isFolder lookup
  rw [h.locate_eq]
  cases fs.locate p with
  | error fault => rfl
  | ok loc =>
    have hkind := h.node loc
    simp only
    generalize fs.node? loc = node at hkind
    generalize fs'.node? loc = node' at hkind
    cases hkind <;> rfl

/-! ## The operations -/

theorem makeFolder (h : Alike fs fs') (p : Path) :
    AlikeResults (fs.makeFolder p) (fs'.makeFolder p) := by
  unfold FileSystem.makeFolder
  rw [h.place_eq]
  cases hplace : fs.place p with
  | error fault => exact .error fault
  | ok place =>
    cases place with
    | standing => exact .error _
    | entry loc slash =>
      have hmade := h.setNode (ne_nil_of_place hplace) .folder
      have hkind := h.node loc
      simp only [h.makingFault?_eq]
      generalize fs.node? loc = node at hkind
      generalize fs'.node? loc = node' at hkind
      cases hkind with
      | nothing =>
        cases fs.makingFault? loc with
        | none => exact .ok hmade
        | some fault => exact .error _
      | folder => exact .error _
      | file content content' => exact .error _

theorem removeFile (h : Alike fs fs') (p : Path) :
    AlikeResults (fs.removeFile p) (fs'.removeFile p) := by
  unfold FileSystem.removeFile
  rw [h.place_eq]
  cases hplace : fs.place p with
  | error fault => exact .error fault
  | ok place =>
    cases place with
    | standing => exact .error _
    | entry loc slash =>
      have hremoved := h.dropNode (ne_nil_of_place hplace)
      have hkind := h.node loc
      simp only
      generalize fs.node? loc = node at hkind
      generalize fs'.node? loc = node' at hkind
      cases hkind with
      | nothing => exact .error _
      | folder => exact .error _
      | file content content' =>
        cases slash with
        | true => exact .error _
        | false => exact .ok hremoved

theorem fileEntry_eq (h : Alike fs fs') (p : Path) : fs'.fileEntry p = fs.fileEntry p := by
  unfold fileEntry
  rw [h.place_eq]
  cases fs.place p with
  | error fault => rfl
  | ok place =>
    cases place with
    | standing => rfl
    | entry loc slash =>
      have hkind := h.node loc
      simp only
      generalize fs.node? loc = node at hkind
      generalize fs'.node? loc = node' at hkind
      cases hkind <;> rfl

theorem writeFile (h : Alike fs fs') (p : Path) (content : ByteArray) :
    AlikeResults (fs.writeFile p content) (fs'.writeFile p content) := by
  unfold FileSystem.writeFile
  rw [h.fileEntry_eq]
  cases hentry : fs.fileEntry p with
  | error fault => exact .error fault
  | ok loc =>
    simp only [h.writingFault?_eq]
    cases fs.writingFault? loc content.size with
    | some fault => exact .error _
    | none =>
      have hplace := (fileEntry_eq_ok.mp hentry).1
      exact .ok (h.setNode (ne_nil_of_place hplace) (.file _ _))

/-- What a write leaves that has failed is alike, too. -/
theorem breakOff (h : Alike fs fs') (p : Path) (content : ByteArray) :
    Alike (fs.breakOff p content) (fs'.breakOff p content) := by
  unfold FileSystem.breakOff
  rw [h.fileEntry_eq]
  cases hentry : fs.fileEntry p with
  | error fault => exact h
  | ok loc =>
    simp only [h.stops_eq]
    split
    · have hplace := (fileEntry_eq_ok.mp hentry).1
      exact h.setNode (ne_nil_of_place hplace) (.file _ _)
    · exact h

theorem makeFolderBelow (h : Alike fs fs') (paths : List Path) :
    Alike (fs.makeFolderBelow paths).1 (fs'.makeFolderBelow paths).1 ∧
      (fs'.makeFolderBelow paths).2 = (fs.makeFolderBelow paths).2 := by
  induction paths with
  | nil => exact ⟨h, rfl⟩
  | cons p above ih =>
    unfold FileSystem.makeFolderBelow
    by_cases hempty : p.components.isEmpty = true
    · rw [if_pos hempty, if_pos hempty]
      exact ⟨h, rfl⟩
    · rw [if_neg hempty, if_neg hempty]
      have hmade := h.makeFolder p
      generalize fs.makeFolder p = made at hmade
      generalize fs'.makeFolder p = made' at hmade
      cases hmade with
      | ok alike => exact ⟨alike, rfl⟩
      | error fault =>
        cases fault
        case notFound =>
          -- What is above is made first, alike in both.
          generalize fs.makeFolderBelow above = half at ih
          generalize fs'.makeFolderBelow above = half' at ih
          obtain ⟨half, done⟩ := half
          obtain ⟨half', done'⟩ := half'
          obtain ⟨hhalf, rfl⟩ := ih
          cases done' with
          | error fault => exact ⟨hhalf, rfl⟩
          | ok u =>
            have hlast := hhalf.makeFolder p
            simp only
            generalize half.makeFolder p = last at hlast
            generalize half'.makeFolder p = last' at hlast
            cases hlast with
            | ok alike => exact ⟨alike, rfl⟩
            | error fault => exact ⟨hhalf, by simp only [hhalf.isFolder_eq]⟩
        all_goals exact ⟨h, by simp only [h.isFolder_eq]⟩

/-! ## Files -/

theorem prepareFolder (h : Alike fs fs') (path : Path) :
    Alike (LogFile.prepareFolder fs path).1 (LogFile.prepareFolder fs' path).1 ∧
      (LogFile.prepareFolder fs' path).2 = (LogFile.prepareFolder fs path).2 := by
  unfold LogFile.prepareFolder
  split
  · exact ⟨h, rfl⟩
  next folder _ =>
    split
    · exact ⟨h, rfl⟩
    · have hmade := h.makeFolderBelow (ancestry folder (folder.components.length + 1))
      unfold makeFolders
      generalize fs.makeFolderBelow _ = made at hmade
      generalize fs'.makeFolderBelow _ = made' at hmade
      obtain ⟨made, done⟩ := made
      obtain ⟨made', done'⟩ := made'
      obtain ⟨halike, rfl⟩ := hmade
      cases done' <;> exact ⟨halike, rfl⟩

theorem clear (h : Alike fs fs') (path : Path) :
    Alike (LogFile.clear fs path).1 (LogFile.clear fs' path).1 ∧
      (LogFile.clear fs' path).2 = (LogFile.clear fs path).2 := by
  have hremoved := h.removeFile path
  unfold LogFile.clear
  generalize fs.removeFile path = removed at hremoved
  generalize fs'.removeFile path = removed' at hremoved
  cases hremoved with
  | ok alike => exact ⟨alike, rfl⟩
  | error fault => cases fault <;> exact ⟨h, rfl⟩

/-- Whether a file can be written does not depend on the content of any file. -/
theorem write (h : Alike fs fs') (path : Path) (file : LogFile) :
    Alike (LogFile.write fs path file).1 (LogFile.write fs' path file).1 ∧
      (LogFile.write fs' path file).2 = (LogFile.write fs path file).2 := by
  have hprepared := h.prepareFolder path
  unfold LogFile.write
  generalize LogFile.prepareFolder fs path = prepared at hprepared
  generalize LogFile.prepareFolder fs' path = prepared' at hprepared
  obtain ⟨made, done⟩ := prepared
  obtain ⟨made', done'⟩ := prepared'
  obtain ⟨hmade, rfl⟩ := hprepared
  cases done' with
  | error fault => exact ⟨hmade, rfl⟩
  | ok u =>
    have hcleared := hmade.clear path
    simp only
    generalize LogFile.clear made path = cleared at hcleared
    generalize LogFile.clear made' path = cleared' at hcleared
    obtain ⟨cleared, done⟩ := cleared
    obtain ⟨cleared', done'⟩ := cleared'
    obtain ⟨hclear, rfl⟩ := hcleared
    cases done' with
    | error fault => exact ⟨hclear, rfl⟩
    | ok u =>
      have hwritten := hclear.writeFile path file.toText.toUTF8
      have hbroken := hclear.breakOff path file.toText.toUTF8
      simp only
      generalize cleared.writeFile path _ = written at hwritten
      generalize cleared'.writeFile path _ = written' at hwritten
      cases hwritten with
      | ok alike => exact ⟨alike, rfl⟩
      | error fault => exact ⟨hbroken, rfl⟩

end Alike

end FileSystem

end LayoutRebuild
