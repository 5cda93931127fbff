import LayoutRebuild.Build.Finish
import LayoutRebuild.Proofs.FileSystem.Listing
import LayoutRebuild.Proofs.Log.RoundTrip
import LayoutRebuild.Proofs.Path.Segments

/-!
# A log that was written is there

A log that has been written is read back as it was (`BuildLog.read_of_save`).  What is done after it
in the same build is to publish the classes of the module, and an artifact cannot have the name of a
log: so once the log is written it stays, whether or not publishing succeeds
(`Resolution.read_finish`).  A log can be read for its classes alone, and a file of classes as a log
(`saved_file_comes_back`).
-/

namespace LayoutRebuild

variable {fs fs' : FileSystem} {path : Path}

namespace FileSystem

theorem fromUTF8?_toUTF8 (text : String) : String.fromUTF8? text.toUTF8 = some text := by
  have hvalid : text.toUTF8.IsValidUTF8 := text.isValidUTF8
  rw [String.fromUTF8?, dif_pos hvalid]
  rfl

/-- Text that was written is read as the same text. -/
theorem readText_of_read {text : String} (h : fs.read path = .ok text.toUTF8) :
    fs.readText path = .ok text := by
  simp only [readText, h, fromUTF8?_toUTF8]

end FileSystem

/-! ## Writing a file -/

namespace LogFile

theorem prepareFolder_fst (fs : FileSystem) (path : Path) :
    (prepareFolder fs path).1 = fs ∨ ∃ folder,
      path.parent? = some folder ∧ (prepareFolder fs path).1 = (fs.makeFolders folder).1 := by
  unfold prepareFolder
  split
  · exact .inl rfl
  next folder hfolder =>
    split
    · exact .inl rfl
    · refine .inr ⟨folder, hfolder, ?_⟩
      split
      next made hmade => rw [hmade]
      next made fault hmade => rw [hmade]

theorem clear_fst (fs : FileSystem) (path : Path) :
    (clear fs path).1 = fs ∨ fs.removeFile path = .ok (clear fs path).1 := by
  unfold clear
  split
  next cleared hcleared => exact .inr hcleared
  · exact .inl rfl
  · exact .inl rfl

theorem prepareFolder_keeps : FileSystem.Keeps (fun _ => False) fs (prepareFolder fs path).1 := by
  rcases prepareFolder_fst fs path with hsame | ⟨folder, -, hmade⟩
  · rw [hsame]
    exact .refl fs
  · rw [hmade]
    exact FileSystem.makeFolderBelow_keeps _

theorem prepareFolder_addsNoFile : fs.AddsNoFile (prepareFolder fs path).1 := by
  rcases prepareFolder_fst fs path with hsame | ⟨folder, -, hmade⟩
  · rw [hsame]
    exact .refl fs
  · rw [hmade]
    exact .makeFolderBelow _

theorem clear_keeps : FileSystem.Keeps (fs.Names path) fs (clear fs path).1 := by
  rcases clear_fst fs path with hsame | hcleared
  · rw [hsame]
    exact .refl fs
  · exact FileSystem.removeFile_keeps hcleared

/-- What is true of a file system, and stays true when a folder is made and when the file that the
path names is removed or written, is true after the file has been replaced, and also if it could not be
replaced. -/
theorem write_preserves {P : FileSystem → Prop} (file : LogFile)
    (hmake : ∀ fs p fs', P fs → FileSystem.makeFolder fs p = .ok fs' → P fs')
    (hremove : ∀ fs fs', P fs → FileSystem.removeFile fs path = .ok fs' → P fs')
    (hwrite : ∀ fs content fs', P fs → FileSystem.writeFile fs path content = .ok fs' → P fs')
    (h : P fs) : P (write fs path file).1 := by
  have hprepared : P (prepareFolder fs path).1 := by
    rcases prepareFolder_fst fs path with hsame | ⟨folder, -, hmade⟩
    · rwa [hsame]
    · rw [hmade]
      exact FileSystem.makeFolderBelow_preserves hmake h _
  unfold write
  split
  next made fault hmade => rwa [hmade] at hprepared
  next made hmade =>
    rw [hmade] at hprepared
    have hcleared : P (clear made path).1 := by
      rcases clear_fst made path with hsame | hremoved
      · rwa [hsame]
      · exact hremove made _ hprepared hremoved
    split
    next cleared fault hclear => rwa [hclear] at hcleared
    next cleared hclear =>
      rw [hclear] at hcleared
      split
      next written hwritten => exact hwrite cleared _ written hcleared hwritten
      · rcases cleared.breakOff_cases path file.toText.toUTF8 with hsame | ⟨part, rest, -, hpart⟩
        · rwa [hsame]
        · exact hwrite cleared part _ hcleared hpart

/-- Writing touches nothing but the file that the path names in the end. -/
theorem write_changesOnly (file : LogFile) :
    FileSystem.ChangesOnly ((write fs path file).1.Names path) fs (write fs path file).1 := by
  have hstep {mid last : FileSystem} (h : FileSystem.ChangesOnly (mid.Names path) fs mid)
      (hchange : FileSystem.ChangesOnly (mid.Names path) mid last) :
      FileSystem.ChangesOnly (last.Names path) fs last :=
    (h.trans hchange).mono fun _ => hchange.names
  exact write_preserves (P := fun mid => FileSystem.ChangesOnly (mid.Names path) fs mid) file
    (fun _ _ _ h hmade => hstep h (.makeFolder hmade))
    (fun _ _ h hremoved => hstep h (.removeFile hremoved))
    (fun _ _ _ h hwritten => hstep h (.writeFile hwritten)) (.refl fs)

/-- Whatever the path names, nothing else is touched by writing. -/
theorem write_keeps {touched : Location → Prop} (file : LogFile)
    (htouched : ∀ (fs : FileSystem) loc, fs.Names path loc → touched loc) :
    FileSystem.Keeps touched fs (write fs path file).1 :=
  (write_changesOnly file).toKeeps.mono (htouched _)

/-- Writing makes no entry with an improper name. -/
theorem wellNamed_write (file : LogFile) (h : fs.WellNamed) : (write fs path file).1.WellNamed :=
  write_preserves file (fun _ _ _ h hmade => h.makeFolder hmade)
    (fun _ _ h hremoved => h.removeFile hremoved) (fun _ _ _ h hwritten => h.writeFile hwritten) h

theorem read_eq_some {file : LogFile} (h : fs.read path = .ok file.toText.toUTF8)
    (hversion : file.formatVersion = currentFormat) : read fs path = .ok (some file) := by
  have hdocument : Json.Reader.document reader file.toText = .ok file :=
    document_toText file (by rw [hversion]; decide)
  simp only [read, FileSystem.readText_of_read h, hdocument]
  rw [if_neg (by omega)]

/-- A file that is written has its folder made, takes the place of what was there, and is written. -/
theorem write_eq_ok {file : LogFile} (h : write fs path file = (fs', .ok ())) :
    ∃ made cleared, prepareFolder fs path = (made, .ok ()) ∧ clear made path = (cleared, .ok ()) ∧
      cleared.writeFile path file.toText.toUTF8 = .ok fs' := by
  unfold write at h
  split at h
  · cases h
  next made hmade =>
    split at h
    · cases h
    next cleared hclear =>
      split at h
      next written hwritten =>
        cases h
        exact ⟨made, cleared, hmade, hclear, hwritten⟩
      · cases h

/-- What has been written is there. -/
theorem read_write {file : LogFile} (h : write fs path file = (fs', .ok ())) :
    fs'.read path = .ok file.toText.toUTF8 := by
  obtain ⟨made, cleared, -, -, hwritten⟩ := write_eq_ok h
  exact FileSystem.read_writeFile hwritten

end LogFile

/-! ## The log of a build -/

namespace BuildLog

/-- The text of a log at a path is read as the log. -/
theorem read_of_text {log : BuildLog} (h : fs.read path = .ok (LogFile.ofLog log).toText.toUTF8) :
    read fs path = .ok (some log) := by
  simp only [read, LogFile.read_eq_some h rfl]
  rfl

/-- A log that has been written is read as it was. -/
theorem read_of_save {log : BuildLog} (h : save fs path log = (fs', .ok ())) :
    read fs' path = .ok (some log) :=
  read_of_text (LogFile.read_write h)

theorem isName_fileName : Path.IsName fileName := by decide

theorem getLast?_of_names {folder : Path} {loc : Location} (h : fs.Names (pathIn folder) loc) :
    loc.getLast? = some fileName := by
  obtain ⟨before, hsegments⟩ := Path.segments_join folder isName_fileName.no_slash
  exact h.getLast? hsegments isName_fileName.ne_empty

end BuildLog

/-- No artifact is called what a log is called. -/
theorem Artifact.ending_not_suffix :
    ¬ ArtifactName.ending.toList <:+ BuildLog.fileName.toList := by decide

/-- Whatever the package is, what its artifact is called ends like an artifact. -/
theorem Artifact.ending_of_names {folder : Path} {package : String} {loc : Location}
    (h : fs.Names (Artifact.pathIn folder package) loc) :
    ∃ name, loc.getLast? = some name ∧ ArtifactName.ending.toList <:+ name.toList := by
  obtain ⟨before, last, hsegments, hending⟩ :=
    Path.segments_join_append folder package (show '/' ∉ ArtifactName.ending.toList by decide)
  have hne : last ≠ "" := by
    rintro rfl
    exact absurd hending (by decide)
  exact ⟨last, h.getLast? hsegments hne, hending⟩

/-- Publishing a module leaves the log of a build where it is. -/
theorem BuildLog.read_publish (folder : Path) (package : String) (classes : ClassTable)
    {logFolder : Path} {content : ByteArray} (h : fs.read (BuildLog.pathIn logFolder) = .ok content) :
    (Artifact.publish fs folder package classes).1.read (BuildLog.pathIn logFolder) =
      .ok content := by
  let touched (loc : Location) : Prop :=
    ∃ name, loc.getLast? = some name ∧ ArtifactName.ending.toList <:+ name.toList
  have hkeeps : FileSystem.Keeps touched fs (Artifact.publish fs folder package classes).1 := by
    have hwrite : FileSystem.Keeps touched fs
        (LogFile.write fs (Artifact.pathIn folder package) (.ofClasses classes)).1 :=
      LogFile.write_keeps _ fun _ _ => Artifact.ending_of_names
    unfold Artifact.publish
    simp only
    split
    next published hpublished => rwa [hpublished] at hwrite
    next published fault hpublished => rwa [hpublished] at hwrite
  refine hkeeps.read h ?_
  rintro loc hloc ⟨name, hlast, hending⟩
  obtain ⟨before, hsegments⟩ := Path.segments_join logFolder BuildLog.isName_fileName.no_slash
  rw [FileSystem.getLast?_of_locate hsegments BuildLog.isName_fileName hloc] at hlast
  cases hlast
  exact Artifact.ending_not_suffix hending

namespace Resolution

variable {r : Resolution} {args : Arguments} {fresh next : BuildLog}

theorem persist_fst (logFolder : Path) : (r.persist fs logFolder fresh).1 =
    (BuildLog.save fs (BuildLog.pathIn logFolder) (r.nextLog fs fresh)).1 := by
  unfold persist
  simp only
  split
  next written hsave => rw [hsave]
  next written fault hsave => rw [hsave]

/-- Writing the log leaves every other file alone. -/
theorem persist_keeps (logFolder : Path) :
    FileSystem.Keeps (fun loc => loc.getLast? = some BuildLog.fileName) fs
      (r.persist fs logFolder fresh).1 := by
  rw [persist_fst]
  exact LogFile.write_keeps _ fun _ _ => BuildLog.getLast?_of_names

theorem wellNamed_persist (logFolder : Path) (h : fs.WellNamed) :
    (r.persist fs logFolder fresh).1.WellNamed := by
  rw [persist_fst]
  exact LogFile.wellNamed_write _ h

/-- The log that a build writes is the next one. -/
theorem persist_eq_ok_iff {logFolder : Path} : r.persist fs logFolder fresh = (fs', .ok next) ↔
    next = r.nextLog fs fresh ∧
      BuildLog.save fs (BuildLog.pathIn logFolder) next = (fs', .ok ()) := by
  unfold persist
  simp only
  constructor
  · intro h
    split at h
    next written hsave =>
      cases h
      exact ⟨rfl, hsave⟩
    · cases h
  · rintro ⟨rfl, hsave⟩
    rw [hsave]

/-- The log that a build writes is read as such. -/
theorem read_persist {logFolder : Path} (h : r.persist fs logFolder fresh = (fs', .ok next)) :
    next = r.nextLog fs fresh ∧
      fs'.read (BuildLog.pathIn logFolder) = .ok (LogFile.ofLog next).toText.toUTF8 :=
  (persist_eq_ok_iff.mp h).imp_right LogFile.read_write

/-- Once the log is written, the build leaves it behind whatever becomes of publishing. -/
theorem text_finish {written : FileSystem}
    (h : r.persist fs args.logFolder fresh = (written, .ok next)) :
    (r.finish fs args fresh).1.read args.logPath = .ok (LogFile.ofLog next).toText.toUTF8 := by
  obtain ⟨-, htext⟩ := read_persist h
  unfold finish
  simp only [h]
  split
  · exact htext
  next folder hfolder =>
    have hpublish := BuildLog.read_publish folder args.package next.classes htext
    split
    next published path hpublished => rwa [hpublished] at hpublish
    next published fault hpublished => rwa [hpublished] at hpublish

theorem read_finish {written : FileSystem}
    (h : r.persist fs args.logFolder fresh = (written, .ok next)) :
    BuildLog.read (r.finish fs args fresh).1 args.logPath = .ok (some next) :=
  BuildLog.read_of_text (text_finish h)

end Resolution

/-! ## A file system with a log -/

/-- A file system that holds a log in `log` and nothing else. -/
def FileSystem.ofLog (log : BuildLog) : FileSystem where
  nodes := Table.ofList [(["log"], .folder),
    (["log", "binder_log.json"], .file (.bytes (LogFile.ofLog log).toText.toUTF8))]
  workingFolder := []

theorem BuildLog.read_ofLog (log : BuildLog) :
    BuildLog.read (FileSystem.ofLog log) (BuildLog.pathIn ⟨"log"⟩) = .ok (some log) :=
  read_of_text rfl

/-! ## One file for logs and for classes -/

theorem LogFile.read_of_write {file : LogFile} (h : write fs path file = (fs', .ok ()))
    (hversion : file.formatVersion = currentFormat) : read fs' path = .ok (some file) :=
  read_eq_some (read_write h) hversion

/-- What has been saved is read back as it was, whatever was there before.  A log is read as a log
and as its classes; a file of classes is read as the classes and as a log with nothing else. -/
theorem saved_file_comes_back (fs fs' : FileSystem) (path : Path) :
    (∀ log, BuildLog.save fs path log = (fs', .ok ()) →
      BuildLog.read fs' path = .ok (some log) ∧ ClassTable.load fs' path = .ok log.classes) ∧
    ∀ classes, ClassTable.save fs path classes = (fs', .ok ()) →
      ClassTable.load fs' path = .ok classes ∧
        BuildLog.read fs' path = .ok (some ⟨classes, ∅, ∅, ∅⟩) := by
  constructor
  · intro log h
    have hread := LogFile.read_of_write h rfl
    refine ⟨BuildLog.read_of_save h, ?_⟩
    unfold ClassTable.load
    rw [hread]
    rfl
  · intro classes h
    have hread := LogFile.read_of_write h rfl
    constructor
    · unfold ClassTable.load
      rw [hread]
      rfl
    · unfold BuildLog.read
      rw [hread]
      rfl

/-- A log with quotes, a backslash and a line break in its names, and with a layout that refers to
nothing. -/
def quotedLog : BuildLog where
  classes := Table.ofList [("a\"\\\n", ⟨"com.Ä", "com", Table.ofList [("x", "List<\"y\">")], ∅⟩)]
  references := Table.ofList [("a\"\\\n", ∅)]
  dependencyClasses := ∅
  fingerprints := ∅

/-- The log is saved over another one, and its classes are saved over it. -/
theorem quotedLog_comes_back : ∃ fs₁ fs₂,
    BuildLog.save (.ofLog .empty) (BuildLog.pathIn ⟨"log"⟩) quotedLog = (fs₁, .ok ()) ∧
    BuildLog.read fs₁ (BuildLog.pathIn ⟨"log"⟩) = .ok (some quotedLog) ∧
    ClassTable.save fs₁ (BuildLog.pathIn ⟨"log"⟩) quotedLog.classes = (fs₂, .ok ()) ∧
    BuildLog.read fs₂ (BuildLog.pathIn ⟨"log"⟩) = .ok (some ⟨quotedLog.classes, ∅, ∅, ∅⟩) := by
  have hsave (before after : BuildLog) :
      BuildLog.save (.ofLog before) (BuildLog.pathIn ⟨"log"⟩) after = (.ofLog after, .ok ()) := rfl
  obtain ⟨fs₂, hclasses⟩ : ∃ fs₂, ClassTable.save (.ofLog quotedLog) (BuildLog.pathIn ⟨"log"⟩)
      quotedLog.classes = (fs₂, .ok ()) := ⟨_, rfl⟩
  have hread := (saved_file_comes_back _ _ _).1 quotedLog (hsave .empty quotedLog)
  have hread' := (saved_file_comes_back _ _ _).2 quotedLog.classes hclasses
  exact ⟨_, fs₂, hsave .empty quotedLog, hread.1, hclasses, hread'.2⟩

end LayoutRebuild
