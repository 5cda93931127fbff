import LayoutRebuild.Artifact.Merge
import LayoutRebuild.Proofs.Artifact.Loading
import LayoutRebuild.Proofs.Descriptor.Contents

/-!
# What the merged classes depend on

Of the files in the dependency folders only the artifacts of other modules count (`foreignArtifacts`):
the merged classes are their classes, put on top of each other in order (`classes_ofFolders`).  So the
classes of other modules stay the same as long as each folder has the same artifacts of other modules
(`classes_ofFolders_congr`).
-/

namespace LayoutRebuild.MergedArtifacts

variable {fs fs' : FileSystem} {ownPackage name : String} {p folder : Path}

/-! ## Artifacts of other modules -/

/-- The file name is that of an artifact of another module. -/
def IsForeign (ownPackage name : String) : Prop :=
  ∃ artifact, ArtifactName.parse name = some artifact ∧ artifact.package ≠ ownPackage

/-- The path leads to an artifact of another module. -/
def isForeign (ownPackage : String) (p : Path) : Bool :=
  (ArtifactName.ofPath? p).any fun artifact => artifact.package != ownPackage

theorem isForeign_join (hname : Path.IsName name) :
    isForeign ownPackage (folder.join name) = true ↔ IsForeign ownPackage name := by
  rw [isForeign, ArtifactName.ofPath?, Path.fileName?_join folder hname, Option.bind_some]
  unfold IsForeign
  cases ArtifactName.parse name <;> simp

/-- The artifacts of other modules in a folder, in the order in which they are merged. -/
def foreignArtifacts (fs : FileSystem) (ownPackage : String) (folder : Path) : List Path :=
  if fs.exists? folder then
    match fs.listFiles folder with
    | .ok paths => paths.filter (isForeign ownPackage)
    | .error _ => []
  else []

/-- The files of a dependency folder, in the order in which they are visited.  A folder that is not there
or cannot be listed has none. -/
def filesIn (fs : FileSystem) (folder : Path) : List Path :=
  if fs.exists? folder then
    match fs.listFiles folder with
    | .ok paths => paths
    | .error _ => []
  else []

theorem filesIn_of_listFiles {paths : List Path} (h : fs.listFiles folder = .ok paths) :
    filesIn fs folder = paths := by
  obtain ⟨loc, hloc, hfolder, -⟩ := FileSystem.listFiles_eq_ok h
  have hexists := (FileSystem.exists_listFiles hloc hfolder).1
  simp only [filesIn, hexists, h, if_true]

theorem foreignArtifacts_eq (fs : FileSystem) (ownPackage : String) (folder : Path) :
    foreignArtifacts fs ownPackage folder = (filesIn fs folder).filter (isForeign ownPackage) := by
  unfold foreignArtifacts filesIn
  split
  · cases fs.listFiles folder <;> rfl
  · rfl

theorem flatMap_foreignArtifacts (fs : FileSystem) (ownPackage : String) (folders : List Path) :
    folders.flatMap (foreignArtifacts fs ownPackage) =
      (folders.flatMap (filesIn fs)).filter (isForeign ownPackage) := by
  rw [List.filter_flatMap]
  exact List.flatMap_congr fun folder _ => foreignArtifacts_eq fs ownPackage folder

theorem foreignArtifacts_of_listFiles {paths : List Path} (h : fs.listFiles folder = .ok paths) :
    foreignArtifacts fs ownPackage folder = paths.filter (isForeign ownPackage) := by
  rw [foreignArtifacts_eq, filesIn_of_listFiles h]

/-- The files that are found under a name in a folder are visited, if the folder has a path. -/
theorem mem_filesIn_of_isFile (htext : folder.text ≠ "") (hname : Path.IsName name)
    (hfile : fs.isFile (folder.join name) = true) : folder.join name ∈ filesIn fs folder := by
  obtain ⟨content, hcontent⟩ := FileSystem.isFile_iff.mp hfile
  obtain ⟨loc', hloc', -⟩ := FileSystem.content_eq_ok.mp hcontent
  obtain ⟨loc, hloc, hfolder⟩ := FileSystem.locate_folder_of_join htext hname hloc'
  obtain ⟨-, paths, hlist⟩ := FileSystem.exists_listFiles hloc hfolder
  rw [filesIn_of_listFiles hlist]
  exact FileSystem.mem_listFiles_of_isFile hlist hname hfile

/-- No other files are. -/
theorem mem_filesIn (hnamed : fs.WellNamed) : p ∈ filesIn fs folder ↔ folder.text ≠ "" ∧
    ∃ name, Path.IsName name ∧ fs.isFile (folder.join name) = true ∧ p = folder.join name := by
  constructor
  · intro hp
    unfold filesIn at hp
    split at hp
    · cases hlist : fs.listFiles folder with
      | error fault => simp [hlist] at hp
      | ok paths =>
        simp only [hlist] at hp
        obtain ⟨hfile, name, hname, rfl⟩ := (FileSystem.mem_listFiles_iff hnamed hlist).mp hp
        obtain ⟨loc, hloc, -⟩ := FileSystem.listFiles_eq_ok hlist
        have htext := (FileSystem.checkText_eq_ok.mp (FileSystem.locate_eq_ok.mp hloc).1).2.1
        exact ⟨htext, name, hname, hfile, rfl⟩
    · cases hp
  · rintro ⟨htext, name, hname, hfile, rfl⟩
    exact mem_filesIn_of_isFile htext hname hfile

theorem sorted_filesIn (hnamed : fs.WellNamed) :
    (filesIn fs folder).Pairwise fun p q => compare p q = .lt := by
  unfold filesIn
  split
  · split
    next paths hlist => exact FileSystem.sorted_listFiles hnamed hlist
    · exact .nil
  · exact .nil

/-! ## What is merged -/

/-- The classes in an artifact, if it can be loaded. -/
def classesIn? (fs : FileSystem) (p : Path) : Option ClassTable := (Artifact.load fs p).toOption

theorem classesIn?_eq_some_iff {classes : ClassTable} :
    classesIn? fs p = some classes ↔ Artifact.load fs p = .ok classes := by
  unfold classesIn?
  cases Artifact.load fs p <;> simp [Except.toOption]

/-- Puts the classes of an artifact on top of what has been merged.  Without them it is skipped. -/
def put (merged : MergedArtifacts) (p : Path) : Option ClassTable → MergedArtifacts
  | some classes =>
    { merged with
      classes := merged.classes.override classes
      origins := merged.origins.override (classes.map fun _ _ => p)
      loaded := merged.loaded ++ [p] }
  | none => { merged with skipped := merged.skipped ++ [p] }

/-- Puts an artifact on top of what has been merged. -/
def addArtifact (fs : FileSystem) (merged : MergedArtifacts) (p : Path) : MergedArtifacts :=
  merged.put p (classesIn? fs p)

/-- What has been merged, whatever there was to report. -/
def silent (merged : MergedArtifacts) : MergedArtifacts := { merged with diagnostics := [] }

theorem silent_addFile (merged : MergedArtifacts) :
    (addFile fs ownPackage merged p).silent =
      ([p].filter (isForeign ownPackage)).foldl (addArtifact fs) merged.silent := by
  unfold addFile
  cases hname : ArtifactName.ofPath? p with
  | none =>
    have hstray : [p].filter (isForeign ownPackage) = [] := by simp [isForeign, hname]
    rw [hstray]
    rfl
  | some artifact =>
    by_cases hown : artifact.package = ownPackage
    · have hleft : [p].filter (isForeign ownPackage) = [] := by simp [isForeign, hname, hown]
      simp only [if_pos hown, hleft, List.foldl_nil]
    · have hforeign : [p].filter (isForeign ownPackage) = [p] := by
        simp [isForeign, hname, hown]
      simp only [if_neg hown, hforeign, List.foldl_cons, List.foldl_nil, addArtifact, classesIn?]
      cases Artifact.load fs p <;> rfl

theorem silent_foldl_addFile (merged : MergedArtifacts) (paths : List Path) :
    (paths.foldl (addFile fs ownPackage) merged).silent =
      (paths.filter (isForeign ownPackage)).foldl (addArtifact fs) merged.silent := by
  induction paths generalizing merged with
  | nil => rfl
  | cons p rest ih =>
    rw [List.foldl_cons, ih, silent_addFile, ← List.foldl_append, ← List.filter_append]
    rfl

theorem silent_addFolder (merged : MergedArtifacts) :
    (addFolder fs ownPackage merged folder).silent =
      (foreignArtifacts fs ownPackage folder).foldl (addArtifact fs) merged.silent := by
  unfold addFolder foreignArtifacts
  split
  · cases fs.listFiles folder with
    | ok paths => exact silent_foldl_addFile merged paths
    | error fault => rfl
  · rfl

/-- What is merged is one artifact of another module on top of the other. -/
theorem silent_ofFolders (fs : FileSystem) (ownPackage : String) (folders : List Path) :
    (ofFolders fs folders ownPackage).silent =
      (folders.flatMap (foreignArtifacts fs ownPackage)).foldl (addArtifact fs) empty := by
  have hfold (merged : MergedArtifacts) :
      (folders.foldl (addFolder fs ownPackage) merged).silent =
        (folders.flatMap (foreignArtifacts fs ownPackage)).foldl (addArtifact fs)
          merged.silent := by
    induction folders generalizing merged with
    | nil => rfl
    | cons folder rest ih =>
      rw [List.foldl_cons, ih, silent_addFolder, List.flatMap_cons, List.foldl_append]
  exact hfold empty

/-- The classes of some artifacts on top of those that there are.  An artifact that cannot be loaded
has none. -/
def overlay (fs : FileSystem) (classes : ClassTable) (paths : List Path) : ClassTable :=
  (paths.filterMap (classesIn? fs)).foldl Table.override classes

theorem classes_foldl_addArtifact (merged : MergedArtifacts) (paths : List Path) :
    (paths.foldl (addArtifact fs) merged).classes = overlay fs merged.classes paths := by
  induction paths generalizing merged with
  | nil => rfl
  | cons p rest ih =>
    rw [List.foldl_cons, ih, addArtifact, overlay, overlay]
    cases hclasses : classesIn? fs p with
    | none =>
      rw [List.filterMap_cons_none hclasses]
      rfl
    | some classes =>
      rw [List.filterMap_cons_some hclasses]
      rfl

/-- The merged classes are those of the artifacts of other modules, one artifact on top of the other. -/
theorem classes_ofFolders (folders : List Path) : (ofFolders fs folders ownPackage).classes =
    overlay fs ∅ (folders.flatMap (foreignArtifacts fs ownPackage)) := by
  have hclasses := congrArg classes (silent_ofFolders fs ownPackage folders)
  rwa [classes_foldl_addArtifact] at hclasses

/-! ## The same artifacts -/

theorem mem_foreignArtifacts_of_isFile (htext : folder.text ≠ "") (hname : Path.IsName name)
    (hforeign : IsForeign ownPackage name) (hfile : fs.isFile (folder.join name) = true) :
    folder.join name ∈ foreignArtifacts fs ownPackage folder := by
  rw [foreignArtifacts_eq]
  exact List.mem_filter.mpr ⟨mem_filesIn_of_isFile htext hname hfile,
    (isForeign_join hname).mpr hforeign⟩

/-- The artifacts of other modules in a folder are the files under their names. -/
theorem mem_foreignArtifacts (hnamed : fs.WellNamed) : p ∈ foreignArtifacts fs ownPackage folder ↔
    folder.text ≠ "" ∧ ∃ name, Path.IsName name ∧ IsForeign ownPackage name ∧
      fs.isFile (folder.join name) = true ∧ p = folder.join name := by
  rw [foreignArtifacts_eq, List.mem_filter, mem_filesIn hnamed]
  constructor
  · rintro ⟨⟨htext, name, hname, hfile, rfl⟩, hforeign⟩
    exact ⟨htext, name, hname, (isForeign_join hname).mp hforeign, hfile, rfl⟩
  · rintro ⟨htext, name, hname, hforeign, hfile, rfl⟩
    exact ⟨⟨htext, name, hname, hfile, rfl⟩, (isForeign_join hname).mpr hforeign⟩

theorem sorted_foreignArtifacts (hnamed : fs.WellNamed) :
    (foreignArtifacts fs ownPackage folder).Pairwise fun p q => compare p q = .lt := by
  rw [foreignArtifacts_eq]
  exact (sorted_filesIn hnamed).filter _

/-- Folders with the same artifacts of other modules have them in the same order. -/
theorem foreignArtifacts_congr (hnamed : fs.WellNamed) (hnamed' : fs'.WellNamed)
    (h : FileSystem.SameFiles (IsForeign ownPackage) fs fs' folder) :
    foreignArtifacts fs' ownPackage folder = foreignArtifacts fs ownPackage folder := by
  refine eq_of_sorted (sorted_foreignArtifacts hnamed') (sorted_foreignArtifacts hnamed) fun p => ?_
  rw [mem_foreignArtifacts hnamed', mem_foreignArtifacts hnamed]
  refine and_congr_right fun _ => exists_congr fun name => and_congr_right fun hname =>
    and_congr_right fun hforeign => ?_
  rw [h.isFile_eq hname hforeign]

theorem classesIn?_congr {p' : Path} {content : FileContent} (h : fs.content p = .ok content)
    (h' : fs'.content p' = .ok content) (hname : p'.fileName? = p.fileName?) :
    classesIn? fs' p' = classesIn? fs p := by
  have hread : fs'.read p' = fs.read p := FileSystem.read_congr (h'.trans h.symm)
  apply Option.ext
  intro classes
  rw [classesIn?_eq_some_iff, classesIn?_eq_some_iff, Artifact.load_eq_ok_congr hread hname]

/-- Folders with the same artifacts of other modules have the same merged classes. -/
theorem classes_ofFolders_congr {folders : List Path} (hnamed : fs.WellNamed)
    (hnamed' : fs'.WellNamed)
    (h : ∀ folder ∈ folders, FileSystem.SameFiles (IsForeign ownPackage) fs fs' folder) :
    (ofFolders fs' folders ownPackage).classes = (ofFolders fs folders ownPackage).classes := by
  have hartifacts : folders.flatMap (foreignArtifacts fs' ownPackage) =
      folders.flatMap (foreignArtifacts fs ownPackage) := by
    apply List.flatMap_congr
    intro folder hfolder
    exact foreignArtifacts_congr hnamed hnamed' (h folder hfolder)
  have hload : ∀ p ∈ folders.flatMap (foreignArtifacts fs ownPackage),
      classesIn? fs' p = classesIn? fs p := by
    intro p hp
    obtain ⟨folder, hfolder, hp⟩ := List.mem_flatMap.mp hp
    obtain ⟨-, name, hname, hforeign, hfile, rfl⟩ := (mem_foreignArtifacts hnamed).mp hp
    obtain ⟨content, hcontent⟩ := FileSystem.isFile_iff.mp hfile
    exact classesIn?_congr hcontent
      ((h folder hfolder name content hname hforeign).mpr hcontent) rfl
  rw [classes_ofFolders, classes_ofFolders, hartifacts, overlay, overlay,
    List.filterMap_congr hload]

end LayoutRebuild.MergedArtifacts
