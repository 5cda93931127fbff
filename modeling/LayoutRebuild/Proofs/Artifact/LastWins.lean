import LayoutRebuild.Proofs.Artifact.Merged
import LayoutRebuild.Proofs.FileSystem.Removing
import LayoutRebuild.Proofs.Log.Saved
import Mathlib.Data.List.Find

/-!
# The last artifact wins

Every artifact of another module is either loaded or skipped, and of those that are loaded the last one
that has a class for a layout counts (`Merges`).  So what is merged is decided by the artifacts that are
loaded and by nothing else.  A file that is not loaded may as well be deleted, and to go through all
folders a second time changes nothing (`last_artifact_wins`).
-/

namespace LayoutRebuild

namespace MergedArtifacts

variable {fs fs' : FileSystem} {ownPackage layout : String} {p folder : Path}
  {artifacts folders : List Path} {merged merged' : MergedArtifacts}

/-! ## Loaded and skipped -/

/-- Whether the artifact at a path can be loaded. -/
def loads (fs : FileSystem) (p : Path) : Bool := (classesIn? fs p).isSome

/-- The class of a layout in the artifact at a path. -/
def classIn? (fs : FileSystem) (layout : String) (p : Path) : Option BindingClass :=
  (classesIn? fs p).bind (·.get? layout)

/-- The last of some artifacts that has a class for a layout. -/
def lastWith? (fs : FileSystem) (layout : String) (artifacts : List Path) : Option Path :=
  artifacts.reverse.find? fun p => (classIn? fs layout p).isSome

theorem lastWith?_append (artifacts artifacts' : List Path) :
    lastWith? fs layout (artifacts ++ artifacts') =
      (lastWith? fs layout artifacts').or (lastWith? fs layout artifacts) := by
  rw [lastWith?, List.reverse_append, List.find?_append]
  rfl

theorem lastWith?_eq_some (h : lastWith? fs layout artifacts = some p) :
    p ∈ artifacts ∧ (classIn? fs layout p).isSome :=
  ⟨List.mem_reverse.mp (List.mem_of_find?_eq_some h), by simpa using List.find?_some h⟩

theorem lastWith?_congr (h : ∀ p ∈ artifacts, classesIn? fs' p = classesIn? fs p) :
    lastWith? fs' layout artifacts = lastWith? fs layout artifacts := by
  apply List.find?_congr
  intro p hp
  rw [classIn?, classIn?, h p (List.mem_reverse.mp hp)]

/-- What some artifacts are merged to: those that can be loaded are loaded, the others are skipped, and
for each layout the last artifact with a class for it is the one that its class comes from. -/
structure Merges (fs : FileSystem) (artifacts : List Path) (merged : MergedArtifacts) : Prop where
  loaded_eq : merged.loaded = artifacts.filter (loads fs)
  skipped_eq : merged.skipped = artifacts.filter fun p => !loads fs p
  origin_eq : ∀ layout, merged.origins.get? layout = lastWith? fs layout merged.loaded
  class_eq : ∀ layout,
    merged.classes.get? layout = (merged.origins.get? layout).bind (classIn? fs layout)

theorem merges_empty : Merges fs [] empty := ⟨rfl, rfl, fun _ => rfl, fun _ => rfl⟩

/-- One more artifact is loaded or skipped. -/
theorem Merges.addArtifact (h : Merges fs artifacts merged) (p : Path) :
    Merges fs (artifacts ++ [p]) (addArtifact fs merged p) := by
  rw [MergedArtifacts.addArtifact]
  cases hclasses : classesIn? fs p with
  | none =>
    refine ⟨?_, ?_, h.origin_eq, h.class_eq⟩
    · simp [put, h.loaded_eq, loads, hclasses]
    · simp [put, h.skipped_eq, loads, hclasses]
  | some classes =>
    have hclass (layout : String) : classIn? fs layout p = classes.get? layout := by
      rw [classIn?, hclasses, Option.bind_some]
    refine ⟨?_, ?_, fun layout => ?_, fun layout => ?_⟩
    · simp [put, h.loaded_eq, loads, hclasses]
    · simp [put, h.skipped_eq, loads, hclasses]
    · simp only [put, Table.get?_override, Table.get?_map, lastWith?_append, h.origin_eq]
      cases hget : classes.get? layout <;> simp [lastWith?, hclass, hget]
    · simp only [put, Table.get?_override, Table.get?_map, h.class_eq]
      cases hget : classes.get? layout <;> simp [hclass, hget]

theorem Merges.foldl (h : Merges fs artifacts merged) (more : List Path) :
    Merges fs (artifacts ++ more) (more.foldl (MergedArtifacts.addArtifact fs) merged) := by
  induction more generalizing artifacts merged with
  | nil => rwa [List.append_nil]
  | cons p rest ih =>
    rw [List.foldl_cons, List.append_cons]
    exact ih (h.addArtifact p)

theorem merges_ofFolders (fs : FileSystem) (ownPackage : String) (folders : List Path) :
    Merges fs (folders.flatMap (foreignArtifacts fs ownPackage))
      (ofFolders fs folders ownPackage) := by
  have h : Merges fs (folders.flatMap (foreignArtifacts fs ownPackage))
      (ofFolders fs folders ownPackage).silent := by
    rw [silent_ofFolders]
    exact merges_empty.foldl _
  exact ⟨h.loaded_eq, h.skipped_eq, h.origin_eq, h.class_eq⟩

namespace Merges

theorem mem_origins_iff (h : Merges fs artifacts merged) :
    layout ∈ merged.origins ↔ layout ∈ merged.classes := by
  rw [Table.mem_iff, Table.mem_iff, h.class_eq]
  cases horigin : merged.origins.get? layout with
  | none => rfl
  | some p =>
    rw [h.origin_eq] at horigin
    simp [(lastWith?_eq_some horigin).2]

/-- If the same artifacts come last, and hold the same, then the same is merged. -/
theorem congr (h : Merges fs artifacts merged) {artifacts' : List Path}
    (h' : Merges fs' artifacts' merged')
    (hlast : ∀ layout, lastWith? fs layout merged'.loaded = lastWith? fs layout merged.loaded)
    (hholds : ∀ p ∈ merged'.loaded, classesIn? fs' p = classesIn? fs p) :
    merged'.classes = merged.classes ∧ merged'.origins = merged.origins := by
  have horigin (layout : String) :
      merged'.origins.get? layout = merged.origins.get? layout := by
    rw [h'.origin_eq, h.origin_eq, lastWith?_congr hholds, hlast]
  refine ⟨Table.ext_get? fun layout => ?_, Table.ext_get? horigin⟩
  rw [h'.class_eq, h.class_eq, ← horigin]
  cases hp : merged'.origins.get? layout with
  | none => rfl
  | some p =>
    rw [h'.origin_eq] at hp
    simp only [Option.bind_some, classIn?, hholds p (lastWith?_eq_some hp).1]

end Merges

/-! ## Files that are not loaded -/

/-- A file that no artifact is loaded from: it is not called like an artifact of another module, or it
cannot be loaded. -/
def Idle (fs : FileSystem) (ownPackage : String) (p : Path) : Prop :=
  ∃ (folder : Path) (name : String), Path.IsName name ∧ p = folder.join name ∧
    fs.isFile p = true ∧ ¬ (isForeign ownPackage p = true ∧ loads fs p = true)

/-- A file that is left when others have been removed was there, and it held the same. -/
theorem holds_of_isFile_removeFiles {files : List Path}
    (h : (fs.removeFiles files).isFile p = true) :
    fs.isFile p = true ∧ classesIn? (fs.removeFiles files) p = classesIn? fs p := by
  obtain ⟨content, hcontent⟩ := FileSystem.isFile_iff.mp h
  have hcontent' := FileSystem.removeFiles_keeps_back.content hcontent fun _ _ => not_false
  exact ⟨FileSystem.isFile_iff.mpr ⟨content, hcontent'⟩, classesIn?_congr hcontent' hcontent rfl⟩

/-- What can be loaded is not removed along with such files. -/
theorem content_removeFiles {files : List Path} (hidle : ∀ q ∈ files, Idle fs ownPackage q)
    {name : String} (hname : Path.IsName name) (hforeign : IsForeign ownPackage name)
    {content : FileContent} (hcontent : fs.content (folder.join name) = .ok content)
    (hloads : loads fs (folder.join name) = true) :
    (fs.removeFiles files).content (folder.join name) = .ok content := by
  refine FileSystem.removeFiles_keeps.content hcontent ?_
  rintro loc hloc ⟨q, hq, hnames⟩
  obtain ⟨folder', name', hname', rfl, hfile, hunused⟩ := hidle q hq
  obtain ⟨content', hcontent'⟩ := FileSystem.isFile_iff.mp hfile
  -- The removed file stands where the other one does, so it is called the same and holds the same.
  obtain ⟨rfl, rfl⟩ := FileSystem.eq_of_same_place hname hname' hcontent hcontent' hloc hnames
  refine hunused ⟨(isForeign_join hname').mpr hforeign, ?_⟩
  have hsame : (folder'.join name').fileName? = (folder.join name').fileName? := by
    rw [Path.fileName?_join folder' hname', Path.fileName?_join folder hname']
  rwa [loads, classesIn?_congr hcontent hcontent' hsame]

/-- The artifacts of a folder that can be loaded stay the same when such files are removed. -/
theorem loadable_removeFiles (hnamed : fs.WellNamed) {files : List Path}
    (hidle : ∀ q ∈ files, Idle fs ownPackage q) (folder : Path) :
    (foreignArtifacts (fs.removeFiles files) ownPackage folder).filter
        (loads (fs.removeFiles files)) =
      (foreignArtifacts fs ownPackage folder).filter (loads fs) := by
  refine eq_of_sorted ((sorted_foreignArtifacts hnamed.removeFiles).filter _)
    ((sorted_foreignArtifacts hnamed).filter _) fun p => ?_
  rw [List.mem_filter, List.mem_filter, mem_foreignArtifacts hnamed.removeFiles,
    mem_foreignArtifacts hnamed]
  constructor
  · rintro ⟨⟨htext, name, hname, hforeign, hfile, rfl⟩, hloads⟩
    obtain ⟨hstood, hholds⟩ := holds_of_isFile_removeFiles hfile
    rw [loads, hholds] at hloads
    exact ⟨⟨htext, name, hname, hforeign, hstood, rfl⟩, hloads⟩
  · rintro ⟨⟨htext, name, hname, hforeign, hfile, rfl⟩, hloads⟩
    obtain ⟨content, hcontent⟩ := FileSystem.isFile_iff.mp hfile
    have hcontent' := content_removeFiles hidle hname hforeign hcontent hloads
    refine ⟨⟨htext, name, hname, hforeign, FileSystem.isFile_iff.mpr ⟨content, hcontent'⟩, rfl⟩, ?_⟩
    rwa [loads, classesIn?_congr hcontent hcontent' rfl]

/-- Merging goes through the folders in order, and through the artifacts of other modules in a folder in
the order of their names: those that can be loaded are loaded, the others are skipped, and the last one
with a class for a layout wins.  Files that nothing is loaded from can be deleted without a trace, and to
merge the same folders twice is to merge them once. -/
theorem last_artifact_wins (hnamed : fs.WellNamed) (folders : List Path) (ownPackage : String) :
    Merges fs (folders.flatMap (foreignArtifacts fs ownPackage))
      (ofFolders fs folders ownPackage) ∧
    (∀ folder, (foreignArtifacts fs ownPackage folder).Pairwise (fun p q => compare p q = .lt) ∧
      ∀ p, p ∈ foreignArtifacts fs ownPackage folder ↔ folder.text ≠ "" ∧
        ∃ name, Path.IsName name ∧ IsForeign ownPackage name ∧
          fs.isFile (folder.join name) = true ∧ p = folder.join name) ∧
    (∀ layout, layout ∈ (ofFolders fs folders ownPackage).origins ↔
      layout ∈ (ofFolders fs folders ownPackage).classes) ∧
    (∀ files, (∀ p ∈ files, Idle fs ownPackage p) →
      (∀ p ∈ files, (fs.removeFiles files).isFile p = false) ∧
      (ofFolders (fs.removeFiles files) folders ownPackage).loaded =
        (ofFolders fs folders ownPackage).loaded ∧
      (ofFolders (fs.removeFiles files) folders ownPackage).classes =
        (ofFolders fs folders ownPackage).classes ∧
      (ofFolders (fs.removeFiles files) folders ownPackage).origins =
        (ofFolders fs folders ownPackage).origins) ∧
    (ofFolders fs (folders ++ folders) ownPackage).classes =
      (ofFolders fs folders ownPackage).classes ∧
    (ofFolders fs (folders ++ folders) ownPackage).origins =
      (ofFolders fs folders ownPackage).origins := by
  have hmerges := merges_ofFolders fs ownPackage folders
  refine ⟨hmerges, fun folder => ⟨sorted_foreignArtifacts hnamed, fun p =>
    mem_foreignArtifacts hnamed⟩, fun layout => hmerges.mem_origins_iff, fun files hidle => ?_, ?_⟩
  · have hremoved := merges_ofFolders (fs.removeFiles files) ownPackage folders
    have hloaded : (ofFolders (fs.removeFiles files) folders ownPackage).loaded =
        (ofFolders fs folders ownPackage).loaded := by
      rw [hremoved.loaded_eq, hmerges.loaded_eq, List.filter_flatMap, List.filter_flatMap]
      exact List.flatMap_congr fun folder _ => loadable_removeFiles hnamed hidle folder
    refine ⟨fun p hp => ?_, hloaded, hmerges.congr hremoved (fun _ => by rw [hloaded]) ?_⟩
    · obtain ⟨folder, name, hname, rfl, -, -⟩ := hidle p hp
      exact FileSystem.isFile_removeFiles hname hp
    · intro p hp
      rw [hremoved.loaded_eq] at hp
      obtain ⟨folder, -, hp⟩ := List.mem_flatMap.mp (List.mem_filter.mp hp).1
      obtain ⟨-, name, -, -, hfile, rfl⟩ := (mem_foreignArtifacts hnamed.removeFiles).mp hp
      exact (holds_of_isFile_removeFiles hfile).2
  · have htwice := merges_ofFolders fs ownPackage (folders ++ folders)
    refine hmerges.congr htwice (fun layout => ?_) fun _ _ => rfl
    rw [htwice.loaded_eq, hmerges.loaded_eq, List.flatMap_append, List.filter_append,
      lastWith?_append, Option.or_self]

end MergedArtifacts

/-! ## Two folders with a class for one layout -/

/-- A table with a class for one layout. -/
def ClassTable.single (layout className : String) : ClassTable :=
  Table.ofList [(layout, ⟨className, "com", ∅, ∅⟩)]

/-- A file system with one artifact in a folder and two in another. -/
def FileSystem.ofArtifacts (a b c : ByteArray) : FileSystem where
  nodes := Table.ofList [(["x"], .folder), (["x", (ArtifactName.mk "a").fileName], .file (.bytes a)),
    (["y"], .folder), (["y", (ArtifactName.mk "b").fileName], .file (.bytes b)),
    (["y", (ArtifactName.mk "c").fileName], .file (.bytes c))]
  workingFolder := []

namespace MergedArtifacts

section OfArtifacts

variable (a b c : ByteArray)

theorem read_ofArtifacts :
    (FileSystem.ofArtifacts a b c).read (Artifact.pathIn ⟨"x"⟩ "a") = .ok a ∧
    (FileSystem.ofArtifacts a b c).read (Artifact.pathIn ⟨"y"⟩ "b") = .ok b ∧
    (FileSystem.ofArtifacts a b c).read (Artifact.pathIn ⟨"y"⟩ "c") = .ok c := ⟨rfl, rfl, rfl⟩

theorem listFiles_ofArtifacts :
    (FileSystem.ofArtifacts a b c).listFiles ⟨"x"⟩ = .ok [Artifact.pathIn ⟨"x"⟩ "a"] ∧
    (FileSystem.ofArtifacts a b c).listFiles ⟨"y"⟩ =
      .ok [Artifact.pathIn ⟨"y"⟩ "b", Artifact.pathIn ⟨"y"⟩ "c"] := by
  obtain ⟨ha, hb, hc⟩ := read_ofArtifacts a b c
  have hfile {p : Path} {content : ByteArray}
      (h : (FileSystem.ofArtifacts a b c).read p = .ok content) :
      (FileSystem.ofArtifacts a b c).isFile p = true := FileSystem.isFile_of_read h
  have hx : (FileSystem.ofArtifacts a b c).list ⟨"x"⟩ =
      .ok [((ArtifactName.mk "a").fileName, .file (.bytes a))] := rfl
  have hy : (FileSystem.ofArtifacts a b c).list ⟨"y"⟩ =
      .ok [((ArtifactName.mk "b").fileName, .file (.bytes b)),
        ((ArtifactName.mk "c").fileName, .file (.bytes c))] := rfl
  constructor
  · refine FileSystem.listFiles_of_sorted hx ?_ (List.pairwise_singleton _ _)
    exact List.filter_cons_of_pos (hfile ha)
  · refine FileSystem.listFiles_of_sorted hy ?_ (by decide)
    refine (List.filter_cons_of_pos (hfile hb)).trans (congrArg _ ?_)
    exact List.filter_cons_of_pos (hfile hc)

theorem foreignArtifacts_ofArtifacts :
    [Path.mk "x", ⟨"y"⟩].flatMap (foreignArtifacts (.ofArtifacts a b c) "z") =
      [Artifact.pathIn ⟨"x"⟩ "a", Artifact.pathIn ⟨"y"⟩ "b", Artifact.pathIn ⟨"y"⟩ "c"] := by
  obtain ⟨hx, hy⟩ := listFiles_ofArtifacts a b c
  rw [List.flatMap_cons, List.flatMap_singleton, foreignArtifacts_of_listFiles hx,
    foreignArtifacts_of_listFiles hy]
  rfl

end OfArtifacts

/-- Of two artifacts with a class for one layout the one in the last folder wins, and it still does when
an artifact whose layout has no name has been deleted. -/
theorem later_folder_wins : ∃ fs : FileSystem, fs.WellNamed ∧
    (ofFolders fs [⟨"x"⟩, ⟨"y"⟩] "z").loaded =
      [Artifact.pathIn ⟨"x"⟩ "a", Artifact.pathIn ⟨"y"⟩ "b"] ∧
    (ofFolders fs [⟨"x"⟩, ⟨"y"⟩] "z").skipped = [Artifact.pathIn ⟨"y"⟩ "c"] ∧
    (ofFolders fs [⟨"x"⟩, ⟨"y"⟩] "z").origins.get? "m" = some (Artifact.pathIn ⟨"y"⟩ "b") ∧
    (ofFolders fs [⟨"x"⟩, ⟨"y"⟩] "z").classes.get? "m" = some ⟨"B", "com", ∅, ∅⟩ ∧
    (ofFolders (fs.removeFiles [Artifact.pathIn ⟨"y"⟩ "c"]) [⟨"x"⟩, ⟨"y"⟩] "z").classes.get? "m" =
      some ⟨"B", "com", ∅, ∅⟩ := by
  obtain ⟨a, htexta⟩ : ∃ a, a = (LogFile.ofClasses (.single "m" "A")).toText.toUTF8 := ⟨_, rfl⟩
  obtain ⟨b, htextb⟩ : ∃ b, b = (LogFile.ofClasses (.single "m" "B")).toText.toUTF8 := ⟨_, rfl⟩
  obtain ⟨c, htextc⟩ : ∃ c, c = (LogFile.ofClasses (.single "" "C")).toText.toUTF8 := ⟨_, rfl⟩
  have hnamed : (FileSystem.ofArtifacts a b c).WellNamed := .ofList (by simp; decide)
  obtain ⟨hmerges, -, -, hdelete, -⟩ := last_artifact_wins hnamed [⟨"x"⟩, ⟨"y"⟩] "z"
  obtain ⟨hreada, hreadb, hreadc⟩ := read_ofArtifacts a b c
  have ha : classesIn? (.ofArtifacts a b c) (Artifact.pathIn ⟨"x"⟩ "a") = some (.single "m" "A") :=
    classesIn?_eq_some_iff.mpr ((Artifact.load_of_text rfl
      (hreada.trans (congrArg _ htexta))).mpr ⟨rfl, ClassTable.named_ofList (by decide)⟩)
  have hb : classesIn? (.ofArtifacts a b c) (Artifact.pathIn ⟨"y"⟩ "b") = some (.single "m" "B") :=
    classesIn?_eq_some_iff.mpr ((Artifact.load_of_text rfl
      (hreadb.trans (congrArg _ htextb))).mpr ⟨rfl, ClassTable.named_ofList (by decide)⟩)
  have hc : classesIn? (.ofArtifacts a b c) (Artifact.pathIn ⟨"y"⟩ "c") = none := by
    rw [Option.eq_none_iff_forall_ne_some]
    intro classes hclasses
    have hnames := ((Artifact.load_of_text rfl (hreadc.trans (congrArg _ htextc))).mp
      (classesIn?_eq_some_iff.mp hclasses)).2
    exact (hnames "" ⟨"C", "com", ∅, ∅⟩ rfl).1 rfl
  have hloaded := hmerges.loaded_eq
  have hskipped := hmerges.skipped_eq
  simp only [foreignArtifacts_ofArtifacts] at hloaded hskipped
  simp [loads, ha, hb, hc] at hloaded hskipped
  have horigin := hmerges.origin_eq "m"
  have hclass := hmerges.class_eq "m"
  have hm : classIn? (.ofArtifacts a b c) "m" (Artifact.pathIn ⟨"y"⟩ "b") =
      some ⟨"B", "com", ∅, ∅⟩ := by
    rw [classIn?, hb]
    rfl
  simp [hloaded, lastWith?, hm] at horigin
  rw [horigin, Option.bind_some, hm] at hclass
  have hidle : ∀ p ∈ [Artifact.pathIn ⟨"y"⟩ "c"], Idle (.ofArtifacts a b c) "z" p := by
    intro p hp
    rw [List.mem_singleton.mp hp]
    exact ⟨⟨"y"⟩, (ArtifactName.mk "c").fileName, by decide, rfl,
      FileSystem.isFile_of_read hreadc, by simp [loads, hc]⟩
  refine ⟨.ofArtifacts a b c, hnamed, hloaded, hskipped, horigin, hclass, ?_⟩
  rw [(hdelete _ hidle).2.2.1, hclass]

end MergedArtifacts

end LayoutRebuild
