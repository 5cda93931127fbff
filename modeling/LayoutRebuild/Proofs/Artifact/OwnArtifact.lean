import LayoutRebuild.Proofs.Artifact.Published
import LayoutRebuild.Proofs.Artifact.Reports
import LayoutRebuild.Proofs.Path.Parent

/-!
# A package names its own artifact

The artifact of an accepted package is an entry of the folder that it is published into, and its name
stands for that package and for no other one.  So whoever merges the folder ignores the artifact exactly
if it is their own (`accepted_package_names_artifact`), unless the folder has no path: then no file is
found in it, whoever looks for one (`artifact_without_folder_ignored`).
-/

namespace LayoutRebuild

variable {fs : FileSystem} {folder p : Path} {package ownPackage : String}

/-! ## What is ignored -/

namespace MergedArtifacts

/-- Nothing comes from the file, and nothing is said about it. -/
structure Ignores (merged : MergedArtifacts) (p : Path) : Prop where
  not_loaded : p ∉ merged.loaded
  not_skipped : p ∉ merged.skipped
  no_origin : ∀ layout, merged.origins.get? layout ≠ some p
  not_reported : ∀ d ∈ merged.diagnostics, d.path ≠ some p

/-- What is no artifact of another module is not merged. -/
theorem Merges.ignores {artifacts : List Path} {merged : MergedArtifacts}
    (h : Merges fs artifacts merged) (hp : p ∉ artifacts)
    (hreports : ∀ d ∈ merged.diagnostics, d.path ≠ some p) : merged.Ignores p := by
  have hloaded : p ∉ merged.loaded := by
    rw [h.loaded_eq]
    exact fun hmem => hp (List.mem_of_mem_filter hmem)
  refine ⟨hloaded, ?_, fun layout horigin => ?_, hreports⟩
  · rw [h.skipped_eq]
    exact fun hmem => hp (List.mem_of_mem_filter hmem)
  · rw [h.origin_eq] at horigin
    exact hloaded (lastWith?_eq_some horigin).1

/-- Every artifact of another module is loaded or skipped. -/
theorem Merges.not_ignores {artifacts : List Path} {merged : MergedArtifacts}
    (h : Merges fs artifacts merged) (hp : p ∈ artifacts) : ¬ merged.Ignores p := by
  intro hignores
  cases hloads : loads fs p with
  | true =>
    apply hignores.not_loaded
    rw [h.loaded_eq]
    exact List.mem_filter.mpr ⟨hp, hloads⟩
  | false =>
    apply hignores.not_skipped
    rw [h.skipped_eq]
    exact List.mem_filter.mpr ⟨hp, by simp [hloads]⟩

/-- A report about a file is one about the path of the file. -/
theorem path_of_fileReport? {d : Diagnostic} (h : fileReport? fs ownPackage p = some d) :
    d.path = some p := by
  obtain ⟨-, -, hreport⟩ | ⟨-, -, d', ⟨name, fault, -, -, rfl⟩, hreport⟩ | ⟨-, -, hreport⟩ :=
    fileReport?_cases fs ownPackage p
  · cases hreport.symm.trans h
    rfl
  · cases hreport.symm.trans h
    rfl
  · cases hreport.symm.trans h

/-- A visit to a folder says nothing about the artifact of the module itself. -/
theorem own_not_reported (hname : ArtifactName.ofPath? p = some ⟨ownPackage⟩) (hfolder : p ≠ folder)
    {d : Diagnostic} (hd : d ∈ visitReports fs ownPackage folder) : d.path ≠ some p := by
  intro hpath
  rcases List.mem_append.mp hd with hd | hd
  · obtain ⟨fault, -, -, rfl⟩ := folderReport?_eq_some (Option.mem_toList.mp hd)
    exact hfolder (Option.some.inj hpath).symm
  · obtain ⟨q, -, hq⟩ := List.mem_filterMap.mp hd
    obtain rfl : q = p := Option.some.inj ((path_of_fileReport? hq).symm.trans hpath)
    simp [fileReport?, hname] at hq

/-- In a folder without a path there is nothing to merge. -/
theorem ofFolders_blank (fs : FileSystem) (ownPackage : String) (hfolder : folder.text = "") :
    ofFolders fs [folder] ownPackage = empty := by
  obtain ⟨text⟩ := folder
  obtain rfl : text = "" := hfolder
  have hexists : fs.exists? ⟨""⟩ = false := rfl
  simp only [ofFolders, List.foldl_cons, List.foldl_nil, addFolder, hexists, Bool.false_eq_true,
    if_false]

theorem empty_ignores (p : Path) : empty.Ignores p where
  not_loaded := List.not_mem_nil
  not_skipped := List.not_mem_nil
  no_origin _ horigin := by cases horigin
  not_reported _ hd := absurd hd List.not_mem_nil

/-- Whoever merges a folder ignores an artifact in it exactly if it is their own. -/
theorem ignores_artifact_iff (hpackage : ModuleConfig.IsPackage package)
    (hfile : fs.isFile (Artifact.pathIn folder package) = true) :
    (ofFolders fs [folder] ownPackage).Ignores (Artifact.pathIn folder package) ↔
      ownPackage = package ∨ folder.text = "" := by
  have hname := ArtifactName.isName_fileName hpackage.no_slash
  have hpath := Artifact.ofPath?_pathIn hpackage.ne_empty hpackage.no_slash folder
  have hmerges := merges_ofFolders fs ownPackage [folder]
  rw [List.flatMap_singleton] at hmerges
  constructor
  · intro hignores
    by_contra hother
    rw [not_or] at hother
    obtain ⟨hown, htext⟩ := hother
    have hforeign := isForeign_fileName hpackage.ne_empty hown
    exact hmerges.not_ignores (mem_foreignArtifacts_of_isFile htext hname hforeign hfile) hignores
  · rintro (rfl | htext)
    · refine hmerges.ignores ?_ ?_
      · rw [foreignArtifacts_eq, List.mem_filter, not_and]
        simp [isForeign, hpath]
      · rw [diagnostics_ofFolders, List.flatMap_singleton]
        exact fun d hd => own_not_reported hpath (Path.isEntryOf_join folder hname).ne_folder hd
    · rw [ofFolders_blank fs ownPackage htext]
      exact empty_ignores _

end MergedArtifacts

/-! ## Names of accepted packages -/

/-- A package is accepted exactly if it is made of segments with single dots between them.  The artifact
of such a package is published as an entry of the folder, under a name that stands for the package and
that no other package has.  Who merges the folder ignores it exactly if it is their own, unless the folder
has no path. -/
theorem accepted_package_names_artifact :
    (∀ config : ModuleConfig, config.validate = .ok () ↔ ModuleConfig.IsPackage config.package ∧
      config.descriptorFolder ≠ "" ∧ config.logFolder ≠ "") ∧
    ∀ package, ModuleConfig.IsPackage package →
      (∀ other, ModuleConfig.IsPackage other →
        (ArtifactName.mk other).fileName = (ArtifactName.mk package).fileName → other = package) ∧
      ∀ folder, (∀ fs classes fs' path,
          Artifact.publish fs folder package classes = (fs', .ok path) →
            path = Artifact.pathIn folder package ∧ fs'.isFile path = true) ∧
        (Artifact.pathIn folder package).IsEntryOf folder (ArtifactName.mk package).fileName ∧
        ArtifactName.ofPath? (Artifact.pathIn folder package) = some ⟨package⟩ ∧
        ∀ fs, fs.isFile (Artifact.pathIn folder package) = true → ∀ ownPackage,
          ((MergedArtifacts.ofFolders fs [folder] ownPackage).Ignores
              (Artifact.pathIn folder package) ↔
            ownPackage = package ∨ folder.text = "") := by
  refine ⟨fun config => ModuleConfig.validate_eq_ok_iff, fun package hpackage =>
    ⟨fun other _ hname => ArtifactName.fileName_inj.mp hname, fun folder => ⟨?_, ?_, ?_, ?_⟩⟩⟩
  · intro fs classes fs' path hpublish
    obtain ⟨rfl, hwrite⟩ := Artifact.publish_eq_ok_iff.mp hpublish
    exact ⟨rfl, FileSystem.isFile_of_read (LogFile.read_write hwrite)⟩
  · exact Path.isEntryOf_join folder (ArtifactName.isName_fileName hpackage.no_slash)
  · exact Artifact.ofPath?_pathIn hpackage.ne_empty hpackage.no_slash folder
  · intro fs hfile ownPackage
    exact MergedArtifacts.ignores_artifact_iff hpackage hfile

/-- A library publishes a class.  It ignores its artifact, and another module does not. -/
theorem library_artifact_ignored_by_itself : ModuleConfig.ofLibrary.validate = .ok () ∧
    ∃ fs' path, Artifact.publish (.blank []) ⟨"deps"⟩ ModuleConfig.ofLibrary.package (.single "m" "C") =
        (fs', .ok path) ∧
      path.IsEntryOf ⟨"deps"⟩ "lib-binding_classes.json" ∧
      ArtifactName.ofPath? path = some ⟨"lib"⟩ ∧
      (MergedArtifacts.ofFolders fs' [⟨"deps"⟩] "lib").Ignores path ∧
      ¬ (MergedArtifacts.ofFolders fs' [⟨"deps"⟩] "app").Ignores path := by
  obtain ⟨fs', hpublish⟩ : ∃ fs', Artifact.publish (.blank []) ⟨"deps"⟩
      ModuleConfig.ofLibrary.package (.single "m" "C") =
        (fs', .ok (Artifact.pathIn ⟨"deps"⟩ "lib")) := ⟨_, rfl⟩
  obtain ⟨hvalidate, hnames⟩ := accepted_package_names_artifact
  have hvalid : ModuleConfig.ofLibrary.validate = .ok () := rfl
  obtain ⟨hpackage, -⟩ := (hvalidate ModuleConfig.ofLibrary).mp hvalid
  obtain ⟨-, hfolder⟩ := hnames ModuleConfig.ofLibrary.package hpackage
  obtain ⟨hwritten, hentry, hpath, hignores⟩ := hfolder ⟨"deps"⟩
  have hmerge := hignores fs' (hwritten _ _ _ _ hpublish).2
  exact ⟨hvalid, fs', _, hpublish, hentry, hpath, (hmerge "lib").mpr (.inl rfl),
    fun happ => absurd ((hmerge "app").mp happ) (by decide)⟩

/-- What a library publishes into a folder without a path is ignored by other modules too. -/
theorem artifact_without_folder_ignored : ModuleConfig.ofLibrary.validate = .ok () ∧
    ∃ fs' path, Artifact.publish (.blank []) ⟨""⟩ ModuleConfig.ofLibrary.package (.single "m" "C") =
        (fs', .ok path) ∧
      ¬ ((MergedArtifacts.ofFolders fs' [⟨""⟩] "app").Ignores path ↔
        "app" = ModuleConfig.ofLibrary.package) := by
  obtain ⟨fs', hpublish⟩ : ∃ fs', Artifact.publish (.blank []) ⟨""⟩
      ModuleConfig.ofLibrary.package (.single "m" "C") =
        (fs', .ok (Artifact.pathIn ⟨""⟩ "lib")) := ⟨_, rfl⟩
  refine ⟨rfl, fs', _, hpublish, fun hiff => absurd (hiff.mp ?_) (by decide)⟩
  rw [MergedArtifacts.ofFolders_blank fs' "app" rfl]
  exact MergedArtifacts.empty_ignores _

end LayoutRebuild
