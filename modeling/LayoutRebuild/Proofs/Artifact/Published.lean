import LayoutRebuild.Proofs.Artifact.LastWins
import LayoutRebuild.Proofs.Build.OutputNames

/-!
# What is published can be loaded

A table that has been published is loaded by other modules as it was, exactly if every layout and every
class in it has a name (`published_loads_iff_named`).  Publishing does not ask for names and loading
does, so a table without them is written and then skipped; nor does a folder without a path list what
has been published into it (`published_not_loaded`).
-/

namespace LayoutRebuild

variable {fs fs' : FileSystem} {folder path : Path} {package : String} {classes : ClassTable}

namespace Artifact

variable (hpackage : package ≠ "") (hslash : '/' ∉ package.toList)
  (h : publish fs folder package classes = (fs', .ok path))
include hpackage hslash h

/-- What has been published is loaded as it was, if it can be loaded at all. -/
theorem load_of_publish {loaded : ClassTable} :
    load fs' path = .ok loaded ↔ loaded = classes ∧ classes.Named := by
  obtain ⟨rfl, hwrite⟩ := publish_eq_ok_iff.mp h
  refine load_of_text ?_ (LogFile.read_write hwrite)
  rw [ofPath?_pathIn hpackage hslash]
  rfl

/-- For other modules, what has been published is one of the artifacts of the folder. -/
theorem mem_foreignArtifacts_of_publish (htext : folder.text ≠ "") {ownPackage : String}
    (hother : ownPackage ≠ package) :
    path ∈ MergedArtifacts.foreignArtifacts fs' ownPackage folder := by
  obtain ⟨rfl, hwrite⟩ := publish_eq_ok_iff.mp h
  exact MergedArtifacts.mem_foreignArtifacts_of_isFile htext
    (ArtifactName.isName_fileName hslash) (MergedArtifacts.isForeign_fileName hpackage hother)
    (FileSystem.isFile_of_read (LogFile.read_write hwrite))

/-- For other modules, what has been published is loaded or skipped. -/
theorem loads_of_publish : MergedArtifacts.loads fs' path = true ↔ classes.Named := by
  rw [MergedArtifacts.loads, Option.isSome_iff_exists]
  simp only [MergedArtifacts.classesIn?_eq_some_iff, load_of_publish hpackage hslash h,
    exists_eq_left]

/-- What lacks a name is not loaded, by whatever module. -/
theorem not_loaded_of_publish (hunnamed : ¬ classes.Named) (folders : List Path)
    (ownPackage : String) : load fs' path ≠ .ok classes ∧
      path ∉ (MergedArtifacts.ofFolders fs' folders ownPackage).loaded := by
  constructor
  · rw [ne_eq, load_of_publish hpackage hslash h]
    exact fun hload => hunnamed hload.2
  · rw [(MergedArtifacts.merges_ofFolders fs' ownPackage folders).loaded_eq, List.mem_filter,
      loads_of_publish hpackage hslash h]
    exact fun hloaded => hunnamed hloaded.2

end Artifact

/-- What a module with an accepted configuration has published is loaded as it was if everything in it
has a name, and else it is not loaded.  Every other module that merges the folder, unless the folder has
no path, loads it in the first case and skips it in the second. -/
theorem published_loads_iff_named {config : ModuleConfig} (hconfig : config.validate = .ok ())
    (h : Artifact.publish fs folder config.package classes = (fs', .ok path)) :
    (classes.Named → Artifact.load fs' path = .ok classes) ∧
    (¬ classes.Named → ∃ fault, Artifact.load fs' path = .error fault) ∧
    (folder.text ≠ "" → ∀ folders ownPackage, folder ∈ folders → ownPackage ≠ config.package →
      (path ∈ (MergedArtifacts.ofFolders fs' folders ownPackage).loaded ↔ classes.Named) ∧
      (path ∈ (MergedArtifacts.ofFolders fs' folders ownPackage).skipped ↔ ¬ classes.Named)) := by
  obtain ⟨hpackage, hdotted⟩ := ModuleConfig.dotted_of_validate hconfig
  have hslash := ModuleConfig.no_slash_of_dotted hdotted
  refine ⟨fun hnamed => ?_, fun hunnamed => ?_, fun htext folders ownPackage hfolder hother => ?_⟩
  · exact (Artifact.load_of_publish hpackage hslash h).mpr ⟨rfl, hnamed⟩
  · cases hload : Artifact.load fs' path with
    | error fault => exact ⟨fault, rfl⟩
    | ok loaded => exact absurd ((Artifact.load_of_publish hpackage hslash h).mp hload).2 hunnamed
  · have hmerges := MergedArtifacts.merges_ofFolders fs' ownPackage folders
    have hmem := List.mem_flatMap.mpr ⟨folder, hfolder,
      Artifact.mem_foreignArtifacts_of_publish hpackage hslash h htext hother⟩
    have hloads := Artifact.loads_of_publish hpackage hslash h
    rw [hmerges.loaded_eq, hmerges.skipped_eq, List.mem_filter, List.mem_filter, ← hloads]
    simp [hmem]

/-- The configuration of a library. -/
def ModuleConfig.ofLibrary : ModuleConfig := ⟨"lib", "info", [], "log", "out", true⟩

/-- A library publishes a class into a new folder, and another module loads it. -/
theorem named_class_loaded : ModuleConfig.ofLibrary.validate = .ok () ∧ ∃ fs' path,
    Artifact.publish (.blank []) ⟨"deps"⟩ ModuleConfig.ofLibrary.package (.single "m" "C") =
      (fs', .ok path) ∧
    Artifact.load fs' path = .ok (.single "m" "C") ∧
    path ∈ (MergedArtifacts.ofFolders fs' [⟨"deps"⟩] "app").loaded := by
  obtain ⟨fs', hpublish⟩ : ∃ fs', Artifact.publish (.blank []) ⟨"deps"⟩
      ModuleConfig.ofLibrary.package (.single "m" "C") =
        (fs', .ok (Artifact.pathIn ⟨"deps"⟩ "lib")) := ⟨_, rfl⟩
  have hvalid : ModuleConfig.ofLibrary.validate = .ok () := rfl
  have hnamed : (ClassTable.single "m" "C").Named := ClassTable.named_ofList (by decide)
  obtain ⟨hload, -, hmerged⟩ := published_loads_iff_named hvalid hpublish
  have hloaded := (hmerged (by decide) [⟨"deps"⟩] "app" (by simp) (by decide)).1
  exact ⟨hvalid, fs', _, hpublish, hload hnamed, hloaded.mpr hnamed⟩

/-- What lacks a name is published and not loaded.  Nor is anything loaded that has been published into a
folder without a path. -/
theorem published_not_loaded : ModuleConfig.ofLibrary.validate = .ok () ∧
    (∃ fs' path, Artifact.publish (.blank []) ⟨"deps"⟩ ModuleConfig.ofLibrary.package
        (.single "" "C") = (fs', .ok path) ∧
      Artifact.load fs' path ≠ .ok (.single "" "C") ∧
      path ∉ (MergedArtifacts.ofFolders fs' [⟨"deps"⟩] "app").loaded) ∧
    (∃ fs' path, Artifact.publish (.blank []) ⟨"deps"⟩ ModuleConfig.ofLibrary.package
        (.single "m" "") = (fs', .ok path) ∧
      Artifact.load fs' path ≠ .ok (.single "m" "") ∧
      path ∉ (MergedArtifacts.ofFolders fs' [⟨"deps"⟩] "app").loaded) ∧
    ∃ fs' path, Artifact.publish (.blank []) ⟨""⟩ ModuleConfig.ofLibrary.package
        (.single "m" "C") = (fs', .ok path) ∧
      path ∉ (MergedArtifacts.ofFolders fs' [⟨""⟩] "app").loaded := by
  have hvalid : ModuleConfig.ofLibrary.validate = .ok () := rfl
  obtain ⟨hpackage, hdotted⟩ := ModuleConfig.dotted_of_validate hvalid
  have hslash := ModuleConfig.no_slash_of_dotted hdotted
  have hskipped {layout className : String} (hunnamed : ¬ (ClassTable.single layout className).Named) :
      ∃ fs' path, Artifact.publish (.blank []) ⟨"deps"⟩ ModuleConfig.ofLibrary.package
          (.single layout className) = (fs', .ok path) ∧
        Artifact.load fs' path ≠ .ok (.single layout className) ∧
        path ∉ (MergedArtifacts.ofFolders fs' [⟨"deps"⟩] "app").loaded := by
    obtain ⟨fs', hpublish⟩ : ∃ fs', Artifact.publish (.blank []) ⟨"deps"⟩
        ModuleConfig.ofLibrary.package (.single layout className) =
          (fs', .ok (Artifact.pathIn ⟨"deps"⟩ "lib")) := ⟨_, rfl⟩
    exact ⟨fs', _, hpublish,
      Artifact.not_loaded_of_publish hpackage hslash hpublish hunnamed [⟨"deps"⟩] "app"⟩
  refine ⟨hvalid, hskipped fun h => (h "" _ rfl).1 rfl, hskipped fun h => (h "m" _ rfl).2 rfl, ?_⟩
  obtain ⟨fs', hpublish⟩ : ∃ fs', Artifact.publish (.blank []) ⟨""⟩
      ModuleConfig.ofLibrary.package (.single "m" "C") =
        (fs', .ok (Artifact.pathIn ⟨""⟩ "lib")) := ⟨_, rfl⟩
  have hnone : MergedArtifacts.foreignArtifacts fs' "app" ⟨""⟩ = [] := rfl
  refine ⟨fs', _, hpublish, ?_⟩
  rw [(MergedArtifacts.merges_ofFolders fs' "app" [⟨""⟩]).loaded_eq, List.flatMap_singleton, hnone]
  exact List.not_mem_nil

end LayoutRebuild
