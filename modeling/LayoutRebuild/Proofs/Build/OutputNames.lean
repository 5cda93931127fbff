import LayoutRebuild.Proofs.Artifact.Merged
import LayoutRebuild.Proofs.Config.Package
import LayoutRebuild.Proofs.Log.Rewriting

/-!
# What the written files are called

A build reads descriptors and artifacts of other modules, and it writes a log and the artifact of its
own module.  No name is that of a file it reads and of a file it writes: a log and an artifact do not end
like a descriptor (`not_outputName_of_descriptor`), and the artifact of a package that is a dotted
identifier is that of no other package (`not_outputName_of_foreign`).
-/

namespace LayoutRebuild

/-! ## Names of files -/

/-- The name is that of a file that a build of the package writes: its log or its artifact. -/
def IsOutputName (package name : String) : Prop :=
  name = BuildLog.fileName ∨ name = (ArtifactName.mk package).fileName

variable {package name : String}

theorem ArtifactName.toList_fileName (package : String) :
    (ArtifactName.mk package).fileName.toList = package.toList ++ ending.toList :=
  String.toList_append

/-- The artifact of a package is taken for that of the package. -/
theorem ArtifactName.parse_fileName (package : String) :
    parse (ArtifactName.mk package).fileName = if package = "" then none else some ⟨package⟩ := by
  have hsuffix : ending.toList.isSuffixOf (package.toList ++ ending.toList) = true :=
    List.isSuffixOf_iff_suffix.mpr (List.suffix_append _ _)
  unfold parse
  simp only [toList_fileName, hsuffix, if_true, List.length_append, Nat.add_sub_cancel,
    List.take_left']
  split
  next hempty => rw [if_pos (by simpa using hempty)]
  next hsome => rw [if_neg (by simpa using hsome), String.ofList_toList]

theorem ArtifactName.package_of_parse {artifact : ArtifactName}
    (h : parse (ArtifactName.mk package).fileName = some artifact) : artifact.package = package := by
  rw [parse_fileName] at h
  split_ifs at h
  cases h
  rfl

/-- The name of an artifact is a proper one, if the package is one segment of a path. -/
theorem ArtifactName.isName_fileName (h : '/' ∉ package.toList) :
    Path.IsName (ArtifactName.mk package).fileName := by
  have hlast : (ArtifactName.mk package).fileName.toList.getLast? = some 'n' := by
    rw [toList_fileName, List.getLast?_append]
    rfl
  have hother {text : String} (htext : text.toList.getLast? ≠ some 'n') :
      (ArtifactName.mk package).fileName ≠ text := by
    rintro rfl
    exact htext hlast
  refine ⟨hother (by decide), hother (by decide), hother (by decide), ?_⟩
  rw [toList_fileName, List.mem_append, not_or]
  exact ⟨h, by decide⟩

theorem ArtifactName.fileName_inj {other : String} :
    (ArtifactName.mk other).fileName = (ArtifactName.mk package).fileName ↔ other = package := by
  rw [← String.toList_inj, toList_fileName, toList_fileName, List.append_left_inj, String.toList_inj]

theorem MergedArtifacts.isForeign_fileName {ownPackage : String} (hpackage : package ≠ "")
    (hother : ownPackage ≠ package) : IsForeign ownPackage (ArtifactName.mk package).fileName :=
  ⟨⟨package⟩, by rw [ArtifactName.parse_fileName, if_neg hpackage], hother.symm⟩

/-- The path that a package is published at leads to the artifact of the package. -/
theorem Artifact.ofPath?_pathIn (hpackage : package ≠ "") (hslash : '/' ∉ package.toList)
    (folder : Path) : ArtifactName.ofPath? (pathIn folder package) = some ⟨package⟩ := by
  rw [ArtifactName.ofPath?, pathIn, Path.fileName?_join folder (ArtifactName.isName_fileName hslash),
    Option.bind_some, ArtifactName.parse_fileName, if_neg hpackage]

/-- The names of descriptors end in another letter than those of logs and artifacts. -/
theorem not_outputName_of_descriptor (h : (DescriptorName.family? name).isSome) :
    ¬ IsOutputName package name := by
  have hlast : name.toList.getLast? = some 'l' := by
    unfold DescriptorName.family? DescriptorName.parse DescriptorName.stem? at h
    split_ifs at h with hending
    · obtain ⟨before, hname⟩ := List.isSuffixOf_iff_suffix.mp hending
      rw [← hname, List.getLast?_append]
      rfl
    · cases h
  rintro (rfl | rfl)
  · exact absurd hlast (by decide)
  · rw [ArtifactName.toList_fileName, List.getLast?_append] at hlast
    cases hlast

theorem not_outputName_of_foreign (h : MergedArtifacts.IsForeign package name) :
    ¬ IsOutputName package name := by
  obtain ⟨artifact, hparse, hother⟩ := h
  rintro (rfl | rfl)
  · have hnone : ArtifactName.parse BuildLog.fileName = none := by decide
    rw [hnone] at hparse
    cases hparse
  · exact hother (ArtifactName.package_of_parse hparse)

/-- What a build writes has one of these names, if its package is one segment of a path. -/
theorem Arguments.Writes.outputName {fs : FileSystem} {args : Arguments} {loc : Location}
    (hpackage : '/' ∉ args.package.toList) (h : args.Writes fs loc) :
    ∃ name, loc.getLast? = some name ∧ IsOutputName args.package name := by
  obtain ⟨path, hpath, hnames⟩ := h
  rcases List.mem_cons.mp hpath with rfl | hpath
  · exact ⟨_, BuildLog.getLast?_of_names hnames, .inl rfl⟩
  · obtain ⟨folder, -, rfl⟩ := List.mem_map.mp hpath
    have hname := ArtifactName.isName_fileName hpackage
    obtain ⟨before, hsegments⟩ := Path.segments_join folder hname.no_slash
    exact ⟨_, hnames.getLast? hsegments hname.ne_empty, .inr rfl⟩

end LayoutRebuild
