import LayoutRebuild.Proofs.Artifact.LastWins
import Mathlib.Data.List.Forall2
import Mathlib.Data.List.Perm.Basic

/-!
# What merging reports

A visit to a dependency folder reports the folder if it cannot be listed, and otherwise the files in it
that are no artifacts and those that are skipped (`diagnostics_ofFolders`).  So the warnings about
artifacts are those about what is skipped, each with the fault that it was skipped for, and those about
folders (`damage_reported`), and the notes are about the other files (`strays_reported`).
-/

namespace LayoutRebuild.MergedArtifacts

variable {fs : FileSystem} {ownPackage : String} {p folder : Path}

/-! ## One visit -/

/-- What there is to report about a file of a dependency folder. -/
def fileReport? (fs : FileSystem) (ownPackage : String) (p : Path) : Option Diagnostic :=
  match ArtifactName.ofPath? p with
  | none => some (strayFile p)
  | some name =>
    if name.package = ownPackage then none
    else
      match Artifact.load fs p with
      | .ok _ => none
      | .error fault => some (damagedArtifact p name.package fault)

/-- What there is to report about a dependency folder, apart from the files in it: that it is there and
cannot be listed. -/
def folderReport? (fs : FileSystem) (folder : Path) : Option Diagnostic :=
  if fs.exists? folder then
    match fs.listFiles folder with
    | .ok _ => none
    | .error fault => some (unlistableFolder folder fault)
  else none

/-- What a visit to a dependency folder reports. -/
def visitReports (fs : FileSystem) (ownPackage : String) (folder : Path) : List Diagnostic :=
  (folderReport? fs folder).toList ++ (filesIn fs folder).filterMap (fileReport? fs ownPackage)

theorem diagnostics_addFile (merged : MergedArtifacts) (p : Path) :
    (addFile fs ownPackage merged p).diagnostics =
      merged.diagnostics ++ (fileReport? fs ownPackage p).toList := by
  unfold addFile fileReport?
  cases ArtifactName.ofPath? p with
  | none => rfl
  | some name =>
    by_cases hown : name.package = ownPackage
    · simp only [if_pos hown, Option.toList_none, List.append_nil]
    · simp only [if_neg hown]
      cases Artifact.load fs p with
      | ok classes => exact (List.append_nil _).symm
      | error fault => rfl

theorem diagnostics_foldl_addFile (merged : MergedArtifacts) (paths : List Path) :
    (paths.foldl (addFile fs ownPackage) merged).diagnostics =
      merged.diagnostics ++ paths.filterMap (fileReport? fs ownPackage) := by
  induction paths generalizing merged with
  | nil => exact (List.append_nil _).symm
  | cons p rest ih =>
    rw [List.foldl_cons, ih, diagnostics_addFile, List.append_assoc]
    cases hreport : fileReport? fs ownPackage p with
    | none => rw [List.filterMap_cons_none hreport, Option.toList_none, List.nil_append]
    | some d => rw [List.filterMap_cons_some hreport, Option.toList_some, List.singleton_append]

theorem diagnostics_addFolder (merged : MergedArtifacts) (folder : Path) :
    (addFolder fs ownPackage merged folder).diagnostics =
      merged.diagnostics ++ visitReports fs ownPackage folder := by
  unfold addFolder visitReports folderReport? filesIn
  split
  · cases fs.listFiles folder with
    | ok paths => exact diagnostics_foldl_addFile merged paths
    | error fault => rfl
  · exact (List.append_nil _).symm

/-- Every visit reports what there is to report about it, and nothing else is reported. -/
theorem diagnostics_ofFolders (fs : FileSystem) (folders : List Path) (ownPackage : String) :
    (ofFolders fs folders ownPackage).diagnostics =
      folders.flatMap (visitReports fs ownPackage) := by
  have hfold (merged : MergedArtifacts) :
      (folders.foldl (addFolder fs ownPackage) merged).diagnostics =
        merged.diagnostics ++ folders.flatMap (visitReports fs ownPackage) := by
    induction folders generalizing merged with
    | nil => exact (List.append_nil _).symm
    | cons folder rest ih =>
      rw [List.foldl_cons, ih, diagnostics_addFolder, List.append_assoc, List.flatMap_cons]
  exact hfold empty

/-! ## The files that are reported -/

/-- The path does not lead to an artifact. -/
def isStray (p : Path) : Bool := (ArtifactName.ofPath? p).isNone

/-- The files of a dependency folder that are no artifacts. -/
def strayFiles (fs : FileSystem) (folder : Path) : List Path := (filesIn fs folder).filter isStray

/-- The files that are no artifacts are those under names that are none of artifacts. -/
theorem mem_strayFiles (hnamed : fs.WellNamed) : p ∈ strayFiles fs folder ↔ folder.text ≠ "" ∧
    ∃ name, Path.IsName name ∧ ArtifactName.parse name = none ∧
      fs.isFile (folder.join name) = true ∧ p = folder.join name := by
  have hstray {name : String} (hname : Path.IsName name) :
      isStray (folder.join name) = true ↔ ArtifactName.parse name = none := by
    rw [isStray, ArtifactName.ofPath?, Path.fileName?_join folder hname, Option.bind_some,
      Option.isNone_iff_eq_none]
  rw [strayFiles, List.mem_filter, mem_filesIn hnamed]
  constructor
  · rintro ⟨⟨htext, name, hname, hfile, rfl⟩, h⟩
    exact ⟨htext, name, hname, (hstray hname).mp h, hfile, rfl⟩
  · rintro ⟨htext, name, hname, hparse, hfile, rfl⟩
    exact ⟨⟨htext, name, hname, hfile, rfl⟩, (hstray hname).mpr hparse⟩

theorem nodup_strayFiles (hnamed : fs.WellNamed) : (strayFiles fs folder).Nodup :=
  (nodup_of_sorted (sorted_filesIn hnamed)).filter _

/-- The artifact at a path is one of another module, and it cannot be loaded. -/
def isDamaged (fs : FileSystem) (ownPackage : String) (p : Path) : Bool :=
  isForeign ownPackage p && !loads fs p

/-- The diagnostic is what there is to say about a damaged artifact: where it is, of which package, and
what is wrong with it. -/
def ReportsDamage (fs : FileSystem) (p : Path) (d : Diagnostic) : Prop :=
  ∃ name fault, ArtifactName.ofPath? p = some name ∧ Artifact.load fs p = .error fault ∧
    d = damagedArtifact p name.package fault

theorem skipped_ofFolders (fs : FileSystem) (folders : List Path) (ownPackage : String) :
    (ofFolders fs folders ownPackage).skipped =
      (folders.flatMap (filesIn fs)).filter (isDamaged fs ownPackage) := by
  rw [(merges_ofFolders fs ownPackage folders).skipped_eq, flatMap_foreignArtifacts,
    List.filter_filter]
  refine List.filter_congr fun p _ => ?_
  exact Bool.and_comm ..

/-- A file is no artifact, a damaged one of another module, or not reported. -/
theorem fileReport?_cases (fs : FileSystem) (ownPackage : String) (p : Path) :
    (isStray p = true ∧ isDamaged fs ownPackage p = false ∧
      fileReport? fs ownPackage p = some (strayFile p)) ∨
    (isStray p = false ∧ isDamaged fs ownPackage p = true ∧
      ∃ d, ReportsDamage fs p d ∧ fileReport? fs ownPackage p = some d) ∨
    (isStray p = false ∧ isDamaged fs ownPackage p = false ∧
      fileReport? fs ownPackage p = none) := by
  unfold isStray isDamaged isForeign loads classesIn? fileReport?
  cases hname : ArtifactName.ofPath? p with
  | none => exact .inl ⟨rfl, rfl, rfl⟩
  | some name =>
    by_cases hown : name.package = ownPackage
    · exact .inr (.inr ⟨rfl, by simp [hown], if_pos hown⟩)
    · cases hload : Artifact.load fs p with
      | ok classes => exact .inr (.inr ⟨rfl, by simp [Except.toOption], if_neg hown⟩)
      | error fault =>
        exact .inr (.inl ⟨rfl, by simp [Except.toOption, hown], _, ⟨name, fault, hname, hload, rfl⟩,
          if_neg hown⟩)

theorem ReportsDamage.code_eq {d : Diagnostic} (h : ReportsDamage fs p d) :
    d.code = .invalidArtifact := by
  obtain ⟨name, fault, -, -, rfl⟩ := h
  rfl

theorem ReportsDamage.severity_eq {d : Diagnostic} (h : ReportsDamage fs p d) :
    d.severity = .warning := by
  obtain ⟨name, fault, -, -, rfl⟩ := h
  rfl

theorem filter_unrecognizedFile (fs : FileSystem) (ownPackage : String) (paths : List Path) :
    (paths.filterMap (fileReport? fs ownPackage)).filter (·.code = .unrecognizedFile) =
      (paths.filter isStray).map strayFile := by
  induction paths with
  | nil => rfl
  | cons p rest ih =>
    obtain ⟨hstray, -, hreport⟩ | ⟨hstray, -, d, hd, hreport⟩ | ⟨hstray, -, hreport⟩ :=
      fileReport?_cases fs ownPackage p
    · rw [List.filterMap_cons_some hreport, List.filter_cons_of_pos (by rfl), ih,
        List.filter_cons_of_pos hstray, List.map_cons]
    · rw [List.filterMap_cons_some hreport, List.filter_cons_of_neg (by rw [hd.code_eq]; decide), ih,
        List.filter_cons_of_neg (ne_true_of_eq_false hstray)]
    · rw [List.filterMap_cons_none hreport, ih, List.filter_cons_of_neg (ne_true_of_eq_false hstray)]

theorem filter_invalidArtifact (fs : FileSystem) (ownPackage : String) (paths : List Path) :
    List.Forall₂ (ReportsDamage fs) (paths.filter (isDamaged fs ownPackage))
      ((paths.filterMap (fileReport? fs ownPackage)).filter (·.code = .invalidArtifact)) := by
  induction paths with
  | nil => exact .nil
  | cons p rest ih =>
    obtain ⟨-, hwhole, hreport⟩ | ⟨-, hdamaged, d, hd, hreport⟩ | ⟨-, hwhole, hreport⟩ :=
      fileReport?_cases fs ownPackage p
    · rw [List.filterMap_cons_some hreport, List.filter_cons_of_neg (ne_true_of_eq_false hwhole)]
      exact ih
    · have hcode : (decide (d.code = .invalidArtifact)) = true := decide_eq_true hd.code_eq
      rw [List.filterMap_cons_some hreport, List.filter_cons_of_pos hdamaged, List.filter_cons, hcode]
      exact .cons hd ih
    · rwa [List.filterMap_cons_none hreport, List.filter_cons_of_neg (ne_true_of_eq_false hwhole)]

/-! ## All visits -/

theorem folderReport?_eq_some {d : Diagnostic} (h : folderReport? fs folder = some d) :
    ∃ fault, fs.exists? folder = true ∧ fs.listFiles folder = .error fault ∧
      d = unlistableFolder folder fault := by
  unfold folderReport? at h
  split at h
  next hexists =>
    cases hlist : fs.listFiles folder with
    | ok paths => simp [hlist] at h
    | error fault =>
      simp only [hlist, Option.some.injEq] at h
      exact ⟨fault, hexists, rfl, h.symm⟩
  · cases h

theorem filter_folderReport? (fs : FileSystem) (folder : Path) :
    (folderReport? fs folder).toList.filter (·.code = .invalidArtifact) =
      (folderReport? fs folder).toList ∧
    (folderReport? fs folder).toList.filter (·.code = .unrecognizedFile) = [] := by
  cases hreport : folderReport? fs folder with
  | none => exact ⟨rfl, rfl⟩
  | some d =>
    obtain ⟨fault, -, -, rfl⟩ := folderReport?_eq_some hreport
    exact ⟨rfl, rfl⟩

/-- There is one note for each file that is no artifact, each time its folder is visited. -/
theorem strays_reported (fs : FileSystem) (folders : List Path) (ownPackage : String) :
    (ofFolders fs folders ownPackage).diagnostics.filter (·.code = .unrecognizedFile) =
      (folders.flatMap (strayFiles fs)).map strayFile := by
  rw [diagnostics_ofFolders, List.filter_flatMap, List.map_flatMap]
  refine List.flatMap_congr fun folder _ => ?_
  rw [visitReports, List.filter_append, (filter_folderReport? fs folder).2, List.nil_append]
  exact filter_unrecognizedFile fs ownPackage _

/-- There is one warning for each artifact that is skipped, and one for each visit to a folder that is
there and cannot be listed. -/
theorem damage_reported (fs : FileSystem) (folders : List Path) (ownPackage : String) :
    ∃ damaged, List.Forall₂ (ReportsDamage fs) (ofFolders fs folders ownPackage).skipped damaged ∧
      ((ofFolders fs folders ownPackage).diagnostics.filter (·.code = .invalidArtifact)).Perm
        (folders.filterMap (folderReport? fs) ++ damaged) := by
  refine ⟨((folders.flatMap (filesIn fs)).filterMap (fileReport? fs ownPackage)).filter
    (·.code = .invalidArtifact), ?_, ?_⟩
  · rw [skipped_ofFolders]
    exact filter_invalidArtifact fs ownPackage _
  · have hvisit (folder : Path) :
        (visitReports fs ownPackage folder).filter (·.code = .invalidArtifact) =
          (folderReport? fs folder).toList ++
            ((filesIn fs folder).filterMap (fileReport? fs ownPackage)).filter
              (·.code = .invalidArtifact) := by
      rw [visitReports, List.filter_append, (filter_folderReport? fs folder).1]
    rw [diagnostics_ofFolders, List.filter_flatMap, List.filterMap_flatMap, List.filter_flatMap,
      List.filterMap_eq_flatMap_toList, List.flatMap_congr fun folder _ => hvisit folder]
    exact (List.flatMap_append_perm ..).symm

/-- Merging reports nothing worse than a damaged artifact. -/
theorem code_of_reported {folders : List Path} {d : Diagnostic}
    (h : d ∈ (ofFolders fs folders ownPackage).diagnostics) :
    (d.code = .invalidArtifact ∧ d.severity = .warning) ∨
      (d.code = .unrecognizedFile ∧ d.severity = .note) := by
  rw [diagnostics_ofFolders, List.mem_flatMap] at h
  obtain ⟨folder, -, h⟩ := h
  rcases List.mem_append.mp h with h | h
  · obtain ⟨fault, -, -, rfl⟩ := folderReport?_eq_some (Option.mem_toList.mp h)
    exact .inl ⟨rfl, rfl⟩
  · obtain ⟨p, -, hp⟩ := List.mem_filterMap.mp h
    obtain ⟨-, -, hreport⟩ | ⟨-, -, d', hd', hreport⟩ | ⟨-, -, hreport⟩ :=
      fileReport?_cases fs ownPackage p
    · cases hreport.symm.trans hp
      exact .inr ⟨rfl, rfl⟩
    · cases hreport.symm.trans hp
      exact .inl ⟨hd'.code_eq, hd'.severity_eq⟩
    · cases hreport.symm.trans hp

end LayoutRebuild.MergedArtifacts
