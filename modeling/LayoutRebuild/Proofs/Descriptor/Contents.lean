import LayoutRebuild.Descriptor.Fingerprints
import LayoutRebuild.Descriptor.Folder
import LayoutRebuild.Proofs.FileSystem.Listing

/-!
# The contents of the descriptors

What a module is made from are its descriptor files, by file name, with what they hold
(`descriptorContents`).  Some of them can be read (`readableContents`), and the others cannot
(`unreadDescriptors`).  The fingerprints of some files are the hashes of those that can be read
(`hashes_ofPaths`).  A folder with the same descriptors lists the same (`present_congr`).
-/

namespace LayoutRebuild

/-- The family that a file of the given name belongs to, if it is a descriptor. -/
def DescriptorName.family? (fileName : String) : Option String :=
  (parse fileName).map (·.family)

theorem Path.family?_eq (p : Path) : p.family? = p.fileName?.bind DescriptorName.family? := by
  unfold Path.family? Path.descriptorName? DescriptorName.family?
  cases p.fileName? <;> rfl

/-- The family of a file in a folder is that of its name. -/
theorem Path.family?_join (folder : Path) {name : String} (h : Path.IsName name) :
    (folder.join name).family? = DescriptorName.family? name := by
  rw [Path.family?_eq, Path.fileName?_join folder h]
  rfl

theorem Path.family?_congr {p q : Path} (h : p.components = q.components) :
    p.family? = q.family? := by
  rw [Path.family?_eq, Path.family?_eq, Path.fileName?_congr h]

/-! ## Sets of paths -/

namespace PathSet

variable {paths : List Path} {p : Path}

theorem get?_ofPaths {place : List Component} (h : (ofPaths paths).get? place = some p) :
    p ∈ paths ∧ p.components = place := by
  obtain ⟨q, hq, heq⟩ := List.mem_map.mp (Table.mem_of_get?_ofList h)
  cases heq
  exact ⟨hq, rfl⟩

theorem mem_paths_iff {s : PathSet} : p ∈ s.paths ↔ ∃ place, s.get? place = some p := by
  simp only [paths, Table.values, List.mem_map, Prod.exists, Table.mem_entries_iff,
    exists_eq_right]

theorem mem_families {s : PathSet} {family : String} :
    family ∈ s.families ↔ ∃ p ∈ s.paths, p.family? = some family := by
  rw [families, SortedSet.mem_ofList, List.mem_filterMap]

theorem mem_of_mem_ofPaths (h : p ∈ (ofPaths paths).paths) : p ∈ paths := by
  obtain ⟨place, hplace⟩ := mem_paths_iff.mp h
  exact (get?_ofPaths hplace).1

/-- A set of paths holds the places of the paths that it is made of. -/
theorem holds_ofPaths : (ofPaths paths).holds p = true ↔
    ∃ q ∈ paths, q.components = p.components := by
  have hmem : (ofPaths paths).holds p = true ↔ ∃ q, (p.components, q) ∈
      paths.map fun p => (p.components, p) := Table.mem_ofList
  rw [hmem]
  constructor
  · rintro ⟨q, hq⟩
    obtain ⟨q', hq', heq⟩ := List.mem_map.mp hq
    obtain ⟨hplace, rfl⟩ := Prod.mk.inj heq
    exact ⟨q', hq', hplace⟩
  · rintro ⟨q, hq, heq⟩
    exact ⟨q, List.mem_map.mpr ⟨q, hq, by rw [heq]⟩⟩

/-- Sets that hold the same paths are equal. -/
theorem ofPaths_congr {paths' : List Path}
    (h : ∀ p, p ∈ (ofPaths paths).paths ↔ p ∈ (ofPaths paths').paths) :
    ofPaths paths = ofPaths paths' := by
  have hget (paths : List Path) (place : List Component) (p : Path) :
      (ofPaths paths).get? place = some p ↔
        p ∈ (ofPaths paths).paths ∧ p.components = place := by
    constructor
    · intro hplace
      exact ⟨mem_paths_iff.mpr ⟨place, hplace⟩, (get?_ofPaths hplace).2⟩
    · rintro ⟨hp, rfl⟩
      obtain ⟨place, hplace⟩ := mem_paths_iff.mp hp
      rwa [(get?_ofPaths hplace).2]
  apply Table.ext_get?
  intro place
  apply Option.ext
  intro p
  rw [hget, hget, h]

/-- A place that a set holds is that of one of its paths. -/
theorem exists_mem_of_holds (h : (ofPaths paths).holds p = true) :
    ∃ q ∈ (ofPaths paths).paths, q.components = p.components := by
  obtain ⟨q, hq⟩ := Table.mem_iff_exists.mp h
  exact ⟨q, mem_paths_iff.mpr ⟨_, hq⟩, (get?_ofPaths hq).2⟩

/-- What a path to a place in the set belongs to is one of its families. -/
theorem mem_families_of_holds {family : String} (h : (ofPaths paths).holds p = true)
    (hfamily : p.family? = some family) : family ∈ (ofPaths paths).families := by
  obtain ⟨q, hq, hsame⟩ := exists_mem_of_holds h
  exact mem_families.mpr ⟨q, hq, (Path.family?_congr hsame).trans hfamily⟩

end PathSet

/-! ## Contents -/

/-- The bytes of a file, if it can be read. -/
def FileContent.bytes? (content : FileContent) : Option ByteArray := content.read.toOption

theorem FileSystem.toOption_read {fs : FileSystem} {p : Path} :
    (fs.read p).toOption = (fs.content p).toOption.bind FileContent.bytes? := by
  unfold read
  cases fs.content p <;> rfl

section Contents

variable {fs : FileSystem} {paths : List Path} {p folder : Path} {name : String} {α : Type}
  {look : Path → Except FileFault α}

/-- The name of a file and what is found in it. -/
def named? (look : Path → Except FileFault α) (p : Path) : Option (String × α) :=
  match p.fileName?, look p with
  | some name, .ok found => some (name, found)
  | _, _ => none

theorem named?_eq_some {found : α} : named? look p = some (name, found) ↔
    p.fileName? = some name ∧ look p = .ok found := by
  unfold named?
  cases p.fileName? with
  | none => simp
  | some n => cases look p <;> simp

/-- What is found in some files, by file name.  A file in which nothing is found is left out. -/
def byName (look : Path → Except FileFault α) (paths : List Path) : Table String α :=
  Table.ofList (paths.filterMap (named? look))

theorem mem_byName : name ∈ byName look paths ↔
    ∃ p ∈ paths, p.fileName? = some name ∧ ∃ found, look p = .ok found := by
  rw [byName, Table.mem_ofList]
  simp only [List.mem_filterMap, named?_eq_some]
  constructor
  · rintro ⟨found, p, hp, hname, hlook⟩
    exact ⟨p, hp, hname, found, hlook⟩
  · rintro ⟨p, hp, hname, found, hlook⟩
    exact ⟨found, p, hp, hname, hlook⟩

theorem of_get?_byName {found : α} (h : (byName look paths).get? name = some found) :
    ∃ p ∈ paths, p.fileName? = some name ∧ look p = .ok found := by
  obtain ⟨p, hp, hfound⟩ := List.mem_filterMap.mp (Table.mem_of_get?_ofList h)
  exact ⟨p, hp, named?_eq_some.mp hfound⟩

/-! ## Fingerprints -/

namespace Fingerprints

theorem hashes_addFile (f : Fingerprints) :
    (addFile fs f p).hashes = f.hashes.insertAll
      ((named? fs.read p).toList.map fun e => (e.1, ContentHash.ofContent e.2)) := by
  unfold addFile named?
  cases p.fileName? with
  | none => rfl
  | some n =>
    cases fs.read p with
    | ok content => rfl
    | error fault => cases fault <;> rfl

theorem hashes_foldl (f : Fingerprints) : (paths.foldl (addFile fs) f).hashes =
    f.hashes.insertAll
      ((paths.filterMap (named? fs.read)).map fun e => (e.1, ContentHash.ofContent e.2)) := by
  induction paths generalizing f with
  | nil => rfl
  | cons p rest ih =>
    rw [List.foldl_cons, ih, hashes_addFile, List.filterMap_cons]
    cases named? fs.read p <;> rfl

/-- The fingerprints of some files are the hashes of those that can be read. -/
theorem hashes_ofPaths : (ofPaths fs paths).hashes =
    (byName fs.read paths).map fun _ bytes => ContentHash.ofContent bytes := by
  rw [byName, Table.map_ofList]
  exact hashes_foldl empty

/-- A file that is there and cannot be read. -/
def Unread (fs : FileSystem) (p : Path) : Prop :=
  ∃ fault, fs.read p = .error fault ∧ fault ≠ .notFound

theorem mem_unreadable_addFile (f : Fingerprints) : name ∈ (addFile fs f p).unreadable ↔
    name ∈ f.unreadable ∨ (p.fileName? = some name ∧ Unread fs p) := by
  unfold addFile Unread
  cases p.fileName? with
  | none => simp
  | some n =>
    cases fs.read p with
    | ok content => simp
    | error fault => cases fault <;> simp [SortedSet.mem_add, or_comm, eq_comm]

theorem mem_unreadable_foldl (f : Fingerprints) :
    name ∈ (paths.foldl (addFile fs) f).unreadable ↔
      name ∈ f.unreadable ∨ ∃ p ∈ paths, p.fileName? = some name ∧ Unread fs p := by
  induction paths generalizing f with
  | nil => simp
  | cons p rest ih =>
    rw [List.foldl_cons, ih, mem_unreadable_addFile]
    simp only [List.mem_cons, exists_eq_or_imp, or_assoc]

theorem mem_unreadable_ofPaths : name ∈ (ofPaths fs paths).unreadable ↔
    ∃ p ∈ paths, p.fileName? = some name ∧ Unread fs p := by
  have hnone : name ∉ empty.unreadable := Table.not_mem_empty name
  rw [ofPaths, mem_unreadable_foldl, or_iff_right hnone]

end Fingerprints

/-! ## The descriptor folder -/

/-- What the descriptor files of a folder hold, by file name.  A folder that cannot be listed has
none. -/
def descriptorContents (fs : FileSystem) (folder : Path) : Table String FileContent :=
  match descriptorFiles fs folder with
  | .ok present => byName fs.content present.paths
  | .error _ => ∅

/-- The descriptor files of a folder that can be read. -/
def readableContents (fs : FileSystem) (folder : Path) : Table String ByteArray :=
  match descriptorFiles fs folder with
  | .ok present => byName fs.read present.paths
  | .error _ => ∅

/-- The names of the descriptor files of a folder that cannot be read. -/
def unreadDescriptors (fs : FileSystem) (folder : Path) : SortedSet String :=
  match descriptorFiles fs folder with
  | .ok present => (Fingerprints.ofPaths fs present.paths).unreadable
  | .error _ => ∅

theorem descriptorContents_eq {present : PathSet} (h : descriptorFiles fs folder = .ok present) :
    descriptorContents fs folder = byName fs.content present.paths := by
  rw [descriptorContents, h]

theorem readableContents_eq {present : PathSet} (h : descriptorFiles fs folder = .ok present) :
    readableContents fs folder = byName fs.read present.paths := by
  rw [readableContents, h]

theorem descriptorFiles_eq_ok {present : PathSet} (h : descriptorFiles fs folder = .ok present) :
    (fs.exists? folder = false ∧ present = ∅) ∨ ∃ paths, fs.listFiles folder = .ok paths ∧
      present = PathSet.ofPaths (paths.filter (·.descriptorName?.isSome)) := by
  unfold descriptorFiles at h
  split at h
  · split at h
    next paths hpaths =>
      cases h
      exact .inr ⟨paths, hpaths, rfl⟩
    · cases h
  next hmissing =>
    cases h
    exact .inl ⟨eq_false_of_ne_true hmissing, rfl⟩

theorem present_eq_ofPaths {present : PathSet} (h : descriptorFiles fs folder = .ok present) :
    ∃ paths, present = PathSet.ofPaths paths := by
  rcases descriptorFiles_eq_ok h with ⟨-, rfl⟩ | ⟨paths, -, rfl⟩
  · exact ⟨[], rfl⟩
  · exact ⟨_, rfl⟩

theorem holds_of_mem_present {present : PathSet} (h : descriptorFiles fs folder = .ok present)
    (hp : p ∈ present.paths) : present.holds p = true := by
  obtain ⟨paths, rfl⟩ := present_eq_ofPaths h
  exact PathSet.holds_ofPaths.mpr ⟨p, PathSet.mem_of_mem_ofPaths hp, rfl⟩

/-- A folder that is there can be listed. -/
theorem exists_descriptorFiles {loc : Location} (h : fs.locate folder = .ok loc)
    (hfolder : fs.requireFolder loc = .ok ()) :
    ∃ present, descriptorFiles fs folder = .ok present := by
  obtain ⟨hexists, paths, hpaths⟩ := FileSystem.exists_listFiles h hfolder
  simp [descriptorFiles, hexists, hpaths]

/-- Only a file in the place of the folder keeps it from being listed. -/
theorem exists_descriptorFiles_iff :
    (∃ present, descriptorFiles fs folder = .ok present) ↔
      ∀ content, fs.content folder ≠ .ok content := by
  unfold descriptorFiles FileSystem.exists? FileSystem.content FileSystem.lookup
    FileSystem.listFiles FileSystem.list
  cases hloc : fs.locate folder with
  | error fault => simp
  | ok loc =>
    cases hnode : fs.node? loc with
    | none => simp [hnode]
    | some node => cases node <;> simp [hnode, FileSystem.requireFolder]

/-- Every file that is listed has a content, and its name is that of a descriptor. -/
theorem descriptor_of_mem {present : PathSet} (h : descriptorFiles fs folder = .ok present)
    (hp : p ∈ present.paths) : ∃ name content family, p.fileName? = some name ∧
      fs.content p = .ok content ∧ DescriptorName.family? name = some family ∧
      p.family? = some family := by
  rcases descriptorFiles_eq_ok h with ⟨-, rfl⟩ | ⟨paths, hpaths, rfl⟩
  · obtain ⟨place, hplace⟩ := PathSet.mem_paths_iff.mp hp
    cases hplace
  · obtain ⟨hlisted, hdescriptor⟩ := List.mem_filter.mp (PathSet.mem_of_mem_ofPaths hp)
    obtain ⟨loc, -, -, hmem⟩ := FileSystem.listFiles_eq_ok hpaths
    obtain ⟨content, hcontent⟩ := FileSystem.isFile_iff.mp ((hmem p).mp hlisted).1
    obtain ⟨d, hd⟩ := Option.isSome_iff_exists.mp hdescriptor
    obtain ⟨name, hname, hparse⟩ := Option.bind_eq_some_iff.mp hd
    refine ⟨name, content, d.family, hname, hcontent, ?_, ?_⟩
    · rw [DescriptorName.family?, hparse]
      rfl
    · rw [Path.family?, hd]
      rfl

/-- Contents without a collision are told apart by their hashes, also where one is missing. -/
theorem map_ofContent_inj {before now : Option ByteArray}
    (h : ∀ content content', before = some content → now = some content' →
      ContentHash.ofContent content = ContentHash.ofContent content' → content = content') :
    before.map ContentHash.ofContent = now.map ContentHash.ofContent ↔ before = now := by
  refine ⟨fun hhash => ?_, fun hsame => congrArg _ hsame⟩
  cases now with
  | none => exact Option.map_eq_none_iff.mp hhash
  | some content' =>
    obtain ⟨content, rfl, heq⟩ := Option.map_eq_some_iff.mp hhash
    rw [h content content' rfl rfl heq]

/-- The fingerprints that a build records are those of the descriptors that can be read. -/
theorem hashes_present {present : PathSet} (h : descriptorFiles fs folder = .ok present) :
    (Fingerprints.ofPaths fs present.paths).hashes =
      (readableContents fs folder).map fun _ bytes => ContentHash.ofContent bytes := by
  rw [readableContents_eq h, Fingerprints.hashes_ofPaths]

/-- A file name is that of a descriptor exactly if a file of that name is listed. -/
theorem mem_descriptorContents {present : PathSet} (h : descriptorFiles fs folder = .ok present) :
    name ∈ descriptorContents fs folder ↔ ∃ p ∈ present.paths, p.fileName? = some name := by
  rw [descriptorContents_eq h, mem_byName]
  refine exists_congr fun p => and_congr_right fun hp => ⟨And.left, fun hname => ⟨hname, ?_⟩⟩
  obtain ⟨_, content, _, _, hcontent, _, _⟩ := descriptor_of_mem h hp
  exact ⟨content, hcontent⟩

/-- A descriptor that is listed cannot be read if reading it fails. -/
theorem mem_unreadDescriptors {present : PathSet} (h : descriptorFiles fs folder = .ok present) :
    name ∈ unreadDescriptors fs folder ↔
      ∃ p ∈ present.paths, p.fileName? = some name ∧ ∀ bytes, fs.read p ≠ .ok bytes := by
  rw [unreadDescriptors, h]
  simp only [Fingerprints.mem_unreadable_ofPaths]
  refine exists_congr fun p => and_congr_right fun hp => and_congr_right fun _ => ?_
  obtain ⟨_, content, _, _, hcontent, _, _⟩ := descriptor_of_mem h hp
  rw [Fingerprints.Unread, FileSystem.read, hcontent]
  cases content <;> simp [FileContent.read]

/-- A file that is listed can be read if all descriptors can. -/
theorem exists_read_of_mem {present : PathSet} (h : descriptorFiles fs folder = .ok present)
    (hread : ∀ name, name ∉ unreadDescriptors fs folder) (hp : p ∈ present.paths) :
    ∃ bytes, fs.read p = .ok bytes := by
  obtain ⟨name, _, _, hname, _, _, _⟩ := descriptor_of_mem h hp
  by_contra hunread
  exact hread name ((mem_unreadDescriptors h).mpr ⟨p, hp, hname, not_exists.mp hunread⟩)

/-- Every descriptor can be read or cannot. -/
theorem mem_descriptorContents_iff : name ∈ descriptorContents fs folder ↔
    name ∈ readableContents fs folder ∨ name ∈ unreadDescriptors fs folder := by
  cases hpresent : descriptorFiles fs folder with
  | error fault =>
    have hnone : name ∉ (∅ : SortedSet String) := Table.not_mem_empty name
    simp [descriptorContents, readableContents, unreadDescriptors, hpresent, hnone]
  | ok present =>
    rw [mem_descriptorContents hpresent, mem_unreadDescriptors hpresent,
      readableContents_eq hpresent, mem_byName, ← exists_or]
    refine exists_congr fun p => ?_
    rw [← and_or_left, ← and_or_left]
    have hreads : (∃ bytes, fs.read p = .ok bytes) ∨ ∀ bytes, fs.read p ≠ .ok bytes :=
      (em _).imp_right not_exists.mp
    rw [and_iff_left hreads]

theorem isName_of_mem_descriptorContents (h : name ∈ descriptorContents fs folder) :
    Path.IsName name := by
  unfold descriptorContents at h
  split at h
  · obtain ⟨p, -, hname, -⟩ := mem_byName.mp h
    exact Path.isName_of_fileName? hname
  · exact absurd h (Table.not_mem_empty name)

/-- Only a folder with a path lists anything, and nothing but descriptors. -/
theorem folder_of_mem_descriptorContents (h : name ∈ descriptorContents fs folder) :
    folder.text ≠ "" ∧ (DescriptorName.family? name).isSome := by
  cases hpresent : descriptorFiles fs folder with
  | error fault => simp [descriptorContents, hpresent] at h
  | ok present =>
    obtain ⟨p, hp, hname⟩ := (mem_descriptorContents hpresent).mp h
    constructor
    · rcases descriptorFiles_eq_ok hpresent with ⟨-, rfl⟩ | ⟨paths, hpaths, -⟩
      · obtain ⟨place, hplace⟩ := PathSet.mem_paths_iff.mp hp
        cases hplace
      · obtain ⟨loc, hloc, -⟩ := FileSystem.listFiles_eq_ok hpaths
        exact (FileSystem.checkText_eq_ok.mp (FileSystem.locate_eq_ok.mp hloc).1).2.1
    · obtain ⟨name', _, family, hname', -, hfamily, -⟩ := descriptor_of_mem hpresent hp
      rw [hname, Option.some.injEq] at hname'
      rw [hname', hfamily]
      rfl

/-- The families of the listed files are those of the file names. -/
theorem mem_present_families {present : PathSet} (h : descriptorFiles fs folder = .ok present)
    {family : String} : family ∈ present.families ↔
      ∃ name ∈ descriptorContents fs folder, DescriptorName.family? name = some family := by
  rw [PathSet.mem_families]
  constructor
  · rintro ⟨p, hp, hfamily⟩
    obtain ⟨name, content, family', hname, -, hparse, hfamily'⟩ := descriptor_of_mem h hp
    rw [hfamily', ← hparse] at hfamily
    exact ⟨name, (mem_descriptorContents h).mpr ⟨p, hp, hname⟩, hfamily⟩
  · rintro ⟨name, hmem, hfamily⟩
    obtain ⟨p, hp, hname⟩ := (mem_descriptorContents h).mp hmem
    refine ⟨p, hp, ?_⟩
    rw [Path.family?_eq, hname]
    exact hfamily

/-! ## With proper names only -/

/-- The listed files are those of the descriptors. -/
theorem mem_present_iff (hnamed : fs.WellNamed) {present : PathSet}
    (h : descriptorFiles fs folder = .ok present) :
    p ∈ present.paths ↔ ∃ name ∈ descriptorContents fs folder, p = folder.join name := by
  have hjoin (p : Path) (hp : p ∈ present.paths) : ∃ name, Path.IsName name ∧ p = folder.join name := by
    rcases descriptorFiles_eq_ok h with ⟨-, rfl⟩ | ⟨paths, hpaths, rfl⟩
    · obtain ⟨place, hplace⟩ := PathSet.mem_paths_iff.mp hp
      cases hplace
    · have hlisted := (List.mem_filter.mp (PathSet.mem_of_mem_ofPaths hp)).1
      exact ((FileSystem.mem_listFiles_iff hnamed hpaths).mp hlisted).2
  constructor
  · intro hp
    obtain ⟨name, hname, rfl⟩ := hjoin p hp
    exact ⟨name, (mem_descriptorContents h).mpr ⟨_, hp, Path.fileName?_join folder hname⟩, rfl⟩
  · rintro ⟨name, hname, rfl⟩
    obtain ⟨q, hq, hqname⟩ := (mem_descriptorContents h).mp hname
    obtain ⟨name', hname', rfl⟩ := hjoin q hq
    rw [Path.fileName?_join folder hname', Option.some.injEq] at hqname
    rwa [← hqname]

/-- A descriptor stands in the folder under its name. -/
theorem node_of_mem_descriptorContents (hnamed : fs.WellNamed)
    (h : name ∈ descriptorContents fs folder) :
    ∃ loc node, fs.locate folder = .ok loc ∧ fs.nodes.get? (loc ++ [name]) = some node := by
  cases hpresent : descriptorFiles fs folder with
  | error fault => simp [descriptorContents, hpresent] at h
  | ok present =>
    have hp := (mem_present_iff hnamed hpresent).mpr ⟨name, h, rfl⟩
    obtain ⟨name', content, -, -, hcontent, -, -⟩ := descriptor_of_mem hpresent hp
    obtain ⟨loc', hloc', hnode⟩ := FileSystem.content_eq_ok.mp hcontent
    have hname := isName_of_mem_descriptorContents h
    obtain ⟨loc, hloc, -⟩ := FileSystem.locate_folder_of_join
      (folder_of_mem_descriptorContents h).1 hname hloc'
    rw [FileSystem.locate_join hloc hname hloc', FileSystem.node?_of_ne_nil (by simp)] at hnode
    exact ⟨loc, _, hloc, hnode⟩

/-- What is found in the files that were listed once, at whatever time one looks. -/
theorem get?_byName_present (hnamed : fs.WellNamed) {present : PathSet}
    (h : descriptorFiles fs folder = .ok present) (hmem : name ∈ descriptorContents fs folder)
    (look : Path → Except FileFault α) :
    (byName look present.paths).get? name = (look (folder.join name)).toOption := by
  have hname := isName_of_mem_descriptorContents hmem
  have hlook {found : α} (hget : (byName look present.paths).get? name = some found) :
      look (folder.join name) = .ok found := by
    obtain ⟨p, hp, hpname, hlook⟩ := of_get?_byName hget
    obtain ⟨name', hname', rfl⟩ := (mem_present_iff hnamed h).mp hp
    rw [Path.fileName?_join folder (isName_of_mem_descriptorContents hname'),
      Option.some.injEq] at hpname
    rwa [← hpname]
  cases hresult : look (folder.join name) with
  | error fault =>
    cases hget : (byName look present.paths).get? name with
    | none => rfl
    | some found =>
      rw [hlook hget] at hresult
      cases hresult
  | ok found =>
    have hfound : name ∈ byName look present.paths :=
      mem_byName.mpr ⟨_, (mem_present_iff hnamed h).mpr ⟨name, hmem, rfl⟩,
        Path.fileName?_join folder hname, found, hresult⟩
    obtain ⟨found', hget⟩ := Table.mem_iff_exists.mp hfound
    rw [hlook hget] at hresult
    cases hresult
    exact hget

/-- A file that is found under the name of a descriptor is listed. -/
theorem mem_descriptorContents_of_content (hnamed : fs.WellNamed) (hfolder : folder.text ≠ "")
    (hname : Path.IsName name) (hfamily : (DescriptorName.family? name).isSome)
    {content : FileContent} (hcontent : fs.content (folder.join name) = .ok content) :
    name ∈ descriptorContents fs folder := by
  obtain ⟨loc', hloc', -⟩ := FileSystem.content_eq_ok.mp hcontent
  obtain ⟨loc, hloc, hrequire⟩ := FileSystem.locate_folder_of_join hfolder hname hloc'
  obtain ⟨hexists, paths, hpaths⟩ := FileSystem.exists_listFiles hloc hrequire
  have hpresent : descriptorFiles fs folder =
      .ok (PathSet.ofPaths (paths.filter (·.descriptorName?.isSome))) := by
    simp only [descriptorFiles, hexists, hpaths, if_true]
  have hlisted : folder.join name ∈ paths := (FileSystem.mem_listFiles_iff hnamed hpaths).mpr
    ⟨FileSystem.isFile_iff.mpr ⟨content, hcontent⟩, name, hname, rfl⟩
  have hdescriptor : (folder.join name).descriptorName?.isSome := by
    rw [Path.descriptorName?, Path.fileName?_join folder hname]
    simpa [DescriptorName.family?] using hfamily
  have hkept : folder.join name ∈ paths.filter (·.descriptorName?.isSome) :=
    List.mem_filter.mpr ⟨hlisted, hdescriptor⟩
  obtain ⟨q, hq, hcomponents⟩ :=
    PathSet.exists_mem_of_holds (PathSet.holds_ofPaths.mpr ⟨_, hkept, rfl⟩)
  refine (mem_descriptorContents hpresent).mpr ⟨q, hq, ?_⟩
  rw [Path.fileName?_congr hcomponents, Path.fileName?_join folder hname]

theorem mem_descriptorContents_of_read (hnamed : fs.WellNamed) (hfolder : folder.text ≠ "")
    (hname : Path.IsName name) (hfamily : (DescriptorName.family? name).isSome) {bytes : ByteArray}
    (hread : fs.read (folder.join name) = .ok bytes) : name ∈ descriptorContents fs folder :=
  mem_descriptorContents_of_content hnamed hfolder hname hfamily (FileSystem.read_eq_ok_iff.mp hread)

/-- The listed files are the files in the folder that have the name of a descriptor. -/
theorem mem_present_iff_isFile (hnamed : fs.WellNamed) {present : PathSet}
    (h : descriptorFiles fs folder = .ok present) :
    p ∈ present.paths ↔ folder.text ≠ "" ∧ ∃ name, Path.IsName name ∧
      (DescriptorName.family? name).isSome ∧ fs.isFile (folder.join name) = true ∧
      p = folder.join name := by
  rw [mem_present_iff hnamed h]
  constructor
  · rintro ⟨name, hmem, rfl⟩
    obtain ⟨hfolder, hfamily⟩ := folder_of_mem_descriptorContents hmem
    have hp := (mem_present_iff hnamed h).mpr ⟨name, hmem, rfl⟩
    obtain ⟨_, content, _, _, hcontent, _, _⟩ := descriptor_of_mem h hp
    exact ⟨hfolder, name, isName_of_mem_descriptorContents hmem, hfamily,
      FileSystem.isFile_iff.mpr ⟨content, hcontent⟩, rfl⟩
  · rintro ⟨hfolder, name, hname, hfamily, hfile, rfl⟩
    obtain ⟨content, hcontent⟩ := FileSystem.isFile_iff.mp hfile
    exact ⟨name, mem_descriptorContents_of_content hnamed hfolder hname hfamily hcontent, rfl⟩

/-- What a descriptor holds is what is found under its name in the folder. -/
theorem get?_descriptorContents (hnamed : fs.WellNamed) (hfolder : folder.text ≠ "")
    (hname : Path.IsName name) (hfamily : (DescriptorName.family? name).isSome) :
    (descriptorContents fs folder).get? name = (fs.content (folder.join name)).toOption := by
  by_cases hmem : name ∈ descriptorContents fs folder
  · cases hpresent : descriptorFiles fs folder with
    | error fault => simp [descriptorContents, hpresent] at hmem
    | ok present =>
      rw [← get?_byName_present hnamed hpresent hmem, descriptorContents_eq hpresent]
  · rw [Table.get?_eq_none_iff.mpr hmem]
    cases hcontent : fs.content (folder.join name) with
    | error fault => rfl
    | ok content =>
      exact absurd (mem_descriptorContents_of_content hnamed hfolder hname hfamily hcontent) hmem

/-- Of the descriptors, those can be read that hold bytes. -/
theorem get?_readableContents (hnamed : fs.WellNamed) : (readableContents fs folder).get? name =
    ((descriptorContents fs folder).get? name).bind FileContent.bytes? := by
  cases hpresent : descriptorFiles fs folder with
  | error fault =>
    rw [readableContents, descriptorContents, hpresent]
    rfl
  | ok present =>
    rw [readableContents_eq hpresent]
    by_cases hmem : name ∈ descriptorContents fs folder
    · rw [get?_byName_present hnamed hpresent hmem, descriptorContents_eq hpresent,
        get?_byName_present hnamed hpresent hmem, FileSystem.toOption_read]
    · have hunread : name ∉ byName fs.read present.paths := by
        intro hread
        obtain ⟨p, hp, hname, -⟩ := mem_byName.mp hread
        exact hmem ((mem_descriptorContents hpresent).mpr ⟨p, hp, hname⟩)
      rw [Table.get?_eq_none_iff.mpr hmem, Table.get?_eq_none_iff.mpr hunread]
      rfl

/-- The others are those that hold a fault. -/
theorem mem_unreadDescriptors_iff (hnamed : fs.WellNamed) :
    name ∈ unreadDescriptors fs folder ↔
      ∃ fault, (descriptorContents fs folder).get? name = some (.unreadable fault) := by
  cases hpresent : descriptorFiles fs folder with
  | error fault =>
    have hnone : name ∉ (∅ : SortedSet String) := Table.not_mem_empty name
    simp [descriptorContents, unreadDescriptors, hpresent, hnone]
  | ok present =>
    rw [mem_unreadDescriptors hpresent, descriptorContents_eq hpresent]
    constructor
    · rintro ⟨p, hp, hname, hunread⟩
      obtain ⟨_, content, _, _, hcontent, _, _⟩ := descriptor_of_mem hpresent hp
      cases content with
      | bytes bytes => exact absurd (FileSystem.read_eq_ok_iff.mpr hcontent) (hunread bytes)
      | unreadable fault =>
        have hmem := (mem_descriptorContents hpresent).mpr ⟨p, hp, hname⟩
        obtain ⟨name', hname', rfl⟩ := (mem_present_iff hnamed hpresent).mp hp
        rw [Path.fileName?_join folder (isName_of_mem_descriptorContents hname'),
          Option.some.injEq] at hname
        rw [get?_byName_present hnamed hpresent hmem, ← hname, hcontent]
        exact ⟨fault, rfl⟩
    · rintro ⟨fault, hget⟩
      obtain ⟨p, hp, hname, hcontent⟩ := of_get?_byName hget
      refine ⟨p, hp, hname, fun bytes hread => ?_⟩
      rw [FileSystem.read_eq_ok_iff, hcontent] at hread
      cases hread

/-- They are the listed files that cannot be read. -/
theorem exists_unread_iff (hnamed : fs.WellNamed) {present : PathSet}
    (h : descriptorFiles fs folder = .ok present) :
    (∃ name ∈ unreadDescriptors fs folder, p = folder.join name) ↔
      p ∈ present.paths ∧ ∀ bytes, fs.read p ≠ .ok bytes := by
  constructor
  · rintro ⟨name, hname, rfl⟩
    obtain ⟨q, hq, hqname, hunread⟩ := (mem_unreadDescriptors h).mp hname
    obtain ⟨name', hname', rfl⟩ := (mem_present_iff hnamed h).mp hq
    rw [Path.fileName?_join folder (isName_of_mem_descriptorContents hname'),
      Option.some.injEq] at hqname
    rw [← hqname]
    exact ⟨hq, hunread⟩
  · rintro ⟨hp, hunread⟩
    obtain ⟨name, hname, rfl⟩ := (mem_present_iff hnamed h).mp hp
    exact ⟨name, (mem_unreadDescriptors h).mpr ⟨_, hp,
      Path.fileName?_join folder (isName_of_mem_descriptorContents hname), hunread⟩, rfl⟩

/-- The same descriptors cannot be read if all hold the same. -/
theorem unreadDescriptors_congr {fs' : FileSystem} (hnamed : fs.WellNamed) (hnamed' : fs'.WellNamed)
    (h : descriptorContents fs' folder = descriptorContents fs folder) :
    name ∈ unreadDescriptors fs' folder ↔ name ∈ unreadDescriptors fs folder := by
  rw [mem_unreadDescriptors_iff hnamed', mem_unreadDescriptors_iff hnamed, h]

/-- A descriptor that holds bytes can be read. -/
theorem readable_of_bytes (hnamed : fs.WellNamed) {bytes : ByteArray}
    (h : (descriptorContents fs folder).get? name = some (.bytes bytes)) :
    (readableContents fs folder).get? name = some bytes ∧ name ∉ unreadDescriptors fs folder := by
  rw [get?_readableContents hnamed, mem_unreadDescriptors_iff hnamed, h]
  exact ⟨rfl, by simp⟩

/-- A folder with the same descriptors has the same contents. -/
theorem descriptorContents_congr {fs' : FileSystem} (hnamed : fs.WellNamed) (hnamed' : fs'.WellNamed)
    (h : FileSystem.SameFiles (fun name => (DescriptorName.family? name).isSome) fs fs' folder) :
    descriptorContents fs' folder = descriptorContents fs folder := by
  apply Table.ext_get?
  intro name
  by_cases hproper : folder.text ≠ "" ∧ Path.IsName name ∧ (DescriptorName.family? name).isSome
  · obtain ⟨hfolder, hname, hfamily⟩ := hproper
    rw [get?_descriptorContents hnamed' hfolder hname hfamily,
      get?_descriptorContents hnamed hfolder hname hfamily]
    have hcontent (content : FileContent) := h name content hname hfamily
    cases hnow : fs'.content (folder.join name) with
    | ok content => rw [(hcontent content).mp hnow]
    | error fault =>
      cases hbefore : fs.content (folder.join name) with
      | ok content => rw [(hcontent content).mpr hbefore] at hnow; cases hnow
      | error fault' => rfl
  · have hnone (fs : FileSystem) : (descriptorContents fs folder).get? name = none := by
      rw [Table.get?_eq_none_iff]
      intro hmem
      obtain ⟨hfolder, hfamily⟩ := folder_of_mem_descriptorContents hmem
      exact hproper ⟨hfolder, isName_of_mem_descriptorContents hmem, hfamily⟩
    rw [hnone, hnone]

/-- The same descriptors can be read if they hold the same. -/
theorem readableContents_congr {fs' : FileSystem} (hnamed : fs.WellNamed) (hnamed' : fs'.WellNamed)
    (h : descriptorContents fs' folder = descriptorContents fs folder) :
    readableContents fs' folder = readableContents fs folder := by
  apply Table.ext_get?
  intro name
  rw [get?_readableContents hnamed', get?_readableContents hnamed, h]

/-- A folder with the same descriptors lists the same files. -/
theorem present_congr {fs' : FileSystem} (hnamed : fs.WellNamed) (hnamed' : fs'.WellNamed)
    {present present' : PathSet} (hpresent : descriptorFiles fs folder = .ok present)
    (hpresent' : descriptorFiles fs' folder = .ok present')
    (h : FileSystem.SameFiles (fun name => (DescriptorName.family? name).isSome) fs fs' folder) :
    present' = present := by
  have hmem (p : Path) : p ∈ present'.paths ↔ p ∈ present.paths := by
    rw [mem_present_iff hnamed' hpresent', mem_present_iff hnamed hpresent,
      descriptorContents_congr hnamed hnamed' h]
  obtain ⟨paths, rfl⟩ := present_eq_ofPaths hpresent
  obtain ⟨paths', rfl⟩ := present_eq_ofPaths hpresent'
  exact PathSet.ofPaths_congr hmem

end Contents

end LayoutRebuild
