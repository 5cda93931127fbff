import LayoutRebuild.Proofs.FileSystem.Remaking
import LayoutRebuild.Proofs.FileSystem.Rooted
import LayoutRebuild.Proofs.Log.Saved

/-!
# Writing again what has been written

A build writes its log and the classes of its module one after the other (`Arguments.outputs`).  Files
that have been written stand where they were written (`Written.stands`): they can be written again at
once, whatever is put into them, if it is not more than the device takes there (`exists_written`), and to
write the same again changes nothing at all (`Written.again`).  A file that is read under a name stands
(`stands_of_read`).  What cannot be written changes no file, since a file that was removed can be written
again.  Only where the device gives up the old file is lost, and a part of the new one may be left
(`write_of_fault`, `BrokenOff`).
-/

namespace LayoutRebuild

variable {fs fs' : FileSystem} {path : Path} {loc : Location}

namespace FileSystem

theorem Names.unique {loc' : Location} (h : fs.Names path loc) (h' : fs.Names path loc') :
    loc = loc' := by
  obtain ⟨slash, hplace⟩ := h
  obtain ⟨slash', hplace'⟩ := h'
  rw [hplace] at hplace'
  cases hplace'
  rfl

theorem setNode_self {node : Node} (hne : loc ≠ []) (h : fs.node? loc = some node) :
    fs.setNode loc node = fs := by
  have hnodes : fs.nodes.insert loc node = fs.nodes := by
    apply Table.ext_get?
    intro l
    rw [Table.get?_insert]
    split
    next heq => rw [heq, ← h, node?_of_ne_nil hne]
    · rfl
  rw [setNode, hnodes]

theorem setNode_dropNode (node : Node) :
    (fs.dropNode loc).setNode loc node = fs.setNode loc node := by
  have hnodes : (fs.nodes.erase loc).insert loc node = fs.nodes.insert loc node := by
    apply Table.ext_get?
    intro l
    rw [Table.get?_insert, Table.get?_insert, Table.get?_erase]
    split_ifs <;> rfl
  rw [setNode, setNode, dropNode, hnodes]

/-- The entry of a file that has just been removed is free. -/
theorem fileEntry_removeFile (h : fs.removeFile path = .ok fs') :
    ∃ loc, fs.place path = .ok (.entry loc false) ∧ fs' = fs.dropNode loc ∧
      fs'.fileEntry path = .ok loc ∧ fs'.node? loc = none := by
  have hkeeps := removeFile_keeps h
  obtain ⟨loc, content, hplace, -, rfl⟩ := removeFile_eq_ok h
  have hgone : (fs.dropNode loc).node? loc = none := by
    rw [node?_dropNode (ne_nil_of_place hplace), if_pos rfl]
  exact ⟨loc, hplace, rfl, fileEntry_eq_ok.mpr ⟨hkeeps.place hplace, by simp [hgone]⟩, hgone⟩

/-- The device takes so many bytes at the entry that a path names. -/
def Takes (fs : FileSystem) (path : Path) (size : Nat) : Prop :=
  ∀ loc, fs.Names path loc → fs.writingFault? loc size = none

/-- Where the device takes something it takes less. -/
theorem Takes.mono {size size' : Nat} (h : fs.Takes path size) (hle : size' ≤ size) :
    fs.Takes path size' := by
  intro loc hnames
  have htaken := h loc hnames
  unfold writingFault? at htaken ⊢
  split at htaken
  · cases htaken
  next count fault hstop =>
    split_ifs at htaken with hshort
    rw [if_neg (by omega)]
  · rfl

/-- A change does not take the device away from an entry. -/
theorem Takes.keeps {touched : Location → Prop} {size : Nat} (h : fs.Takes path size)
    (hkeeps : Keeps touched fs fs') (hnames : fs.Names path loc) : fs'.Takes path size := by
  intro loc' hnames'
  obtain rfl := hnames'.unique (hkeeps.names hnames)
  rw [writingFault?, hkeeps.stops_eq]
  exact h _ hnames

theorem takes_of_writeFile {content : ByteArray} (h : fs.writeFile path content = .ok fs') :
    fs'.Takes path content.size := by
  have hkeeps := writeFile_keeps h
  unfold writeFile at h
  split at h
  · cases h
  next loc hentry =>
    split at h
    · cases h
    next htaken =>
      have hnames : fs.Names path loc := ⟨false, (fileEntry_eq_ok.mp hentry).1⟩
      intro loc' hnames'
      obtain rfl := hnames'.unique (hkeeps.names hnames)
      rwa [writingFault?, hkeeps.stops_eq]

end FileSystem

namespace LogFile

theorem rooted_write (file : LogFile) (h : fs.Rooted) : (write fs path file).1.Rooted :=
  write_preserves file (fun _ _ _ h hmade => h.makeFolder hmade)
    (fun _ _ h hremoved => h.removeFile hremoved) (fun _ _ _ h hwritten => h.writeFile hwritten) h

/-! ## Files that stand -/

/-- There is a file with the given content at the path, and everything is there that it takes to write
the file again. -/
structure Stands (fs : FileSystem) (path : Path) (content : ByteArray) : Prop where
  prepared : prepareFolder fs path = (fs, .ok ())
  entry : ∃ loc, fs.place path = .ok (.entry loc false) ∧
    fs.node? loc = some (.file (.bytes content))

theorem prepareFolder_again {touched : Location → Prop} {made : FileSystem}
    (h : prepareFolder fs path = (made, .ok ())) (hkeeps : FileSystem.Keeps touched made fs') :
    prepareFolder fs' path = (fs', .ok ()) := by
  unfold prepareFolder at h ⊢
  split
  · rfl
  next folder hfolder =>
    simp only [hfolder] at h
    split
    · rfl
    next hnonempty =>
      rw [if_neg hnonempty] at h
      split at h
      next made' hmade =>
        cases h
        rw [FileSystem.makeFolders_again hmade hkeeps]
      · cases h

theorem stands_of_write {file : LogFile} (h : write fs path file = (fs', .ok ())) :
    Stands fs' path file.toText.toUTF8 := by
  obtain ⟨made, cleared, hprepared, hcleared, hwritten⟩ := write_eq_ok h
  have hclear : FileSystem.Keeps (fun _ => True) made cleared := by
    have hkeeps : FileSystem.Keeps (made.Names path) made (clear made path).1 := clear_keeps
    rw [hcleared] at hkeeps
    exact hkeeps.mono fun _ _ => trivial
  have hwrite := FileSystem.writeFile_keeps hwritten
  refine ⟨prepareFolder_again hprepared (hclear.trans (hwrite.mono fun _ _ => trivial)), ?_⟩
  obtain ⟨loc, hplace, -, rfl⟩ := FileSystem.writeFile_eq_ok hwritten
  refine ⟨loc, hwrite.place hplace, ?_⟩
  rw [FileSystem.node?_setNode (FileSystem.ne_nil_of_place hplace), if_pos rfl]

/-- A file that is read under a name stands there. -/
theorem stands_of_read {folder : Path} {name : String} {content : ByteArray}
    (hname : Path.IsName name) (hread : fs.read (folder.join name) = .ok content) :
    Stands fs (folder.join name) content := by
  obtain ⟨before, hsegments⟩ := Path.segments_join folder hname.no_slash
  obtain ⟨loc, hloc, hfile⟩ := FileSystem.read_eq_ok.mp hread
  refine ⟨?_, loc, FileSystem.place_of_locate_name hsegments hname hloc, hfile⟩
  unfold prepareFolder
  split
  · rfl
  next above habove =>
    split
    · rfl
    next hnonempty =>
      have hthere := FileSystem.isFolder_above hname hsegments hloc habove
        fun hempty => hnonempty (String.isEmpty_iff.mpr hempty)
      obtain ⟨higher, hhigher⟩ := FileSystem.ancestry_eq_cons above above.components.length
      rw [FileSystem.makeFolders, hhigher,
        FileSystem.makeFolderBelow_of_isFolder (.inr hthere)]

namespace Stands

variable {content : ByteArray}

theorem read_eq (h : Stands fs path content) : fs.read path = .ok content := by
  obtain ⟨loc, hplace, hfile⟩ := h.entry
  exact FileSystem.read_eq_ok.mpr ⟨loc, FileSystem.locate_of_place hplace, hfile⟩

theorem file_of_names (h : Stands fs path content) (hnames : fs.Names path loc) :
    fs.node? loc = some (.file (.bytes content)) := by
  obtain ⟨loc', hplace, hfile⟩ := h.entry
  rwa [hnames.unique ⟨false, hplace⟩]

theorem keeps {touched : Location → Prop} (h : Stands fs path content)
    (hkeeps : FileSystem.Keeps touched fs fs') (hother : ∀ loc, fs.Names path loc → ¬ touched loc) :
    Stands fs' path content := by
  obtain ⟨loc, hplace, hfile⟩ := h.entry
  exact ⟨prepareFolder_again h.prepared hkeeps,
    loc, hkeeps.place hplace, hkeeps.file loc _ (hother loc ⟨false, hplace⟩) hfile⟩

theorem names (h : Stands fs path content) : ∃ loc, fs.Names path loc := by
  obtain ⟨loc, hplace, -⟩ := h.entry
  exact ⟨loc, false, hplace⟩

/-- To write a file that stands is to replace its content. -/
theorem write_eq (h : Stands fs path content) {file : LogFile}
    (htakes : fs.Takes path file.toText.toUTF8.size) : ∃ loc, fs.place path = .ok (.entry loc false) ∧
      write fs path file = (fs.setNode loc (.file (.bytes file.toText.toUTF8)), .ok ()) := by
  obtain ⟨loc, hplace, hfile⟩ := h.entry
  -- The old file is removed first, so that the entry is free when the new one is written.
  have hremoved : fs.removeFile path = .ok (fs.dropNode loc) := by
    unfold FileSystem.removeFile
    simp [hplace, hfile]
  have hcleared : clear fs path = (fs.dropNode loc, .ok ()) := by
    rw [clear, hremoved]
  obtain ⟨loc', hplace', -, hentry, -⟩ := FileSystem.fileEntry_removeFile hremoved
  obtain rfl : loc = loc' := by
    rw [hplace] at hplace'
    cases hplace'
    rfl
  have htaken : (fs.dropNode loc).writingFault? loc file.toText.toUTF8.size = none :=
    htakes loc ⟨false, hplace⟩
  have hwritten : (fs.dropNode loc).writeFile path file.toText.toUTF8 =
      .ok (fs.setNode loc (.file (.bytes file.toText.toUTF8))) := by
    simp only [FileSystem.writeFile, hentry, htaken, FileSystem.setNode_dropNode]
  refine ⟨loc, hplace, ?_⟩
  simp only [write, h.prepared, hcleared, hwritten]

/-- To write the same again changes nothing. -/
theorem write_again {file : LogFile} (h : Stands fs path file.toText.toUTF8)
    (htakes : fs.Takes path file.toText.toUTF8.size) : write fs path file = (fs, .ok ()) := by
  obtain ⟨loc, hplace, hwrite⟩ := h.write_eq htakes
  rw [hwrite, FileSystem.setNode_self (FileSystem.ne_nil_of_place hplace)
    (h.file_of_names ⟨false, hplace⟩)]

end Stands

/-! ## Files that cannot be written -/

theorem clear_of_fault {fault : StoreFault} (h : clear fs path = (fs', .error fault)) :
    fs' = fs := by
  unfold clear at h
  split at h <;> cases h
  rfl

/-- What is left when the device has given up while a file was written.  No other file is touched; at the
path there is no file, or there are the first bytes of the new one. -/
structure BrokenOff (fs fs' : FileSystem) (path : Path) (file : LogFile) (fault : StoreFault) :
    Prop where
  stopped : ∃ cause loc, fault = .io path (.device cause) ∧ fs'.Names path loc ∧
    fs.writingFault? loc file.toText.toUTF8.size = some cause
  changesOnly : FileSystem.ChangesOnly (fs'.Names path) fs fs'
  left : fs'.content path = .error .notFound ∨ ∃ part rest, part ++ rest = file.toText.toUTF8 ∧
    rest ≠ .empty ∧ fs'.content path = .ok (.bytes part)

theorem clear_eq_ok {cleared : FileSystem} (h : clear fs path = (cleared, .ok ())) :
    fs.removeFile path = .ok cleared ∨ (cleared = fs ∧ fs.removeFile path = .error .notFound) := by
  unfold clear at h
  split at h
  next removed hremoved =>
    cases h
    exact .inl hremoved
  next hmissing =>
    cases h
    exact .inr ⟨rfl, hmissing⟩
  · cases h

/-- When the place of a file has been cleared, and there is an entry to write it to, nothing is
there. -/
theorem node?_of_clear {cleared : FileSystem} (h : clear fs path = (cleared, .ok ()))
    (hentry : cleared.fileEntry path = .ok loc) : cleared.node? loc = none := by
  rcases clear_eq_ok h with hremoved | ⟨rfl, hmissing⟩
  · obtain ⟨loc', -, -, hentry', hgone⟩ := FileSystem.fileEntry_removeFile hremoved
    rw [hentry, Except.ok.injEq] at hentry'
    rwa [hentry']
  · obtain ⟨hplace, hfolder⟩ := FileSystem.fileEntry_eq_ok.mp hentry
    unfold FileSystem.removeFile at hmissing
    simp only [hplace] at hmissing
    split at hmissing
    next hnone => exact hnone
    · cases hmissing
    · cases hmissing

/-- A write that fails has no entry to write to, or the device gives up there. -/
theorem writeFile_eq_error {content : ByteArray} {fault : FileFault}
    (h : fs.writeFile path content = .error fault) :
    fs.fileEntry path = .error fault ∨ ∃ loc cause, fs.fileEntry path = .ok loc ∧
      fs.writingFault? loc content.size = some cause ∧ fault = .device cause := by
  unfold FileSystem.writeFile at h
  split at h
  next fault' hentry =>
    cases h
    exact .inl hentry
  next loc hentry =>
    split at h
    next cause hcause =>
      cases h
      exact .inr ⟨loc, cause, hentry, hcause, rfl⟩
    · cases h

/-- When the place of a file has been cleared and the file is refused nevertheless, nothing has been
removed, or the device gives up. -/
theorem clear_of_refused {cleared : FileSystem} {content : ByteArray} {fault : FileFault}
    (hclear : clear fs path = (cleared, .ok ())) (h : cleared.writeFile path content = .error fault) :
    (cleared = fs ∧ cleared.breakOff path content = cleared) ∨
      ∃ loc cause, cleared.fileEntry path = .ok loc ∧
        cleared.writingFault? loc content.size = some cause ∧ fault = .device cause := by
  rcases writeFile_eq_error h with hnowhere | hstopped
  · left
    have hsame : cleared.breakOff path content = cleared := by
      rw [FileSystem.breakOff, hnowhere]
    refine ⟨?_, hsame⟩
    -- There would be an entry to write to, had anything been removed.
    rcases clear_eq_ok hclear with hremoved | ⟨rfl, -⟩
    · obtain ⟨loc, -, -, hentry, -⟩ := FileSystem.fileEntry_removeFile hremoved
      rw [hnowhere] at hentry
      cases hentry
    · rfl
  · exact .inr hstopped

/-- What cannot be written is refused before anything is removed, or the device gives up. -/
theorem write_of_fault {file : LogFile} {fault : StoreFault}
    (h : write fs path file = (fs', .error fault)) :
    FileSystem.ChangesOnly (fun _ => False) fs fs' ∨ BrokenOff fs fs' path file fault := by
  have hprepared : FileSystem.ChangesOnly (fun _ => False) fs (prepareFolder fs path).1 :=
    prepareFolder_keeps.changesOnly prepareFolder_addsNoFile
  have hchanges : FileSystem.ChangesOnly ((write fs path file).1.Names path) fs
      (write fs path file).1 := write_changesOnly file
  rw [h] at hchanges
  unfold write at h
  split at h
  next made fault' hmade =>
    cases h
    rw [hmade] at hprepared
    exact .inl hprepared
  next made hmade =>
    rw [hmade] at hprepared
    split at h
    next cleared fault' hclear =>
      cases h
      rw [clear_of_fault hclear]
      exact .inl hprepared
    next cleared hclear =>
      split at h
      · cases h
      next cause hwritten =>
        cases h
        rcases clear_of_refused hclear hwritten with
          ⟨rfl, hsame⟩ | ⟨loc, fault, hentry, hfault, rfl⟩
        · rw [hsame]
          exact .inl hprepared
        · right
          have hkeeps : FileSystem.Keeps (cleared.Names path) cleared
              (cleared.breakOff path file.toText.toUTF8) := FileSystem.breakOff_keeps
          refine ⟨⟨fault, loc, rfl, ?_, ?_⟩, hchanges,
            FileSystem.content_breakOff hentry (node?_of_clear hclear hentry) hfault⟩
          · exact hkeeps.names ⟨false, (FileSystem.fileEntry_eq_ok.mp hentry).1⟩
          · rw [FileSystem.writingFault?, ← hchanges.stops_eq, hkeeps.stops_eq]
            exact hfault

/-! ## Several files -/

/-- The files are written one after the other, each of them without a fault. -/
inductive Written : FileSystem → List (Path × LogFile) → FileSystem → Prop
  | nil (fs : FileSystem) : Written fs [] fs
  | cons {fs mid fs' : FileSystem} {path : Path} {file : LogFile} {rest : List (Path × LogFile)}
      (first : write fs path file = (mid, .ok ())) (others : Written mid rest fs') :
      Written fs ((path, file) :: rest) fs'

/-- Two paths never name the same entry. -/
def Apart (path path' : Path) : Prop :=
  ∀ (fs : FileSystem) loc, fs.Names path loc → ¬ fs.Names path' loc

namespace Written

variable {files : List (Path × LogFile)}

/-- Nothing is touched but the files that the paths name in the end. -/
theorem changesOnly (h : Written fs files fs') :
    FileSystem.ChangesOnly (fun loc => ∃ f ∈ files, fs'.Names f.1 loc) fs fs' := by
  induction h with
  | nil fs => exact .refl fs
  | @cons fs mid fs' path file rest first others ih =>
    have hfirst : FileSystem.ChangesOnly ((write fs path file).1.Names path) fs
        (write fs path file).1 := write_changesOnly file
    rw [first] at hfirst
    refine (hfirst.mono fun loc hnames => ?_).trans (ih.mono fun loc => ?_)
    · exact ⟨(path, file), List.mem_cons_self, ih.names hnames⟩
    · rintro ⟨f, hf, hnames⟩
      exact ⟨f, List.mem_cons_of_mem _ hf, hnames⟩

theorem wellNamed (h : Written fs files fs') (hnamed : fs.WellNamed) : fs'.WellNamed := by
  induction h with
  | nil => exact hnamed
  | @cons fs mid fs' path file rest first others ih =>
    have hmid : (write fs path file).1.WellNamed := wellNamed_write file hnamed
    rw [first] at hmid
    exact ih hmid

theorem rooted (h : Written fs files fs') (hrooted : fs.Rooted) : fs'.Rooted := by
  induction h with
  | nil => exact hrooted
  | @cons fs mid fs' path file rest first others ih =>
    have hmid : (write fs path file).1.Rooted := rooted_write file hrooted
    rw [first] at hmid
    exact ih hmid

/-- Files that have been written under different names stand in the end. -/
theorem stands (h : Written fs files fs') (hapart : files.Pairwise fun f g => Apart f.1 g.1) :
    ∀ f ∈ files, Stands fs' f.1 f.2.toText.toUTF8 := by
  induction h with
  | nil => simp
  | @cons fs mid fs' path file rest first others ih =>
    obtain ⟨hother, hrest⟩ := List.pairwise_cons.mp hapart
    have hkeeps := others.changesOnly
    intro f hf
    rcases List.mem_cons.mp hf with rfl | hf
    · -- The files that are written later are called otherwise.
      apply (stands_of_write first).keeps hkeeps.toKeeps
      rintro loc hnames ⟨g, hg, hnames'⟩
      exact hother g hg fs' loc (hkeeps.names hnames) hnames'
    · exact ih hrest f hf

/-- What the device has taken it takes again. -/
theorem takes (h : Written fs files fs') : ∀ f ∈ files, fs'.Takes f.1 f.2.toText.toUTF8.size := by
  induction h with
  | nil => simp
  | @cons fs mid fs' path file rest first others ih =>
    intro f hf
    rcases List.mem_cons.mp hf with rfl | hf
    · obtain ⟨made, cleared, -, -, hwritten⟩ := write_eq_ok first
      obtain ⟨loc, hnames⟩ := (stands_of_write first).names
      exact (FileSystem.takes_of_writeFile hwritten).keeps others.changesOnly.toKeeps hnames
    · exact ih f hf

/-- To write again what stands changes nothing. -/
theorem again (h : ∀ f ∈ files, Stands fs f.1 f.2.toText.toUTF8)
    (htakes : ∀ f ∈ files, fs.Takes f.1 f.2.toText.toUTF8.size) : Written fs files fs := by
  induction files with
  | nil => exact .nil fs
  | cons f rest ih =>
    obtain ⟨hfirst, hrest⟩ := List.forall_mem_cons.mp htakes
    have hsame := (h f List.mem_cons_self).write_again hfirst
    exact .cons hsame (ih (fun g hg => h g (List.mem_cons_of_mem _ hg)) hrest)

end Written

/-- Where files stand under different names, others can be written in their place. -/
theorem exists_written {files : List (Path × LogFile)}
    (h : ∀ f ∈ files, ∃ content, Stands fs f.1 content)
    (htakes : ∀ f ∈ files, fs.Takes f.1 f.2.toText.toUTF8.size)
    (hapart : files.Pairwise fun f g => Apart f.1 g.1) : ∃ fs', Written fs files fs' := by
  induction files generalizing fs with
  | nil => exact ⟨fs, .nil fs⟩
  | cons f rest ih =>
    obtain ⟨hother, hrest⟩ := List.pairwise_cons.mp hapart
    obtain ⟨content, hstands⟩ := h f List.mem_cons_self
    obtain ⟨hfirst, hlater⟩ := List.forall_mem_cons.mp htakes
    obtain ⟨loc, hplace, hwrite⟩ := hstands.write_eq hfirst
    have hchanges : FileSystem.ChangesOnly ((write fs f.1 f.2).1.Names f.1) fs
        (write fs f.1 f.2).1 := write_changesOnly f.2
    rw [hwrite] at hchanges
    have hstill : ∀ g ∈ rest, ∃ content,
        Stands (fs.setNode loc (.file (.bytes f.2.toText.toUTF8))) g.1 content := by
      intro g hg
      obtain ⟨content', hstands'⟩ := h g (List.mem_cons_of_mem _ hg)
      refine ⟨content', hstands'.keeps hchanges.toKeeps ?_⟩
      intro loc' hnames hnames'
      exact hother g hg _ loc' hnames' (hchanges.names hnames)
    have htakes' : ∀ g ∈ rest, (fs.setNode loc (.file (.bytes f.2.toText.toUTF8))).Takes g.1
        g.2.toText.toUTF8.size := by
      intro g hg
      obtain ⟨content', hstands'⟩ := h g (List.mem_cons_of_mem _ hg)
      obtain ⟨loc', hnames⟩ := hstands'.names
      exact (hlater g hg).keeps hchanges.toKeeps hnames
    obtain ⟨fs', hwritten⟩ := ih hstill htakes' hrest
    exact ⟨fs', .cons hwrite hwritten⟩

end LogFile

/-! ## What a build writes -/

namespace Arguments

/-- The paths of the files that a build writes: its log, and the artifact if there is a folder for
it. -/
def outputPaths (args : Arguments) : List Path :=
  args.logPath :: args.artifactFolder.toList.map fun folder => Artifact.pathIn folder args.package

/-- The files that a build with the given log writes, in order. -/
def outputs (args : Arguments) (log : BuildLog) : List (Path × LogFile) :=
  (args.logPath, .ofLog log) :: args.artifactFolder.toList.map fun folder =>
    (Artifact.pathIn folder args.package, .ofClasses log.classes)

/-- The entry is that of a file that a build writes. -/
def Writes (args : Arguments) (fs : FileSystem) (loc : Location) : Prop :=
  ∃ path ∈ args.outputPaths, fs.Names path loc

theorem map_outputs (args : Arguments) (log : BuildLog) :
    (args.outputs log).map Prod.fst = args.outputPaths := by
  unfold outputs outputPaths
  rw [List.map_cons, List.map_map]
  rfl

theorem writes_iff {args : Arguments} {log : BuildLog} :
    args.Writes fs loc ↔ ∃ f ∈ args.outputs log, fs.Names f.1 loc := by
  unfold Writes
  rw [← map_outputs args log]
  constructor
  · rintro ⟨path, hpath, hnames⟩
    obtain ⟨f, hf, rfl⟩ := List.mem_map.mp hpath
    exact ⟨f, hf, hnames⟩
  · rintro ⟨f, hf, hnames⟩
    exact ⟨f.1, List.mem_map_of_mem hf, hnames⟩

/-- An artifact never takes the place of a log. -/
theorem apart_log_artifact (logFolder folder : Path) (package : String) :
    LogFile.Apart (BuildLog.pathIn logFolder) (Artifact.pathIn folder package) := by
  intro fs loc hlog hartifact
  obtain ⟨name, hlast, hending⟩ := Artifact.ending_of_names hartifact
  rw [BuildLog.getLast?_of_names hlog] at hlast
  cases hlast
  exact Artifact.ending_not_suffix hending

theorem apart_outputs (args : Arguments) (log : BuildLog) :
    (args.outputs log).Pairwise fun f g => LogFile.Apart f.1 g.1 := by
  unfold outputs
  cases args.artifactFolder with
  | none => exact List.pairwise_singleton _ _
  | some folder =>
    refine List.pairwise_pair.mpr ?_
    exact apart_log_artifact args.logFolder folder args.package

end Arguments

theorem Artifact.publish_eq_ok_iff {folder published : Path} {package : String}
    {classes : ClassTable} : Artifact.publish fs folder package classes = (fs', .ok published) ↔
      published = Artifact.pathIn folder package ∧
        LogFile.write fs (Artifact.pathIn folder package) (.ofClasses classes) = (fs', .ok ()) := by
  unfold publish
  simp only
  constructor
  · intro h
    split at h
    next written hwrite =>
      cases h
      exact ⟨rfl, hwrite⟩
    · cases h
  · rintro ⟨rfl, hwrite⟩
    rw [hwrite]

/-- A build succeeds by writing the files that are to be written for the next log. -/
theorem Resolution.finish_eq_ok_iff {r : Resolution} {args : Arguments} {fresh log : BuildLog} :
    r.finish fs args fresh = (fs', .ok log) ↔
      log = r.nextLog fs fresh ∧ LogFile.Written fs (args.outputs log) fs' := by
  unfold finish Arguments.outputs
  constructor
  · intro h
    split at h
    · cases h
    next saved next hpersist =>
      obtain ⟨rfl, hsave⟩ := persist_eq_ok_iff.mp hpersist
      split at h
      next hfolder =>
        cases h
        rw [hfolder]
        exact ⟨rfl, .cons hsave (.nil fs')⟩
      next folder hfolder =>
        split at h
        next published path hpublish =>
          cases h
          rw [hfolder]
          exact ⟨rfl, .cons hsave (.cons (Artifact.publish_eq_ok_iff.mp hpublish).2 (.nil fs'))⟩
        · cases h
  · rintro ⟨rfl, hwritten⟩
    cases hwritten with
    | @cons _ saved _ _ _ _ first others =>
      rw [persist_eq_ok_iff.mpr ⟨rfl, first⟩]
      cases hfolder : args.artifactFolder with
      | none =>
        rw [hfolder] at others
        cases others
        rfl
      | some folder =>
        rw [hfolder] at others
        cases others with
        | cons second last =>
          cases last
          have hpublish := Artifact.publish_eq_ok_iff.mpr ⟨rfl, second⟩
          simp only [hpublish]

end LayoutRebuild
