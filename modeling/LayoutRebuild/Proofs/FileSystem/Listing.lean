import LayoutRebuild.Proofs.FileSystem.Keeping
import LayoutRebuild.Proofs.Path.Segments
import Mathlib.Data.List.Nodup

/-!
# What a folder lists

Every entry has a proper name (`WellNamed`), and no operation can make an entry with another one.  The
files that a folder lists are then exactly the files that are found under a name in the folder
(`mem_listFiles_iff`), so that to list a folder and to look for its files one by one is the same.
Two file systems that have the same files in a folder (`SameFiles`) list the same.
-/

namespace LayoutRebuild

theorem mem_sortPaths {p : Path} {paths : List Path} : p ∈ sortPaths paths ↔ p ∈ paths :=
  List.mem_mergeSort

theorem pairwise_sortPaths (paths : List Path) :
    (sortPaths paths).Pairwise fun p q => (compare p q).isLE := by
  apply List.pairwise_mergeSort
  · intro p q r hpq hqr
    exact Std.TransCmp.isLE_trans hpq hqr
  · intro p q
    have hswap : compare q p = (compare p q).swap := Std.OrientedCmp.eq_swap
    rw [hswap]
    cases compare p q <;> rfl

/-- Lists of paths in strict order that have the same members are equal. -/
theorem eq_of_sorted {paths paths' : List Path}
    (h : paths.Pairwise fun p q => compare p q = .lt)
    (h' : paths'.Pairwise fun p q => compare p q = .lt) (hmem : ∀ p, p ∈ paths ↔ p ∈ paths') :
    paths = paths' := by
  refine List.Perm.eq_of_pairwise (fun p q _ _ hpq hqp => ?_) h h'
    ((List.perm_ext_iff_of_nodup (nodup_of_sorted h) (nodup_of_sorted h')).mpr hmem)
  exact absurd (Std.TransCmp.lt_trans hpq hqp) (Table.not_lt_self p)

namespace FileSystem

variable {fs fs' : FileSystem} {p folder : Path} {loc : Location} {name : String}

/-! ## Proper names -/

/-- Every name on the way to an entry, and to the working folder, is a proper one. -/
structure WellNamed (fs : FileSystem) : Prop where
  node : ∀ loc node, fs.nodes.get? loc = some node → ∀ name ∈ loc, Path.IsName name
  workingFolder : ∀ name ∈ fs.workingFolder, Path.IsName name

namespace WellNamed

theorem blank {loc : Location} (h : ∀ name ∈ loc, Path.IsName name) :
    WellNamed (FileSystem.blank loc) := by
  refine ⟨fun l node hl name hname => ?_, h⟩
  obtain ⟨n, -, heq⟩ := List.mem_map.mp (Table.mem_of_get?_ofList hl)
  cases heq
  exact h name (List.mem_of_mem_take hname)

theorem ofList {entries : List (Location × Node)}
    (h : ∀ e ∈ entries, ∀ name ∈ e.1, Path.IsName name) :
    WellNamed { nodes := Table.ofList entries, workingFolder := [] } :=
  ⟨fun _ _ hget => h _ (Table.mem_of_get?_ofList hget), by simp⟩

theorem setNode (h : fs.WellNamed) (hloc : ∀ name ∈ loc, Path.IsName name) (node : Node) :
    (fs.setNode loc node).WellNamed := by
  refine ⟨fun l node' hl => ?_, h.workingFolder⟩
  rw [FileSystem.setNode, Table.get?_insert] at hl
  split at hl
  next heq =>
    rw [heq]
    exact hloc
  · exact h.node l node' hl

theorem filter (h : fs.WellNamed) (keep : Location → Node → Bool) :
    WellNamed { fs with nodes := fs.nodes.filter keep } := by
  refine ⟨fun l node hl => ?_, h.workingFolder⟩
  rw [Table.get?_filter, Option.filter_eq_some_iff] at hl
  exact h.node l node hl.1

theorem start (h : fs.WellNamed) (p : Path) : ∀ name ∈ fs.start p, Path.IsName name := by
  unfold FileSystem.start
  split
  · simp
  · exact h.workingFolder

end WellNamed

/-- A walk along the segments of a path meets proper names only. -/
theorem isName_of_walk {segments : List String} {start : Location}
    (hslash : ∀ segment ∈ segments, '/' ∉ segment.toList)
    (hstart : ∀ name ∈ start, Path.IsName name) (h : fs.walk start segments = .ok loc) :
    ∀ name ∈ loc, Path.IsName name := by
  induction segments generalizing start with
  | nil =>
    cases h
    exact hstart
  | cons segment rest ih =>
    have hrest : ∀ segment ∈ rest, '/' ∉ segment.toList := fun s hs =>
      hslash s (List.mem_cons_of_mem _ hs)
    rw [walk] at h
    cases hf : fs.requireFolder start with
    | error e => simp [hf] at h
    | ok u =>
      simp only [hf] at h
      split_ifs at h with hblank hup hlong
      · exact ih hrest hstart h
      · exact ih hrest (fun name hname => hstart name ((List.dropLast_prefix _).subset hname)) h
      · refine ih hrest (fun name hname => ?_) h
        rcases List.mem_append.mp hname with hold | hnew
        · exact hstart name hold
        · rw [List.mem_singleton] at hnew
          subst hnew
          simp only [Path.isBlank, Bool.or_eq_true, beq_iff_eq, not_or] at hblank
          exact ⟨hblank.1, hblank.2, hup, hslash _ List.mem_cons_self⟩

/-- What a path names has a proper name. -/
theorem WellNamed.names (h : fs.WellNamed) {slash : Bool}
    (hplace : fs.place p = .ok (.entry loc slash)) : ∀ name ∈ loc, Path.IsName name := by
  obtain ⟨folder, last, hlast, hwalk, -, hdot, hup, -, rfl⟩ :=
    (place_eq_entry_iff.mp hplace).entry
  have hslash : ∀ segment ∈ named p, '/' ∉ segment.toList := fun segment hsegment =>
    Path.no_slash_of_mem_segments ((named_initial p).subset hsegment)
  intro name hname
  rcases List.mem_append.mp hname with hfolder | hlast'
  · exact isName_of_walk (fun s hs => hslash s ((List.dropLast_prefix _).subset hs)) (h.start p) hwalk
      name hfolder
  · rw [List.mem_singleton] at hlast'
    subst hlast'
    exact ⟨named_ne_empty hlast, hdot, hup, hslash _ (List.mem_of_getLast? hlast)⟩

theorem WellNamed.makeFolder (h : fs.WellNamed) (hmade : fs.makeFolder p = .ok fs') :
    fs'.WellNamed := by
  obtain ⟨loc, slash, hplace, -, rfl⟩ := makeFolder_eq_ok hmade
  exact h.setNode (h.names hplace) _

theorem WellNamed.writeFile (h : fs.WellNamed) {content : ByteArray}
    (hwritten : fs.writeFile p content = .ok fs') : fs'.WellNamed := by
  obtain ⟨loc, hplace, -, rfl⟩ := writeFile_eq_ok hwritten
  exact h.setNode (h.names hplace) _

theorem WellNamed.removeFile (h : fs.WellNamed) (hremoved : fs.removeFile p = .ok fs') :
    fs'.WellNamed := by
  obtain ⟨loc, content, -, -, rfl⟩ := removeFile_eq_ok hremoved
  exact h.filter _

theorem WellNamed.removeTree (h : fs.WellNamed) (p : Path) : (fs.removeTree p).1.WellNamed := by
  unfold FileSystem.removeTree
  split
  · exact h
  · split
    · exact h
    · exact h.filter _

/-! ## Files of a folder -/

theorem isFile_iff : fs.isFile p = true ↔ ∃ content, fs.content p = .ok content := by
  unfold isFile content
  cases fs.lookup p with
  | error e => simp
  | ok node => cases node <;> simp

theorem isFile_of_read {bytes : ByteArray} (h : fs.read p = .ok bytes) : fs.isFile p = true :=
  isFile_iff.mpr ⟨_, read_eq_ok_iff.mp h⟩

/-- An entry that counts as a child of a folder stands in the folder under the name of the child. -/
theorem eq_of_child {l : Location} {node : Node} {child : String × Node}
    (h : (match l.getLast? with
      | some name => if l.dropLast = loc then some (name, node) else none
      | none => none) = some child) : (l, node) = (loc ++ [child.1], child.2) := by
  split at h
  next name hname =>
    split_ifs at h with hparent
    cases h
    obtain ⟨before, rfl⟩ := List.getLast?_eq_some_iff.mp hname
    rw [List.dropLast_concat] at hparent
    rw [hparent]
  · cases h

theorem mem_children {node : Node} : (name, node) ∈ fs.children loc ↔
    fs.nodes.get? (loc ++ [name]) = some node := by
  rw [children, List.mem_filterMap, ← Table.mem_entries_iff]
  constructor
  · rintro ⟨⟨l, node'⟩, hentry, hchild⟩
    rwa [eq_of_child hchild] at hentry
  · intro hentry
    exact ⟨(loc ++ [name], node), hentry, by simp⟩

theorem nodup_children (fs : FileSystem) (loc : Location) : (fs.children loc).Nodup := by
  refine List.Nodup.filterMap ?_ fs.nodes.nodup_entries
  rintro ⟨l, node⟩ ⟨l', node'⟩ child h h'
  exact (eq_of_child h).trans (eq_of_child h').symm

/-- The entries that a folder lists stand in the folder. -/
theorem listFiles_eq_ok {paths : List Path} (h : fs.listFiles folder = .ok paths) :
    ∃ loc, fs.locate folder = .ok loc ∧ fs.requireFolder loc = .ok () ∧
      ∀ p, p ∈ paths ↔ fs.isFile p = true ∧ ∃ name node,
        fs.nodes.get? (loc ++ [name]) = some node ∧ p = folder.join name := by
  unfold listFiles list at h
  split at h
  · cases h
  next entries hentries =>
    split at hentries
    · cases hentries
    next loc hloc =>
      split at hentries
      · cases hentries
      next hfolder =>
        cases h
        cases hentries
        refine ⟨loc, hloc, hfolder, fun p => ?_⟩
        rw [mem_sortPaths, List.mem_filter, List.mem_map, and_comm]
        refine and_congr_right fun _ => ?_
        constructor
        · rintro ⟨⟨name, node⟩, hchild, rfl⟩
          exact ⟨name, node, mem_children.mp hchild, rfl⟩
        · rintro ⟨name, node, hnode, rfl⟩
          exact ⟨(name, node), mem_children.mpr hnode, rfl⟩

/-- A path to a name in a folder leads through the folder. -/
theorem walk_join_iff (hfolder : folder.text ≠ "") (hname : Path.IsName name) {loc' : Location} :
    fs.walk (fs.start (folder.join name)) (folder.join name).segments = .ok loc' ↔
      ∃ loc, fs.walk (fs.start folder) folder.segments = .ok loc ∧
        fs.requireFolder loc = .ok () ∧ name.utf8ByteSize ≤ maxNameBytes ∧ loc' = loc ++ [name] := by
  obtain ⟨before, hsegments⟩ := Path.segments_join folder hname.no_slash
  obtain ⟨hbefore, habsolute⟩ := Path.segments_folder_of_join hfolder hname.no_slash hsegments
  have hstart : fs.start (folder.join name) = fs.start folder := by
    rw [start, start, habsolute]
  rw [hsegments, hstart, walk_append_eq_ok]
  simp only [walk_name hname.isBlank_eq hname.ne_up]
  rcases hbefore with heq | heq
  · rw [heq]
  · simp only [heq, walk_append_eq_ok, walk_slash]
    constructor
    · rintro ⟨loc, hloc, hrequire, hname⟩
      exact ⟨loc, ⟨loc, hloc, hrequire, rfl⟩, hrequire, hname⟩
    · rintro ⟨loc, ⟨_, hloc, -, rfl⟩, hname⟩
      exact ⟨loc, hloc, hname⟩

theorem locate_eq_ok : fs.locate p = .ok loc ↔
    checkText p = .ok () ∧ fs.walk (fs.start p) p.segments = .ok loc := by
  unfold locate
  cases checkText p <;> simp

/-- A path that ends in a name, and that leads somewhere, names what it leads to. -/
theorem place_of_locate_name {before : List String} (hsegments : p.segments = before ++ [name])
    (hname : Path.IsName name) (h : fs.locate p = .ok loc) :
    fs.place p = .ok (.entry loc false) := by
  obtain ⟨hcheck, hwalk⟩ := locate_eq_ok.mp h
  rw [hsegments] at hwalk
  obtain ⟨folder, hfolder, hstep⟩ := walk_append_eq_ok.mp hwalk
  obtain ⟨hrequire, hlong, rfl⟩ := (walk_name hname.isBlank_eq hname.ne_up).mp hstep
  have hnamed : named p = before ++ [name] := by
    simp [named, hsegments, hname.ne_empty]
  refine place_eq_entry_iff.mpr ⟨hcheck, ⟨folder, name, ?_, ?_, hrequire, hname.ne_here,
    hname.ne_up, hlong, rfl⟩, ?_⟩
  · rw [hnamed, List.getLast?_concat]
  · rw [hnamed, List.dropLast_concat, hfolder]
  · simp [hnamed, hsegments]

/-- What a path names is called what the path ends in. -/
theorem Names.getLast? {before : List String} (hsegments : p.segments = before ++ [name])
    (hname : name ≠ "") (h : fs.Names p loc) : loc.getLast? = some name := by
  obtain ⟨slash, hplace⟩ := h
  obtain ⟨folder, last, hlast, -, -, -, -, -, rfl⟩ := (place_eq_entry_iff.mp hplace).entry
  have hnamed : named p = before ++ [name] := by
    simp [named, hsegments, hname]
  rw [hnamed, List.getLast?_concat] at hlast
  cases hlast
  simp

/-- A path that ends in a name leads to a location that ends in it. -/
theorem getLast?_of_locate {before : List String} (hsegments : p.segments = before ++ [name])
    (hname : Path.IsName name) (h : fs.locate p = .ok loc) : loc.getLast? = some name :=
  Names.getLast? hsegments hname.ne_empty ⟨false, place_of_locate_name hsegments hname h⟩

theorem checkText_eq_ok : checkText p = .ok () ↔
    '\x00' ∉ p.text.toList ∧ p.text ≠ "" ∧ p.text.utf8ByteSize < pathByteLimit := by
  unfold checkText
  split_ifs with hzero hempty hlong
  · simp_all
  · simp_all
  · simp only [false_iff, not_and, Nat.not_lt]
    exact fun _ _ => hlong
  · simp only [List.contains_iff_mem, String.isEmpty_iff, Nat.not_le] at hzero hempty hlong
    exact ⟨fun _ => ⟨hzero, hempty, hlong⟩, fun _ => rfl⟩

/-- Where a path can be followed, so can what starts its text. -/
theorem checkText_of_initial {q : Path} (h : q.text.toList <+: p.text.toList) (hne : q.text ≠ "")
    (hp : checkText p = .ok ()) : checkText q = .ok () := by
  obtain ⟨hzero, -, hlong⟩ := checkText_eq_ok.mp hp
  obtain ⟨rest, hrest⟩ := h
  have htext : p.text = q.text ++ String.ofList rest := by
    rw [← String.toList_inj, ← hrest]
    simp
  rw [htext, String.utf8ByteSize_append] at hlong
  refine checkText_eq_ok.mpr ⟨fun hmem => hzero ?_, hne, by omega⟩
  rw [← hrest]
  exact List.mem_append_left rest hmem

/-- A name in a folder leads to the entry of that name. -/
theorem locate_join {loc' : Location} (hfolder : fs.locate folder = .ok loc)
    (hname : Path.IsName name) (h : fs.locate (folder.join name) = .ok loc') :
    loc' = loc ++ [name] := by
  obtain ⟨hcheck, hloc⟩ := locate_eq_ok.mp hfolder
  obtain ⟨loc₁, hloc₁, -, -, rfl⟩ :=
    (walk_join_iff (checkText_eq_ok.mp hcheck).2.1 hname).mp (locate_eq_ok.mp h).2
  rw [hloc, Except.ok.injEq] at hloc₁
  rw [hloc₁]

/-- Where a name in a folder leads somewhere, the folder is there. -/
theorem locate_folder_of_join {loc' : Location} (hfolder : folder.text ≠ "")
    (hname : Path.IsName name) (h : fs.locate (folder.join name) = .ok loc') :
    ∃ loc, fs.locate folder = .ok loc ∧ fs.requireFolder loc = .ok () := by
  obtain ⟨hcheck, hwalk⟩ := locate_eq_ok.mp h
  obtain ⟨loc, hloc, hrequire, -, -⟩ := (walk_join_iff hfolder hname).mp hwalk
  obtain ⟨rest, htext⟩ := Path.text_join_eq folder hname.no_slash
  have hinitial : folder.text.toList <+: (folder.join name).text.toList := by
    rw [htext, String.toList_append]
    exact List.prefix_append _ _
  exact ⟨loc, locate_eq_ok.mpr ⟨checkText_of_initial hinitial hfolder hcheck, hloc⟩, hrequire⟩

/-- A folder that a path leads to can be listed. -/
theorem exists_listFiles (h : fs.locate folder = .ok loc) (hfolder : fs.requireFolder loc = .ok ()) :
    fs.exists? folder = true ∧ ∃ paths, fs.listFiles folder = .ok paths := by
  constructor
  · simp [exists?, lookup, h, requireFolder_eq_ok.mp hfolder]
  · simp [listFiles, list, h, hfolder]

/-- A folder lists the files that are found under a name in it. -/
theorem mem_listFiles_of_isFile {paths : List Path} (h : fs.listFiles folder = .ok paths)
    (hname : Path.IsName name) (hfile : fs.isFile (folder.join name) = true) :
    folder.join name ∈ paths := by
  obtain ⟨loc, hloc, -, hmem⟩ := listFiles_eq_ok h
  obtain ⟨content, hcontent⟩ := isFile_iff.mp hfile
  obtain ⟨loc', hloc', hnode⟩ := content_eq_ok.mp hcontent
  rw [locate_join hloc hname hloc', node?_of_ne_nil (by simp)] at hnode
  exact (hmem _).mpr ⟨hfile, name, .file content, hnode, rfl⟩

/-- With proper names only, it lists no other files. -/
theorem mem_listFiles_iff (hnamed : fs.WellNamed) {paths : List Path}
    (h : fs.listFiles folder = .ok paths) : p ∈ paths ↔
      fs.isFile p = true ∧ ∃ name, Path.IsName name ∧ p = folder.join name := by
  constructor
  · obtain ⟨loc, hloc, -, hmem⟩ := listFiles_eq_ok h
    intro hp
    obtain ⟨hfile, name, node, hnode, rfl⟩ := (hmem p).mp hp
    exact ⟨hfile, name, hnamed.node _ _ hnode name (by simp), rfl⟩
  · rintro ⟨hfile, name, hname, rfl⟩
    exact mem_listFiles_of_isFile h hname hfile

/-! ## The order of a list -/

theorem pairwise_listFiles {paths : List Path} (h : fs.listFiles folder = .ok paths) :
    paths.Pairwise fun p q => (compare p q).isLE := by
  unfold listFiles at h
  split at h
  · cases h
  · cases h
    exact pairwise_sortPaths _

theorem listFiles_of_sorted {entries : List (String × Node)} {paths : List Path}
    (h : fs.list p = .ok entries)
    (hpaths : (entries.map fun entry => p.join entry.1).filter fs.isFile = paths)
    (hsorted : paths.Pairwise fun p q => (compare p q).isLE) : fs.listFiles p = .ok paths := by
  rw [listFiles, h]
  simp only [hpaths, sortPaths, List.mergeSort_of_pairwise hsorted]

/-- A folder lists no file twice. -/
theorem nodup_listFiles (hnamed : fs.WellNamed) {paths : List Path}
    (h : fs.listFiles folder = .ok paths) : paths.Nodup := by
  unfold listFiles list at h
  split at h
  · cases h
  next entries hentries =>
    split at hentries
    · cases hentries
    next loc hloc =>
      split at hentries
      · cases hentries
      · cases h
        cases hentries
        refine (List.mergeSort_perm _ _).nodup_iff.mpr (List.Nodup.filter _ ?_)
        refine List.Nodup.map_on ?_ (nodup_children fs loc)
        rintro ⟨name, node⟩ hchild ⟨name', node'⟩ hchild' hsame
        have hnode := mem_children.mp hchild
        have hnode' := mem_children.mp hchild'
        have hname := hnamed.node _ _ hnode name (by simp)
        have hname' := hnamed.node _ _ hnode' name' (by simp)
        obtain rfl : name = name' := Path.join_inj hname hname' hsame
        rw [hnode, Option.some.injEq] at hnode'
        rw [hnode']

/-- The files of a folder are listed in strict order: no two of them compare equal. -/
theorem sorted_listFiles (hnamed : fs.WellNamed) {paths : List Path}
    (h : fs.listFiles folder = .ok paths) : paths.Pairwise fun p q => compare p q = .lt := by
  refine ((pairwise_listFiles h).and (nodup_listFiles hnamed h)).imp_of_mem ?_
  rintro p q hp hq ⟨hle, hne⟩
  obtain ⟨-, name, hname, rfl⟩ := (mem_listFiles_iff hnamed h).mp hp
  obtain ⟨-, name', hname', rfl⟩ := (mem_listFiles_iff hnamed h).mp hq
  cases hcompare : compare (folder.join name) (folder.join name') with
  | lt => rfl
  | gt => simp [hcompare] at hle
  | eq =>
    have hcomponents : (folder.join name).components = (folder.join name').components :=
      Std.LawfulEqCmp.eq_of_compare hcompare
    exact absurd (congrArg folder.join (Path.join_inj_of_components hname hname' hcomponents)) hne

/-! ## The same files -/

/-- Under the given names, the same files are in a folder of two file systems, and they hold the same. -/
def SameFiles (names : String → Prop) (fs fs' : FileSystem) (folder : Path) : Prop :=
  ∀ name content, Path.IsName name → names name →
    (fs'.content (folder.join name) = .ok content ↔ fs.content (folder.join name) = .ok content)

theorem SameFiles.mono {names names' : String → Prop} (h : SameFiles names fs fs' folder)
    (hsub : ∀ name, names' name → names name) : SameFiles names' fs fs' folder :=
  fun name content hname hsome => h name content hname (hsub name hsome)

theorem SameFiles.isFile_eq {names : String → Prop} (h : SameFiles names fs fs' folder)
    (hname : Path.IsName name) (hsome : names name) :
    fs'.isFile (folder.join name) = fs.isFile (folder.join name) := by
  rw [Bool.eq_iff_iff, isFile_iff, isFile_iff]
  exact exists_congr fun content => h name content hname hsome

/-- What changes nothing under the given names, and adds nothing that was not there, leaves the same
files. -/
theorem SameFiles.of_keeps {names : String → Prop} {touched : Location → Prop}
    (hkeeps : Keeps touched fs fs') (hback : Keeps (fun _ => False) fs' fs)
    (htouched : ∀ name loc, Path.IsName name → names name →
      fs.locate (folder.join name) = .ok loc → ¬ touched loc) : SameFiles names fs fs' folder := by
  intro name content hname hsome
  constructor
  · intro hcontent
    exact hback.content hcontent fun _ _ => not_false
  · intro hcontent
    exact hkeeps.content hcontent fun loc hloc => htouched name loc hname hsome hloc

end FileSystem

end LayoutRebuild
