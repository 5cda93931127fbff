import LayoutRebuild.Proofs.FileSystem.Listing
import Mathlib.Data.List.Induction

/-!
# Paths without a step up

Every entry stands in a folder (`Rooted`), and no operation makes one that does not
(`Operated.wellNamed_and_rooted`).  A path without a step up leads through the folders above its end and
through nothing else.  What it leads to after a change, if it was there before, is therefore what it led
to before (`Rooted.locate`): a folder that is made brings no old file to light.  So a change leaves a
folder the same files under all names but those that it touches (`SameFiles.of_changesOnly`).
-/

namespace LayoutRebuild.FileSystem

variable {fs fs' : FileSystem} {p folder : Path} {loc : Location}

/-- Every entry stands in a folder. -/
def Rooted (fs : FileSystem) : Prop :=
  ∀ loc node, fs.nodes.get? loc = some node → fs.node? loc.dropLast = some .folder

theorem parent_of_place {slash : Bool} (h : fs.place p = .ok (.entry loc slash)) :
    fs.node? loc.dropLast = some .folder := by
  obtain ⟨folder, last, -, -, hfolder, -, -, -, rfl⟩ := (place_eq_entry_iff.mp h).entry
  rw [List.dropLast_concat]
  exact requireFolder_eq_ok.mp hfolder

namespace Rooted

theorem blank (loc : Location) : Rooted (FileSystem.blank loc) := by
  intro l node hl
  obtain ⟨n, hn, heq⟩ := List.mem_map.mp (Table.mem_of_get?_ofList hl)
  obtain ⟨rfl, -⟩ := Prod.mk.inj heq
  have hn' : n < loc.length := List.mem_range.mp hn
  rw [List.take_succ_eq_append_getElem hn', List.dropLast_concat]
  cases n with
  | zero => rfl
  | succ n =>
    have habove : loc.take (n + 1) ∈ (FileSystem.blank loc).nodes :=
      Table.mem_ofList.mpr ⟨.folder, List.mem_map.mpr ⟨n, List.mem_range.mpr (by omega), rfl⟩⟩
    obtain ⟨above, hget⟩ := Table.mem_iff_exists.mp habove
    obtain ⟨_, -, heq⟩ := List.mem_map.mp (Table.mem_of_get?_ofList hget)
    have hne : loc.take (n + 1) ≠ [] :=
      List.ne_nil_of_length_pos (by rw [List.length_take]; omega)
    rw [node?_of_ne_nil hne, hget, (Prod.mk.inj heq).2]

theorem setNode (h : fs.Rooted) (hparent : fs.node? loc.dropLast = some .folder)
    (hfree : fs.node? loc ≠ some .folder) (node : Node) : (fs.setNode loc node).Rooted := by
  have hne : loc ≠ [] := by
    rintro rfl
    exact hfree rfl
  intro l node' hl
  have habove : fs.node? l.dropLast = some .folder := by
    rw [FileSystem.setNode, Table.get?_insert] at hl
    split at hl
    next heq => rwa [heq]
    · exact h l node' hl
  rw [node?_setNode hne, if_neg]
  · exact habove
  · intro heq
    rw [heq] at habove
    exact hfree habove

theorem makeFolder (h : fs.Rooted) (hmade : fs.makeFolder p = .ok fs') : fs'.Rooted := by
  obtain ⟨loc, slash, hplace, hnone, rfl⟩ := makeFolder_eq_ok hmade
  exact h.setNode (parent_of_place hplace) (by simp [hnone]) _

theorem writeFile (h : fs.Rooted) {content : ByteArray}
    (hwritten : fs.writeFile p content = .ok fs') : fs'.Rooted := by
  obtain ⟨loc, hplace, hnode, rfl⟩ := writeFile_eq_ok hwritten
  exact h.setNode (parent_of_place hplace) hnode _

theorem removeFile (h : fs.Rooted) (hremoved : fs.removeFile p = .ok fs') : fs'.Rooted := by
  obtain ⟨loc, content, hplace, hfile, rfl⟩ := removeFile_eq_ok hremoved
  intro l node hl
  rw [FileSystem.dropNode, Table.get?_erase] at hl
  split_ifs at hl
  have habove := h l node hl
  rw [node?_dropNode (ne_nil_of_place hplace), if_neg]
  · exact habove
  · intro heq
    rw [heq, hfile] at habove
    cases habove

theorem removeTree (h : fs.Rooted) (p : Path) : (fs.removeTree p).1.Rooted := by
  unfold FileSystem.removeTree
  split
  · exact h
  next loc hloc =>
    split
    · exact h
    · intro l node hl
      rw [Table.get?_filter, Option.filter_eq_some_iff] at hl
      have habove := h l node hl.1
      by_cases hroot : l.dropLast = []
      · rw [hroot]
        rfl
      · rw [node?_of_ne_nil hroot] at habove ⊢
        rw [Table.get?_filter, habove, Option.filter_some, if_pos]
        simp only [Bool.not_eq_true', ← Bool.not_eq_true, List.isPrefixOf_iff_prefix] at hl ⊢
        exact fun hbelow => hl.2 (hbelow.trans (List.dropLast_prefix l))

end Rooted

/-- The file systems that the operations lead to, starting from an empty working folder. -/
inductive Operated : FileSystem → Prop
  | blank {loc : Location} (names : ∀ name ∈ loc, Path.IsName name) : Operated (.blank loc)
  | makeFolder {fs fs' : FileSystem} {p : Path} (before : Operated fs)
      (made : fs.makeFolder p = .ok fs') : Operated fs'
  | writeFile {fs fs' : FileSystem} {p : Path} {content : ByteArray} (before : Operated fs)
      (written : fs.writeFile p content = .ok fs') : Operated fs'
  | removeFile {fs fs' : FileSystem} {p : Path} (before : Operated fs)
      (removed : fs.removeFile p = .ok fs') : Operated fs'
  | removeTree {fs : FileSystem} (before : Operated fs) (p : Path) : Operated (fs.removeTree p).1

/-- Whatever is done to it, a file system has proper names only, and every entry stands in a folder. -/
theorem Operated.wellNamed_and_rooted (h : Operated fs) : fs.WellNamed ∧ fs.Rooted := by
  induction h with
  | blank names => exact ⟨.blank names, .blank _⟩
  | makeFolder _ made ih => exact ⟨ih.1.makeFolder made, ih.2.makeFolder made⟩
  | writeFile _ written ih => exact ⟨ih.1.writeFile written, ih.2.writeFile written⟩
  | removeFile _ removed ih => exact ⟨ih.1.removeFile removed, ih.2.removeFile removed⟩
  | removeTree _ p ih => exact ⟨ih.1.removeTree p, ih.2.removeTree p⟩

namespace Rooted

/-! ## What stands above an entry -/

/-- Everything above an entry is a folder. -/
theorem folder_of_prefix (h : fs.Rooted) {l : Location} {node : Node}
    (hnode : fs.node? loc = some node) (habove : l <+: loc) (hproper : l ≠ loc) :
    fs.node? l = some .folder := by
  induction loc using List.reverseRecOn generalizing node with
  | nil => exact absurd (List.prefix_nil.mp habove) hproper
  | append_singleton parent name ih =>
    rw [node?_of_ne_nil (by simp)] at hnode
    have hparent := h _ _ hnode
    rw [List.dropLast_concat] at hparent
    have hprefix := (List.prefix_concat_iff.mp habove).resolve_left hproper
    by_cases heq : l = parent
    · rwa [heq]
    · exact ih hparent hprefix heq

theorem prefix_of_walk {segments : List String} {start : Location} (hup : ".." ∉ segments)
    (h : fs.walk start segments = .ok loc) : start <+: loc := by
  induction segments generalizing start with
  | nil =>
    cases h
    exact List.prefix_rfl
  | cons segment rest ih =>
    have hrest : ".." ∉ rest := fun hmem => hup (List.mem_cons_of_mem _ hmem)
    rw [FileSystem.walk] at h
    cases hf : fs.requireFolder start with
    | error e => simp [hf] at h
    | ok u =>
      simp only [hf] at h
      split_ifs at h with hblank hstep hlong
      · exact ih hrest h
      · exact absurd (hstep ▸ List.mem_cons_self) hup
      · exact (List.prefix_append start [segment]).trans (ih hrest h)

/-- A walk that ends at a file after a change, at an entry that was there before, ended there before. -/
theorem walk (h : fs.Rooted) {segments : List String} {start : Location} {node : Node}
    (hup : ".." ∉ segments) (hnode : fs.node? loc = some node)
    (hfile : fs'.node? loc ≠ some .folder) (hw : fs'.walk start segments = .ok loc) :
    fs.walk start segments = .ok loc := by
  induction segments generalizing start with
  | nil => exact hw
  | cons segment rest ih =>
    have hrest : ".." ∉ rest := fun hmem => hup (List.mem_cons_of_mem _ hmem)
    have habove := prefix_of_walk hup hw
    rw [FileSystem.walk] at hw ⊢
    cases hf : fs'.requireFolder start with
    | error e => simp [hf] at hw
    | ok u =>
      -- The walk stands above its end, and what is above an entry was a folder before.
      have hproper : start ≠ loc := by
        rintro rfl
        exact hfile (requireFolder_eq_ok.mp hf)
      have hf' : fs.requireFolder start = .ok () :=
        requireFolder_eq_ok.mpr (h.folder_of_prefix hnode habove hproper)
      simp only [hf, hf'] at hw ⊢
      split_ifs at hw ⊢ with hblank hstep hlong
      · exact ih hrest hw
      · exact ih hrest hw
      · exact ih hrest hw

theorem locate (h : fs.Rooted) {node : Node} {content : FileContent}
    (hstart : fs'.workingFolder = fs.workingFolder) (hup : ".." ∉ p.segments)
    (hnode : fs.node? loc = some node) (hfile : fs'.node? loc = some (.file content))
    (hloc : fs'.locate p = .ok loc) : fs.locate p = .ok loc := by
  rw [locate_eq_ok] at hloc ⊢
  have hwalk : fs'.walk (fs.start p) p.segments = .ok loc := by
    rw [start, ← hstart]
    exact hloc.2
  exact ⟨hloc.1, h.walk hup hnode (by simp [hfile]) hwalk⟩

end Rooted

/-! ## What a change leaves in a folder -/

/-- A file that is there after a change, and is not touched by it, was there before. -/
theorem ChangesOnly.content_back {touched : Location → Prop} (h : ChangesOnly touched fs fs')
    (hrooted : fs.Rooted) (hup : ".." ∉ p.segments) {content : FileContent}
    (hcontent : fs'.content p = .ok content)
    (htouched : ∀ loc, fs'.locate p = .ok loc → ¬ touched loc) : fs.content p = .ok content := by
  obtain ⟨loc, hloc, hfile⟩ := content_eq_ok.mp hcontent
  have hbefore := h.added loc content (htouched loc hloc) hfile
  exact content_eq_ok.mpr
    ⟨loc, hrooted.locate h.workingFolder_eq hup hbefore hfile hloc, hbefore⟩

/-- A change that touches nothing under the given names of a folder leaves it the same files there. -/
theorem SameFiles.of_changesOnly {names : String → Prop} {touched : Location → Prop}
    (h : ChangesOnly touched fs fs') (hrooted : fs.Rooted) (hup : ".." ∉ folder.segments)
    (htouched : ∀ name loc, Path.IsName name → names name →
      fs'.locate (folder.join name) = .ok loc → ¬ touched loc) : SameFiles names fs fs' folder := by
  intro name content hname hsome
  constructor
  · intro hcontent
    apply h.content_back hrooted (Path.up_not_mem_segments_join hname hup) hcontent
    intro loc hloc
    exact htouched name loc hname hsome hloc
  · intro hcontent
    apply h.content hcontent
    intro loc hloc
    exact htouched name loc hname hsome (h.locate hloc)

end LayoutRebuild.FileSystem
