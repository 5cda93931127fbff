import LayoutRebuild.Proofs.FileSystem.Listing

/-!
# Removing several files

What has been removed under its name is gone (`isFile_removeFiles`), and nothing else is touched
(`removeFiles_keeps`, `removeFiles_keeps_back`).
-/

namespace LayoutRebuild.FileSystem

variable {fs : FileSystem} {p : Path} {loc : Location} {paths : List Path}

/-- Two files that stand at the same place have the same name, and they hold the same. -/
theorem eq_of_same_place {folder folder' : Path} {name name' : String}
    {content content' : FileContent} (hname : Path.IsName name) (hname' : Path.IsName name')
    (hcontent : fs.content (folder.join name) = .ok content)
    (hcontent' : fs.content (folder'.join name') = .ok content')
    (hloc : fs.locate (folder.join name) = .ok loc) (hnames : fs.Names (folder'.join name') loc) :
    name' = name ∧ content' = content := by
  obtain ⟨before, hsegments⟩ := Path.segments_join folder hname.no_slash
  obtain ⟨before', hsegments'⟩ := Path.segments_join folder' hname'.no_slash
  constructor
  · have hlast := getLast?_of_locate hsegments hname hloc
    rw [hnames.getLast? hsegments' hname'.ne_empty] at hlast
    exact Option.some.inj hlast
  · obtain ⟨loc₁, hloc₁, hnode⟩ := content_eq_ok.mp hcontent
    rw [hloc, Except.ok.injEq] at hloc₁
    subst hloc₁
    obtain ⟨loc', hloc', hnode'⟩ := content_eq_ok.mp hcontent'
    obtain ⟨slash, hplace⟩ := hnames
    rw [place_of_locate_name hsegments' hname' hloc'] at hplace
    cases hplace
    rw [hnode'] at hnode
    exact Node.file.inj (Option.some.inj hnode)

/-- Removes some files.  A path that leads to no file is passed over. -/
def removeFiles (fs : FileSystem) : List Path → FileSystem
  | [] => fs
  | p :: rest =>
    match fs.removeFile p with
    | .ok fs' => fs'.removeFiles rest
    | .error _ => fs.removeFiles rest

/-- What is true of a file system, and stays true when one of the files is removed, is true when all
of them have been removed. -/
theorem removeFiles_preserves {P : FileSystem → Prop}
    (hremove : ∀ fs p fs', p ∈ paths → P fs → removeFile fs p = .ok fs' → P fs') (h : P fs) :
    P (fs.removeFiles paths) := by
  induction paths generalizing fs with
  | nil => exact h
  | cons p rest ih =>
    have hrest := fun fs q fs' (hq : q ∈ rest) => hremove fs q fs' (List.mem_cons_of_mem _ hq)
    rw [removeFiles]
    split
    next fs' hremoved => exact ih hrest (hremove fs p fs' List.mem_cons_self h hremoved)
    · exact ih hrest h

theorem removeFiles_keeps_back : Keeps (fun _ => False) (fs.removeFiles paths) fs :=
  removeFiles_preserves (P := fun mid => Keeps (fun _ => False) mid fs)
    (fun _ _ _ _ h hremoved => (removeFile_keeps_back hremoved).trans h) (.refl fs)

theorem removeFiles_keeps :
    Keeps (fun loc => ∃ p ∈ paths, fs.Names p loc) fs (fs.removeFiles paths) := by
  have hboth : Keeps (fun loc => ∃ p ∈ paths, fs.Names p loc) fs (fs.removeFiles paths) ∧
      Keeps (fun _ => False) (fs.removeFiles paths) fs := by
    refine removeFiles_preserves (P := fun mid => Keeps (fun loc => ∃ p ∈ paths, fs.Names p loc)
      fs mid ∧ Keeps (fun _ => False) mid fs) ?_ ⟨.refl fs, .refl fs⟩
    rintro mid p mid' hp ⟨hkeeps, hback⟩ hremoved
    refine ⟨hkeeps.trans ((removeFile_keeps hremoved).mono ?_),
      (removeFile_keeps_back hremoved).trans hback⟩
    exact fun loc hnames => ⟨p, hp, hback.names hnames⟩
  exact hboth.1

theorem WellNamed.removeFiles (h : fs.WellNamed) : (fs.removeFiles paths).WellNamed :=
  removeFiles_preserves (fun _ _ _ _ h hremoved => h.removeFile hremoved) h

/-- A file that is removed under its name is gone. -/
theorem isFile_removeFiles {folder : Path} {name : String} (hname : Path.IsName name)
    (hp : folder.join name ∈ paths) :
    (fs.removeFiles paths).isFile (folder.join name) = false := by
  obtain ⟨before, hsegments⟩ := Path.segments_join folder hname.no_slash
  have hback {fs fs' : FileSystem} (h : Keeps (fun _ => False) fs' fs)
      (hgone : fs.isFile (folder.join name) = false) :
      fs'.isFile (folder.join name) = false := by
    rw [← Bool.not_eq_true, isFile_iff] at hgone ⊢
    exact fun ⟨content, hcontent⟩ => hgone ⟨content, h.content hcontent fun _ _ => not_false⟩
  induction paths generalizing fs with
  | nil => cases hp
  | cons q rest ih =>
    rw [removeFiles]
    rcases List.mem_cons.mp hp with rfl | hp
    · split
      next fs' hremoved =>
        apply hback removeFiles_keeps_back
        rw [← Bool.not_eq_true, isFile_iff, content_removeFile hremoved]
        simp
      next fault hfault =>
        apply hback removeFiles_keeps_back
        rw [← Bool.not_eq_true, isFile_iff]
        rintro ⟨content, hcontent⟩
        obtain ⟨loc, hloc, hnode⟩ := content_eq_ok.mp hcontent
        have hplace := place_of_locate_name hsegments hname hloc
        simp [removeFile, hplace, hnode] at hfault
    · split
      · exact ih hp
      · exact ih hp

end LayoutRebuild.FileSystem
