import LayoutRebuild.Proofs.Build.Considered
import LayoutRebuild.Proofs.Descriptor.Naming

/-!
# Variants that are read together

When one variant of a layout is reported, the others are read again along with it, because they have the
same family (`variants_share_family_iff`).  This needs a family that is found again in the names of its
variants.  One with a marker of its own that no dash follows is not: its variants are unrelated to each
other, and a change of one leaves the others unread (`hidden_variant_missed`).
-/

namespace LayoutRebuild

open DescriptorName (IsPart HoldsTogether)

/-- The path of a variant of a layout in a folder. -/
def Path.variant (folder : Path) (family : String) (config : Option String) : Path :=
  folder.join (DescriptorName.fileName ⟨family, config⟩)

theorem Path.family?_variant (folder : Path) {family : String} {config : Option String}
    (hfamily : IsPart family) (hconfig : ∀ q ∈ config, IsPart q) :
    (folder.variant family config).family? =
      DescriptorName.family? (DescriptorName.fileName ⟨family, config⟩) :=
  Path.family?_join folder (DescriptorName.isName_fileName hfamily hconfig)

namespace Situation

variable {s : Situation} {p q : Path} {layout : String}

/-- A file that is there and not removed is read again if a file of its family is reported. -/
theorem holds_of_reported (hreported : s.Reported layout) (hp : p ∈ s.present.paths)
    (hfamily : p.family? = some layout) (hsame : p.components = q.components)
    (hgone : ∀ gone ∈ s.removed, gone.components ≠ q.components) :
    s.filesToConsider.holds q = true :=
  holds_filesToConsider.mpr
    ⟨⟨p, hsame, .inr ⟨hp, layout, mem_invalidated_of_reported hreported, hfamily⟩⟩, hgone⟩

end Situation

/-- Two variants of a layout have the same family, in whatever folder, exactly if they are the same
variant or the family holds together.  If they have the same family, then an incremental build to which
one of them is reported reads the other again, provided that it is there and not removed. -/
theorem variants_share_family_iff (folder : Path) {family : String} {config config' : Option String}
    (hfamily : IsPart family) (hconfig : ∀ q ∈ config, IsPart q)
    (hconfig' : ∀ q ∈ config', IsPart q) :
    ((folder.variant family config).family? = (folder.variant family config').family? ↔
      config = config' ∨ HoldsTogether family) ∧
    (config = config' ∨ HoldsTogether family →
      ∀ fs args log present, Resumes fs args log present →
        (∃ p, (p ∈ args.outOfDate ∨ p ∈ args.removed) ∧
          p.components = (folder.variant family config).components) →
        present.holds (folder.variant family config') = true →
        (∀ gone ∈ args.removed, gone.components ≠ (folder.variant family config').components) →
        ∃ r diagnostics, resolve fs args = .ok (r, diagnostics) ∧
          r.filesToConsider.holds (folder.variant family config') = true) := by
  have hiff : (folder.variant family config).family? = (folder.variant family config').family? ↔
      config = config' ∨ HoldsTogether family := by
    rw [Path.family?_variant folder hfamily hconfig, Path.family?_variant folder hfamily hconfig']
    exact DescriptorName.family?_fileName_eq_iff hconfig hconfig'
  refine ⟨hiff, fun htogether fs args log present hresumes => ?_⟩
  rintro ⟨p, hp, hplace⟩ hthere hgone
  obtain ⟨diagnostics, hresolve⟩ := hresumes.resolve
  refine ⟨_, diagnostics, hresolve, ?_⟩
  obtain ⟨shared, hshared⟩ : ∃ shared, (folder.variant family config').family? = some shared := by
    rw [Path.family?_variant folder hfamily hconfig', DescriptorName.family?_fileName]
    exact ⟨_, rfl⟩
  have hreported : (situation fs args log present).Reported shared :=
    ⟨p, hp, (Path.family?_congr hplace).trans ((hiff.mpr htogether).trans hshared)⟩
  obtain ⟨paths, hpaths⟩ := present_eq_ofPaths hresumes.listed
  rw [hpaths] at hthere
  obtain ⟨q, hq, hsame⟩ := PathSet.exists_mem_of_holds hthere
  rw [← hpaths] at hq
  exact Situation.holds_of_reported hreported hq ((Path.family?_congr hsame).trans hshared) hsame
    hgone

/-- A file system with a log, and with two variants of a layout that has a marker in its family. -/
def FileSystem.ofHiddenVariants (log : BuildLog) : FileSystem :=
  ((FileSystem.ofDescriptor "one".toUTF8 (some (LogFile.ofLog log).toText.toUTF8)).setNode
    ["info", "a-layoutx-layout.xml"] (.file (.bytes "two".toUTF8))).setNode
    ["info", "a-layoutx-layout-land.xml"] (.file (.bytes "three".toUTF8))

/-- In that file system, the second variant is listed. -/
theorem listed_ofHiddenVariants (log : BuildLog) : ∃ present,
    descriptorFiles (.ofHiddenVariants log) ⟨"info"⟩ = .ok present ∧
      (Path.mk "info").variant "a-layoutx" (some "land") ∈ present.paths := by
  have hinfo : Path.IsName "info" := by decide
  have hplain : Path.IsName "a-layoutx-layout.xml" := by decide
  have hland : Path.IsName "a-layoutx-layout-land.xml" := by decide
  have hnamed : (FileSystem.ofHiddenVariants log).WellNamed :=
    ((wellNamed_ofDescriptor _ _).setNode (by simpa using ⟨hinfo, hplain⟩) _).setNode
      (by simpa using ⟨hinfo, hland⟩) _
  have hloc : (FileSystem.ofHiddenVariants log).locate ⟨"info"⟩ = .ok ["info"] := rfl
  obtain ⟨present, hpresent⟩ := exists_descriptorFiles hloc rfl
  have hread : (FileSystem.ofHiddenVariants log).read
      ((Path.mk "info").join "a-layoutx-layout-land.xml") = .ok "three".toUTF8 := rfl
  exact ⟨present, hpresent, (mem_present_iff hnamed hpresent).mpr
    ⟨_, mem_descriptorContents_of_read hnamed (by decide) hland (by decide) hread, rfl⟩⟩

/-- A change of the plain variant is reported: the other one is there and is not read. -/
theorem hidden_variant_missed : ∃ r diagnostics,
    resolve (.ofHiddenVariants .empty)
      { Arguments.ofDescriptor with
        outOfDate := [(Path.mk "info").variant "a-layoutx" none] } = .ok (r, diagnostics) ∧
    r.presentFiles.holds ((Path.mk "info").variant "a-layoutx" (some "land")) = true ∧
    r.filesToConsider.holds ((Path.mk "info").variant "a-layoutx" (some "land")) = false := by
  obtain ⟨present, hlisted, hland⟩ := listed_ofHiddenVariants .empty
  have hresumes : Resumes (.ofHiddenVariants .empty)
      { Arguments.ofDescriptor with outOfDate := [(Path.mk "info").variant "a-layoutx" none] }
      .empty present := ⟨rfl, BuildLog.read_of_text rfl, hlisted⟩
  have hlandPart : ∀ q ∈ some "land", IsPart q := by
    intro q hq
    cases hq
    exact ⟨by decide, by decide⟩
  have hapart : ((Path.mk "info").variant "a-layoutx" none).family? =
      ((Path.mk "info").variant "a-layoutx" (some "land")).family? ↔
        none = some "land" ∨ HoldsTogether "a-layoutx" :=
    (variants_share_family_iff ⟨"info"⟩ ⟨by decide, by decide⟩ (by simp) hlandPart).1
  have hhidden : ¬ HoldsTogether "a-layoutx" := by
    rintro ⟨-, hfirst⟩
    exact absurd ((hfirst ['a'] ['x'] rfl (by decide)).2 'x' [] rfl) (by decide)
  obtain ⟨diagnostics, hresolve⟩ := hresumes.resolve
  refine ⟨_, diagnostics, hresolve, holds_of_mem_present hlisted hland, ?_⟩
  obtain ⟨layout, hlayout⟩ : ∃ layout,
      ((Path.mk "info").variant "a-layoutx" (some "land")).family? = some layout := ⟨_, rfl⟩
  have hstays : (situation (.ofHiddenVariants .empty)
      { Arguments.ofDescriptor with outOfDate := [(Path.mk "info").variant "a-layoutx" none] }
      .empty present).Stays layout ((Path.mk "info").variant "a-layoutx" (some "land")) :=
    ⟨hland, hlayout, fun gone hgone => by cases hgone⟩
  apply eq_false_of_ne_true
  intro hread
  have hreported := (Situation.mem_invalidated_iff_reported
    (fun _ _ => References.not_refers_empty)).mp (hstays.holds_iff.mp hread)
  have hplain := (Situation.reported_iff_of_single rfl rfl).mp hreported
  rcases hapart.mp (hplain.trans hlayout.symm) with hsame | htogether
  · cases hsame
  · exact hhidden htogether

end LayoutRebuild
