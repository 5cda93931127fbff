import LayoutRebuild.Proofs.Build.Detection
import LayoutRebuild.Proofs.Build.NextLog

/-!
# Edits while a build runs

The classes of a build are made from the descriptors that were there when it was resolved, but the
fingerprints in its log are taken when the log is written.  An edit that falls between the two is in
the log and not in the classes, so the next build takes it for known: `late_edit_reported_iff` says
exactly which changes are reported and which are lost.
-/

namespace LayoutRebuild

variable {fs₁ fs₂ after fs₃ : FileSystem} {args found : Arguments} {r : Resolution}
  {diagnostics : List Diagnostic} {fresh next : BuildLog} {name : String}

/-- The log that a build leaves has the fingerprints of the files that were listed when it was
resolved, with the contents of the moment in which it is written. -/
theorem get?_fingerprints_nextLog (hnamed₁ : fs₁.WellNamed) (hnamed₂ : fs₂.WellNamed)
    (hresolve : resolve fs₁ args = .ok (r, diagnostics)) :
    (r.nextLog fs₂ fresh).fingerprints.get? name =
      if name ∈ descriptorContents fs₁ args.descriptorFolder then
        ((readableContents fs₂ args.descriptorFolder).get? name).map ContentHash.ofContent
      else none := by
  obtain ⟨present, hpresent, houtcome⟩ := resolve_cases hresolve
  rw [Resolution.fingerprints_nextLog, houtcome.presentFiles_eq, Table.get?_map]
  split
  next hmem =>
    obtain ⟨hfolder, hfamily⟩ := folder_of_mem_descriptorContents hmem
    rw [get?_byName_present hnamed₁ hpresent hmem, FileSystem.toOption_read,
      get?_readableContents hnamed₂, get?_descriptorContents hnamed₂ hfolder
      (isName_of_mem_descriptorContents hmem) hfamily]
  next hnone =>
    have habsent : name ∉ byName fs₂.read present.paths := by
      intro hmem
      obtain ⟨p, hp, hname, -⟩ := mem_byName.mp hmem
      exact hnone ((mem_descriptorContents hpresent).mpr ⟨p, hp, hname⟩)
    rw [Table.get?_eq_none_iff.mpr habsent]
    rfl

/-- The files whose fingerprints are recorded have names. -/
theorem isName_of_mem_fingerprints_nextLog (hnamed₁ : fs₁.WellNamed) (hnamed₂ : fs₂.WellNamed)
    (hresolve : resolve fs₁ args = .ok (r, diagnostics))
    (h : name ∈ (r.nextLog fs₂ fresh).fingerprints) : Path.IsName name := by
  rw [Table.mem_iff, get?_fingerprints_nextLog hnamed₁ hnamed₂ hresolve] at h
  split at h
  next hmem => exact isName_of_mem_descriptorContents hmem
  · cases h

/-- The log that is there after a build, or after its log has been written, is the next one. -/
theorem read_after (hsaved : (r.persist fs₂ args.logFolder fresh).2 = .ok next)
    (hafter : after = (r.persist fs₂ args.logFolder fresh).1 ∨ after = (r.finish fs₂ args fresh).1) :
    next = r.nextLog fs₂ fresh ∧ BuildLog.read after args.logPath = .ok (some next) := by
  have hpersist : r.persist fs₂ args.logFolder fresh =
      ((r.persist fs₂ args.logFolder fresh).1, .ok next) := Prod.ext rfl hsaved
  obtain ⟨hnext, htext⟩ := Resolution.read_persist hpersist
  refine ⟨hnext, ?_⟩
  rcases hafter with rfl | rfl
  · exact BuildLog.read_of_text htext
  · exact Resolution.read_finish hpersist

/-- What the next build finds recorded are the files that were there when the build was resolved, as
they were when its log was written. -/
theorem get?_recordedFingerprints_after (hnamed₁ : fs₁.WellNamed) (hnamed₂ : fs₂.WellNamed)
    (hresolve : resolve fs₁ args = .ok (r, diagnostics))
    (hread : BuildLog.read fs₃ args.logPath = .ok (some (r.nextLog fs₂ fresh))) (name : String) :
    (args.recordedFingerprints fs₃).get? name =
      if name ∈ descriptorContents fs₁ args.descriptorFolder then
        ((readableContents fs₂ args.descriptorFolder).get? name).map ContentHash.ofContent
      else none := by
  rw [recordedFingerprints_eq (readableLog?_eq_some.mpr hread),
    get?_fingerprints_nextLog hnamed₁ hnamed₂ hresolve]

/-- Of the files that have changed since a build was resolved, all are reported to the next one but
those that were there, and of which could be read when the log was written what can be read now.  A file
that is there and cannot be read now is reported in any case. -/
theorem late_edit_reported_iff (hnamed₁ : fs₁.WellNamed) (hnamed₂ : fs₂.WellNamed)
    (hresolve : resolve fs₁ args = .ok (r, diagnostics))
    (hsaved : (r.persist fs₂ args.logFolder fresh).2 = .ok next)
    (hafter : after = (r.persist fs₂ args.logFolder fresh).1 ∨ after = (r.finish fs₂ args fresh).1)
    (hlog : BuildLog.read fs₃ args.logPath = BuildLog.read after args.logPath)
    (hfound : args.withDetectedChanges fs₃ = .ok found)
    (hcollision : ∀ before now,
      (readableContents fs₂ args.descriptorFolder).get? name = some before →
      (readableContents fs₃ args.descriptorFolder).get? name = some now →
      ContentHash.ofContent before = ContentHash.ofContent now → before = now)
    (hchanged : (descriptorContents fs₁ args.descriptorFolder).get? name ≠
      (descriptorContents fs₃ args.descriptorFolder).get? name) :
    found.Reports (descriptorContents fs₃ args.descriptorFolder) name ↔
      ¬ (name ∈ descriptorContents fs₁ args.descriptorFolder ∧
        name ∉ unreadDescriptors fs₃ args.descriptorFolder ∧
        (readableContents fs₂ args.descriptorFolder).get? name =
          (readableContents fs₃ args.descriptorFolder).get? name) := by
  obtain ⟨rfl, hread⟩ := read_after hsaved hafter
  have hdetects := Arguments.detects hfound
  have hrecorded := get?_recordedFingerprints_after hnamed₁ hnamed₂ hresolve (hlog.trans hread)
  have hnames : ∀ name ∈ args.recordedFingerprints fs₃, Path.IsName name := by
    intro name hname
    rw [recordedFingerprints_eq (readableLog?_eq_some.mpr (hlog.trans hread))] at hname
    exact isName_of_mem_fingerprints_nextLog hnamed₁ hnamed₂ hresolve hname
  by_cases hmem : name ∈ descriptorContents fs₁ args.descriptorFolder
  · rw [hdetects.reports_iff hnames (isName_of_mem_descriptorContents hmem), hrecorded, if_pos hmem]
    rw [Ne, map_ofContent_inj hcollision, and_iff_right hmem, not_and_or, not_not]
  · have hmem₃ : name ∈ descriptorContents fs₃ args.descriptorFolder := by
      rw [Table.get?_eq_none_iff.mpr hmem] at hchanged
      exact Table.mem_iff.mpr (Option.isSome_iff_ne_none.mpr hchanged.symm)
    rw [hdetects.reports_iff hnames (isName_of_mem_descriptorContents hmem₃), hrecorded, if_neg hmem]
    refine iff_of_true ?_ fun hlost => hmem hlost.1
    rw [or_iff_not_imp_left]
    intro hread₃
    obtain ⟨now, hnow⟩ := Table.mem_iff_exists.mp
      ((mem_descriptorContents_iff.mp hmem₃).resolve_right hread₃)
    simp [hnow]

/-- A descriptor that is edited after its class has been asked for and before the log is written: the
next build is not told. -/
theorem late_edit_lost :
    ∃ r diagnostics found fs₃,
      resolve (.ofDescriptor "one".toUTF8 none) .ofDescriptor = .ok (r, diagnostics) ∧
      fs₃ = (r.persist (.ofDescriptor "two".toUTF8 none) ⟨"log"⟩ .empty).1 ∧
      Arguments.ofDescriptor.withDetectedChanges fs₃ = .ok found ∧
      (descriptorContents fs₃ ⟨"info"⟩).get? "a-layout.xml" = some (.bytes "two".toUTF8) ∧
      ¬ found.Reports (descriptorContents fs₃ ⟨"info"⟩) "a-layout.xml" := by
  have hcontent (content : ByteArray) : (descriptorContents (.ofDescriptor content none)
      ⟨"info"⟩).get? "a-layout.xml" = some (.bytes content) := by
    rw [get?_ofDescriptor, if_pos rfl]
  have hnamed (content : ByteArray) := wellNamed_ofDescriptor content none
  have hresolved : ∃ r diagnostics,
      resolve (.ofDescriptor "one".toUTF8 none) .ofDescriptor = .ok (r, diagnostics) := by
    obtain ⟨present, hpresent⟩ := listed_ofDescriptor "one".toUTF8 none
    exact exists_resolve hpresent
  obtain ⟨r, diagnostics, hresolve⟩ := hresolved
  obtain ⟨fs₃, hfs₃⟩ :
      ∃ fs₃, fs₃ = (r.persist (.ofDescriptor "two".toUTF8 none) ⟨"log"⟩ .empty).1 := ⟨_, rfl⟩
  have hkeeps : FileSystem.Keeps (fun loc => loc.getLast? = some BuildLog.fileName)
      (.ofDescriptor "two".toUTF8 none) fs₃ := hfs₃ ▸ Resolution.persist_keeps ⟨"log"⟩
  have hnamed₃ : fs₃.WellNamed := hfs₃ ▸ Resolution.wellNamed_persist _ (hnamed _)
  have hdetected : ∃ found, Arguments.ofDescriptor.withDetectedChanges fs₃ = .ok found := by
    have hlisted : ∃ present, descriptorFiles fs₃ ⟨"info"⟩ = .ok present :=
      exists_descriptorFiles (hkeeps.locate rfl) (hkeeps.requireFolder rfl)
    obtain ⟨present, hpresent⟩ := hlisted
    exact exists_withDetectedChanges hpresent
  obtain ⟨found, hfound⟩ := hdetected
  have hthere : fs₃.content ((Path.mk "info").join "a-layout.xml") = .ok (.bytes "two".toUTF8) := by
    refine hkeeps.content rfl ?_
    rintro loc ⟨⟩
    decide
  have hget : (descriptorContents fs₃ ⟨"info"⟩).get? "a-layout.xml" =
      some (.bytes "two".toUTF8) := by
    rw [get?_descriptorContents hnamed₃ (by decide) isName_descriptor (by decide), hthere]
    rfl
  obtain ⟨hread₂, -⟩ := readable_of_bytes (hnamed _) (hcontent "two".toUTF8)
  obtain ⟨hread₃, hunread₃⟩ := readable_of_bytes hnamed₃ hget
  refine ⟨r, diagnostics, found, fs₃, hresolve, hfs₃, hfound, hget, fun hreports => ?_⟩
  refine (late_edit_reported_iff (hnamed _) (hnamed _) hresolve rfl (.inl hfs₃) rfl hfound ?_ ?_).mp
    hreports ⟨?_, hunread₃, hread₂.trans hread₃.symm⟩
  · intro before now hbefore hnow _
    exact Option.some.inj (hbefore.symm.trans (hread₂.trans (hread₃.symm.trans hnow)))
  · intro hsame
    have htexts := (hcontent _).symm.trans (hsame.trans hget)
    exact absurd (FileContent.bytes.inj (Option.some.inj htexts)) (by decide)
  · exact Table.mem_of_get? (hcontent _)

end LayoutRebuild
