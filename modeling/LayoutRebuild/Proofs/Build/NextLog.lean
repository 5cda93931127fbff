import LayoutRebuild.Build.Finish
import LayoutRebuild.Proofs.Build.Resolved
import LayoutRebuild.Proofs.Closure

/-!
# The log that a build leaves

What the next log says about a layout is what the fresh log says, and what stays of the previous log
where the fresh log has no class.  The classes of other modules are those that were merged when the
build was resolved.  The fingerprints are taken of the files that were listed then, but with the
contents of the moment in which the log is written, and only of those that can be read.
-/

namespace LayoutRebuild

variable {fs : FileSystem} {args : Arguments} {r : Resolution} {fresh : BuildLog}
  {layout target : String}

/-- There is nothing to take over from an empty log. -/
theorem BuildLog.absorb_empty (log : BuildLog) : log.absorb .empty = log := by
  have hclasses : log.classes.override BuildLog.empty.classes = log.classes := rfl
  have hreferences : log.references.filter
      (fun source _ => !BuildLog.empty.classes.contains source) = log.references := by
    apply Table.ext_get?
    intro source
    have hnone : BuildLog.empty.classes.contains source = false := rfl
    rw [Table.get?_filter, hnone]
    cases log.references.get? source <;> rfl
  rw [absorb, hclasses, hreferences]
  rfl

namespace Resolution

theorem get?_classes_nextLog : (r.nextLog fs fresh).classes.get? layout =
    (fresh.classes.get? layout).or (r.unchangedLog.classes.get? layout) :=
  Table.get?_override _ _ _

theorem mem_classes_nextLog : layout ∈ (r.nextLog fs fresh).classes ↔
    layout ∈ r.unchangedLog.classes ∨ layout ∈ fresh.classes := Table.mem_override

theorem refers_nextLog : (r.nextLog fs fresh).references.Refers layout target ↔
    fresh.references.Refers layout target ∨
      (r.unchangedLog.references.Refers layout target ∧ layout ∉ fresh.classes) :=
  BuildLog.refers_absorb

theorem fingerprints_nextLog : (r.nextLog fs fresh).fingerprints =
    (byName fs.read r.presentFiles.paths).map fun _ bytes => ContentHash.ofContent bytes :=
  Fingerprints.hashes_ofPaths

theorem dependencyClasses_nextLog :
    (r.nextLog fs fresh).dependencyClasses = r.dependencyClasses := rfl

end Resolution

namespace Resolution.Outcome

variable {present : PathSet}

/-- If the log is written at once, its fingerprints are those of the descriptors that can be read. -/
theorem fingerprints_nextLog {folder : Path} (h : Outcome fs args present r)
    (hpresent : descriptorFiles fs folder = .ok present) : (r.nextLog fs fresh).fingerprints =
      (readableContents fs folder).map fun _ bytes => ContentHash.ofContent bytes := by
  rw [Resolution.fingerprints_nextLog, h.presentFiles_eq, readableContents_eq hpresent]

/-- A first build whose generator answers nothing leaves no class. -/
theorem not_mem_classes_nextLog (h : Outcome fs args present r)
    (hnone : args.readableLog? fs = none) : layout ∉ (r.nextLog fs .empty).classes := by
  rw [Resolution.mem_classes_nextLog, h.unchangedLog_eq_empty hnone]
  rintro (hclass | hclass) <;> exact Table.not_mem_empty layout hclass

/-- A first build whose generator answers nothing leaves no reference. -/
theorem not_refers_nextLog (h : Outcome fs args present r)
    (hnone : args.readableLog? fs = none) :
    ¬ (r.nextLog fs .empty).references.Refers layout target := by
  rw [Resolution.refers_nextLog, h.unchangedLog_eq_empty hnone]
  rintro (hrefers | ⟨hrefers, -⟩) <;> exact References.not_refers_empty hrefers

end Resolution.Outcome

end LayoutRebuild
