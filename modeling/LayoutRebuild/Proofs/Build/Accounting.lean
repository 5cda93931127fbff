import LayoutRebuild.Proofs.Build.Considered
import LayoutRebuild.Proofs.Build.NextLog

/-!
# No layout is forgotten unless its generator forgets it

A build asks the generator for some families and stamps the fingerprints of all descriptors, whether or
not it got a class for each.  Along every history of edits and builds, a recorded file therefore belongs
to a family that has a class, or to one that the generator left out when it was last asked
(`Covers`).  The next build keeps the class of each layout that is there, or reads all its files again,
and passes over nothing but what the generator left out (`layout_accounted`).
-/

namespace LayoutRebuild

/-- The build asks the generator for the class of a family. -/
def Resolution.AsksFor (r : Resolution) (family : String) : Prop :=
  family ∈ r.filesToConsider.families

/-- The families without a class after a build that got `fresh`: those that were asked for in vain, and
those that had been left out before and still are. -/
def Resolution.leftOut (r : Resolution) (fresh : BuildLog) (omitted : String → Prop)
    (family : String) : Prop :=
  family ∉ fresh.classes ∧ (r.AsksFor family ∨ omitted family)

/-- The states that a module comes to by edits and builds, each with the families that the generator
left out when it was last asked for them.  The generator may answer anything. -/
inductive Reachable (args : Arguments) : FileSystem → (String → Prop) → Prop
  /-- A module without a log. -/
  | start {fs : FileSystem} (fresh : args.readableLog? fs = none) :
      Reachable args fs fun _ => False
  /-- Anything but the log is changed, or the log is lost. -/
  | edit {fs fs' : FileSystem} {omitted : String → Prop} (before : Reachable args fs omitted)
      (log : args.readableLog? fs' = args.readableLog? fs ∨ args.readableLog? fs' = none) :
      Reachable args fs' omitted
  /-- A build that writes its log.  Publishing the classes may fail after that. -/
  | build {fs written : FileSystem} {omitted : String → Prop} {found : Arguments} {r : Resolution}
      {diagnostics : List Diagnostic} {fresh next : BuildLog} (incremental : Bool)
      (before : Reachable args fs omitted)
      (detected : { args with incremental := incremental }.withDetectedChanges fs = .ok found)
      (resolved : resolve fs found = .ok (r, diagnostics))
      (saved : r.persist fs args.logFolder fresh = (written, .ok next)) :
      Reachable args (r.finish fs found fresh).1 (r.leftOut fresh omitted)

/-- What a log records are names of files, and each belongs to a family with a class or to one that was
left out. -/
structure Covers (omitted : String → Prop) (log : BuildLog) : Prop where
  names : ∀ name ∈ log.fingerprints, Path.IsName name
  classes : ∀ name ∈ log.fingerprints, ∀ family, DescriptorName.family? name = some family →
    family ∈ log.classes ∨ omitted family

section Step

variable {fs : FileSystem} {args found : Arguments} {r : Resolution}
  {diagnostics : List Diagnostic} {fresh : BuildLog} {omitted : String → Prop} {p : Path}
  {family : String}

/-- One build accounts for every layout that is there. -/
theorem accounted_of_covers (hcovers : ∀ log, args.readableLog? fs = some log → Covers omitted log)
    (hfound : args.withDetectedChanges fs = .ok found)
    (hresolve : resolve fs found = .ok (r, diagnostics))
    (hp : p ∈ r.presentFiles.paths) (hfamily : p.family? = some family) :
    family ∈ r.unchangedLog.classes ∨
      (∀ q ∈ r.presentFiles.paths, q.family? = some family → r.filesToConsider.holds q = true) ∨
      (omitted family ∧
        ∀ q, q ∈ found.outOfDate ∨ q ∈ found.removed → q.family? ≠ some family) := by
  obtain ⟨present, hpresent, houtcome⟩ := resolve_cases hresolve
  have hdetects := Arguments.detects hfound
  rw [hdetects.descriptorFolder_eq] at hpresent
  rw [houtcome.presentFiles_eq] at hp ⊢
  cases houtcome with
  | anew reason old unused =>
    right
    left
    intro q hq _
    exact holds_of_mem_present hpresent hq
  | onward log incremental readable =>
    rw [hdetects.readableLog?_eq] at readable
    have hcovered := hcovers log readable
    have hdetected : Detected fs args found log present :=
      ⟨hdetects, readable, hcovered.names, hpresent⟩
    by_cases hstale : family ∈ (situation fs found log present).invalidated
    · right
      left
      intro q hq hqfamily
      exact hdetected.holds_filesToConsider hq hqfamily hstale
    · have hunreported : ¬ (situation fs found log present).Reported family := fun hreported =>
        hstale (Situation.mem_invalidated_of_reported hreported)
      obtain ⟨name, content, family', hname, -, hparse, hfamily'⟩ :=
        descriptor_of_mem hpresent hp
      rw [hfamily, Option.some.injEq] at hfamily'
      subst hfamily'
      have hrecorded : name ∈ log.fingerprints := by
        by_contra hnew
        refine hunreported (hdetected.reported_iff.mpr ⟨name, hparse, ?_⟩)
        have hthere := (mem_descriptorContents hpresent).mpr ⟨p, hp, hname⟩
        rcases mem_descriptorContents_iff.mp hthere with hbytes | hunread
        · obtain ⟨now, hnow⟩ := Table.mem_iff_exists.mp hbytes
          rw [Table.get?_eq_none_iff.mpr hnew, hnow]
          exact .inr (by simp)
        · exact .inl hunread
      rcases hcovered.classes name hrecorded family hparse with hclass | homitted
      · left
        refine Situation.mem_keptClasses_iff.mpr ⟨hclass, fun h => hstale ?_⟩
        exact (Situation.mem_invalidated_iff hclass).mpr h
      · exact .inr (.inr ⟨homitted, fun q hq hqfamily => hunreported ⟨q, hq, hqfamily⟩⟩)

/-- A build that is resolved along with its detected changes leaves a log that covers its files. -/
theorem covers_nextLog (hcovers : ∀ log, args.readableLog? fs = some log → Covers omitted log)
    (hfound : args.withDetectedChanges fs = .ok found)
    (hresolve : resolve fs found = .ok (r, diagnostics)) :
    Covers (r.leftOut fresh omitted) (r.nextLog fs fresh) := by
  obtain ⟨present, hpresent, houtcome⟩ := resolve_cases hresolve
  rw [(Arguments.detects hfound).descriptorFolder_eq] at hpresent
  have hpaths := houtcome.presentFiles_eq
  have hrecorded (name : String) (hname : name ∈ (r.nextLog fs fresh).fingerprints) :
      name ∈ descriptorContents fs args.descriptorFolder := by
    rw [houtcome.fingerprints_nextLog hpresent, Table.mem_iff, Table.get?_map,
      Option.isSome_map] at hname
    exact mem_descriptorContents_iff.mpr (.inl hname)
  refine ⟨fun name hname => isName_of_mem_descriptorContents (hrecorded name hname), ?_⟩
  intro name hname family hfamily
  rw [Resolution.mem_classes_nextLog]
  by_cases hfresh : family ∈ fresh.classes
  · exact .inl (.inr hfresh)
  · obtain ⟨p, hp, hpname⟩ := (mem_descriptorContents hpresent).mp (hrecorded name hname)
    have hpfamily : p.family? = some family := by
      rw [Path.family?_eq, hpname]
      exact hfamily
    rw [← hpaths] at hp
    rcases accounted_of_covers hcovers hfound hresolve hp hpfamily with
      hkept | hconsidered | ⟨homitted, -⟩
    · exact .inl (.inl hkept)
    · exact .inr ⟨hfresh, .inl (houtcome.mem_families_of_holds hpresent (hconsidered p hp hpfamily)
        hpfamily)⟩
    · exact .inr ⟨hfresh, .inr homitted⟩

end Step

/-- Along every history, the log covers the files that it records. -/
theorem covers_of_reachable {args : Arguments} {fs : FileSystem} {omitted : String → Prop}
    (h : Reachable args fs omitted) {log : BuildLog} (hlog : args.readableLog? fs = some log) :
    Covers omitted log := by
  induction h generalizing log with
  | start fresh =>
    rw [fresh] at hlog
    cases hlog
  | edit before kept ih =>
    rcases kept with hsame | hlost
    · exact ih (hsame ▸ hlog)
    · rw [hlost] at hlog
      cases hlog
  | @build fs written omitted found r diagnostics fresh next incremental before detected resolved
      saved ih =>
    have hleft := (Arguments.detects detected).readableLog?_finish saved
    have hsame : log = next := Option.some.inj (hlog.symm.trans hleft)
    rw [hsame, (Resolution.read_persist saved).1]
    have hbefore : ∀ log, { args with incremental := incremental }.readableLog? fs = some log →
        Covers omitted log := fun _ hlog => ih hlog
    exact covers_nextLog hbefore detected resolved

/-- Every layout that is there is accounted for: the next build keeps its class, or reads all its files
again, or it is one that the generator left out when it was last asked for it, and that has not
changed since. -/
theorem layout_accounted {args found : Arguments} {fs : FileSystem} {omitted : String → Prop}
    {r : Resolution} {diagnostics : List Diagnostic} {p : Path} {family : String}
    (incremental : Bool) (h : Reachable args fs omitted)
    (hfound : { args with incremental := incremental }.withDetectedChanges fs = .ok found)
    (hresolve : resolve fs found = .ok (r, diagnostics))
    (hp : p ∈ r.presentFiles.paths) (hfamily : p.family? = some family) :
    family ∈ r.unchangedLog.classes ∨
      (∀ q ∈ r.presentFiles.paths, q.family? = some family → r.filesToConsider.holds q = true) ∨
      (omitted family ∧
        ∀ q, q ∈ found.outOfDate ∨ q ∈ found.removed → q.family? ≠ some family) := by
  have hcovers : ∀ log, { args with incremental := incremental }.readableLog? fs = some log →
      Covers omitted log := fun _ hlog => covers_of_reachable h hlog
  exact accounted_of_covers hcovers hfound hresolve hp hfamily

/-- A first build whose generator answers nothing leaves the fingerprints of the descriptors, and
neither a class nor a reference.  The descriptor may be edited after it. -/
theorem reachable_unanswered (content edited : ByteArray) : ∃ log omitted,
    Reachable .ofDescriptor (.ofDescriptor edited (some (LogFile.ofLog log).toText.toUTF8)) omitted ∧
    (∀ layout, layout ∉ log.classes) ∧ (∀ a b, ¬ log.references.Refers a b) ∧
    ∀ name, log.fingerprints.get? name =
      if name = "a-layout.xml" then some (ContentHash.ofContent content) else none := by
  obtain ⟨found, r, diagnostics, hfound, hresolve, -⟩ := resolves_ofDescriptor content none
  obtain ⟨present, hpresent, houtcome⟩ := resolve_cases hresolve
  have hdetects := Arguments.detects hfound
  rw [hdetects.descriptorFolder_eq] at hpresent
  have hnone : found.readableLog? (.ofDescriptor content none) = none := by
    rw [hdetects.readableLog?_eq]
    rfl
  obtain ⟨log, hlog⟩ : ∃ log, log = r.nextLog (.ofDescriptor content none) .empty := ⟨_, rfl⟩
  have hsaved : r.persist (.ofDescriptor content none) ⟨"log"⟩ .empty = (_, .ok log) :=
    Prod.ext rfl (hlog ▸ persist_ofDescriptor content none r .empty)
  refine ⟨log, r.leftOut .empty fun _ => False, ?_, ?_, ?_, ?_⟩
  · refine .edit (.build true (.start rfl) hfound hresolve hsaved) (.inl ?_)
    rw [readableLog?_ofDescriptor, hdetects.readableLog?_finish hsaved]
  · intro layout
    rw [hlog]
    exact houtcome.not_mem_classes_nextLog hnone
  · intro a b
    rw [hlog]
    exact houtcome.not_refers_nextLog hnone
  · intro name
    rw [hlog, houtcome.fingerprints_nextLog hpresent, Table.get?_map]
    have hget := get?_readable_ofDescriptor content none name
    rw [Arguments.ofDescriptor, hget]
    split <;> rfl

/-- After a build that got no class for the one layout of a module, and an edit of its descriptor, the
descriptor is read again. -/
theorem edited_layout_accounted : ∃ fs omitted found r diagnostics p,
    Reachable .ofDescriptor fs omitted ∧
    Arguments.ofDescriptor.readableLog? fs ≠ none ∧
    Arguments.ofDescriptor.withDetectedChanges fs = .ok found ∧
    resolve fs found = .ok (r, diagnostics) ∧
    p ∈ r.presentFiles.paths ∧ p.family? = some "a" ∧ r.filesToConsider.holds p = true := by
  obtain ⟨log, omitted, hreachable, hclasses, -, hrecorded⟩ :=
    reachable_unanswered "one".toUTF8 "two".toUTF8
  have hreadable := readableLog?_ofDescriptor "two".toUTF8 log
  obtain ⟨found, r, diagnostics, hfound, hresolve, hp⟩ :=
    resolves_ofDescriptor "two".toUTF8 (some (LogFile.ofLog log).toText.toUTF8)
  have hfamily : ((Path.mk "info").join "a-layout.xml").family? = some "a" := by decide
  refine ⟨_, omitted, found, r, diagnostics, _, hreachable,
    Option.ne_none_iff_exists'.mpr ⟨log, hreadable⟩, hfound, hresolve, hp, hfamily, ?_⟩
  rcases layout_accounted true hreachable hfound hresolve hp hfamily with
    hkept | hconsidered | ⟨-, hunreported⟩
  · obtain ⟨present, -, houtcome⟩ := resolve_cases hresolve
    have hdetects := Arguments.detects hfound
    have hr : r = .ofSituation (situation _ found log present) :=
      houtcome.eq_ofSituation (by rw [hdetects.same]; rfl) (hdetects.readableLog?_eq.trans hreadable)
    rw [hr] at hkept
    exact absurd (Situation.mem_keptClasses_iff.mp hkept).1 (hclasses "a")
  · exact hconsidered _ hp hfamily
  · -- The recorded hash is that of the content before the edit.
    have hdiffer : ContentHash.ofContent "one".toUTF8 ≠ ContentHash.ofContent "two".toUTF8 := by
      decide +kernel
    refine absurd hfamily (hunreported _ (.inl ?_))
    refine ((Arguments.detects hfound).mem_outOfDate_join isName_descriptor).mpr
      (.inr ⟨"two".toUTF8, ?_, ?_⟩)
    · rw [Arguments.ofDescriptor, get?_readable_ofDescriptor, if_pos rfl]
    · rw [recordedFingerprints_eq hreadable, hrecorded, if_pos rfl]
      exact fun heq => hdiffer (Option.some.inj heq)

/-- A module whose generator answers nothing: at the second build its only layout has no class, and its
descriptor is not read again. -/
theorem forgotten_layout : ∃ fs omitted found r diagnostics p,
    Reachable .ofDescriptor fs omitted ∧
    Arguments.ofDescriptor.withDetectedChanges fs = .ok found ∧
    resolve fs found = .ok (r, diagnostics) ∧
    p ∈ r.presentFiles.paths ∧ p.family? = some "a" ∧
    "a" ∉ r.unchangedLog.classes ∧ r.filesToConsider.holds p = false := by
  obtain ⟨log, omitted, hreachable, hclasses, hrefers, hrecorded⟩ :=
    reachable_unanswered "one".toUTF8 "one".toUTF8
  have hreadable := readableLog?_ofDescriptor "one".toUTF8 log
  obtain ⟨found, r, diagnostics, hfound, hresolve, hp⟩ :=
    resolves_ofDescriptor "one".toUTF8 (some (LogFile.ofLog log).toText.toUTF8)
  refine ⟨_, omitted, found, r, diagnostics, _, hreachable, hfound, hresolve, hp, by decide, ?_⟩
  obtain ⟨present, hpresent, houtcome⟩ := resolve_cases hresolve
  have hdetects := Arguments.detects hfound
  rw [hdetects.descriptorFolder_eq] at hpresent
  have hr : r = .ofSituation (situation _ found log present) :=
    houtcome.eq_ofSituation (by rw [hdetects.same]; rfl) (hdetects.readableLog?_eq.trans hreadable)
  have hdetected : Detected
      (.ofDescriptor "one".toUTF8 (some (LogFile.ofLog log).toText.toUTF8)) .ofDescriptor found log
      present := by
    refine ⟨hdetects, hreadable, fun name hname => ?_, hpresent⟩
    rw [Table.mem_iff, hrecorded] at hname
    split at hname
    next heq => exact heq ▸ isName_descriptor
    · cases hname
  -- The recorded content is the one that is there, so that nothing is reported.
  have hunreported := hdetected.not_reported (unread_ofDescriptor _ _) fun name => by
    rw [hrecorded, Arguments.ofDescriptor, get?_readable_ofDescriptor]
    split <;> rfl
  rw [hr]
  constructor
  · intro hkept
    exact hclasses "a" (Situation.mem_keptClasses_iff.mp hkept).1
  · exact Situation.holds_filesToConsider_eq_false hrefers hunreported

end LayoutRebuild
