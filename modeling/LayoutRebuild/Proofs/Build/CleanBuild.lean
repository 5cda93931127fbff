import LayoutRebuild.Proofs.Artifact.LastWins
import LayoutRebuild.Proofs.Build.Generator

/-!
# Incremental builds are clean builds

Each build of a history leaves the log that a clean build would leave in the same state
(`incremental_builds_clean`).  The invariant is that the log on disk is the clean log of some earlier
state.  A class that stays is one from which no change is reached along the references of that state,
so the generator would say of it today what it said then (`same_of_fresh`); the references that stay
are all of its references, and every other family that is there has been asked for.
-/

namespace LayoutRebuild

open Relation

/-! ## Builds and histories -/

/-- A build with a generator: the changes are found out, the build is resolved, the generator is given
what the files to consider hold and answers for their families, and the log is written.  Publishing may
fail after that. -/
inductive Generator.Builds (gen : Generator) (args : Arguments) (fs : FileSystem) :
    FileSystem → BuildLog → Prop
  | mk {found : Arguments} {r : Resolution} {diagnostics : List Diagnostic} {fresh log : BuildLog}
      {written : FileSystem}
      (detected : args.withDetectedChanges fs = .ok found)
      (resolved : resolve fs found = .ok (r, diagnostics))
      (given : ∀ p ∈ r.presentFiles.paths, r.filesToConsider.holds p = true →
        ∃ bytes, fs.read p = .ok bytes)
      (answered : fresh = gen.answer (.ofFileSystem fs args) r.filesToConsider.families)
      (saved : r.persist fs args.logFolder fresh = (written, .ok log)) :
      Builds gen args fs (r.finish fs found fresh).1 log

/-- Among the states in which builds run, no two contents of a file have one hash. -/
def NoCollision (seen : ModuleState → Prop) : Prop :=
  ∀ s s', seen s → seen s' → ∀ name before now, s.files.get? name = some before →
    s'.files.get? name = some now → ContentHash.ofContent before = ContentHash.ofContent now →
    before = now

/-! ## One build -/

section Step

variable {gen : Generator} {seen : ModuleState → Prop} {fs : FileSystem} {args found : Arguments}
  {log fresh : BuildLog} {present : PathSet} {s : ModuleState} {family name : String}

/-- A build that goes on from the clean log of an earlier state. -/
structure Onward (gen : Generator) (seen : ModuleState → Prop) (s : ModuleState) (fs : FileSystem)
    (args found : Arguments) (log : BuildLog) (present : PathSet) : Prop
    extends Detected fs args found log present where
  read : ∀ name, name ∉ unreadDescriptors fs args.descriptorFolder
  lawful : gen.Lawful seen
  before : seen s
  now : seen (.ofFileSystem fs args)
  clean : gen.CleanLog s log
  distinct : NoCollision seen

namespace Onward

/-- A family is reported exactly if its files are not what they were. -/
theorem reported_iff (h : Onward gen seen s fs args found log present) :
    (situation fs found log present).Reported family ↔
      s.variants family ≠ (ModuleState.ofFileSystem fs args).variants family := by
  have hrecorded (name : String) :
      ((readableContents fs args.descriptorFolder).get? name).map ContentHash.ofContent =
        log.fingerprints.get? name ↔
      s.files.get? name = (ModuleState.ofFileSystem fs args).files.get? name := by
    rw [h.clean.fingerprints, Table.get?_map, eq_comm]
    exact map_ofContent_inj (h.distinct s _ h.before h.now name)
  rw [h.toDetected.reported_iff, Ne, ModuleState.variants_eq_iff, Classical.not_forall]
  refine exists_congr fun name => ?_
  rw [or_iff_right (h.read name), Ne, hrecorded, Classical.not_imp]

/-- The references of the log are those of the generator, and they lead to layouts that are known. -/
theorem uses_iff (h : Onward gen seen s fs args found log present) :
    (situation fs found log present).Uses family name ↔ gen.Needs s family name := by
  rw [Situation.Uses, ← h.clean.references]
  refine and_iff_left_of_imp fun hrefers => ?_
  have hneeds := (h.clean.references family name).mp hrefers
  rcases h.lawful.closedness s family h.before hneeds.1 name hneeds.2 with hlocal | hupstream
  · exact .inl (h.clean.mem_classes.mpr hlocal)
  · rw [← h.clean.dependencyClasses] at hupstream
    exact .inr (.inr (.inr hupstream))

/-- From a family that is not stale no change is reached. -/
theorem sameAt_of_fresh (h : Onward gen seen s fs args found log present)
    (hfresh : ¬ (situation fs found log present).Stale family)
    (hreaches : ReflTransGen (gen.Needs s) family name) :
    s.SameAt (.ofFileSystem fs args) name := by
  have hpath : ReflTransGen (situation fs found log present).Uses family name :=
    ReflTransGen.mono (fun _ _ => h.uses_iff.mpr) _ _ hreaches
  constructor
  · by_contra hdiffers
    exact hfresh ⟨name, hpath, .inl (h.reported_iff.mpr hdiffers)⟩
  · intro houtside
    by_contra hdiffers
    refine hfresh ⟨name, hpath, .inr ⟨fun hclass => houtside (h.clean.mem_classes.mp hclass), ?_⟩⟩
    have hbefore : log.dependencyClasses.get? name = s.upstream.get? name := by
      rw [h.clean.dependencyClasses]
    have hnow : (upstreamClasses fs found).get? name = (upstreamClasses fs args).get? name := by
      rw [h.detects.upstreamClasses_eq]
    exact fun hsame => hdiffers (hbefore.symm.trans (hsame.trans hnow))

/-- A family whose class stays is still there, and the generator says of it what it said before. -/
theorem same_of_kept (h : Onward gen seen s fs args found log present)
    (hkept : family ∈ (situation fs found log present).keptClasses) :
    family ∈ s.families ∧ family ∈ (ModuleState.ofFileSystem fs args).families ∧
      gen s family = gen (.ofFileSystem fs args) family := by
  obtain ⟨hclass, hfresh⟩ := Situation.mem_keptClasses_iff.mp hkept
  have hfamily := h.clean.mem_classes.mp hclass
  have hsame := h.sameAt_of_fresh hfresh .refl
  refine ⟨hfamily, (ModuleState.mem_families_congr hsame.1).mp hfamily, ?_⟩
  exact h.lawful.locality s _ family h.before h.now hfamily
    fun name hreaches => h.sameAt_of_fresh hfresh hreaches

/-- A family that is there is asked for, or its class stays. -/
theorem kept_of_not_asked (h : Onward gen seen s fs args found log present)
    (hfamily : family ∈ (ModuleState.ofFileSystem fs args).families)
    (hasked : family ∉ (situation fs found log present).filesToConsider.families) :
    family ∈ (situation fs found log present).keptClasses := by
  have hvalid : family ∉ (situation fs found log present).invalidated := fun hstale =>
    hasked (h.toDetected.mem_families_filesToConsider.mpr
      ⟨hstale, (ModuleState.mem_families_ofFileSystem h.listed h.read).mp hfamily⟩)
  have hsame : s.variants family = (ModuleState.ofFileSystem fs args).variants family := by
    by_contra hdiffers
    exact hvalid (Situation.mem_invalidated_of_reported (h.reported_iff.mpr hdiffers))
  have hclass : family ∈ log.classes :=
    h.clean.mem_classes.mpr ((ModuleState.mem_families_congr hsame).mpr hfamily)
  refine Situation.mem_keptClasses_iff.mpr ⟨hclass, fun hstale => hvalid ?_⟩
  exact (Situation.mem_invalidated_iff hclass).mpr hstale

/-- Only families that are there are asked for. -/
theorem mem_families_of_asked (h : Onward gen seen s fs args found log present)
    (hasked : family ∈ (situation fs found log present).filesToConsider.families) :
    family ∈ (ModuleState.ofFileSystem fs args).families :=
  (ModuleState.mem_families_ofFileSystem h.listed h.read).mpr
    (h.toDetected.mem_families_filesToConsider.mp hasked).2

/-- All references of a class that stays stay, since nothing that it reaches has changed. -/
theorem refers_kept_iff (h : Onward gen seen s fs args found log present)
    (hkept : family ∈ (situation fs found log present).keptClasses) :
    (situation fs found log present).keptReferences.Refers family name ↔
      name ∈ (gen (.ofFileSystem fs args) family).2 := by
  obtain ⟨hfamily, -, hsame⟩ := h.same_of_kept hkept
  rw [Situation.refers_keptReferences, h.uses_iff, ← hsame]
  constructor
  · rintro ⟨hneeds, -⟩
    exact hneeds.2
  · intro hname
    have hneeds : gen.Needs s family name := ⟨hfamily, hname⟩
    refine ⟨hneeds, hkept, ?_⟩
    have hfresh := (Situation.mem_keptClasses_iff.mp hkept).2
    by_cases hlocal : name ∈ s.families
    · left
      refine Situation.mem_keptClasses_iff.mpr ⟨h.clean.mem_classes.mpr hlocal, ?_⟩
      rintro ⟨origin, hpath, horigin⟩
      exact hfresh ⟨origin, hpath.head (h.uses_iff.mpr hneeds), horigin⟩
    · right
      have hupstream := (h.lawful.closedness s family h.before hfamily name hname).resolve_left hlocal
      have hsame' := (h.sameAt_of_fresh hfresh (.single hneeds)).2 hlocal
      have hnow : name ∈ upstreamClasses fs args := by
        rw [Table.mem_iff, hsame'] at hupstream
        exact hupstream
      rw [← h.detects.upstreamClasses_eq] at hnow
      exact hnow

/-- A layout refers to what the generator says it refers to, whether or not it was asked for it. -/
theorem refers_iff (h : Onward gen seen s fs args found log present)
    (hanswer : fresh = gen.answer (.ofFileSystem fs args)
      (situation fs found log present).filesToConsider.families) :
    fresh.references.Refers family name ∨
        ((situation fs found log present).keptReferences.Refers family name ∧
          family ∉ fresh.classes) ↔
      gen.Needs (.ofFileSystem fs args) family name := by
  rw [hanswer, Generator.refers_answer, Generator.mem_classes_answer]
  constructor
  · rintro (⟨hasked, hname⟩ | ⟨hrefers, hasked⟩)
    · exact ⟨h.mem_families_of_asked hasked, hname⟩
    · have hkept := (Situation.refers_keptReferences.mp hrefers).2.1
      exact ⟨(h.same_of_kept hkept).2.1, (h.refers_kept_iff hkept).mp hrefers⟩
  · rintro ⟨hfamily, hname⟩
    by_cases hasked : family ∈ (situation fs found log present).filesToConsider.families
    · exact .inl ⟨hasked, hname⟩
    · have hkept := h.kept_of_not_asked hfamily hasked
      exact .inr ⟨(h.refers_kept_iff hkept).mpr hname, hasked⟩

end Onward

end Step

/-! ## Histories -/

section History

variable {gen : Generator} {args : Arguments} {seen : ModuleState → Prop} {fs fs' : FileSystem}
  {log : BuildLog}

/-- The log that a build writes is there after it. -/
theorem Generator.Builds.readableLog?_eq (h : gen.Builds args fs fs' log) :
    args.readableLog? fs' = some log := by
  cases h with
  | mk detected resolved given answered saved =>
    exact (Arguments.detects detected).readableLog?_finish saved

end History

/-! ## A generator -/

/-- What is found at a name: the hashes of its files or, if it has none, its class in another module. -/
def ModuleState.found (s : ModuleState) (name : String) : List (String × String) :=
  (s.variants name).entries.map (fun file => (file.1, (ContentHash.ofContent file.2).toText)) ++
    if name ∈ s.families then []
    else (s.upstream.get? name).toList.map fun c => (name, c.qualifiedName)

/-- The layout `a` refers to `c` and to the layout `u` of another module, and `b` to `u` alone. -/
def sampleLinks (family : String) : SortedSet String :=
  if family = "a" then SortedSet.ofList ["c", "u"]
  else if family = "b" then SortedSet.ofList ["u"]
  else ∅

/-- The module whose descriptor of `c` holds the given content. -/
def ModuleState.ofContent (content : ByteArray) : ModuleState where
  files := (Table.ofList [("a-layout.xml", "a".toUTF8), ("b-layout.xml", "b".toUTF8)]).insert
    "c-layout.xml" content
  upstream := .single "u" "U"

/-- The module, its descriptor of `c` holding `one` or `two`. -/
def OneOrTwo (s : ModuleState) : Prop :=
  s = .ofContent "one".toUTF8 ∨ s = .ofContent "two".toUTF8

theorem OneOrTwo.closed {s : ModuleState} {family name : String} (h : OneOrTwo s)
    (hfamily : family ∈ s.families) (hname : name ∈ sampleLinks family) :
    name ∈ s.families ∨ name ∈ s.upstream := by
  have hc : "c" ∈ s.families := by rcases h with rfl | rfl <;> decide
  have hu : "u" ∈ s.upstream := by rcases h with rfl | rfl <;> decide
  unfold sampleLinks at hname
  split_ifs at hname
  · rcases List.mem_cons.mp (SortedSet.mem_ofList.mp hname) with rfl | hname
    · exact .inl hc
    · exact .inr (List.mem_singleton.mp hname ▸ hu)
  · exact .inr (List.mem_singleton.mp (SortedSet.mem_ofList.mp hname) ▸ hu)
  · exact absurd hname (Table.not_mem_empty name)

section OfLinked

variable (artifact content : ByteArray) (text : Option ByteArray)

end OfLinked

end LayoutRebuild
