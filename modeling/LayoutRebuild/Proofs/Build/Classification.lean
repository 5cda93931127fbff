import LayoutRebuild.Proofs.Build.Detection

/-!
# Every file is classified once

Three tables of names are compared: the hashes that were recorded, the hashes of the files that can be
read now, and the files that are there but cannot be read.  Every name of any of them stands in one of
the four lists of changes and stands there once (`since_classifies`).  A list is described by the names
in it (`Lists`), so that what is in the list and the order of the list are one statement.
-/

namespace LayoutRebuild

variable {folder : Path}

/-! ## The order of the paths in one folder -/

namespace Path

theorem compare_append_singleton (before : List Component) (a b : String) :
    compare (before ++ [.name a]) (before ++ [.name b]) = compare a b := by
  induction before with
  | nil =>
    change List.compareLex compare [Component.name a] [.name b] = compare a b
    have hname : compare (Component.name a) (.name b) = compare a b := rfl
    rw [List.compareLex_cons_cons, hname, List.compareLex_nil_nil, Ordering.then_eq]
  | cons head rest ih =>
    change List.compareLex compare (head :: (rest ++ [.name a])) (head :: (rest ++ [.name b])) = _
    have hself : compare head head = .eq := Std.ReflCmp.compare_self
    rw [List.compareLex_cons_cons, hself]
    exact ih

/-- The paths to the entries of a folder are in the order of the names. -/
theorem compare_join {a b : String} (ha : IsName a) (hb : IsName b) :
    compare (folder.join a) (folder.join b) = compare a b := by
  change compare (folder.join a).components (folder.join b).components = _
  rw [components_join folder ha, components_join folder hb, compare_append_singleton]

end Path

/-- The list is that of the paths to the names for which `P` holds, in the order of the names and each
of them once. -/
def Lists (folder : Path) (paths : List Path) (P : String → Prop) : Prop :=
  ∃ names : List String, paths = names.map folder.join ∧
    names.Pairwise (fun a b => compare a b = .lt) ∧ ∀ name, name ∈ names ↔ P name

/-- Sorting paths to different names puts them in the order of the names. -/
theorem lists_sortPaths {names : List String} (hnames : ∀ name ∈ names, Path.IsName name)
    (hnodup : names.Nodup) : Lists folder (sortPaths (names.map folder.join)) (· ∈ names) := by
  have hmem (name : String) : name ∈ (SortedSet.ofList names).toList ↔ name ∈ names := by simp
  have hsorted : (SortedSet.ofList names).toList.Pairwise fun a b => compare a b = .lt :=
    List.pairwise_map.mpr (SortedSet.ofList names).sorted
  refine ⟨(SortedSet.ofList names).toList, ?_, hsorted, hmem⟩
  have hperm : (sortPaths (names.map folder.join)).Perm
      ((SortedSet.ofList names).toList.map folder.join) :=
    (List.mergeSort_perm _ _).trans <| .map _ <|
      (List.perm_ext_iff_of_nodup hnodup (nodup_of_sorted hsorted)).mpr fun name => (hmem name).symm
  have hle : ((SortedSet.ofList names).toList.map folder.join).Pairwise fun p q =>
      (compare p q).isLE = true := by
    rw [List.pairwise_map]
    refine hsorted.imp_of_mem fun {a b} ha hb hlt => ?_
    rw [Path.compare_join (hnames a ((hmem a).mp ha)) (hnames b ((hmem b).mp hb)), hlt]
    rfl
  refine hperm.eq_of_pairwise ?_ (pairwise_sortPaths _) hle
  · -- Two of the paths to one place are paths to one name.
    intro p q hp hq hpq hqp
    obtain ⟨a, ha, rfl⟩ := List.mem_map.mp (mem_sortPaths.mp hp)
    obtain ⟨b, hb, rfl⟩ := List.mem_map.mp hq
    have hb' := hnames b ((hmem b).mp hb)
    rw [Path.compare_join (hnames a ha) hb'] at hpq
    rw [Path.compare_join hb' (hnames a ha)] at hqp
    rw [Std.LawfulEqCmp.eq_of_compare (Std.OrientedCmp.isLE_antisymm hpq hqp)]

namespace Lists

variable {paths : List Path} {P Q : String → Prop} {name : String}

theorem congr (h : Lists folder paths P) (hsame : ∀ name, P name ↔ Q name) :
    Lists folder paths Q := by
  obtain ⟨names, hpaths, hsorted, hmem⟩ := h
  exact ⟨names, hpaths, hsorted, fun name => (hmem name).trans (hsame name)⟩

theorem isEmpty_iff (h : Lists folder paths P) : paths.isEmpty = true ↔ ∀ name, ¬ P name := by
  obtain ⟨names, rfl, -, hmem⟩ := h
  rw [List.isEmpty_iff, List.map_eq_nil_iff, List.eq_nil_iff_forall_not_mem]
  exact forall_congr' fun name => not_congr (hmem name)

/-- Lists of different names, put together and sorted. -/
theorem sortPaths_append {paths' : List Path} (h : Lists folder paths P)
    (h' : Lists folder paths' Q) (hP : ∀ name, P name → Path.IsName name)
    (hQ : ∀ name, Q name → Path.IsName name) (hdisjoint : ∀ name, P name → ¬ Q name) :
    Lists folder (sortPaths (paths ++ paths')) fun name => P name ∨ Q name := by
  obtain ⟨names, rfl, hsorted, hmem⟩ := h
  obtain ⟨names', rfl, hsorted', hmem'⟩ := h'
  rw [← List.map_append]
  refine (lists_sortPaths (fun name hname => ?_) ?_).congr fun name => ?_
  · rcases List.mem_append.mp hname with hname | hname
    · exact hP name ((hmem name).mp hname)
    · exact hQ name ((hmem' name).mp hname)
  · refine List.nodup_append'.mpr ⟨nodup_of_sorted hsorted, nodup_of_sorted hsorted', ?_⟩
    intro name hname hname'
    exact hdisjoint name ((hmem name).mp hname) ((hmem' name).mp hname')
  · rw [List.mem_append, hmem, hmem']

/-- A name is listed once if `P` holds for it, and its place is not listed otherwise. -/
theorem countP_same [Decidable (P name)] (h : Lists folder paths P)
    (hP : ∀ name, P name → Path.IsName name) (hname : Path.IsName name) :
    paths.countP (·.same (folder.join name)) = if P name then 1 else 0 := by
  obtain ⟨names, rfl, hsorted, hmem⟩ := h
  have hsame : ∀ other ∈ names,
      ((folder.join other).same (folder.join name) = true ↔ (other == name) = true) := by
    intro other hother
    rw [Path.same, beq_iff_eq, beq_iff_eq]
    constructor
    · exact Path.join_inj_of_components (hP other ((hmem other).mp hother)) hname
    · exact fun heq => by rw [heq]
  have hcount : names.countP ((·.same (folder.join name)) ∘ folder.join) = names.count name :=
    List.countP_congr hsame
  rw [List.countP_map, hcount, (nodup_of_sorted hsorted).count]
  simp only [hmem]

/-- No path of the list leads to the place of a name for which `P` does not hold. -/
theorem same_eq_false (h : Lists folder paths P) (hP : ∀ name, P name → Path.IsName name)
    (hname : Path.IsName name) (hnot : ¬ P name) {p : Path} (hp : p ∈ paths) :
    p.same (folder.join name) = false := by
  classical
  have hcount := h.countP_same hP hname
  rw [if_neg hnot, List.countP_eq_zero] at hcount
  simpa using hcount p hp

theorem exists_of_mem (h : Lists folder paths P) {p : Path} (hp : p ∈ paths) :
    ∃ name, P name ∧ p = folder.join name := by
  obtain ⟨names, rfl, -, hmem⟩ := h
  obtain ⟨name, hname, rfl⟩ := List.mem_map.mp hp
  exact ⟨name, (hmem name).mp hname, rfl⟩

end Lists

/-! ## The four lists -/

/-- What is kept of names in their order is a list of those names. -/
theorem lists_filter {names : List String} (hsorted : names.Pairwise fun a b => compare a b = .lt)
    (keep : String → Bool) : Lists folder ((names.filter keep).map folder.join) fun name =>
      name ∈ names ∧ keep name = true :=
  ⟨names.filter keep, rfl, hsorted.filter keep, fun _ => List.mem_filter⟩

namespace Changes

variable {recorded : Table String ContentHash} {current : Fingerprints} {name : String}

/-- The file can be read and has the recorded hash. -/
def Stays (recorded : Table String ContentHash) (current : Fingerprints) (name : String) : Prop :=
  ∃ hash, current.hashes.get? name = some hash ∧ recorded.get? name = some hash

theorem contains_iff :
    current.contains name = true ↔ name ∈ current.hashes ∨ name ∈ current.unreadable := by
  rw [Fingerprints.contains, Bool.or_eq_true]
  exact Iff.rfl

theorem Stays.mem_recorded (h : Stays recorded current name) : name ∈ recorded := by
  obtain ⟨hash, -, hrecorded⟩ := h
  exact Table.mem_of_get? hrecorded

theorem Stays.contains (h : Stays recorded current name) : current.contains name = true := by
  obtain ⟨hash, hcurrent, -⟩ := h
  exact contains_iff.mpr (.inl (Table.mem_of_get? hcurrent))

/-- Every file of the three tables is classified once: in one of the four lists, and once there.  It is
unchanged if it can be read and has the recorded hash, deleted if it was recorded and is not there in
any form, new if it is there and was not recorded, and modified otherwise. -/
structure Classifies (recorded : Table String ContentHash) (folder : Path) (current : Fingerprints)
    (c : Changes) : Prop where
  unchanged : Lists folder c.unchanged (Stays recorded current)
  deleted : Lists folder c.deleted fun name => name ∈ recorded ∧ current.contains name = false
  new : Lists folder c.new fun name => current.contains name = true ∧ name ∉ recorded
  modified : Lists folder c.modified fun name =>
    current.contains name = true ∧ name ∈ recorded ∧ ¬ Stays recorded current name
  once : ∀ name, name ∈ recorded ∨ current.contains name = true →
    (c.new ++ c.modified ++ c.deleted ++ c.unchanged).countP (·.same (folder.join name)) = 1
  /-- A file that cannot be read is never taken for unchanged or for deleted. -/
  unreadable : ∀ name ∈ current.unreadable, ∀ p ∈ c.unchanged ++ c.deleted,
    p.same (folder.join name) = false
  outOfDate : Lists folder c.outOfDate fun name =>
    current.contains name = true ∧ ¬ Stays recorded current name
  removed : Lists folder c.removed fun name => name ∈ recorded ∧ current.contains name = false
  disjoint : ∀ p ∈ c.outOfDate, ∀ q ∈ c.removed, p.same q = false
  isEmpty_iff : c.isEmpty = true ↔ current.unreadable = ∅ ∧ current.hashes = recorded

theorem lists_readable (keep : Option ContentHash → ContentHash → Bool) :
    Lists folder ((current.hashes.entries.filter fun e => keep (recorded.get? e.1) e.2).map fun e =>
      folder.join e.1) fun name => ∃ hash, current.hashes.get? name = some hash ∧
        keep (recorded.get? name) hash = true := by
  refine ⟨(current.hashes.entries.filter fun e => keep (recorded.get? e.1) e.2).map (·.1), ?_, ?_, ?_⟩
  · rw [List.map_map]
    rfl
  · exact List.pairwise_map.mpr (current.hashes.sorted.filter _)
  · intro name
    simp only [List.mem_map, List.mem_filter, Prod.exists, Table.mem_entries_iff]
    constructor
    · rintro ⟨_, hash, hkept, rfl⟩
      exact ⟨hash, hkept⟩
    · rintro ⟨hash, hkept⟩
      exact ⟨name, hash, hkept, rfl⟩

theorem lists_unreadable (keep : Bool → Bool) :
    Lists folder ((current.unreadable.toList.filter fun name => keep (recorded.contains name)).map
      folder.join) fun name => name ∈ current.unreadable ∧ keep (recorded.contains name) = true :=
  (lists_filter (Table.sorted_keys _) _).congr fun _ =>
    and_congr_left fun _ => Table.mem_keys_iff

section

variable (hnames : ∀ name, current.contains name = true → Path.IsName name)
  (hdisjoint : ∀ name ∈ current.unreadable, name ∉ current.hashes)

include hdisjoint

theorem not_stays_of_unreadable (h : name ∈ current.unreadable) : ¬ Stays recorded current name := by
  rintro ⟨hash, hcurrent, -⟩
  exact hdisjoint name h (Table.mem_of_get? hcurrent)

include hnames

/-- A list made of the readable and of the unreadable files that pass a test. -/
theorem lists_both (keep : Option ContentHash → ContentHash → Bool) (keep' : Bool → Bool) :
    Lists folder (sortPaths <|
      ((current.hashes.entries.filter fun e => keep (recorded.get? e.1) e.2).map fun e =>
        folder.join e.1) ++
      (current.unreadable.toList.filter fun name => keep' (recorded.contains name)).map folder.join)
      fun name =>
        (∃ hash, current.hashes.get? name = some hash ∧ keep (recorded.get? name) hash = true) ∨
          (name ∈ current.unreadable ∧ keep' (recorded.contains name) = true) := by
  refine (lists_readable keep).sortPaths_append (lists_unreadable keep') ?_ ?_ ?_
  · rintro name ⟨hash, hcurrent, -⟩
    exact hnames name (contains_iff.mpr (.inl (Table.mem_of_get? hcurrent)))
  · rintro name ⟨hunreadable, -⟩
    exact hnames name (contains_iff.mpr (.inr hunreadable))
  · rintro name ⟨hash, hcurrent, -⟩ ⟨hunreadable, -⟩
    exact hdisjoint name hunreadable (Table.mem_of_get? hcurrent)

theorem lists_new : Lists folder (since recorded folder current).new fun name =>
    current.contains name = true ∧ name ∉ recorded := by
  refine (lists_both hnames hdisjoint (fun before _ => before.isNone) (fun known => !known)).congr
    fun name => ?_
  rw [contains_iff, or_and_right]
  refine or_congr ?_ ?_
  · rw [Table.mem_iff_exists, ← exists_and_right]
    simp only [Option.isNone_iff_eq_none, Table.get?_eq_none_iff]
  · rw [Bool.not_eq_true', Table.contains_eq_false_iff]

theorem lists_modified : Lists folder (since recorded folder current).modified fun name =>
    current.contains name = true ∧ name ∈ recorded ∧ ¬ Stays recorded current name := by
  refine (lists_both hnames hdisjoint (fun before now => before.any (· != now))
    (fun known => known)).congr fun name => ?_
  constructor
  · rintro (⟨hash, hcurrent, hdiffers⟩ | ⟨hunreadable, hknown⟩)
    · obtain ⟨before, hbefore, hne⟩ := Option.any_eq_true .. |>.mp hdiffers
      refine ⟨contains_iff.mpr (.inl (Table.mem_of_get? hcurrent)), Table.mem_of_get? hbefore, ?_⟩
      rintro ⟨hash', hcurrent', hbefore'⟩
      rw [hcurrent, Option.some.injEq] at hcurrent'
      rw [hbefore, Option.some.injEq] at hbefore'
      simp [hbefore', hcurrent'] at hne
    · exact ⟨contains_iff.mpr (.inr hunreadable), hknown, not_stays_of_unreadable hdisjoint hunreadable⟩
  · rintro ⟨hthere, hknown, hchanged⟩
    rcases contains_iff.mp hthere with hreadable | hunreadable
    · obtain ⟨hash, hcurrent⟩ := Table.mem_iff_exists.mp hreadable
      obtain ⟨before, hbefore⟩ := Table.mem_iff_exists.mp hknown
      refine .inl ⟨hash, hcurrent, ?_⟩
      have hne : before ≠ hash := fun heq => hchanged ⟨hash, hcurrent, heq ▸ hbefore⟩
      simp [hbefore, hne]
    · exact .inr ⟨hunreadable, hknown⟩

end

theorem lists_unchanged : Lists folder (since recorded folder current).unchanged
    (Stays recorded current) := by
  refine (lists_readable fun before now => before.any (· == now)).congr fun name => ?_
  refine exists_congr fun hash => and_congr_right fun _ => ?_
  rw [Option.any_eq_true]
  simp only [beq_iff_eq, exists_eq_right]

theorem lists_deleted : Lists folder (since recorded folder current).deleted fun name =>
    name ∈ recorded ∧ current.contains name = false :=
  (lists_filter (Table.sorted_keys recorded) fun name => !current.contains name).congr fun name => by
    rw [Bool.not_eq_true']
    exact and_congr_left fun _ => Table.mem_keys_iff

section

variable (hnames : ∀ name, current.contains name = true → Path.IsName name)
  (hdisjoint : ∀ name ∈ current.unreadable, name ∉ current.hashes)

include hnames hdisjoint

theorem lists_outOfDate : Lists folder (since recorded folder current).outOfDate fun name =>
    current.contains name = true ∧ ¬ Stays recorded current name := by
  refine ((lists_new hnames hdisjoint).sortPaths_append (lists_modified hnames hdisjoint)
    (fun name h => hnames name h.1) (fun name h => hnames name h.1)
    fun name h h' => h.2 h'.2.1).congr fun name => ?_
  constructor
  · rintro (⟨hthere, hunknown⟩ | ⟨hthere, -, hchanged⟩)
    · exact ⟨hthere, fun hstays => hunknown hstays.mem_recorded⟩
    · exact ⟨hthere, hchanged⟩
  · rintro ⟨hthere, hchanged⟩
    by_cases hknown : name ∈ recorded
    · exact .inr ⟨hthere, hknown, hchanged⟩
    · exact .inl ⟨hthere, hknown⟩

/-- There is nothing to do if what is there stays and what was recorded is there. -/
theorem isEmpty_iff_stays : (since recorded folder current).isEmpty = true ↔
    (∀ name, current.contains name = true → Stays recorded current name) ∧
      ∀ name ∈ recorded, current.contains name = true := by
  rw [isEmpty, Bool.and_eq_true, Bool.and_eq_true, (lists_new hnames hdisjoint).isEmpty_iff,
    (lists_modified hnames hdisjoint).isEmpty_iff, lists_deleted.isEmpty_iff]
  constructor
  · rintro ⟨⟨hnonew, hnomodified⟩, hnodeleted⟩
    refine ⟨fun name hthere => ?_, fun name hknown => ?_⟩
    · by_contra hchanged
      by_cases hknown : name ∈ recorded
      · exact hnomodified name ⟨hthere, hknown, hchanged⟩
      · exact hnonew name ⟨hthere, hknown⟩
    · by_contra hgone
      exact hnodeleted name ⟨hknown, Bool.eq_false_iff.mpr hgone⟩
  · rintro ⟨hstays, hthere⟩
    refine ⟨⟨?_, ?_⟩, ?_⟩
    · exact fun name h => h.2 (hstays name h.1).mem_recorded
    · exact fun name h => h.2.2 (hstays name h.1)
    · exact fun name h => Bool.eq_false_iff.mp h.2 (hthere name h.1)

end

/-- What is there stays, and what was recorded is there: then every file can be read, and what is
recorded is what is there. -/
theorem eq_recorded_iff (hdisjoint : ∀ name ∈ current.unreadable, name ∉ current.hashes) :
    ((∀ name, current.contains name = true → Stays recorded current name) ∧
      ∀ name ∈ recorded, current.contains name = true) ↔
      current.unreadable = ∅ ∧ current.hashes = recorded := by
  constructor
  · rintro ⟨hstays, hthere⟩
    refine ⟨SortedSet.ext_mem fun name => iff_of_false ?_ (Table.not_mem_empty name),
      Table.ext_get? fun name => ?_⟩
    · intro hunreadable
      exact not_stays_of_unreadable hdisjoint hunreadable
        (hstays name (contains_iff.mpr (.inr hunreadable)))
    · cases hcontains : current.contains name with
      | true =>
        obtain ⟨hash, hcurrent, hbefore⟩ := hstays name hcontains
        rw [hcurrent, hbefore]
      | false =>
        rw [Bool.eq_false_iff, ne_eq, contains_iff, not_or] at hcontains
        have hunknown : name ∉ recorded := fun hknown =>
          (contains_iff.mp (hthere name hknown)).elim hcontains.1 hcontains.2
        rw [Table.get?_eq_none_iff.mpr hcontains.1, Table.get?_eq_none_iff.mpr hunknown]
  · rintro ⟨hreadable, rfl⟩
    refine ⟨fun name hthere => ?_, fun name hknown => contains_iff.mpr (.inl hknown)⟩
    rw [contains_iff, hreadable, or_iff_left (Table.not_mem_empty name)] at hthere
    obtain ⟨hash, hcurrent⟩ := Table.mem_iff_exists.mp hthere
    exact ⟨hash, hcurrent, hcurrent⟩

/-- Every name that was recorded or is there is classified exactly once. -/
theorem since_classifies (folder : Path) {recorded : Table String ContentHash}
    {current : Fingerprints} (hrecorded : ∀ name ∈ recorded, Path.IsName name)
    (hnames : ∀ name, current.contains name = true → Path.IsName name)
    (hdisjoint : ∀ name ∈ current.unreadable, name ∉ current.hashes) :
    Classifies recorded folder current (since recorded folder current) := by
  have hnew : Lists folder (since recorded folder current).new _ := lists_new hnames hdisjoint
  have hmodified : Lists folder (since recorded folder current).modified _ :=
    lists_modified hnames hdisjoint
  have houtOfDate : Lists folder (since recorded folder current).outOfDate _ :=
    lists_outOfDate hnames hdisjoint
  have hdeleted : Lists folder (since recorded folder current).deleted _ := lists_deleted
  have hunchanged : Lists folder (since recorded folder current).unchanged _ := lists_unchanged
  refine ⟨hunchanged, hdeleted, hnew, hmodified, ?once, ?unreadable, houtOfDate, hdeleted, ?disjoint,
    (isEmpty_iff_stays hnames hdisjoint).trans (eq_recorded_iff hdisjoint)⟩
  case once =>
    intro name hsome
    have hname : Path.IsName name := hsome.elim (hrecorded name) (hnames name)
    classical
    rw [List.countP_append, List.countP_append, List.countP_append,
      hnew.countP_same (fun name h => hnames name h.1) hname,
      hmodified.countP_same (fun name h => hnames name h.1) hname,
      hdeleted.countP_same (fun name h => hrecorded name h.1) hname,
      hunchanged.countP_same (fun name h => hrecorded name h.mem_recorded) hname]
    by_cases hstays : Stays recorded current name
    · simp [hstays, hstays.mem_recorded, hstays.contains]
    · by_cases hknown : name ∈ recorded
      · cases hthere : current.contains name <;> simp [hstays, hknown]
      · simp [hstays, hknown, hsome.resolve_left hknown]
  case unreadable =>
    intro name hunreadable p hp
    have hthere : current.contains name = true := contains_iff.mpr (.inr hunreadable)
    rcases List.mem_append.mp hp with hp | hp
    · exact hunchanged.same_eq_false (fun name h => hrecorded name h.mem_recorded)
        (hnames name hthere) (not_stays_of_unreadable hdisjoint hunreadable) hp
    · exact hdeleted.same_eq_false (fun name h => hrecorded name h.1) (hnames name hthere)
        (fun h => by simp [hthere] at h) hp
  case disjoint =>
    intro p hp q hq
    obtain ⟨name, ⟨hknown, hgone⟩, rfl⟩ := hdeleted.exists_of_mem hq
    exact houtOfDate.same_eq_false (fun name h => hnames name h.1) (hrecorded name hknown)
      (fun h => by simp [hgone] at h) hp

/-- A table with a file of every kind: one that stays, one that is edited, one that is gone, and one
that can no longer be read. -/
def sampleRecorded : Table String ContentHash :=
  Table.ofList <| ["kept-layout.xml", "edited-layout.xml", "gone-layout.xml",
    "locked-layout.xml"].map fun name => (name, ⟨List.replicate 16 0, rfl⟩)

/-- What is there now: two of the recorded files that can be read, one of them edited, a new one, and
two files that cannot be read. -/
def sampleCurrent : Fingerprints :=
  ⟨Table.ofList [("kept-layout.xml", ⟨List.replicate 16 0, rfl⟩),
      ("edited-layout.xml", ⟨List.replicate 16 1, rfl⟩),
      ("added-layout.xml", ⟨List.replicate 16 1, rfl⟩)],
    SortedSet.ofList ["locked-layout.xml", "sealed-layout.xml"]⟩

theorem sampleCurrent_classified :
    (∀ name ∈ sampleRecorded, Path.IsName name) ∧
      (∀ name, sampleCurrent.contains name = true → Path.IsName name) ∧
      (∀ name ∈ sampleCurrent.unreadable, name ∉ sampleCurrent.hashes) ∧
      Classifies sampleRecorded ⟨"info"⟩ sampleCurrent (since sampleRecorded ⟨"info"⟩ sampleCurrent) := by
  have hrecorded : ∀ name ∈ sampleRecorded.keys, Path.IsName name := by decide +kernel
  have hreadable : ∀ name ∈ sampleCurrent.hashes.keys, Path.IsName name := by decide +kernel
  have hunreadable : ∀ name ∈ sampleCurrent.unreadable.keys,
      Path.IsName name ∧ name ∉ sampleCurrent.hashes := by decide +kernel
  simp only [Table.mem_keys_iff] at hrecorded hreadable hunreadable
  have hnames : ∀ name, sampleCurrent.contains name = true → Path.IsName name := fun name h =>
    (contains_iff.mp h).elim (hreadable name) fun h => (hunreadable name h).1
  have hdisjoint : ∀ name ∈ sampleCurrent.unreadable, name ∉ sampleCurrent.hashes := fun name h =>
    (hunreadable name h).2
  exact ⟨hrecorded, hnames, hdisjoint, since_classifies ⟨"info"⟩ hrecorded hnames hdisjoint⟩

end Changes

end LayoutRebuild
