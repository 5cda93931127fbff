import LayoutRebuild.Proofs.Closure

/-!
# Merging generated logs

A log that is taken over replaces what was said about the layouts that it has a class for, and adds to
what was said about the others.  Logs are equal if they have the same classes, list the same layouts
(`mem_references_absorb`) and hold the same references (`refers_absorb`); read off in this way, it makes
no difference whether a log is taken over once or twice, or how three logs are grouped
(`absorb_repeated_or_regrouped`).
-/

namespace LayoutRebuild

section Override

variable {κ α : Type} [Ord κ] [Std.TransOrd κ] [Std.LawfulEqOrd κ] [DecidableEq κ]

theorem Table.override_again (t u : Table κ α) : (t.override u).override u = t.override u := by
  apply ext_get?
  intro k
  rw [get?_override, get?_override, ← Option.or_assoc, Option.or_self]

theorem Table.override_assoc (t u v : Table κ α) :
    (t.override u).override v = t.override (u.override v) := by
  apply ext_get?
  intro k
  rw [get?_override, get?_override, get?_override, get?_override, Option.or_assoc]

end Override

/-! ## Rows -/

namespace References

variable {r : References} {source : String}

theorem mem_add {s t : String} : source ∈ r.add s t ↔ source = s ∨ source ∈ r := by
  rw [add, Table.mem_iff, Table.get?_insert, Table.mem_iff]
  by_cases h : source = s <;> simp [h]

/-- A layout is listed if it was before or if a reference from it has been added. -/
theorem mem_addAll {l : List (String × String)} :
    source ∈ r.addAll l ↔ (∃ target, (source, target) ∈ l) ∨ source ∈ r := by
  induction l generalizing r with
  | nil => simp [addAll]
  | cons e l ih =>
    have hstep : r.addAll (e :: l) = (r.add e.1 e.2).addAll l := rfl
    rw [hstep, ih, mem_add]
    simp only [List.mem_cons, Prod.ext_iff, exists_or, exists_and_left, exists_eq, and_true]
    rw [or_left_comm, or_assoc]

theorem mem_filter (keep : String → Bool) :
    source ∈ Table.filter (fun s _ => keep s) r ↔ source ∈ r ∧ keep source = true := by
  rw [Table.mem_iff, Table.get?_filter, Table.mem_iff]
  cases r.get? source <;> simp [Option.filter]

end References

/-! ## Logs -/

attribute [ext] BuildLog

namespace BuildLog

variable {a b c log fresh : BuildLog} {source target : String}

/-- After a log has been taken over, a layout is listed if that log refers to something from it, or if it
was listed before and that log has no class for it. -/
theorem mem_references_absorb : source ∈ (log.absorb fresh).references ↔
    (∃ target, fresh.references.Refers source target) ∨
      (source ∈ log.references ∧ source ∉ fresh.classes) := by
  rw [absorb, References.mem_addAll, References.mem_filter fun s => !fresh.classes.contains s,
    Bool.not_eq_true', Table.contains_eq_false_iff]
  simp only [References.mem_edges]

theorem mem_classes_absorb :
    source ∈ (log.absorb fresh).classes ↔ source ∈ log.classes ∨ source ∈ fresh.classes :=
  Table.mem_override

/-- Once a log has been taken over, there is nothing left that it would replace or add. -/
theorem absorb_again : (a.absorb b).absorb b = a.absorb b := by
  refine BuildLog.ext (Table.override_again _ _) ?_ rfl rfl
  refine References.ext_rows (fun source => ?_) fun source target => ?_
  · rw [mem_references_absorb, mem_references_absorb]
    by_cases hb : source ∈ b.classes <;> simp [hb]
  · rw [refers_absorb, refers_absorb]
    by_cases hb : source ∈ b.classes <;> simp [hb]

/-- Of a layout that the last log has a class for, only what the last log says counts.  Without one there,
the first log counts if the second one has no class for it either. -/
theorem absorb_assoc : (a.absorb b).absorb c = a.absorb (b.absorb c) := by
  refine BuildLog.ext (Table.override_assoc _ _ _) ?_ rfl rfl
  refine References.ext_rows (fun source => ?_) fun source target => ?_
  · simp only [mem_references_absorb, refers_absorb, mem_classes_absorb, exists_or]
    by_cases hc : source ∈ c.classes
    · simp [hc]
    · by_cases hb : source ∈ b.classes <;> simp [hb, hc, or_assoc]
  · simp only [refers_absorb, mem_classes_absorb]
    by_cases hc : source ∈ c.classes
    · simp [hc]
    · by_cases hb : source ∈ b.classes <;> simp [hb, hc, or_assoc]

/-- A log that is taken over twice counts once, and of three logs it does not matter which two are taken
over first.  What was said about a layout stays, with what the other log says added to it, exactly if the
other log has no class for the layout; if it has one, only what it says counts.  The classes of the other
log win, and what the log saw of the outside stays. -/
theorem absorb_repeated_or_regrouped (a b c : BuildLog) :
    (a.absorb b).absorb b = a.absorb b ∧
    (a.absorb b).absorb c = a.absorb (b.absorb c) ∧
    (∀ source target, (a.absorb b).references.Refers source target ↔
      if source ∈ b.classes then b.references.Refers source target
      else a.references.Refers source target ∨ b.references.Refers source target) ∧
    (∀ source, source ∈ (a.absorb b).references ↔
      if source ∈ b.classes then ∃ target, b.references.Refers source target
      else source ∈ a.references ∨ ∃ target, b.references.Refers source target) ∧
    (∀ layout, (a.absorb b).classes.get? layout =
      (b.classes.get? layout).or (a.classes.get? layout)) ∧
    (a.absorb b).dependencyClasses = a.dependencyClasses ∧
    (a.absorb b).fingerprints = a.fingerprints := by
  refine ⟨absorb_again, absorb_assoc, fun source target => ?_, fun source => ?_, fun layout => ?_,
    rfl, rfl⟩
  · rw [refers_absorb]
    split
    next hclass => simp [hclass]
    next hclass => simp [hclass, or_comm]
  · rw [mem_references_absorb]
    split
    next hclass => simp [hclass]
    next hclass => simp [hclass, or_comm]
  · exact Table.get?_override _ _ _

end BuildLog

end LayoutRebuild
