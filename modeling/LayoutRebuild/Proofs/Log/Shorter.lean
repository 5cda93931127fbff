import LayoutRebuild.Log.File
import Mathlib.Data.List.Forall2

/-!
# A log of which something is left out

Items and members are written one after the other.  If some of an array or of an object are left out,
what is written is still found in the longer text, in the same order (`Json.Value.Within`), so it does
not take more bytes (`Json.Value.Within.size_le`).  A log that lacks some classes and references of another
one is therefore no longer than it (`LogFile.size_ofLog_le`): a device that has taken the one takes the
other.
-/

namespace LayoutRebuild

namespace Json

open List

/-- What is written of the first value is found in what is written of the second one. -/
def Value.Within (v w : Value) : Prop :=
  ∀ layout depth, v.write layout depth <+ w.write layout depth

namespace Value

variable {layout : Layout} {depth : Nat} {items items' : List Value}
  {members members' : List (String × Value)}

theorem Within.refl (v : Value) : v.Within v := fun _ _ => .refl _

theorem Within.trans {u v w : Value} (h : u.Within v) (h' : v.Within w) : u.Within w :=
  fun layout depth => (h layout depth).trans (h' layout depth)

theorem bracket_sublist {opening closing : Char} {text text' : List Char} (h : text <+ text') :
    opening :: text ++ [closing] <+ opening :: text' ++ [closing] :=
  (h.cons_cons opening).append (.refl _)

/-! ## Items that are left out -/

theorem writeItems_sublist (h : items <+ items') :
    writeItems layout depth items <+ writeItems layout depth items' := by
  induction h with
  | slnil => exact .refl _
  | cons item _ ih =>
    rw [writeItems.eq_2]
    exact ih.trans (sublist_append_right _ _)
  | cons_cons item _ ih =>
    rw [writeItems, writeItems]
    exact (Sublist.refl _).append ih

/-- The first item is written like the others, but without a comma. -/
theorem write_array (h : items ≠ []) : (array items).write layout depth =
    '[' :: ((writeItems layout (depth + 1) items).tail ++ layout.gap depth) ++ [']'] := by
  cases items with
  | nil => exact absurd rfl h
  | cons item rest => simp [write, writeItems]

theorem within_array (h : items <+ items') : (array items).Within (array items') := by
  intro layout depth
  by_cases hempty : items' = []
  · rw [hempty, sublist_nil] at h
    rw [h, hempty]
  · rw [write_array hempty]
    by_cases hnone : items = []
    · rw [hnone, write]
      exact bracket_sublist (nil_sublist _)
    · rw [write_array hnone]
      exact bracket_sublist ((writeItems_sublist h).tail.append (.refl _))

/-! ## Members that are left out, or of which something is left out -/

/-- The members have the same keys, and values of which something may be left out. -/
abbrev MembersWithin (members members' : List (String × Value)) : Prop :=
  SublistForall₂ (fun m m' => m.1 = m'.1 ∧ m.2.Within m'.2) members members'

theorem writeMembers_sublist (h : MembersWithin members members') :
    writeMembers layout depth members <+ writeMembers layout depth members' := by
  induction h with
  | nil => exact nil_sublist _
  | @cons m m' _ _ hsame _ ih =>
    rw [writeMembers.eq_def, writeMembers.eq_def]
    simp only [hsame.1]
    exact ((Sublist.refl _).append (hsame.2 layout depth)).append ih
  | cons_right _ ih =>
    rw [writeMembers.eq_2]
    exact ih.trans (sublist_append_right _ _)

theorem write_object (h : members ≠ []) : (object members).write layout depth =
    '\x7b' :: ((writeMembers layout (depth + 1) members).tail ++ layout.gap depth) ++ ['\x7d'] := by
  cases members with
  | nil => exact absurd rfl h
  | cons m rest => simp [write, writeMembers]

theorem within_object (h : MembersWithin members members') :
    (object members).Within (object members') := by
  intro layout depth
  by_cases hempty : members' = []
  · subst hempty
    cases h
    exact .refl _
  · rw [write_object hempty]
    by_cases hnone : members = []
    · rw [hnone, write]
      exact bracket_sublist (nil_sublist _)
    · rw [write_object hnone]
      exact bracket_sublist ((writeMembers_sublist h).tail.append (.refl _))

/-! ## Bytes -/

theorem size_utf8Encode_le {chars chars' : List Char} (h : chars <+ chars') :
    chars.utf8Encode.size ≤ chars'.utf8Encode.size := by
  induction h with
  | slnil => exact Nat.le_refl _
  | cons c _ ih =>
    rw [utf8Encode_cons, ByteArray.size_append]
    omega
  | @cons_cons rest rest' c _ ih =>
    have hchar (l : List Char) : (c :: l).utf8Encode.size =
        [c].utf8Encode.size + l.utf8Encode.size := by rw [utf8Encode_cons, ByteArray.size_append]
    rw [hchar rest, hchar rest']
    omega

/-- What is left out of a value makes its text no longer. -/
theorem Within.size_le {v w : Value} (h : v.Within w) :
    v.indented.toUTF8.size ≤ w.indented.toUTF8.size :=
  size_utf8Encode_le (h .indented 0)

end Value

end Json

/-! ## Tables and logs -/

section Table

variable {α : Type} {f : α → Json.Value}

/-- Rows of a table may be left out. -/
theorem Table.within_filter (t : Table String α) (keep : String → α → Bool) :
    ((t.filter keep).toJson f).Within (t.toJson f) := by
  have hrows (rows : List (String × α)) : Json.Value.MembersWithin
      ((rows.filter fun e => keep e.1 e.2).map fun e => (e.1, f e.2))
      (rows.map fun e => (e.1, f e.2)) := by
    induction rows with
    | nil => exact .nil
    | cons e rest ih =>
      rw [List.map_cons, List.filter_cons]
      split
      · rw [List.map_cons]
        exact .cons ⟨rfl, .refl _⟩ ih
      · exact .cons_right ih
  exact Json.Value.within_object (hrows t.entries)

/-- Something may be left out of each row of a table. -/
theorem Table.within_map (t : Table String α) {g : String → α → α}
    (h : ∀ key value, (f (g key value)).Within (f value)) :
    ((t.map g).toJson f).Within (t.toJson f) := by
  have hrows (rows : List (String × α)) : Json.Value.MembersWithin
      ((rows.map fun e => (e.1, g e.1 e.2)).map fun e => (e.1, f e.2))
      (rows.map fun e => (e.1, f e.2)) := by
    induction rows with
    | nil => exact .nil
    | cons e rest ih => exact .cons ⟨rfl, h e.1 e.2⟩ ih
  exact Json.Value.within_object (hrows t.entries)

end Table

theorem References.within_restrict (r : References) (keep : String → String → Bool) :
    ((r.restrict keep).toJson (SortedSet.toJson .text)).Within (r.toJson (SortedSet.toJson .text)) :=
  (Table.within_filter _ _).trans
    (Table.within_map r fun _ _ => Json.Value.within_array ((List.filter_sublist.map _).map _))

/-- To leave classes and references out of a log makes its file no longer. -/
theorem LogFile.size_ofLog_le (log : BuildLog) (keepClass : String → BindingClass → Bool)
    (keep : String → String → Bool) :
    (LogFile.ofLog { log with
      classes := log.classes.filter keepClass
      references := log.references.restrict keep }).toText.toUTF8.size ≤
        (LogFile.ofLog log).toText.toUTF8.size := by
  refine Json.Value.Within.size_le (Json.Value.within_object ?_)
  refine .cons ⟨rfl, .refl _⟩ (.cons ⟨rfl, log.classes.within_filter keepClass⟩ ?_)
  refine .cons ⟨rfl, log.references.within_restrict keep⟩ ?_
  exact .cons ⟨rfl, .refl _⟩ (.cons ⟨rfl, .refl _⟩ .nil)

/-- To leave classes out of an artifact makes it no longer. -/
theorem LogFile.size_ofClasses_le (classes : ClassTable) (keep : String → BindingClass → Bool) :
    (LogFile.ofClasses (classes.filter keep)).toText.toUTF8.size ≤
      (LogFile.ofClasses classes).toText.toUTF8.size := by
  refine Json.Value.Within.size_le (Json.Value.within_object ?_)
  exact .cons ⟨rfl, .refl _⟩ (.cons ⟨rfl, classes.within_filter keep⟩ .nil)

end LayoutRebuild
