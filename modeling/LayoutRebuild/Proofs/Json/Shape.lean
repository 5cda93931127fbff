import LayoutRebuild.Proofs.Json.Exact

/-!
# The shape of a record

A record that is written as an object can be read exactly if its members fit the fields
(`Apart.exists_foldsTo_iff`): every key is a string, no field is repeated, and the value of every field
is one that the field accepts on its own.  The order of the members and what stands under unknown keys
do not matter.
-/

namespace LayoutRebuild.Json

open Reader

variable {σ : Type}

/-- The fields of a record have nothing to do with each other: a value that is stored in one of them
sets that field only, and the values that a field accepts do not depend on what has been stored. -/
structure Apart (fields : List (Reader.Field σ)) : Prop where
  exact : ExactFields fields
  find : ∀ field ∈ fields, fields.find? (·.name == field.name) = some field
  accepts : ∀ field ∈ fields, ∀ acc acc' tree,
    Accepts (field.read acc) tree → Accepts (field.read acc') tree
  isSet : ∀ field ∈ fields, ∀ other ∈ fields, ∀ acc next tree, Takes (field.read acc) tree next →
    other.isSet next = (other.name == field.name || other.isSet acc)

/-- What a field stores is made of what it reads. -/
theorem Takes.exists_of_map {α β : Type} {r : Reader α} {f : α → β} {tree : Tree} {b : β}
    (h : Takes (r.map f) tree b) : ∃ a, f a = b := by
  obtain ⟨a, -, heq⟩ := map_eq_ok.mp (h [])
  exact ⟨a, heq⟩

/-- The members of an object are such that a record can be read from them: every key is a string, no
field is repeated or has been read before, and every field has a value that it accepts. -/
structure Fits (fields : List (Reader.Field σ)) (acc : σ) (members : List (Option String × Tree)) :
    Prop where
  keys : ∀ m ∈ members, m.1.isSome = true
  once : ∀ field ∈ fields,
    members.countP (·.1 == some field.name) ≤ if field.isSet acc then 0 else 1
  accepted : ∀ field ∈ fields, ∀ value, (some field.name, value) ∈ members →
    Accepts (field.read acc) value

variable {fields : List (Reader.Field σ)} {acc next : σ} {name : String} {value : Tree}
  {members : List (Option String × Tree)}

theorem fits_nil : Fits fields acc [] :=
  ⟨by simp, by simp, by simp⟩

/-- A member with an unknown key makes no difference. -/
theorem fits_cons_unknown (hfield : fields.find? (·.name == name) = none) :
    Fits fields acc ((some name, value) :: members) ↔ Fits fields acc members := by
  have hother (field : Reader.Field σ) (h : field ∈ fields) : name ≠ field.name := by
    rintro rfl
    simpa using List.find?_eq_none.mp hfield field h
  constructor
  · intro h
    refine ⟨fun m hm => h.keys m (List.mem_cons_of_mem _ hm), fun field hmem => ?_,
      fun field hmem value hvalue => h.accepted field hmem value (List.mem_cons_of_mem _ hvalue)⟩
    simpa [hother field hmem] using h.once field hmem
  · intro h
    refine ⟨fun m hm => ?_, fun field hmem => ?_, fun field hmem value' hvalue => ?_⟩
    · rcases List.mem_cons.mp hm with rfl | hm
      · rfl
      · exact h.keys m hm
    · simpa [hother field hmem] using h.once field hmem
    · rcases List.mem_cons.mp hvalue with heq | hvalue
      · cases heq
        exact absurd rfl (hother field hmem)
      · exact h.accepted field hmem value' hvalue

/-- A member with the key of a field takes the place of the field. -/
theorem Apart.fits_cons (h : Apart fields) {field : Reader.Field σ}
    (hfield : fields.find? (·.name == name) = some field) (hread : Takes (field.read acc) value next) :
    Fits fields acc ((some name, value) :: members) ↔
      field.isSet acc = false ∧ Fits fields next members := by
  have hmem := List.mem_of_find?_eq_some hfield
  obtain rfl : field.name = name := by simpa using List.find?_some hfield
  have hsame (other : Reader.Field σ) (hother : other ∈ fields) (heq : other.name = field.name) :
      other = field := by
    have hfind := h.find other hother
    rwa [heq, hfield, Option.some.injEq, eq_comm] at hfind
  have hhead : ((some field.name, value) :: members).countP (·.1 == some field.name) =
      members.countP (·.1 == some field.name) + 1 := List.countP_cons_of_pos (by simp)
  have htail (other : Reader.Field σ) (hne : other.name ≠ field.name) :
      ((some field.name, value) :: members).countP (·.1 == some other.name) =
        members.countP (·.1 == some other.name) := List.countP_cons_of_neg (by simp [hne.symm])
  constructor
  · intro hfits
    have honce := hfits.once field hmem
    rw [hhead] at honce
    have hset : field.isSet acc = false := by
      cases hset : field.isSet acc with
      | true => simp [hset] at honce
      | false => rfl
    refine ⟨hset, fun m hm => hfits.keys m (List.mem_cons_of_mem _ hm), fun other hother => ?_,
      fun other hother value' hvalue => ?_⟩
    · rw [h.isSet field hmem other hother acc next value hread]
      by_cases heq : other.name = field.name
      · rw [heq]
        simpa [hset] using honce
      · have hlater := hfits.once other hother
        rw [htail other heq] at hlater
        simpa [heq] using hlater
    · exact h.accepts other hother acc next value'
        (hfits.accepted other hother value' (List.mem_cons_of_mem _ hvalue))
  · rintro ⟨hset, hfits⟩
    refine ⟨fun m hm => ?_, fun other hother => ?_, fun other hother value' hvalue => ?_⟩
    · rcases List.mem_cons.mp hm with rfl | hm
      · rfl
      · exact hfits.keys m hm
    · have hlater := hfits.once other hother
      rw [h.isSet field hmem other hother acc next value hread] at hlater
      by_cases heq : other.name = field.name
      · obtain rfl := hsame other hother heq
        rw [hhead, hset]
        simpa using hlater
      · rw [htail other heq]
        simpa [heq] using hlater
    · rcases List.mem_cons.mp hvalue with heq | hvalue
      · obtain ⟨hname, rfl⟩ := Prod.mk.inj heq
        obtain rfl := hsame other hother (Option.some.inj hname)
        exact hread.accepts
      · exact h.accepts other hother next acc value' (hfits.accepted other hother value' hvalue)

/-- A record can be read from the members of an object exactly if they fit. -/
theorem Apart.exists_foldsTo_iff (h : Apart fields) :
    (∃ last, FoldsTo (fieldMember fields) acc members last) ↔ Fits fields acc members := by
  induction members generalizing acc with
  | nil => exact iff_of_true ⟨acc, .nil⟩ fits_nil
  | cons m members ih =>
    obtain ⟨key, value⟩ := m
    cases key with
    | none =>
      refine iff_of_false ?_ fun hfits => ?_
      · rintro ⟨last, hfolds⟩
        cases hfolds
      · simpa using hfits.keys (none, value) List.mem_cons_self
    | some name =>
      cases hfield : fields.find? (·.name == name) with
      | none =>
        rw [fits_cons_unknown hfield, ← ih]
        refine exists_congr fun last => ⟨?_, .cons (fieldMember_unknown hfield value)⟩
        rintro (_ | ⟨head, tail⟩)
        have hsame := (head.eq []).symm.trans (fieldMember_unknown hfield value [])
        cases hsame
        exact tail
      | some field =>
        have hmem := List.mem_of_find?_eq_some hfield
        constructor
        · rintro ⟨last, _ | ⟨head, tail⟩⟩
          have hread := head.eq
          simp only [fieldMember_known hfield] at hread
          cases hset : field.isSet acc with
          | true =>
            rw [hset] at hread
            cases hread []
          | false =>
            rw [hset] at hread
            exact (h.fits_cons hfield hread).mpr ⟨hset, ih.mp ⟨last, tail⟩⟩
        · intro hfits
          have hname : field.name = name := by simpa using List.find?_some hfield
          obtain ⟨next, hread⟩ := (h.exact field hmem acc).accepts_iff.mp <|
            hfits.accepted field hmem value (hname ▸ List.mem_cons_self)
          obtain ⟨hset, hlater⟩ := (h.fits_cons hfield hread).mp hfits
          obtain ⟨last, htail⟩ := ih.mpr hlater
          refine ⟨last, .cons (fun rest => ?_) htail⟩
          rw [fieldMember_known hfield, hset]
          exact hread rest

end LayoutRebuild.Json
