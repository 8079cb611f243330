import Mathlib.Algebra.BigOperators.Group.Finset.Basic
import SolverProtocol.Attribute.Answer

namespace SolverProtocol

variable (indices : List AnyConstraintIndex) (t : ConstraintType)

theorem filterMap_as?_ofType :
    (indices.filter fun c => decide (c.type = t)).filterMap (·.as? t) =
      indices.filterMap (·.as? t) := by
  rw [List.filterMap_filter]
  refine List.filterMap_congr fun c _ => ?_
  by_cases ofType : c.type = t <;> simp [AnyConstraintIndex.as?, ofType]

theorem length_filterMap_as? :
    (indices.filterMap (·.as? t)).length = indices.countP fun c => decide (c.type = t) := by
  rw [List.length_filterMap_eq_countP]
  refine List.countP_congr fun c _ => ?_
  by_cases ofType : c.type = t <;> simp [AnyConstraintIndex.as?, ofType]

private theorem AnyConstraintIndex.map_erase_as? (c : AnyConstraintIndex) :
    (c.as? t).map ConstraintIndex.erase = Option.guard (fun c => decide (c.type = t)) c := by
  obtain ⟨u, value⟩ := c
  by_cases same : u = t
  · subst same
    simp [as?, ConstraintIndex.erase]
  · simp [as?, same, Option.guard]

/-- Nothing is lost of the indices of a type, and nothing is put in. -/
theorem map_erase_filterMap_as? :
    (indices.filterMap (·.as? t)).map ConstraintIndex.erase =
      indices.filter fun c => decide (c.type = t) := by
  rw [List.map_filterMap, ← List.filterMap_eq_filter]
  exact List.filterMap_congr fun c _ => c.map_erase_as? t

private theorem mem_erased_iff {c : AnyConstraintIndex} :
    c ∈ (indices.filterMap (·.as? t)).map ConstraintIndex.erase ↔ c ∈ indices ∧ c.type = t := by
  rw [map_erase_filterMap_as?, List.mem_filter, decide_eq_true_iff]

theorem sum_length_filterMap_as? :
    ∑ t ∈ (indices.map (·.type)).toFinset, (indices.filterMap (·.as? t)).length =
      indices.length := by
  calc
    _ = ∑ t ∈ (indices.map (·.type)).toFinset, (indices.map (·.type)).count t := by
      refine Finset.sum_congr rfl fun t _ => ?_
      rw [length_filterMap_as?, List.count_eq_countP, List.countP_map]
      rfl
    _ = (indices.map (·.type)).length := List.sum_toFinset_count_eq_length _
    _ = indices.length := List.length_map _

namespace Attribute

/-- The listing of the constraints of a type. -/
abbrev listOf (t : ConstraintType) : Attribute :=
  .global (.property (.listOfConstraintIndices t))

/-- The count of the constraints of a type. -/
abbrev numberOf (t : ConstraintType) : Attribute :=
  .global (.property (.numberOfConstraints t))

variable {indices t}

theorem fillFromIndices_own {a : Attribute} {τ : ValueType} {value : τ.Carrier}
    (answer : a.ofIndices? indices = some ⟨τ, value⟩) (slot : Option τ.Carrier) :
    a.fillFromIndices indices slot = (true, some value) := by
  simp only [fillFromIndices, answer, Option.bind_some, ValueType.cast?_self]

theorem fillFromIndices_other {a : Attribute} {σ τ : ValueType} {value : σ.Carrier}
    (answer : a.ofIndices? indices = some ⟨σ, value⟩) (other : τ ≠ σ) (slot : Option τ.Carrier) :
    a.fillFromIndices indices slot = (false, slot) := by
  simp only [fillFromIndices, answer, Option.bind_some,
    ValueType.cast?_of_ne value (Ne.symm other)]

private theorem ofIndices?_listOf : (listOf t).ofIndices? indices =
    some ⟨.list (.constraint t), indices.filterMap (·.as? t)⟩ := rfl

private theorem ofIndices?_numberOf : (numberOf t).ofIndices? indices =
    some ⟨.size, (indices.filterMap (·.as? t)).length⟩ := by
  rw [length_filterMap_as?]
  rfl

end Attribute

open Attribute

/-- What the listings and counts of all types make of the indices. -/
structure AnswersByType (indices : List AnyConstraintIndex) : Prop where
  /-- The listing and the count agree, whatever was in the slot before. -/
  stored : ∀ t, ∃ typed : List (ConstraintIndex t),
    typed.map ConstraintIndex.erase = indices.filter (fun c => decide (c.type = t)) ∧
      (∀ slot, (listOf t).fillFromIndices indices (τ := .list (.constraint t)) slot =
        (true, some typed)) ∧
      ∀ slot, (numberOf t).fillFromIndices indices (τ := .size) slot = (true, some typed.length)
  total : ∀ counts : ConstraintType → Nat,
    (∀ t, ∃ slot, (numberOf t).fillFromIndices indices (τ := .size) slot =
      (true, some (counts t))) →
        ∑ t ∈ (indices.map (·.type)).toFinset, counts t = indices.length
  /-- Each index belongs to the listing of one type only. -/
  listed_once : ∀ c ∈ indices, ∃! t, ∃ slot typed,
    (listOf t).fillFromIndices indices (τ := .list (.constraint t)) slot = (true, some typed) ∧
      c ∈ typed.map ConstraintIndex.erase
  otherSlot : ∀ t (τ : ValueType) (slot : Option τ.Carrier),
    (τ ≠ .list (.constraint t) → (listOf t).fillFromIndices indices slot = (false, slot)) ∧
      (τ ≠ .size → (numberOf t).fillFromIndices indices slot = (false, slot))

theorem answers_by_type (indices : List AnyConstraintIndex) : AnswersByType indices where
  stored t := by
    refine ⟨indices.filterMap (·.as? t), map_erase_filterMap_as? indices t, ?_, ?_⟩
    · exact fillFromIndices_own ofIndices?_listOf
    · exact fillFromIndices_own ofIndices?_numberOf
  total counts each := by
    rw [← sum_length_filterMap_as? indices]
    refine Finset.sum_congr rfl fun t _ => ?_
    obtain ⟨slot, stored⟩ := each t
    rw [fillFromIndices_own ofIndices?_numberOf] at stored
    exact (Option.some.inj (congrArg Prod.snd stored)).symm
  listed_once c member := by
    refine ⟨c.type, ⟨none, _, fillFromIndices_own ofIndices?_listOf none, ?_⟩, ?_⟩
    · exact (mem_erased_iff indices c.type).mpr ⟨member, rfl⟩
    · intro t listed
      obtain ⟨slot, typed, stored, present⟩ := listed
      rw [fillFromIndices_own ofIndices?_listOf] at stored
      obtain rfl := Option.some.inj (congrArg Prod.snd stored)
      exact ((mem_erased_iff indices t).mp present).2.symm
  otherSlot t τ slot :=
    ⟨fun other => fillFromIndices_other ofIndices?_listOf other slot,
      fun other => fillFromIndices_other ofIndices?_numberOf other slot⟩

/-- Types with the same name are told apart. -/
example :
    let real : ConstraintType := ⟨.affine .real, ⟨.lessThan, .real⟩⟩
    let integer : ConstraintType := ⟨.affine .integer, ⟨.lessThan, .real⟩⟩
    real.name = integer.name ∧
      (numberOf real).fillFromIndices [⟨real, 1⟩, ⟨integer, 1⟩] (τ := .size) none =
        (true, some 1) := by
  decide +kernel

end SolverProtocol
