import Mathlib.Logic.Function.Basic
import SolverProtocol.Proofs.Store.Write

/-! The two maps from names mirror the names in the records. Variables and constraints keep their
names in the same way, so what follows is said once, for records of any kind. -/

namespace SolverProtocol.Store

open Function

section Names

variable {κ ρ : Type} [DecidableEq κ]

/-- The name in the record of a key, if there is a record. -/
def nameOf? (records : OrderedMap κ ρ) (name : ρ → String) (key : κ) : Option String :=
  (records.find? key).map name

/-- A name leads to what has it, and the empty name to nothing. -/
def NamesMatch (names : OrderedMap String κ) (nameOf : κ → Option String) : Prop :=
  ∀ name key, names.find? name = some key ↔ name ≠ "" ∧ nameOf key = some name

theorem nameOf?_insert (records : OrderedMap κ ρ) (name : ρ → String) (key : κ) (record : ρ) :
    nameOf? (records.insert key record) name =
      update (nameOf? records name) key (some (name record)) := by
  funext other
  by_cases same : other = key
  · subst same; simp [nameOf?]
  · simp [nameOf?, OrderedMap.find?_insert, same, Ne.symm same]

theorem nameOf?_erase (records : OrderedMap κ ρ) (name : ρ → String) (key : κ) :
    nameOf? (records.erase key) name = update (nameOf? records name) key none := by
  funext other
  by_cases same : other = key
  · subst same; simp [nameOf?, OrderedMap.find?_erase]
  · simp [nameOf?, OrderedMap.find?_erase, same, Ne.symm same]

theorem nameOf?_of_find? {records : OrderedMap κ ρ} {name : ρ → String} {key : κ} {record : ρ}
    (found : records.find? key = some record) : nameOf? records name key = some (name record) := by
  simp [nameOf?, found]

/-- Only something with a record has a name. -/
theorem mem_keys_of_nameOf? {records : OrderedMap κ ρ} {name : ρ → String} {key : κ}
    {held : String} (named : nameOf? records name key = some held) : key ∈ records.keys := by
  obtain ⟨record, found, -⟩ := Option.map_eq_some_iff.mp named
  exact OrderedMap.mem_keys_of_find? found

/-- A record changed under the same name leaves all names as they were. -/
private theorem nameOf?_insert_same {records : OrderedMap κ ρ} {name : ρ → String} {key : κ}
    {record changed : ρ} (found : records.find? key = some record)
    (sameName : name changed = name record) :
    nameOf? (records.insert key changed) name = nameOf? records name := by
  rw [nameOf?_insert, sameName, ← nameOf?_of_find? found, update_eq_self]

variable {names : OrderedMap String κ} {nameOf : κ → Option String} {key : κ}

omit [DecidableEq κ] in
theorem NamesMatch.unique (valid : NamesMatch names nameOf) {name : String} (named : name ≠ "")
    {first second : κ} (one : nameOf first = some name) (other : nameOf second = some name) :
    first = second := by
  have found := (valid name first).mpr ⟨named, one⟩
  rw [(valid name second).mpr ⟨named, other⟩] at found
  exact (Option.some.inj found).symm

/-- What comes without a name changes no lookup. -/
theorem NamesMatch.unnamed (valid : NamesMatch names nameOf) (fresh : nameOf key = none) :
    NamesMatch names (update nameOf key (some "")) := by
  intro name other
  rw [valid name other]
  by_cases same : other = key
  · subst same; simp [fresh, eq_comm]
  · simp [same]

theorem NamesMatch.release (valid : NamesMatch names nameOf) {previous : String}
    (held : nameOf key = some previous) :
    NamesMatch (releaseName names previous) (update nameOf key none) := by
  intro name other
  unfold releaseName
  by_cases same : other = key
  · subst same
    simp only [update_self, reduceCtorEq, and_false, iff_false]
    intro found
    split at found
    · rename_i unnamed
      have named := (valid name other).mp found
      exact named.1 ((Option.some.inj (named.2.symm.trans held)).trans unnamed)
    · simp only [OrderedMap.find?_erase] at found
      split at found
      · cases found
      · rename_i differ
        exact differ (Option.some.inj (held.symm.trans ((valid name other).mp found).2))
  · simp only [update_of_ne same]
    split
    · exact valid name other
    · rename_i named
      rw [OrderedMap.find?_erase]
      split
      · rename_i holder
        subst holder
        simp only [reduceCtorEq, false_iff, not_and]
        exact fun _ also => same (valid.unique named also held)
      · exact valid name other

/-- Something without a record takes a name that nothing has. -/
private theorem NamesMatch.assign (valid : NamesMatch names nameOf) (fresh : nameOf key = none)
    {name : String} (named : name ≠ "") (free : ∀ other, nameOf other ≠ some name) :
    NamesMatch (names.insert name key) (update nameOf key (some name)) := by
  intro wanted other
  rw [OrderedMap.find?_insert]
  by_cases same : other = key
  · subst same
    by_cases asked : name = wanted
    · subst asked; simp [named]
    · simp [asked, valid wanted other, fresh]
  · by_cases asked : name = wanted
    · subst asked; simp [same, Ne.symm same, free other]
    · simp [asked, same, valid wanted other]

theorem NamesMatch.nameTaken_iff (valid : NamesMatch names nameOf) {name : String} :
    nameTaken names key name = true ↔
      name ≠ "" ∧ ∃ other, other ≠ key ∧ nameOf other = some name := by
  simp only [nameTaken, Option.any_eq_true, decide_eq_true_iff]
  constructor
  · rintro ⟨other, found, apart⟩
    obtain ⟨named, held⟩ := (valid name other).mp found
    exact ⟨named, other, apart, held⟩
  · rintro ⟨named, other, apart, held⟩
    exact ⟨other, (valid name other).mpr ⟨named, held⟩, apart⟩

/-- A name is free for a key if nothing else has it. -/
theorem NamesMatch.nameTaken_eq_false_iff (valid : NamesMatch names nameOf) {name : String} :
    nameTaken names key name = false ↔
      name = "" ∨ ∀ other, nameOf other = some name → other = key := by
  rw [← Bool.not_eq_true, valid.nameTaken_iff]
  constructor
  · intro free
    by_cases named : name = ""
    · exact .inl named
    · right
      intro other held
      by_contra apart
      exact free ⟨named, other, apart, held⟩
  · rintro free ⟨named, other, apart, held⟩
    rcases free with unnamed | own
    · exact named unnamed
    · exact apart (own other held)

theorem NamesMatch.reassign (valid : NamesMatch names nameOf) {previous name : String}
    (held : nameOf key = some previous) (free : nameTaken names key name = false) :
    NamesMatch (reassignName names key previous name) (update nameOf key (some name)) := by
  have released := valid.release held
  have again : update (update nameOf key none) key (some name) = update nameOf key (some name) :=
    update_idem ..
  rw [← again]
  unfold reassignName
  split
  · rename_i unnamed
    subst unnamed
    exact released.unnamed (by simp)
  · rename_i named
    refine released.assign (by simp) named ?_
    intro other
    by_cases same : other = key
    · subst same; simp
    · rw [update_of_ne same]
      intro held
      have taken := valid.nameTaken_iff.mpr ⟨named, other, same, held⟩
      exact Bool.false_ne_true (free.symm.trans taken)

end Names

/-- Both maps of a store match its records. -/
structure Named (s : Store) : Prop where
  ofVariables : NamesMatch s.variableNames (nameOf? s.variableRecords VariableRecord.name)
  ofConstraints : NamesMatch s.constraintNames (nameOf? s.constraintRecords ConstraintRecord.name)

variable {s after : Store}

theorem Write.named (write : Write s after) (valid : s.Named) : after.Named := by
  cases write with
  | settings | resize | result | row => exact ⟨valid.ofVariables, valid.ofConstraints⟩
  | variableRecord found sameName =>
    refine ⟨?_, valid.ofConstraints⟩
    simpa only [setVariableRecord, nameOf?_insert_same found sameName] using valid.ofVariables
  | constraintRecord found sameName =>
    refine ⟨valid.ofVariables, ?_⟩
    simpa only [setConstraintRecord, nameOf?_insert_same found sameName] using valid.ofConstraints
  | variableName found free =>
    refine ⟨?_, valid.ofConstraints⟩
    simpa only [setVariableRecord, nameOf?_insert] using
      valid.ofVariables.reassign (nameOf?_of_find? found) free
  | constraintName found free =>
    refine ⟨valid.ofVariables, ?_⟩
    simpa only [setConstraintRecord, nameOf?_insert] using
      valid.ofConstraints.reassign (nameOf?_of_find? found) free

end SolverProtocol.Store
