namespace SolverProtocol

/-- A finite map from keys to values, with the order in which the keys came in. -/
structure OrderedMap (κ α : Type) where
  entries : List (κ × α)
  nodup_keys : (entries.map Prod.fst).Nodup

namespace OrderedMap

variable {κ α : Type}

@[ext]
theorem ext {m n : OrderedMap κ α} (same : m.entries = n.entries) : m = n := by
  cases m; cases n; cases same; rfl

def empty : OrderedMap κ α := ⟨[], List.nodup_nil⟩

instance : Inhabited (OrderedMap κ α) := ⟨empty⟩

def keys (m : OrderedMap κ α) : List κ :=
  m.entries.map Prod.fst

def size (m : OrderedMap κ α) : Nat :=
  m.entries.length

def isEmpty (m : OrderedMap κ α) : Bool :=
  m.entries.isEmpty

variable [DecidableEq κ]

namespace Entries

def find? (key : κ) : List (κ × α) → Option α
  | [] => none
  | (k, value) :: rest => if k = key then some value else find? key rest

def insert (key : κ) (value : α) : List (κ × α) → List (κ × α)
  | [] => [(key, value)]
  | (k, old) :: rest => if k = key then (key, value) :: rest else (k, old) :: insert key value rest

def erase (key : κ) (entries : List (κ × α)) : List (κ × α) :=
  entries.filter fun entry => decide (entry.1 ≠ key)

theorem keys_insert (key : κ) (value : α) (entries : List (κ × α)) :
    (insert key value entries).map Prod.fst =
      if key ∈ entries.map Prod.fst then entries.map Prod.fst
      else entries.map Prod.fst ++ [key] := by
  induction entries with
  | nil => simp [insert]
  | cons entry rest ih =>
    rcases entry with ⟨k, old⟩
    by_cases same : k = key
    · subst same; simp [insert]
    · have other : key ≠ k := fun h => same h.symm
      simp only [insert, if_neg same, List.map_cons, ih, List.mem_cons, other, false_or]
      split <;> simp

theorem insert_of_not_mem {key : κ} (value : α) {entries : List (κ × α)}
    (fresh : key ∉ entries.map Prod.fst) :
    insert key value entries = entries ++ [(key, value)] := by
  induction entries with
  | nil => rfl
  | cons entry rest ih =>
    rw [List.map_cons, List.mem_cons, not_or] at fresh
    have other : entry.1 ≠ key := fun same => fresh.1 same.symm
    simp only [insert, if_neg other, ih fresh.2, List.cons_append]

theorem keys_erase (key : κ) (entries : List (κ × α)) :
    (erase key entries).map Prod.fst =
      (entries.map Prod.fst).filter (fun k => decide (k ≠ key)) := by
  simp [erase, List.filter_map, Function.comp_def]

theorem find?_insert (key other : κ) (value : α) (entries : List (κ × α)) :
    find? other (insert key value entries) =
      if key = other then some value else find? other entries := by
  induction entries with
  | nil => simp [insert, find?]
  | cons entry rest ih =>
    rcases entry with ⟨k, old⟩
    by_cases atKey : k = key
    · subst atKey
      by_cases same : k = other <;> simp [insert, find?, same]
    · by_cases atOther : k = other
      · subst atOther
        have apart : key ≠ k := fun h => atKey h.symm
        simp [insert, find?, atKey, apart]
      · simp only [insert, if_neg atKey, find?, if_neg atOther, ih]

theorem find?_erase (key other : κ) (entries : List (κ × α)) :
    find? other (erase key entries) = if key = other then none else find? other entries := by
  induction entries with
  | nil => simp [erase, find?]
  | cons entry rest ih =>
    rcases entry with ⟨k, value⟩
    by_cases atKey : k = key
    · subst atKey
      simp only [erase, ne_eq, not_true_eq_false, decide_false, Bool.false_eq_true,
        not_false_eq_true, List.filter_cons_of_neg] at ih ⊢
      rw [ih]
      by_cases same : k = other <;> simp [find?, same]
    · have kept : erase key ((k, value) :: rest) = (k, value) :: erase key rest := by
        simp [erase, atKey]
      by_cases atOther : k = other
      · subst atOther
        have apart : key ≠ k := fun h => atKey h.symm
        simp [kept, find?, apart]
      · simp only [kept, find?, if_neg atOther, ih]

theorem isSome_find? (key : κ) (entries : List (κ × α)) :
    (find? key entries).isSome = decide (key ∈ entries.map Prod.fst) := by
  induction entries with
  | nil => simp [find?]
  | cons entry rest ih =>
    rcases entry with ⟨k, value⟩
    by_cases same : k = key
    · subst same; simp [find?]
    · have other : key ≠ k := fun h => same h.symm
      simp [find?, same, ih, other]

theorem find?_eq_some_iff {key : κ} {value : α} {entries : List (κ × α)}
    (distinct : (entries.map Prod.fst).Nodup) :
    find? key entries = some value ↔ (key, value) ∈ entries := by
  induction entries with
  | nil => simp [find?]
  | cons entry rest ih =>
    rcases entry with ⟨k, old⟩
    simp only [List.map_cons, List.nodup_cons] at distinct
    by_cases same : k = key
    · subst same
      have missing : (k, value) ∉ rest := fun present =>
        distinct.1 (List.mem_map.mpr ⟨_, present, rfl⟩)
      simp [find?, missing, eq_comm]
    · have other : key ≠ k := fun h => same h.symm
      simp [find?, same, other, ih distinct.2]

end Entries

def find? (m : OrderedMap κ α) (key : κ) : Option α :=
  Entries.find? key m.entries

def contains (m : OrderedMap κ α) (key : κ) : Bool :=
  (m.find? key).isSome

/-- Replaces the value of a known key in place and appends a new one. -/
def insert (m : OrderedMap κ α) (key : κ) (value : α) : OrderedMap κ α where
  entries := Entries.insert key value m.entries
  nodup_keys := by
    rw [Entries.keys_insert]
    split
    · exact m.nodup_keys
    · rename_i fresh
      refine List.nodup_append.mpr ⟨m.nodup_keys, by simp, ?_⟩
      intro k member k' isKey same
      exact fresh (List.mem_singleton.mp isKey ▸ same ▸ member)

def erase (m : OrderedMap κ α) (key : κ) : OrderedMap κ α where
  entries := Entries.erase key m.entries
  nodup_keys := by
    rw [Entries.keys_erase]
    exact m.nodup_keys.filter _

/-- Inserts the pairs in turn, so the last value of a repeated key stays. -/
def insertAll (m : OrderedMap κ α) (pairs : List (κ × α)) : OrderedMap κ α :=
  pairs.foldl (fun m pair => m.insert pair.1 pair.2) m

@[simp]
theorem find?_empty (key : κ) : (empty : OrderedMap κ α).find? key = none := rfl

theorem find?_insert (m : OrderedMap κ α) (key other : κ) (value : α) :
    (m.insert key value).find? other = if key = other then some value else m.find? other :=
  Entries.find?_insert key other value m.entries

@[simp]
theorem find?_insert_self (m : OrderedMap κ α) (key : κ) (value : α) :
    (m.insert key value).find? key = some value := by
  simp [find?_insert]

theorem find?_insert_of_ne (m : OrderedMap κ α) {key other : κ} (value : α)
    (differ : key ≠ other) : (m.insert key value).find? other = m.find? other := by
  simp [find?_insert, differ]

theorem find?_erase (m : OrderedMap κ α) (key other : κ) :
    (m.erase key).find? other = if key = other then none else m.find? other :=
  Entries.find?_erase key other m.entries

theorem find?_eq_some_iff {m : OrderedMap κ α} {key : κ} {value : α} :
    m.find? key = some value ↔ (key, value) ∈ m.entries :=
  Entries.find?_eq_some_iff m.nodup_keys

theorem insertAll_append (m : OrderedMap κ α) (first second : List (κ × α)) :
    m.insertAll (first ++ second) = (m.insertAll first).insertAll second :=
  List.foldl_append ..

theorem find?_insertAll_of_not_mem {m : OrderedMap κ α} {pairs : List (κ × α)} {key : κ}
    (absent : key ∉ pairs.map Prod.fst) : (m.insertAll pairs).find? key = m.find? key := by
  induction pairs generalizing m with
  | nil => rfl
  | cons pair rest ih =>
    rw [List.map_cons, List.mem_cons, not_or] at absent
    have apart : pair.1 ≠ key := fun same => absent.1 same.symm
    exact (ih absent.2).trans (find?_insert_of_ne m pair.2 apart)

/-- The last value of a repeated key is the one that stays. -/
theorem find?_insertAll_last {m : OrderedMap κ α} {before later : List (κ × α)} {key : κ}
    {value : α} (last : key ∉ later.map Prod.fst) :
    (m.insertAll (before ++ (key, value) :: later)).find? key = some value := by
  rw [insertAll_append]
  exact (find?_insertAll_of_not_mem last).trans (find?_insert_self ..)

omit [DecidableEq κ] in
@[simp]
theorem keys_empty : (empty : OrderedMap κ α).keys = [] := rfl

omit [DecidableEq κ] in
theorem length_keys (m : OrderedMap κ α) : m.keys.length = m.size :=
  List.length_map ..

theorem contains_eq (m : OrderedMap κ α) (key : κ) : m.contains key = decide (key ∈ m.keys) :=
  Entries.isSome_find? key m.entries

@[simp]
theorem contains_iff {m : OrderedMap κ α} {key : κ} : m.contains key = true ↔ key ∈ m.keys := by
  simp [contains_eq]

theorem mem_keys_iff {m : OrderedMap κ α} {key : κ} :
    key ∈ m.keys ↔ ∃ value, m.find? key = some value := by
  rw [← contains_iff, contains, Option.isSome_iff_exists]

theorem mem_keys_of_find? {m : OrderedMap κ α} {key : κ} {value : α}
    (found : m.find? key = some value) : key ∈ m.keys :=
  mem_keys_iff.mpr ⟨value, found⟩

theorem find?_eq_none_iff {m : OrderedMap κ α} {key : κ} :
    m.find? key = none ↔ key ∉ m.keys := by
  rw [mem_keys_iff, Option.eq_none_iff_forall_ne_some, not_exists]

theorem keys_insert (m : OrderedMap κ α) (key : κ) (value : α) :
    (m.insert key value).keys = if key ∈ m.keys then m.keys else m.keys ++ [key] :=
  Entries.keys_insert key value m.entries

theorem keys_insert_of_mem {m : OrderedMap κ α} {key : κ} (value : α) (known : key ∈ m.keys) :
    (m.insert key value).keys = m.keys := by
  simp [keys_insert, known]

theorem keys_insert_of_not_mem {m : OrderedMap κ α} {key : κ} (value : α)
    (fresh : key ∉ m.keys) : (m.insert key value).keys = m.keys ++ [key] := by
  simp [keys_insert, fresh]

theorem mem_keys_insert {m : OrderedMap κ α} {key other : κ} {value : α} :
    other ∈ (m.insert key value).keys ↔ other ∈ m.keys ∨ other = key := by
  rw [keys_insert]
  split
  · rename_i known
    exact ⟨.inl, fun member => member.elim id fun same => same ▸ known⟩
  · simp

theorem forall_mem_keys_insert {m : OrderedMap κ α} {P : κ → Prop} (old : ∀ k ∈ m.keys, P k)
    {key : κ} (new : P key) {value : α} : ∀ k ∈ (m.insert key value).keys, P k :=
  fun k member => (mem_keys_insert.mp member).elim (old k) fun same => same ▸ new

theorem keys_erase (m : OrderedMap κ α) (key : κ) :
    (m.erase key).keys = m.keys.filter (fun k => decide (k ≠ key)) :=
  Entries.keys_erase key m.entries

theorem mem_keys_erase {m : OrderedMap κ α} {key other : κ} :
    other ∈ (m.erase key).keys ↔ other ∈ m.keys ∧ other ≠ key := by
  simp [keys_erase]

theorem mem_keys_erase_mono {β : Type} {m : OrderedMap κ α} {n : OrderedMap κ β}
    (known : ∀ k ∈ m.keys, k ∈ n.keys) (key : κ) :
    ∀ k ∈ (m.erase key).keys, k ∈ (n.erase key).keys := by
  intro k member
  obtain ⟨present, other⟩ := mem_keys_erase.mp member
  exact mem_keys_erase.mpr ⟨known k present, other⟩

theorem mem_keys_insertAll {m : OrderedMap κ α} {pairs : List (κ × α)} {other : κ} :
    other ∈ (m.insertAll pairs).keys ↔ other ∈ m.keys ∨ other ∈ pairs.map Prod.fst := by
  induction pairs generalizing m with
  | nil => simp [insertAll]
  | cons pair rest ih =>
    change other ∈ ((m.insert pair.1 pair.2).insertAll rest).keys ↔ _
    rw [ih, mem_keys_insert, List.map_cons, List.mem_cons, or_assoc]

end OrderedMap

end SolverProtocol
