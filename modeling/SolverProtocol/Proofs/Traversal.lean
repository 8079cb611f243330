import Mathlib.Data.List.Forall2

namespace SolverProtocol

theorem isOk_iff {α ε : Type} {access : Except ε α} :
    access.isOk = true ↔ ∃ value, access = .ok value := by
  cases access <;> simp [Except.isOk, Except.toBool]

theorem bind_eq_ok_iff {α β ε : Type} {first : Except ε α} {next : α → Except ε β} {result : β} :
    (first >>= next) = .ok result ↔ ∃ value, first = .ok value ∧ next value = .ok result := by
  cases first <;> simp [bind, Except.bind]

theorem bind_eq_error_iff {α β ε : Type} {first : Except ε α} {next : α → Except ε β} {e : ε} :
    (first >>= next) = .error e ↔
      first = .error e ∨ ∃ value, first = .ok value ∧ next value = .error e := by
  cases first <;> simp [bind, Except.bind]

/-- Steps taken in turn succeed if each of them does, and each result stands for its step. -/
theorem mapM_eq_ok_iff {α β ε : Type} {step : α → Except ε β} {items : List α} {results : List β} :
    items.mapM step = .ok results ↔
      List.Forall₂ (fun item result => step item = .ok result) items results := by
  induction items generalizing results with
  | nil => cases results <;> simp [pure, Except.pure]
  | cons item rest ih =>
    rw [List.mapM_cons]
    cases first : step item with
    | error e => cases results <;> simp [bind, Except.bind, first]
    | ok value =>
      cases more : rest.mapM step with
      | error e => cases results <;> simp [bind, Except.bind, ← ih, more, first]
      | ok values =>
        cases results <;> simp [bind, Except.bind, pure, Except.pure, ← ih, more, first]

theorem exists_forall₂_iff {α β : Type} {R : α → β → Prop} {items : List α} :
    (∃ results, List.Forall₂ R items results) ↔ ∀ item ∈ items, ∃ result, R item result := by
  induction items with
  | nil => simp
  | cons item rest ih =>
    rw [List.forall_mem_cons, ← ih]
    constructor
    · rintro ⟨_, _ | ⟨here, later⟩⟩
      exact ⟨⟨_, here⟩, ⟨_, later⟩⟩
    · rintro ⟨⟨result, here⟩, ⟨results, later⟩⟩
      exact ⟨result :: results, .cons here later⟩

theorem exists_mapM_iff {α β ε : Type} {step : α → Except ε β} {items : List α} :
    (∃ results, items.mapM step = .ok results) ↔
      ∀ item ∈ items, ∃ result, step item = .ok result := by
  simp only [mapM_eq_ok_iff, exists_forall₂_iff]

theorem exists_of_forall₂_right {α β : Type} {R : α → β → Prop} {items : List α} {results : List β}
    (related : List.Forall₂ R items results) {result : β} (member : result ∈ results) :
    ∃ item ∈ items, R item result := by
  induction related with
  | nil => cases member
  | @cons item other items results here rest ih =>
    rcases List.mem_cons.mp member with rfl | later
    · exact ⟨item, List.mem_cons_self, here⟩
    · obtain ⟨origin, present, stands⟩ := ih later
      exact ⟨origin, List.mem_cons_of_mem item present, stands⟩

/-- Steps taken in turn fail as the first of them that does. -/
theorem mapM_eq_error_iff {α β ε : Type} {step : α → Except ε β} {items : List α} {e : ε} :
    items.mapM step = .error e ↔
      ∃ before item after, items = before ++ item :: after ∧
        (∀ earlier ∈ before, ∃ result, step earlier = .ok result) ∧ step item = .error e := by
  induction items with
  | nil => simp [pure, Except.pure]
  | cons first rest ih =>
    rw [List.mapM_cons, bind_eq_error_iff]
    constructor
    · intro failed
      obtain here | ⟨value, done, later⟩ := failed
      · exact ⟨[], first, rest, rfl, by simp, here⟩
      · obtain more | ⟨values, -, finished⟩ := bind_eq_error_iff.mp later
        · obtain ⟨before, item, after, rfl, passed, failing⟩ := ih.mp more
          exact ⟨first :: before, item, after, rfl,
            List.forall_mem_cons.mpr ⟨⟨value, done⟩, passed⟩, failing⟩
        · cases finished
    · intro split
      obtain ⟨before, item, after, same, passed, failing⟩ := split
      cases before with
      | nil =>
        cases same
        exact .inl failing
      | cons other before =>
        cases same
        obtain ⟨⟨value, done⟩, passed⟩ := List.forall_mem_cons.mp passed
        have more := ih.mpr ⟨before, item, after, rfl, passed, failing⟩
        exact .inr ⟨value, done, bind_eq_error_iff.mpr (.inl more)⟩

theorem exists_of_mapM_eq_error {α β ε : Type} {step : α → Except ε β} {items : List α} {e : ε}
    (failed : items.mapM step = .error e) : ∃ item ∈ items, step item = .error e := by
  obtain ⟨before, item, after, rfl, -, failing⟩ := mapM_eq_error_iff.mp failed
  exact ⟨item, List.mem_append_right _ List.mem_cons_self, failing⟩

theorem mapM_congr {α β ε : Type} {first second : α → Except ε β} {items : List α}
    (each : ∀ item ∈ items, first item = second item) : items.mapM first = items.mapM second := by
  induction items with
  | nil => rfl
  | cons item rest ih =>
    obtain ⟨here, later⟩ := List.forall_mem_cons.mp each
    rw [List.mapM_cons, List.mapM_cons, here, ih later]

/-- Steps that only check their items fail at the first one that does not pass. -/
theorem mapM_checked {α β ε : Type} {step : α → Except ε β} (valid : α → Bool) {good : α → β}
    {bad : α → ε} {items : List α}
    (each : ∀ a ∈ items, step a = if valid a then .ok (good a) else .error (bad a)) :
    items.mapM step =
      match items.find? fun a => !valid a with
      | some a => .error (bad a)
      | none => .ok (items.map good) := by
  induction items with
  | nil => rfl
  | cons a rest ih =>
    have later := ih fun b member => each b (List.mem_cons_of_mem a member)
    rw [List.mapM_cons, each a List.mem_cons_self, later, List.find?_cons]
    cases valid a with
    | false => rfl
    | true =>
      rw [Bool.not_true]
      dsimp only
      cases rest.find? fun a => !valid a <;> rfl

end SolverProtocol
