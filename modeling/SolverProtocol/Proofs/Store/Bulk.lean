import SolverProtocol.Proofs.Store.Capability
import SolverProtocol.Proofs.Store.Frame

namespace SolverProtocol

open Number

/-- A double, as the type of the values of one attribute. -/
abbrev PrimalValue (r : Nat) : Type := IndexedAttribute.Value (k := .var) (.primal r)

namespace Store

variable {s after : Store} {r : Nat} {xs : List VariableIndex}

private theorem result?_eq_none_iff : s.result? r = none ↔ ¬(0 < r ∧ r ≤ s.results.length) := by
  rw [← hasResult_iff, hasResult, Bool.not_eq_true, Option.isSome_eq_false_iff,
    Option.isNone_iff_eq_none]

private theorem readPrimals_of_found {result : ResultRecord} (found : s.result? r = some result)
    (xs : List VariableIndex) : s.readPrimals r xs = xs.mapM (s.readVariable (.primal r)) := by
  have each : (fun x => if s.variableRecords.contains x
      then present (.var (.primal r)) (result.variablePrimal.find? x) else notFound (.var x)) =
        s.readVariable (.primal r) := by
    funext x
    unfold readVariable OrderedMap.contains
    cases s.variableRecords.find? x with
    | none => rfl
    | some record =>
      simp only [readResult, Store.result, found, bind, Except.bind]
      rfl
  cases xs with
  | nil => rfl
  | cons x rest =>
    rw [← each]
    simp only [readPrimals, Store.result, found, bind, Except.bind]
    rfl

private theorem readPrimals_of_missing (missing : s.result? r = none) (some : xs ≠ []) :
    s.readPrimals r xs = .error (.invalidResultIndex r s.results.length) := by
  simp [readPrimals, Store.result, missing, some, bind, Except.bind]

private theorem readVariable_of_missing (missing : s.result? r = none) (x : VariableIndex) :
    ¬Succeeds (s.readVariable (.primal r) x) := by
  unfold readVariable
  cases s.variableRecords.find? x with
  | none => simp [Succeeds, notFound]
  | some record => simp [Succeeds, readResult, Store.result, missing, bind, Except.bind]

/-- Every variable is given its value, at the same position. -/
private theorem readPrimals_aligned {values : List Binary64}
    (read : s.readPrimals r xs = .ok values) :
    List.Forall₂ (fun x v => s.readVariable (.primal r) x = .ok v) xs values := by
  cases found : s.result? r with
  | some result => exact mapM_eq_ok_iff.mp ((readPrimals_of_found found xs).symm.trans read)
  | none =>
    by_cases nothing : xs = []
    · subst nothing
      cases read
      exact .nil
    · rw [readPrimals_of_missing found nothing] at read
      cases read

variable (tolerance : Binary64)

/-- Primal values of variables are answered all at once. -/
theorem getMany_primal (s : Store) (r : Nat) (xs : List VariableIndex) :
    (backend tolerance).getMany s (k := .var) (.primal r) xs = (s.readPrimals r xs, s) := by
  cases read : s.readPrimals r xs with
  | error e =>
    have failed : (backend tolerance).readMany s (k := .var) (.primal r) xs = .fail e s := by
      simp only [backend, readMany, read, answerMany]
    rw [Backend.getMany, failed]
    rfl
  | ok values =>
    have count : values.length = xs.length := (readPrimals_aligned read).length_eq.symm
    have answered : (backend tolerance).readMany s (k := .var) (.primal r) xs =
        .reply ⟨.real, values⟩ s := by
      simp only [backend, readMany, read, answerMany]
    have delivered : BulkReply.deliver (k := .var) (.primal r) xs.length ⟨.real, values⟩ none =
        (.ok (), some values) := by
      rw [BulkReply.deliver, if_pos count]
      rfl
    rw [Backend.getMany, answered]
    simp only [Program.reply, Program.run, delivered]
    rfl

/-- What several reads come to together is a matter of what each of them comes to. -/
theorem getMany_congr (count : after.results.length = s.results.length)
    {k : IndexKind} {a : IndexedAttribute k} {indices : List k.Index}
    (each : ∀ index ∈ indices, after.readIndexed a index = s.readIndexed a index) :
    ((backend tolerance).getMany after a indices).1 =
      ((backend tolerance).getMany s a indices).1 := by
  have inTurn := mapM_congr each
  have unhandled (before : s.readMany a indices = .succeed s)
      (later : after.readMany a indices = .succeed after) :
      ((backend tolerance).getMany after a indices).1 =
        ((backend tolerance).getMany s a indices).1 := by
    rw [getMany_each tolerance after a later, getMany_each tolerance s a before, getEach_eq,
      getEach_eq, inTurn]
  cases k with
  | constraint t => exact unhandled rfl rfl
  | var =>
    cases a with
    | name | primalStart | basisStatus => exact unhandled rfl rfl
    | primal r =>
      rw [getMany_primal, getMany_primal]
      change after.readPrimals r indices = s.readPrimals r indices
      by_cases inRange : 0 < r ∧ r ≤ s.results.length
      · obtain ⟨result, found⟩ := Option.isSome_iff_exists.mp (hasResult_iff.mpr inRange)
        rw [← count] at inRange
        obtain ⟨later, foundLater⟩ := Option.isSome_iff_exists.mp (hasResult_iff.mpr inRange)
        rw [readPrimals_of_found found, readPrimals_of_found foundLater]
        exact inTurn
      · have missing := result?_eq_none_iff.mpr inRange
        rw [← count] at inRange
        have missingLater := result?_eq_none_iff.mpr inRange
        by_cases nothing : indices = []
        · subst nothing
          rfl
        · rw [readPrimals_of_missing missing nothing, readPrimals_of_missing missingLater nothing,
            count]

/-- Reading the primal values of several variables in a result at once, against reading them one by
one up to the first error. -/
structure BulkReadAgrees (B : Backend Store) (s : Store) (r : Nat) (xs : List VariableIndex) :
    Prop where
  resultCount : (B.get s (.property .resultCount)).1 = .ok s.results.length
  succeeds_iff : Succeeds (B.getMany s (k := .var) (.primal r) xs).1 ↔
    ∀ x ∈ xs, Succeeds (B.getAt s (k := .var) (.primal r) x).1
  aligned : ∀ values, (B.getMany s (k := .var) (.primal r) xs).1 = .ok values →
    List.Forall₂ (fun x v => (B.getAt s (k := .var) (.primal r) x).1 = .ok v) xs values
  oneByOne : (0 < r ∧ r ≤ s.results.length) ∨ xs = [] →
    B.getMany s (k := .var) (.primal r) xs = B.getEach s (k := .var) (.primal r) xs
  /-- The errors may differ, as a missing variable comes before a missing result only where the
  variables are read one by one. -/
  outOfRange : ¬(0 < r ∧ r ≤ s.results.length) → xs ≠ [] →
    ¬Succeeds (B.getMany s (k := .var) (.primal r) xs).1 ∧
      ¬Succeeds (B.getEach s (k := .var) (.primal r) xs).1

theorem bulk_read_agrees (s : Store) (tolerance : Binary64) (r : Nat) (xs : List VariableIndex) :
    BulkReadAgrees (backend tolerance) s r xs := by
  have many := getMany_primal tolerance s r xs
  have each : (backend tolerance).getEach s (k := .var) (.primal r) xs =
      (xs.mapM (s.readVariable (.primal r)), s) := getEach_eq tolerance s (k := .var) _ xs
  have scalar (x : VariableIndex) : ((backend tolerance).getAt s (k := .var) (.primal r) x).1 =
      s.readVariable (.primal r) x := congrArg Prod.fst (getAt_eq tolerance s (k := .var) _ x)
  have failsTogether (missing : s.result? r = none) (some : xs ≠ []) :
      ¬Succeeds (s.readPrimals r xs) ∧ ¬Succeeds (xs.mapM (s.readVariable (.primal r))) := by
    obtain ⟨x, rest, rfl⟩ := List.exists_cons_of_ne_nil some
    constructor
    · rw [readPrimals_of_missing missing some]
      rintro ⟨values, succeeded⟩
      cases succeeded
    · intro succeeded
      have first := succeeds_mapM_iff.mp succeeded x List.mem_cons_self
      exact readVariable_of_missing missing x first
  constructor
  case resultCount => rw [get_eq]; rfl
  case succeeds_iff =>
    simp only [many, scalar]
    refine Iff.trans ?_ succeeds_mapM_iff
    cases found : s.result? r with
    | some result => exact iff_of_eq (congrArg Succeeds (readPrimals_of_found found xs))
    | none =>
      by_cases nothing : xs = []
      · subst nothing; rfl
      · obtain ⟨atOnce, inTurn⟩ := failsTogether found nothing
        exact iff_of_false atOnce inTurn
  case aligned =>
    intro values read
    simp only [scalar]
    rw [many] at read
    exact readPrimals_aligned read
  case oneByOne =>
    intro fine
    rw [many, each]
    rcases fine with inRange | rfl
    · obtain ⟨result, found⟩ := Option.isSome_iff_exists.mp (hasResult_iff.mpr inRange)
      exact congrArg (·, s) (readPrimals_of_found found xs)
    · rfl
  case outOfRange =>
    intro outside some
    rw [many, each]
    exact failsTogether (result?_eq_none_iff.mpr outside) some

private theorem changeResult_changeResult (first second : ResultRecord → ResultRecord) :
    (s.changeResult r first).changeResult r second = s.changeResult r (second ∘ first) := by
  simp only [changeResult, List.modify_modify_eq]

private theorem changeResult_id : s.changeResult r id = s := by
  simp only [changeResult, List.modify_id]

private theorem hasResult_changeResult (change : ResultRecord → ResultRecord) (q : Nat) :
    (s.changeResult r change).hasResult q = s.hasResult q :=
  hasResult_congr (List.length_modify ..) q

private theorem succeeds_writePrimals_iff {values : List Binary64} :
    Succeeds (s.writePrimals r xs values) ↔
      (∀ x ∈ xs, s.isLive (.var x) = true) ∧ s.hasResult r = true := by
  unfold writePrimals
  cases missing : xs.find? fun x => !s.variableRecords.contains x with
  | some x =>
    have gone : s.variableRecords.contains x = false := by simpa using List.find?_some missing
    have listed := List.mem_of_find?_eq_some missing
    refine iff_of_false (by simp [Succeeds, notFound]) ?_
    rintro ⟨live, -⟩
    exact Bool.false_ne_true (gone.symm.trans (live x listed))
  | none =>
    have live : ∀ x ∈ xs, s.isLive (.var x) = true := by simpa [isLive] using missing
    rw [and_iff_right live]
    exact succeeds_updateResult

/-- One value is stored as a list of one would be. -/
private theorem writeIndexed_primal (s : Store) (r : Nat) (x : VariableIndex) (v : Binary64) :
    s.writeIndexed (k := .var) (.primal r) x v = s.writePrimals r [x] [v] := by
  change s.writeVariable (.primal r) x v = _
  unfold writeVariable writePrimals OrderedMap.contains
  cases found : s.variableRecords.find? x with
  | none => simp [found]
  | some record =>
    simp only [List.find?_cons, found, Option.isSome_some, Bool.not_true, List.find?_nil]
    rfl

/-- The values are stored one by one if each of the variables is live and the result exists. -/
theorem succeeds_setEach_iff (pairs : List (VariableIndex × PrimalValue r)) (s : Store) :
    Succeeds ((backend tolerance).setEach s (k := .var) (.primal r) pairs).1 ↔
      ∀ pair ∈ pairs, s.isLive (.var pair.1) = true ∧ s.hasResult r = true := by
  induction pairs generalizing s with
  | nil => exact ⟨fun _ _ member => absurd member List.not_mem_nil, fun _ => ⟨(), rfl⟩⟩
  | cons pair rest ih =>
    rcases pair with ⟨x, v⟩
    have single := writeIndexed_primal s r x v
    have possible : Succeeds (s.writePrimals r [x] [v]) ↔
        s.isLive (.var x) = true ∧ s.hasResult r = true := by
      rw [succeeds_writePrimals_iff, List.forall_mem_singleton]
    rw [List.forall_mem_cons, ← possible]
    cases written : s.writePrimals r [x] [v] with
    | error e =>
      have refused := setEach_cons_error tolerance (k := .var) (single.trans written) rest
      rw [refused]
      simp [Succeeds]
    | ok middle =>
      have stored := setEach_cons_ok tolerance (k := .var) (single.trans written) rest
      have later := ih middle
      simp only [writePrimals_ok written, hasResult_changeResult] at later
      rw [stored, writePrimals_ok written, later]
      exact (and_iff_right ⟨_, rfl⟩).symm

/-- What values stored one by one come to. -/
theorem setEach_ok {pairs : List (VariableIndex × PrimalValue r)}
    (done : (backend tolerance).setEach s (k := .var) (.primal r) pairs = (.ok (), after)) :
    after = s.changeResult r (ResultRecord.storePrimals pairs) := by
  induction pairs generalizing s with
  | nil =>
    cases done
    exact changeResult_id.symm
  | cons pair rest ih =>
    rcases pair with ⟨x, v⟩
    have single := writeIndexed_primal s r x v
    cases written : s.writePrimals r [x] [v] with
    | error e =>
      rw [setEach_cons_error tolerance (k := .var) (single.trans written) rest] at done
      cases done
    | ok middle =>
      rw [setEach_cons_ok tolerance (k := .var) (single.trans written) rest] at done
      rw [ih done, writePrimals_ok written, changeResult_changeResult]
      rfl

theorem setMany_ok {values : List (PrimalValue r)} (aligned : values.length = xs.length)
    (done : (backend tolerance).setMany s (k := .var) (.primal r) xs values = (.ok (), after)) :
    s.writePrimals r xs values = .ok after :=
  settleChange_ok ((setMany_primal tolerance s r aligned).symm.trans done)

theorem succeeds_setMany_iff {values : List (PrimalValue r)}
    (aligned : values.length = xs.length) :
    Succeeds ((backend tolerance).setMany s (k := .var) (.primal r) xs values).1 ↔
      (∀ x ∈ xs, s.isLive (.var x) = true) ∧ s.hasResult r = true := by
  rw [setMany_primal tolerance s r aligned, succeeds_settleChange]
  exact succeeds_writePrimals_iff

/-- Both ways succeed for the same reasons, apart from the result, which nothing is stored in when
there are no variables. -/
theorem succeeds_setMany_iff_setEach {values : List (PrimalValue r)}
    (aligned : values.length = xs.length) :
    Succeeds ((backend tolerance).setMany s (k := .var) (.primal r) xs values).1 ↔
      Succeeds ((backend tolerance).setEach s (k := .var) (.primal r) (xs.zip values)).1 ∧
        s.hasResult r = true := by
  have keys : (xs.zip values).map Prod.fst = xs := List.map_fst_zip (Nat.le_of_eq aligned.symm)
  rw [succeeds_setMany_iff tolerance aligned, succeeds_setEach_iff]
  constructor
  · rintro ⟨live, found⟩
    refine ⟨fun pair member => ⟨live pair.1 ?_, found⟩, found⟩
    exact keys ▸ List.mem_map_of_mem member
  · rintro ⟨each, found⟩
    refine ⟨fun x listed => ?_, found⟩
    rw [← keys] at listed
    obtain ⟨pair, member, rfl⟩ := List.mem_map.mp listed
    exact (each pair member).1

/-- The value that was stored last for a variable is read back. -/
private theorem readVariable_last {pairs before later : List (VariableIndex × Binary64)}
    {x : VariableIndex} {v : Binary64} {old : ResultRecord} (found : s.result? r = some old)
    (live : s.isLive (.var x) = true) (split : pairs = before ++ (x, v) :: later)
    (last : x ∉ later.map Prod.fst) :
    (s.changeResult r (ResultRecord.storePrimals pairs)).readVariable (.primal r) x = .ok v := by
  obtain ⟨record, known⟩ := OrderedMap.mem_keys_iff.mp (OrderedMap.contains_iff.mp live)
  have stored : (ResultRecord.storePrimals pairs old).variablePrimal.find? x = some v := by
    rw [split]
    exact OrderedMap.find?_insertAll_last last
  have kept : (s.changeResult r (ResultRecord.storePrimals pairs)).variableRecords.find? x =
      some record := known
  unfold readVariable
  rw [kept]
  exact readResult_changeResult_own found _ stored

/-- Storing the primal values of several variables in a result at once, against storing them one by
one up to the first error. -/
structure BulkWriteAgrees (B : Backend Store) (s : Store) (r : Nat) (xs : List VariableIndex)
    (values : List (PrimalValue r)) : Prop where
  resultCount : (B.get s (.property .resultCount)).1 = .ok s.results.length
  succeeds_iff : xs ≠ [] → (Succeeds (B.setMany s (k := .var) (.primal r) xs values).1 ↔
    Succeeds (B.setEach s (k := .var) (.primal r) (xs.zip values)).1)
  /-- Without variables there is nothing to fail one by one, but the result is looked for at
  once. -/
  nothing : xs = [] → B.setEach s (k := .var) (.primal r) (xs.zip values) = (.ok (), s) ∧
    B.setMany s (k := .var) (.primal r) xs values =
      (if 0 < r ∧ r ≤ s.results.length then .ok ()
        else .error (.invalidResultIndex r s.results.length), s)
  same : ∀ after, B.setMany s (k := .var) (.primal r) xs values = (.ok (), after) →
    B.setEach s (k := .var) (.primal r) (xs.zip values) = (.ok (), after)
  last : ∀ after, B.setMany s (k := .var) (.primal r) xs values = (.ok (), after) →
    ∀ before x v later, xs.zip values = before ++ (x, v) :: later → x ∉ later.map Prod.fst →
      (B.getAt after (k := .var) (.primal r) x).1 = .ok v

theorem bulk_write_agrees (s : Store) (tolerance : Binary64) (r : Nat) (xs : List VariableIndex)
    (values : List (PrimalValue r)) (aligned : values.length = xs.length) :
    BulkWriteAgrees (backend tolerance) s r xs values := by
  have together := succeeds_setMany_iff_setEach (s := s) tolerance aligned
  have each := succeeds_setEach_iff (r := r) tolerance (xs.zip values) s
  constructor
  case resultCount => rw [get_eq]; rfl
  case succeeds_iff =>
    intro some
    rw [together, and_iff_left_iff_imp, each]
    intro possible
    obtain ⟨x, rest, rfl⟩ := List.exists_cons_of_ne_nil some
    obtain ⟨v, others, rfl⟩ := List.exists_cons_of_length_eq_add_one aligned
    exact (possible (x, v) List.mem_cons_self).2
  case nothing =>
    rintro rfl
    obtain rfl := List.eq_nil_of_length_eq_zero aligned
    refine ⟨rfl, ?_⟩
    rw [setMany_primal tolerance s r aligned]
    change settleChange s (s.updateResult r (ResultRecord.storePrimals [])) = _
    simp only [← hasResult_iff]
    unfold updateResult Store.result hasResult
    cases s.result? r with
    | none => rfl
    | some old => exact congrArg (Prod.mk _) changeResult_id
  case same =>
    intro after done
    have stored := writePrimals_ok (setMany_ok tolerance aligned done)
    have succeeded := together.mp ⟨(), congrArg Prod.fst done⟩
    rcases inTurn : (backend tolerance).setEach s (k := .var) (.primal r) (xs.zip values) with
      ⟨_ | _, other⟩
    · rw [inTurn] at succeeded
      obtain ⟨⟨_, failed⟩, -⟩ := succeeded
      cases failed
    · rw [setEach_ok tolerance inTurn, stored]
      rfl
  case last =>
    intro after done before x v later split last
    obtain ⟨live, has⟩ := (succeeds_setMany_iff tolerance aligned).mp ⟨(), congrArg Prod.fst done⟩
    obtain ⟨old, found⟩ := Option.isSome_iff_exists.mp has
    have listed : (x, v) ∈ xs.zip values := split ▸ List.mem_append_right _ List.mem_cons_self
    rw [getAt_eq, writePrimals_ok (setMany_ok tolerance aligned done)]
    exact readVariable_last found (live x (List.of_mem_zip listed).1) split last

/-- Two variables and one result. -/
def solvedRun : List Operation :=
  [.addVariables 2, .set (.property .resultCount) (1 : Nat)]

theorem solvedRun_repeated_variable :
    [Binary64.one, .one, .zero].length = [VariableIndex.mk 1, ⟨2⟩, ⟨1⟩].length ∧
      ∃ after, (backend .zero).setMany (run .zero empty solvedRun) (k := .var) (.primal 1)
          [⟨1⟩, ⟨2⟩, ⟨1⟩] [Binary64.one, .one, .zero] = (.ok (), after) ∧
        ((backend .zero).getAt after (k := .var) (.primal 1) ⟨1⟩).1 = .ok .zero := by
  have aligned : [Binary64.one, .one, .zero].length = [VariableIndex.mk 1, ⟨2⟩, ⟨1⟩].length := by
    decide
  have agrees := bulk_write_agrees (run .zero empty solvedRun) .zero 1 _ _ aligned
  have split : [VariableIndex.mk 1, ⟨2⟩, ⟨1⟩].zip [Binary64.one, .one, .zero] =
      [(⟨1⟩, .one), (⟨2⟩, .one)] ++ (⟨1⟩, .zero) :: [] := rfl
  have live : ∀ x ∈ [VariableIndex.mk 1, ⟨2⟩, ⟨1⟩],
      (run .zero empty solvedRun).isLive (.var x) = true := by decide
  obtain ⟨_, stored⟩ := (succeeds_setMany_iff .zero (r := 1) aligned).mpr ⟨live, rfl⟩
  have done := Prod.ext stored rfl
  exact ⟨aligned, _, done, agrees.last _ done _ _ _ _ split List.not_mem_nil⟩

/-- Where there is no result, nothing can be stored one by one, but not at once. -/
theorem storing_nothing_refused :
    empty.Reachable ∧ ¬(Succeeds ((backend .zero).setMany empty (k := .var) (.primal 1) [] []).1 ↔
      Succeeds ((backend .zero).setEach empty (k := .var) (.primal 1) ([].zip [])).1) := by
  refine ⟨⟨.zero, [], ⟨by decide, by decide⟩, rfl⟩, fun agree => ?_⟩
  obtain ⟨_, failed⟩ := agree.mpr ⟨(), rfl⟩
  cases failed

end Store

end SolverProtocol
