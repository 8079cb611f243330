import SolverProtocol.Proofs.Store.Cell
import SolverProtocol.Proofs.Store.Local

/-! Results keep their values exactly as long as they exist. What is read of a result is what was
written last since it was created, and a result that is dropped takes its values with it. -/

namespace SolverProtocol

open Number

/-- The value of a cell, if that is what was written. -/
def Written.valueOf? (w : Written) (cell : Cell) : Option cell.Value :=
  if same : w.cell = cell then some (same ▸ w.value) else none

/-- A number of results, as it is written. -/
def Written.count (n : Nat) : Written :=
  ⟨.resultCount, n⟩

private theorem Written.eq_count {w : Written} (counts : w.cell = .resultCount) :
    ∃ n, w = .count n := by
  rcases w with ⟨_, n⟩
  subst counts
  exact ⟨n, rfl⟩

/-- The number of results, if that is what was written. -/
def Written.resultCount? : Written → Option Nat
  | ⟨.global (.property .resultCount), (count : Nat)⟩ => some count
  | _ => none

/-- What has been written, the latest first. -/
abbrev Log : Type := List Written

namespace Log

/-- There are no results until their number is written. -/
def resultCount (log : Log) : Nat :=
  (log.findSome? Written.resultCount?).getD 0

/-- What was written last to a cell. -/
def last? (log : Log) (cell : Cell) : Option cell.Value :=
  log.findSome? (·.valueOf? cell)

/-- A write creates a result by raising the number of results from below it. -/
def creates (earlier : Log) (w : Written) (r : Nat) : Bool :=
  w.resultCount?.any fun count => earlier.resultCount < r && r ≤ count

/-- What has been written since a result was created. -/
def since (r : Nat) : Log → Log
  | [] => []
  | w :: earlier => if creates earlier w r then [] else w :: since r earlier

variable {log : Log} {w : Written} {cell : Cell} {r : Nat}

private theorem since_sublist (log : Log) (r : Nat) : (since r log).Sublist log := by
  induction log with
  | nil => exact .slnil
  | cons w earlier ih =>
    rw [since]
    split
    · exact List.nil_sublist _
    · exact ih.cons_cons w

private theorem last?_cons_self (v : cell.Value) (log : Log) :
    last? (⟨cell, v⟩ :: log) cell = some v := by
  simp [last?, Written.valueOf?]

private theorem last?_cons_of_ne (other : w.cell ≠ cell) (log : Log) :
    last? (w :: log) cell = log.last? cell := by
  simp [last?, Written.valueOf?, other]

private theorem last?_eq_none (unwritten : ∀ w ∈ log, w.cell ≠ cell) : log.last? cell = none := by
  simp only [last?, List.findSome?_eq_none_iff]
  exact fun w member => dif_neg (unwritten w member)

private theorem resultCount?_eq_none (other : w.cell ≠ .resultCount) : w.resultCount? = none := by
  rcases w with ⟨(p | a) | p, v⟩
  · rfl
  · cases a <;> first | rfl | exact absurd rfl other
  · rfl

private theorem resultCount_cons (other : w.cell ≠ .resultCount) (log : Log) :
    resultCount (w :: log) = log.resultCount := by
  simp [resultCount, resultCount?_eq_none other]

private theorem since_cons (other : w.cell ≠ .resultCount) (log : Log) (r : Nat) :
    since r (w :: log) = w :: since r log := by
  simp [since, creates, resultCount?_eq_none other]

private theorem since_cons_of_le (old : r ≤ log.resultCount) (n : Nat) :
    since r (.count n :: log) = .count n :: since r log := by
  have kept : creates log (.count n) r = false := by
    simp [creates, Written.count, Written.resultCount?, Cell.resultCount, Nat.not_lt.mpr old]
  rw [since, kept]
  rfl

private theorem since_cons_of_lt (new : log.resultCount < r) {n : Nat} (few : r ≤ n) :
    since r (.count n :: log) = [] := by
  have created : creates log (.count n) r = true := by
    simp [creates, Written.count, Written.resultCount?, Cell.resultCount, new, few]
  rw [since, created]
  rfl

/-- A result that is there has been created, and what has been written since comes on top. -/
private theorem exists_creation (positive : 0 < r) (within : r ≤ log.resultCount) :
    ∃ n, ∃ before : Log, log = since r log ++ .count n :: before ∧
      before.resultCount < r ∧ r ≤ n := by
  induction log with
  | nil => exact absurd within (Nat.not_le.mpr positive)
  | cons w earlier ih =>
    by_cases counts : w.cell = .resultCount
    · obtain ⟨n, rfl⟩ := Written.eq_count counts
      by_cases old : r ≤ resultCount earlier
      · obtain ⟨m, before, split, raised⟩ := ih old
        rw [since_cons_of_le old]
        exact ⟨m, before, congrArg (_ :: ·) split, raised⟩
      · have new := Nat.lt_of_not_le old
        have included : r ≤ n := within
        rw [since_cons_of_lt new included]
        exact ⟨n, earlier, rfl, new, included⟩
    · rw [resultCount_cons counts] at within
      obtain ⟨m, before, split, raised⟩ := ih within
      rw [since_cons counts]
      exact ⟨m, before, congrArg (_ :: ·) split, raised⟩

end Log

/-- The value that a result has for a cell. -/
def ResultRecord.value? (result : ResultRecord) : (cell : Cell) → Option cell.Value
  | .global (.property (.objectiveValue _)) => result.objectiveValue
  | .global (.property (.primalStatus _)) => result.primalStatus
  | .global (.property (.dualStatus _)) => result.dualStatus
  | .place ⟨.var, .primal _, x⟩ => result.variablePrimal.find? x
  | .place ⟨.constraint _, .primal _, c⟩ => result.constraintPrimal.find? c.erase
  | .place ⟨.constraint _, .dual _, c⟩ => result.constraintDual.find? c.erase
  | _ => none

namespace Store

variable {s after : Store} {tolerance : Binary64} {log : Log} {cell : Cell} {r n : Nat}
  {i : AnyIndex}

theorem Invariant.read_result (valid : s.Invariant) (ofResult : cell.result? = some r)
    (live : cell.Live s) :
    cell.read (backend tolerance) s =
      answered cell.attr ((s.result? r).bind (·.value? cell))
        (if s.hasResult r then none else some (.invalidResultIndex r s.results.length)) := by
  cases cell with
  | global a =>
    rw [read_global]
    rcases a with p | a
    · cases ofResult
    · cases a <;> cases ofResult <;> exact readResult_eq ..
  | place p =>
    rw [read_place, valid.readIndexed_eq, refusal?_of_live (live _ rfl), resultRefusal?]
    rcases p with ⟨_ | t, a, index⟩ <;> cases a <;> cases ofResult <;> rfl

theorem Invariant.read_present (valid : s.Invariant) (ofResult : cell.result? = some r)
    (live : cell.Live s) {result : ResultRecord} (found : s.result? r = some result) :
    cell.read (backend tolerance) s = present cell.attr (result.value? cell) := by
  have has : s.hasResult r = true := by simp [hasResult, found]
  rw [valid.read_result ofResult live, found, if_pos has]
  rfl

private theorem mem_results {result : ResultRecord} (found : s.result? r = some result) :
    result ∈ s.results := by
  cases r with
  | zero => cases found
  | succ position => exact List.mem_of_getElem? found

theorem LiveValues.value?_eq_none {result : ResultRecord} (live : s.LiveValues result)
    {i : AnyIndex} (belongs : cell.target? = some i) (missing : s.isLive i = false) :
    result.value? cell = none := by
  cases cell with
  | global a => cases belongs
  | place p =>
    cases belongs
    have absent {κ : Type} [DecidableEq κ] {key : κ} {kept : OrderedMap κ Binary64}
        {alive : List κ} (covered : ∀ x ∈ kept.keys, x ∈ alive) (dead : key ∉ alive) :
        kept.find? key = none :=
      OrderedMap.find?_eq_none_iff.mpr fun member => dead (covered key member)
    rcases p with ⟨_ | t, a, index⟩
    · have dead : index ∉ s.variableRecords.keys := fun member =>
        Bool.false_ne_true (missing.symm.trans (OrderedMap.contains_iff.mpr member))
      cases a with
      | primal r => exact absent live.variablePrimal dead
      | name | primalStart | basisStatus => rfl
    · have dead : index.erase ∉ s.constraintRecords.keys := fun member =>
        Bool.false_ne_true (missing.symm.trans (OrderedMap.contains_iff.mpr member))
      cases a with
      | primal r => exact absent live.constraintPrimal dead
      | dual r => exact absent live.constraintDual dead
      | name | primalStart | dualStart | basisStatus | function | set => rfl

private theorem result?_resize_of_le (positive : 0 < r) (old : r ≤ s.results.length) (few : r ≤ n) :
    (s.resize n).result? r = s.result? r := by
  cases r with
  | zero => cases positive
  | succ position =>
    have taken : position < (s.results.take n).length := by
      rw [List.length_take]
      omega
    simp only [resize, result?]
    rw [List.getElem?_append_left taken, List.getElem?_take_of_lt few]

private theorem result?_resize_of_lt (new : s.results.length < r) (few : r ≤ n) :
    (s.resize n).result? r = some {} := by
  cases r with
  | zero => cases new
  | succ position =>
    have taken : (s.results.take n).length = s.results.length := by
      rw [List.length_take]
      omega
    simp only [resize, result?]
    rw [List.getElem?_append_right (by omega), List.getElem?_replicate, taken, if_pos (by omega)]

private theorem ResultRecord.value?_empty (cell : Cell) :
    ({} : ResultRecord).value? cell = none := by
  rcases cell with (p | a) | ⟨_ | t, a, index⟩
  · rfl
  · cases a <;> rfl
  · cases a <;> rfl
  · cases a <;> rfl

/-- Results that stay keep their values. -/
private theorem Invariant.read_resize_of_le (valid : s.Invariant)
    (validAfter : (s.resize n).Invariant)
    (ofResult : cell.result? = some r) (live : cell.Live s) (positive : 0 < r)
    (old : r ≤ s.results.length) (few : r ≤ n) :
    cell.read (backend tolerance) (s.resize n) = cell.read (backend tolerance) s := by
  obtain ⟨result, found⟩ := Option.isSome_iff_exists.mp (hasResult_iff.mpr ⟨positive, old⟩)
  rw [valid.read_present ofResult live found,
    validAfter.read_present ofResult live ((result?_resize_of_le positive old few).trans found)]

/-- New results have no values. -/
private theorem Invariant.read_resize_of_lt (validAfter : (s.resize n).Invariant)
    (ofResult : cell.result? = some r) (live : cell.Live s) (new : s.results.length < r)
    (few : r ≤ n) :
    cell.read (backend tolerance) (s.resize n) = .error (.noValue cell.attr kind) := by
  rw [validAfter.read_present ofResult live (result?_resize_of_lt new few),
    ResultRecord.value?_empty]
  rfl

/-- What a run writes, the latest first, after what had been written before it. -/
def logOf (tolerance : Binary64) (s : Store) (earlier : Log) : List Operation → Log
  | [] => earlier
  | op :: ops =>
    logOf tolerance (s.perform tolerance op).2
      ((op.written (backend tolerance) s).reverse ++ earlier) ops

/-- A store has the values of its results that a log tells. -/
structure Remembers (tolerance : Binary64) (log : Log) (s : Store) : Prop where
  valid : s.Invariant
  count : s.results.length = log.resultCount
  counted : ∀ w ∈ log, ∀ i, w.cell.target? = some i → s.counted i
  read : ∀ cell r, cell.result? = some r → 0 < r → r ≤ s.results.length → cell.Live s →
    cell.read (backend tolerance) s = present cell.attr ((log.since r).last? cell)

theorem Remembers.empty : Remembers tolerance [] .empty := by
  refine ⟨.empty, rfl, fun w member => absurd member List.not_mem_nil, ?_⟩
  intro cell r _ positive within _
  exact absurd (Nat.lt_of_lt_of_le positive within) (Nat.lt_irrefl 0)

private theorem resize_of_stored (stored : s.writeCell .resultCount n = .ok after) :
    n ≤ maxResultCount ∧ after = s.resize n := by
  change s.writeProperty .resultCount n = .ok after at stored
  simp only [writeProperty] at stored
  split at stored <;> cases stored
  exact ⟨‹_›, rfl⟩

theorem Remembers.resize (remembers : Remembers tolerance log s) (few : n ≤ maxResultCount) :
    Remembers tolerance (.count n :: log) (s.resize n) := by
  have valid := remembers.valid
  have validAfter := (Write.resize few).invariant valid
  refine ⟨validAfter, length_resize s n, ?_, ?_⟩
  · rintro w member i belongs
    rcases List.mem_cons.mp member with rfl | earlier
    · cases belongs
    · exact (Write.resize few).sameListings.counted (remembers.counted w earlier i belongs)
  · intro cell r ofResult positive within live
    have included : r ≤ n := Nat.le_trans within (Nat.le_of_eq (length_resize s n))
    have alive : cell.Live s := live
    by_cases old : r ≤ s.results.length
    · have other : Cell.resultCount ≠ cell := by
        rintro rfl
        cases ofResult
      rw [valid.read_resize_of_le validAfter ofResult alive positive old included,
        Log.since_cons_of_le (remembers.count ▸ old), Log.last?_cons_of_ne other]
      exact remembers.read cell r ofResult positive old alive
    · have new := Nat.lt_of_not_le old
      rw [validAfter.read_resize_of_lt ofResult alive new included,
        Log.since_cons_of_lt (remembers.count ▸ new) included]
      rfl

theorem Remembers.put (remembers : Remembers tolerance log s) {w : Written}
    (stored : s.writeCell w.cell w.value = .ok after) : Remembers tolerance (w :: log) after := by
  -- results come and go with their number only; any other value goes to a cell of its own
  by_cases counts : w.cell = .resultCount
  · obtain ⟨n, rfl⟩ := Written.eq_count counts
    obtain ⟨few, rfl⟩ := resize_of_stored stored
    exact remembers.resize few
  · have valid := remembers.valid
    have write := writeCell_write stored
    have same := write.sameListings
    have count := length_results_of_stored stored counts
    refine ⟨write.invariant valid, ?_, ?_, ?_⟩
    · rw [count, remembers.count, Log.resultCount_cons counts]
    · intro v member i belongs
      refine same.counted ?_
      rcases List.mem_cons.mp member with rfl | earlier
      · exact valid.counted_of_live (valid.live_of_stored stored i belongs)
      · exact remembers.counted v earlier i belongs
    · intro cell r ofResult positive within live
      have alive : cell.Live s := fun i belongs => (same.isLive i).symm.trans (live i belongs)
      rw [Log.since_cons counts]
      by_cases own : w.cell = cell
      · subst own
        rw [valid.read_stored ofResult stored, Log.last?_cons_self]
        rfl
      · rw [valid.read_other stored counts ofResult (Ne.symm own), Log.last?_cons_of_ne own]
        exact remembers.read cell r ofResult positive (count ▸ within) alive

theorem Remembers.puts (remembers : Remembers tolerance log s) {written : List Written}
    (puts : Puts s written after) : Remembers tolerance (written.reverse ++ log) after := by
  induction puts generalizing log with
  | nil s => exact remembers
  | cons stored more ih => simpa using ih (remembers.put stored)

theorem SameApart.read (same : SameApart i s after) (valid : s.Invariant)
    (validAfter : after.Invariant) (ofResult : cell.result? = some r)
    (other : cell.target? ≠ some i) :
    cell.read (backend tolerance) after = cell.read (backend tolerance) s := by
  have elsewhere := same.sameElsewhere valid validAfter tolerance
  cases cell with
  | global a =>
    refine elsewhere.get a ?_
    rcases a with p | a
    · exact id
    · cases a <;> first | exact id | cases ofResult
  | place p => exact elsewhere.getAt p fun own => other (congrArg some own)

/-- What has not been there before has no values. -/
theorem Remembers.apart (remembers : Remembers tolerance log s) (same : SameApart i s after)
    (validAfter : after.Invariant) (counts : ∀ j, s.counted j → after.counted j)
    (new : after.isLive i = true → ¬s.counted i ∧ after.results = s.results) :
    Remembers tolerance log after := by
  have valid := remembers.valid
  have count := same.settings.length_results
  refine ⟨validAfter, count.trans remembers.count, ?_, ?_⟩
  · exact fun w member j belongs => counts j (remembers.counted w member j belongs)
  · intro cell r ofResult positive within live
    by_cases own : cell.target? = some i
    · -- the index is new: neither the log nor a result knows it
      obtain ⟨fresh, results⟩ := new (live i own)
      have unwritten : (log.since r).last? cell = none := by
        refine Log.last?_eq_none fun w member here => ?_
        have written := (Log.since_sublist log r).subset member
        exact fresh (remembers.counted w written i (here ▸ own))
      have missing : s.isLive i = false :=
        Bool.eq_false_iff.mpr fun known => fresh (valid.counted_of_live known)
      obtain ⟨result, found⟩ := Option.isSome_iff_exists.mp (hasResult_iff.mpr ⟨positive, within⟩)
      have kept : s.result? r = some result := by
        simpa only [result?, results] using found
      have values := valid.live result (mem_results kept)
      rw [validAfter.read_present ofResult live found, values.value?_eq_none own missing, unwritten]
    · have alive : cell.Live s := by
        intro j belongs
        have apart : j ≠ i := fun same => own (same ▸ belongs)
        exact (same.isLive apart).symm.trans (live j belongs)
      rw [same.read valid validAfter ofResult own]
      exact remembers.read cell r ofResult positive (count ▸ within) alive

theorem Remembers.addVariable (remembers : Remembers tolerance log s) :
    Remembers tolerance log s.addVariable.2 := by
  have valid := remembers.valid
  refine remembers.apart valid.addVariable_sameApart valid.addVariable ?_ fun _ => ⟨?_, rfl⟩
  · rintro (x | c) counted
    · exact Nat.lt_succ_of_lt counted
    · exact counted
  · exact Nat.lt_irrefl _

theorem Remembers.addVariables (remembers : Remembers tolerance log s) (count : Nat) :
    Remembers tolerance log (s.addVariables count).2 := by
  induction count generalizing s with
  | zero => exact remembers
  | succ count ih => exact ih remembers.addVariable

theorem Remembers.addConstraint (remembers : Remembers tolerance log s) (t : ConstraintType)
    (row : ConstraintRow t) : Remembers tolerance log (s.addConstraint t row).2 := by
  have valid := remembers.valid
  have same := valid.addConstraint_sameApart t row
  have validAfter := valid.addConstraint t row
  obtain ⟨rows, -, added⟩ := valid.typed.addConstraint? t row
  simp only [Store.addConstraint, added, Option.getD_some] at same validAfter ⊢
  refine remembers.apart same validAfter ?_ fun _ => ⟨?_, rfl⟩
  · rintro (x | c) counted
    · exact counted
    · exact Nat.lt_succ_of_lt counted
  · exact Nat.lt_irrefl _

theorem Remembers.deleteVariable (remembers : Remembers tolerance log s) {x : VariableIndex}
    (deleted : s.deleteVariable x = .ok after) : Remembers tolerance log after := by
  have gone := deleteVariable_gone deleted
  refine remembers.apart (deleteVariable_sameApart deleted)
    (remembers.valid.deleteVariable deleted) ?_ fun live => absurd live (by simp [gone])
  obtain ⟨record, -, rfl⟩ := deleteVariable_ok deleted
  rintro (y | c) counted <;> exact counted

theorem Remembers.deleteConstraint (remembers : Remembers tolerance log s) {t : ConstraintType}
    {c : ConstraintIndex t} (deleted : s.deleteConstraint c = .ok after) :
    Remembers tolerance log after := by
  have gone := deleteConstraint_gone deleted
  refine remembers.apart (remembers.valid.deleteConstraint_sameApart deleted)
    (remembers.valid.deleteConstraint deleted) ?_ fun live => absurd live (by simp [gone])
  obtain ⟨record, -, rfl⟩ := deleteConstraint_ok deleted
  rintro (x | d) counted <;> exact counted

theorem Remembers.perform (remembers : Remembers tolerance log s) (op : Operation) :
    Remembers tolerance ((op.written (backend tolerance) s).reverse ++ log)
      (s.perform tolerance op).2 := by
  cases op with
  | addVariable => exact remembers.addVariable
  | addVariables count => exact remembers.addVariables count
  | addConstraint t row => exact remembers.addConstraint t row
  | deleteVariable x =>
    simp only [Store.perform, handsOutNone_snd, Change.outcome_deleteVariable]
    exact settleChange_preserves remembers fun _ => remembers.deleteVariable
  | deleteConstraint c =>
    simp only [Store.perform, handsOutNone_snd, Change.outcome_deleteConstraint]
    exact settleChange_preserves remembers fun _ => remembers.deleteConstraint
  | set a v =>
    simp only [Store.perform, handsOutNone_snd]
    exact remembers.puts (set_puts a v)
  | setAt a index v =>
    simp only [Store.perform, handsOutNone_snd]
    exact remembers.puts (setAt_puts a index v)
  | setMany a indices values =>
    simp only [Store.perform, handsOutNone_snd]
    exact remembers.puts (setMany_puts indices values)

theorem Remembers.run (remembers : Remembers tolerance log s) (ops : List Operation) :
    Remembers tolerance (logOf tolerance s log ops) (Store.run tolerance s ops) := by
  induction ops generalizing log s with
  | nil => exact remembers
  | cons op ops ih => exact ih (remembers.perform op)

/-- The call writes to the cell, deletes its index or changes the number of results. -/
def Operation.Concerns : Operation → Cell → Prop
  | .set a _, cell => cell = .global a ∨ a = .property .resultCount
  | .setAt (k := k) a index _, cell => cell = .place ⟨k, a, index⟩
  | .setMany (k := k) a indices _, cell => ∃ index ∈ indices, cell = .place ⟨k, a, index⟩
  | .deleteVariable x, cell => cell.target? = some (.var x)
  | .deleteConstraint c, cell => cell.target? = some (.constraint c.erase)
  | .addVariable, _ | .addVariables _, _ | .addConstraint .., _ => False

theorem Puts.read {written : List Written} (puts : Puts s written after) (valid : s.Invariant)
    (ofResult : cell.result? = some r)
    (others : ∀ w ∈ written, w.cell ≠ .resultCount ∧ w.cell ≠ cell) :
    cell.read (backend tolerance) after = cell.read (backend tolerance) s := by
  induction puts with
  | nil s => rfl
  | cons stored more ih =>
    obtain ⟨⟨counted, other⟩, rest⟩ := List.forall_mem_cons.mp others
    rw [ih ((writeCell_write stored).invariant valid) rest,
      valid.read_other stored counted ofResult (Ne.symm other)]

private theorem acceptedInTurn_subset {B : Backend Store} {k : IndexKind} {a : IndexedAttribute k}
    (pairs : List (k.Index × a.Value)) (s : Store) : B.acceptedInTurn s a pairs ⊆ pairs := by
  induction pairs generalizing s with
  | nil => exact List.Subset.refl _
  | cons pair rest ih =>
    rw [Backend.acceptedInTurn]
    split
    · exact List.nil_subset _
    · exact List.cons_subset_cons _ (ih _)

private theorem mem_writtenAt {k : IndexKind} {a : IndexedAttribute k} {indices : List k.Index}
    {values : List a.Value} {pairs : List (k.Index × a.Value)} (some : pairs ⊆ indices.zip values)
    {w : Written} (member : w ∈ writtenAt a pairs) :
    ∃ index ∈ indices, w.cell = .place ⟨k, a, index⟩ := by
  obtain ⟨pair, listed, rfl⟩ := List.mem_map.mp member
  exact ⟨pair.1, (List.of_mem_zip (some listed)).1, rfl⟩

/-- A call writes only what it concerns. -/
private theorem Operation.written_others {B : Backend Store} {op : Operation}
    (unconcerned : ¬op.Concerns cell) :
    ∀ w ∈ op.written B s, w.cell ≠ .resultCount ∧ w.cell ≠ cell := by
  intro w member
  cases op with
  | set a v =>
    simp only [written] at member
    split at member
    · obtain rfl := List.mem_singleton.mp member
      refine ⟨fun counts => unconcerned (.inr ?_), fun own => unconcerned (.inl own.symm)⟩
      exact Cell.global.inj counts
    · cases member
  | setAt a index v =>
    simp only [written] at member
    split at member
    · obtain rfl := List.mem_singleton.mp member
      refine ⟨?_, fun own => unconcerned own.symm⟩
      rintro ⟨⟩
    · cases member
  | setMany a indices values =>
    have some : (if (B.setMany s a indices values).1.isOk then indices.zip values
        else if a.toAttribute.allAtOnce || values.length != indices.length then []
        else B.acceptedInTurn s a (indices.zip values)) ⊆ indices.zip values := by
      split
      · exact List.Subset.refl _
      · split
        · exact List.nil_subset _
        · exact acceptedInTurn_subset _ s
    obtain ⟨index, listed, here⟩ := mem_writtenAt some member
    rw [here]
    refine ⟨?_, fun own => unconcerned ⟨index, listed, own.symm⟩⟩
    rintro ⟨⟩
  | addVariable | addVariables | addConstraint | deleteVariable | deleteConstraint => cases member

private theorem Invariant.read_addVariables (valid : s.Invariant) (ofResult : cell.result? = some r)
    (live : cell.Live s) (count : Nat) :
    cell.read (backend tolerance) (s.addVariables count).2 =
      cell.read (backend tolerance) s := by
  induction count generalizing s with
  | zero => rfl
  | succ count ih =>
    have same := valid.addVariable_sameApart
    have other : cell.target? ≠ some (.var s.addVariable.1) := fun own =>
      Bool.false_ne_true (valid.newVariable.symm.trans (live _ own))
    have alive : cell.Live s.addVariable.2 := by
      intro j belongs
      have apart : j ≠ .var s.addVariable.1 := fun own => other (own ▸ belongs)
      exact (same.isLive apart).trans (live j belongs)
    exact (ih valid.addVariable alive).trans (same.read valid valid.addVariable ofResult other)

theorem Invariant.read_unconcerned (valid : s.Invariant) (ofResult : cell.result? = some r)
    (live : cell.Live s) {op : Operation} (unconcerned : ¬op.Concerns cell) :
    cell.read (backend tolerance) (s.perform tolerance op).2 =
      cell.read (backend tolerance) s := by
  have others := op.written_others (B := backend tolerance) (s := s) unconcerned
  cases op with
  | addVariable => exact valid.read_addVariables ofResult live 1
  | addVariables count => exact valid.read_addVariables ofResult live count
  | addConstraint t row =>
    refine (valid.addConstraint_sameApart t row).read valid (valid.addConstraint t row) ofResult ?_
    exact fun own => Bool.false_ne_true ((valid.newConstraint t row).symm.trans (live _ own))
  | deleteVariable x =>
    simp only [Store.perform, handsOutNone_snd, Change.outcome_deleteVariable]
    refine settleChange_preserves (P := (cell.read _ · = cell.read _ s)) rfl fun after deleted => ?_
    exact (deleteVariable_sameApart deleted).read valid (valid.deleteVariable deleted) ofResult
      unconcerned
  | deleteConstraint c =>
    simp only [Store.perform, handsOutNone_snd, Change.outcome_deleteConstraint]
    refine settleChange_preserves (P := (cell.read _ · = cell.read _ s)) rfl fun after deleted => ?_
    exact (valid.deleteConstraint_sameApart deleted).read valid (valid.deleteConstraint deleted)
      ofResult unconcerned
  | set a v =>
    simp only [Store.perform, handsOutNone_snd]
    exact (set_puts a v).read valid ofResult others
  | setAt a index v =>
    simp only [Store.perform, handsOutNone_snd]
    exact (setAt_puts a index v).read valid ofResult others
  | setMany a indices values =>
    simp only [Store.perform, handsOutNone_snd]
    exact (setMany_puts indices values).read valid ofResult others

def setResultCount (B : Backend Store) (s : Store) (n : Nat) : Outcome Store :=
  B.set s (.property .resultCount) n

/-- The results up to the new number are as they were, new ones have no values, and others are no
longer there. -/
structure Resized (B : Backend Store) (n : Nat) (s after : Store) : Prop where
  count : (B.get after (.property .resultCount)).1 = .ok n
  kept : ∀ (cell : Cell) r, cell.result? = some r → 0 < r → r ≤ s.results.length → r ≤ n →
    cell.Live s → cell.read B after = cell.read B s
  created : ∀ (cell : Cell) r, cell.result? = some r → s.results.length < r → r ≤ n →
    cell.Live s → cell.read B after = .error (.noValue cell.attr kind)
  dropped : ∀ (cell : Cell) r, cell.result? = some r → n < r → cell.Live s →
    cell.read B after = .error (.invalidResultIndex r n)

/-- What holds of the results of a store after a run with the log. -/
structure ResultsRemembered (tolerance : Binary64) (log : Log) (s : Store) : Prop where
  count : ((backend tolerance).get s (.property .resultCount)).1 = .ok log.resultCount
  created : ∀ r, 0 < r → r ≤ log.resultCount → ∃ n, ∃ before : Log,
    log = log.since r ++ .count n :: before ∧ before.resultCount < r ∧ r ≤ n
  read : ∀ (cell : Cell) r, cell.result? = some r → 0 < r → r ≤ log.resultCount → cell.Live s →
    cell.read (backend tolerance) s = present cell.attr ((log.since r).last? cell)
  resize : ∀ n, n ≤ maxResultCount → ∃ after,
    setResultCount (backend tolerance) s n = (.ok (), after) ∧
      Resized (backend tolerance) n s after
  /-- A result that has been dropped comes back empty. -/
  regrow : ∀ n m after last, setResultCount (backend tolerance) s n = (.ok (), after) →
    setResultCount (backend tolerance) after m = (.ok (), last) →
    ∀ (cell : Cell) r, cell.result? = some r → n < r → r ≤ m → cell.Live s →
      cell.read (backend tolerance) last = .error (.noValue cell.attr kind)
  exceed : ∀ n, maxResultCount < n → ∃ reason, setResultCount (backend tolerance) s n =
    (.error (.invalidValue (.global (.property .resultCount)) reason kind), s)
  undisturbed : ∀ (op : Operation) (cell : Cell) r, cell.result? = some r → cell.Live s →
    ¬op.Concerns cell →
      cell.read (backend tolerance) (s.perform tolerance op).2 = cell.read (backend tolerance) s

theorem Invariant.resized (valid : s.Invariant) (few : n ≤ maxResultCount) :
    Resized (backend tolerance) n s (s.resize n) := by
  have validAfter := (Write.resize few).invariant valid
  constructor
  case count =>
    rw [get_eq]
    exact congrArg Except.ok (length_resize s n)
  case kept =>
    intro cell r ofResult positive old included live
    exact valid.read_resize_of_le validAfter ofResult live positive old included
  case created =>
    intro cell r ofResult new included live
    exact validAfter.read_resize_of_lt ofResult live new included
  case dropped =>
    intro cell r ofResult beyond live
    have gone : (s.resize n).hasResult r = false := by
      rw [Bool.eq_false_iff, ne_eq, hasResult_iff, length_resize]
      omega
    have alive : cell.Live (s.resize n) := live
    rw [validAfter.read_result ofResult alive, gone, length_resize]
    rfl

private theorem setResultCount_eq (tolerance : Binary64) (s : Store) (n : Nat) :
    setResultCount (backend tolerance) s n =
      settleChange s (s.writeGlobal (.property .resultCount) n) :=
  set_eq ..

private theorem setResultCount_of_le (tolerance : Binary64) (s : Store) (few : n ≤ maxResultCount) :
    setResultCount (backend tolerance) s n = (.ok (), s.resize n) := by
  rw [setResultCount_eq]
  exact congrArg (settleChange s) (if_pos few)

theorem results_remembered (tolerance : Binary64) (ops : List Operation) :
    ResultsRemembered tolerance (logOf tolerance empty [] ops) (Store.run tolerance empty ops) := by
  have remembers : Remembers tolerance (logOf tolerance empty [] ops) _ := Remembers.empty.run ops
  have valid := remembers.valid
  constructor
  case count =>
    rw [get_eq]
    exact congrArg Except.ok remembers.count
  case created => exact fun r positive within => Log.exists_creation positive within
  case read =>
    intro cell r ofResult positive within live
    exact remembers.read cell r ofResult positive (remembers.count ▸ within) live
  case resize =>
    intro n few
    exact ⟨_, setResultCount_of_le tolerance _ few, valid.resized few⟩
  case regrow =>
    intro n m after last shrunk grown cell r ofResult beyond included live
    obtain ⟨few, rfl⟩ := resize_of_stored (set_ok shrunk)
    obtain ⟨many, rfl⟩ := resize_of_stored (set_ok grown)
    have validShrunk := (Write.resize few).invariant valid
    refine (validShrunk.resized many).created cell r ofResult ?_ included live
    exact (length_resize _ n).symm ▸ beyond
  case exceed =>
    intro n many
    obtain ⟨reason, refused⟩ := writeGlobal_exceeding (s := Store.run tolerance empty ops)
      (a := .property .resultCount) (v := n) (decide_eq_true many)
    exact ⟨reason, by rw [setResultCount_eq, refused]; rfl⟩
  case undisturbed =>
    intro op cell r ofResult live unconcerned
    exact valid.read_unconcerned ofResult live unconcerned

-- shrinking and growing again leaves the first value and loses the second
example :
    let s := run .zero empty [.addVariable, .set (.property .resultCount) (2 : Nat),
      .setAt (k := .var) (.primal 1) ⟨1⟩ Binary64.one,
      .setAt (k := .var) (.primal 2) ⟨1⟩ Binary64.one,
      .set (.property .resultCount) (1 : Nat), .set (.property .resultCount) (2 : Nat)]
    s.readVariable (.primal 1) ⟨1⟩ = .ok Binary64.one ∧
      s.readVariable (.primal 2) ⟨1⟩ = .error (.noValue (.var (.primal 2)) kind) :=
  ⟨rfl, rfl⟩

end Store

end SolverProtocol
