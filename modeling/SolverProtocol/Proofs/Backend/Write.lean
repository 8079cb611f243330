import SolverProtocol.Backend.Access
import SolverProtocol.Proofs.Request.Take

/-! Writing through a backend of which nothing is known. It answers a request by a program that may
make any takes in any order, and may end as it likes. No value is lost or handed out twice. -/

namespace SolverProtocol

section Consume

variable {Call : Type} {Response : Call → Type} {σ τ : Type}
  {handle : (request : Call) → Option τ → Response request × Option τ}
  {delivered : (request : Call) → Response request → Bool} {Hands : τ → Exchange Response → Prop}
  {value : τ} {after : σ} {e : ProtocolError}

/-- The request ended with success, and the value was handed out in one exchange. -/
structure Taken (delivered : (request : Call) → Response request → Bool)
    (Hands : Exchange Response → Prop) (course : Course Response (Outcome σ)) (after : σ) :
    Prop where
  ended : course.result = (.ok (), after)
  once : ∃ exchange, deliveries delivered course.exchanges = [exchange] ∧ Hands exchange

/-- The request ended with success, but the value was left. -/
structure Untaken (delivered : (request : Call) → Response request → Bool)
    (course : Course Response (Outcome σ)) (after : σ) : Prop where
  ended : course.result = (.ok (), after)
  left : deliveries delivered course.exchanges = []

theorem HandsOut.taken_iff (law : HandsOut handle delivered Hands)
    (p : Program Call Response (Outcome σ)) :
    Taken delivered (Hands value) (p.course handle (some value)) after ↔
      p.run handle (some value) = ((.ok (), after), none) := by
  rcases law.run_some p value with ⟨stays, none⟩ | ⟨empty, exchange, once, hands⟩
  · constructor
    · rintro ⟨-, exchange, once, -⟩
      cases none.symm.trans once
    · intro ran
      cases stays.symm.trans (congrArg Prod.snd ran)
  · constructor
    · rintro ⟨ended, -⟩
      exact Prod.ext ended empty
    · intro ran
      exact ⟨congrArg Prod.fst ran, exchange, once, hands⟩

theorem HandsOut.untaken_iff (law : HandsOut handle delivered Hands)
    (p : Program Call Response (Outcome σ)) :
    Untaken delivered (p.course handle (some value)) after ↔
      p.run handle (some value) = ((.ok (), after), some value) := by
  rcases law.run_some p value with ⟨stays, none⟩ | ⟨empty, exchange, once, hands⟩
  · constructor
    · rintro ⟨ended, -⟩
      exact Prod.ext ended stays
    · intro ran
      exact ⟨congrArg Prod.fst ran, none⟩
  · constructor
    · rintro ⟨-, left⟩
      cases left.symm.trans once
    · intro ran
      cases empty.symm.trans (congrArg Prod.snd ran)

/-- Whatever is in the slot after a run is the value that was put in. -/
theorem HandsOut.run_snd (law : HandsOut handle delivered Hands)
    (p : Program Call Response (Outcome σ)) {left : τ}
    (stays : (p.run handle (some value)).2 = some left) : left = value := by
  rcases law.run_some p value with ⟨same, -⟩ | ⟨empty, -⟩
  · exact Option.some.inj (stays.symm.trans same)
  · cases stays.symm.trans empty

variable {a : Attribute} {kind : σ → String}

theorem HandsOut.consumed_ok_iff (law : HandsOut handle delivered Hands)
    (p : Program Call Response (Outcome σ)) :
    consumed a kind (p.run handle (some value)) = (.ok (), after) ↔
      Taken delivered (Hands value) (p.course handle (some value)) after := by
  rw [law.taken_iff]
  rcases p.run handle (some value) with ⟨⟨_ | _, last⟩, _ | v⟩ <;> simp [consumed]

theorem HandsOut.consumed_error_iff (law : HandsOut handle delivered Hands)
    (p : Program Call Response (Outcome σ)) :
    consumed a kind (p.run handle (some value)) = (.error e, after) ↔
      (p.course handle (some value)).result = (.error e, after) ∨
        Untaken delivered (p.course handle (some value)) after ∧
          e = .unsupportedAccess a (kind after) := by
  rw [law.untaken_iff, Program.course]
  rcases ran : p.run handle (some value) with ⟨⟨_ | _, last⟩, _ | left⟩ <;> simp only [consumed]
  case ok.some =>
    obtain rfl := law.run_snd p (congrArg Prod.snd ran)
    constructor
    · intro refused
      cases refused
      exact .inr ⟨rfl, rfl⟩
    · rintro (ended | ⟨ended, rfl⟩) <;> cases ended
      rfl
  all_goals simp

end Consume

namespace Backend

variable {σ : Type} {k : IndexKind}

/-- How a request to store the value of a global attribute goes. -/
def writeCourse (B : Backend σ) (s : σ) (a : GlobalAttribute) (value : a.Value) :
    Course Take.Response (Outcome σ) :=
  (B.write s a).course (Take.deliver a) (some value)

def writeAtCourse (B : Backend σ) (s : σ) (a : IndexedAttribute k) (index : k.Index)
    (value : a.Value) :
    Course (fun take : IndexedTake => Option (take.Index × take.Value)) (Outcome σ) :=
  (B.writeAt s a index).course (IndexedTake.deliver a index) (some value)

def writeManyCourse (B : Backend σ) (s : σ) (a : IndexedAttribute k) (indices : List k.Index)
    (values : a.Values) :
    Course (fun take : IndexedTake => Option (List take.Index × take.Values)) (Outcome σ) :=
  (B.writeMany s a indices).course (IndexedTake.deliverAll a indices) (some values)

variable {B : Backend σ} {a : IndexedAttribute k} {s after : σ} {e : ProtocolError}

/-- The values are stored at their indices in turn, and none is refused. -/
inductive SetInTurn (B : Backend σ) (a : IndexedAttribute k) :
    σ → List (k.Index × a.Value) → σ → Prop where
  | nil (s : σ) : SetInTurn B a s [] s
  | cons {s middle after : σ} {index : k.Index} {value : a.Value} {rest : List (k.Index × a.Value)}
      (stored : B.setAt s a index value = (.ok (), middle))
      (more : SetInTurn B a middle rest after) : SetInTurn B a s ((index, value) :: rest) after

theorem setEach_ok_iff {pairs : List (k.Index × a.Value)} :
    B.setEach s a pairs = (.ok (), after) ↔ B.SetInTurn a s pairs after := by
  induction pairs generalizing s with
  | nil =>
    constructor
    · intro stored
      cases stored
      exact .nil _
    · intro inTurn
      cases inTurn
      rfl
  | cons pair rest ih =>
    rw [setEach]
    constructor
    · intro stored
      rcases first : B.setAt s a pair.1 pair.2 with ⟨reason | _, middle⟩ <;>
        simp only [first] at stored
      · cases stored
      · exact .cons first (ih.1 stored)
    · intro inTurn
      cases inTurn with
      | cons first more => simp only [first, ih.2 more]

/-- Values stored one by one fail as the first of them that is refused, after those before it have
been stored. -/
theorem setEach_error_iff {pairs : List (k.Index × a.Value)} :
    B.setEach s a pairs = (.error e, after) ↔
      ∃ before index value later middle, pairs = before ++ (index, value) :: later ∧
        B.SetInTurn a s before middle ∧ B.setAt middle a index value = (.error e, after) := by
  induction pairs generalizing s with
  | nil =>
    constructor
    · intro stored
      cases stored
    · rintro ⟨before, index, value, later, middle, split, -⟩
      cases before <;> cases split
  | cons pair rest ih =>
    rcases pair with ⟨index, value⟩
    rw [setEach]
    constructor
    · intro stored
      rcases first : B.setAt s a index value with ⟨reason | _, middle⟩ <;>
        simp only [first] at stored
      · cases stored
        exact ⟨[], index, value, rest, s, rfl, .nil s, first⟩
      · obtain ⟨before, refused, left, later, last, rfl, more, refusal⟩ := ih.1 stored
        exact ⟨(index, value) :: before, refused, left, later, last, rfl, .cons first more,
          refusal⟩
    · rintro ⟨before, refused, left, later, last, split, inTurn, refusal⟩
      cases inTurn with
      | nil =>
        cases split
        simp only [refusal]
      | cons first inTurn =>
        cases split
        simp only [first, ih.2 ⟨_, _, _, _, _, rfl, inTurn, refusal⟩]

section SetMany

variable {indices : List k.Index} {values : List a.Value}

theorem setMany_ok_iff (aligned : values.length = indices.length) :
    B.setMany s a indices values = (.ok (), after) ↔
      Taken IndexedTake.delivered (IndexedTake.HandsAll a indices values)
          (B.writeManyCourse s a indices values) after ∨
        ∃ middle, Untaken IndexedTake.delivered (B.writeManyCourse s a indices values) middle ∧
          B.SetInTurn a middle (indices.zip values) after := by
  have law := IndexedTake.deliverAll_handsOut a indices
  rw [writeManyCourse, law.taken_iff]
  simp only [law.untaken_iff]
  unfold setMany
  rw [if_neg (not_not_intro aligned)]
  rcases ran : (B.writeMany s a indices).run (IndexedTake.deliverAll a indices) (some values) with
    ⟨⟨_ | _, last⟩, _ | left⟩
  case ok.some =>
    obtain rfl := law.run_snd _ (congrArg Prod.snd ran)
    simp [setEach_ok_iff]
  all_goals simp

theorem setMany_error_iff (aligned : values.length = indices.length) :
    B.setMany s a indices values = (.error e, after) ↔
      (B.writeManyCourse s a indices values).result = (.error e, after) ∨
        ∃ start, Untaken IndexedTake.delivered (B.writeManyCourse s a indices values) start ∧
          B.setEach start a (indices.zip values) = (.error e, after) := by
  have law := IndexedTake.deliverAll_handsOut a indices
  rw [writeManyCourse]
  simp only [law.untaken_iff]
  unfold setMany Program.course
  rw [if_neg (not_not_intro aligned)]
  rcases ran : (B.writeMany s a indices).run (IndexedTake.deliverAll a indices) (some values) with
    ⟨⟨_ | _, last⟩, _ | left⟩
  case ok.some =>
    obtain rfl := law.run_snd _ (congrArg Prod.snd ran)
    simp
  all_goals simp

end SetMany

end Backend

/-- What writing to the backend comes to, from the takes that it made and how it ended. -/
structure WritesOnce {σ : Type} (B : Backend σ) (s : σ) : Prop where
  /-- However a request ends, its value has been handed out at most once. -/
  set_once : ∀ a value, AtMostOnce Take.delivered (Take.Hands a value)
    (B.writeCourse s a value).exchanges
  setAt_once : ∀ k (a : IndexedAttribute k) index value,
    AtMostOnce IndexedTake.delivered (IndexedTake.HandsAt a index value)
      (B.writeAtCourse s a index value).exchanges
  setMany_once : ∀ k (a : IndexedAttribute k) indices values,
    AtMostOnce IndexedTake.delivered (IndexedTake.HandsAll a indices values)
      (B.writeManyCourse s a indices values).exchanges
  set_ok : ∀ a value after, B.set s a value = (.ok (), after) ↔
    Taken Take.delivered (Take.Hands a value) (B.writeCourse s a value) after
  set_error : ∀ a value e after, B.set s a value = (.error e, after) ↔
    (B.writeCourse s a value).result = (.error e, after) ∨
      Untaken Take.delivered (B.writeCourse s a value) after ∧
        e = .unsupportedAccess (.global a) (B.kind after)
  setAt_ok : ∀ k (a : IndexedAttribute k) index value after,
    B.setAt s a index value = (.ok (), after) ↔
      Taken IndexedTake.delivered (IndexedTake.HandsAt a index value)
        (B.writeAtCourse s a index value) after
  setAt_error : ∀ k (a : IndexedAttribute k) index value e after,
    B.setAt s a index value = (.error e, after) ↔
      (B.writeAtCourse s a index value).result = (.error e, after) ∨
        Untaken IndexedTake.delivered (B.writeAtCourse s a index value) after ∧
          e = .unsupportedAccess a.toAttribute (B.kind after)
  /-- The lengths are compared before the backend is asked. -/
  setMany_mismatch : ∀ k (a : IndexedAttribute k) indices values,
    values.length ≠ indices.length → B.setMany s a indices values =
      (.error (.lengthMismatch indices.length values.length), s)
  /-- The values are taken all together, or are left and each is stored at its index. -/
  setMany_ok : ∀ k (a : IndexedAttribute k) indices values after,
    values.length = indices.length → (B.setMany s a indices values = (.ok (), after) ↔
      Taken IndexedTake.delivered (IndexedTake.HandsAll a indices values)
          (B.writeManyCourse s a indices values) after ∨
        ∃ start, Untaken IndexedTake.delivered (B.writeManyCourse s a indices values) start ∧
          B.SetInTurn a start (indices.zip values) after)
  /-- After the first value that is refused no other is stored. -/
  setMany_error : ∀ k (a : IndexedAttribute k) indices values e after,
    values.length = indices.length → (B.setMany s a indices values = (.error e, after) ↔
      (B.writeManyCourse s a indices values).result = (.error e, after) ∨
        ∃ start, Untaken IndexedTake.delivered (B.writeManyCourse s a indices values) start ∧
          ∃ before index value later middle,
            indices.zip values = before ++ (index, value) :: later ∧
              B.SetInTurn a start before middle ∧
              B.setAt middle a index value = (.error e, after))

theorem writes_once {σ : Type} (B : Backend σ) (s : σ) : TakesGuarded ∧ WritesOnce B s := by
  refine ⟨takesGuarded, ?_⟩
  constructor
  case set_once => exact fun a value => (Take.deliver_handsOut a).atMostOnce (B.write s a) value
  case setAt_once =>
    exact fun k a index value =>
      (IndexedTake.deliver_handsOut a index).atMostOnce (B.writeAt s a index) value
  case setMany_once =>
    exact fun k a indices values =>
      (IndexedTake.deliverAll_handsOut a indices).atMostOnce (B.writeMany s a indices) values
  case set_ok =>
    exact fun a value after => (Take.deliver_handsOut a).consumed_ok_iff (B.write s a)
  case set_error =>
    exact fun a value e after => (Take.deliver_handsOut a).consumed_error_iff (B.write s a)
  case setAt_ok =>
    exact fun k a index value after =>
      (IndexedTake.deliver_handsOut a index).consumed_ok_iff (B.writeAt s a index)
  case setAt_error =>
    exact fun k a index value e after =>
      (IndexedTake.deliver_handsOut a index).consumed_error_iff (B.writeAt s a index)
  case setMany_mismatch => exact fun k a indices values differ => if_pos differ
  case setMany_ok => exact fun k a indices values after => Backend.setMany_ok_iff
  case setMany_error =>
    intro k a indices values e after aligned
    simp only [Backend.setMany_error_iff aligned, Backend.setEach_error_iff]

/-- Without indices, constraints of one type are not told from those of another: the values, of
which there are none, are taken for the other type. -/
theorem no_indices_taken_for_other_type :
    let asked : ConstraintType := ⟨.singleVariable, ⟨.lessThan, .real⟩⟩
    let wanted : ConstraintType := ⟨.affine .real, ⟨.lessThan, .real⟩⟩
    asked ≠ wanted ∧
      IndexedTake.deliverAll (k := .constraint asked) .set [] (.typed (.constraint wanted) .set)
        (some []) = (some ([], []), none) :=
  ⟨by decide, rfl⟩

end SolverProtocol
