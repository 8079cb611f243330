import SolverProtocol.Backend.Access
import SolverProtocol.Proofs.Request.Reply

/-! Reading through a backend of which nothing is known. It answers a request by a program that may
make any replies, with values of any type and any number, and may end as it likes, whatever came of
them. -/

namespace SolverProtocol

section Settle

variable {Call : Type} {Response : Call → Type} {σ τ : Type}
  {handle : (request : Call) → Option τ → Response request × Option τ}
  {given? : Call → Option τ} {accepted : (request : Call) → Response request → Bool}
  {value : τ} {after : σ} {e : ProtocolError}

/-- The request ended with success, and `value` is that of the last accepted reply. -/
structure Answered (given? : Call → Option τ)
    (accepted : (request : Call) → Response request → Bool)
    (course : Course Response (Outcome σ)) (value : τ) (after : σ) : Prop where
  ended : course.result = (.ok (), after)
  last : LastGave given? accepted course.exchanges value

/-- The request ended with success, but no reply was accepted. -/
structure Unanswered (accepted : (request : Call) → Response request → Bool)
    (course : Course Response (Outcome σ)) (after : σ) : Prop where
  ended : course.result = (.ok (), after)
  unaccepted : NoneAccepted accepted course.exchanges

theorem Fills.answered_iff (law : Fills handle given? accepted)
    (p : Program Call Response (Outcome σ)) :
    Answered given? accepted (p.course handle none) value after ↔
      p.run handle none = ((.ok (), after), some value) := by
  have filled := law.run_eq_some_iff p none value
  constructor
  · rintro ⟨ended, last⟩
    exact Prod.ext ended (filled.2 (.inl last))
  · intro ran
    rcases filled.1 (congrArg Prod.snd ran) with last | ⟨held, -⟩
    · exact ⟨congrArg Prod.fst ran, last⟩
    · cases held

theorem Fills.unanswered_iff (law : Fills handle given? accepted)
    (p : Program Call Response (Outcome σ)) :
    Unanswered accepted (p.course handle none) after ↔
      p.run handle none = ((.ok (), after), none) := by
  have empty := law.run_eq_none_iff p none
  constructor
  · rintro ⟨ended, unaccepted⟩
    exact Prod.ext ended (empty.2 ⟨rfl, unaccepted⟩)
  · intro ran
    exact ⟨congrArg Prod.fst ran, (empty.1 (congrArg Prod.snd ran)).2⟩

variable {a : Attribute} {kind : σ → String}

theorem Fills.settle_ok_iff (law : Fills handle given? accepted)
    (p : Program Call Response (Outcome σ)) :
    settle a kind (p.run handle none) = (.ok value, after) ↔
      Answered given? accepted (p.course handle none) value after := by
  rw [law.answered_iff]
  rcases p.run handle none with ⟨⟨_ | _, last⟩, _ | v⟩ <;> simp [settle, and_comm]

theorem Fills.settle_error_iff (law : Fills handle given? accepted)
    (p : Program Call Response (Outcome σ)) :
    settle a kind (p.run handle none) = (.error e, after) ↔
      (p.course handle none).result = (.error e, after) ∨
        Unanswered accepted (p.course handle none) after ∧ e = .noValue a (kind after) := by
  rw [law.unanswered_iff, Program.course]
  rcases p.run handle none with ⟨⟨_ | _, last⟩, _ | v⟩ <;> simp [settle]
  constructor
  · rintro ⟨rfl, rfl⟩
    exact ⟨rfl, rfl⟩
  · rintro ⟨rfl, rfl⟩
    exact ⟨rfl, rfl⟩

end Settle

namespace Backend

variable {σ : Type} {k : IndexKind}

/-- How a request for the value of a global attribute goes. -/
def readCourse (B : Backend σ) (s : σ) (a : GlobalAttribute) :
    Course Reply.Response (Outcome σ) :=
  (B.read s a).course (Reply.deliver a) none

def readAtCourse (B : Backend σ) (s : σ) (a : IndexedAttribute k) (index : k.Index) :
    Course (fun _ : IndexedReply => Except ProtocolError Unit) (Outcome σ) :=
  (B.readAt s a index).course (IndexedReply.deliver a) none

def readManyCourse (B : Backend σ) (s : σ) (a : IndexedAttribute k) (indices : List k.Index) :
    Course (fun _ : BulkReply => Except ProtocolError Unit) (Outcome σ) :=
  (B.readMany s a indices).course (BulkReply.deliver a indices.length) none

/-- The values are read at their indices in turn, and none is refused. -/
inductive GetInTurn (B : Backend σ) (a : IndexedAttribute k) :
    σ → List k.Index → List a.Value → σ → Prop where
  | nil (s : σ) : GetInTurn B a s [] [] s
  | cons {s middle after : σ} {index : k.Index} {value : a.Value} {rest : List k.Index}
      {values : List a.Value} (read : B.getAt s a index = (.ok value, middle))
      (more : GetInTurn B a middle rest values after) :
      GetInTurn B a s (index :: rest) (value :: values) after

variable {B : Backend σ} {a : IndexedAttribute k} {s after : σ} {e : ProtocolError}

private theorem GetInTurn.length_eq {indices : List k.Index} {values : List a.Value}
    (inTurn : GetInTurn B a s indices values after) : values.length = indices.length := by
  induction inTurn with
  | nil => rfl
  | cons read more ih => exact congrArg (· + 1) ih

theorem getEach_ok_iff {indices : List k.Index} {values : List a.Value} :
    B.getEach s a indices = (.ok values, after) ↔ GetInTurn B a s indices values after := by
  induction indices generalizing s values with
  | nil =>
    constructor
    · intro read
      cases read
      exact .nil _
    · intro inTurn
      cases inTurn
      rfl
  | cons index rest ih =>
    rw [getEach]
    constructor
    · intro read
      rcases first : B.getAt s a index with ⟨reason | value, middle⟩ <;> rw [first] at read
      · cases read
      · rcases more : B.getEach middle a rest with ⟨reason | others, last⟩ <;>
          simp only [more] at read <;> cases read
        exact .cons first (ih.1 more)
    · rintro (_ | ⟨first, more⟩)
      simp only [first, ih.2 more]

/-- Values read one by one fail as the first of them that cannot be read. -/
theorem getEach_error_iff {indices : List k.Index} :
    B.getEach s a indices = (.error e, after) ↔
      ∃ before index later values middle, indices = before ++ index :: later ∧
        GetInTurn B a s before values middle ∧ B.getAt middle a index = (.error e, after) := by
  induction indices generalizing s with
  | nil =>
    constructor
    · intro read
      cases read
    · rintro ⟨before, index, later, values, middle, split, -⟩
      cases before <;> cases split
  | cons index rest ih =>
    rw [getEach]
    constructor
    · intro read
      rcases first : B.getAt s a index with ⟨reason | value, middle⟩ <;> rw [first] at read
      · cases read
        exact ⟨[], index, rest, [], s, rfl, .nil s, first⟩
      · rcases more : B.getEach middle a rest with ⟨reason | others, last⟩ <;>
          simp only [more] at read <;> cases read
        obtain ⟨before, refused, later, values, state, rfl, inTurn, refusal⟩ := ih.1 more
        exact ⟨index :: before, refused, later, value :: values, state, rfl,
          .cons first inTurn, refusal⟩
    · rintro ⟨before, refused, later, values, state, split, inTurn, refusal⟩
      cases inTurn with
      | nil =>
        cases split
        simp only [refusal]
      | cons first inTurn =>
        cases split
        simp only [first, ih.2 ⟨_, _, _, _, _, rfl, inTurn, refusal⟩]

variable {indices : List k.Index}

theorem getMany_ok_iff {values : List a.Value} :
    B.getMany s a indices = (.ok values, after) ↔
      Answered (BulkReply.given? a indices.length) BulkReply.accepted
          (B.readManyCourse s a indices) values after ∨
        ∃ middle, Unanswered BulkReply.accepted (B.readManyCourse s a indices) middle ∧
          GetInTurn B a middle indices values after := by
  have law := BulkReply.deliver_fills a indices.length
  rw [readManyCourse, law.answered_iff]
  simp only [law.unanswered_iff]
  unfold getMany
  rcases (B.readMany s a indices).run (BulkReply.deliver a indices.length) none with
    ⟨⟨_ | _, last⟩, _ | v⟩ <;> simp [getEach_ok_iff, and_comm]

theorem getMany_error_iff :
    B.getMany s a indices = (.error e, after) ↔
      (B.readManyCourse s a indices).result = (.error e, after) ∨
        ∃ middle, Unanswered BulkReply.accepted (B.readManyCourse s a indices) middle ∧
          B.getEach middle a indices = (.error e, after) := by
  have law := BulkReply.deliver_fills a indices.length
  rw [readManyCourse]
  simp only [law.unanswered_iff]
  unfold getMany Program.course
  rcases (B.readMany s a indices).run (BulkReply.deliver a indices.length) none with
    ⟨⟨_ | _, last⟩, _ | v⟩ <;> simp

theorem getMany_length {values : List a.Value}
    (read : B.getMany s a indices = (.ok values, after)) : values.length = indices.length := by
  rcases getMany_ok_iff.1 read with ⟨-, before, last, later, -, -, gave, -⟩ | ⟨middle, -, inTurn⟩
  · exact BulkReply.length_given? gave
  · exact inTurn.length_eq

private theorem overwrite_eq {α : Type} {output values : List α}
    (aligned : output.length = values.length) : overwrite output values = values := by
  induction output generalizing values with
  | nil => cases values <;> simp_all [overwrite]
  | cons old output ih =>
    cases values with
    | nil => cases aligned
    | cons value values =>
      rw [overwrite, ih (Nat.succ.inj aligned)]

section GetInto

variable {output left : List a.Value}

theorem getInto_ok_iff (aligned : output.length = indices.length) :
    B.getInto s a output indices = (.ok (), left, after) ↔
      B.getMany s a indices = (.ok left, after) := by
  unfold getInto
  rw [if_neg (not_not_intro aligned)]
  rcases read : B.getMany s a indices with ⟨_ | values, last⟩
  · simp
  · simp [overwrite_eq (aligned.trans (getMany_length read).symm)]

theorem getInto_error_iff (aligned : output.length = indices.length) :
    B.getInto s a output indices = (.error e, left, after) ↔
      left = output ∧ B.getMany s a indices = (.error e, after) := by
  unfold getInto
  rw [if_neg (not_not_intro aligned)]
  rcases B.getMany s a indices with ⟨_ | values, last⟩ <;> simp [and_left_comm, eq_comm]

end GetInto

end Backend

/-- What reading from the backend comes to, from the replies that it made and how it ended. -/
structure ReadsSafely {σ : Type} (B : Backend σ) (s : σ) : Prop where
  get_ok : ∀ a value after, B.get s a = (.ok value, after) ↔
    Answered (Reply.given? a) Reply.accepted (B.readCourse s a) value after
  get_error : ∀ a e after, B.get s a = (.error e, after) ↔
    (B.readCourse s a).result = (.error e, after) ∨
      Unanswered Reply.accepted (B.readCourse s a) after ∧
        e = .noValue (.global a) (B.kind after)
  getAt_ok : ∀ k (a : IndexedAttribute k) index value after,
    B.getAt s a index = (.ok value, after) ↔
      Answered (IndexedReply.given? a) IndexedReply.accepted (B.readAtCourse s a index) value after
  getAt_error : ∀ k (a : IndexedAttribute k) index e after,
    B.getAt s a index = (.error e, after) ↔
      (B.readAtCourse s a index).result = (.error e, after) ∨
        Unanswered IndexedReply.accepted (B.readAtCourse s a index) after ∧
          e = .noValue a.toAttribute (B.kind after)
  getMany_length : ∀ k (a : IndexedAttribute k) indices values after,
    B.getMany s a indices = (.ok values, after) → values.length = indices.length
  /-- A request without an answer is made index by index. -/
  getMany_ok : ∀ k (a : IndexedAttribute k) indices values after,
    B.getMany s a indices = (.ok values, after) ↔
      Answered (BulkReply.given? a indices.length) BulkReply.accepted
          (B.readManyCourse s a indices) values after ∨
        ∃ middle, Unanswered BulkReply.accepted (B.readManyCourse s a indices) middle ∧
          B.GetInTurn a middle indices values after
  /-- Without an answer, the first index at which the value cannot be read decides. -/
  getMany_error : ∀ k (a : IndexedAttribute k) indices e after,
    B.getMany s a indices = (.error e, after) ↔
      (B.readManyCourse s a indices).result = (.error e, after) ∨
        ∃ start, Unanswered BulkReply.accepted (B.readManyCourse s a indices) start ∧
          ∃ before index later values middle, indices = before ++ index :: later ∧
            B.GetInTurn a start before values middle ∧
            B.getAt middle a index = (.error e, after)
  /-- The lengths are compared before the backend is asked. -/
  getInto_mismatch : ∀ k (a : IndexedAttribute k) output indices,
    output.length ≠ indices.length → B.getInto s a output indices =
      (.error (.lengthMismatch indices.length output.length), output, s)
  getInto_ok : ∀ k (a : IndexedAttribute k) output indices left after,
    output.length = indices.length → (B.getInto s a output indices = (.ok (), left, after) ↔
      B.getMany s a indices = (.ok left, after))
  getInto_error : ∀ k (a : IndexedAttribute k) output indices e left after,
    output.length = indices.length → (B.getInto s a output indices = (.error e, left, after) ↔
      left = output ∧ B.getMany s a indices = (.error e, after))

theorem reads_safely {σ : Type} (B : Backend σ) (s : σ) : ReadsSafely B s := by
  constructor
  case get_ok => exact fun a value after => (Reply.deliver_fills a).settle_ok_iff (B.read s a)
  case get_error => exact fun a e after => (Reply.deliver_fills a).settle_error_iff (B.read s a)
  case getAt_ok =>
    exact fun k a index value after =>
      (IndexedReply.deliver_fills a).settle_ok_iff (B.readAt s a index)
  case getAt_error =>
    exact fun k a index e after =>
      (IndexedReply.deliver_fills a).settle_error_iff (B.readAt s a index)
  case getMany_length => exact fun k a indices values after => Backend.getMany_length
  case getMany_ok => exact fun k a indices values after => Backend.getMany_ok_iff
  case getMany_error =>
    intro k a indices e after
    simp only [Backend.getMany_error_iff, Backend.getEach_error_iff]
  case getInto_mismatch => exact fun k a output indices differ => if_pos differ
  case getInto_ok => exact fun k a output indices left after => Backend.getInto_ok_iff
  case getInto_error => exact fun k a output indices e left after => Backend.getInto_error_iff

-- the reply of another type fails, and the one before it stays
example :
    let twice : Backend Unit :=
      { kind := fun _ => "twice"
        read := fun s _ => .call (.value ⟨.text, "first"⟩) fun _ =>
          .call (.value ⟨.bool, true⟩) fun _ => .succeed s }
    twice.get () (.property .name) = (.ok "first", ()) :=
  rfl

end SolverProtocol
