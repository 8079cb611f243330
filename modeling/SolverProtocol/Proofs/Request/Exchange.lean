import SolverProtocol.Request.Program

/-! What passes between a program and the handler of its calls. Two kinds of handlers keep a slot:
one puts in what each accepted call gives, so that the last of these calls counts, and one hands out
the value of its slot, which it can do only once. -/

namespace SolverProtocol

/-- A call and what it returned. -/
structure Exchange {Call : Type} (Response : Call → Type) where
  call : Call
  response : Response call

/-- How a run went: what it ended with, and the exchanges in their order. -/
structure Course {Call : Type} (Response : Call → Type) (α : Type) where
  result : α
  exchanges : List (Exchange Response)

variable {Call : Type} {Response : Call → Type} {α τ : Type}

namespace Program

def exchanges {σ : Type} (handle : (request : Call) → σ → Response request × σ) :
    Program Call Response α → σ → List (Exchange Response)
  | .done _, _ => []
  | .call request next, state =>
    ⟨request, (handle request state).1⟩ ::
      (next (handle request state).1).exchanges handle (handle request state).2

def course {σ : Type} (handle : (request : Call) → σ → Response request × σ)
    (p : Program Call Response α) (state : σ) : Course Response α :=
  ⟨(p.run handle state).1, p.exchanges handle state⟩

end Program

variable {handle : (request : Call) → Option τ → Response request × Option τ}

section Fill

variable {given? : Call → Option τ} {accepted : (request : Call) → Response request → Bool}

def NoneAccepted (accepted : (request : Call) → Response request → Bool)
    (exchanges : List (Exchange Response)) : Prop :=
  ∀ exchange ∈ exchanges, accepted exchange.call exchange.response = false

/-- The last of the accepted calls gave `value`. -/
def LastGave (given? : Call → Option τ) (accepted : (request : Call) → Response request → Bool)
    (exchanges : List (Exchange Response)) (value : τ) : Prop :=
  ∃ before last later, exchanges = before ++ last :: later ∧
    accepted last.call last.response = true ∧ given? last.call = some value ∧
    NoneAccepted accepted later

private theorem noneAccepted_cons {first : Exchange Response} {rest : List (Exchange Response)} :
    NoneAccepted accepted (first :: rest) ↔
      accepted first.call first.response = false ∧ NoneAccepted accepted rest :=
  List.forall_mem_cons

private theorem lastGave_cons {first : Exchange Response} {rest : List (Exchange Response)}
    {value : τ} :
    LastGave given? accepted (first :: rest) value ↔
      LastGave given? accepted rest value ∨
        accepted first.call first.response = true ∧ given? first.call = some value ∧
          NoneAccepted accepted rest := by
  constructor
  · rintro ⟨_ | ⟨_, before⟩, last, later, split, accept, gave, others⟩ <;> cases split
    · exact .inr ⟨accept, gave, others⟩
    · exact .inl ⟨before, last, later, rfl, accept, gave, others⟩
  · rintro (⟨before, last, later, rfl, holds⟩ | holds)
    · exact ⟨first :: before, last, later, rfl, holds⟩
    · exact ⟨[], first, rest, rfl, holds⟩

/-- The handler accepts a call if it gives something, which then replaces what is in the slot. A
call that is not accepted leaves the slot as it is. -/
structure Fills (handle : (request : Call) → Option τ → Response request × Option τ)
    (given? : Call → Option τ) (accepted : (request : Call) → Response request → Bool) : Prop where
  accepts : ∀ request slot,
    accepted request (handle request slot).1 = (given? request).isSome
  fills : ∀ request slot, (handle request slot).2 = (given? request).or slot

namespace Fills

/-- After a run the slot holds what the last accepted call gave, or else what it held before. -/
theorem run_eq_some_iff (law : Fills handle given? accepted) (p : Program Call Response α)
    (slot : Option τ) (value : τ) :
    (p.run handle slot).2 = some value ↔
      LastGave given? accepted (p.exchanges handle slot) value ∨
        slot = some value ∧ NoneAccepted accepted (p.exchanges handle slot) := by
  induction p generalizing slot with
  | done result => simp [Program.run, Program.exchanges, LastGave, NoneAccepted]
  | call request next ih =>
    rw [Program.run, Program.exchanges, ih, lastGave_cons, noneAccepted_cons, law.accepts,
      law.fills]
    cases given? request <;> simp

theorem run_eq_none_iff (law : Fills handle given? accepted) (p : Program Call Response α)
    (slot : Option τ) :
    (p.run handle slot).2 = none ↔
      slot = none ∧ NoneAccepted accepted (p.exchanges handle slot) := by
  induction p generalizing slot with
  | done result => simp [Program.run, Program.exchanges, NoneAccepted]
  | call request next ih =>
    rw [Program.run, Program.exchanges, ih, noneAccepted_cons, law.accepts, law.fills]
    cases given? request <;> simp

end Fills

end Fill

section HandOut

variable {delivered : (request : Call) → Response request → Bool}

/-- The exchanges in which the value was handed out. -/
def deliveries (delivered : (request : Call) → Response request → Bool)
    (exchanges : List (Exchange Response)) : List (Exchange Response) :=
  exchanges.filter fun exchange => delivered exchange.call exchange.response

/-- The value was handed out once, in an exchange of the right kind, or not at all. -/
def AtMostOnce (delivered : (request : Call) → Response request → Bool)
    (Hands : Exchange Response → Prop) (exchanges : List (Exchange Response)) : Prop :=
  deliveries delivered exchanges = [] ∨
    ∃ exchange, deliveries delivered exchanges = [exchange] ∧ Hands exchange

/-- The handler refuses the call, which leaves the slot as it is. -/
structure Refuses (handle : (request : Call) → Option τ → Response request × Option τ)
    (delivered : (request : Call) → Response request → Bool) (request : Call) : Prop where
  keeps : ∀ slot, (handle request slot).2 = slot
  nothing : ∀ slot, delivered request (handle request slot).1 = false

/-- The handler empties the slot and hands out the value that was in it, if there was one. -/
structure Gives (handle : (request : Call) → Option τ → Response request × Option τ)
    (delivered : (request : Call) → Response request → Bool)
    (Hands : τ → Exchange Response → Prop) (request : Call) : Prop where
  empties : ∀ slot, (handle request slot).2 = none
  delivers : ∀ slot, delivered request (handle request slot).1 = slot.isSome
  hands : ∀ value, Hands value ⟨request, (handle request (some value)).1⟩

/-- Every call is refused or given the value. -/
def HandsOut (handle : (request : Call) → Option τ → Response request × Option τ)
    (delivered : (request : Call) → Response request → Bool)
    (Hands : τ → Exchange Response → Prop) : Prop :=
  ∀ request, Refuses handle delivered request ∨ Gives handle delivered Hands request

namespace HandsOut

variable {Hands : τ → Exchange Response → Prop}

theorem run_none (law : HandsOut handle delivered Hands) (p : Program Call Response α) :
    (p.run handle none).2 = none ∧ deliveries delivered (p.exchanges handle none) = [] := by
  induction p with
  | done result => exact ⟨rfl, rfl⟩
  | call request next ih =>
    obtain ⟨stays, later⟩ := ih (handle request none).1
    have still : (handle request none).2 = none ∧
        delivered request (handle request none).1 = false := by
      rcases law request with refuses | gives
      · exact ⟨refuses.keeps none, refuses.nothing none⟩
      · exact ⟨gives.empties none, gives.delivers none⟩
    rw [Program.run, Program.exchanges, still.1]
    exact ⟨stays, by simpa [deliveries, still.2] using later⟩

/-- What a run leaves in the slot it has not handed out, and what it takes out it has handed out
once. -/
theorem run_some (law : HandsOut handle delivered Hands) (p : Program Call Response α)
    (value : τ) :
    ((p.run handle (some value)).2 = some value ∧
        deliveries delivered (p.exchanges handle (some value)) = []) ∨
      ((p.run handle (some value)).2 = none ∧
        ∃ exchange, deliveries delivered (p.exchanges handle (some value)) = [exchange] ∧
          Hands value exchange) := by
  induction p with
  | done result => exact .inl ⟨rfl, rfl⟩
  | call request next ih =>
    rw [Program.run, Program.exchanges]
    rcases law request with refuses | gives
    · rw [refuses.keeps]
      simpa [deliveries, refuses.nothing] using ih (handle request (some value)).1
    · rw [gives.empties]
      obtain ⟨stays, later⟩ := law.run_none (next (handle request (some value)).1)
      exact .inr ⟨stays, _, by simpa [deliveries, gives.delivers] using later, gives.hands value⟩

theorem atMostOnce (law : HandsOut handle delivered Hands) (p : Program Call Response α)
    (value : τ) : AtMostOnce delivered (Hands value) (p.exchanges handle (some value)) := by
  rcases law.run_some p value with ⟨-, left⟩ | ⟨-, once⟩
  · exact .inl left
  · exact .inr once

end HandsOut

end HandOut

end SolverProtocol
