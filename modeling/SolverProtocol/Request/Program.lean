namespace SolverProtocol

/-- A program that makes calls, goes on with what they return, and ends with a result. -/
inductive Program (Call : Type) (Response : Call → Type) (α : Type) : Type where
  | done (result : α)
  | call (request : Call) (next : Response request → Program Call Response α)

namespace Program

variable {Call : Type} {Response : Call → Type} {α β σ : Type}

/-- Runs a program against a handler of its calls that keeps a state. -/
def run (handle : (request : Call) → σ → Response request × σ) :
    Program Call Response α → σ → α × σ
  | .done result, state => (result, state)
  | .call request next, state =>
    (next (handle request state).1).run handle (handle request state).2

/-- Continues with a program that depends on the result of the first. -/
def bind (p : Program Call Response α) (next : α → Program Call Response β) :
    Program Call Response β :=
  match p with
  | .done result => next result
  | .call request rest => .call request fun response => (rest response).bind next

instance : Monad (Program Call Response) where
  pure := .done
  bind := bind

/-- One call, ending with what it returns. -/
def perform (request : Call) : Program Call Response (Response request) :=
  .call request .done

end Program

end SolverProtocol
