import ServiceDesk.Error
import ServiceDesk.Store.Call

/-!
Operations of the desk as trees of steps. A step is one call on the store, or the taking or
releasing of one of the two layout locks; between two steps the steps of other operations may come
in. One operation on its own is run by answering its calls in turn.
-/

namespace ServiceDesk

/-- The locks of the service. Whoever holds one may rely on the parent links of that kind. -/
inductive Layout where
  | organizations
  | categories
  deriving DecidableEq, Repr

inductive Action (α : Type) : Type where
  | done (result : α)
  | call (call : Store.Call) (next : call.Answer → Action α)
  | acquire (layout : Layout) (next : Action α)
  | release (layout : Layout) (next : Action α)

namespace Action

variable {α β σ : Type}

def bind (action : Action α) (next : α → Action β) : Action β :=
  match action with
  | .done result => next result
  | .call c rest => .call c fun answer => (rest answer).bind next
  | .acquire layout rest => .acquire layout (rest.bind next)
  | .release layout rest => .release layout (rest.bind next)

instance : Monad Action where
  pure := .done
  bind := bind

/-- Run an action alone against something that answers calls. No lock is ever contended. -/
def run (answer : σ → (call : Store.Call) → call.Answer × σ) : Action α → σ → α × σ
  | .done result, state => (result, state)
  | .call c next, state =>
    let (reply, state) := answer state c
    (next reply).run answer state
  | .acquire _ next, state => next.run answer state
  | .release _ next, state => next.run answer state

end Action

/-- An action that succeeds with a value or fails for a reason of the desk. -/
abbrev Operation (α : Type) := ExceptT DeskError Action α

namespace Operation

variable {α : Type}

def ask (call : Store.Call) : Operation call.Result :=
  ExceptT.mk (.call call fun answer => .done (answer.mapError DeskError.ofStore))

def fail (error : DeskError) : Operation α := ExceptT.mk (.done (.error error))

def judge (outcome : Except DeskError α) : Operation α := ExceptT.mk (.done outcome)

/-- Hold a lock while an operation runs, whether it succeeds or fails. -/
def holding (layout : Layout) (operation : Operation α) : Operation α :=
  ExceptT.mk (.acquire layout (operation.run.bind fun outcome =>
    .release layout (.done outcome)))

def perform {σ : Type} (answer : σ → (call : Store.Call) → call.Answer × σ)
    (operation : Operation α) (state : σ) : Except DeskError α × σ :=
  operation.run.run answer state

end Operation

end ServiceDesk
