import Fieldbus.Gateway.Operation
/-!
Scripts: what an adapter or an application does when it is called.

Both may call back into the gateway. A script is a finite tree of such calls, each chosen by what
was seen and answered before; it can look at the gateway and has a state of its own around it. A
script always ends, so a gateway among scripts always answers: `perform` runs an operation with
calls nested to a given depth, and beyond that depth nobody answers.

Scripts can do what an adapter or application can: look at the gateway whenever they like, call
operations, and remember things. They cannot take forever, nor look into a gateway in the midst of a
change. To have them as data is what makes it possible to say of all of them at once what a gateway
keeps, and to watch them.
-/

namespace Fieldbus

/-- A finite, adaptive sequence of calls of the gateway that ends in a value. -/
inductive Script (σ α : Type) where
  /-- Ends. -/
  | done (a : α)
  /-- Looks at the gateway and at the surroundings. -/
  | look (next : Gateway → σ → Script σ α)
  /-- Puts the surroundings into another state. -/
  | store (outside : σ) (next : Script σ α)
  /-- Calls the gateway. -/
  | call (op : Op) (next : op.Result → Script σ α)

namespace Script
variable {σ α β : Type}

/-- One script, then another that depends on its value. -/
def bind (s : Script σ α) (next : α → Script σ β) : Script σ β :=
  match s with
  | .done a => next a
  | .look f => .look fun g o => (f g o).bind next
  | .store o rest => .store o (rest.bind next)
  | .call op f => .call op fun r => (f r).bind next

instance : Monad (Script σ) where
  pure := .done
  bind := bind

/-- What the gateway shows. -/
def query (f : Gateway → α) : Script σ α := .look fun g _ => .done (f g)

/-- Changes the surroundings. -/
def modify (f : σ → σ) : Script σ Unit := .look fun _ o => .store (f o) (.done ())

/-- Calls the gateway for its answer. -/
def perform (op : Op) : Script σ op.Result := .call op .done

/-- Calls the gateway several times in a row. -/
def times (op : Op) : Nat → Script σ Unit
  | 0 => .done ()
  | n + 1 => .call op fun _ => times op n

/-- What a script gives until it gives nothing, but at most as many values as said. -/
def collect (next : Script σ (Option α)) : (most : Nat) → Script σ (List α)
  | 0 => .done []
  | most + 1 => next.bind fun
    | none => .done []
    | some a => (collect next most).bind fun rest => .done (a :: rest)

/-- Runs a script, given how operations are performed. -/
def run (perform : (op : Op) → World σ → op.Result × World σ) :
    Script σ α → World σ → α × World σ
  | .done a, w => (a, w)
  | .look next, w => (next w.gateway w.outside).run perform w
  | .store outside next, w => next.run perform { w with outside }
  | .call op next, w =>
    let (r, w) := perform op w
    (next r).run perform w

end Script

/-! ## Environments

One script for each request and each indication. The depth is a bound on calls within calls; laws
hold for every depth, so it restricts nothing that ends. -/

/-- What the adapter does on each request, and the application on each indication. -/
structure Environment (σ : Type) where
  adapter : (r : Request) → Script σ r.Reply
  application : Indication → Script σ Unit

/-- The handler that runs the scripts of an environment. -/
def Environment.handler {σ : Type} (env : Environment σ)
    (perform : (op : Op) → World σ → op.Result × World σ) : Handler σ where
  ask r w := (env.adapter r).run perform w
  tell i w := ((env.application i).run perform w).2

/-- Performs an operation among the scripts of an environment. Operations that scripts call have
their own scripts run, to the given depth. -/
def Environment.perform {σ : Type} (env : Environment σ) :
    (depth : Nat) → (op : Op) → World σ → op.Result × World σ
  | 0, op, w => op.run .nobody w
  | depth + 1, op, w => op.run (env.handler (env.perform depth)) w

end Fieldbus
