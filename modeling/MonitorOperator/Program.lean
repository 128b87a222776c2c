/-!
Programs that wait for the reply to one call after the other. Whoever runs a program decides what a
reply is and what happens between two calls.
-/

namespace MonitorOperator

/-- A program is finished, or it makes a call and goes on with the reply. -/
inductive Program (Call : Type) (Reply : Call → Type) (α : Type) where
  | finish (result : α)
  | call (c : Call) (next : Reply c → Program Call Reply α)

namespace Program

variable {Call : Type} {Reply : Call → Type} {α β σ : Type}

def bind : Program Call Reply α → (α → Program Call Reply β) → Program Call Reply β
  | .finish a, f => f a
  | .call c next, f => .call c (fun r => (next r).bind f)

instance : Monad (Program Call Reply) where
  pure := .finish
  bind := bind

def ask (c : Call) : Program Call Reply (Reply c) := .call c .finish

def run (answer : (c : Call) → σ → σ × Reply c) : Program Call Reply α → σ → σ × α
  | .finish a, s => (s, a)
  | .call c next, s =>
    let (s, r) := answer c s
    (next r).run answer s

def embed {Call' : Type} {Reply' : Call' → Type} (into : Call → Call')
    (reply : (c : Call) → Reply' (into c) → Reply c) :
    Program Call Reply α → Program Call' Reply' α
  | .finish a => .finish a
  | .call c next => .call (into c) (fun r => (next (reply c r)).embed into reply)

end Program

end MonitorOperator
