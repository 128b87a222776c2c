import MonitorOperator.Health
import MonitorOperator.Metrics

/-!
The answers to requests from outside: the two probes and the metrics. Every other path is not found,
and only reading is allowed.
-/

namespace MonitorOperator.Api

inductive Body where
  | empty
  | json (value : Json)
  | text (content : String)

structure Response where
  status : Nat
  contentType : Option String := none
  body : Body := .empty

inductive Resource where
  | health
  | readiness
  | metrics
deriving DecidableEq, Repr

def Resource.ofPath? (path : List Char) : Option Resource :=
  if path = "/healthz".toList then some .health
  else if path = "/readyz".toList then some .readiness
  else if path = "/metrics".toList then some .metrics
  else none

def afterScheme? : List Char → Option (List Char)
  | ':' :: '/' :: '/' :: rest => some rest
  | c :: rest => if c.isAlphanum || c = '+' || c = '-' || c = '.' || c = '~' then afterScheme? rest else none
  | [] => none

def pathOf (uri : String) : List Char :=
  let cs := uri.toList
  let path := match afterScheme? cs with
    | some rest => rest.dropWhile (fun c => c ≠ '/' ∧ c ≠ '?' ∧ c ≠ '#')
    | none => cs
  path.takeWhile (fun c => c ≠ '?' ∧ c ≠ '#')

def statusOf (available : Bool) : Nat := if available then 200 else 503

def content (board : Health.Board) (metrics : Metrics) : Resource → Response
  | .health => ⟨statusOf board.overall.isOperational, some "application/json", .json board.toJson⟩
  | .readiness =>
    let readiness := board.readiness
    ⟨statusOf readiness.ready, some "application/json", .json readiness.toJson⟩
  | .metrics => ⟨200, some "text/plain; charset=utf-8", .text metrics.exposition⟩

def respond (board : Health.Board) (metrics : Metrics) (method uri : String) : Response :=
  match Resource.ofPath? (pathOf uri) with
  | none => { status := 404 }
  | some resource =>
    if method = "GET" then content board metrics resource
    else if method = "HEAD" then { content board metrics resource with body := .empty }
    else { status := 405 }

end MonitorOperator.Api
