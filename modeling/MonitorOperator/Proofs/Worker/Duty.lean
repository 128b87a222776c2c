import MonitorOperator.Deployment
import MonitorOperator.Proofs.Pass.Account

/-! The work on a key, call by call. What a worker does next with its key is a duty, and the duties
follow on one another as the calls of the worker do. -/

namespace MonitorOperator

namespace Worker

def wrapUp (key : String) (start : Moment) (outcome : Outcome) : Steps Unit := do
  let stop ← Program.ask .clock
  tell (.observe (elapsed start stop) outcome)
  tell .finished
  tell (.done key)
  tell .showDepth

def blame (key : String) (start : Moment) (cause : Error) : Steps Unit :=
  match cause with
  | .store _ => .call (.storeFailing cause.message) fun _ => wrapUp key start .retry
  | _ => wrapUp key start .retry

def renew (key : String) (start : Moment) (action : Pass.Action) : Steps Unit :=
  match action with
  | .requeue delay => .call (.addAfter key delay) fun _ => wrapUp key start .success
  | .awaitChange => wrapUp key start .success

def settle (key : String) (start : Moment) (result : Except Error Pass.Action) : Steps Unit :=
  follow key result >>= wrapUp key start

end Worker

inductive Duty where
  | opening (d : Pass.Delays) (t : Child.Template)
  | timing (d : Pass.Delays) (t : Child.Template)
  /-- the pass, or what follows on it once there is nothing left of it -/
  | passing (start : Moment) (p : Pass.Steps (Except Error Pass.Action))
  | praising (start : Moment) (action : Pass.Action)
  | renewing (start : Moment) (delay : Duration)
  | counting (start : Moment) (cause : Error) (delay : Duration)
  | consulting (start : Moment) (cause : Error) (delay : Duration)
  | warning (start : Moment) (cause : Error) (delay : Duration) (attempts : Nat)
  | blaming (start : Moment) (cause : StoreError)
  | dropping (start : Moment) (cause : Error)
  | stopping (start : Moment) (outcome : Outcome)
  | observing (took : Duration) (outcome : Outcome)
  | finishing
  | releasing
  | showing
  | ended

namespace Duty

open Worker

def rest (key : String) : Duty → Steps Unit
  | .opening d t => serve d t key
  | .timing d t => .call .clock fun start => ofPass (Pass.sync d t key) >>= settle key start
  | .passing start p => ofPass p >>= settle key start
  | .praising start action => .call .storeWell fun _ => renew key start action
  | .renewing start delay => renew key start (.requeue delay)
  | .counting start cause delay => .call .countRetry fun _ => .call (.attempts key) fun attempts =>
    .call (.log (.syncFailed key cause.message delay attempts)) fun _ => blame key start cause
  | .consulting start cause delay => .call (.attempts key) fun attempts =>
    .call (.log (.syncFailed key cause.message delay attempts)) fun _ => blame key start cause
  | .warning start cause delay attempts =>
    .call (.log (.syncFailed key cause.message delay attempts)) fun _ => blame key start cause
  | .blaming start cause => blame key start (.store cause)
  | .dropping start cause =>
    .call (.log (.keyDropped key cause.message)) fun _ => wrapUp key start .dropped
  | .stopping start outcome => wrapUp key start outcome
  | .observing took outcome => .call (.observe took outcome) fun _ => .call .finished fun _ =>
    .call (.done key) fun _ => tell .showDepth
  | .finishing => .call .finished fun _ => .call (.done key) fun _ => tell .showDepth
  | .releasing => .call (.done key) fun _ => tell .showDepth
  | .showing => tell .showDepth
  | .ended => .finish ()

def next (key : String) (site : Deployment) : Duty → Duty
  | .opening d t => .timing d t
  | .timing d t => .passing site.now (Pass.sync d t key)
  | .passing start (.call c more) => .passing start (more (Deployment.replyToPass c site).2)
  | .passing start (.finish (.ok action)) => .praising start action
  | .passing start (.finish (.error cause)) =>
    if cause.isRetryable then .counting start cause (site.addRateLimited key).2
    else .dropping start cause
  | .praising start (.requeue delay) => .renewing start delay
  | .praising start .awaitChange => .stopping start .success
  | .renewing start _ => .stopping start .success
  | .counting start cause delay => .consulting start cause delay
  | .consulting start cause delay =>
    .warning start cause delay (site.operator.queue.attempts key)
  | .warning start (.store cause) _ _ => .blaming start cause
  | .warning start _ _ _ => .stopping start .retry
  | .blaming start _ => .stopping start .retry
  | .dropping start _ => .stopping start .dropped
  | .stopping start outcome => .observing (elapsed start site.now) outcome
  | .observing .. => .finishing
  | .finishing => .releasing
  | .releasing => .showing
  | .showing => .ended
  | .ended => .ended

inductive Settled (key : String) (start : Moment) :
    Except Error Pass.Action → Steps Unit → Prop where
  | done (action : Pass.Action) : Settled key start (.ok action)
      (.call (.forget key) fun _ => (praising start action).rest key)
  | retried (cause : Error) (retryable : cause.isRetryable = true) :
      Settled key start (.error cause)
        (.call (.addRateLimited key) fun delay => (counting start cause delay).rest key)
  | dropped (cause : Error) (final : cause.isRetryable = false) : Settled key start (.error cause)
      (.call (.forget key) fun _ => (dropping start cause).rest key)

theorem settled (key : String) (start : Moment) (result : Except Error Pass.Action) :
    Settled key start result ((passing start (.finish result)).rest key) := by
  change Settled key start result (settle key start result)
  cases result with
  | ok action =>
    have same : settle key start (.ok action) =
        .call (.forget key) fun _ => (praising start action).rest key := by cases action <;> rfl
    rw [same]
    exact .done action
  | error cause =>
    cases retryable : cause.isRetryable with
    | true =>
      have same : settle key start (.error cause) =
          .call (.addRateLimited key) fun delay => (counting start cause delay).rest key := by
        rw [settle, follow, if_pos retryable]
        cases cause <;> rfl
      rw [same]
      exact .retried cause retryable
    | false =>
      have same : settle key start (.error cause) =
          .call (.forget key) fun _ => (dropping start cause).rest key := by
        rw [settle, follow, retryable]
        rfl
      rw [same]
      exact .dropped cause retryable

theorem rest_next {key : String} {duty : Duty} {c : Call} {more : Reply c → Steps Unit}
    (rest : duty.rest key = .call c more) (site : Deployment) :
    more (Deployment.reply c site).2 = (duty.next key site).rest key := by
  cases duty with
  | passing start p =>
    cases p with
    | call c next =>
      cases rest
      rfl
    | finish result =>
      have settled := settled key start result
      rw [rest] at settled
      cases settled with
      | done action => rfl
      | retried cause retryable =>
        simp only [next, retryable, if_true]
        rfl
      | dropped cause final => simp only [next, final, Bool.false_eq_true, if_false]
  | praising start action =>
    cases rest
    cases action <;> rfl
  | warning start cause delay attempts =>
    cases rest
    cases cause <;> rfl
  | ended => contradiction
  | _ =>
    cases rest
    rfl

theorem eq_ended {duty : Duty} {key : String} (rest : duty.rest key = .finish ()) :
    duty = .ended := by
  cases duty with
  | ended => rfl
  | passing start p =>
    cases p with
    | call c next => contradiction
    | finish result =>
      have settled := settled key start result
      rw [rest] at settled
      contradiction
  | _ => contradiction

end Duty

end MonitorOperator
