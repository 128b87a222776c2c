import MonitorOperator.Proofs.Deployment.Reply
import MonitorOperator.Proofs.System.Steps

/-! What a step of the system can do downstream of the router: to the queue, to keys whose alarm has
rung, and to the keys in the hands of workers. -/

namespace MonitorOperator.System

open WorkQueue (Alike Delayed)

def Hand.held : Hand → Option String
  | .free => none
  | .working held _ => held
  | .fallen held => held

def held (s : System) (worker : Nat) : Option String := (s.hands worker).held

theorem held_hand (s : System) (worker : Nat) (h : Hand) :
    (s.hand worker h).held = Function.update s.held worker h.held := by
  funext other
  by_cases same : other = worker
  · subst same
    simp [System.held, hand]
  · simp [System.held, hand, same]

theorem held_hand_same {s : System} {worker : Nat} {h : Hand} (kept : h.held = s.held worker) :
    (s.hand worker h).held = s.held := by
  rw [held_hand, kept, Function.update_eq_self]

theorem held_eq {s : System} {worker : Nat} {held : Option String} {rest : Worker.Steps Unit}
    (h : s.hands worker = .working held rest) : s.held worker = held := by
  rw [System.held, h, Hand.held]

variable {may : Nat → Prop} {s t : System} {worker : Nat}

/-- All that a step can do to the queue, to keys whose alarm has rung and to the hands of workers. A
key is released by a worker that may. -/
inductive Downstream (may : Nat → Prop) (s t : System) : Prop where
  | still (queue : s.queue.Alike t.queue) (ringing : t.ringing = s.ringing) (held : t.held = s.held)
  | add (key : String) (queue : t.queue = s.queue.add key)
      (ringing : ∀ other ∈ s.ringing, other = key ∨ other ∈ t.ringing) (held : t.held = s.held)
  | waits (key : String) (due : Moment)
      (queue : Alike { s.queue with waiting := s.queue.waiting.insert key due } t.queue)
      (alarm : (due, .add key) ∈ t.alarms) (ringing : t.ringing = s.ringing)
      (held : t.held = s.held)
  | release (key : String) (due : Moment) (kept : s.queue.waiting.get? key = some due)
      (queue : t.queue = { s.queue with waiting := s.queue.waiting.erase key })
      (ringing : t.ringing = key :: s.ringing) (held : t.held = s.held)
  | take (worker : Nat) (key : String) (queue : s.queue.take? = some (key, t.queue))
      (ringing : t.ringing = s.ringing) (free : s.held worker = none)
      (held : t.held = Function.update s.held worker (some key))
  | done (worker : Nat) (key : String) (queue : t.queue = s.queue.done key)
      (ringing : t.ringing = s.ringing) (may : may worker) (holds : s.held worker = some key)
      (held : t.held = Function.update s.held worker none)

theorem Downstream.same (queue : t.queue = s.queue) (ringing : t.ringing = s.ringing)
    (held : t.held = s.held) : Downstream may s t := .still (queue ▸ .refl _) ringing held

theorem Downstream.delayed {key : String} {q : WorkQueue} {alarm : Option Moment}
    (answer : s.queue.Delayed key q alarm) (site : t.site = (s.site.setQueue q).setAlarm key alarm)
    (ringing : t.ringing = s.ringing) (held : t.held = s.held) : Downstream may s t := by
  have queue : t.queue = q := by rw [queue, site, Deployment.setAlarm_queue]
  cases answer with
  | added => exact .add key queue (fun _ member => .inr (ringing ▸ member)) held
  | kept there alike => exact .still (queue ▸ alike) ringing held
  | waits due alike =>
    refine .waits key due (queue ▸ alike) ?_ ringing held
    rw [alarms, site, Deployment.setAlarm_alarms]
    simp

/-- What is left of the work of a worker minds the key in the hand, which may be released if
`known`. -/
def Hand.Minds (known : Prop) : Hand → Prop
  | .free => True
  | .fallen _ => True
  | .working (some text) rest =>
    Worker.Minds text (fun grip _ => grip = .released) (.holding known) rest
  | .working none rest => ∃ text, Worker.Minds text (fun grip _ => grip = .released) .released rest

theorem heldAfter_keeps {c : Worker.Call} (keeps : c.isDone = false) (held : Option String) :
    heldAfter held c = held := by
  cases c with
  | done key => contradiction
  | _ => rfl

theorem Hand.Minds.releases {held : Option String} {key : String} {next : Unit → Worker.Steps Unit}
    {known : Prop} (minds : (Hand.working held (.call (.done key) next)).Minds known) :
    held = some key ∧ known := by
  cases held with
  | none =>
    obtain ⟨text, never, _⟩ := minds
    obtain ⟨_, _, eq, _⟩ := never key rfl
    exact nomatch eq
  | some text =>
    obtain ⟨same, _, eq, may⟩ := minds.1 key rfl
    cases eq
    exact ⟨congrArg some same.symm, may⟩

theorem downstream_call {s : System} (worker : Nat) {c : Worker.Call} (rest : Worker.Steps Unit)
    (keeps : c.isDone = false) (stands : Deployment.fails c s.site = false) :
    Downstream may s ({ s with site := (Deployment.reply c s.site).1 }.hand worker
      (.working (s.held worker) rest)) := by
  have held : ∀ site : Deployment,
      ({ s with site := site }.hand worker (.working (s.held worker) rest)).held = s.held :=
    fun _ => held_hand_same rfl
  cases c with
  | pass c =>
    cases c with
    | report r => exact .same (s.site.report_reported r).queue rfl (held _)
    | _ => exact .same rfl rfl (held _)
  | forget key => exact .still ⟨rfl, rfl, rfl, rfl, rfl⟩ rfl (held _)
  | addAfter key delay =>
    exact .delayed (s.queue.addAfter_delayed key stands) rfl rfl (held _)
  | addRateLimited key =>
    exact .delayed (s.queue.addRateLimited_delayed stands) rfl rfl (held _)
  | done key => contradiction
  | _ => exact .same rfl rfl (held _)

theorem downstream_fall {held : Option String} {c : Worker.Call}
    {next : Worker.Reply c → Worker.Steps Unit} (busy : s.hands worker = .working held (.call c next))
    (fails : Deployment.fails c s.site = true) :
    Downstream may s
      ({ s with site := (Deployment.reply c s.site).1 }.hand worker (.fallen held)) := by
  obtain ⟨backoff, counted⟩ := Deployment.reply_of_fails fails
  rw [counted]
  exact .still ⟨rfl, rfl, rfl, rfl, rfl⟩ rfl (held_hand_same (held_eq busy).symm)

theorem ring_downstream (s : System) (due : Moment) (alarm : Alarm) :
    Downstream may s (s.ring due alarm) := by
  cases alarm with
  | add key =>
    simp only [ring]
    split
    · exact .same rfl rfl rfl
    · rename_i queue released
      obtain ⟨kept, rfl⟩ := WorkQueue.release?_eq_some.mp released
      exact .release key due kept rfl rfl rfl
  | relist router =>
    simp only [ring]
    split
    · exact .same rfl rfl rfl
    · exact .same rfl rfl rfl

theorem complete_downstream (s : System) (key : String) : Downstream may s (s.complete key) := by
  refine .add key rfl (fun other member => ?_) rfl
  by_cases same : other = key
  · exact .inl same
  · exact .inr ((List.mem_erase_of_ne same).mpr member)

theorem Routed.downstream (h : Routed s t) : Downstream may s t := by
  cases h with
  | roused wake todo syncs _ =>
    cases wake with
    | monitor key => exact .add key.text rfl (fun _ member => .inr member) rfl
    | forget key => exact .still ⟨rfl, rfl, rfl, rfl, rfl⟩ rfl rfl
    | orphan pod owner => exact .same rfl rfl rfl
    | nobody => exact .same rfl rfl rfl
  | rejoined syncs _ => cases syncs <;> exact .same rfl rfl rfl
  | _ => exact .same rfl rfl rfl

theorem Stepped.downstream {move : Move} (h : Stepped s move t)
    (minds : ∀ worker, (s.hands worker).Minds (may worker)) : Downstream may s t := by
  cases h with
  | outside op => exact .same rfl rfl rfl
  | waited time => exact .same rfl rfl rfl
  | routed _ h => exact h.downstream
  | rang due alarm _ _ => exact s.ring_downstream due alarm
  | completed key _ => exact s.complete_downstream key
  | took worker key queue free taken =>
    exact .take worker key taken rfl (by simp [System.held, free, Hand.held]) (held_hand _ _ _)
  | ended worker held last =>
    have minded := minds worker
    rw [last] at minded
    cases held with
    | none => exact .same rfl rfl (held_hand_same (held_eq last).symm)
    | some text => exact nomatch minded
  | called worker held c next busy stands =>
    cases keeps : c.isDone with
    | false =>
      rw [heldAfter_keeps keeps, ← held_eq busy]
      exact downstream_call worker _ keeps stands
    | true =>
      cases c with
      | done key =>
        have minded := minds worker
        rw [busy] at minded
        obtain ⟨rfl, released⟩ := minded.releases
        exact .done worker key rfl rfl released (held_eq busy) (held_hand _ _ _)
      | _ => contradiction
  | fell worker held c next busy fails => exact downstream_fall busy fails

end MonitorOperator.System
