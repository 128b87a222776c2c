import MonitorOperator.Proofs.Store.Feed
import MonitorOperator.Proofs.System.Moves

/-! All that one step of the system can be. -/

namespace MonitorOperator.System

/-- All that the router can do, by the stage it is in. -/
inductive Routed (s : System) : System → Prop where
  | subscribed (stage : s.stage = .unsubscribed) :
      Routed s { s with stage := .listing, position := s.store.feed.size }
  | failed (cause : StoreError) (stage : s.stage = .listing) : Routed s (s.rest cause)
  | listed (listing : List Object) (stage : s.stage = .listing)
      (answer : s.store.list = .ok listing) :
      Routed s { s with stage := .listed (listing.filter Object.isMonitor) }
  | compared (monitors : List Object) (stage : s.stage = .listed monitors) :
      Routed s (s.listPods monitors)
  | absorbed (c : Change) (todo : List Change) (syncs : Bool)
      (stage : s.stage = .taking (c :: todo) syncs) : Routed s (s.absorb c todo syncs)
  | roused (wake : Wake) (todo : List Change) (syncs : Bool)
      (stage : s.stage = .waking wake todo syncs) : Routed s (s.rouse wake todo syncs)
  | rejoined (syncs : Bool) (stage : s.stage = .taking [] syncs) : Routed s (s.rejoin syncs)
  | lagged (missed position : Nat) (stage : s.stage = .watching)
      (back : position ≤ s.store.feed.size) :
      Routed s { s with
        site := s.site.log (.feedLagged missed), stage := .listing, position := position }
  | read (c : Change) (stage : s.stage = .watching)
      (kept : ¬ s.position + Feed.window < s.store.feed.size)
      (there : s.store.feed.changes[s.position]? = some c) :
      Routed s { s with stage := .taking [c] false, position := s.position + 1 }

theorem routed_of_route? {s t : System} (step : s.route? = some t) : Routed s t := by
  unfold route? at step
  split at step
  · rename_i stage
    cases Option.some.inj step
    exact .subscribed stage
  · rename_i stage
    cases Option.some.inj step
    unfold listMonitors
    split
    · exact .failed _ stage
    · rename_i listing answer
      exact .listed listing stage answer
  · contradiction
  · rename_i monitors stage
    cases Option.some.inj step
    exact .compared monitors stage
  · rename_i c todo syncs stage
    cases Option.some.inj step
    exact .absorbed c todo syncs stage
  · rename_i wake todo syncs stage
    cases Option.some.inj step
    exact .roused wake todo syncs stage
  · rename_i syncs stage
    cases Option.some.inj step
    exact .rejoined syncs stage
  · rename_i stage
    unfold read? at step
    split at step
    · contradiction
    · rename_i missed position delivered
      cases Option.some.inj step
      have next := (Feed.read_lagged delivered).2
      exact .lagged missed position stage (Nat.le_trans (Nat.le_of_eq next) (Nat.sub_le ..))
    · rename_i c position delivered
      cases Option.some.inj step
      obtain ⟨kept, there, rfl⟩ := Feed.read_change delivered
      exact .read c stage kept there

theorem Routed.drill {s t : System} (h : Routed s t) : t.site.drill = s.site.drill := by
  cases h with
  | rejoined syncs stage => cases syncs <;> rfl
  | _ => rfl

theorem Routed.hands {s t : System} (h : Routed s t) : t.hands = s.hands := by cases h <;> rfl

theorem Routed.alarms {s t : System} (h : Routed s t) {a : Moment × Alarm} (set : a ∈ s.alarms) :
    a ∈ t.alarms := by
  cases h with
  | failed cause stage => exact List.mem_append_left _ set
  | rejoined syncs stage => cases syncs <;> exact set
  | _ => exact set

theorem Routed.resting {s t : System} (h : Routed s t) (stage : t.stage = .resting) :
    ∃ due, (due, .relist 0) ∈ t.alarms := by
  cases h with
  | failed cause _ => exact ⟨_, List.mem_append_right _ (List.mem_singleton_self _)⟩
  | _ => exact nomatch stage

inductive Stepped (s : System) : Move → System → Prop where
  | outside (op : Store.Operation) : Stepped s (.outside op)
      { s with site := { s.site with drill := { s.site.drill with store := op.run s.store } } }
  | waited (time : Nat) :
      Stepped s (.wait time) { s with site := { s.site with now := s.site.now + time } }
  | routed (t : System) (h : Routed s t) : Stepped s .route t
  | rang (due : Moment) (alarm : Alarm) (set : (due, alarm) ∈ s.alarms) (late : due ≤ s.site.now) :
      Stepped s (.ring due alarm) (s.ring due alarm)
  | completed (key : String) (rung : key ∈ s.ringing) : Stepped s (.complete key) (s.complete key)
  | took (worker : Nat) (key : String) (queue : WorkQueue) (free : s.hands worker = .free)
      (taken : s.queue.take? = some (key, queue)) :
      Stepped s (.take worker) ({ s with site := s.site.setQueue queue }.hand worker
        (.working (some key) (Worker.serve s.site.operator.delays s.site.operator.template key)))
  | ended (worker : Nat) (held : Option String)
      (last : s.hands worker = .working held (.finish ())) :
      Stepped s (.work worker) (s.hand worker .free)
  | called (worker : Nat) (held : Option String) (c : Worker.Call)
      (next : Worker.Reply c → Worker.Steps Unit)
      (busy : s.hands worker = .working held (.call c next))
      (stands : Deployment.fails c s.site = false) :
      Stepped s (.work worker) ({ s with site := (Deployment.reply c s.site).1 }.hand worker
        (.working (heldAfter held c) (next (Deployment.reply c s.site).2)))
  | fell (worker : Nat) (held : Option String) (c : Worker.Call)
      (next : Worker.Reply c → Worker.Steps Unit)
      (busy : s.hands worker = .working held (.call c next))
      (fails : Deployment.fails c s.site = true) :
      Stepped s (.work worker)
        ({ s with site := (Deployment.reply c s.site).1 }.hand worker (.fallen held))

theorem stepped {s t : System} {move : Move} (step : s.step? move = some t) : Stepped s move t := by
  cases move with
  | outside op => cases Option.some.inj step; exact .outside op
  | wait time => cases Option.some.inj step; exact .waited time
  | route => exact .routed t (routed_of_route? step)
  | ring due alarm =>
    simp only [step?] at step
    split at step
    · rename_i h
      cases Option.some.inj step
      exact .rang due alarm h.1 h.2
    · contradiction
  | complete key =>
    simp only [step?] at step
    split at step
    · rename_i rung
      cases Option.some.inj step
      exact .completed key rung
    · contradiction
  | take worker =>
    simp only [step?, take?] at step
    split at step
    · rename_i key queue free taken
      cases Option.some.inj step
      exact .took worker key queue free taken
    · contradiction
  | work worker =>
    simp only [step?, work?] at step
    split at step
    · contradiction
    · rename_i held _ last
      cases Option.some.inj step
      exact .ended worker held last
    · rename_i held c next busy
      split at step
      · rename_i fails
        cases Option.some.inj step
        exact .fell worker held c next busy fails
      · rename_i stands
        cases Option.some.inj step
        exact .called worker held c next busy (by simpa using stands)
    · contradiction

theorem ring_cases (s : System) (due : Moment) (alarm : Alarm) :
    (s.ring due alarm).site.drill = s.site.drill ∧ (s.ring due alarm).position = s.position ∧
    (s.ring due alarm).hands = s.hands ∧
    (s.ring due alarm).alarms = s.alarms.erase (due, alarm) ∧
    ((s.ring due alarm).stage = s.stage ∨ (s.ring due alarm).stage = .listing) := by
  cases alarm with
  | add key =>
    simp only [ring]
    split <;> exact ⟨rfl, rfl, rfl, rfl, .inl rfl⟩
  | relist router =>
    simp only [ring]
    split
    · exact ⟨rfl, rfl, rfl, rfl, .inr rfl⟩
    · exact ⟨rfl, rfl, rfl, rfl, .inl rfl⟩

end MonitorOperator.System
