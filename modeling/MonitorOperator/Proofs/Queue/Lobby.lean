import MonitorOperator.Proofs.Queue.Coalescing
import MonitorOperator.Proofs.Queue.Gate
import MonitorOperator.Queue.Desk

/-! Consumers who wait for keys while anything happens to the queue. A consumer enrols at the gate,
looks into the queue, takes a key if there is one, and leaves the gate or waits; each of these is a
move of its own, and so is the signal that follows on a key or on the shutdown. What a desk does in
one go is a run of such moves. -/

namespace MonitorOperator

namespace Consumer

def key? : Consumer → Option String
  | .served key => some key
  | _ => none

def waits : Consumer → Bool
  | .looking passed => !passed
  | .blocked => true
  | _ => false

def looks : Consumer → Bool
  | .arriving => true
  | .looking passed => !passed
  | _ => false

def finished : Consumer → Bool
  | .served _ => true
  | .dismissed => true
  | _ => false

end Consumer

inductive Lobby.Move where
  /-- a call of anyone but a consumer -/
  | call (c : Traffic.Call)
  /-- the signal for a key that joined the line -/
  | signal
  /-- the signal of the shutdown -/
  | signalAll
  | come
  | proceed (i : Nat)
  /-- a consumer that is over leaves the gate -/
  | leave (i : Nat)
  /-- a consumer that waits for a signal, or for its turn to look, gives up -/
  | giveUp (i : Nat)
deriving DecidableEq

/-- A queue, the gate before it, the consumers by number, those of them who are over and have not
left the gate, and the signals that are still to be given. Strays gave up before a look that they
had enrolled for: who was woken to get there has used up the signal, and leaves none to pass on. -/
structure Lobby where
  traffic : Traffic
  gate : Gate := {}
  consumers : List Consumer := []
  leaving : List Nat := []
  owed : Nat := 0
  closing : Bool := false
  strays : Nat := 0

namespace Lobby

def new (name : String) (bounds : Backoff.Bounds) : Lobby := { traffic := .new name bounds }

def place (s : Lobby) (i : Nat) (c : Consumer) : Lobby :=
  { s with consumers := s.consumers.set i c }

def update (s : Lobby) (traffic : Traffic) : Lobby :=
  { s with
    traffic := traffic
    owed := s.owed + (traffic.queue.length - s.traffic.queue.length)
    closing := s.closing || (traffic.queue.shuttingDown && !s.traffic.queue.shuttingDown) }

def enroll (s : Lobby) (i : Nat) : Lobby :=
  let (gate, passed) := s.gate.enroll i
  { s with gate := gate }.place i (.looking passed)

def handOut (s : Lobby) (i : Nat) (key : String) (queue : WorkQueue) : Lobby :=
  { s with
    traffic := { s.traffic with
      queue := queue
      held := (i, key) :: s.traffic.held
      history := .delivered key :: s.traffic.history }
    leaving := i :: s.leaving }.place i (.served key)

def look (s : Lobby) (i : Nat) (passed : Bool) : Lobby :=
  if s.traffic.queue.shuttingDown then { s with leaving := i :: s.leaving }.place i .dismissed
  else
    match s.traffic.queue.take? with
    | some (key, queue) => s.handOut i key queue
    | none => s.place i (if passed then .arriving else .blocked)

def step? (s : Lobby) : Move → Option Lobby
  | .call (.take _) => none
  | .call c => (s.traffic.step? c).map s.update
  | .signal => if s.owed = 0 then none else some { s with gate := s.gate.signal, owed := s.owed - 1 }
  | .signalAll => if s.closing then some { s with gate := s.gate.signalAll, closing := false } else none
  | .come => some { s with consumers := s.consumers ++ [.arriving] }
  | .proceed i =>
    match s.consumers[i]? with
    | some .arriving => some (s.enroll i)
    | some (.looking passed) => some (s.look i passed)
    | some .blocked =>
      if s.gate.isGranted i then some ({ s with gate := s.gate.notice i }.place i .arriving)
      else none
    | _ => none
  | .leave i =>
    if i ∈ s.leaving then some { s with gate := s.gate.leave i, leaving := s.leaving.erase i }
    else none
  | .giveUp i =>
    match s.consumers[i]? with
    | some .blocked => some ({ s with gate := s.gate.leave i }.place i .gone)
    | some (.looking passed) =>
      some ({ s with
        gate := s.gate.leave i, strays := s.strays + (!passed).toNat }.place i .gone)
    | _ => none

/-- The moves that need nobody from outside: signals that are owed and the moves of consumers. -/
def Move.own : Move → Bool
  | .signal => true
  | .signalAll => true
  | .proceed _ => true
  | .leave _ => true
  | _ => false

/-- Whoever was woken has made its moves, and no signal is owed. -/
def Quiet (s : Lobby) : Prop := ∀ m : Move, m.own = true → s.step? m = none

theorem step?_take {s : Lobby} {i : Nat} {key : String} {queue : WorkQueue}
    (taken : s.traffic.queue.take? = some (key, queue)) :
    s.traffic.step? (.take i) = some (s.handOut i key queue).traffic := by
  simp only [Traffic.step?, taken]
  rfl

/-- All that a move can do. -/
inductive Turn (s : Lobby) : Move → Lobby → Prop where
  | called (c : Traffic.Call) (traffic : Traffic) (other : ∀ worker, c ≠ .take worker)
      (step : s.traffic.step? c = some traffic) : Turn s (.call c) (s.update traffic)
  | signalled (owed : 0 < s.owed) :
      Turn s .signal { s with gate := s.gate.signal, owed := s.owed - 1 }
  | signalledAll (closing : s.closing = true) :
      Turn s .signalAll { s with gate := s.gate.signalAll, closing := false }
  | came : Turn s .come { s with consumers := s.consumers ++ [.arriving] }
  | passed (i : Nat) (was : s.consumers[i]? = some .arriving) (permit : s.gate.permit = true) :
      Turn s (.proceed i) ({ s with gate := { s.gate with permit := false } }.place i (.looking true))
  | enrolled (i : Nat) (was : s.consumers[i]? = some .arriving) (shut : s.gate.permit = false) :
      Turn s (.proceed i)
        ({ s with gate := { s.gate with waiting := s.gate.waiting ++ [i] } }.place i (.looking false))
  | dismissed (i : Nat) (passed : Bool) (was : s.consumers[i]? = some (.looking passed))
      (down : s.traffic.queue.shuttingDown = true) :
      Turn s (.proceed i) ({ s with leaving := i :: s.leaving }.place i .dismissed)
  | served (i : Nat) (passed : Bool) (was : s.consumers[i]? = some (.looking passed)) (key : String)
      (queue : WorkQueue) (taken : s.traffic.queue.take? = some (key, queue)) :
      Turn s (.proceed i) (s.handOut i key queue)
  | again (i : Nat) (was : s.consumers[i]? = some (.looking true))
      (empty : s.traffic.queue.ready = []) : Turn s (.proceed i) (s.place i .arriving)
  | blocked (i : Nat) (was : s.consumers[i]? = some (.looking false))
      (taking : s.traffic.queue.shuttingDown = false) (empty : s.traffic.queue.ready = []) :
      Turn s (.proceed i) (s.place i .blocked)
  | woke (i : Nat) (was : s.consumers[i]? = some .blocked) (granted : s.gate.isGranted i = true) :
      Turn s (.proceed i) ({ s with gate := s.gate.notice i }.place i .arriving)
  | left (i : Nat) (mem : i ∈ s.leaving) :
      Turn s (.leave i) { s with gate := s.gate.leave i, leaving := s.leaving.erase i }
  | gaveUp (i : Nat) (was : s.consumers[i]? = some .blocked) :
      Turn s (.giveUp i) ({ s with gate := s.gate.leave i }.place i .gone)
  | strayed (i : Nat) (passed : Bool) (was : s.consumers[i]? = some (.looking passed)) :
      Turn s (.giveUp i)
        ({ s with gate := s.gate.leave i, strays := s.strays + (!passed).toNat }.place i .gone)

theorem enroll_turn {s : Lobby} {i : Nat} (was : s.consumers[i]? = some .arriving) :
    Turn s (.proceed i) (s.enroll i) := by
  unfold enroll
  obtain ⟨permit, eq⟩ | ⟨shut, eq⟩ := s.gate.enroll_cases i
  · rw [eq]
    exact .passed i was permit
  · rw [eq]
    exact .enrolled i was shut

theorem look_turn {s : Lobby} {i : Nat} {passed : Bool}
    (was : s.consumers[i]? = some (.looking passed)) : Turn s (.proceed i) (s.look i passed) := by
  unfold look
  cases down : s.traffic.queue.shuttingDown with
  | true => exact .dismissed i passed was down
  | false =>
    simp only [Bool.false_eq_true, if_false]
    cases next : s.traffic.queue.take? with
    | some taken => exact .served i passed was taken.1 taken.2 next
    | none =>
      have empty : s.traffic.queue.ready = [] := by
        rcases WorkQueue.take?_eq_none.mp next with shut | empty
        · rw [down] at shut
          contradiction
        · exact empty
      cases passed with
      | true => exact .again i was empty
      | false => exact .blocked i was down empty

theorem step_turn {s t : Lobby} {m : Move} (step : s.step? m = some t) : Turn s m t := by
  cases m with
  | call c =>
    have other : ∀ worker, c ≠ .take worker := by
      rintro worker rfl
      contradiction
    have made : (s.traffic.step? c).map s.update = some t := by
      cases c with
      | take worker => contradiction
      | _ => exact step
    obtain ⟨traffic, called, rfl⟩ := Option.map_eq_some_iff.mp made
    exact .called c traffic other called
  | signal =>
    simp only [step?] at step
    split at step
    · contradiction
    · rename_i owed
      cases Option.some.inj step
      exact .signalled (Nat.pos_of_ne_zero owed)
  | signalAll =>
    simp only [step?] at step
    split at step
    · rename_i closing
      cases Option.some.inj step
      exact .signalledAll closing
    · contradiction
  | come =>
    cases Option.some.inj step
    exact .came
  | proceed i =>
    simp only [step?] at step
    split at step
    · rename_i was
      cases Option.some.inj step
      exact enroll_turn was
    · rename_i passed was
      cases Option.some.inj step
      exact look_turn was
    · rename_i was
      split at step
      · rename_i granted
        cases Option.some.inj step
        exact .woke i was granted
      · contradiction
    · contradiction
  | leave i =>
    simp only [step?] at step
    split at step
    · rename_i member
      cases Option.some.inj step
      exact .left i member
    · contradiction
  | giveUp i =>
    simp only [step?] at step
    split at step
    · rename_i was
      cases Option.some.inj step
      exact .gaveUp i was
    · rename_i passed was
      cases Option.some.inj step
      exact .strayed i passed was
    · contradiction

/-- What a consumer or a caller does at a desk in one go takes several moves here. -/
def desk (s : Lobby) : Desk :=
  { queue := s.traffic.queue
    gate := s.gate
    consumers := s.consumers
    now := s.traffic.now
    agenda := s.traffic.agenda }

structure Even (s t : Lobby) : Prop where
  owed : t.owed = s.owed
  closing : t.closing = s.closing
  leaving : t.leaving = s.leaving

theorem after?_one {s t : Lobby} {m : Move} (step : s.step? m = some t) :
    after? step? s [m] = some t := by
  rw [after?_cons, step]
  rfl

theorem after?_finished {s t : Lobby} {i : Nat} (step : s.step? (.proceed i) = some t)
    (leaving : t.leaving = i :: s.leaving) :
    after? step? s [.proceed i, .leave i] =
      some { t with gate := t.gate.leave i, leaving := s.leaving } := by
  have member : i ∈ t.leaving := leaving ▸ List.mem_cons_self ..
  rw [after?_cons, step, Option.bind_some]
  apply after?_one
  rw [step?, if_pos member, leaving, List.erase_cons_head]

/-- A look at the desk is a look, and with a key or after the shutdown the way out. -/
theorem desk_look {s : Lobby} {i : Nat} {passed : Bool}
    (was : s.consumers[i]? = some (.looking passed)) :
    ∃ moves t, (∀ m ∈ moves, m.own = true) ∧ after? step? s moves = some t ∧
      t.desk = s.desk.look i passed ∧ s.Even t := by
  have step : s.step? (.proceed i) = some (s.look i passed) := by simp only [step?, was]
  have double : ∀ m ∈ [Move.proceed i, .leave i], m.own = true := by simp [Move.own]
  cases down : s.traffic.queue.shuttingDown with
  | true =>
    have finished : s.look i passed = { s with leaving := i :: s.leaving }.place i .dismissed := by
      simp only [look, down, if_true]
    refine ⟨_, _, double, after?_finished step (by rw [finished]; rfl), ?_, ?_⟩
    · simp only [finished, Desk.look, desk, down, if_true]
      rfl
    · rw [finished]
      exact ⟨rfl, rfl, rfl⟩
  | false =>
    cases next : s.traffic.queue.take? with
    | some taken =>
      have finished : s.look i passed = s.handOut i taken.1 taken.2 := by
        simp only [look, down, Bool.false_eq_true, if_false, next]
      refine ⟨_, _, double, after?_finished step (by rw [finished]; rfl), ?_, ?_⟩
      · simp only [finished, Desk.look, desk, down, Bool.false_eq_true, if_false, next]
        rfl
      · rw [finished]
        exact ⟨rfl, rfl, rfl⟩
    | none =>
      have still : s.look i passed = s.place i (if passed then .arriving else .blocked) := by
        simp only [look, down, Bool.false_eq_true, if_false, next]
      refine ⟨[.proceed i], _, by simp [Move.own], after?_one step, ?_, ?_⟩
      · simp only [still, Desk.look, desk, down, Bool.false_eq_true, if_false, next]
        rfl
      · rw [still]
        exact ⟨rfl, rfl, rfl⟩

theorem desk_move {s : Lobby} {i : Nat} {d : Desk} (moved : s.desk.move? i = some d) :
    ∃ moves t, (∀ m ∈ moves, m.own = true) ∧ after? step? s moves = some t ∧ t.desk = d ∧
      s.Even t := by
  have own : ∀ m ∈ [Move.proceed i], m.own = true := by simp [Move.own]
  unfold Desk.move? at moved
  split at moved
  · rename_i was
    cases Option.some.inj moved
    have was : s.consumers[i]? = some .arriving := was
    have step : s.step? (.proceed i) = some (s.enroll i) := by simp only [step?, was]
    exact ⟨_, _, own, after?_one step, rfl, rfl, rfl, rfl⟩
  · rename_i passed was
    cases Option.some.inj moved
    exact desk_look was
  · rename_i was
    have was : s.consumers[i]? = some .blocked := was
    cases granted : s.gate.isGranted i with
    | true =>
      have woken : some (s.desk.wake i) = some d := (if_pos granted).symm.trans moved
      cases Option.some.inj woken
      have step : s.step? (.proceed i) =
          some ({ s with gate := s.gate.notice i }.place i .arriving) := by
        simp only [step?, was, granted, if_true]
      exact ⟨_, _, own, after?_one step, rfl, rfl, rfl, rfl⟩
    | false =>
      have asleep : none = some d := (if_neg (by simp [desk, granted])).symm.trans moved
      contradiction
  · contradiction

theorem queue_of_call {s t : Traffic} {c : Traffic.Call} (other : ∀ worker, c ≠ .take worker)
    (called : s.step? c = some t) :
    (∃ key, t.queue = s.queue.add key) ∨ (∃ key, t.queue = s.queue.done key) ∨
      t.queue.ready = s.queue.ready := by
  cases Traffic.step_effect called with
  | add key queue => exact .inl ⟨key, queue⟩
  | take worker key _ _ history =>
    have kept := Traffic.deliveries_call other called
    rw [history, Traffic.deliveries] at kept
    simp at kept
  | done worker key _ queue => exact .inr (.inl ⟨key, queue⟩)
  | aside ready => exact .inr (.inr ready)

theorem length_of_call {s t : Traffic} {c : Traffic.Call} (other : ∀ worker, c ≠ .take worker)
    (called : s.step? c = some t) (longer : s.queue.length < t.queue.length) :
    t.queue.length = s.queue.length + 1 ∧ t.queue.shuttingDown = s.queue.shuttingDown := by
  unfold WorkQueue.length at longer ⊢
  obtain ⟨key, queue⟩ | ⟨key, queue⟩ | ready := queue_of_call other called
  · rw [queue] at longer ⊢
    rcases s.queue.ready_add key with same | more
    · rw [same] at longer
      exact (Nat.lt_irrefl _ longer).elim
    · simp [more]
  · rw [queue] at longer ⊢
    rcases s.queue.ready_done key with same | more
    · rw [same] at longer
      exact (Nat.lt_irrefl _ longer).elim
    · simp [more]
  · rw [ready] at longer
    exact (Nat.lt_irrefl _ longer).elim

/-- A call at the desk is a call and the signal that follows on it, if there is one. -/
theorem desk_call {s : Lobby} (owed : s.owed = 0) (closing : s.closing = false) {c : Traffic.Call}
    (other : ∀ worker, c ≠ .take worker) {traffic : Traffic}
    (called : s.traffic.step? c = some traffic) :
    ∃ later t, (∀ m ∈ later, m.own = true) ∧ after? step? s (.call c :: later) = some t ∧
      t.desk = { s.desk.update traffic.queue with now := traffic.now, agenda := traffic.agenda } ∧
      s.Even t := by
  have step : s.step? (.call c) = some (s.update traffic) := by
    cases c with
    | take worker => exact (other worker rfl).elim
    | _ => simp only [step?, called, Option.map_some]
  by_cases longer : s.traffic.queue.length < traffic.queue.length
  · obtain ⟨one, down⟩ := length_of_call other called longer
    refine ⟨[.signal], { s.update traffic with
      gate := s.gate.signal, owed := 0 }, by simp [Move.own], ?_, ?_, ?_⟩
    · rw [after?_cons, step, Option.bind_some]
      apply after?_one
      simp [step?, update, owed, one]
    · simp [desk, Desk.update, update, down, longer]
    · exact ⟨owed.symm, by simp [update, closing, down], rfl⟩
  · have owes : (s.update traffic).owed = s.owed := by simp only [update]; omega
    cases newly : traffic.queue.shuttingDown && !s.traffic.queue.shuttingDown with
    | true =>
      refine ⟨[.signalAll], { s.update traffic with
        gate := s.gate.signalAll, closing := false }, by simp [Move.own], ?_, ?_, ?_⟩
      · rw [after?_cons, step, Option.bind_some]
        apply after?_one
        simp [step?, update, newly]
      · simp [desk, Desk.update, update, newly]
      · exact ⟨owes, closing.symm, rfl⟩
    | false =>
      refine ⟨[], s.update traffic, nofun, ?_, ?_, owes, ?_, rfl⟩
      · rw [after?_cons, step]
        rfl
      · simp [desk, Desk.update, update, newly, longer]
      · simp [update, closing, newly]

end Lobby

end MonitorOperator
