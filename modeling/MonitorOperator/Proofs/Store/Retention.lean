import Mathlib.Data.List.DropRight
import MonitorOperator.Deployment.Snapshot
import MonitorOperator.Proofs.Store.Operation

/-! Events that a store keeps. Before a store takes an event in, the oldest events go one by one for
as long as there is no room. Main statement: whatever else is done to a store in between, it keeps
the last events that were published, as many as it may and at least one, and it has counted all the
others. -/

namespace MonitorOperator.Store

/-- A turn of the loop that makes room: as long as there are `limit` events or more, the oldest one
goes, if there is one, and is counted in any case. -/
def evict? (limit : Nat) (s : Store) : Option Store :=
  if limit ≤ s.events.length then
    some { s with events := s.events.tail, eventsEvicted := s.eventsEvicted + 1 }
  else none

/-- The loop, begun at one store, comes to its end at another one, after some turns. A turn is a
function of the store, so a loop that comes to an end cannot go on for ever. -/
inductive Evicts (limit : Nat) : Store → Nat → Store → Prop where
  | room {s : Store} (free : evict? limit s = none) : Evicts limit s 0 s
  | turn {s t room : Store} {turns : Nat} (first : evict? limit s = some t)
      (rest : Evicts limit t turns room) : Evicts limit s (turns + 1) room

def without (s : Store) (n : Nat) : Store :=
  { s with events := s.events.drop n, eventsEvicted := s.eventsEvicted + UInt64.ofNat n }

def keep (s : Store) (e : Event) : Store := { s with events := s.events ++ [e] }

section Loop

variable {limit turns : Nat} {s t room : Store}

theorem without_zero (s : Store) : s.without 0 = s := by
  simp [without]

theorem without_without (s : Store) (m n : Nat) :
    (s.without m).without n = s.without (m + n) := by
  simp only [without, List.drop_drop, UInt64.add_assoc, UInt64.ofNat_add]

theorem length_without (s : Store) (n : Nat) :
    (s.without n).events.length = s.events.length - n := List.length_drop

theorem evict?_eq_some : evict? limit s = some t ↔ limit ≤ s.events.length ∧ t = s.without 1 := by
  rw [evict?, Option.ite_none_right_eq_some, Option.some.injEq, eq_comm, without, List.drop_one]
  rfl

theorem evict?_eq_none : evict? limit s = none ↔ s.events.length < limit := by
  simp [evict?]

theorem Evicts.limit_pos (h : Evicts limit s turns room) : 0 < limit := by
  induction h with
  | room free => exact Nat.zero_lt_of_lt (evict?_eq_none.mp free)
  | turn _ _ ih => exact ih

theorem Evicts.eq_without (h : Evicts limit s turns room) :
    turns = s.events.length + 1 - limit ∧ room = s.without turns := by
  have positive := h.limit_pos
  induction h with
  | room free =>
    have small := evict?_eq_none.mp free
    exact ⟨by omega, (without_zero _).symm⟩
  | turn first rest ih =>
    obtain ⟨crowded, rfl⟩ := evict?_eq_some.mp first
    obtain ⟨count, rfl⟩ := ih
    rw [length_without] at count
    refine ⟨by omega, ?_⟩
    rw [without_without, Nat.add_comm]

theorem evicts_without (positive : 0 < limit) (s : Store) :
    Evicts limit s (s.events.length + 1 - limit) (s.without (s.events.length + 1 - limit)) := by
  -- on the number of turns, for each one leaves a store with fewer to come
  generalize count : s.events.length + 1 - limit = turns
  induction turns generalizing s with
  | zero =>
    rw [without_zero]
    exact .room (evict?_eq_none.mpr (by omega))
  | succ turns ih =>
    have first : evict? limit s = some (s.without 1) := evict?_eq_some.mpr ⟨by omega, rfl⟩
    have left : (s.without 1).events.length + 1 - limit = turns := by
      rw [length_without]
      omega
    have rest := ih (s.without 1) left
    rw [without_without, Nat.add_comm] at rest
    exact .turn first rest

/-- The loop ends, from whatever store it is begun, exactly if there is a limit other than zero. -/
theorem exists_evicts_iff (limit : Nat) (s : Store) :
    (∃ turns room, Evicts limit s turns room) ↔ 0 < limit :=
  ⟨fun ⟨_, _, ends⟩ => ends.limit_pos, fun positive => ⟨_, _, evicts_without positive s⟩⟩

theorem capacity_pos (s : Store) : 0 < s.capacity := Nat.le_max_right ..

theorem publish_of_evicts (h : Evicts s.capacity s turns room) (e : Event) :
    s.publish e = room.keep e := by
  obtain ⟨rfl, rfl⟩ := h.eq_without
  rfl

end Loop

def Operation.published? : Operation → Option Event
  | .publish e => some e
  | _ => none

def published (ops : List Operation) : List Event := ops.filterMap Operation.published?

theorem published_cons (op : Operation) (ops : List Operation) :
    published (op :: ops) = op.published?.toList ++ published ops := by
  cases heard : op.published? <;> simp [published, heard]

structure Shelf where
  events : List Event
  evicted : UInt64
  retention : Nat

def shelf (s : Store) : Shelf := ⟨s.events, s.eventsEvicted, s.retention⟩

@[simp] theorem shelf_identify (s : Store) (given : String) :
    (s.identify given).1.shelf = s.shelf := by
  unfold identify
  split <;> rfl

@[simp] theorem shelf_writeMonitor (s : Store) (m : Monitor) (change : Object → Change) :
    (s.writeMonitor m change).1.shelf = s.shelf := rfl

@[simp] theorem shelf_writePod (s : Store) (p : Pod) (change : Object → Change) :
    (s.writePod p change).1.shelf = s.shelf := rfl

theorem shelf_run {op : Operation} (quiet : op.published? = none) (s : Store) :
    (op.run s).shelf = s.shelf := by
  cases op with
  | apply m =>
    simp only [Operation.run, apply]
    split <;> simp
  | putPod p =>
    simp only [Operation.run, putPod]
    split <;> simp
  | setPodPhase key phase =>
    simp only [Operation.run, setPodPhase]
    split <;> rfl
  | deletePod key =>
    simp only [Operation.run, deletePod]
    split <;> rfl
  | deleteMonitor key =>
    simp only [Operation.run, deleteMonitor]
    split <;> rfl
  | updateStatus m =>
    simp only [Operation.run, updateStatus]
    split
    · rfl
    · split
      · rfl
      · split <;> rfl
  | createPod p =>
    simp only [Operation.run, createPod]
    split
    · rfl
    · split
      · rfl
      · exact s.shelf_identify ""
  | publish e => contradiction
  | setUnavailable unavailable => rfl
  | getMonitor key => rfl
  | getPod key => rfl
  | list => rfl

/-- A store with a limit keeps the last of the events that were published, and has counted the
others. -/
structure Retains (limit : Nat) (log : List Event) (s : Store) : Prop where
  capacity : s.capacity = limit
  events : s.events = log.rtake limit
  counted : s.eventsEvicted = UInt64.ofNat (log.length - limit)

namespace Retains

variable {limit : Nat} {log : List Event} {s t : Store}

theorem empty (retention : Nat) : Retains (max retention 1) [] (empty retention) where
  capacity := rfl
  events := (List.rtake_nil _).symm
  counted := by
    rw [List.length_nil, Nat.zero_sub]
    rfl

theorem congr (h : Retains limit log s) (same : t.shelf = s.shelf) : Retains limit log t := by
  simp only [shelf, Shelf.mk.injEq] at same
  obtain ⟨events, evicted, retention⟩ := same
  refine ⟨?_, events.trans h.events, ?_⟩
  · rw [← h.capacity, Store.capacity, Store.capacity, retention]
  · rw [evicted, h.counted]

theorem publish (h : Retains limit log s) (e : Event) :
    Retains limit (log ++ [e]) (s.publish e) := by
  have positive : 0 < limit := h.capacity ▸ s.capacity_pos
  have length : s.events.length = log.length - (log.length - limit) := by
    rw [h.events, List.rtake, List.length_drop]
  refine ⟨h.capacity, ?_, ?_⟩
  -- one place is for the new event, the others are for the last of those before it
  · obtain ⟨others, rfl⟩ := Nat.exists_eq_succ_of_ne_zero positive.ne'
    have kept : s.events.drop (s.events.length + 1 - s.capacity) = log.rtake others := by
      rw [length, h.capacity, h.events, List.rtake, List.rtake, List.drop_drop]
      congr 1
      omega
    rw [List.rtake_concat_succ, ← kept]
    rfl
  · have counted : (s.publish e).eventsEvicted =
        UInt64.ofNat (log.length - limit) + UInt64.ofNat (s.events.length + 1 - s.capacity) :=
      congrArg (· + _) h.counted
    rw [counted, ← UInt64.ofNat_add, h.capacity, List.length_append, List.length_singleton]
    congr 1
    omega

theorem step (h : Retains limit log s) (op : Operation) :
    Retains limit (log ++ op.published?.toList) (op.run s) := by
  cases heard : op.published? with
  | none => simpa using h.congr (shelf_run heard s)
  | some e =>
    cases op with
    | publish e' =>
      cases Option.some.inj heard
      exact h.publish e
    | _ => contradiction

theorem after (h : Retains limit log s) (ops : List Operation) :
    Retains limit (log ++ published ops) (s.after ops) := by
  induction ops generalizing s log with
  | nil => simpa [published] using h
  | cons op ops ih =>
    rw [after_cons, published_cons, ← List.append_assoc]
    exact ih (h.step op)

end Retains

/-- At every point of a run, whatever else is done to the store, also by a seeding (`seed_eq_after`):
the store keeps the last of the events that were published so far, in their order, as many as it may
keep or one if it may keep none. It shows how many these are, and how many others there were, modulo
`2 ^ 64` as words count. The loop that makes room for a further event ends, after one turn if the
store keeps all that it may and after none otherwise, and then the event is taken in. -/
theorem last_events_kept (retention : Nat) (ops : List Operation) :
    let s := (empty retention).after ops
    let log := published ops
    s.events = log.rtake (min log.length (max retention 1)) ∧
    s.events.length = min log.length (max retention 1) ∧
    s.eventsEvicted + UInt64.ofNat s.events.length = UInt64.ofNat log.length ∧
    s.counts.member? "events_recorded" = some (.ofNat s.events.length) ∧
    s.counts.member? "events_evicted" =
      some (.ofNat ((log.length - s.events.length) % UInt64.size)) ∧
    ∀ e, ∃ turns room, Evicts s.capacity s turns room ∧
      turns = (if log.length < max retention 1 then 0 else 1) ∧ s.publish e = room.keep e := by
  intro s log
  have retains : Retains (max retention 1) log s := (Retains.empty retention).after ops
  have length : s.events.length = min log.length (max retention 1) := by
    rw [retains.events, List.rtake, List.length_drop]
    omega
  have evicted : s.eventsEvicted = UInt64.ofNat (log.length - s.events.length) := by
    rw [retains.counted]
    congr 1
    omega
  refine ⟨?_, length, ?_, rfl, ?_, fun e => ?_⟩
  · rw [retains.events, List.rtake, List.rtake]
    congr 1
    omega
  · rw [evicted, ← UInt64.ofNat_add]
    congr 1
    omega
  · have shown : (log.length - s.events.length) % UInt64.size = s.eventsEvicted.toNat := by
      rw [evicted, UInt64.toNat_ofNat']
    rw [shown]
    rfl
  · obtain ⟨turns, room, ends⟩ := (exists_evicts_iff s.capacity s).mpr s.capacity_pos
    refine ⟨turns, room, ends, ?_, publish_of_evicts ends e⟩
    rw [ends.eq_without.1, retains.capacity, length]
    split <;> omega

/-- A store that may keep no event keeps the last one. -/
example (a b : Event) : ((empty 0).after [.publish a, .publish b]).events = [b] := rfl

end MonitorOperator.Store
