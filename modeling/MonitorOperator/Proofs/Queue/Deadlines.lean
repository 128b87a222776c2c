import Mathlib.Data.List.Forall2
import MonitorOperator.Proofs.Queue.Traffic
import MonitorOperator.Queue.Desk

/-! Delayed adds as one deadline for each key. An alarm is never taken back: when a request makes
the deadline of its key earlier, the alarm of the old deadline stays behind. Main statement: a key
waits for the earliest of the moments asked for since it was last released, its deadline, and
whatever alarms are left from before, it is released and added once for each deadline, no earlier,
and at that very moment if the clock stops at due alarms. -/

namespace MonitorOperator

theorem WorkQueue.addAfter_delay {q : WorkQueue} (taking : q.shuttingDown = false) {now : Moment}
    (key : String) {delay : Duration} (positive : delay.isZero = false)
    (fits : isBeyond now delay = false) :
    (∃ first, q.waiting.get? key = some first ∧ first ≤ now + delay.nanos ∧
      q.addAfter now key delay = (q, none)) ∨
    (∀ first, q.waiting.get? key = some first → now + delay.nanos < first) ∧
      q.addAfter now key delay =
        ({ q with waiting := q.waiting.insert key (now + delay.nanos) },
          some (now + delay.nanos)) := by
  cases found : q.waiting.get? key with
  | none =>
    right
    constructor
    · intro first other
      contradiction
    · simp [addAfter, positive, fits, taking, isDueBy, found]
  | some first =>
    by_cases early : first ≤ now + delay.nanos
    · left
      refine ⟨first, rfl, early, ?_⟩
      simp [addAfter, positive, fits, taking, isDueBy, found, early]
    · right
      constructor
      · rintro _ ⟨⟩
        exact Nat.lt_of_not_le early
      · simp [addAfter, positive, fits, taking, isDueBy, found, early]

namespace Traffic

/-- What bears on delayed adds: a request for a later moment that does not fail, an alarm that
releases its key, and the key that is added thereupon. -/
inductive Note where
  | asked (key : String) (ready : Moment)
  | fired (key : String) (moment : Moment)
  | readded (key : String) (moment : Moment)
deriving DecidableEq, Repr

def note? (s : Traffic) : Call → Option Note
  | .addAfter key delay =>
    if delay.isZero || WorkQueue.isBeyond s.now delay then none
    else some (.asked key (s.now + delay.nanos))
  | .addRateLimited key =>
    let delay := (s.queue.backoff.fail key).2
    if WorkQueue.isBeyond s.now delay then none else some (.asked key (s.now + delay.nanos))
  | .ring due key => if s.queue.waiting.get? key = some due then some (.fired key s.now) else none
  | .complete key => some (.readded key s.now)
  | _ => none

def noted (next : Traffic → Call → Option Traffic) :
    Traffic × List Note → Call → Option (Traffic × List Note)
  | (s, notes), c => (next s c).map fun t => (t, (s.note? c).toList ++ notes)

def onTime (s : Traffic) : Call → Bool
  | .wait time => s.ringing.isEmpty && s.agenda.alarms.all fun alarm => s.now + time ≤ alarm.1
  | _ => true

def punctual? (s : Traffic) (c : Call) : Option Traffic := if s.onTime c then s.step? c else none

def pending (key : String) : List Note → List Moment
  | [] => []
  | .asked other ready :: notes =>
    if other = key then ready :: pending key notes else pending key notes
  | .fired other _ :: notes => if other = key then [] else pending key notes
  | .readded _ _ :: notes => pending key notes

def firings (key : String) : List Note → List Moment
  | [] => []
  | .fired other moment :: notes =>
    if other = key then moment :: firings key notes else firings key notes
  | _ :: notes => firings key notes

def deadlines (key : String) : List Note → List Moment
  | [] => []
  | .fired other _ :: notes =>
    if other = key then (pending key notes).min?.toList ++ deadlines key notes
    else deadlines key notes
  | _ :: notes => deadlines key notes

def readds (key : String) : List Note → List Moment
  | [] => []
  | .readded other moment :: notes =>
    if other = key then moment :: readds key notes else readds key notes
  | _ :: notes => readds key notes

/-- How a step changes who waits for what, and what is noted of it. -/
inductive Turn (s : Traffic) (c : Call) (t : Traffic) : Option Note → Prop where
  | absorbed (key : String) (first ready : Moment) (future : s.now < ready)
      (found : s.queue.waiting.get? key = some first) (early : first ≤ ready)
      (waiting : t.queue.waiting = s.queue.waiting) (agenda : t.agenda = s.agenda)
      (ringing : t.ringing = s.ringing) (now : t.now = s.now) : Turn s c t (some (.asked key ready))
  | kept (key : String) (ready : Moment) (future : s.now < ready)
      (earliest : ∀ first, s.queue.waiting.get? key = some first → ready < first)
      (waiting : t.queue.waiting = s.queue.waiting.insert key ready)
      (agenda : t.agenda = s.agenda.set ready key)
      (ringing : t.ringing = s.ringing) (now : t.now = s.now) : Turn s c t (some (.asked key ready))
  | fired (key : String) (due : Moment) (set : (due, key) ∈ s.agenda.alarms) (reached : due ≤ s.now)
      (found : s.queue.waiting.get? key = some due)
      (waiting : t.queue.waiting = s.queue.waiting.erase key)
      (agenda : t.agenda.alarms = s.agenda.alarms.erase (due, key))
      (ringing : t.ringing = key :: s.ringing) (now : t.now = s.now) :
      Turn s c t (some (.fired key s.now))
  | stale (key : String) (due : Moment) (other : s.queue.waiting.get? key ≠ some due)
      (waiting : t.queue.waiting = s.queue.waiting)
      (agenda : t.agenda.alarms = s.agenda.alarms.erase (due, key))
      (ringing : t.ringing = s.ringing) (now : t.now = s.now) : Turn s c t none
  | readded (key : String) (rang : key ∈ s.ringing) (waiting : t.queue.waiting = s.queue.waiting)
      (agenda : t.agenda = s.agenda) (ringing : t.ringing = s.ringing.erase key)
      (now : t.now = s.now) : Turn s c t (some (.readded key s.now))
  | passed (time : Nat) (call : c = .wait time) (waiting : t.queue.waiting = s.queue.waiting)
      (agenda : t.agenda = s.agenda) (ringing : t.ringing = s.ringing)
      (now : t.now = s.now + time) : Turn s c t none
  | aside (waiting : t.queue.waiting = s.queue.waiting) (agenda : t.agenda = s.agenda)
      (ringing : t.ringing = s.ringing) (now : t.now = s.now) : Turn s c t none

theorem later_turn {s : Traffic} {c : Call} {q : WorkQueue} {key : String} {delay : Duration}
    (taking : q.shuttingDown = false) (positive : delay.isZero = false)
    (fits : WorkQueue.isBeyond s.now delay = false) (same : q.waiting = s.queue.waiting) :
    Turn s c (s.later key delay (q.addAfter s.now key delay))
      (some (.asked key (s.now + delay.nanos))) := by
  have long : delay.nanos ≠ 0 := by simpa [Duration.isZero] using positive
  have future : s.now < s.now + delay.nanos := Nat.lt_add_of_pos_right (Nat.pos_of_ne_zero long)
  obtain ⟨first, found, early, eq⟩ | ⟨earliest, eq⟩ := q.addAfter_delay taking key positive fits
  · rw [eq]
    exact .absorbed key first _ future (same ▸ found) early same rfl rfl rfl
  · rw [eq]
    exact .kept key _ future (same ▸ earliest) (congrArg (Table.insert · _ _) same) rfl rfl rfl

theorem ring_turn {s : Traffic} {due : Moment} {key : String} (set : (due, key) ∈ s.agenda.alarms)
    (reached : due ≤ s.now) :
    Turn s (.ring due key) (s.ring due key) (s.note? (.ring due key)) := by
  by_cases found : s.queue.waiting.get? key = some due
  · simp only [note?, found, if_true]
    have released := WorkQueue.release?_eq_some.mpr ⟨found, rfl⟩
    apply Turn.fired key due set reached found <;> simp only [ring, released]
  · simp only [note?, found, if_false]
    have kept : s.queue.release? key due = none := if_neg found
    apply Turn.stale key due found <;> simp only [ring, kept]

theorem step_turn {s t : Traffic} {c : Call} (step : s.step? c = some t)
    (taking : t.queue.shuttingDown = false) : Turn s c t (s.note? c) := by
  have before := taking_of_step step taking
  cases c with
  | add key =>
    cases Option.some.inj step
    exact .aside (s.queue.add_waiting key) rfl rfl rfl
  | addAfter key delay =>
    cases Option.some.inj step
    cases zero : delay.isZero with
    | true =>
      simp only [note?, zero, Bool.true_or, if_true]
      apply Turn.aside <;> simp [later, WorkQueue.addAfter, zero]
    | false =>
      cases beyond : WorkQueue.isBeyond s.now delay with
      | true =>
        simp only [note?, beyond, Bool.or_true, if_true, s.queue.addAfter_beyond key beyond]
        exact .aside rfl rfl rfl rfl
      | false =>
        simp only [note?, zero, beyond]
        exact later_turn before zero beyond rfl
  | addRateLimited key =>
    have positive : (s.queue.backoff.fail key).2.isZero = false := by
      simpa [Duration.isZero, Nat.pos_iff_ne_zero] using s.queue.backoff.fail_pos key
    cases beyond : WorkQueue.isBeyond s.now (s.queue.backoff.fail key).2 with
    | true =>
      simp only [step?, s.queue.addRateLimited_beyond beyond] at step
      cases Option.some.inj step
      simp only [note?, beyond, if_true]
      exact .aside rfl rfl rfl rfl
    | false =>
      cases Option.some.inj step
      simp only [note?, beyond]
      exact later_turn (q := { s.queue with backoff := (s.queue.backoff.fail key).1 }) before
        positive beyond rfl
  | forget key =>
    cases Option.some.inj step
    exact .aside rfl rfl rfl rfl
  | take worker =>
    simp only [step?] at step
    split at step
    · contradiction
    · rename_i key queue taken
      obtain ⟨_, _, _, rfl⟩ := WorkQueue.take?_eq_some.mp taken
      cases Option.some.inj step
      exact .aside rfl rfl rfl rfl
  | done worker key =>
    cases Option.some.inj step
    exact .aside (s.queue.done_waiting key) rfl rfl rfl
  | shutdown =>
    cases Option.some.inj step
    contradiction
  | wait time =>
    cases Option.some.inj step
    exact .passed time rfl rfl rfl rfl rfl
  | ring due key =>
    simp only [step?] at step
    split at step
    · rename_i allowed
      cases Option.some.inj step
      exact ring_turn allowed.1 allowed.2
    · contradiction
  | complete key =>
    simp only [step?] at step
    split at step
    · rename_i rang
      cases Option.some.inj step
      exact .readded key rang (s.queue.add_waiting key) rfl rfl rfl
    · contradiction

/-- A key waits for the earliest moment asked for, under an alarm of that moment. -/
structure Waits (key : String) (s : Traffic) (notes : List Note) : Prop where
  waiting : s.queue.waiting.get? key = (pending key notes).min?
  alarmed : ∀ ready, s.queue.waiting.get? key = some ready → (ready, key) ∈ s.agenda.alarms

theorem Waits.new (key name : String) (bounds : Backoff.Bounds) :
    Waits key (new name bounds) [] where
  waiting := rfl
  alarmed _ found := nomatch found

theorem Waits.congr {key : String} {s t : Traffic} {notes more : List Note} (h : Waits key s notes)
    (waiting : t.queue.waiting.get? key = s.queue.waiting.get? key)
    (alarms : ∀ ready, s.queue.waiting.get? key = some ready → (ready, key) ∈ s.agenda.alarms →
      (ready, key) ∈ t.agenda.alarms)
    (asked : pending key more = pending key notes) : Waits key t more where
  waiting := by rw [waiting, asked, h.waiting]
  alarmed ready found := alarms ready (waiting ▸ found) (h.alarmed ready (waiting ▸ found))

theorem Waits.still {key : String} {s t : Traffic} {notes more : List Note} (h : Waits key s notes)
    (waiting : t.queue.waiting = s.queue.waiting) (agenda : t.agenda = s.agenda)
    (asked : pending key more = pending key notes) : Waits key t more := by
  apply h.congr
  · rw [waiting]
  · intro _ _ set
    rwa [agenda]
  · exact asked

theorem min?_cons_of_le {ready first : Moment} {later : List Moment}
    (found : later.min? = some first) (early : first ≤ ready) :
    (ready :: later).min? = some first := by
  simp [List.min?_cons, found, Nat.min_eq_right early]

theorem min?_cons_of_lt {ready : Moment} {later : List Moment}
    (earliest : ∀ first, later.min? = some first → ready < first) :
    (ready :: later).min? = some ready := by
  cases found : later.min? with
  | none => simp [List.min?_cons, found]
  | some first => simp [List.min?_cons, found, Nat.min_eq_left (Nat.le_of_lt (earliest first found))]

theorem Waits.step {key : String} {s t : Traffic} {notes : List Note} {c : Call}
    {note : Option Note} (h : Waits key s notes) (turn : Turn s c t note) :
    Waits key t (note.toList ++ notes) := by
  cases turn with
  | absorbed other first ready future found early waiting agenda ringing now =>
    by_cases mine : other = key
    · subst mine
      constructor
      · rw [waiting, found]
        simp only [Option.toList, List.cons_append, List.nil_append, pending, if_true]
        -- the new moment is no earlier, so the least stays what it was
        exact (min?_cons_of_le (h.waiting ▸ found) early).symm
      · intro due there
        rw [agenda]
        exact h.alarmed due (waiting ▸ there)
    · exact h.still waiting agenda (by simp [pending, mine])
  | kept other ready future earliest waiting agenda ringing now =>
    by_cases mine : other = key
    · subst mine
      have same : t.queue.waiting.get? other = some ready := by
        rw [waiting, Table.get?_insert, if_pos rfl]
      constructor
      · rw [same]
        simp only [Option.toList, List.cons_append, List.nil_append, pending, if_true]
        exact (min?_cons_of_lt (h.waiting ▸ earliest)).symm
      · intro due there
        rw [same] at there
        cases there
        simp [agenda, Agenda.set]
    · have apart : ¬ key = other := fun same => mine same.symm
      apply h.congr
      · rw [waiting, Table.get?_insert, if_neg apart]
      · intro _ _ set
        simp [agenda, Agenda.set, set]
      · simp [pending, mine]
  | fired other due set reached found waiting agenda ringing now =>
    by_cases mine : other = key
    · subst mine
      have gone : t.queue.waiting.get? other = none := by
        rw [waiting, Table.get?_erase, if_pos rfl]
      constructor
      · simp [gone, pending]
      · intro due there
        rw [gone] at there
        contradiction
    · have apart : ¬ key = other := fun same => mine same.symm
      apply h.congr
      · rw [waiting, Table.get?_erase, if_neg apart]
      · intro ready _ set
        rw [agenda]
        exact (List.mem_erase_of_ne (by simp [apart])).mpr set
      · simp [pending, mine]
  | stale other due differ waiting agenda ringing now =>
    apply h.congr
    · rw [waiting]
    · intro ready there set
      rw [agenda]
      -- an alarm that does nothing is not the one that the key waits for
      refine (List.mem_erase_of_ne ?_).mpr set
      rintro ⟨⟩
      exact differ there
    · rfl
  | readded other rang waiting agenda ringing now => exact h.still waiting agenda rfl
  | passed time call waiting agenda ringing now => exact h.still waiting agenda rfl
  | aside waiting agenda ringing now => exact h.still waiting agenda rfl

/-- The alarms of a key have released it once for each deadline, not before it and never twice at a
time, and whatever is asked for now lies after all of that. -/
structure Released (key : String) (s : Traffic) (notes : List Note) : Prop where
  past : ∀ moment ∈ firings key notes, moment ≤ s.now ∧ ∀ ready ∈ pending key notes, moment < ready
  ordered : (firings key notes).Pairwise (· > ·)
  timely : List.Forall₂ (· ≤ ·) (deadlines key notes) (firings key notes)
  counted : (firings key notes).length = s.ringing.count key + (readds key notes).length

theorem Released.new (key name : String) (bounds : Backoff.Bounds) :
    Released key (new name bounds) [] where
  past _ member := nomatch member
  ordered := .nil
  timely := .nil
  counted := rfl

theorem Released.asked {key : String} {s t : Traffic} {notes : List Note} (h : Released key s notes)
    (other : String) {ready : Moment} (future : s.now < ready) (ringing : t.ringing = s.ringing)
    (now : t.now = s.now) : Released key t (.asked other ready :: notes) := by
  constructor
  · intro moment member
    obtain ⟨before, after⟩ := h.past moment member
    refine ⟨now ▸ before, fun due asked => ?_⟩
    simp only [pending] at asked
    split at asked
    · rcases List.mem_cons.mp asked with rfl | old
      · exact Nat.lt_of_le_of_lt before future
      · exact after due old
    · exact after due asked
  · exact h.ordered
  · exact h.timely
  · rw [ringing]
    exact h.counted

theorem Released.step {key : String} {s t : Traffic} {notes : List Note} {c : Call}
    {note : Option Note} (h : Released key s notes) (waits : Waits key s notes)
    (turn : Turn s c t note) : Released key t (note.toList ++ notes) := by
  cases turn with
  | absorbed other first ready future found early waiting agenda ringing now =>
    exact h.asked other future ringing now
  | kept other ready future earliest waiting agenda ringing now =>
    exact h.asked other future ringing now
  | fired other due set reached found waiting agenda ringing now =>
    by_cases mine : other = key
    · subst mine
      -- the deadline is the least of what was asked for, and all of that lies after earlier releases
      have deadline : (pending other notes).min? = some due := waits.waiting ▸ found
      have asked : due ∈ pending other notes := List.min?_mem deadline
      have later : ∀ moment ∈ firings other notes, moment < s.now := by
        intro moment member
        exact Nat.lt_of_lt_of_le ((h.past moment member).2 due asked) reached
      constructor
      · intro moment member
        simp [firings, pending] at member ⊢
        rcases member with rfl | member
        · exact Nat.le_of_eq now.symm
        · rw [now]
          exact Nat.le_of_lt (later moment member)
      · simpa [firings] using ⟨later, h.ordered⟩
      · simpa [firings, deadlines, deadline] using ⟨reached, h.timely⟩
      · simp [firings, readds, ringing, h.counted]
        omega
    · constructor
      · simpa [firings, pending, mine, now] using h.past
      · simpa [firings, mine] using h.ordered
      · simpa [firings, deadlines, mine] using h.timely
      · simpa [firings, readds, mine, ringing] using h.counted
  | stale other due differ waiting agenda ringing now =>
    exact ⟨now ▸ h.past, h.ordered, h.timely, ringing ▸ h.counted⟩
  | readded other rang waiting agenda ringing now =>
    refine ⟨now ▸ h.past, h.ordered, h.timely, ?_⟩
    by_cases mine : other = key
    · subst mine
      have rest := List.count_erase_self (a := other) (l := s.ringing)
      have rings := List.count_pos_iff.mpr rang
      have counted := h.counted
      simp only [Option.toList, List.cons_append, List.nil_append, firings, readds, if_true,
        List.length_cons, ringing, rest]
      omega
    · have rest := List.count_erase_of_ne (fun same => mine same.symm) (l := s.ringing)
      simpa [firings, readds, mine, ringing, rest] using h.counted
  | passed time call waiting agenda ringing now =>
    refine ⟨fun moment member => ?_, h.ordered, h.timely, ringing ▸ h.counted⟩
    obtain ⟨before, after⟩ := h.past moment member
    exact ⟨now ▸ Nat.le_add_right_of_le before, after⟩
  | aside waiting agenda ringing now =>
    exact ⟨now ▸ h.past, h.ordered, h.timely, ringing ▸ h.counted⟩

/-- No alarm is late: the releases of a key are at its deadlines, and its adds at its releases, up
to the alarms that ring now. -/
structure Prompt (key : String) (s : Traffic) (notes : List Note) : Prop where
  ahead : ∀ alarm ∈ s.agenda.alarms, s.now ≤ alarm.1
  sharp : firings key notes = deadlines key notes
  added : firings key notes = List.replicate (s.ringing.count key) s.now ++ readds key notes

theorem Prompt.ahead_step {key : String} {s t : Traffic} {notes : List Note} {c : Call}
    {note : Option Note} (h : Prompt key s notes) (onTime : s.onTime c = true)
    (turn : Turn s c t note) : ∀ alarm ∈ t.agenda.alarms, t.now ≤ alarm.1 := by
  intro alarm member
  cases turn with
  | absorbed other first ready future found early waiting agenda ringing now =>
    rw [now]
    exact h.ahead alarm (agenda ▸ member)
  | kept other ready future earliest waiting agenda ringing now =>
    rw [agenda, Agenda.set, List.mem_append, List.mem_singleton] at member
    rw [now]
    rcases member with old | rfl
    · exact h.ahead alarm old
    · exact Nat.le_of_lt future
  | fired other due set reached found waiting agenda ringing now =>
    rw [agenda] at member
    rw [now]
    exact h.ahead alarm (List.mem_of_mem_erase member)
  | stale other due differ waiting agenda ringing now =>
    rw [agenda] at member
    rw [now]
    exact h.ahead alarm (List.mem_of_mem_erase member)
  | readded other rang waiting agenda ringing now =>
    rw [now]
    exact h.ahead alarm (agenda ▸ member)
  | passed time call waiting agenda ringing now =>
    subst call
    simp only [Traffic.onTime, Bool.and_eq_true, List.all_eq_true, decide_eq_true_iff] at onTime
    rw [now]
    exact onTime.2 alarm (agenda ▸ member)
  | aside waiting agenda ringing now =>
    rw [now]
    exact h.ahead alarm (agenda ▸ member)

theorem Prompt.step {key : String} {s t : Traffic} {notes : List Note} {c : Call}
    {note : Option Note} (h : Prompt key s notes) (waits : ∀ key, Waits key s notes)
    (onTime : s.onTime c = true) (turn : Turn s c t note) : Prompt key t (note.toList ++ notes) := by
  have ahead := h.ahead_step onTime turn
  have still (ringing : t.ringing = s.ringing) (now : t.now = s.now) :
      firings key notes = List.replicate (t.ringing.count key) t.now ++ readds key notes := by
    rw [ringing, now]
    exact h.added
  cases turn with
  | absorbed other first ready future found early waiting agenda ringing now =>
    exact ⟨ahead, h.sharp, still ringing now⟩
  | kept other ready future earliest waiting agenda ringing now =>
    exact ⟨ahead, h.sharp, still ringing now⟩
  | fired other due set reached found waiting agenda ringing now =>
    by_cases mine : other = key
    · subst mine
      -- no alarm that is set lies behind the clock, so that this one is in time
      have meets : due = s.now := Nat.le_antisymm reached (h.ahead _ set)
      have deadline : (pending other notes).min? = some due := (waits other).waiting ▸ found
      refine ⟨ahead, ?_, ?_⟩
      · simp [firings, deadlines, deadline, meets, h.sharp]
      · simp [firings, readds, ringing, now, h.added, List.replicate_succ]
    · refine ⟨ahead, ?_, ?_⟩
      · simpa [firings, deadlines, mine] using h.sharp
      · simpa [firings, readds, mine, ringing, now] using h.added
  | stale other due differ waiting agenda ringing now =>
    exact ⟨ahead, h.sharp, still ringing now⟩
  | readded other rang waiting agenda ringing now =>
    refine ⟨ahead, h.sharp, ?_⟩
    by_cases mine : other = key
    · subst mine
      obtain ⟨n, more⟩ := Nat.exists_eq_succ_of_ne_zero (Nat.ne_of_gt (List.count_pos_iff.mpr rang))
      have rest : t.ringing.count other = n := by
        rw [ringing, List.count_erase_self, more]
        rfl
      have added := h.added
      rw [more, List.replicate_succ', List.append_assoc] at added
      simpa [firings, readds, rest, now] using added
    · have rest := List.count_erase_of_ne (fun same => mine same.symm) (l := s.ringing)
      simpa [firings, readds, mine, ringing, now, rest] using h.added
  | passed time call waiting agenda ringing now =>
    subst call
    have silent : s.ringing = [] := by
      simp only [Traffic.onTime, Bool.and_eq_true, List.isEmpty_iff] at onTime
      exact onTime.1
    exact ⟨ahead, h.sharp, by simpa [firings, readds, ringing, silent] using h.added⟩
  | aside waiting agenda ringing now => exact ⟨ahead, h.sharp, still ringing now⟩

theorem noted_eq_some {next : Traffic → Call → Option Traffic} {s t : Traffic}
    {notes more : List Note} {c : Call} : noted next (s, notes) c = some (t, more) ↔
      next s c = some t ∧ more = (s.note? c).toList ++ notes := by
  simp only [noted, Option.map_eq_some_iff, Prod.mk.injEq]
  constructor
  · rintro ⟨_, step, rfl, rfl⟩
    exact ⟨step, rfl⟩
  · rintro ⟨step, rfl⟩
    exact ⟨t, step, rfl, rfl⟩

theorem punctual?_eq_some {s t : Traffic} {c : Call} :
    s.punctual? c = some t ↔ s.onTime c = true ∧ s.step? c = some t := by
  simp [punctual?]

theorem scheduled_of_run {name : String} {bounds : Backoff.Bounds} {calls : List Call} {s : Traffic}
    {notes : List Note} (run : after? (noted step?) (new name bounds, []) calls = some (s, notes))
    (taking : s.queue.shuttingDown = false) (key : String) :
    Waits key s notes ∧ Released key s notes := by
  refine after?_invariant (P := fun state : Traffic × List Note =>
    state.1.queue.shuttingDown = false →
      Waits key state.1 state.2 ∧ Released key state.1 state.2) ?_ calls
    (fun _ => ⟨.new key name bounds, .new key name bounds⟩) run taking
  rintro ⟨s, notes⟩ c ⟨t, more⟩ kept made taking
  obtain ⟨step, rfl⟩ := noted_eq_some.mp made
  obtain ⟨waits, released⟩ := kept (taking_of_step step taking)
  have turn := step_turn step taking
  exact ⟨waits.step turn, released.step waits turn⟩

theorem prompt_of_run {name : String} {bounds : Backoff.Bounds} {calls : List Call} {s : Traffic}
    {notes : List Note} (run : after? (noted punctual?) (new name bounds, []) calls = some (s, notes))
    (taking : s.queue.shuttingDown = false) (key : String) : Prompt key s notes := by
  have start : Prompt key (new name bounds) [] := ⟨nofun, rfl, rfl⟩
  refine (after?_invariant (P := fun state : Traffic × List Note =>
    state.1.queue.shuttingDown = false →
      (∀ key, Waits key state.1 state.2) ∧ Prompt key state.1 state.2) ?_ calls
    (fun _ => ⟨fun key => .new key name bounds, start⟩) run taking).2
  rintro ⟨s, notes⟩ c ⟨t, more⟩ kept made taking
  obtain ⟨punctual, rfl⟩ := noted_eq_some.mp made
  obtain ⟨onTime, step⟩ := punctual?_eq_some.mp punctual
  obtain ⟨waits, prompt⟩ := kept (taking_of_step step taking)
  have turn := step_turn step taking
  exact ⟨fun key => (waits key).step turn, prompt.step waits onTime turn⟩

theorem ring_expire {s : Traffic} {due : Moment} {key : String} (silent : s.ringing = [])
    (set : (due, key) ∈ s.agenda.alarms) (reached : due ≤ s.now) :
    ∃ calls t, after? punctual? s calls = some t ∧ t.queue = s.queue.expire key due ∧
      t.agenda = ⟨s.agenda.alarms.erase (due, key)⟩ ∧ t.ringing = [] ∧ t.now = s.now := by
  have rings : s.punctual? (.ring due key) = some (s.ring due key) :=
    punctual?_eq_some.mpr ⟨rfl, if_pos ⟨set, reached⟩⟩
  cases released : s.queue.release? key due with
  | none =>
    refine ⟨[.ring due key], s.ring due key, ?_, ?_, ?_, ?_, ?_⟩
    · rw [after?_cons, rings]
      rfl
    all_goals simp only [ring, released, WorkQueue.expire, silent]
  | some queue =>
    have rung : (s.ring due key).ringing = [key] := by simp only [ring, released, silent]
    have adds : (s.ring due key).punctual? (.complete key) =
        some ({ s.ring due key with ringing := [] }.add key) := by
      refine punctual?_eq_some.mpr ⟨rfl, ?_⟩
      simp [step?, rung]
    refine ⟨[.ring due key, .complete key], { s.ring due key with ringing := [] }.add key, ?_, ?_,
      ?_, rfl, ?_⟩
    · rw [after?_cons, rings, Option.bind_some, after?_cons, adds]
      rfl
    all_goals simp only [add, ring, released, WorkQueue.expire]

theorem first_of_ringing {a : Agenda String} {due : Moment} {key : String} {rest : List String}
    (rings : a.ringing due = key :: rest) : (due, key) ∈ a.alarms ∧
      Agenda.ringing ⟨a.alarms.erase (due, key)⟩ due = rest ∧
      Agenda.without ⟨a.alarms.erase (due, key)⟩ due = a.without due := by
  obtain ⟨⟨moment, subject⟩, later, found, rfl, rfl⟩ := List.map_eq_cons_iff.mp rings
  obtain ⟨early, late, split, none, now, rfl⟩ := List.filter_eq_cons_iff.mp found
  obtain rfl : moment = due := by simpa using now
  have fresh : (moment, subject) ∉ early := fun member => by simpa using none _ member
  have left : a.alarms.erase (moment, subject) = early ++ late := by
    rw [split, List.erase_append_right _ fresh, List.erase_cons_head]
  have silent : early.filter (·.1 = moment) = [] := List.filter_eq_nil_iff.mpr none
  refine ⟨?_, ?_, ?_⟩
  · rw [split]
    exact List.mem_append_right _ (List.mem_cons_self ..)
  · rw [left, Agenda.ringing, List.filter_append, silent]
    rfl
  · rw [left, Agenda.without, Agenda.without, split]
    simp

theorem ring_all {s : Traffic} {due : Moment} {keys : List String}
    (rings : s.agenda.ringing due = keys) (silent : s.ringing = []) (reached : due ≤ s.now) :
    ∃ calls t, after? punctual? s calls = some t ∧
      t.queue = keys.foldl (fun q key => q.expire key due) s.queue ∧
      t.agenda = s.agenda.without due ∧ t.ringing = [] ∧ t.now = s.now := by
  induction keys generalizing s with
  | nil =>
    refine ⟨[], s, rfl, rfl, ?_, silent, rfl⟩
    have none := List.filter_eq_nil_iff.mp (List.map_eq_nil_iff.mp rings)
    rw [Agenda.without, List.filter_eq_self.mpr fun alarm member => ?_]
    simpa using none alarm member
  | cons key keys ih =>
    obtain ⟨set, rest, left⟩ := first_of_ringing rings
    obtain ⟨calls, u, run, queue, agenda, rang, now⟩ := ring_expire silent set reached
    obtain ⟨more, t, run', queue', agenda', rang', now'⟩ :=
      ih (s := u) (by rw [agenda]; exact rest) rang (by rw [now]; exact reached)
    refine ⟨calls ++ more, t, ?_, ?_, ?_, rang', now'.trans now⟩
    · rw [after?_append, run]
      exact run'
    · rw [queue', queue]
      rfl
    · rw [agenda', agenda]
      exact left

/-- The clock of a desk is punctual: it stops at the first moment with an alarm and has the alarms of
this moment ring before anything else. -/
theorem desk_punctual {s : Traffic} {d : Desk} {limit due : Moment} (queue : s.queue = d.queue)
    (now : s.now = d.now) (agenda : s.agenda = d.agenda) (silent : s.ringing = [])
    (ahead : ∀ alarm ∈ d.agenda.alarms, d.now < alarm.1)
    (next : d.agenda.next? d.now limit = some due) :
    ∃ calls t, after? punctual? s calls = some t ∧
      t.queue = ((d.agenda.ringing due).foldl (fun d key => d.expire key due) d).queue ∧
      t.agenda = d.agenda.without due ∧ t.ringing = [] ∧ t.now = due ∧
      ∀ alarm ∈ t.agenda.alarms, t.now < alarm.1 := by
  rw [← now, ← agenda] at ahead next
  obtain ⟨later, inside⟩ := Agenda.lt_of_next? next
  have first : ∀ alarm ∈ s.agenda.alarms, due ≤ alarm.1 := by
    intro alarm member
    by_cases beyond : alarm.1 ≤ limit
    · refine (List.min?_eq_some_iff.mp next).2 alarm.1 ?_
      simpa [beyond, ahead alarm member] using ⟨alarm.2, member⟩
    · exact Nat.le_trans inside (Nat.le_of_lt (Nat.lt_of_not_le beyond))
  have stop : s.now + (due - s.now) = due := Nat.add_sub_cancel' (Nat.le_of_lt later)
  have waits : s.punctual? (.wait (due - s.now)) = some { s with now := due } := by
    refine punctual?_eq_some.mpr ⟨?_, ?_⟩
    · simpa [onTime, silent, stop] using first
    · simp only [step?, stop]
  obtain ⟨calls, t, run, expired, left, rang, stays⟩ :=
    ring_all (s := { s with now := due }) rfl silent (Nat.le_refl due)
  refine ⟨.wait (due - s.now) :: calls, t, ?_, ?_, agenda ▸ left, rang, stays, ?_⟩
  · rw [after?_cons, waits]
    exact run
  · rw [expired, queue, agenda]
    exact List.foldl_hom Desk.queue fun _ _ => rfl
  · intro alarm member
    rw [left, Agenda.without, List.mem_filter, decide_eq_true_iff] at member
    rw [stays]
    exact Nat.lt_of_le_of_ne (first alarm member.1) (Ne.symm member.2)

theorem step?_beyond {s : Traffic} {delay : Duration}
    (beyond : WorkQueue.isBeyond s.now delay = true) (key : String) :
    s.step? (.addAfter key delay) = some s := by
  have positive : delay.isZero = false := by simpa using (Bool.and_eq_true_iff.mp beyond).1
  simp [step?, s.queue.addAfter_beyond key beyond, later, positive]

/-- In every run and until the shutdown: a key waits for the earliest of the moments asked for since
it was last released, and has an alarm there that can ring as soon as the moment has come; so once
the due alarms have rung, what it waits for lies ahead. Alarms have released it once for each
deadline, at one time at most once, and not before the deadline; each release adds it once; and an
alarm of another moment does nothing. Under a clock that stops at due alarms, it was released and
added at its deadlines. A moment that the clock does not reach cannot be asked for: the request fails,
and nothing comes of it. -/
theorem one_deadline_per_key (name : String) (bounds : Backoff.Bounds) (calls : List Call)
    (s : Traffic) (notes : List Note)
    (run : after? (noted step?) (new name bounds, []) calls = some (s, notes))
    (taking : s.queue.shuttingDown = false) (key : String) :
    s.queue.waiting.get? key = (pending key notes).min? ∧
    (∀ ready, s.queue.waiting.get? key = some ready → ready ≤ s.now →
      s.step? (.ring ready key) = some (s.ring ready key) ∧
        (s.ring ready key).ringing = key :: s.ringing) ∧
    ((∀ alarm ∈ s.agenda.alarms, s.now < alarm.1) → ∀ ready ∈ pending key notes, s.now < ready) ∧
    (∀ due, s.queue.waiting.get? key ≠ some due →
      (s.ring due key).queue = s.queue ∧ (s.ring due key).ringing = s.ringing) ∧
    List.Forall₂ (· ≤ ·) (deadlines key notes) (firings key notes) ∧
    (firings key notes).Pairwise (· > ·) ∧
    (firings key notes).length = s.ringing.count key + (readds key notes).length ∧
    (after? (noted punctual?) (new name bounds, []) calls = some (s, notes) →
      firings key notes = deadlines key notes ∧
      firings key notes = List.replicate (s.ringing.count key) s.now ++ readds key notes) ∧
    (∀ delay, WorkQueue.isBeyond s.now delay = true →
      s.step? (.addAfter key delay) = some s ∧ s.note? (.addAfter key delay) = none) := by
  obtain ⟨waits, released⟩ := scheduled_of_run run taking key
  refine ⟨waits.waiting, ?_, ?_, ?_, released.timely, released.ordered, released.counted, ?_, ?_⟩
  · intro ready found reached
    have set := waits.alarmed ready found
    have freed := WorkQueue.release?_eq_some.mpr ⟨found, rfl⟩
    exact ⟨if_pos ⟨set, reached⟩, by simp only [ring, freed]⟩
  · intro rung ready asked
    cases first : (pending key notes).min? with
    | none =>
      rw [List.min?_eq_none_iff.mp first] at asked
      contradiction
    | some deadline =>
      have ahead := rung _ (waits.alarmed deadline (waits.waiting.trans first))
      have least := (List.min?_eq_some_iff.mp first).2 ready asked
      exact Nat.lt_of_lt_of_le ahead least
  · intro due other
    have kept : s.queue.release? key due = none := if_neg other
    simp only [ring, kept]
    exact ⟨trivial, trivial⟩
  · intro punctual
    have prompt := prompt_of_run punctual taking key
    exact ⟨prompt.sharp, prompt.added⟩
  · intro delay beyond
    exact ⟨step?_beyond beyond key, by simp [note?, beyond]⟩

theorem one_deadline_per_key_over_stale_alarm :
    ∃ s notes, after? (noted step?) (new "keys" {}, [])
        [.addAfter "a/x" ⟨10, by decide⟩, .addAfter "a/x" ⟨5, by decide⟩, .wait 5, .ring 5 "a/x",
          .complete "a/x", .addAfter "a/x" ⟨5, by decide⟩, .wait 5, .ring 10 "a/x",
          .complete "a/x", .ring 10 "a/x"] = some (s, notes) ∧
      s.queue.shuttingDown = false ∧ s.agenda.alarms = [] ∧ readds "a/x" notes = [10, 5] ∧
      s.queue.waiting.get? "a/x" = (pending "a/x" notes).min? ∧
      firings "a/x" notes = deadlines "a/x" notes := by
  have h := one_deadline_per_key "keys" {}
    [.addAfter "a/x" ⟨10, by decide⟩, .addAfter "a/x" ⟨5, by decide⟩, .wait 5, .ring 5 "a/x",
      .complete "a/x", .addAfter "a/x" ⟨5, by decide⟩, .wait 5, .ring 10 "a/x",
      .complete "a/x", .ring 10 "a/x"] _ _ rfl (by decide) "a/x"
  exact ⟨_, _, rfl, by decide, by decide, by decide, h.1, (h.2.2.2.2.2.2.2.1 rfl).1⟩

/-- A delay of `2 ^ 63` seconds is asked for, and the key neither waits nor has an alarm. -/
theorem no_deadline_beyond_clock :
    let delay : Duration := ⟨Moment.limit, by decide⟩
    ∃ s, after? step? (new "keys" {}) [.addAfter "a/x" delay] = some s ∧ delay.isZero = false ∧
      s.queue.waiting.get? "a/x" = none ∧ s.agenda.alarms = [] ∧
      s.queue.dirty.contains "a/x" = false :=
  ⟨_, rfl, by decide, rfl, rfl, rfl⟩

end Traffic

end MonitorOperator
