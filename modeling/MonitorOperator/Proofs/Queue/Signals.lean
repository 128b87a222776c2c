import Mathlib.Algebra.GroupWithZero.Nat
import Mathlib.Data.List.Perm.Basic
import MonitorOperator.Proofs.Queue.Lobby

/-! No signal is lost. While somebody waits, there is a signal on its way, or a consumer about to
look, for each key in line. Main statement: once those who were woken have made their moves, nobody
waits while there is a key in line or after the shutdown. -/

namespace MonitorOperator

namespace Lobby

def is (s : Lobby) (kind : Consumer → Bool) (i : Nat) : Bool := s.consumers[i]?.any kind

theorem is_iff {s : Lobby} {kind : Consumer → Bool} {i : Nat} :
    s.is kind i = true ↔ ∃ c, s.consumers[i]? = some c ∧ kind c = true := by
  rw [is]
  cases s.consumers[i]? <;> simp

theorem is_of {s : Lobby} {i : Nat} {c : Consumer} (was : s.consumers[i]? = some c)
    (kind : Consumer → Bool) : s.is kind i = kind c := by
  rw [is, was, Option.any_some]

theorem is_set {s t : Lobby} {i : Nat} {old new : Consumer} (was : s.consumers[i]? = some old)
    (consumers : t.consumers = s.consumers.set i new) (kind : Consumer → Bool) (j : Nat) :
    t.is kind j = if j = i then kind new else s.is kind j := by
  have inside : i < s.consumers.length := (List.getElem?_eq_some_iff.mp was).1
  rw [is, consumers, List.getElem?_set]
  by_cases mine : j = i
  · simp [mine, inside]
  · have apart : ¬ i = j := fun same => mine same.symm
    simp [mine, apart, is]

theorem is_came {s t : Lobby} (consumers : t.consumers = s.consumers ++ [.arriving])
    {kind : Consumer → Bool} (other : kind .arriving = false) (i : Nat) :
    t.is kind i = s.is kind i := by
  rw [is, is, consumers, List.getElem?_append]
  split
  · rfl
  · rename_i outside
    rw [List.getElem?_eq_none (Nat.le_of_not_lt outside)]
    cases h : i - s.consumers.length <;> simp [other]

theorem not_finished_of_waits {s : Lobby} {i : Nat} (waits : s.is Consumer.waits i = true) :
    s.is Consumer.finished i = false := by
  obtain ⟨c, was, waits⟩ := is_iff.mp waits
  rw [is_of was]
  cases c <;> first | rfl | contradiction

theorem set_perm {α : Type} {members : List α} {i : Nat} {old : α} (was : members[i]? = some old)
    (new : α) : (old :: members.set i new).Perm (new :: members) := by
  obtain ⟨inside, eq⟩ := List.getElem?_eq_some_iff.mp was
  have rest := List.getElem_cons_eraseIdx_perm inside
  rw [eq] at rest
  have placed := (List.set_perm_cons_eraseIdx inside new).cons old
  exact placed.trans ((List.Perm.swap ..).trans (rest.cons new))

theorem sum_map_set {α : Type} {members : List α} {i : Nat} {old : α}
    (was : members[i]? = some old) (new : α) (f : α → Nat) :
    ((members.set i new).map f).sum + f old = (members.map f).sum + f new := by
  have same := ((set_perm was new).map f).sum_nat
  rw [List.map_cons, List.map_cons, List.sum_cons, List.sum_cons] at same
  omega

/-- At the gate stand those who wait, and those who are over and have not left. -/
structure Enrolled (s : Lobby) : Prop where
  gate : s.gate.Orderly
  visiting : ∀ i ∈ s.gate.visitors, s.is Consumer.waits i = true ∨ i ∈ s.leaving
  waiting : ∀ i, s.is Consumer.waits i = true → i ∈ s.gate.visitors
  leaving : ∀ i ∈ s.leaving, s.is Consumer.finished i = true

theorem Enrolled.new (name : String) (bounds : Backoff.Bounds) : (new name bounds).Enrolled where
  gate := .new
  visiting _ member := nomatch member
  waiting i waits := by simp [is, Lobby.new] at waits
  leaving _ member := nomatch member

theorem Enrolled.apart {s : Lobby} (h : s.Enrolled) {i : Nat} {c : Consumer}
    (was : s.consumers[i]? = some c) (finished : c.finished = false) :
    i ∉ s.leaving ∧ (c.waits = false → i ∉ s.gate.visitors) := by
  have stays : i ∉ s.leaving := by
    intro member
    have gone := h.leaving i member
    rw [is_of was, finished] at gone
    contradiction
  refine ⟨stays, fun waits member => ?_⟩
  rcases h.visiting i member with waiting | leaving
  · rw [is_of was, waits] at waiting
    contradiction
  · exact stays leaving

theorem Enrolled.moved {s t : Lobby} {i : Nat} {old new : Consumer} (h : s.Enrolled)
    (was : s.consumers[i]? = some old) (consumers : t.consumers = s.consumers.set i new)
    (gate : t.gate.Orderly) (visitors : ∀ j, j ≠ i → (j ∈ t.gate.visitors ↔ j ∈ s.gate.visitors))
    (leaving : ∀ j, j ≠ i → (j ∈ t.leaving ↔ j ∈ s.leaving))
    (visits : i ∈ t.gate.visitors → new.waits = true ∨ i ∈ t.leaving)
    (waits : new.waits = true → i ∈ t.gate.visitors)
    (leaves : i ∈ t.leaving → new.finished = true) : t.Enrolled := by
  refine ⟨gate, fun j member => ?_, fun j waiting => ?_, fun j member => ?_⟩
  · rw [is_set was consumers]
    by_cases mine : j = i
    · rw [if_pos mine, mine]
      exact visits (mine ▸ member)
    · rw [if_neg mine, leaving j mine]
      exact h.visiting j ((visitors j mine).mp member)
  · rw [is_set was consumers] at waiting
    by_cases mine : j = i
    · rw [if_pos mine] at waiting
      exact mine ▸ waits waiting
    · rw [if_neg mine] at waiting
      exact (visitors j mine).mpr (h.waiting j waiting)
  · rw [is_set was consumers]
    by_cases mine : j = i
    · rw [if_pos mine]
      exact leaves (mine ▸ member)
    · rw [if_neg mine]
      exact h.leaving j ((leaving j mine).mp member)

theorem Enrolled.gone {s : Lobby} {i strays : Nat} {old : Consumer} (h : s.Enrolled)
    (was : s.consumers[i]? = some old) (unfinished : old.finished = false) :
    Enrolled ({ s with gate := s.gate.leave i, strays := strays }.place i .gone) := by
  obtain ⟨stays, _⟩ := h.apart was unfinished
  refine h.moved was rfl (h.gate.leave i) (fun j apart => ?_) (fun _ _ => .rfl)
    (fun member => ?_) (absurd · Bool.false_ne_true) (fun member => (stays member).elim)
  · change j ∈ (s.gate.leave i).visitors ↔ _
    simp [Gate.mem_visitors_leave, apart]
  · exact ((Gate.mem_visitors_leave.mp member).2 rfl).elim

theorem Enrolled.step {s t : Lobby} {m : Move} (h : s.Enrolled) (turn : Turn s m t) :
    t.Enrolled := by
  -- one consumer changes its place at a time, but for signals, which change nobody's
  cases turn with
  | called c traffic other step => exact ⟨h.gate, h.visiting, h.waiting, h.leaving⟩
  | signalled owed =>
    have same {i : Nat} := (s.gate.visitors_signal).mem_iff (a := i)
    exact ⟨h.gate.signal, fun i member => h.visiting i (same.mp member),
      fun i waits => same.mpr (h.waiting i waits), h.leaving⟩
  | signalledAll closing =>
    have same {i : Nat} := (s.gate.visitors_signalAll).mem_iff (a := i)
    exact ⟨h.gate.signalAll, fun i member => h.visiting i (same.mp member),
      fun i waits => same.mpr (h.waiting i waits), h.leaving⟩
  | came =>
    have same (kind : Consumer → Bool) (other : kind .arriving = false) :=
      is_came (s := s) (t := { s with consumers := s.consumers ++ [.arriving] }) rfl other
    refine ⟨h.gate, fun i member => ?_, fun i waits => ?_, fun i member => ?_⟩
    · rw [same _ rfl]
      exact h.visiting i member
    · rw [same _ rfl] at waits
      exact h.waiting i waits
    · rw [same _ rfl]
      exact h.leaving i member
  | passed i was permit =>
    obtain ⟨stays, absent⟩ := h.apart was rfl
    exact h.moved was rfl h.gate.pass (fun _ _ => .rfl) (fun _ _ => .rfl)
      (fun member => (absent rfl member).elim) (absurd · Bool.false_ne_true)
      (fun member => (stays member).elim)
  | enrolled i was shut =>
    obtain ⟨stays, absent⟩ := h.apart was rfl
    refine h.moved was rfl (h.gate.wait shut (absent rfl)) (fun j apart => ?_) (fun _ _ => .rfl)
      (fun _ => .inl rfl) (fun _ => ?_) (fun member => (stays member).elim)
    · simp [Gate.visitors, place, apart]
    · simp [Gate.visitors, place]
  | dismissed i passed was down =>
    refine h.moved was rfl h.gate (fun _ _ => .rfl) (fun j apart => ?_)
      (fun _ => .inr (List.mem_cons_self ..)) (absurd · Bool.false_ne_true) (fun _ => rfl)
    simp [place, apart]
  | served i passed was key queue taken =>
    refine h.moved was rfl h.gate (fun _ _ => .rfl) (fun j apart => ?_)
      (fun _ => .inr (List.mem_cons_self ..)) (absurd · Bool.false_ne_true) (fun _ => rfl)
    simp [handOut, place, apart]
  | again i was empty =>
    obtain ⟨stays, absent⟩ := h.apart was rfl
    exact h.moved was rfl h.gate (fun _ _ => .rfl) (fun _ _ => .rfl)
      (fun member => (absent rfl member).elim) (absurd · Bool.false_ne_true)
      (fun member => (stays member).elim)
  | blocked i was taking empty =>
    obtain ⟨stays, _⟩ := h.apart was rfl
    exact h.moved was rfl h.gate (fun _ _ => .rfl) (fun _ _ => .rfl) (fun _ => .inl rfl)
      (fun _ => h.waiting i (is_of was _)) (fun member => (stays member).elim)
  | woke i was granted =>
    obtain ⟨stays, _⟩ := h.apart was rfl
    have given := Gate.isGranted_iff.mp granted
    have moved : i ∉ s.gate.waiting := fun member =>
      (List.nodup_append.mp h.gate.once).2.2 i member i given rfl
    have visitors := Gate.visitors_notice moved
    refine h.moved was rfl (h.gate.notice i) (fun j apart => ?_) (fun _ _ => .rfl)
      (fun member => ?_) (absurd · Bool.false_ne_true) (fun member => (stays member).elim)
    · change j ∈ (s.gate.notice i).visitors ↔ _
      rw [visitors, List.mem_filter]
      simp [apart]
    · change i ∈ (s.gate.notice i).visitors at member
      rw [visitors, List.mem_filter] at member
      simp at member
  | left i member =>
    refine ⟨h.gate.leave i, fun j visits => ?_, fun j waits => ?_, fun j leaves => ?_⟩
    · obtain ⟨visits, apart⟩ := Gate.mem_visitors_leave.mp visits
      exact (h.visiting j visits).imp_right (List.mem_erase_of_ne apart).mpr
    · refine Gate.mem_visitors_leave.mpr ⟨h.waiting j waits, ?_⟩
      rintro rfl
      have finished : s.is Consumer.finished j = false := not_finished_of_waits waits
      rw [h.leaving j member] at finished
      contradiction
    · exact h.leaving j (List.mem_of_mem_erase leaves)
  | gaveUp i was => exact h.gone was rfl
  | strayed i passed was => exact h.gone was rfl

def Waited (s : Lobby) : Prop := ∃ i ∈ s.gate.waiting, s.consumers[i]? = some .blocked

/-- While somebody waits for a signal, there is a signal, a consumer about to look or a stray for
each key in line, and after the shutdown its signal is still to be given. -/
structure Awake (s : Lobby) : Prop where
  enough : s.traffic.queue.shuttingDown = false → s.Waited →
    s.traffic.queue.length ≤
      s.owed + s.gate.ones + s.consumers.countP Consumer.looks + s.strays
  closed : s.traffic.queue.shuttingDown = true → s.Waited → s.closing = true

theorem Awake.new (name : String) (bounds : Backoff.Bounds) : (new name bounds).Awake where
  enough _ waited := by
    obtain ⟨i, member, _⟩ := waited
    contradiction
  closed down := by contradiction

theorem Waited.of_gate {s t : Lobby} (h : t.Waited) (consumers : t.consumers = s.consumers)
    (waiting : ∀ i ∈ t.gate.waiting, i ∈ s.gate.waiting) : s.Waited := by
  obtain ⟨i, member, blocked⟩ := h
  exact ⟨i, waiting i member, consumers ▸ blocked⟩

theorem Waited.ne_nil {s : Lobby} (h : s.Waited) : s.gate.waiting ≠ [] := by
  obtain ⟨_, member, _⟩ := h
  exact List.ne_nil_of_mem member

theorem Waited.before {s t : Lobby} {i : Nat} {old new : Consumer} (h : t.Waited)
    (was : s.consumers[i]? = some old) (consumers : t.consumers = s.consumers.set i new)
    (awake : new ≠ .blocked) (waiting : ∀ j, j ≠ i → j ∈ t.gate.waiting → j ∈ s.gate.waiting) :
    s.Waited := by
  obtain ⟨j, member, blocked⟩ := h
  have inside : i < s.consumers.length := (List.getElem?_eq_some_iff.mp was).1
  rw [consumers, List.getElem?_set] at blocked
  by_cases mine : i = j
  · simp only [mine, if_true] at blocked
    split at blocked
    · exact (awake (Option.some.inj blocked)).elim
    · contradiction
  · rw [if_neg mine] at blocked
    exact ⟨j, waiting j (fun same => mine same.symm) member, blocked⟩

theorem countP_set {consumers : List Consumer} {i : Nat} {old : Consumer}
    (was : consumers[i]? = some old) (new : Consumer) (kind : Consumer → Bool) :
    (consumers.set i new).countP kind + (kind old).toNat =
      consumers.countP kind + (kind new).toNat := by
  have counted (c : Consumer) : (if kind c then 1 else 0) = (kind c).toNat := by
    cases kind c <;> rfl
  have same := (set_perm was new).countP_eq kind
  rw [List.countP_cons, List.countP_cons, counted, counted] at same
  exact same

/-- Where nobody begins to wait and the shutdown and its signal stay as they are, it is enough to keep
up with the line. -/
theorem Awake.kept {s t : Lobby} (h : s.Awake) (earlier : t.Waited → s.Waited)
    (down : t.traffic.queue.shuttingDown = s.traffic.queue.shuttingDown)
    (closing : t.closing = s.closing)
    (balance : t.traffic.queue.shuttingDown = false → t.Waited →
      s.traffic.queue.length ≤
        s.owed + s.gate.ones + s.consumers.countP Consumer.looks + s.strays →
      t.traffic.queue.length ≤
        t.owed + t.gate.ones + t.consumers.countP Consumer.looks + t.strays) : t.Awake where
  enough taking waited := balance taking waited (h.enough (down ▸ taking) (earlier waited))
  closed shut waited := closing ▸ h.closed (down ▸ shut) (earlier waited)

/-- A consumer that does not begin to wait strands nobody, as long as it makes up for the signal or
the look that it uses up with a key that it takes, a signal or a look to come. -/
theorem Awake.moved {s t : Lobby} {i : Nat} {old new : Consumer} (h : s.Awake)
    (was : s.consumers[i]? = some old) (consumers : t.consumers = s.consumers.set i new)
    (awake : new ≠ .blocked) (waiting : ∀ j, j ≠ i → j ∈ t.gate.waiting → j ∈ s.gate.waiting)
    (owed : t.owed = s.owed) (strays : t.strays = s.strays) (closing : t.closing = s.closing)
    (down : t.traffic.queue.shuttingDown = s.traffic.queue.shuttingDown)
    (balance : t.traffic.queue.shuttingDown = false → t.gate.waiting ≠ [] →
      t.traffic.queue.length + s.gate.ones + old.looks.toNat ≤
        s.traffic.queue.length + t.gate.ones + new.looks.toNat) : t.Awake := by
  refine h.kept (·.before was consumers awake waiting) down closing fun taking waited before => ?_
  have kept := balance taking waited.ne_nil
  have looks := countP_set was new Consumer.looks
  rw [consumers, owed, strays]
  omega

theorem Awake.step {s t : Lobby} {m : Move} (h : s.Awake) (enrolled : s.Enrolled)
    (turn : Turn s m t) : t.Awake := by
  cases turn with
  | called c traffic other step =>
    constructor
    · intro taking waited
      have before := h.enough (Traffic.taking_of_step step taking) waited
      simp only [update]
      omega
    · intro down waited
      simp only [update] at down ⊢
      cases before : s.traffic.queue.shuttingDown with
      | true => simp [h.closed before waited]
      | false => simp [down]
  | signalled owed =>
    have earlier (waited : Waited { s with
        gate := s.gate.signal, owed := s.owed - 1 }) : s.Waited :=
      waited.of_gate rfl fun _ => Gate.waiting_of_signal
    refine h.kept earlier rfl rfl fun _ waited before => ?_
    have more := Gate.ones_signal (earlier waited).ne_nil
    simp only [more]
    omega
  | signalledAll closing =>
    constructor
    · intro _ waited
      exact (waited.ne_nil rfl).elim
    · intro _ waited
      exact (waited.ne_nil rfl).elim
  | came =>
    have earlier : Waited { s with consumers := s.consumers ++ [.arriving] } → s.Waited := by
      rintro ⟨i, member, blocked⟩
      refine ⟨i, member, ?_⟩
      rw [List.getElem?_append] at blocked
      split at blocked
      · exact blocked
      · cases h : i - s.consumers.length <;> simp [h] at blocked
    refine h.kept earlier rfl rfl fun _ _ before => ?_
    simp only [List.countP_append]
    omega
  | passed i was permit =>
    refine h.moved was rfl (by rintro ⟨⟩) (fun _ _ => id) rfl rfl rfl rfl fun _ someone => ?_
    exact (someone (enrolled.gate.free permit)).elim
  | enrolled i was shut =>
    refine h.moved was rfl (by rintro ⟨⟩) (fun j apart member => ?_) rfl rfl rfl rfl
      fun _ _ => Nat.le_refl _
    have member : j ∈ s.gate.waiting ++ [i] := member
    simpa [apart] using member
  | dismissed i passed was down =>
    refine h.moved was rfl (by rintro ⟨⟩) (fun _ _ => id) rfl rfl rfl rfl fun taking _ => ?_
    have taking : s.traffic.queue.shuttingDown = false := taking
    rw [down] at taking
    contradiction
  | served i passed was key queue taken =>
    obtain ⟨taking, rest, line, rfl⟩ := WorkQueue.take?_eq_some.mp taken
    refine h.moved was rfl (by rintro ⟨⟩) (fun _ _ => id) rfl rfl rfl rfl fun _ _ => ?_
    have shorter : s.traffic.queue.length = rest.length + 1 := by
      rw [WorkQueue.length, line]
      rfl
    rw [shorter]
    change rest.length + s.gate.ones + _ ≤ rest.length + 1 + s.gate.ones + 0
    have once := Bool.toNat_le (Consumer.looks (.looking passed))
    omega
  | again i was empty =>
    refine h.moved was rfl (by rintro ⟨⟩) (fun _ _ => id) rfl rfl rfl rfl fun _ _ => ?_
    exact Nat.le_succ _
  | blocked i was taking empty =>
    constructor
    · intro _ _
      simp [place, WorkQueue.length, empty]
    · intro down _
      have down : s.traffic.queue.shuttingDown = true := down
      rw [taking] at down
      contradiction
  | woke i was granted =>
    refine h.moved was rfl (by rintro ⟨⟩) (fun _ _ => id) rfl rfl rfl rfl fun _ _ => ?_
    exact Nat.add_le_add_left (Gate.ones_le_notice enrolled.gate i) _
  | left i member =>
    have earlier (waited : Waited { s with
        gate := s.gate.leave i, leaving := s.leaving.erase i }) : s.Waited :=
      waited.of_gate rfl fun _ => Gate.waiting_of_leave
    refine h.kept earlier rfl rfl fun _ waited before => Nat.le_trans before ?_
    have kept := Gate.ones_le_leave enrolled.gate waited.ne_nil
    simp only
    omega
  | gaveUp i was =>
    refine h.moved was rfl (by rintro ⟨⟩) (fun _ _ => Gate.waiting_of_leave) rfl rfl rfl rfl
      fun _ someone => ?_
    exact Nat.add_le_add_left (Gate.ones_le_leave enrolled.gate someone) _
  | strayed i passed was =>
    -- the look is given up without a key for it, so the balance of `Awake.moved` does not hold
    have earlier (waited : Waited ({ s with
        gate := s.gate.leave i, strays := s.strays + (!passed).toNat }.place i .gone)) : s.Waited :=
      waited.before was rfl (by rintro ⟨⟩) fun _ _ => Gate.waiting_of_leave
    refine h.kept earlier rfl rfl fun _ waited before => ?_
    have kept := Gate.ones_le_leave enrolled.gate waited.ne_nil
    have looks := countP_set was .gone Consumer.looks
    simp only [Consumer.looks, Bool.toNat_false] at looks
    change s.traffic.queue.length ≤ s.owed + (s.gate.leave i).ones +
      (s.consumers.set i .gone).countP Consumer.looks + (s.strays + (!passed).toNat)
    omega

theorem keys_set {consumers : List Consumer} {i : Nat} {old : Consumer}
    (was : consumers[i]? = some old) (empty : old.key? = none) (new : Consumer) :
    ((consumers.set i new).filterMap Consumer.key?).Perm
      (new.key?.toList ++ consumers.filterMap Consumer.key?) := by
  have same := (set_perm was new).filterMap Consumer.key?
  rw [List.filterMap_cons_none empty] at same
  cases key : new.key? with
  | none => rwa [List.filterMap_cons_none key] at same
  | some k => rwa [List.filterMap_cons_some key] at same

def HandedOut (s : Lobby) : Prop :=
  (Traffic.deliveries s.traffic.history).Perm (s.consumers.filterMap Consumer.key?)

theorem HandedOut.moved {s t : Lobby} {i : Nat} {old new : Consumer} (h : s.HandedOut)
    (was : s.consumers[i]? = some old) (empty : old.key? = none)
    (consumers : t.consumers = s.consumers.set i new) (none : new.key? = none)
    (traffic : t.traffic = s.traffic) : t.HandedOut := by
  have keys := keys_set was empty new
  rw [none] at keys
  rw [HandedOut, consumers, traffic]
  exact h.trans keys.symm

theorem HandedOut.step {s t : Lobby} {m : Move} (h : s.HandedOut) (turn : Turn s m t) :
    t.HandedOut := by
  cases turn with
  | called c traffic other step =>
    rw [HandedOut, update, Traffic.deliveries_call other step]
    exact h
  | signalled owed => exact h
  | signalledAll closing => exact h
  | came =>
    rw [HandedOut, List.filterMap_append, List.filterMap_cons_none rfl, List.filterMap_nil,
      List.append_nil]
    exact h
  | passed i was permit => exact h.moved was rfl rfl rfl rfl
  | enrolled i was shut => exact h.moved was rfl rfl rfl rfl
  | dismissed i passed was down => exact h.moved was rfl rfl rfl rfl
  | served i passed was key queue taken =>
    have keys := keys_set was rfl (.served key)
    refine List.Perm.trans ?_ keys.symm
    exact List.perm_append_comm.trans (h.cons key)
  | again i was empty => exact h.moved was rfl rfl rfl rfl
  | blocked i was taking empty => exact h.moved was rfl rfl rfl rfl
  | woke i was granted => exact h.moved was rfl rfl rfl rfl
  | left i member => exact h
  | gaveUp i was => exact h.moved was rfl rfl rfl rfl
  | strayed i passed was => exact h.moved was rfl rfl rfl rfl

def effortOf : Consumer → Nat
  | .arriving => 3
  | .looking passed => if passed then 4 else 2
  | _ => 0

def effortAt (g : Gate) : Nat := 2 * g.permit.toNat + 4 * g.granted.length

def effort (s : Lobby) : Nat :=
  5 * s.owed + (if s.closing then 4 * s.consumers.length + 1 else 0) +
    (s.consumers.map effortOf).sum + s.leaving.length + effortAt s.gate

theorem effort_moved {s t : Lobby} {i : Nat} {old new : Consumer}
    (was : s.consumers[i]? = some old) (consumers : t.consumers = s.consumers.set i new)
    (owed : t.owed = s.owed) (closing : t.closing = s.closing)
    (less : effortOf new + t.leaving.length + effortAt t.gate <
      effortOf old + s.leaving.length + effortAt s.gate) : t.effort < s.effort := by
  have moved := sum_map_set was new effortOf
  have length : t.consumers.length = s.consumers.length := by rw [consumers, List.length_set]
  unfold effort
  rw [owed, closing, length, consumers]
  omega

theorem lt_of_is {s : Lobby} {kind : Consumer → Bool} {i : Nat} (h : s.is kind i = true) :
    i < s.consumers.length := by
  obtain ⟨c, was, _⟩ := is_iff.mp h
  exact (List.getElem?_eq_some_iff.mp was).1

theorem Enrolled.waiting_le {s : Lobby} (h : s.Enrolled) :
    s.gate.waiting.length ≤ s.consumers.length := by
  have known : ∀ i ∈ s.gate.waiting, i ∈ List.range s.consumers.length := by
    intro i member
    rw [List.mem_range]
    rcases h.visiting i (List.mem_append_left _ member) with waits | leaves
    · exact lt_of_is waits
    · exact lt_of_is (h.leaving i leaves)
  have once := (List.nodup_append.mp h.gate.once).1
  simpa using (List.subperm_of_subset once known).length_le

theorem effortAt_signal (g : Gate) : effortAt g.signal ≤ effortAt g + 4 := by
  obtain ⟨_, eq⟩ | ⟨visitor, rest, _, eq⟩ := g.signal_cases
  · rw [eq]
    simp only [effortAt, Bool.toNat_true]
    omega
  · rw [eq]
    simp only [effortAt, List.length_append, List.length_singleton]
    omega

theorem effortAt_notice {g : Gate} {i : Nat} (granted : g.isGranted i = true) :
    effortAt (g.notice i) + 4 ≤ effortAt g := by
  have fewer := Gate.length_without_lt (Gate.isGranted_iff.mp granted)
  simp only [effortAt, Gate.notice]
  omega

theorem effortAt_leave (g : Gate) (i : Nat) : effortAt (g.leave i) ≤ effortAt g := by
  unfold Gate.leave
  split
  · rename_i mine
    have member : i ∈ g.granted.map (·.1) :=
      List.mem_map_of_mem (f := (·.1)) (List.contains_iff_mem.mp mine)
    have fewer := Gate.length_without_lt member
    refine Nat.le_trans (effortAt_signal _) ?_
    simp only [effortAt]
    omega
  · have fewer := List.length_filter_le (fun given : Nat × Gate.Signal => given.1 ≠ i) g.granted
    simp only [effortAt]
    omega

theorem effort_lt {s t : Lobby} {m : Move} (enrolled : s.Enrolled) (turn : Turn s m t)
    (own : m.own = true) : t.effort < s.effort := by
  cases turn with
  | called c traffic other step => contradiction
  | signalled owed =>
    have more := effortAt_signal s.gate
    simp only [effort]
    omega
  | signalledAll closing =>
    have few := enrolled.waiting_le
    simp only [effort, effortAt, Gate.signalAll, List.length_append, List.length_map, closing,
      if_true, Bool.false_eq_true, if_false]
    omega
  | came => contradiction
  | passed i was permit =>
    refine effort_moved was rfl rfl rfl ?_
    simp only [place, effortOf, effortAt, permit, if_true, Bool.toNat_true, Bool.toNat_false]
    omega
  | enrolled i was shut =>
    refine effort_moved was rfl rfl rfl ?_
    simp only [place, effortOf, effortAt, Bool.false_eq_true, if_false]
    omega
  | dismissed i passed was down =>
    refine effort_moved was rfl rfl rfl ?_
    cases passed <;> simp only [place, effortOf, List.length_cons, Bool.false_eq_true, if_true,
      if_false] <;> omega
  | served i passed was key queue taken =>
    refine effort_moved was rfl rfl rfl ?_
    cases passed <;> simp only [handOut, place, effortOf, List.length_cons, Bool.false_eq_true,
      if_true, if_false] <;> omega
  | again i was empty =>
    refine effort_moved was rfl rfl rfl ?_
    simp only [place, effortOf, if_true]
    omega
  | blocked i was taking empty =>
    refine effort_moved was rfl rfl rfl ?_
    simp only [place, effortOf, Bool.false_eq_true, if_false]
    omega
  | woke i was granted =>
    refine effort_moved was rfl rfl rfl ?_
    have less := effortAt_notice granted
    simp only [place, effortOf]
    omega
  | left i member =>
    have kept := effortAt_leave s.gate i
    have fewer := List.length_erase_of_mem member
    have positive := List.length_pos_of_mem member
    simp only [effort, fewer]
    omega
  | gaveUp i was => contradiction
  | strayed i passed was => contradiction

structure Sound (s : Lobby) : Prop where
  enrolled : s.Enrolled
  awake : s.Awake
  handedOut : s.HandedOut

theorem Sound.step {s t : Lobby} {m : Move} (h : s.Sound) (turn : Turn s m t) : t.Sound where
  enrolled := h.enrolled.step turn
  awake := h.awake.step h.enrolled turn
  handedOut := h.handedOut.step turn

theorem sound_of_run {name : String} {bounds : Backoff.Bounds} {moves : List Move} {s : Lobby}
    (run : after? step? (new name bounds) moves = some s) : s.Sound := by
  apply after?_invariant (P := Sound) ?_ moves ?_ run
  · intro s m t sound step
    exact sound.step (step_turn step)
  · exact ⟨.new name bounds, .new name bounds, .refl _⟩

theorem length_le_effort {s t : Lobby} {moves : List Move} (sound : s.Sound)
    (own : ∀ m ∈ moves, m.own = true) (run : after? step? s moves = some t) :
    moves.length + t.effort ≤ s.effort := by
  induction moves generalizing s with
  | nil =>
    cases Option.some.inj run
    exact Nat.le_of_eq (Nat.zero_add _)
  | cons m moves ih =>
    rw [after?_cons, Option.bind_eq_some_iff] at run
    obtain ⟨u, step, rest⟩ := run
    have turn := step_turn step
    have less := effort_lt sound.enrolled turn (own m (List.mem_cons_self ..))
    have tail := ih (sound.step turn) (fun m member => own m (List.mem_cons_of_mem _ member)) rest
    rw [List.length_cons]
    omega

theorem served_set {consumers : List Consumer} {i j : Nat} {key : String} {old : Consumer}
    (served : consumers[i]? = some (.served key)) (was : consumers[j]? = some old)
    (other : old.key? = none) (new : Consumer) :
    (consumers.set j new)[i]? = some (.served key) := by
  have apart : j ≠ i := by
    rintro rfl
    cases served.symm.trans was
    contradiction
  rw [List.getElem?_set, if_neg apart]
  exact served

theorem served_step {s t : Lobby} {m : Move} {i : Nat} {key : String}
    (served : s.consumers[i]? = some (.served key)) (turn : Turn s m t) :
    t.consumers[i]? = some (.served key) := by
  cases turn with
  | called c traffic other step => exact served
  | signalled owed => exact served
  | signalledAll closing => exact served
  | came => exact List.getElem?_append_left (List.getElem?_eq_some_iff.mp served).1 ▸ served
  | passed j was permit => exact served_set served was rfl _
  | enrolled j was shut => exact served_set served was rfl _
  | dismissed j passed was down => exact served_set served was rfl _
  | served j passed was other queue taken => exact served_set served was rfl _
  | again j was empty => exact served_set served was rfl _
  | blocked j was taking empty => exact served_set served was rfl _
  | woke j was granted => exact served_set served was rfl _
  | left j member => exact served
  | gaveUp j was => exact served_set served was rfl _
  | strayed j passed was => exact served_set served was rfl _

theorem Quiet.rests {s : Lobby} (quiet : s.Quiet) (enrolled : s.Enrolled) :
    s.owed = 0 ∧ s.closing = false ∧ s.consumers.countP Consumer.looks = 0 ∧
      s.gate.granted = [] := by
  have owed : s.owed = 0 := by
    have still := quiet .signal rfl
    simp only [step?] at still
    split at still
    · assumption
    · contradiction
  have closing : s.closing = false := by
    have still := quiet .signalAll rfl
    simp only [step?] at still
    split at still
    · contradiction
    · simp_all
  have resting : ∀ (i : Nat) (c : Consumer), s.consumers[i]? = some c → c.looks = false := by
    intro i c was
    have still := quiet (.proceed i) rfl
    simp only [step?, was] at still
    cases c <;> first | rfl | contradiction
  have staying : ∀ i, i ∉ s.leaving := by
    intro i member
    have still := quiet (.leave i) rfl
    rw [step?, if_pos member] at still
    contradiction
  have ungranted : ∀ i, s.consumers[i]? = some .blocked → s.gate.isGranted i = false := by
    intro i was
    have still := quiet (.proceed i) rfl
    simp only [step?, was] at still
    split at still
    · contradiction
    · simp_all
  refine ⟨owed, closing, ?_, ?_⟩
  · apply List.countP_eq_zero.mpr
    intro c member
    obtain ⟨i, was⟩ := List.mem_iff_getElem?.mp member
    simp [resting i c was]
  · apply List.eq_nil_iff_forall_not_mem.mpr
    -- a signal that nobody has noticed would be noticed in a move of the one it was given to
    rintro ⟨i, signal⟩ member
    have given : i ∈ s.gate.granted.map (·.1) := List.mem_map_of_mem (f := (·.1)) member
    rcases enrolled.visiting i (List.mem_append_right _ given) with waits | leaves
    · obtain ⟨c, was, waits⟩ := is_iff.mp waits
      have rests := resting i c was
      cases c with
      | blocked =>
        have missed := ungranted i was
        rw [Gate.isGranted_iff.mpr given] at missed
        contradiction
      | looking passed => exact absurd waits (Bool.eq_false_iff.mp rests)
      | _ => contradiction
    · exact staying i leaves

/-- Whatever consumers, their cancellation and the calls of others come between each other: once
those who were woken have made their moves, which are bounded, nobody waits for a key, or the queue
takes more and there are no more keys in line than strays, so none if nobody strayed. Each key that
was handed out is with one consumer, which keeps it, and who gives up takes none away. -/
theorem no_wake_up_lost (name : String) (bounds : Backoff.Bounds) (moves : List Move) (s : Lobby)
    (run : after? step? (new name bounds) moves = some s) :
    (s.Quiet → (∀ i : Nat, s.consumers[i]? ≠ some .blocked) ∨
      s.traffic.queue.length ≤ s.strays ∧ s.traffic.queue.shuttingDown = false) ∧
    (∀ later t, (∀ m ∈ later, m.own = true) → after? step? s later = some t →
      later.length ≤ s.effort) ∧
    (Traffic.deliveries s.traffic.history).Perm (s.consumers.filterMap Consumer.key?) ∧
    (∀ (i : Nat) key m t, s.consumers[i]? = some (.served key) → s.step? m = some t →
      t.consumers[i]? = some (.served key)) ∧
    ∀ i t, s.step? (.giveUp i) = some t → t.traffic = s.traffic ∧
      t.strays = s.strays + if s.consumers[i]? = some (.looking false) then 1 else 0 := by
  have sound := sound_of_run run
  refine ⟨fun quiet => ?_, fun later t own more => ?_, sound.handedOut, ?_, ?_⟩
  · obtain ⟨owed, closing, resting, ungranted⟩ := quiet.rests sound.enrolled
    by_cases waiting : ∃ i : Nat, s.consumers[i]? = some .blocked
    · right
      obtain ⟨i, was⟩ := waiting
      have waited : s.Waited := by
        have visits := sound.enrolled.waiting i (is_of was _)
        rw [Gate.visitors, ungranted, List.map_nil, List.append_nil] at visits
        exact ⟨i, visits, was⟩
      have taking : s.traffic.queue.shuttingDown = false := by
        apply Bool.eq_false_iff.mpr
        intro down
        have owes := sound.awake.closed down waited
        rw [closing] at owes
        contradiction
      have enough := sound.awake.enough taking waited
      rw [owed, resting, Gate.ones, ungranted, List.countP_nil, Nat.zero_add] at enough
      exact ⟨enough, taking⟩
    · left
      intro i was
      exact waiting ⟨i, was⟩
  · have bounded := length_le_effort sound own more
    omega
  · intro i key m t served step
    exact served_step served (step_turn step)
  · intro i t step
    cases step_turn step with
    | gaveUp i was => exact ⟨rfl, by simp [place, was]⟩
    | strayed i passed was => exact ⟨rfl, by cases passed <;> simp [place, was]⟩

theorem quiet_of_few {s : Lobby} (consumers : s.consumers.length ≤ 4)
    (signal : s.step? .signal = none) (signalAll : s.step? .signalAll = none)
    (moves : ∀ i < 4, s.step? (.proceed i) = none) (leaving : s.leaving = []) : s.Quiet := by
  intro m own
  cases m with
  | signal => exact signal
  | signalAll => exact signalAll
  | proceed i =>
    by_cases few : i < 4
    · exact moves i few
    · rw [step?, List.getElem?_eq_none (by omega)]
  | leave i => rw [step?, leaving, if_neg List.not_mem_nil]
  | _ => contradiction

theorem no_wake_up_lost_to_one_who_gave_up :
    ∃ s, after? step? (new "keys" {})
        [.come, .proceed 0, .proceed 0, .come, .proceed 1, .proceed 1, .call (.add "a/x"), .signal,
          .giveUp 0, .call (.add "a/y"), .signal, .come, .proceed 2, .proceed 2, .leave 2,
          .proceed 1, .proceed 1, .proceed 1, .leave 1, .come, .proceed 3, .proceed 3] = some s ∧
      s.consumers = [.gone, .served "a/y", .served "a/x", .blocked] ∧
      s.traffic.queue.ready = [] ∧ s.traffic.queue.shuttingDown = false ∧
      (Traffic.deliveries s.traffic.history).Perm (s.consumers.filterMap Consumer.key?) := by
  have h := no_wake_up_lost "keys" {}
    [.come, .proceed 0, .proceed 0, .come, .proceed 1, .proceed 1, .call (.add "a/x"), .signal,
      .giveUp 0, .call (.add "a/y"), .signal, .come, .proceed 2, .proceed 2, .leave 2,
      .proceed 1, .proceed 1, .proceed 1, .leave 1, .come, .proceed 3, .proceed 3] _ rfl
  have rests := h.1 (quiet_of_few (by decide) rfl rfl (by decide) rfl)
  obtain ⟨few, taking⟩ := rests.resolve_left fun nobody => nobody 3 rfl
  exact ⟨_, rfl, rfl, List.length_eq_zero_iff.mp (Nat.le_zero.mp few), taking, h.2.2.1⟩

/-- Of two consumers that wait, the first one is woken for a key, enrols anew and gives up before it
looks. Nobody has a move left, and the second one waits beside the key. -/
theorem wake_up_lost_to_a_stray :
    ∃ s, after? step? (new "keys" {})
        [.come, .proceed 0, .proceed 0, .come, .proceed 1, .proceed 1, .call (.add "a/x"), .signal,
          .proceed 0, .proceed 0, .giveUp 0] = some s ∧
      s.Quiet ∧ s.consumers = [.gone, .blocked] ∧ s.traffic.queue.ready = ["a/x"] ∧
      s.traffic.queue.shuttingDown = false :=
  ⟨_, rfl, quiet_of_few (by decide) rfl rfl (by decide) rfl, rfl, rfl, rfl⟩

end Lobby

end MonitorOperator
