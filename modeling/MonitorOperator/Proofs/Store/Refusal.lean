import MonitorOperator.Proofs.Store.Operation

/-! Calls that a store refuses. Which error a call meets depends on the availability of the store
and on what stands at the key of the call; a refusal leaves the store as it is, but for the count of
conflicts. Main statement: this holds of every call at every point of a run, and the counts of a run
are the numbers of its accepted status writes, of its accepted creations and of its conflicts. -/

namespace MonitorOperator.Store

def failure? {α : Type} : Except StoreError α → Option StoreError
  | .ok _ => none
  | .error cause => some cause

@[simp] theorem failure?_ok {α : Type} (a : α) : failure? (.ok a) = none := rfl

@[simp] theorem failure?_error {α : Type} (cause : StoreError) :
    failure? (.error cause : Except StoreError α) = some cause := rfl

section Answers

variable {s : Store}

theorem updateStatus_down (down : s.unavailable = true) (m : Monitor) :
    s.updateStatus m = (s, .error outage) := if_pos down

theorem createPod_down (down : s.unavailable = true) (p : Pod) :
    s.createPod p = (s, .error outage) := if_pos down

theorem updateStatus_absent (up : s.unavailable = false) {m : Monitor}
    (absent : s.monitors.get? m.key = none) :
    s.updateStatus m = (s, .error (noMonitor m.key)) := by
  simp [updateStatus, up, absent]

theorem updateStatus_stale (up : s.unavailable = false) {m stored : Monitor}
    (present : s.monitors.get? m.key = some stored)
    (differ : stored.metadata.version ≠ m.metadata.version) :
    s.updateStatus m = ({ s with conflicts := s.conflicts + 1 },
      .error (.conflict monitorKind m.key.text m.metadata.version stored.metadata.version)) := by
  simp [updateStatus, up, present, differ]

theorem createPod_taken (up : s.unavailable = false) {p old : Pod}
    (present : s.pods.get? p.key = some old) :
    s.createPod p = (s, .error (.alreadyExists podKind p.key.text)) := by
  simp [createPod, up, Table.contains, present]

end Answers

namespace Operation

def isCall : Operation → Bool
  | .getMonitor _ => true
  | .getPod _ => true
  | .updateStatus _ => true
  | .createPod _ => true
  | .list => true
  | _ => false

def refusal? (s : Store) : Operation → Option StoreError
  | .getMonitor key => failure? (s.getMonitor key)
  | .getPod key => failure? (s.getPod key)
  | .updateStatus m => failure? (s.updateStatus m).2
  | .createPod p => failure? (s.createPod p).2
  | .list => failure? s.list
  | _ => none

/-- The errors of a store, each with the calls and the states in which it is given. -/
inductive Refuses (s : Store) : Operation → StoreError → Prop where
  | outage (op : Operation) (call : op.isCall = true) (down : s.unavailable = true) :
      Refuses s op outage
  | unread (key : Key) (up : s.unavailable = false) (absent : s.monitors.get? key = none) :
      Refuses s (.getMonitor key) (noMonitor key)
  | unwritten (m : Monitor) (up : s.unavailable = false) (absent : s.monitors.get? m.key = none) :
      Refuses s (.updateStatus m) (noMonitor m.key)
  | stale (m stored : Monitor) (up : s.unavailable = false)
      (present : s.monitors.get? m.key = some stored)
      (differ : stored.metadata.version ≠ m.metadata.version) :
      Refuses s (.updateStatus m)
        (.conflict monitorKind m.key.text m.metadata.version stored.metadata.version)
  | missing (key : Key) (up : s.unavailable = false) (absent : s.pods.get? key = none) :
      Refuses s (.getPod key) (noPod key)
  | taken (p old : Pod) (up : s.unavailable = false) (present : s.pods.get? p.key = some old) :
      Refuses s (.createPod p) (.alreadyExists podKind p.key.text)

theorem Refuses.refusal? {s : Store} {op : Operation} {cause : StoreError}
    (h : Refuses s op cause) : op.refusal? s = some cause := by
  cases h with
  | outage op call down =>
    cases op with
    | getMonitor key => simp [Operation.refusal?, Store.getMonitor, down]
    | getPod key => simp [Operation.refusal?, Store.getPod, down]
    | updateStatus m => simp [Operation.refusal?, updateStatus_down down]
    | createPod p => simp [Operation.refusal?, createPod_down down]
    | list => simp [Operation.refusal?, Store.list, down]
    | _ => contradiction
  | unread key up absent => simp [Operation.refusal?, Store.getMonitor, up, absent]
  | unwritten m up absent => simp [Operation.refusal?, updateStatus_absent up absent]
  | stale m stored up present differ =>
    simp [Operation.refusal?, updateStatus_stale up present differ]
  | missing key up absent => simp [Operation.refusal?, Store.getPod, up, absent]
  | taken p old up present => simp [Operation.refusal?, createPod_taken up present]

theorem refuses_of_refusal? {s : Store} {op : Operation} {cause : StoreError}
    (h : op.refusal? s = some cause) : Refuses s op cause := by
  -- it suffices to find one reason, for a call is answered with one error at most
  suffices found : ∃ reason, Refuses s op reason by
    obtain ⟨reason, refuses⟩ := found
    cases Option.some.inj (h.symm.trans refuses.refusal?)
    exact refuses
  cases down : s.unavailable with
  | true =>
    have call : op.isCall = true := by cases op <;> first | rfl | contradiction
    exact ⟨_, .outage op call down⟩
  | false =>
    cases op with
    | getMonitor key =>
      cases found : s.monitors.get? key with
      | none => exact ⟨_, .unread key down found⟩
      | some m => simp [refusal?, Store.getMonitor, down, found] at h
    | getPod key =>
      cases found : s.pods.get? key with
      | none => exact ⟨_, .missing key down found⟩
      | some p => simp [refusal?, Store.getPod, down, found] at h
    | updateStatus m =>
      cases found : s.monitors.get? m.key with
      | none => exact ⟨_, .unwritten m down found⟩
      | some stored =>
        by_cases same : stored.metadata.version = m.metadata.version
        · simp [refusal?, Store.updateStatus, down, found, same] at h
        · exact ⟨_, .stale m stored down found same⟩
    | createPod p =>
      cases found : s.pods.get? p.key with
      | none => simp [refusal?, Store.createPod, down, Table.contains, found] at h
      | some old => exact ⟨_, .taken p old down found⟩
    | list => simp [refusal?, Store.list, down] at h
    | _ => contradiction

theorem uncounted (s : Store) : s = { s with conflicts := s.conflicts + 0 } := by
  rw [UInt64.add_zero]

theorem Refuses.run {s : Store} {op : Operation} {cause : StoreError} (h : Refuses s op cause) :
    op.run s = { s with conflicts := s.conflicts + if cause.isConflict then 1 else 0 } := by
  cases h with
  | outage op call down =>
    cases op with
    | updateStatus m => exact (congrArg Prod.fst (updateStatus_down down m)).trans (uncounted s)
    | createPod p => exact (congrArg Prod.fst (createPod_down down p)).trans (uncounted s)
    | getMonitor key => exact uncounted s
    | getPod key => exact uncounted s
    | list => exact uncounted s
    | _ => contradiction
  | unread => exact uncounted s
  | unwritten m up absent =>
    exact (congrArg Prod.fst (updateStatus_absent up absent)).trans (uncounted s)
  | stale m stored up present differ =>
    exact congrArg Prod.fst (updateStatus_stale up present differ)
  | missing => exact uncounted s
  | taken p old up present =>
    exact (congrArg Prod.fst (createPod_taken up present)).trans (uncounted s)

def isStatusWrite : Operation → Bool
  | .updateStatus _ => true
  | _ => false

def isCreation : Operation → Bool
  | .createPod _ => true
  | _ => false

def accepted (s : Store) (op : Operation) : Bool := (op.refusal? s).isNone

def conflicts (s : Store) (op : Operation) : Bool := (op.refusal? s).any StoreError.isConflict

end Operation

structure Tally where
  statusWrites : UInt64
  podsCreated : UInt64
  conflicts : UInt64

def tally (s : Store) : Tally := ⟨s.statusWrites, s.podsCreated, s.conflicts⟩

@[simp] theorem tally_identify (s : Store) (given : String) :
    (s.identify given).1.tally = s.tally := by
  unfold identify; split <;> rfl

@[simp] theorem tally_writeMonitor (s : Store) (m : Monitor) (change : Object → Change) :
    (s.writeMonitor m change).1.tally = s.tally := rfl

@[simp] theorem tally_writePod (s : Store) (p : Pod) (change : Object → Change) :
    (s.writePod p change).1.tally = s.tally := rfl

@[simp] theorem tally_apply (s : Store) (m : Monitor) : (s.apply m).1.tally = s.tally := by
  unfold apply; split <;> simp

@[simp] theorem tally_putPod (s : Store) (p : Pod) : (s.putPod p).1.tally = s.tally := by
  unfold putPod; split <;> simp

@[simp] theorem tally_setPodPhase (s : Store) (key : Key) (phase : PodPhase) :
    (s.setPodPhase key phase).1.tally = s.tally := by
  unfold setPodPhase; split <;> simp

@[simp] theorem tally_deletePod (s : Store) (key : Key) : (s.deletePod key).1.tally = s.tally := by
  unfold deletePod; split <;> rfl

@[simp] theorem tally_deleteMonitor (s : Store) (key : Key) :
    (s.deleteMonitor key).1.tally = s.tally := by
  unfold deleteMonitor; split <;> rfl

theorem tally_updateStatus {s : Store} {m : Monitor}
    (accepted : failure? (s.updateStatus m).2 = none) :
    (s.updateStatus m).1.tally = ⟨s.statusWrites + 1, s.podsCreated, s.conflicts⟩ := by
  unfold updateStatus at accepted ⊢
  split at accepted
  · contradiction
  · split at accepted
    · contradiction
    · split at accepted
      · simp only [*]
        rfl
      · contradiction

theorem tally_createPod {s : Store} {p : Pod} (accepted : failure? (s.createPod p).2 = none) :
    (s.createPod p).1.tally = ⟨s.statusWrites, s.podsCreated + 1, s.conflicts⟩ := by
  unfold createPod at accepted ⊢
  split at accepted
  · contradiction
  · split at accepted
    · contradiction
    · simp only [*]
      rfl

theorem Operation.tally_run (s : Store) (op : Operation) : (op.run s).tally =
    { statusWrites := s.statusWrites + UInt64.ofNat (op.isStatusWrite && op.accepted s).toNat
      podsCreated := s.podsCreated + UInt64.ofNat (op.isCreation && op.accepted s).toNat
      conflicts := s.conflicts + UInt64.ofNat (op.conflicts s).toNat } := by
  cases answer : op.refusal? s with
  | some cause =>
    rw [(refuses_of_refusal? answer).run, accepted, conflicts, answer]
    cases conflict : cause.isConflict <;> simp [tally, conflict]
  | none =>
    have quiet (t : Store) (same : t.tally = s.tally) :
        t.tally = ⟨s.statusWrites + UInt64.ofNat false.toNat,
          s.podsCreated + UInt64.ofNat false.toNat, s.conflicts + UInt64.ofNat false.toNat⟩ :=
      same.trans (by simp [tally])
    rw [accepted, conflicts, answer]
    cases op with
    | updateStatus m => exact (tally_updateStatus answer).trans (by simp [isStatusWrite, isCreation])
    | createPod p => exact (tally_createPod answer).trans (by simp [isStatusWrite, isCreation])
    | apply m => exact quiet _ (s.tally_apply m)
    | putPod p => exact quiet _ (s.tally_putPod p)
    | setPodPhase key phase => exact quiet _ (s.tally_setPodPhase key phase)
    | deletePod key => exact quiet _ (s.tally_deletePod key)
    | deleteMonitor key => exact quiet _ (s.tally_deleteMonitor key)
    | _ => exact quiet _ rfl

/-- The operations of a run, each with the store that it meets. -/
def meets (s : Store) : List Operation → List (Store × Operation)
  | [] => []
  | op :: ops => (s, op) :: meets (op.run s) ops

/-- The counts of a run are the numbers of the calls that they are named for. -/
theorem tally_after (s : Store) (ops : List Operation) : (s.after ops).tally =
    { statusWrites := s.statusWrites +
        UInt64.ofNat ((s.meets ops).countP fun c => c.2.isStatusWrite && c.2.accepted c.1)
      podsCreated := s.podsCreated +
        UInt64.ofNat ((s.meets ops).countP fun c => c.2.isCreation && c.2.accepted c.1)
      conflicts := s.conflicts +
        UInt64.ofNat ((s.meets ops).countP fun c => c.2.conflicts c.1) } := by
  induction ops generalizing s with
  | nil => simp [after, meets, tally]
  | cons op ops ih =>
    have first := op.tally_run s
    simp only [tally, Tally.mk.injEq] at first ih ⊢
    obtain ⟨statusWrites, podsCreated, conflicts⟩ := first
    obtain ⟨statusWrites', podsCreated', conflicts'⟩ := ih (op.run s)
    have count (b : Bool) : b.toNat = if b = true then 1 else 0 := by cases b <;> rfl
    rw [after_cons, statusWrites', podsCreated', conflicts', statusWrites, podsCreated, conflicts]
    simp only [meets, List.countP_cons, count, Nat.add_comm _ (ite ..), UInt64.ofNat_add,
      UInt64.add_assoc, and_self]

theorem conflict_of_refusal? {s : Store} {op : Operation} {kind key : String}
    {observed current : UInt64}
    (h : op.refusal? s = some (.conflict kind key observed current)) :
    ∃ m stored, op = .updateStatus m ∧ s.monitors.get? m.key = some stored ∧
      kind = monitorKind ∧ key = m.key.text ∧ observed = m.metadata.version ∧
      current = stored.metadata.version ∧ current ≠ observed := by
  cases Operation.refuses_of_refusal? h with
  | stale m stored up present differ => exact ⟨m, stored, rfl, present, rfl, rfl, rfl, rfl, differ⟩

/-- At every point of a run a call is refused exactly for the reasons that there are, and then the
store is what it was, but for the count of conflicts, which goes up by one exactly on a conflict. A
conflict tells the version of the caller and the one that is stored. The counts are the numbers of
the accepted status writes, of the accepted creations and of the conflicts so far, modulo `2 ^ 64`
as words count. -/
theorem refusals_leave_no_trace (retention : Nat) (ops : List Operation) :
    let s := (empty retention).after ops
    let calls := (empty retention).meets ops
    (∀ (op : Operation) cause, op.refusal? s = some cause ↔ Operation.Refuses s op cause) ∧
    (∀ (op : Operation) cause, op.refusal? s = some cause →
      op.run s = { s with conflicts := s.conflicts + if cause.isConflict then 1 else 0 }) ∧
    (∀ (op : Operation) kind key observed current,
      op.refusal? s = some (.conflict kind key observed current) →
      ∃ m stored, op = .updateStatus m ∧ s.monitors.get? m.key = some stored ∧
        kind = monitorKind ∧ key = m.key.text ∧ observed = m.metadata.version ∧
        current = stored.metadata.version ∧ current ≠ observed) ∧
    s.statusWrites =
      UInt64.ofNat (calls.countP fun c => c.2.isStatusWrite && c.2.accepted c.1) ∧
    s.podsCreated = UInt64.ofNat (calls.countP fun c => c.2.isCreation && c.2.accepted c.1) ∧
    s.conflicts = UInt64.ofNat (calls.countP fun c => c.2.conflicts c.1) := by
  intro s calls
  have counts := (empty retention).tally_after ops
  simp only [tally, Tally.mk.injEq] at counts
  obtain ⟨statusWrites, podsCreated, conflicts⟩ := counts
  refine ⟨fun op cause => ⟨Operation.refuses_of_refusal?, Operation.Refuses.refusal?⟩,
    fun op cause refused => (Operation.refuses_of_refusal? refused).run,
    fun op kind key observed current => conflict_of_refusal?, ?_, ?_, ?_⟩
  · exact statusWrites.trans (UInt64.zero_add _)
  · exact podsCreated.trans (UInt64.zero_add _)
  · exact conflicts.trans (UInt64.zero_add _)

theorem refusals_leave_no_trace_of_stale_write :
    let job : Monitor := { metadata := { ns := "a", name := "x", uid := "u" } }
    let copy : Monitor := { job with metadata := { job.metadata with version := 1 } }
    let child : Pod := { metadata := { ns := "a", name := "pm-x" } }
    let ops : List Operation := [.apply job, .updateStatus copy, .createPod child, .createPod child,
      .updateStatus copy]
    let s := (empty 10).after ops
    (Operation.updateStatus copy).refusal? s = some (.conflict "PodMonitor" "a/x" 1 2) ∧
    (Operation.updateStatus copy).run s = { s with conflicts := s.conflicts + 1 } ∧
    (s.statusWrites, s.podsCreated, s.conflicts) = (1, 1, 1) := by
  intro job copy child ops s
  have h := refusals_leave_no_trace 10 ops
  have stale : (Operation.updateStatus copy).refusal? s =
      some (.conflict "PodMonitor" "a/x" 1 2) := by decide
  refine ⟨stale, h.2.1 _ _ stale, ?_⟩
  rw [h.2.2.2.1, h.2.2.2.2.1, h.2.2.2.2.2]
  decide

end MonitorOperator.Store
