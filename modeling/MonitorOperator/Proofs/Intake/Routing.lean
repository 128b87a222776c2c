import MonitorOperator.Deployment
import MonitorOperator.Proofs.Cache.Replay
import MonitorOperator.Proofs.Queue.Due
import MonitorOperator.Proofs.Store.Feed

/-! Whom a change wakes. A pod concerns one monitor: the one that it names as its manager, and the
one of its own key only if it names none. Main statements: a change goes into the cache at its own
place and makes at most one call to the queue, and whoever manages a pod by its owner references is
the one that a change of the pod wakes. The monitor of the pod's own key is woken as well unless the
pod names another one. -/

namespace MonitorOperator

namespace Pod

/-- A pod belongs to a monitor: they share the namespace, and the first owner that manages the pod
is a monitor of that name, with the same uid or with none. -/
def BelongsTo (p : Pod) (m : Monitor) : Prop :=
  p.metadata.ns = m.metadata.ns ∧
    ∃ owner, p.metadata.owners.find? (·.controller) = some owner ∧ owner.kind = monitorKind ∧
      owner.name = m.metadata.name ∧ (owner.uid = "" ∨ owner.uid = m.metadata.uid)

/-- A pod names a monitor as its manager, whether there is such a monitor or not. -/
def Names (p : Pod) (key : Key) : Prop :=
  ∃ owner, p.metadata.controller? = some owner ∧ owner.kind = monitorKind ∧
    key = ⟨p.metadata.ns, owner.name⟩

/-- The monitor that changes of a pod concern. -/
def concern (p : Pod) : Key :=
  match p.metadata.controller?.filter (·.kind == monitorKind) with
  | some owner => ⟨p.metadata.ns, owner.name⟩
  | none => p.key

variable {p : Pod} {m : Monitor} {key : Key}

theorem BelongsTo.names (h : p.BelongsTo m) : p.Names m.key := by
  obtain ⟨ns, owner, found, kind, name, _⟩ := h
  exact ⟨owner, found, kind, by rw [ns, name]; rfl⟩

theorem concern_of_names (h : p.Names key) : p.concern = key := by
  obtain ⟨owner, found, kind, rfl⟩ := h
  simp [concern, found, kind, Option.filter]

theorem concern_of_target (free : ∀ key, p.Names key → key = p.key) : p.concern = p.key := by
  unfold concern
  split
  · rename_i owner managed
    obtain ⟨found, kind⟩ := Option.filter_eq_some_iff.mp managed
    exact free _ ⟨owner, found, by simpa using kind, rfl⟩
  · rfl

@[simp] theorem concern_ns (p : Pod) : p.concern.ns = p.metadata.ns := by
  unfold concern
  split <;> rfl

end Pod

theorem Monitor.controls_iff {m : Monitor} {p : Pod} :
    m.controls p.metadata = true ↔ p.BelongsTo m := by
  unfold Monitor.controls Pod.BelongsTo Metadata.controller?
  cases p.metadata.owners.find? (·.controller) with
  | none => simp
  | some owner => simp [and_assoc]

/-- The three kinds of change as far as routing goes: a monitor that is there anew or was written,
one that is gone, and whatever happens to a pod. -/
theorem Change.kinds (change : Change) :
    (∃ m, change = .added (.monitor m) ∨ change = .modified (.monitor m)) ∨
      (∃ m, change = .deleted (.monitor m)) ∨ ∃ p, change.object = .pod p := by
  cases event : change.object with
  | pod p => exact .inr (.inr ⟨p, rfl⟩)
  | monitor m =>
    cases change with
    | added o => exact .inl ⟨m, .inl (congrArg added event)⟩
    | modified o => exact .inl ⟨m, .inr (congrArg modified event)⟩
    | deleted o => exact .inr (.inl ⟨m, congrArg deleted event⟩)

theorem Cache.monitors_absorb {change : Change} {p : Pod} (event : change.object = .pod p)
    (c : Cache) : (c.absorb change).monitors = c.monitors := by
  cases change <;> cases event <;> rfl

namespace Wake

variable {c : Cache} {p : Pod} {change : Change}

theorem ofPod_cases (c : Cache) (p : Pod) :
    c.monitors.contains p.concern = true ∧ ofPod c p = .monitor p.concern ∨
    c.monitors.contains p.concern = false ∧
      (ofPod c p = .orphan p.key p.concern ∨ ofPod c p = .nobody) := by
  cases managed : p.metadata.controller?.filter (·.kind == monitorKind) with
  | some owner =>
    have concern : p.concern = ⟨p.metadata.ns, owner.name⟩ := by simp only [Pod.concern, managed]
    rw [concern]
    cases there : c.monitors.contains ⟨p.metadata.ns, owner.name⟩ <;>
      simp [ofPod, managed, there]
  | none =>
    have concern : p.concern = p.key := by simp only [Pod.concern, managed]
    rw [concern]
    cases there : c.monitors.contains p.key <;> simp [ofPod, managed, there]

theorem run_ofPod (c : Cache) (p : Pod) (q : WorkQueue) :
    (ofPod c p).run q = if c.monitors.contains p.concern then q.add p.concern.text else q := by
  obtain ⟨there, wake⟩ | ⟨absent, wake | wake⟩ := ofPod_cases c p
  · rw [wake, there]; rfl
  · rw [wake, absent]; rfl
  · rw [wake, absent]; rfl

theorem ofChange_pod (event : change.object = .pod p) (c : Cache) :
    ofChange c change = ofPod c p := by
  cases change <;> cases event <;> rfl

theorem forget_ne_ofPod (key : Key) (c : Cache) (p : Pod) : .forget key ≠ ofPod c p := by
  obtain ⟨_, wake⟩ | ⟨_, wake | wake⟩ := ofPod_cases c p <;> rw [wake] <;> simp

theorem woken_of_ofChange {key : Key} (wakes : ofChange c change = .monitor key) :
    change.Wakes key ∨ c.monitors.contains key = true := by
  obtain ⟨m, rfl | rfl⟩ | ⟨m, rfl⟩ | ⟨p, event⟩ := change.kinds
  · exact .inl (monitor.inj wakes)
  · exact .inl (monitor.inj wakes)
  · contradiction
  · rw [ofChange_pod event] at wakes
    obtain ⟨there, wake⟩ | ⟨_, wake | wake⟩ := ofPod_cases c p
    · rw [wake] at wakes
      cases wakes
      exact .inr there
    · rw [wake] at wakes; contradiction
    · rw [wake] at wakes; contradiction

end Wake

namespace Intake

theorem queue_handle {change : Change} {p : Pod} (event : change.object = .pod p) (i : Intake) :
    (i.handle change).queue =
      if i.cache.monitors.contains p.concern then i.queue.add p.concern.text else i.queue := by
  rw [← Cache.monitors_absorb event, ← Wake.run_ofPod, ← Wake.ofChange_pod event]
  rfl

end Intake

namespace Deployment

/-- A change goes into the cache at its own place, and nothing else of a deployment changes but the
queue and the log. A monitor that is new or was written is added to the queue, and one that is gone
has its failures forgotten. A pod is good for one key of its namespace, which is added if the cache
has a monitor there: it is the key of the monitor that manages the pod, and a pod that names a
monitor as its manager wakes no other one. -/
theorem changes_handled_exactly (d : Deployment) (change : Change) :
    let e := d.handle change
    let c := e.operator.cache
    let q := d.operator.queue
    (∀ place, c.at? place =
      if place = change.place then change.leaves else d.operator.cache.at? place) ∧
    c.synced = d.operator.cache.synced ∧
    e = { (d.setCache c).setQueue e.operator.queue with journal := e.journal } ∧
    (∀ m, change = .added (.monitor m) ∨ change = .modified (.monitor m) →
      e.operator.queue = q.add m.key.text) ∧
    (∀ m, change = .deleted (.monitor m) →
      e.operator.queue = q.forget m.key.text ∧ e.operator.queue.attempts m.key.text = 0) ∧
    ∀ p, change.object = .pod p → ∃ key : Key, key.ns = p.metadata.ns ∧
      e.operator.queue = (if c.monitors.contains key then q.add key.text else q) ∧
      (∀ m, c.monitors.get? m.key = some m → m.controls p.metadata = true → key = m.key) ∧
      (∀ named, p.Names named → key = named) ∧
      ((∀ named, p.Names named → named = p.key) → key = p.key) := by
  intro e c q
  refine ⟨d.operator.cache.at?_absorb change, d.operator.cache.synced_absorb change, rfl,
    ?_, ?_, ?_⟩
  · rintro m (rfl | rfl)
    · rfl
    · rfl
  · rintro m rfl
    refine ⟨rfl, ?_⟩
    exact (q.backoff.attempts_forget m.key.text m.key.text).trans (if_pos rfl)
  · intro p event
    refine ⟨p.concern, p.concern_ns, ?_, ?_, fun named names => Pod.concern_of_names names,
      Pod.concern_of_target⟩
    · have queue := Intake.queue_handle event ⟨d.operator.cache, q, []⟩
      rw [← Cache.monitors_absorb event] at queue
      exact queue
    · intro m _ controls
      exact Pod.concern_of_names (Monitor.controls_iff.mp controls).names

/-- The monitor that manages a pod is woken by every change of the pod, and so is the monitor of
the pod's own key, unless the pod names another monitor as its manager. Then the change wakes that
one, if the cache has it, and nobody else. -/
theorem concerned_monitors_woken (d : Deployment) (taking : d.operator.queue.shuttingDown = false)
    (change : Change) (p : Pod) (event : change.object = .pod p) :
    let e := d.handle change
    (∀ m, d.operator.cache.monitors.get? m.key = some m →
      m.controls p.metadata = true ∨ m.key = p.key ∧ (∀ named, p.Names named → named = m.key) →
        e.operator.queue = d.operator.queue.add m.key.text ∧
          e.operator.queue.dirty.contains m.key.text = true) ∧
    ∀ named, p.Names named → e.operator.queue =
      if d.operator.cache.monitors.contains named then d.operator.queue.add named.text
      else d.operator.queue := by
  intro e
  have queue : e.operator.queue = if d.operator.cache.monitors.contains p.concern
      then d.operator.queue.add p.concern.text else d.operator.queue :=
    Intake.queue_handle event ⟨d.operator.cache, d.operator.queue, []⟩
  constructor
  · intro m cached concerned
    have concern : p.concern = m.key := by
      rcases concerned with controls | ⟨target, free⟩
      · exact Pod.concern_of_names (Monitor.controls_iff.mp controls).names
      · rw [target] at free ⊢
        exact Pod.concern_of_target free
    have there : d.operator.cache.monitors.contains m.key = true := by
      rw [Table.contains, cached]; rfl
    have woken : e.operator.queue = d.operator.queue.add m.key.text := by
      rw [queue, concern, if_pos there]
    refine ⟨woken, ?_⟩
    rw [woken, WorkQueue.dirty_add taking]
    simp
  · intro named names
    rw [queue, Pod.concern_of_names names]

/-- The child of one monitor is also what another one watches, and only the first is woken. -/
theorem concerned_monitors_woken_by_child :
    let owner : Monitor := { metadata := { ns := "a", name := "x", uid := "1" } }
    let watcher : Monitor := { metadata := { ns := "a", name := "pm-x", uid := "2" } }
    let child := Child.build owner {}
    let d : Deployment :=
      { operator := .ofParts ({ cache :=
          { monitors := Table.ofList [(owner.key, owner), (watcher.key, watcher)] } } :
            Operator.Parts Unit Unit)
        stamp := ⟨"0", ""⟩ }
    d.operator.queue.shuttingDown = false ∧
      d.operator.cache.monitors.get? owner.key = some owner ∧
      owner.controls child.metadata = true ∧
      (d.handle (.deleted (.pod child))).operator.queue.dirty.contains owner.key.text = true ∧
      (d.handle (.deleted (.pod child))).operator.queue.dirty.contains watcher.key.text = false := by
  intro owner watcher child d
  have woken := (concerned_monitors_woken d rfl (.deleted (.pod child)) child rfl).1 owner
    (by decide) (.inl (by decide))
  exact ⟨rfl, by decide, by decide, woken.2, by decide⟩

/-- A monitor that watches the child of another monitor is not woken by a change of its target. -/
theorem target_of_other_child_sleeps :
    let owner : Monitor := { metadata := { ns := "a", name := "x", uid := "1" } }
    let watcher : Monitor := { metadata := { ns := "a", name := "pm-x", uid := "2" } }
    let child := Child.build owner {}
    let d : Deployment :=
      { operator := .ofParts ({ cache :=
          { monitors := Table.ofList [(owner.key, owner), (watcher.key, watcher)] } } :
            Operator.Parts Unit Unit)
        stamp := ⟨"0", ""⟩ }
    ¬ ∀ m, d.operator.cache.monitors.get? m.key = some m →
      m.controls child.metadata = true ∨ m.key = child.key →
        (d.handle (.modified (.pod child))).operator.queue.dirty.contains m.key.text = true := by
  intro owner watcher child d woken
  have waits := woken watcher (by decide) (.inr (by decide))
  exact absurd waits (by decide)

end Deployment

end MonitorOperator
