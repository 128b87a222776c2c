import MonitorOperator.Deployment
import MonitorOperator.Proofs.Queue.Line
import MonitorOperator.Proofs.Store.Operation
import MonitorOperator.Proofs.Worker.Diligence

/-! What a call of a worker does to a deployment whose store answers as it is. -/

namespace MonitorOperator

namespace Deployment

def Plain (d : Deployment) : Prop := d.drill = { store := d.drill.store }

structure Reported (d e : Deployment) : Prop where
  drill : e.drill = d.drill ∨ ∃ event, e.drill = (d.drill.publish event).1
  operator : ∃ metrics recorder, e.operator =
    { d.operator with metrics := metrics, recorder := recorder }
  agenda : e.agenda = d.agenda

theorem Reported.queue {d e : Deployment} (h : Reported d e) :
    e.operator.queue = d.operator.queue := by
  obtain ⟨metrics, recorder, same⟩ := h.operator
  rw [same]

theorem record_reported (d : Deployment) (r : Recorder.Report) : Reported d (d.record r) := by
  simp only [record]
  split
  · exact ⟨.inl rfl, ⟨_, _, rfl⟩, rfl⟩
  · rename_i event _
    split
    · rename_i e published
      exact ⟨.inr ⟨event, (congrArg (fun x => x.1.drill) published).symm⟩,
        ⟨_, _, (congrArg (fun x => x.1.operator) published).symm⟩,
        (congrArg (fun x => x.1.agenda) published).symm⟩
    · rename_i e cause published
      exact ⟨.inr ⟨event, (congrArg (fun x => x.1.drill) published).symm⟩,
        ⟨_, _, (congrArg (fun x => x.1.operator) published).symm⟩,
        (congrArg (fun x => x.1.agenda) published).symm⟩

theorem report_reported (d : Deployment) (r : Pass.Report) : Reported d (d.report r) := by
  simp only [report]
  split
  · exact ⟨.inl rfl, ⟨_, _, rfl⟩, rfl⟩
  · have h := record_reported ((d.setMetrics (r.count d.operator.metrics)).log r.notice)
    obtain ⟨metrics, recorder, same⟩ := (h _).operator
    exact ⟨(h _).drill, ⟨metrics, recorder, same⟩, (h _).agenda⟩

theorem replyToPass_operator (c : Pass.Call) (d : Deployment) :
    ∃ metrics recorder, (replyToPass c d).1.operator =
      { d.operator with metrics := metrics, recorder := recorder } := by
  cases c with
  | report r => exact (d.report_reported r).operator
  | _ => exact ⟨_, _, rfl⟩

/-- What a call does to the store, under which no answer is planned to fail. -/
structure Replied (d e : Deployment) : Prop where
  plain : e.Plain
  store : ∃ written, Store.Effect d.drill.store e.drill.store written

theorem Replied.wrote {d e : Deployment} {t : Store} {written : Option Object}
    (drill : e.drill = { store := t }) (effect : Store.Effect d.drill.store t written) :
    Replied d e := by
  refine ⟨by rw [Plain, drill], written, ?_⟩
  rw [drill]
  exact effect

theorem Replied.same {d e : Deployment} (plain : d.Plain) (drill : e.drill = d.drill) :
    Replied d e := by
  refine ⟨?_, none, ?_⟩
  · rw [Plain, drill]; exact plain
  · rw [drill]; exact .still (.refl _)

theorem Replied.reported {d e : Deployment} (plain : d.Plain) (h : Reported d e) : Replied d e := by
  obtain same | ⟨event, eq⟩ := h.drill
  · exact .same plain same
  · rw [plain] at eq
    refine ⟨?_, none, ?_⟩
    · rw [Plain, eq]; rfl
    · rw [eq]; exact .still ⟨rfl, rfl, rfl, rfl⟩

theorem reply_getMonitor {d : Deployment} (plain : d.Plain) (key : Key) :
    (reply (.pass (.getMonitor key)) d).1.drill = d.drill ∧
    (reply (.pass (.getMonitor key)) d).2 = d.drill.store.getMonitor key := by
  change (d.drill.getMonitor key).1 = _ ∧ (d.drill.getMonitor key).2 = _
  rw [plain]
  simp only [Drill.getMonitor, Drill.intercept, List.find?_nil]
  cases d.drill.store.getMonitor key <;> exact ⟨rfl, rfl⟩

theorem reply_replied {d : Deployment} (plain : d.Plain) (keyed : d.drill.store.Keyed)
    (c : Worker.Call) : Replied d (reply c d).1 := by
  cases c with
  | pass c =>
    cases c with
    | getMonitor key => exact .same plain (reply_getMonitor plain key).1
    | updateStatus m =>
      refine .wrote ?_ (Store.updateStatus_effect keyed m)
      change (d.drill.updateStatus m).1 = _
      rw [plain]; rfl
    | getPod key =>
      refine .same plain ?_
      change (d.drill.getPod key).1 = d.drill
      rw [plain]; rfl
    | createPod p =>
      refine .wrote ?_ (d.drill.store.createPod_effect p)
      change (d.drill.createPod p).1 = _
      rw [plain]; rfl
    | cachedPod key => exact .same plain rfl
    | report r => exact .reported plain (d.report_reported r)
  | addAfter key delay =>
    refine .same plain ?_
    obtain ⟨_, eq⟩ | ⟨_, ⟨_, eq⟩ | ⟨_, eq⟩⟩ := d.operator.queue.addAfter_cases d.now key delay <;>
      simp only [reply, addAfter, eq] <;> rfl
  | addRateLimited key =>
    refine .same plain ?_
    obtain ⟨_, _, _, _, ⟨_, eq⟩ | ⟨_, eq⟩⟩ := d.operator.queue.addRateLimited_cases d.now key <;>
      simp only [reply, addRateLimited, eq] <;> rfl
  | _ => exact .same plain rfl

theorem setAlarm_queue (d : Deployment) (q : WorkQueue) (key : String) (alarm : Option Moment) :
    ((d.setQueue q).setAlarm key alarm).operator.queue = q := by cases alarm <;> rfl

theorem setAlarm_alarms (d : Deployment) (q : WorkQueue) (key : String) (alarm : Option Moment) :
    ((d.setQueue q).setAlarm key alarm).agenda.alarms =
      d.agenda.alarms ++ (alarm.map fun due => (due, Alarm.add key)).toList := by
  cases alarm with
  | none => exact (List.append_nil _).symm
  | some due => rfl

theorem reply_of_fails {c : Worker.Call} {d : Deployment} (fails : Deployment.fails c d = true) :
    ∃ backoff, (reply c d).1 = d.setQueue { d.operator.queue with backoff := backoff } := by
  cases c with
  | addAfter key delay =>
    refine ⟨d.operator.queue.backoff, ?_⟩
    simp only [reply, addAfter, d.operator.queue.addAfter_beyond key fails]
    rfl
  | addRateLimited key =>
    refine ⟨(d.operator.queue.backoff.fail key).1, ?_⟩
    simp only [reply, addRateLimited, d.operator.queue.addRateLimited_beyond fails]
    rfl
  | _ => contradiction

theorem reply_updateStatus {d : Deployment} (plain : d.Plain) (m : Monitor) :
    (reply (.pass (.updateStatus m)) d).1.drill.store = (d.drill.store.updateStatus m).1 ∧
    (reply (.pass (.updateStatus m)) d).2 = (d.drill.store.updateStatus m).2 := by
  change (d.drill.updateStatus m).1.store = _ ∧ (d.drill.updateStatus m).2 = _
  rw [plain]
  exact ⟨rfl, rfl⟩

theorem replyToPass_createPod {d : Deployment} (plain : d.Plain) (p : Pod) :
    d.drill.store.createPod p =
      ((replyToPass (.createPod p) d).1.drill.store, (replyToPass (.createPod p) d).2) := by
  change _ = ((d.drill.createPod p).1.store, (d.drill.createPod p).2)
  rw [plain]
  rfl

end Deployment

theorem Deployment.replyToPass_published {d : Deployment} (plain : d.Plain) {c : Pass.Call}
    (updates : ∀ m, c ≠ .updateStatus m) (creates : ∀ p, c ≠ .createPod p) :
    d.drill.store.Published (replyToPass c d).1.drill.store := by
  have same (h : (replyToPass c d).1.drill = d.drill) :
      d.drill.store.Published (replyToPass c d).1.drill.store := by
    rw [h]
    exact ⟨_, _, rfl⟩
  cases c with
  | getMonitor key => exact same (reply_getMonitor plain key).1
  | updateStatus m => exact (updates m rfl).elim
  | getPod key =>
    refine same ?_
    change (d.drill.getPod key).1 = d.drill
    rw [plain]; rfl
  | createPod p => exact (creates p rfl).elim
  | cachedPod key => exact same rfl
  | report r =>
    obtain kept | ⟨event, published⟩ := (d.report_reported r).drill
    · exact same kept
    · have drill : (replyToPass (.report r) d).1.drill = (d.drill.publish event).1 := published
      rw [drill, plain]
      exact ⟨_, _, rfl⟩

theorem Store.getMonitor_eq_ok {s : Store} {key : Key} {m : Monitor} :
    s.getMonitor key = .ok m ↔ s.unavailable = false ∧ s.monitors.get? key = some m := by
  unfold getMonitor
  cases s.unavailable <;> cases s.monitors.get? key <;> simp

theorem Store.absent_of_getMonitor {s : Store} {key : Key} {e : StoreError}
    (h : s.getMonitor key = .error e) (missing : e.isNotFound = true) :
    s.monitors.get? key = none := by
  unfold getMonitor at h
  split at h
  · cases h
    contradiction
  · split at h
    · assumption
    · contradiction

theorem Deployment.stored_of_told {d : Deployment} (plain : d.Plain) {key : Key} {m : Monitor}
    (told : (replyToPass (.getMonitor key) d).2 = .ok m) :
    d.drill.store.monitors.get? key = some m :=
  (Store.getMonitor_eq_ok.mp ((reply_getMonitor plain key).2.symm.trans told)).2

theorem Deployment.reply_faithful {d : Deployment} (plain : d.Plain) (keyed : d.drill.store.Keyed)
    (c : Worker.Call) : Worker.Faithful c (reply c d).2 := by
  cases c with
  | pass c =>
    cases c with
    | getMonitor key =>
      cases told : (reply (.pass (.getMonitor key)) d).2 with
      | ok m => exact keyed.monitors key m (stored_of_told plain told)
      | error e => trivial
    | _ => trivial
  | _ => trivial

end MonitorOperator
