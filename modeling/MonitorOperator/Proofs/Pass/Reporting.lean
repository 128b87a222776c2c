import MonitorOperator.Pass.Report
import MonitorOperator.Proofs.Pass.Lookups

/-! What a pass gets done and what it says of it. A status that the store accepts and a child that
it creates are each followed by one report, and nothing else is reported as done. Main statement:
`accounted_of_synced`. -/

namespace MonitorOperator.Pass

inductive Deed where
  | created (pod : Pod)
  | wrote (u : Monitor)
  | told (r : Report)

namespace Deed

def of? : Program.Exchange Reply → Option Deed
  | ⟨.createPod pod, .ok _⟩ => some (.created pod)
  | ⟨.updateStatus u, .ok _⟩ => some (.wrote u)
  | ⟨.report r, _⟩ => if r.event?.isSome then some (.told r) else none
  | _ => none

def isCreation : Deed → Bool
  | .created _ => true
  | _ => false

def isWrite : Deed → Bool
  | .wrote _ => true
  | _ => false

def edge? : Deed → Option Metrics.Edge
  | .told (.statusWritten before u _) => some ⟨before.phase.label, u.status.phase.label⟩
  | _ => none

def isTransition (deed : Deed) : Bool := deed.edge?.isSome

def isBirth : Deed → Bool
  | .told (.childCreated ..) => true
  | _ => false

def event? : Deed → Option Recorder.Report
  | .told r => r.event?
  | _ => none

end Deed

namespace Log

def deeds (log : Log) : List Deed := log.filterMap Deed.of?

theorem deeds_append (log more : Log) : (log ++ more).deeds = log.deeds ++ more.deeds :=
  List.filterMap_append

/-- The changes of phase that the store has accepted: from what was read to what was written. -/
def crossings (log : Log) : List Metrics.Edge :=
  log.readings.flatMap fun m => log.deeds.filterMap fun
    | .wrote u => some ⟨m.status.phase.label, u.status.phase.label⟩
    | _ => none

/-- The store has shown a pod under the name of the child that belongs to someone else. -/
def Foreign (log : Log) (m : Monitor) : Prop :=
  ∃ pod ∈ log.lookups (Child.key m), m.controls pod.metadata = false

end Log

/-- The call of the recorder for a status that was written. -/
structure Announces (u : Monitor) (conflict : Prop) (call : Recorder.Report) : Prop where
  monitor : call.monitor = u
  warning : call.type = .warning ↔ u.status.phase = .failed
  message : u.status.phase = .failed → call.message = u.status.reason
  reason : call.reason = EventReason.childNotOwned.text ↔ conflict

inductive Makes (t : Child.Template) (m : Monitor) : List Deed → Prop where
  | nothing : Makes t m []
  | child (pod : Pod) (call : Recorder.Report)
      (event : (Report.childCreated m pod).event? = some call)
      (reason : call.reason = EventReason.childCreated.text) :
      Makes t m [.created (Child.build m t), .told (.childCreated m pod)]

inductive Changes (m : Monitor) (conflict : Prop) (result : Except Error Action) :
    List Deed → Prop where
  | nothing : Changes m conflict result []
  | status (desired : MonitorStatus) (failure : EventReason) (action : Action)
      (ok : result = .ok action) (changed : m.status ≠ desired)
      (edge : Edge m.status.phase desired.phase) (call : Recorder.Report)
      (event : (Report.statusWritten m.status { m with status := desired } failure).event?
        = some call)
      (announces : Announces { m with status := desired } conflict call) :
      Changes m conflict result [.wrote { m with status := desired },
        .told (.statusWritten m.status { m with status := desired } failure)]

/-- Whatever a pass gets done it reports, and it reports nothing else: first the child, then the
status. -/
inductive Accounted (t : Child.Template) (log : Log) (result : Except Error Action) : Prop where
  | idle (unread : log.readings = []) (none : log.deeds = [])
  | settled (m : Monitor) (read : log.readings = [m]) (made changed : List Deed)
      (deeds : log.deeds = made ++ changed) (makes : Makes t m made)
      (changes : Changes m (log.Foreign m) result changed)

variable {d : Delays} {t : Child.Template} {m : Monitor} {log : Log}

theorem Looked.makes {r : Except Error Found} (looked : Looked t m log r) :
    Makes t m log.deeds := by
  cases looked with
  | created e missing pod => exact .child pod _ rfl rfl
  | _ => exact .nothing

theorem Moved.makes {r : Except Error Move} (moved : Moved d t m log r) : Makes t m log.deeds := by
  cases moved with
  | started phase target looked => exact looked.makes
  | watched phase looked => exact looked.makes
  | _ => exact .nothing

theorem Moved.failure {r : Except Error Move} {next : Move} (moved : Moved d t m log r)
    (h : r = .ok next) : next.failure = .monitoredPodMissing := by
  cases moved with
  | started phase target looked =>
    obtain ⟨found, -, rfl⟩ := map_eq_ok h
    rfl
  | watched phase looked =>
    obtain ⟨found, -, rfl⟩ := map_eq_ok h
    cases found with
    | created => rfl
    | existing pod => simp only [afterChild]; split <;> rfl
  | _ => cases h; rfl

theorem announces_transitionEvent (before : MonitorStatus) (u : Monitor) {failure : EventReason}
    {conflict : Prop} (named : u.status.phase = .failed ∧ failure = .childNotOwned ↔ conflict) :
    Announces u conflict (Report.transitionEvent before u failure) := by
  have reasons (reason : EventReason) :
      reason.text = EventReason.childNotOwned.text ↔ reason = .childNotOwned := by
    cases reason <;> decide
  cases phase : u.status.phase with
  | failed =>
    rw [Report.transitionEvent, phase]
    exact ⟨rfl, by simp [phase], fun _ => rfl, by simpa [reasons, phase] using named⟩
  | _ =>
    rw [Report.transitionEvent, phase]
    exact ⟨rfl, by simp [phase], by simp [phase], by simpa [reasons, phase] using named⟩

theorem Concluded.changes {next : Move} {r : Except Error Action}
    (concluded : Concluded m next log r) {conflict : Prop}
    (edge : m.status ≠ next.status → Edge m.status.phase next.status.phase)
    (named : next.status.phase = .failed ∧ next.failure = .childNotOwned ↔ conflict) :
    Changes m conflict r log.deeds := by
  cases concluded with
  | same still => exact .nothing
  | refused changes e => exact .nothing
  | written changes reply =>
    have changed := changed_iff.mp changes
    exact .status next.status next.failure next.action rfl changed (edge changed) _ rfl
      (announces_transitionEvent _ _ named)

variable {key : Key} {first rest : Log} {result : Except Error Action}

theorem accounted_concluded {next : Move} (unread : first.readings = [])
    (makes : Makes t m first.deeds) (row : Row d t m first next.status next.action)
    (conclusion : Concluded m next rest result)
    (named : next.status.phase = .failed ∧ next.failure = .childNotOwned ↔ first.Foreign m) :
    Accounted t (⟨.getMonitor key, .ok m⟩ :: (first ++ rest)) result := by
  refine .settled m ?_ first.deeds rest.deeds ?_ makes ?_
  · change m :: (first ++ rest).readings = [m]
    rw [Log.readings_append, unread, conclusion.aside.2]
    rfl
  · change (first ++ rest).deeds = _
    exact Log.deeds_append first rest
  · refine conclusion.changes row.edge (named.trans ?_)
    have lookups : Log.lookups (⟨.getMonitor key, .ok m⟩ :: (first ++ rest)) (Child.key m)
        = first.lookups (Child.key m) := by
      change (first ++ rest).lookups _ = _
      rw [Log.lookups_append, conclusion.no_lookup, List.append_nil]
    rw [Log.Foreign, Log.Foreign, lookups]

/-- Every pass accounts for what it does. -/
theorem accounted_of_synced {text : String} (synced : Synced d t text log result) :
    Accounted t log result := by
  cases synced with
  | malformed cause parsed => exact .idle rfl rfl
  | gone key parsed e missing => exact .idle rfl rfl
  | unread key parsed e other => exact .idle rfl rfl
  | moved key parsed m move conclusion =>
    refine accounted_concluded move.aside.2 move.makes (move.row rfl) conclusion ?_
    refine iff_of_false (fun conflict => ?_) fun ⟨pod, seen, other⟩ => ?_
    · rw [move.failure rfl] at conflict
      exact nomatch conflict.2
    · exact nomatch move.foreign seen other
  | @taken key _ m first rest pod owner _ move conclusion =>
    obtain ⟨-, barred⟩ := move.barred rfl
    cases barred with
    | foreign pod seen other =>
      rw [List.append_cons]
      have sub : first ⊆ first ++ [⟨.report (.childNameTaken key
          (.childNotOwned pod.key.text m.key.text)), ()⟩] := List.subset_append_left ..
      refine accounted_concluded ?_ ?_ (move.row_conflict.mono sub) conclusion ?_
      · rw [Log.readings_append, move.aside.2]
        rfl
      · rw [Log.deeds_append]
        change Makes t m (first.deeds ++ [])
        rw [List.append_nil]
        exact move.makes
      · exact iff_of_true ⟨rfl, rfl⟩ ⟨pod, Log.mem_lookups_of_seen (sub seen), other⟩
  | @failed key _ m first e move =>
    refine .settled m ?_ first.deeds [] ?_ move.makes .nothing
    · change m :: first.readings = [m]
      rw [move.aside.2]
    · exact (List.append_nil _).symm

def crossingNames : List Metrics.Edge :=
  [⟨"None", "Pending"⟩, ⟨"Pending", "Failed"⟩, ⟨"Pending", "Running"⟩, ⟨"Failed", "Running"⟩,
   ⟨"Failed", "Failed"⟩, ⟨"Running", "Completed"⟩, ⟨"Running", "Failed"⟩]

theorem Edge.named {a b : Phase} (edge : Edge a b) : ⟨a.label, b.label⟩ ∈ crossingNames := by
  cases edge <;> decide

theorem Makes.counts {deeds : List Deed} (makes : Makes t m deeds) :
    deeds.countP Deed.isBirth = deeds.countP Deed.isCreation ∧
    deeds.countP Deed.isWrite = 0 ∧ deeds.filterMap Deed.edge? = [] := by
  cases makes <;> exact ⟨rfl, rfl, rfl⟩

/-- No report is ahead of its deed. -/
structure Behind (deeds : List Deed) : Prop where
  births : deeds.countP Deed.isBirth ≤ deeds.countP Deed.isCreation
  transitions : deeds.countP Deed.isTransition ≤ deeds.countP Deed.isWrite

theorem Behind.nil : Behind [] := ⟨Nat.le_refl 0, Nat.le_refl 0⟩

theorem Behind.append {first second : List Deed} (h : Behind first) (h' : Behind second) :
    Behind (first ++ second) := by
  constructor
  · simpa using Nat.add_le_add h.births h'.births
  · simpa using Nat.add_le_add h.transitions h'.transitions

theorem behind_of_pair {x y : Deed} {early : List Deed} (some : early <+: [x, y])
    (first : Behind [x]) (both : Behind [x, y]) : Behind early := by
  simp only [List.prefix_cons_iff, List.prefix_nil] at some
  rcases some with rfl | ⟨_, rfl, rfl | ⟨_, rfl, rfl⟩⟩
  · exact .nil
  · exact first
  · exact both

theorem Makes.behind {deeds early : List Deed} (makes : Makes t m deeds)
    (some : early <+: deeds) : Behind early := by
  cases makes with
  | nothing => exact List.prefix_nil.mp some ▸ .nil
  | child pod call event reason =>
    exact behind_of_pair some ⟨Nat.zero_le 1, Nat.le_refl 0⟩ ⟨Nat.le_refl 1, Nat.le_refl 0⟩

theorem Changes.behind {conflict : Prop} {deeds early : List Deed}
    (changes : Changes m conflict result deeds) (some : early <+: deeds) : Behind early := by
  cases changes with
  | nothing => exact List.prefix_nil.mp some ▸ .nil
  | status desired failure action ok changed edge call event announces =>
    exact behind_of_pair some ⟨Nat.le_refl 0, Nat.zero_le 1⟩ ⟨Nat.le_refl 0, Nat.le_refl 1⟩

namespace Accounted

theorem counts (h : Accounted t log result) :
    log.deeds.countP Deed.isBirth = log.deeds.countP Deed.isCreation ∧
    log.deeds.filterMap Deed.edge? = log.crossings ∧
    log.crossings.length = log.deeds.countP Deed.isWrite := by
  cases h with
  | idle unread none => simp [none, Log.crossings, unread]
  | settled m read made changed deeds makes changes =>
    rw [Log.crossings, read, deeds]
    cases makes <;> cases changes <;> exact ⟨rfl, rfl, rfl⟩

theorem quiet (h : Accounted t log result)
    (still : (∃ cause, result = .error cause) ∨ log.deeds.countP Deed.isWrite = 0) :
    log.deeds.filterMap Deed.edge? = [] := by
  cases h with
  | idle unread none => simp [none]
  | settled m read made changed deeds makes changes =>
    rw [deeds] at still ⊢
    cases changes with
    | nothing => cases makes <;> rfl
    | status desired failure action ok =>
      rcases still with ⟨cause, failed⟩ | none
      · rw [ok] at failed
        cases failed
      · simp [Deed.isWrite] at none

/-- At every point of a pass its reports are behind its deeds. -/
theorem behind (h : Accounted t log result) {early : List Deed} (some : early <+: log.deeds) :
    Behind early := by
  cases h with
  | idle unread none =>
    rw [none] at some
    exact List.prefix_nil.mp some ▸ .nil
  | settled m read made changed deeds makes changes =>
    rw [deeds] at some
    have split := List.prefix_or_prefix_of_prefix some (List.prefix_append made changed)
    rcases split with first | ⟨l, rfl⟩
    · exact makes.behind first
    · have second := (List.prefix_append_right_inj made).mp some
      exact (makes.behind List.prefix_rfl).append (changes.behind second)

theorem named (h : Accounted t log result) {deed : Deed} (done : deed ∈ log.deeds)
    {e : Metrics.Edge} (crosses : deed.edge? = some e) : e ∈ crossingNames := by
  cases h with
  | idle unread none => simp [none] at done
  | settled m read made changed deeds makes changes =>
    rw [deeds, List.mem_append] at done
    rcases done with making | changing
    · have none := makes.counts.2.2
      rw [List.filterMap_eq_nil_iff] at none
      rw [none deed making] at crosses
      cases crosses
    · cases changes with
      | nothing => cases changing
      | status desired failure action ok changed edge =>
        simp only [List.mem_cons, List.not_mem_nil, or_false] at changing
        rcases changing with rfl | rfl
        · cases crosses
        · cases crosses
          exact edge.named

end Accounted

end MonitorOperator.Pass
