import MonitorOperator.Proofs.Pass.Account

/-! A pass and its transition table. Main statement: whatever the cache holds and whatever a store
answers, a pass writes what a row of the table says and nothing else, creates a child only where
none was found, and ends with the action for the phase that it leaves. -/

namespace MonitorOperator.Pass

namespace Log

def writes (log : Log) : List Monitor :=
  log.filterMap fun
    | ⟨.updateStatus m, _⟩ => some m
    | _ => none

def creations (log : Log) : List Pod :=
  log.filterMap fun
    | ⟨.createPod p, _⟩ => some p
    | _ => none

def readings (log : Log) : List Monitor :=
  log.filterMap fun
    | ⟨.getMonitor _, .ok m⟩ => some m
    | _ => none

def left (log : Log) (m : Monitor) : Monitor := log.writes.head?.getD m

theorem writes_append (log more : Log) : (log ++ more).writes = log.writes ++ more.writes :=
  List.filterMap_append

theorem creations_append (log more : Log) :
    (log ++ more).creations = log.creations ++ more.creations := List.filterMap_append

theorem writes_cons (x : Program.Exchange Reply) (log : Log) :
    writes (x :: log) = writes [x] ++ log.writes := writes_append [x] log

theorem creations_cons (x : Program.Exchange Reply) (log : Log) :
    creations (x :: log) = creations [x] ++ log.creations := creations_append [x] log

theorem readings_append (log more : Log) : (log ++ more).readings = log.readings ++ more.readings :=
  List.filterMap_append

theorem mem_readings_snoc {log : Log} {c : Call} {reply : Reply c} {m : Monitor}
    (read : m ∈ readings (log ++ [⟨c, reply⟩])) :
    m ∈ log.readings ∨
      ∃ key, (⟨c, reply⟩ : Program.Exchange Reply) = ⟨.getMonitor key, .ok m⟩ := by
  rw [readings_append, List.mem_append] at read
  refine read.imp_right fun last => ?_
  cases c with
  | getMonitor key =>
    cases reply with
    | ok other =>
      cases List.mem_singleton.mp last
      exact ⟨key, rfl⟩
    | error e => contradiction
  | _ => contradiction

end Log

/-- The edges of the phase machine. A failed monitor fails again only for another reason. -/
inductive Edge : Phase → Phase → Prop where
  | unset_pending : Edge .unset .pending
  | pending_failed : Edge .pending .failed
  | pending_running : Edge .pending .running
  | failed_running : Edge .failed .running
  | failed_failed : Edge .failed .failed
  | running_completed : Edge .running .completed
  | running_failed : Edge .running .failed

/-- What the queue has to do for a monitor that a pass leaves in a phase. No pass leaves one in the
first. -/
def Delays.after? (d : Delays) : Phase → Option Action
  | .unset => none
  | .pending => some .awaitChange
  | .running => some (.requeue d.resync)
  | .completed => some .awaitChange
  | .failed => some (.requeue d.failed)
  | .unrecognized _ => some (.requeue d.unrecognized)

/-- The store made the child, or has one that belongs to the monitor. -/
inductive HasChild (t : Child.Template) (m : Monitor) (log : Log) : Prop where
  | created (pod : Pod) (made : ⟨.createPod (Child.build m t), .ok pod⟩ ∈ log)
  | owned (pod : Pod) (seen : ⟨.getPod (Child.key m), .ok pod⟩ ∈ log)
      (ours : m.controls pod.metadata = true)

/-- The rows of the table: the phase of the monitor that was read, what the log shows of its pods,
the status it is left in and what the queue has to do. -/
inductive Row (d : Delays) (t : Child.Template) (m : Monitor) (log : Log) :
    MonitorStatus → Action → Prop where
  | begun (phase : m.status.phase = .unset) : Row d t m log (.plain .pending) .awaitChange
  | missing (phase : m.status.phase = .pending ∨ m.status.phase = .failed)
      (cached : ⟨.cachedPod m.key, none⟩ ∈ log) :
      Row d t m log (.failure ("monitored pod " ++ m.key.text ++ " not found")) (.requeue d.failed)
  | started (phase : m.status.phase = .pending ∨ m.status.phase = .failed) (target : Pod)
      (cached : ⟨.cachedPod m.key, some target⟩ ∈ log) (child : HasChild t m log) :
      Row d t m log (.plain .running) (.requeue d.resync)
  | taken (phase : m.status.phase = .pending ∨ m.status.phase = .failed ∨ m.status.phase = .running)
      (pod : Pod) (seen : ⟨.getPod (Child.key m), .ok pod⟩ ∈ log)
      (other : m.controls pod.metadata = false) :
      Row d t m log (.failure (Error.childNotOwned pod.key.text m.key.text).message)
        (.requeue d.failed)
  | created (phase : m.status.phase = .running) (pod : Pod)
      (made : ⟨.createPod (Child.build m t), .ok pod⟩ ∈ log) :
      Row d t m log m.status (.requeue d.resync)
  | working (phase : m.status.phase = .running) (pod : Pod)
      (seen : ⟨.getPod (Child.key m), .ok pod⟩ ∈ log) (ours : m.controls pod.metadata = true)
      (going : pod.status.phase.isTerminal = false) : Row d t m log m.status (.requeue d.resync)
  | finished (phase : m.status.phase = .running) (pod : Pod)
      (seen : ⟨.getPod (Child.key m), .ok pod⟩ ∈ log) (ours : m.controls pod.metadata = true)
      (ended : pod.status.phase.isTerminal = true) :
      Row d t m log (.plain .completed) .awaitChange
  | rested (phase : m.status.phase = .completed) : Row d t m log m.status .awaitChange
  | unknown (raw : String) (phase : m.status.phase = .unrecognized raw) :
      Row d t m log m.status (.requeue d.unrecognized)

variable {d : Delays} {t : Child.Template} {m : Monitor} {log more : Log} {status : MonitorStatus}
  {action : Action}

theorem HasChild.mono (h : HasChild t m log) (sub : log ⊆ more) : HasChild t m more := by
  cases h with
  | created pod made => exact .created pod (sub made)
  | owned pod seen ours => exact .owned pod (sub seen) ours

theorem Row.mono (h : Row d t m log status action) (sub : log ⊆ more) :
    Row d t m more status action := by
  cases h with
  | begun phase => exact .begun phase
  | missing phase cached => exact .missing phase (sub cached)
  | started phase target cached child => exact .started phase target (sub cached) (child.mono sub)
  | taken phase pod seen other => exact .taken phase pod (sub seen) other
  | created phase pod made => exact .created phase pod (sub made)
  | working phase pod seen ours going => exact .working phase pod (sub seen) ours going
  | finished phase pod seen ours ended => exact .finished phase pod (sub seen) ours ended
  | rested phase => exact .rested phase
  | unknown raw phase => exact .unknown raw phase

theorem Row.after (h : Row d t m log status action) : d.after? status.phase = some action := by
  cases h with
  | created phase => simp only [phase, Delays.after?]
  | working phase => simp only [phase, Delays.after?]
  | rested phase => simp only [phase, Delays.after?]
  | unknown raw phase => simp only [phase, Delays.after?]
  | _ => rfl

theorem changed_iff {observed desired : MonitorStatus} :
    observed.changed desired = true ↔ observed ≠ desired := by
  cases observed
  cases desired
  simp only [MonitorStatus.changed, Bool.or_eq_true, decide_eq_true_iff, ne_eq,
    MonitorStatus.mk.injEq]
  exact Classical.not_and_iff_not_or_not.symm

theorem unchanged_iff {observed desired : MonitorStatus} :
    observed.changed desired = false ↔ observed = desired := by
  rw [← Bool.not_eq_true, changed_iff]
  exact Decidable.not_not

theorem Row.edge (h : Row d t m log status action) (changes : m.status ≠ status) :
    Edge m.status.phase status.phase := by
  cases h with
  | begun phase => rw [phase]; exact .unset_pending
  | missing phase cached =>
    rcases phase with phase | phase <;> rw [phase]
    · exact .pending_failed
    · exact .failed_failed
  | started phase target cached child =>
    rcases phase with phase | phase <;> rw [phase]
    · exact .pending_running
    · exact .failed_running
  | taken phase pod seen other =>
    rcases phase with phase | phase | phase <;> rw [phase]
    · exact .pending_failed
    · exact .failed_failed
    · exact .running_failed
  | finished phase pod seen ours ended => rw [phase]; exact .running_completed
  | _ => exact (changes rfl).elim

theorem Row.found (h : Row d t m log status action) (running : status.phase = .running)
    (before : m.status.phase ≠ .running) : ∃ target, ⟨.cachedPod m.key, some target⟩ ∈ log := by
  cases h with
  | started phase target cached child => exact ⟨target, cached⟩
  | begun phase => cases running
  | missing phase cached => cases running
  | taken phase pod seen other => cases running
  | finished phase pod seen ours ended => cases running
  | created phase pod made => exact (before running).elim
  | working phase pod seen ours going => exact (before running).elim
  | rested phase => exact (before running).elim
  | unknown raw phase => exact (before running).elim

theorem reason_iff_failure {reason : String} (h : reason ≠ "") :
    (MonitorStatus.failure reason).reason ≠ "" ↔ (MonitorStatus.failure reason).phase = .failed :=
  ⟨fun _ => rfl, fun _ => h⟩

theorem reason_iff_plain {phase : Phase} (h : phase ≠ .failed) :
    (MonitorStatus.plain phase).reason ≠ "" ↔ (MonitorStatus.plain phase).phase = .failed :=
  ⟨fun reason => (reason rfl).elim, fun failed => (h failed).elim⟩

theorem conflict_ne_empty (pod owner : String) : (Error.childNotOwned pod owner).message ≠ "" := by
  change "pod " ++ pod ++ " exists but is not controlled by PodMonitor " ++ owner ≠ ""
  simp [String.append_eq_empty_iff]

theorem Row.reason (h : Row d t m log status action) (changes : m.status ≠ status) :
    status.reason ≠ "" ↔ status.phase = .failed := by
  cases h with
  | begun phase => exact reason_iff_plain nofun
  | missing phase cached => exact reason_iff_failure (by simp [String.append_eq_empty_iff])
  | started phase target cached child => exact reason_iff_plain nofun
  | taken phase pod seen other => exact reason_iff_failure (conflict_ne_empty _ _)
  | finished phase pod seen ours ended => exact reason_iff_plain nofun
  | _ => exact (changes rfl).elim

theorem found_of_owned {pod : Pod} {found : Found} (h : owned m pod = .ok found) :
    found = .existing pod ∧ m.controls pod.metadata = true := by
  unfold owned at h
  split at h
  · rename_i ours
    cases h
    exact ⟨rfl, ours⟩
  · contradiction

theorem Looked.found {r : Except Error Found} {found : Found} (looked : Looked t m log r)
    (h : r = .ok found) :
    (∃ pod, found = .created ∧ ⟨.createPod (Child.build m t), .ok pod⟩ ∈ log) ∨
      ∃ pod, found = .existing pod ∧ ⟨.getPod (Child.key m), .ok pod⟩ ∈ log ∧
        m.controls pod.metadata = true := by
  cases looked with
  | there pod =>
    obtain ⟨same, ours⟩ := found_of_owned h
    exact .inr ⟨pod, same, by simp, ours⟩
  | second e missing late exist pod =>
    obtain ⟨same, ours⟩ := found_of_owned h
    exact .inr ⟨pod, same, by simp, ours⟩
  | created e missing pod =>
    cases h
    exact .inl ⟨pod, rfl, by simp⟩
  | _ => contradiction

theorem map_eq_ok {α β : Type} {r : Except Error α} {f : α → β} {b : β} (h : r.map f = .ok b) :
    ∃ a, r = .ok a ∧ b = f a := by
  cases r with
  | ok a => exact ⟨a, rfl, (Except.ok.inj h).symm⟩
  | error e => contradiction

theorem Moved.row {r : Except Error Move} {next : Move} (moved : Moved d t m log r)
    (h : r = .ok next) : Row d t m log next.status next.action := by
  cases moved with
  | begun phase => cases h; exact .begun phase
  | missing phase => cases h; exact .missing phase (by simp)
  | @started phase target rest r looked =>
    obtain ⟨found, ok, rfl⟩ := map_eq_ok h
    have sub : rest ⊆ ⟨.cachedPod m.key, some target⟩ :: rest := List.subset_cons_self ..
    have child : HasChild t m rest := by
      rcases looked.found ok with ⟨pod, _, made⟩ | ⟨pod, _, seen, ours⟩
      · exact .created pod made
      · exact .owned pod seen ours
    exact .started phase target (by simp) (child.mono sub)
  | watched phase looked =>
    obtain ⟨found, ok, rfl⟩ := map_eq_ok h
    rcases looked.found ok with ⟨pod, rfl, made⟩ | ⟨pod, rfl, seen, ours⟩
    · exact .created phase pod made
    · cases ended : pod.status.phase.isTerminal with
      | true => simpa [afterChild, ended] using Row.finished phase pod seen ours ended
      | false => simpa [afterChild, ended] using Row.working phase pod seen ours ended
  | rested phase => cases h; exact .rested phase
  | unknown raw phase => cases h; exact .unknown raw phase

theorem Moved.row_conflict {pod owner : String}
    (moved : Moved d t m log (.error (.childNotOwned pod owner))) :
    Row d t m log (conflict d pod owner).status (conflict d pod owner).action := by
  obtain ⟨phase, barred⟩ := moved.barred rfl
  cases barred with
  | foreign pod seen other => exact .taken phase pod seen other

theorem Looked.aside {r : Except Error Found} (looked : Looked t m log r) :
    log.writes = [] ∧ log.readings = [] := by
  cases looked <;> exact ⟨rfl, rfl⟩

theorem Moved.aside {r : Except Error Move} (moved : Moved d t m log r) :
    log.writes = [] ∧ log.readings = [] := by
  cases moved with
  | started phase target looked => exact looked.aside
  | watched phase looked => exact looked.aside
  | _ => exact ⟨rfl, rfl⟩

/-- Each creation in a log comes right after the answer that there is no such pod. -/
def Log.CreatesMissing (log : Log) : Prop :=
  ∀ pod reply, ⟨.createPod pod, reply⟩ ∈ log → ∃ before e after,
    log = before ++ ⟨.getPod pod.key, .error e⟩ :: ⟨.createPod pod, reply⟩ :: after ∧
      e.isNotFound = true

theorem Log.CreatesMissing.surround {log : Log} (h : log.CreatesMissing) (before after : Log)
    (front : before.creations = []) (back : after.creations = []) :
    (before ++ log ++ after).CreatesMissing := by
  have none : ∀ {l : Log} {pod : Pod} {reply}, l.creations = [] → ⟨.createPod pod, reply⟩ ∉ l := by
    intro l pod reply empty member
    have created : pod ∈ l.creations := List.mem_filterMap.mpr ⟨_, member, rfl⟩
    rw [empty] at created
    contradiction
  intro pod reply member
  simp only [List.mem_append] at member
  rcases member with (early | inside) | late
  · exact (none front early).elim
  · obtain ⟨first, e, last, rfl, missing⟩ := h pod reply inside
    exact ⟨before ++ first, e, last ++ after, by simp, missing⟩
  · exact (none back late).elim

theorem Looked.creates {r : Except Error Found} (looked : Looked t m log r) :
    log.creations.length ≤ 1 ∧ log.CreatesMissing := by
  have after : ∀ (e : StoreError) (reply : Except StoreError Pod) (rest : Log),
      e.isNotFound = true → rest.creations = [] →
      Log.CreatesMissing (⟨.getPod (Child.key m), .error e⟩ ::
        ⟨.createPod (Child.build m t), reply⟩ :: rest) := by
    intro e reply rest missing none
    have one : Log.CreatesMissing [⟨.getPod (Child.key m), .error e⟩,
        ⟨.createPod (Child.build m t), reply⟩] := by
      intro pod answer member
      simp only [List.mem_cons, Sigma.mk.injEq, reduceCtorEq, false_and, List.not_mem_nil,
        or_false, false_or, Call.createPod.injEq] at member
      obtain ⟨rfl, same⟩ := member
      cases same
      exact ⟨[], e, [], rfl, missing⟩
    exact one.surround [] rest rfl none
  cases looked with
  | there pod => exact ⟨Nat.zero_le 1, fun pod reply member => by simp at member⟩
  | unread e other => exact ⟨Nat.zero_le 1, fun pod reply member => by simp at member⟩
  | created e missing pod => exact ⟨Nat.le_refl 1, after e _ _ missing rfl⟩
  | refused e missing cause other => exact ⟨Nat.le_refl 1, after e _ _ missing rfl⟩
  | second e missing late exist pod => exact ⟨Nat.le_refl 1, after e _ _ missing rfl⟩
  | lost e missing late exist cause => exact ⟨Nat.le_refl 1, after e _ _ missing rfl⟩

theorem Moved.creates {r : Except Error Move} (moved : Moved d t m log r) :
    log.creations.length ≤ 1 ∧ log.CreatesMissing := by
  have none : ∀ {l : Log}, (∀ pod reply, ⟨.createPod pod, reply⟩ ∉ l) → l.CreatesMissing :=
    fun absent pod reply member => (absent pod reply member).elim
  cases moved with
  | @started phase target rest r looked =>
    obtain ⟨few, missing⟩ := looked.creates
    have all := missing.surround [⟨.cachedPod m.key, some target⟩] [] rfl rfl
    rw [List.append_nil] at all
    exact ⟨few, all⟩
  | watched phase looked => exact looked.creates
  | _ => exact ⟨Nat.zero_le 1, none (by simp)⟩

def Phase.Rests : Phase → Prop
  | .completed => True
  | .unrecognized _ => True
  | _ => False

theorem Moved.rests {r : Except Error Move} (moved : Moved d t m log r)
    (resting : Phase.Rests m.status.phase) :
    log.creations = [] ∧ ∃ next, r = .ok next ∧ next.status = m.status := by
  cases moved with
  | begun phase => rw [phase] at resting; exact resting.elim
  | missing phase =>
    rcases phase with phase | phase <;> rw [phase] at resting <;> exact resting.elim
  | started phase target looked =>
    rcases phase with phase | phase <;> rw [phase] at resting <;> exact resting.elim
  | watched phase looked => rw [phase] at resting; exact resting.elim
  | rested phase => exact ⟨rfl, _, rfl, rfl⟩
  | unknown raw phase => exact ⟨rfl, _, rfl, rfl⟩

theorem Concluded.writes {next : Move} {r : Except Error Action}
    (concluded : Concluded m next log r) :
    m.status = next.status ∧ log.writes = [] ∨
      m.status ≠ next.status ∧ log.writes = [{ m with status := next.status }] := by
  cases concluded with
  | same still => exact .inl ⟨unchanged_iff.mp still, rfl⟩
  | refused changes e => exact .inr ⟨changed_iff.mp changes, rfl⟩
  | written changes reply => exact .inr ⟨changed_iff.mp changes, rfl⟩

theorem Concluded.aside {next : Move} {r : Except Error Action}
    (concluded : Concluded m next log r) : log.creations = [] ∧ log.readings = [] := by
  cases concluded <;> exact ⟨rfl, rfl⟩

theorem Concluded.ends {next : Move} {r : Except Error Action} {action : Action}
    (concluded : Concluded m next log r) (h : r = .ok action) :
    action = next.action ∧
      ∀ u reply, ⟨.updateStatus u, reply⟩ ∈ log → ∃ written, reply = .ok written := by
  cases concluded with
  | same still =>
    cases h
    exact ⟨rfl, fun u reply member => by simp at member⟩
  | refused changes e => contradiction
  | written changes reply =>
    cases h
    refine ⟨rfl, fun u answer member => ?_⟩
    simp only [List.mem_cons, Sigma.mk.injEq, Call.updateStatus.injEq, reduceCtorEq, false_and,
      List.not_mem_nil, or_false] at member
    obtain ⟨rfl, same⟩ := member
    exact ⟨reply, eq_of_heq same⟩

/-- What a pass does by the table, whatever it is told. It writes at most once and creates at most
once, the latter right after the answer that the child is not there. What it writes is the monitor
that it read with another status, by a row of the table and along an edge, with a reason exactly for
a failure. It leaves a monitor alone that is completed or in a phase of another schema. If it ends
well, the monitor was not found, or it is left by a row of the table in a phase that determines what
the queue has to do. -/
structure FollowsTable (d : Delays) (t : Child.Template) (log : Log)
    (result : Except Error Action) : Prop where
  one_write : log.writes.length ≤ 1
  one_creation : log.creations.length ≤ 1
  creates_missing : log.CreatesMissing
  written : ∀ u ∈ log.writes, ∃ m action, log.readings = [m] ∧ u = { m with status := u.status } ∧
    Row d t m log u.status action ∧ Edge m.status.phase u.status.phase ∧
    (m.status.phase = u.status.phase → m.status.reason ≠ u.status.reason) ∧
    (u.status.reason ≠ "" ↔ u.status.phase = .failed)
  rests : ∀ m ∈ log.readings, Phase.Rests m.status.phase → log.writes = [] ∧ log.creations = []
  ends : ∀ action, result = .ok action →
    (∃ key e, log = [⟨.getMonitor key, .error e⟩] ∧ e.isNotFound = true ∧ action = .awaitChange) ∨
    ∃ m, log.readings = [m] ∧ Row d t m log (log.left m).status action ∧
      d.after? (log.left m).status.phase = some action ∧
      ∀ u reply, ⟨.updateStatus u, reply⟩ ∈ log → ∃ written, reply = .ok written

theorem followsTable_unread (key : Key) (e : StoreError) {result : Except Error Action}
    (ends : ∀ action, result = .ok action → e.isNotFound = true ∧ action = .awaitChange) :
    FollowsTable d t [⟨.getMonitor key, .error e⟩] result where
  one_write := Nat.zero_le 1
  one_creation := Nat.zero_le 1
  creates_missing _ _ member := by simp at member
  written _ member := nomatch member
  rests _ member := nomatch member
  ends action ok := .inl ⟨key, e, rfl, ends action ok⟩

variable {key : Key} {first rest : Log} {result : Except Error Action}

theorem followsTable_concluded {next : Move} (aside : first.writes = [] ∧ first.readings = [])
    (creates : first.creations.length ≤ 1 ∧ first.CreatesMissing)
    (row : Row d t m first next.status next.action)
    (resting : Phase.Rests m.status.phase → first.creations = [] ∧ next.status = m.status)
    (concluded : Concluded m next rest result) :
    FollowsTable d t (⟨.getMonitor key, .ok m⟩ :: (first ++ rest)) result := by
  obtain ⟨log, whole⟩ : ∃ log : Log, log = ⟨.getMonitor key, .ok m⟩ :: (first ++ rest) := ⟨_, rfl⟩
  rw [← whole]
  obtain ⟨none, quiet⟩ := concluded.aside
  have sub : first ⊆ log := by
    rw [whole]
    exact fun x member => List.mem_cons_of_mem _ (List.mem_append_left _ member)
  -- all that is created belongs to the choice of the move, all that is written to the end
  have writes : log.writes = rest.writes := by
    rw [whole]
    change (first ++ rest).writes = _
    rw [Log.writes_append, aside.1, List.nil_append]
  have creations : log.creations = first.creations := by
    rw [whole]
    change (first ++ rest).creations = _
    rw [Log.creations_append, none, List.append_nil]
  have readings : log.readings = [m] := by
    rw [whole]
    change m :: (first ++ rest).readings = _
    rw [Log.readings_append, aside.2, quiet, List.append_nil]
  have left : (log.left m).status = next.status := by
    rw [Log.left, writes]
    rcases concluded.writes with ⟨same, empty⟩ | ⟨_, one⟩
    · rw [empty]; exact same
    · rw [one]; rfl
  refine ⟨?_, by rw [creations]; exact creates.1, ?_, fun u member => ?_, fun w member rests => ?_,
    fun action ok => .inr ?_⟩
  · rw [writes]
    rcases concluded.writes with ⟨_, empty⟩ | ⟨_, one⟩
    · rw [empty]; exact Nat.zero_le 1
    · rw [one]; exact Nat.le_refl 1
  · rw [whole]
    exact creates.2.surround [⟨.getMonitor key, .ok m⟩] rest rfl none
  · rw [writes] at member
    rcases concluded.writes with ⟨_, empty⟩ | ⟨changes, one⟩
    · rw [empty] at member
      contradiction
    · rw [one, List.mem_singleton] at member
      subst member
      refine ⟨m, next.action, readings, rfl, row.mono sub, row.edge changes, ?_, row.reason changes⟩
      intro phase reason
      exact changes (by cases h : m.status; cases h' : next.status; simp_all)
  · rw [readings, List.mem_singleton] at member
    subst member
    obtain ⟨free, same⟩ := resting rests
    rw [writes, creations]
    exact ⟨(concluded.writes.resolve_right fun changes => changes.1 same.symm).2, free⟩
  · obtain ⟨rfl, accepted⟩ := concluded.ends ok
    refine ⟨m, readings, ?_, ?_, fun u reply member => ?_⟩
    · rw [left]; exact row.mono sub
    · rw [left]; exact row.after
    · rw [whole, List.mem_cons, List.mem_append] at member
      rcases member with head | early | late
      · cases head
      · have written : u ∈ first.writes := List.mem_filterMap.mpr ⟨_, early, rfl⟩
        rw [aside.1] at written
        contradiction
      · exact accepted u reply late

theorem followsTable_failed {e : StoreError} (moved : Moved d t m first (.error (.store e))) :
    FollowsTable d t (⟨.getMonitor key, .ok m⟩ :: first) (.error (.store e)) where
  one_write := by
    change first.writes.length ≤ 1
    rw [moved.aside.1]
    exact Nat.zero_le 1
  one_creation := moved.creates.1
  creates_missing := by
    have all := moved.creates.2.surround [⟨.getMonitor key, .ok m⟩] [] rfl rfl
    rwa [List.append_nil] at all
  written u member := by
    change u ∈ first.writes at member
    rw [moved.aside.1] at member
    contradiction
  rests w member rests := by
    change w ∈ m :: first.readings at member
    rw [moved.aside.2, List.mem_singleton] at member
    subst member
    obtain ⟨_, next, never, _⟩ := moved.rests rests
    contradiction
  ends action ok := nomatch ok

theorem followsTable_of_synced {text : String} (synced : Synced d t text log result) :
    FollowsTable d t log result := by
  cases synced with
  | malformed cause parsed =>
    exact ⟨Nat.zero_le 1, Nat.zero_le 1, fun _ _ member => (nomatch member),
      fun _ member => (nomatch member), fun _ member => (nomatch member), fun _ ok => nomatch ok⟩
  | gone key parsed e missing =>
    exact followsTable_unread key e fun action ok => ⟨missing, (Except.ok.inj ok).symm⟩
  | unread key parsed e other => exact followsTable_unread key e fun action ok => nomatch ok
  | moved key parsed m move conclusion =>
    refine followsTable_concluded move.aside move.creates (move.row rfl) (fun rests => ?_)
      conclusion
    obtain ⟨free, next, ok, same⟩ := move.rests rests
    cases ok
    exact ⟨free, same⟩
  | taken key parsed m move conclusion =>
    rename_i first rest pod owner
    have split : first ++ ⟨.report (.childNameTaken key (.childNotOwned pod owner)), ()⟩ :: rest =
        (first ++ [⟨.report (.childNameTaken key (.childNotOwned pod owner)), ()⟩]) ++ rest := by
      simp
    have sub : first ⊆ first ++ [⟨.report (.childNameTaken key (.childNotOwned pod owner)), ()⟩] :=
      List.subset_append_left ..
    rw [split]
    refine followsTable_concluded ?_ ?_ (move.row_conflict.mono sub) (fun rests => ?_) conclusion
    · rw [Log.writes_append, Log.readings_append, move.aside.1, move.aside.2]
      exact ⟨rfl, rfl⟩
    · refine ⟨?_, move.creates.2.surround [] _ rfl rfl⟩
      rw [Log.creations_append]
      change (first.creations ++ []).length ≤ 1
      rw [List.append_nil]
      exact move.creates.1
    · obtain ⟨_, next, never, _⟩ := move.rests rests
      contradiction
  | failed key parsed m move => exact followsTable_failed move

theorem Synced.reads_first {text : String} {u : Monitor} {reply : Except StoreError Monitor}
    (synced : Synced d t text log result) (made : ⟨.updateStatus u, reply⟩ ∈ log) :
    ∃ key m rest, log = ⟨.getMonitor key, .ok m⟩ :: rest := by
  cases synced with
  | malformed cause parsed => contradiction
  | gone key parsed e missing => simp at made
  | unread key parsed e other => simp at made
  | moved key parsed m move conclusion => exact ⟨key, m, _, rfl⟩
  | taken key parsed m move conclusion => exact ⟨key, m, _, rfl⟩
  | failed key parsed m move => exact ⟨key, m, _, rfl⟩

theorem write_of_leaves {text : String} {u : Monitor}
    {next : Except StoreError Monitor → Steps (Except Error Action)}
    (leaves : (sync d t text).Leaves log (.call (.updateStatus u) next)) :
    log.writes = [] ∧ ∃ m ∈ log.readings, u = { m with status := u.status } ∧
      Edge m.status.phase u.status.phase ∧ (u.status.reason ≠ "" ↔ u.status.phase = .failed) := by
  obtain ⟨reply, after, result, tells⟩ := leaves.exists_tells
  have synced := synced_of_tells tells
  have table := followsTable_of_synced synced
  obtain ⟨key, m, rest, whole⟩ :=
    synced.reads_first (List.mem_append_right log (List.mem_cons_self ..))
  have writes : Log.writes (log ++ ⟨.updateStatus u, reply⟩ :: after) =
      log.writes ++ u :: Log.writes after := Log.writes_append ..
  have one := table.one_write
  rw [writes, List.length_append, List.length_cons] at one
  refine ⟨List.eq_nil_of_length_eq_zero (by omega), m, ?_, ?_⟩
  · cases log with
    | nil => cases whole
    | cons first log =>
      rw [(List.cons.inj whole).1]
      exact List.mem_cons_self ..
  · obtain ⟨read, action, readings, same, row, edge, _, reason⟩ :=
      table.written u (writes ▸ List.mem_append_right _ (List.mem_cons_self ..))
    rw [whole] at readings
    cases (List.cons.inj readings).1
    exact ⟨same, edge, reason⟩

theorem FollowsTable.found_of_running (h : FollowsTable d t log result) {u : Monitor}
    (written : u ∈ log.writes) (running : u.status.phase = .running) :
    ∃ target, ⟨.cachedPod u.key, some target⟩ ∈ log := by
  obtain ⟨m, action, _, same, row, edge, _⟩ := h.written u written
  have key : u.key = m.key := by rw [same]; rfl
  rw [key]
  refine row.found running fun before => ?_
  rw [before, running] at edge
  nomatch edge

/-- Every pass follows the transition table: over the text of any key, with any replies of the cache
and of a store, which may hang on whatever happened before. -/
theorem sync_follows_table {σ : Type} (answer : (c : Call) → σ → σ × Reply c) (s : σ) (d : Delays)
    (t : Child.Template) (text : String) :
    FollowsTable d t ((sync d t text).transcript answer s) ((sync d t text).run answer s).2 :=
  followsTable_of_synced (synced_of_tells (Program.tells_transcript answer _ s))

end MonitorOperator.Pass
