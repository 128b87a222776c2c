import MonitorOperator.Pass
import MonitorOperator.Proofs.Transcript

/-! All that a pass can be: which calls it makes, which replies it gets and how it ends. One
relation stands for each part of a pass, so that what is said of passes is said by cases on these. -/

namespace MonitorOperator.Pass

abbrev Log : Type := List (Program.Exchange Reply)

section

variable (d : Delays) (t : Child.Template) (m : Monitor)

inductive Looked : Log → Except Error Found → Prop where
  | there (pod : Pod) : Looked [⟨.getPod (Child.key m), .ok pod⟩] (owned m pod)
  | unread (e : StoreError) (other : e.isNotFound = false) :
      Looked [⟨.getPod (Child.key m), .error e⟩] (.error (.store e))
  | created (e : StoreError) (missing : e.isNotFound = true) (pod : Pod) :
      Looked [⟨.getPod (Child.key m), .error e⟩, ⟨.createPod (Child.build m t), .ok pod⟩,
        ⟨.report (.childCreated m pod), ()⟩] (.ok .created)
  | refused (e : StoreError) (missing : e.isNotFound = true) (cause : StoreError)
      (other : cause.isAlreadyExists = false) :
      Looked [⟨.getPod (Child.key m), .error e⟩, ⟨.createPod (Child.build m t), .error cause⟩]
        (.error (.store cause))
  | second (e : StoreError) (missing : e.isNotFound = true) (late : StoreError)
      (exist : late.isAlreadyExists = true) (pod : Pod) :
      Looked [⟨.getPod (Child.key m), .error e⟩, ⟨.createPod (Child.build m t), .error late⟩,
        ⟨.getPod (Child.key m), .ok pod⟩] (owned m pod)
  | lost (e : StoreError) (missing : e.isNotFound = true) (late : StoreError)
      (exist : late.isAlreadyExists = true) (cause : StoreError) :
      Looked [⟨.getPod (Child.key m), .error e⟩, ⟨.createPod (Child.build m t), .error late⟩,
        ⟨.getPod (Child.key m), .error cause⟩] (.error (.store cause))

inductive Moved : Log → Except Error Move → Prop where
  | begun (phase : m.status.phase = .unset) :
      Moved [] (.ok { status := .plain .pending, action := .awaitChange })
  | missing (phase : m.status.phase = .pending ∨ m.status.phase = .failed) :
      Moved [⟨.cachedPod m.key, none⟩] (.ok {
        status := .failure ("monitored pod " ++ m.key.text ++ " not found")
        action := .requeue d.failed })
  | started (phase : m.status.phase = .pending ∨ m.status.phase = .failed) (target : Pod)
      {log : Log} {r : Except Error Found} (looked : Looked t m log r) :
      Moved (⟨.cachedPod m.key, some target⟩ :: log)
        (r.map fun _ => { status := .plain .running, action := .requeue d.resync })
  | watched (phase : m.status.phase = .running) {log : Log} {r : Except Error Found}
      (looked : Looked t m log r) : Moved log (r.map (afterChild d m))
  | rested (phase : m.status.phase = .completed) :
      Moved [] (.ok { status := m.status, action := .awaitChange })
  | unknown (raw : String) (phase : m.status.phase = .unrecognized raw) :
      Moved [⟨.report (.phaseUnknown m.key raw), ()⟩]
        (.ok { status := m.status, action := .requeue d.unrecognized })

inductive Concluded (next : Move) : Log → Except Error Action → Prop where
  | same (still : m.status.changed next.status = false) : Concluded next [] (.ok next.action)
  | refused (changes : m.status.changed next.status = true) (e : StoreError) :
      Concluded next [⟨.updateStatus { m with status := next.status }, .error e⟩]
        (.error (.store e))
  | written (changes : m.status.changed next.status = true) (reply : Monitor) :
      Concluded next [⟨.updateStatus { m with status := next.status }, .ok reply⟩,
        ⟨.report (.statusWritten m.status { m with status := next.status } next.failure), ()⟩]
        (.ok next.action)

end

def conflict (d : Delays) (pod owner : String) : Move where
  status := .failure (Error.childNotOwned pod owner).message
  action := .requeue d.failed
  failure := .childNotOwned

inductive Synced (d : Delays) (t : Child.Template) (text : String) :
    Log → Except Error Action → Prop where
  | malformed (cause : Key.Fault) (parsed : Key.parse text = .error cause) :
      Synced d t text [] (.error (.malformedKey text cause.message))
  | gone (key : Key) (parsed : Key.parse text = .ok key) (e : StoreError)
      (missing : e.isNotFound = true) :
      Synced d t text [⟨.getMonitor key, .error e⟩] (.ok .awaitChange)
  | unread (key : Key) (parsed : Key.parse text = .ok key) (e : StoreError)
      (other : e.isNotFound = false) :
      Synced d t text [⟨.getMonitor key, .error e⟩] (.error (.store e))
  | moved (key : Key) (parsed : Key.parse text = .ok key) (m : Monitor) {log rest : Log}
      {next : Move} {r : Except Error Action} (move : Moved d t m log (.ok next))
      (conclusion : Concluded m next rest r) :
      Synced d t text (⟨.getMonitor key, .ok m⟩ :: (log ++ rest)) r
  | taken (key : Key) (parsed : Key.parse text = .ok key) (m : Monitor) {log rest : Log}
      {pod owner : String} {r : Except Error Action}
      (move : Moved d t m log (.error (.childNotOwned pod owner)))
      (conclusion : Concluded m (conflict d pod owner) rest r) :
      Synced d t text (⟨.getMonitor key, .ok m⟩ :: (log ++
        ⟨.report (.childNameTaken key (.childNotOwned pod owner)), ()⟩ :: rest)) r
  | failed (key : Key) (parsed : Key.parse text = .ok key) (m : Monitor) {log : Log}
      {e : StoreError} (move : Moved d t m log (.error (.store e))) :
      Synced d t text (⟨.getMonitor key, .ok m⟩ :: log) (.error (.store e))

variable {d : Delays} {t : Child.Template} {m : Monitor} {log : Log}

theorem looked_of_tells {r : Except Error Found} (tells : (ensureChild t m).Tells log r) :
    Looked t m log r := by
  obtain ⟨first, log, rfl, tells⟩ := tells
  cases first with
  | ok pod =>
    obtain ⟨rfl, rfl⟩ := tells
    exact .there pod
  | error e =>
    change (if (!e.isNotFound) = true then _ else _ : Steps _).Tells log r at tells
    split at tells
    · rename_i other
      obtain ⟨rfl, rfl⟩ := tells
      exact .unread e (by simpa using other)
    · rename_i found
      have missing : e.isNotFound = true := by simpa using found
      obtain ⟨answer, log, rfl, tells⟩ := tells
      cases answer with
      | ok pod =>
        obtain ⟨_, log, rfl, rfl, rfl⟩ := tells
        exact .created e missing pod
      | error late =>
        change (if (!late.isAlreadyExists) = true then _ else _ : Steps _).Tells log r at tells
        split at tells
        · rename_i other
          obtain ⟨rfl, rfl⟩ := tells
          exact .refused e missing late (by simpa using other)
        · rename_i found
          have exist : late.isAlreadyExists = true := by simpa using found
          obtain ⟨again, log, rfl, tells⟩ := tells
          cases again with
          | ok pod =>
            obtain ⟨rfl, rfl⟩ := tells
            exact .second e missing late exist pod
          | error cause =>
            obtain ⟨rfl, rfl⟩ := tells
            exact .lost e missing late exist cause

theorem moved_of_start {r : Except Error Move}
    (phase : m.status.phase = .pending ∨ m.status.phase = .failed)
    (tells : (move.start d t m).Tells log r) : Moved d t m log r := by
  obtain ⟨target, log, rfl, tells⟩ := tells
  cases target with
  | none =>
    obtain ⟨rfl, rfl⟩ := tells
    exact .missing phase
  | some target =>
    obtain ⟨first, found, rest, rfl, look, rfl, rfl⟩ :=
      Program.tells_bind (p := ensureChild t m) tells
    rw [List.append_nil]
    exact .started phase target (looked_of_tells look)

theorem moved_of_tells {r : Except Error Move} (tells : (move d t m).Tells log r) :
    Moved d t m log r := by
  unfold move at tells
  split at tells
  · rename_i phase
    obtain ⟨rfl, rfl⟩ := tells
    exact .begun phase
  · rename_i phase
    exact moved_of_start (.inl phase) tells
  · rename_i phase
    exact moved_of_start (.inr phase) tells
  · rename_i phase
    obtain ⟨first, found, rest, rfl, look, rfl, rfl⟩ :=
      Program.tells_bind (p := ensureChild t m) tells
    rw [List.append_nil]
    exact .watched phase (looked_of_tells look)
  · rename_i phase
    obtain ⟨rfl, rfl⟩ := tells
    exact .rested phase
  · rename_i raw phase
    obtain ⟨_, log, rfl, rfl, rfl⟩ := tells
    exact .unknown raw phase

theorem concluded_of_tells {next : Move} {r : Except Error Action}
    (tells : (conclude m next).Tells log r) : Concluded m next log r := by
  change (if (!m.status.changed next.status) = true then _ else _ : Steps _).Tells log r at tells
  split at tells
  · rename_i still
    obtain ⟨rfl, rfl⟩ := tells
    exact .same (by simpa using still)
  · rename_i changes
    have changes : m.status.changed next.status = true := by simpa using changes
    obtain ⟨reply, log, rfl, tells⟩ := tells
    cases reply with
    | error e =>
      obtain ⟨rfl, rfl⟩ := tells
      exact .refused changes e
    | ok written =>
      obtain ⟨_, log, rfl, rfl, rfl⟩ := tells
      exact .written changes written

/-- What a pass that cannot go on with a child has found out about it: the store failed, or the
child belongs to someone else. -/
inductive Barred (m : Monitor) (log : Log) : Error → Prop where
  | store (e : StoreError) : Barred m log (.store e)
  | foreign (pod : Pod) (seen : ⟨.getPod (Child.key m), .ok pod⟩ ∈ log)
      (other : m.controls pod.metadata = false) :
      Barred m log (.childNotOwned pod.key.text m.key.text)

theorem Barred.mono {cause : Error} {more : Log} (h : Barred m log cause) (sub : log ⊆ more) :
    Barred m more cause := by
  cases h with
  | store e => exact .store e
  | foreign pod seen other => exact .foreign pod (sub seen) other

theorem barred_of_owned {pod : Pod} {cause : Error} (h : owned m pod = .error cause)
    (seen : ⟨.getPod (Child.key m), .ok pod⟩ ∈ log) : Barred m log cause := by
  unfold owned at h
  split at h
  · contradiction
  · rename_i other
    cases h
    exact .foreign pod seen (by simpa using other)

theorem Looked.barred {r : Except Error Found} {cause : Error} (looked : Looked t m log r)
    (h : r = .error cause) : Barred m log cause := by
  cases looked with
  | there pod => exact barred_of_owned h (by simp)
  | second e missing late exist pod => exact barred_of_owned h (by simp)
  | created e missing pod => contradiction
  | unread e other => cases h; exact .store e
  | refused e missing e' other => cases h; exact .store e'
  | lost e missing late exist e' => cases h; exact .store e'

theorem map_eq_error {α β : Type} {r : Except Error α} {f : α → β} {cause : Error}
    (h : r.map f = .error cause) : r = .error cause := by
  cases r with
  | ok a => contradiction
  | error e => cases h; rfl

theorem Moved.barred {r : Except Error Move} {cause : Error} (moved : Moved d t m log r)
    (h : r = .error cause) :
    (m.status.phase = .pending ∨ m.status.phase = .failed ∨ m.status.phase = .running) ∧
      Barred m log cause := by
  cases moved with
  | started phase target looked =>
    refine ⟨phase.imp_right .inl, (looked.barred (map_eq_error h)).mono ?_⟩
    exact List.subset_cons_self ..
  | watched phase looked => exact ⟨.inr (.inr phase), looked.barred (map_eq_error h)⟩
  | _ => contradiction

theorem synced_of_tells {text : String} {r : Except Error Action}
    (tells : (sync d t text).Tells log r) : Synced d t text log r := by
  unfold sync at tells
  split at tells
  · rename_i key parsed
    obtain ⟨reply, log, rfl, tells⟩ := tells
    cases reply with
    | error e =>
      change (if e.isNotFound = true then _ else _ : Steps _).Tells log r at tells
      split at tells
      · rename_i missing
        obtain ⟨rfl, rfl⟩ := tells
        exact .gone key parsed e missing
      · rename_i found
        obtain ⟨rfl, rfl⟩ := tells
        exact .unread key parsed e (by simpa using found)
    | ok m =>
      obtain ⟨first, outcome, rest, rfl, moves, ends⟩ := Program.tells_bind (p := move d t m) tells
      have moved := moved_of_tells moves
      cases outcome with
      | ok next => exact .moved key parsed m moved (concluded_of_tells ends)
      | error cause =>
        cases (moved.barred rfl).2 with
        | store e =>
          obtain ⟨rfl, rfl⟩ := ends
          rw [List.append_nil]
          exact .failed key parsed m moved
        | foreign pod seen other =>
          obtain ⟨_, rest, rfl, ends⟩ := ends
          exact .taken key parsed m moved (concluded_of_tells ends)
  · rename_i cause parsed
    obtain ⟨rfl, rfl⟩ := tells
    exact .malformed cause parsed

theorem Concluded.stored {next : Move} {cause : Error}
    (concluded : Concluded m next log (.error cause)) : ∃ e, cause = .store e := by
  cases concluded with
  | refused changes e => exact ⟨e, rfl⟩

theorem Synced.stored {text : String} {cause : Error} (synced : Synced d t text log (.error cause))
    (retryable : cause.isRetryable = true) : ∃ e, cause = .store e := by
  cases synced with
  | malformed fault parsed => contradiction
  | unread key parsed e other => exact ⟨e, rfl⟩
  | moved key parsed m move conclusion => exact conclusion.stored
  | taken key parsed m move conclusion => exact conclusion.stored
  | failed key parsed m move => exact ⟨_, rfl⟩

/-- No pass makes more than eight calls. -/
theorem Synced.length_le {text : String} {r : Except Error Action} (synced : Synced d t text log r) :
    log.length ≤ 8 := by
  have looked {m : Monitor} {log : Log} {r : Except Error Found} (h : Looked t m log r) :
      log.length ≤ 3 := by cases h <;> simp
  have moved {m : Monitor} {log : Log} {r : Except Error Move} (h : Moved d t m log r) :
      log.length ≤ 4 := by
    cases h with
    | started phase target h => exact Nat.succ_le_succ (looked h)
    | watched phase h => exact Nat.le_succ_of_le (looked h)
    | _ => simp
  have concluded {m : Monitor} {next : Move} {log : Log} {r : Except Error Action}
      (h : Concluded m next log r) : log.length ≤ 2 := by cases h <;> simp
  cases synced with
  | moved key parsed m move conclusion =>
    have first := moved move
    have second := concluded conclusion
    simp only [List.length_cons, List.length_append]
    omega
  | taken key parsed m move conclusion =>
    have first := moved move
    have second := concluded conclusion
    simp only [List.length_cons, List.length_append]
    omega
  | failed key parsed m move =>
    have first := moved move
    simp only [List.length_cons]
    omega
  | _ => simp

theorem Looked.creation {r : Except Error Found} {pod : Pod} {reply : Except StoreError Pod}
    (looked : Looked t m log r) (made : ⟨.createPod pod, reply⟩ ∈ log) : pod = Child.build m t := by
  cases looked <;> simp at made <;> exact made.1

theorem Moved.creation {r : Except Error Move} {pod : Pod} {reply : Except StoreError Pod}
    (moved : Moved d t m log r) (made : ⟨.createPod pod, reply⟩ ∈ log) : pod = Child.build m t := by
  cases moved with
  | started phase target looked =>
    rcases List.mem_cons.mp made with first | later
    · cases first
    · exact looked.creation later
  | watched phase looked => exact looked.creation made
  | unknown raw phase => simp at made
  | _ => contradiction

theorem Concluded.creates_nothing {next : Move} {r : Except Error Action} {pod : Pod}
    {reply : Except StoreError Pod} (concluded : Concluded m next log r) :
    ⟨.createPod pod, reply⟩ ∉ log := by
  cases concluded <;> simp

theorem Synced.creation {text : String} {r : Except Error Action} {pod : Pod}
    {reply : Except StoreError Pod} (synced : Synced d t text log r)
    (made : ⟨.createPod pod, reply⟩ ∈ log) :
    ∃ key m rest, log = ⟨.getMonitor key, .ok m⟩ :: rest ∧ pod = Child.build m t := by
  cases synced with
  | malformed cause parsed => contradiction
  | gone key parsed e missing => simp at made
  | unread key parsed e other => simp at made
  | moved key parsed m move conclusion =>
    refine ⟨key, m, _, rfl, ?_⟩
    rcases List.mem_cons.mp made with first | later
    · cases first
    · rcases List.mem_append.mp later with early | late
      · exact move.creation early
      · exact (conclusion.creates_nothing late).elim
  | taken key parsed m move conclusion =>
    refine ⟨key, m, _, rfl, ?_⟩
    rcases List.mem_cons.mp made with first | later
    · cases first
    · rcases List.mem_append.mp later with early | late
      · exact move.creation early
      · rcases List.mem_cons.mp late with report | rest
        · cases report
        · exact (conclusion.creates_nothing rest).elim
  | failed key parsed m move =>
    refine ⟨key, m, _, rfl, ?_⟩
    rcases List.mem_cons.mp made with first | later
    · cases first
    · exact move.creation later

instance : (c : Call) → Nonempty (Reply c)
  | .getMonitor key => ⟨.error (.notFound monitorKind key.text)⟩
  | .updateStatus m => ⟨.ok m⟩
  | .getPod key => ⟨.error (.notFound podKind key.text)⟩
  | .createPod p => ⟨.ok p⟩
  | .cachedPod _ => ⟨none⟩
  | .report _ => ⟨()⟩

theorem creation_of_leaves {text : String} {pod : Pod}
    {next : Except StoreError Pod → Steps (Except Error Action)}
    (leaves : (sync d t text).Leaves log (.call (.createPod pod) next)) :
    ∃ key m rest, log = ⟨.getMonitor key, .ok m⟩ :: rest ∧ pod = Child.build m t := by
  obtain ⟨reply, after, result, tells⟩ := leaves.exists_tells
  obtain ⟨key, m, rest, whole, same⟩ := (synced_of_tells tells).creation
    (List.mem_append_right _ (List.mem_cons_self ..))
  cases log with
  | nil => cases whole
  | cons first log => exact ⟨key, m, log, by rw [(List.cons.inj whole).1], same⟩

end MonitorOperator.Pass
