import MonitorOperator.Proofs.Pass.Transitions

/-! The pods that a pass sees under the name of its child. It asks for one until it gets one, so it
sees at most one. What it makes of its monitor hangs on whether that pod belongs to the monitor. -/

namespace MonitorOperator.Pass

namespace Log

def lookups (log : Log) (key : Key) : List Pod :=
  log.filterMap fun
    | ⟨.getPod k, .ok p⟩ => if k = key then some p else none
    | _ => none

variable {log : Log} {key : Key} {pod : Pod}

theorem lookups_append (log more : Log) (key : Key) :
    (log ++ more).lookups key = log.lookups key ++ more.lookups key := List.filterMap_append

theorem mem_lookups_of_seen (seen : ⟨.getPod key, .ok pod⟩ ∈ log) : pod ∈ log.lookups key :=
  List.mem_filterMap.mpr ⟨_, seen, if_pos rfl⟩

theorem eq_singleton {α : Type} {l : List α} {a : α} (one : l.length ≤ 1) (member : a ∈ l) :
    l = [a] := by
  match l with
  | [] => contradiction
  | [only] => rw [List.mem_singleton.mp member]
  | _ :: _ :: _ => simp at one

theorem last_of_seen (one : (log.lookups key).length ≤ 1) (seen : ⟨.getPod key, .ok pod⟩ ∈ log) :
    (log.lookups key).getLast? = some pod := by
  rw [eq_singleton one (mem_lookups_of_seen seen)]
  rfl

theorem left_of_written {m u : Monitor} (one : log.writes.length ≤ 1) (written : u ∈ log.writes) :
    log.left m = u := by
  rw [left, eq_singleton one written]
  rfl

end Log

variable {d : Delays} {t : Child.Template} {m : Monitor} {log : Log} {key : Key} {pod : Pod}

theorem Looked.one_lookup {r : Except Error Found} (looked : Looked t m log r) (key : Key) :
    (log.lookups key).length ≤ 1 := by
  by_cases name : Child.key m = key <;> cases looked <;> simp [Log.lookups, name]

theorem Moved.one_lookup {r : Except Error Move} (moved : Moved d t m log r) (key : Key) :
    (log.lookups key).length ≤ 1 := by
  cases moved with
  | started phase target looked => exact looked.one_lookup key
  | watched phase looked => exact looked.one_lookup key
  | _ => exact Nat.zero_le 1

theorem Concluded.no_lookup {next : Move} {r : Except Error Action}
    (concluded : Concluded m next log r) (key : Key) : log.lookups key = [] := by
  cases concluded <;> rfl

theorem Synced.one_lookup {text : String} {r : Except Error Action} (synced : Synced d t text log r)
    (key : Key) : (log.lookups key).length ≤ 1 := by
  cases synced with
  | @moved _ _ m first rest next _ move conclusion =>
    change ((first ++ rest).lookups key).length ≤ 1
    rw [Log.lookups_append, conclusion.no_lookup, List.append_nil]
    exact move.one_lookup key
  | @taken _ _ m first rest pod owner _ move conclusion =>
    change ((first ++ ⟨.report _, ()⟩ :: rest).lookups key).length ≤ 1
    rw [Log.lookups_append]
    change (_ ++ rest.lookups key).length ≤ 1
    rw [conclusion.no_lookup, List.append_nil]
    exact move.one_lookup key
  | failed _ _ m move => exact move.one_lookup key
  | _ => exact Nat.zero_le 1

theorem owned_of_foreign (other : m.controls pod.metadata = false) :
    owned m pod = .error (.childNotOwned pod.key.text m.key.text) := by
  rw [owned, other]
  rfl

theorem Looked.foreign {r : Except Error Found} (looked : Looked t m log r)
    (seen : pod ∈ log.lookups (Child.key m)) (other : m.controls pod.metadata = false) :
    r = .error (.childNotOwned pod.key.text m.key.text) := by
  cases looked with
  | there p =>
    obtain rfl : pod = p := by simpa [Log.lookups] using seen
    exact owned_of_foreign other
  | second e missing late exist p =>
    obtain rfl : pod = p := by simpa [Log.lookups] using seen
    exact owned_of_foreign other
  | _ => simp [Log.lookups] at seen

theorem Moved.foreign {r : Except Error Move} (moved : Moved d t m log r)
    (seen : pod ∈ log.lookups (Child.key m)) (other : m.controls pod.metadata = false) :
    r = .error (.childNotOwned pod.key.text m.key.text) := by
  cases moved with
  | started phase target looked => rw [looked.foreign seen other]; rfl
  | watched phase looked => rw [looked.foreign seen other]; rfl
  | _ => simp [Log.lookups] at seen

theorem Concluded.left {next : Move} {r : Except Error Action}
    (concluded : Concluded m next log r) : log.left m = { m with status := next.status } := by
  rcases concluded.writes with ⟨same, empty⟩ | ⟨_, one⟩
  · rw [Log.left, empty, ← same]
    rfl
  · rw [Log.left, one]
    rfl

theorem Synced.foreign {text : String} {r : Except Error Action} (synced : Synced d t text log r)
    (read : m ∈ log.readings) (seen : pod ∈ log.lookups (Child.key m))
    (other : m.controls pod.metadata = false) :
    log.left m =
      { m with status := .failure (Error.childNotOwned pod.key.text m.key.text).message } := by
  cases synced with
  | @moved _ _ _ first rest next _ move conclusion =>
    change m ∈ _ :: (first ++ rest).readings at read
    change pod ∈ (first ++ rest).lookups (Child.key m) at seen
    rw [Log.readings_append, move.aside.2, conclusion.aside.2] at read
    obtain rfl := List.mem_singleton.mp read
    rw [Log.lookups_append, conclusion.no_lookup, List.append_nil] at seen
    cases move.foreign seen other
  | @taken key _ _ first rest _ _ _ move conclusion =>
    change m ∈ _ :: (first ++ ⟨.report _, ()⟩ :: rest).readings at read
    change pod ∈ (first ++ ⟨.report _, ()⟩ :: rest).lookups (Child.key m) at seen
    rw [Log.readings_append, move.aside.2] at read
    change m ∈ _ :: rest.readings at read
    rw [conclusion.aside.2] at read
    obtain rfl := List.mem_singleton.mp read
    rw [Log.lookups_append] at seen
    change pod ∈ _ ++ rest.lookups _ at seen
    rw [conclusion.no_lookup, List.append_nil] at seen
    cases move.foreign seen other
    have writes : Log.writes (⟨.getMonitor key, .ok m⟩ :: (first ++ ⟨.report
        (.childNameTaken key (.childNotOwned pod.key.text m.key.text)), ()⟩ :: rest)) =
        rest.writes := by
      change (first ++ ⟨.report _, ()⟩ :: rest).writes = _
      rw [Log.writes_append, move.aside.1]
      rfl
    rw [Log.left, writes]
    exact conclusion.left
  | failed key parsed _ move =>
    change m ∈ _ :: Log.readings _ at read
    rw [move.aside.2] at read
    obtain rfl := List.mem_singleton.mp read
    cases move.foreign seen other
  | _ => contradiction

def Call.asks : Call → Bool
  | .updateStatus _ => false
  | .report _ => false
  | _ => true

def Log.WritesLast (log : Log) : Prop :=
  log.Pairwise fun x y => ∀ u, x.1 = .updateStatus u → y.1.asks = false

theorem Log.writesLast_append (first : Log) {rest : Log} (none : first.writes = [])
    (last : rest.WritesLast) : (first ++ rest).WritesLast := by
  induction first with
  | nil => exact last
  | cons x first ih =>
    rw [Log.writes_cons, List.append_eq_nil_iff] at none
    refine List.pairwise_cons.mpr ⟨fun y _ u writes => ?_, ih none.2⟩
    obtain ⟨_, reply⟩ := x
    obtain rfl := writes
    cases none.1

theorem Concluded.writes_last {next : Move} {r : Except Error Action}
    (concluded : Concluded m next log r) : log.WritesLast := by
  cases concluded with
  | same still => exact .nil
  | refused changes e => exact List.pairwise_singleton ..
  | written changes reply =>
    refine List.pairwise_cons.mpr ⟨fun y member u _ => ?_, List.pairwise_singleton ..⟩
    rw [List.mem_singleton.mp member]
    rfl

theorem Synced.writes_last {text : String} {r : Except Error Action}
    (synced : Synced d t text log r) : log.WritesLast := by
  cases synced with
  | malformed cause parsed => exact .nil
  | gone key parsed e missing => exact List.pairwise_singleton ..
  | unread key parsed e other => exact List.pairwise_singleton ..
  | @moved key _ m first rest _ _ move conclusion =>
    exact Log.writesLast_append (⟨.getMonitor key, .ok m⟩ :: first) move.aside.1
      conclusion.writes_last
  | @taken key _ m first rest _ _ _ move conclusion =>
    exact Log.writesLast_append (⟨.getMonitor key, .ok m⟩ :: first) move.aside.1
      (Log.writesLast_append [_] rfl conclusion.writes_last)
  | @failed key _ m first _ move =>
    have all := Log.writesLast_append (⟨.getMonitor key, .ok m⟩ :: first) move.aside.1 .nil
    rwa [List.append_nil] at all

theorem Log.WritesLast.seen {before after : Log} {u : Monitor} {reply : Except StoreError Monitor}
    (last : log.WritesLast) (split : log = before ++ ⟨.updateStatus u, reply⟩ :: after)
    {x : Program.Exchange Reply} (member : x ∈ log) (asks : x.1.asks = true) : x ∈ before := by
  rw [split] at member last
  rcases List.mem_append.mp member with early | late
  · exact early
  rcases List.mem_cons.mp late with rfl | late
  · contradiction
  · obtain ⟨_, tail, _⟩ := List.pairwise_append.mp last
    rw [(List.pairwise_cons.mp tail).1 x late u rfl] at asks
    contradiction

/-- A pass acts on no pod but the child of its monitor. It declares the monitor running only after
it has created the child or the last pod that it got under the name of the child belongs to the
monitor, and completed only after that pod does and has ended. If that pod belongs to someone else,
it declares neither, and if it ends well, its monitor has failed with the conflict as the reason. -/
structure ActsOnOwn (t : Child.Template) (log : Log) (result : Except Error Action) : Prop where
  running : ∀ (before : Log) u reply after, log = before ++ ⟨.updateStatus u, reply⟩ :: after →
    u.status.phase = .running → ∃ m, before.readings = [m] ∧
      ((∃ pod, ⟨.createPod (Child.build m t), .ok pod⟩ ∈ before) ∨
        ∃ pod, (before.lookups (Child.key m)).getLast? = some pod ∧
          m.controls pod.metadata = true)
  completed : ∀ (before : Log) u reply after, log = before ++ ⟨.updateStatus u, reply⟩ :: after →
    u.status.phase = .completed → ∃ m pod, before.readings = [m] ∧
      (before.lookups (Child.key m)).getLast? = some pod ∧ m.controls pod.metadata = true ∧
      (pod.status.phase = .succeeded ∨ pod.status.phase = .failed)
  foreign : ∀ m ∈ log.readings, ∀ pod, (log.lookups (Child.key m)).getLast? = some pod →
    m.controls pod.metadata = false →
    (∀ u ∈ log.writes, u.status.phase ≠ .running ∧ u.status.phase ≠ .completed) ∧
    ∀ action, result = .ok action →
      log.left m =
        { m with status := .failure (Error.childNotOwned pod.key.text m.key.text).message } ∧
      ∀ u reply, ⟨.updateStatus u, reply⟩ ∈ log → ∃ written, reply = .ok written

theorem Row.child_of_running {status : MonitorStatus} {action : Action}
    (row : Row d t m log status action) (running : status.phase = .running) : HasChild t m log := by
  cases row with
  | started phase target cached child => exact child
  | created phase pod made => exact .created pod made
  | working phase pod seen ours going => exact .owned pod seen ours
  | rested phase => cases phase.symm.trans running
  | unknown raw phase => cases phase.symm.trans running
  | _ => contradiction

-- A row that only keeps a monitor completed asks for no child, but no edge leads along it.
theorem Row.child_of_completed {status : MonitorStatus} {action : Action}
    (row : Row d t m log status action) (edge : Edge m.status.phase status.phase)
    (completed : status.phase = .completed) :
    ∃ pod, ⟨.getPod (Child.key m), .ok pod⟩ ∈ log ∧ m.controls pod.metadata = true ∧
      pod.status.phase.isTerminal = true := by
  cases row with
  | finished phase pod seen ours ended => exact ⟨pod, seen, ours, ended⟩
  | begun phase => contradiction
  | missing phase cached => contradiction
  | started phase target cached child => contradiction
  | taken phase pod seen other => contradiction
  | _ =>
    rw [completed] at edge
    nomatch edge

theorem terminal_iff {phase : PodPhase} :
    phase.isTerminal = true ↔ phase = .succeeded ∨ phase = .failed := by
  cases phase <;> simp [PodPhase.isTerminal]

/-- What the log shows of a write: the row of the table for it, and that what the pass has seen
stands before it. -/
theorem Synced.written {text : String} {r : Except Error Action} (synced : Synced d t text log r)
    {before after : Log} {u : Monitor} {reply : Except StoreError Monitor}
    (split : log = before ++ ⟨.updateStatus u, reply⟩ :: after) :
    ∃ m action, before.readings = [m] ∧ Row d t m log u.status action ∧
      Edge m.status.phase u.status.phase ∧
      (∀ pod, ⟨.createPod (Child.build m t), .ok pod⟩ ∈ log →
        ⟨.createPod (Child.build m t), .ok pod⟩ ∈ before) ∧
      ∀ pod, ⟨.getPod (Child.key m), .ok pod⟩ ∈ log →
        (before.lookups (Child.key m)).getLast? = some pod := by
  have made : ⟨.updateStatus u, reply⟩ ∈ log := by
    rw [split]
    exact List.mem_append_right _ (List.mem_cons_self ..)
  obtain ⟨m, action, readings, _, row, edge, _⟩ :=
    (followsTable_of_synced synced).written u (List.mem_filterMap.mpr ⟨_, made, rfl⟩)
  have seen {x : Program.Exchange Reply} (member : x ∈ log) (asks : x.1.asks = true) :
      x ∈ before := synced.writes_last.seen split member asks
  have one := synced.one_lookup (Child.key m)
  rw [split, Log.lookups_append, List.length_append] at one
  refine ⟨m, action, ?_, row, edge, fun pod made => seen made rfl, fun pod there =>
    Log.last_of_seen (by omega) (seen there rfl)⟩
  rw [split, Log.readings_append] at readings
  rcases List.append_eq_singleton_iff.mp readings with ⟨none, _⟩ | ⟨only, _⟩
  · obtain ⟨key, first, rest, opens⟩ := synced.reads_first made
    have early : ⟨.getMonitor key, .ok first⟩ ∈ before :=
      seen (by rw [opens]; exact List.mem_cons_self ..) rfl
    have read : first ∈ before.readings := List.mem_filterMap.mpr ⟨_, early, rfl⟩
    rw [none] at read
    contradiction
  · exact only

theorem actsOnOwn_of_synced {text : String} {r : Except Error Action}
    (synced : Synced d t text log r) : ActsOnOwn t log r := by
  have table := followsTable_of_synced synced
  constructor
  · intro before u reply after split running
    obtain ⟨m, action, readings, row, _, made, last⟩ := synced.written split
    refine ⟨m, readings, ?_⟩
    cases row.child_of_running running with
    | created pod new => exact .inl ⟨pod, made pod new⟩
    | owned pod seen ours => exact .inr ⟨pod, last pod seen, ours⟩
  · intro before u reply after split completed
    obtain ⟨m, action, readings, row, edge, _, last⟩ := synced.written split
    obtain ⟨pod, seen, ours, ended⟩ := row.child_of_completed edge completed
    exact ⟨m, pod, readings, last pod seen, ours, terminal_iff.mp ended⟩
  · intro m read pod lookup other
    have seen : pod ∈ log.lookups (Child.key m) := List.mem_of_getLast? lookup
    have left := synced.foreign read seen other
    refine ⟨fun u written => ?_, fun action ok => ⟨left, ?_⟩⟩
    · have failed : u.status.phase = .failed := by
        rw [← Log.left_of_written table.one_write written, left]
        rfl
      rw [failed]
      exact ⟨nofun, nofun⟩
    · rcases table.ends action ok with ⟨key, e, rfl, _⟩ | ⟨_, _, _, _, accepted⟩
      · contradiction
      · exact accepted

end MonitorOperator.Pass
