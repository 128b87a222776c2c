import Mathlib.Data.Nat.Digits.Defs
import MonitorOperator.Deployment
import MonitorOperator.Proofs.Store.Incarnation

/-! Reports over time. The recorder forgets what passed once the window is over, and looks a report
up in what it has not forgotten. Main statement: a report passes exactly if none of the same text
has passed within the window, what passes is published once and under its number, and a sink that
fails changes nothing of this. -/

namespace MonitorOperator

namespace Recorder

/-- A report at a reading of the clock, with the point of the calendar that its event shows. -/
structure Submission where
  now : Nat
  stamp : Stamp
  report : Report

def Submission.mark (x : Submission) : Identity × Nat := (x.report.identity, x.now)

def after (r : Recorder) (past : List Submission) : Recorder :=
  past.foldl (fun r x => (r.record x.now x.stamp x.report).1) r

def passes (r : Recorder) (past : List Submission) (x : Submission) : Bool :=
  ((r.after past).record x.now x.stamp x.report).2.isSome

def admitted (r : Recorder) : List Submission → List Submission
  | [] => []
  | x :: rest =>
    let answer := r.record x.now x.stamp x.report
    if answer.2.isSome then x :: answer.1.admitted rest else answer.1.admitted rest

theorem admitted_append (r : Recorder) (early late : List Submission) :
    r.admitted (early ++ late) = r.admitted early ++ (r.after early).admitted late := by
  induction early generalizing r with
  | nil => rfl
  | cons x rest ih =>
    have tail := ih (r.record x.now x.stamp x.report).1
    simp only [List.cons_append, admitted, tail]
    split
    · rfl
    · rfl

theorem admitted_subset (r : Recorder) (past : List Submission) : r.admitted past ⊆ past := by
  induction past generalizing r with
  | nil => exact List.Subset.refl _
  | cons x rest ih =>
    have tail := ih (r.record x.now x.stamp x.report).1
    simp only [admitted]
    split
    · exact List.cons_subset_cons x tail
    · exact List.subset_cons_of_subset x tail

theorem record_window (r : Recorder) (x : Submission) :
    (r.record x.now x.stamp x.report).1.window = r.window := by
  unfold record
  dsimp only
  split <;> rfl

theorem after_window (r : Recorder) (past : List Submission) : (r.after past).window = r.window := by
  induction past generalizing r with
  | nil => rfl
  | cons x rest ih => exact (ih _).trans (r.record_window x)

/-- A recorder at some time, with what has passed. Of what is still young at that time or later, it
remembers everything that has passed and nothing else. -/
structure Remembers (r : Recorder) (since : Nat) (history : List Submission) : Prop where
  sequence : r.sequence = history.length
  recent : ∀ now, since ≤ now → ∀ e : Identity × Nat, now - e.2 < r.window.nanos →
    (e ∈ r.recent ↔ e ∈ history.map Submission.mark)

theorem remembers_new (component : String) (window : Duration) :
    Remembers (.new component window) 0 [] where
  sequence := rfl
  recent _ _ _ _ := Iff.rfl

namespace Remembers

variable {r : Recorder} {since : Nat} {history : List Submission}

theorem mono (h : Remembers r since history) {now : Nat} (later : since ≤ now) :
    Remembers r now history where
  sequence := h.sequence
  recent n above := h.recent n (Nat.le_trans later above)

theorem holds_iff (h : Remembers r since history) {now : Nat} (later : since ≤ now) (i : Identity) :
    (r.prune now).holds i = true ↔
      ∃ y ∈ history, y.report.identity = i ∧ now - y.now < r.window.nanos := by
  have young (e : Identity × Nat) : e ∈ (r.prune now).recent ↔
      e ∈ history.map Submission.mark ∧ now - e.2 < r.window.nanos := by
    simp only [prune, List.mem_filter, decide_eq_true_eq]
    exact and_congr_left (h.recent now later e)
  simp only [holds, List.any_eq_true, beq_iff_eq, young, List.mem_map]
  constructor
  · rintro ⟨_, ⟨⟨y, passed, rfl⟩, fresh⟩, same⟩
    exact ⟨y, passed, same, fresh⟩
  · rintro ⟨y, passed, same, fresh⟩
    exact ⟨y.mark, ⟨⟨y, passed, rfl⟩, fresh⟩, same⟩

theorem record (h : Remembers r since history) (x : Submission) (later : since ≤ x.now) :
    Remembers (r.record x.now x.stamp x.report).1 x.now
      (history ++ r.admitted [x]) := by
  -- what is young later on is young now, so that pruning keeps it
  have kept (now : Nat) (above : x.now ≤ now) (e : Identity × Nat)
      (young : now - e.2 < r.window.nanos) :
      e ∈ (r.prune x.now).recent ↔ e ∈ history.map Submission.mark := by
    have still : x.now - e.2 < r.window.nanos :=
      Nat.lt_of_le_of_lt (Nat.sub_le_sub_right above _) young
    simp only [prune, List.mem_filter, still, decide_true, and_true]
    exact h.recent x.now later e still
  by_cases held : (r.prune x.now).holds x.report.identity = true
  · have stays : r.record x.now x.stamp x.report = (r.prune x.now, none) := if_pos held
    simp only [admitted, stays, Option.isSome_none, Bool.false_eq_true, if_false, List.append_nil]
    exact ⟨h.sequence, kept⟩
  · have moves : r.record x.now x.stamp x.report = _ := if_neg held
    simp only [admitted, moves, Option.isSome_some, if_true]
    refine ⟨?_, fun now above e young => ?_⟩
    · rw [List.length_append, ← h.sequence]
      rfl
    · rw [List.mem_cons, List.map_append, List.mem_append, kept now above e young, or_comm]
      simp [Submission.mark]

theorem after (h : Remembers r since history) {past : List Submission}
    (ordered : past.Pairwise (fun a b => a.now ≤ b.now)) (later : ∀ y ∈ past, since ≤ y.now)
    {now : Nat} (reached : since ≤ now) (above : ∀ y ∈ past, y.now ≤ now) :
    Remembers (r.after past) now (history ++ r.admitted past) := by
  induction past generalizing r since history with
  | nil =>
    rw [admitted, List.append_nil]
    exact h.mono reached
  | cons x rest ih =>
    obtain ⟨first, ordered⟩ := List.pairwise_cons.mp ordered
    have step := h.record x (later x (List.mem_cons_self ..))
    have run := ih step ordered first (above x (List.mem_cons_self ..))
      fun y member => above y (List.mem_cons_of_mem x member)
    rw [List.append_assoc] at run
    exact (r.admitted_append [x] rest) ▸ run

end Remembers

variable {component : String} {window : Duration} {past : List Submission} {x : Submission}

theorem remembers_admitted (ordered : (past ++ [x]).Pairwise (fun a b => a.now ≤ b.now)) :
    Remembers ((new component window).after past) x.now ((new component window).admitted past) := by
  obtain ⟨ordered, -, above⟩ := List.pairwise_append.mp ordered
  exact (remembers_new component window).after ordered (fun _ _ => Nat.zero_le _)
    (Nat.zero_le x.now) fun y member => above y member x (List.mem_singleton_self x)

theorem passes_eq (r : Recorder) (past : List Submission) (x : Submission) :
    r.passes past x = !((r.after past).prune x.now).holds x.report.identity := by
  unfold passes record
  dsimp only
  split <;> simp [*]

theorem passes_iff (ordered : (past ++ [x]).Pairwise (fun a b => a.now ≤ b.now)) :
    (new component window).passes past x = true ↔
      ∀ y ∈ (new component window).admitted past,
        y.report.identity = x.report.identity → window.nanos ≤ x.now - y.now := by
  rw [passes_eq, Bool.not_eq_true', Bool.eq_false_iff, Ne,
    (remembers_admitted ordered).holds_iff (Nat.le_refl _), after_window]
  simp only [not_exists, not_and, Nat.not_lt]
  exact Iff.rfl

/-- A report that does not pass has been there before, however long the window is. -/
theorem admitted_before (ordered : past.Pairwise (fun a b => a.now ≤ b.now)) {y : Submission}
    (member : y ∈ past) :
    ∃ z ∈ (new component window).admitted past, z.report.identity = y.report.identity := by
  obtain ⟨early, late, rfl⟩ := List.append_of_mem member
  rw [admitted_append]
  by_cases passed : (new component window).passes early y = true
  · refine ⟨y, List.mem_append_right _ ?_, rfl⟩
    have first : ((new component window).after early).admitted (y :: late) = y :: _ :=
      if_pos passed
    rw [first]
    exact List.mem_cons_self ..
  · have ordered : (early ++ [y]).Pairwise (fun a b => a.now ≤ b.now) :=
      ordered.sublist
        (List.Sublist.append_left (List.singleton_sublist.mpr (List.mem_cons_self ..)) _)
    rw [passes_iff ordered] at passed
    push Not at passed
    obtain ⟨z, before, same, -⟩ := passed
    exact ⟨z, List.mem_append_left _ before, same⟩

theorem passes_iff_first (ordered : (past ++ [x]).Pairwise (fun a b => a.now ≤ b.now))
    (young : ∀ y ∈ past, x.now - y.now < window.nanos) :
    (new component window).passes past x = true ↔
      ∀ y ∈ past, y.report.identity ≠ x.report.identity := by
  rw [passes_iff ordered]
  constructor
  · intro free y member same
    have earlier := (List.pairwise_append.mp ordered).1
    obtain ⟨z, passed, alike⟩ : ∃ z ∈ (new component window).admitted past, _ :=
      admitted_before earlier member
    have expired := free z passed (alike.trans same)
    exact absurd (young z (admitted_subset _ _ passed)) (Nat.not_lt.mpr expired)
  · intro first y passed same
    exact absurd same (first y (admitted_subset _ _ passed))

theorem length_serial (n : Nat) : (serial n).length = 4 := by
  have short : (Nat.toDigits 16 (n % 0x10000)).length ≤ 4 :=
    Nat.toDigits_length 16 (n % 0x10000) 4 (by decide) (Nat.mod_lt n (by decide))
  simp only [serial, String.length_ofList, List.length_append, List.length_replicate]
  omega

theorem hexNumber_serial (n : Nat) : Store.hexNumber (serial n).toList = n % 0x10000 := by
  rw [serial, String.toList_ofList, Store.hexNumber_pad, Store.hexNumber_toDigits]

theorem event_of_record {r next : Recorder} {x : Submission} {event : Event}
    (passed : r.record x.now x.stamp x.report = (next, some event)) :
    event = r.event x.stamp x.report := by
  unfold record at passed
  dsimp only at passed
  split at passed
  · cases passed
  · cases passed
    rfl

end Recorder

namespace Deployment

/-- A report is recorded at its time, with a sink that fails so many times from here on. -/
def submit (d : Deployment) (s : Recorder.Submission × Nat) : Deployment :=
  { d with
    wall := s.1.now
    stamp := s.1.stamp
    drill := { d.drill with failingPublishes := s.2 } }.record s.1.report

theorem submit_of_passed {d : Deployment} {x : Recorder.Submission} (failing : Nat)
    {r : Recorder} {event : Event}
    (passed : d.operator.recorder.record x.now x.stamp x.report = (r, some event)) :
    let sink := { d.drill with failingPublishes := failing }
    let t := d.submit (x, failing)
    t.operator.recorder = r ∧ t.drill = (sink.publish event).1 ∧
      t.journal = if failing = 0 then d.journal
        else d.journal.push (.publishFailed x.report.monitor.key.text x.report.reason
          "event sink offline") := by
  by_cases working : failing = 0
  · simp [submit, record, passed, onDrill, Drill.publish, working]
  · simp [submit, record, passed, onDrill, Drill.publish, working, log]

theorem submit_of_suppressed {d : Deployment} {x : Recorder.Submission} (failing : Nat)
    {r : Recorder} (suppressed : d.operator.recorder.record x.now x.stamp x.report = (r, none)) :
    let t := d.submit (x, failing)
    t.operator.recorder = r ∧ t.drill = { d.drill with failingPublishes := failing } ∧
      t.journal = d.journal := by
  simp [submit, record, suppressed]

theorem submit_recorder (d : Deployment) (s : Recorder.Submission × Nat) :
    (d.submit s).operator.recorder = d.operator.recorder.after [s.1] := by
  obtain ⟨x, failing⟩ := s
  cases answer : d.operator.recorder.record x.now x.stamp x.report with
  | mk r event =>
    have next : d.operator.recorder.after [x] = r := congrArg Prod.fst answer
    cases event with
    | none => exact (submit_of_suppressed failing answer).1.trans next.symm
    | some event => exact (submit_of_passed failing answer).1.trans next.symm

theorem submits_recorder (d : Deployment) (ts : List (Recorder.Submission × Nat)) :
    (ts.foldl submit d).operator.recorder = d.operator.recorder.after (ts.map Prod.fst) := by
  induction ts generalizing d with
  | nil => rfl
  | cons s rest ih =>
    rw [List.foldl_cons, ih, submit_recorder]
    rfl

/-- Of reports that come in the order of time, one passes exactly if no other that has passed within
the window has the same text for the same monitor: any passes without a window, and only the first
of a text as long as nothing expires. What passes is published once, under the count of what has
passed before; what does not leaves no trace. A sink that fails is logged, and the recorder goes on
as if it had not. -/
theorem reports_pass_once_a_window {d : Deployment} {component : String} {window : Duration}
    (fresh : d.operator.recorder = .new component window)
    (before : List (Recorder.Submission × Nat)) (x : Recorder.Submission) (failing : Nat)
    (ordered : (before.map Prod.fst ++ [x]).Pairwise (fun a b => a.now ≤ b.now)) :
    let r := Recorder.new component window
    let past := before.map Prod.fst
    let passed := r.admitted past
    let suffix := Recorder.serial passed.length
    let monitor := x.report.monitor
    let s := before.foldl submit d
    let sink := { s.drill with failingPublishes := failing }
    let t := s.submit (x, failing)
    (r.passes past x = true ↔
      ∀ y ∈ passed, y.report.identity = x.report.identity → window.nanos ≤ x.now - y.now) ∧
    (window.nanos = 0 → r.passes past x = true) ∧
    ((∀ y ∈ past, x.now - y.now < window.nanos) →
      (r.passes past x = true ↔ ∀ y ∈ past, y.report.identity ≠ x.report.identity)) ∧
    suffix.length = 4 ∧
    Store.hexNumber suffix.toList = passed.length % 0x10000 ∧
    (r.passes past x = true → ∃ event : Event,
      event.metadata =
        ⟨monitor.metadata.name ++ "." ++ x.stamp.hex ++ suffix, monitor.metadata.ns⟩ ∧
      event.type = x.report.type ∧
      event.reason = x.report.reason ∧
      event.message = x.report.message ∧
      t.drill = (sink.publish event).1 ∧
      t.journal = if failing = 0 then s.journal
        else s.journal.push (.publishFailed monitor.key.text x.report.reason
          "event sink offline")) ∧
    (r.passes past x = false → t.drill = sink ∧ t.journal = s.journal) ∧
    t.operator.recorder = r.after (past ++ [x]) := by
  intro r past passed suffix monitor s sink t
  have recorder : s.operator.recorder = r.after past :=
    (submits_recorder d before).trans (congrArg (Recorder.after · past) fresh)
  let answer := (r.after past).record x.now x.stamp x.report
  have rule : r.passes past x = true ↔ _ := Recorder.passes_iff ordered
  have count : (r.after past).sequence = passed.length :=
    (Recorder.remembers_admitted ordered).sequence
  refine ⟨rule, fun none => ?_, Recorder.passes_iff_first ordered, Recorder.length_serial _,
    Recorder.hexNumber_serial _, fun passes => ?_, fun suppressed => ?_, ?_⟩
  · rw [rule]
    intro y _ _
    rw [none]
    exact Nat.zero_le _
  · obtain ⟨event, found⟩ := Option.isSome_iff_exists.mp passes
    have pair : (r.after past).record x.now x.stamp x.report = (answer.1, some event) :=
      Prod.ext rfl found
    obtain ⟨-, drill, journal⟩ := submit_of_passed failing (recorder ▸ pair)
    have shape := Recorder.event_of_record pair
    refine ⟨event, ?_, ?_, ?_, ?_, drill, journal⟩
    · rw [shape, Recorder.event, count]
    all_goals rw [shape]; rfl
  · have found := Option.not_isSome_iff_eq_none.mp (Bool.eq_false_iff.mp suppressed)
    have pair : (r.after past).record x.now x.stamp x.report = (answer.1, none) :=
      Prod.ext rfl found
    exact (submit_of_suppressed failing (recorder ▸ pair)).2
  · rw [submit_recorder, recorder]
    exact (List.foldl_append ..).symm

theorem reports_pass_once_a_window_although_lost :
    let said (now : Nat) (message : String) : Recorder.Submission :=
      ⟨now, ⟨"t", ""⟩, ⟨{ metadata := { ns := "a", name := "x" } }, .warning, "Late", message⟩⟩
    let d : Deployment := {
      drill := { store := .empty 10 }
      operator := .ofParts ({ window := ⟨10, by decide⟩ } : Operator.Parts Unit Unit)
      stamp := ⟨"t", ""⟩ }
    let before := [(said 0 "m", 1), (said 5 "m", 0), (said 6 "n", 0)]
    let s := before.foldl submit d
    let t := s.submit (said 10 "m", 0)
    s.journal.size = 1 ∧ s.drill.store.events.map (·.message) = ["n"] ∧
      ∃ event : Event, event.metadata = ⟨"x.t0002", "a"⟩ ∧ event.message = "m" ∧
        t.drill.store = s.drill.store.publish event ∧ t.journal = s.journal := by
  intro said d before s t
  obtain ⟨rule, -, -, -, -, published, -⟩ := reports_pass_once_a_window (d := d) rfl
    before (said 10 "m") 0 (by simp [before, said])
  obtain ⟨event, named, -, -, message, drill, journal⟩ := published (rule.mpr (by decide))
  have count : ((Recorder.new Operator.component ⟨10, by decide⟩).admitted
      (before.map Prod.fst)).length = 2 := rfl
  rw [count] at named
  have store : t.drill.store = s.drill.store.publish event := by
    rw [drill, Drill.publish, if_pos rfl]
  exact ⟨rfl, rfl, event, named.trans (by decide), message, store, journal⟩

end Deployment

end MonitorOperator
